import Cppload.Numerals
import Cppload.TextMarks

/-!
# YAML documents

The trees that are read, looking up a key and converting a node, and the substitution
of environment variables in the scalars of a document.  An alias in a document is the
node of its anchor: `yaml-cpp` loads a graph, whose scalars are named here, and what is
written into a node shows wherever the node stands.  A node that contains itself is not
considered.  How `yaml-cpp` turns the text of a scalar into a number or a truth value is
an argument.
-/

namespace Cppload

inductive Yaml where
  | null
  | scalar (text : Text)
  | sequence (items : List Yaml)
  | map (entries : List (Yaml × Yaml))

/-- The exceptions of `yaml-cpp` that reading a tree can throw. -/
inductive YamlError where
  | badSubscript
  | badConversion
  deriving DecidableEq, Repr

namespace Yaml

def isMap : Yaml → Bool
  | .map _ => true
  | _ => false

/-- The first entry of a map under a key. -/
def lookup (key : Text) : List (Yaml × Yaml) → Option Yaml
  | [] => none
  | (.scalar text, value) :: rest => if text = key then some value else lookup key rest
  | _ :: rest => lookup key rest

/-- `node[key]`; a scalar has no keys, and `none` is an undefined node. -/
def field (node : Yaml) (key : String) : Except YamlError (Option Yaml) :=
  match node with
  | .map entries => .ok (lookup key.toList entries)
  | .scalar _ => .error .badSubscript
  | .null | .sequence _ => .ok none

/-- The items of a sequence; the loops over other nodes are not entered. -/
def items : Yaml → List Yaml
  | .sequence items => items
  | _ => []

/-- The entries of a map; the loops over other nodes are not entered. -/
def entries : Yaml → List (Yaml × Yaml)
  | .map entries => entries
  | _ => []

/-- `if (node[key]) value = node[key].as<T>()` for a value that has a default. -/
def read {Value : Type} (node : Yaml) (key : String)
    (convert : Yaml → Except YamlError Value) (default : Value) : Except YamlError Value :=
  match node.field key with
  | .error error => .error error
  | .ok none => .ok default
  | .ok (some found) => convert found

end Yaml

/-- What `yaml-cpp` makes of the texts of scalars, of a null node that is asked for a
string, and of a node that is written out. -/
structure YamlLibrary where
  nullString : Option Text
  toBool : Text → Option Bool
  toUInt16 : Text → Option UInt16
  toUInt32 : Text → Option UInt32
  toDouble : Text → Option Double
  emit : Yaml → Text

namespace YamlLibrary

/-- `as<T>()` for a type that is read from the text of a scalar. -/
def convert {Value : Type} (read : Text → Option Value) : Yaml → Except YamlError Value
  | .scalar text =>
      match read text with
      | some value => .ok value
      | none => .error .badConversion
  | _ => .error .badConversion

variable (library : YamlLibrary)

/-- `as<std::string>()`. -/
def asString : Yaml → Except YamlError Text
  | .scalar text => .ok text
  | .null =>
      match library.nullString with
      | some text => .ok text
      | none => .error .badConversion
  | _ => .error .badConversion

end YamlLibrary

/-! ## Environment variables -/

/-- The group between `${` and `}`: the name, and the default after `:-` if there is
one. -/
def envGroup (expr : Text) : Text × Option Text :=
  match Text.splitAt [':', '-'] expr with
  | some (name, default) => (name, some default)
  | none => (expr, none)

/-- The names that are looked up. -/
def validEnvName (name : Text) : Bool :=
  name ≠ [] && name.all fun c => c.isAlphanum || c = '_'

/-- The value of a group; it is empty for an unknown variable without a default. -/
def envValue (env : Text → Option Text) (expr : Text) : Text :=
  let group := envGroup expr
  let value := if validEnvName group.1 then (env group.1).getD [] else []
  if value = [] then group.2.getD [] else value

/-- The name of `first_missing` after a group. -/
def envMissing (env : Text → Option Text) (expr missing : Text) : Text :=
  let group := envGroup expr
  if validEnvName group.1 ∧ (env group.1).getD [] = [] ∧ group.2 = none ∧ missing = [] then
    group.1
  else missing

/-- The loop of `substitute_env` over a text, with `first_missing`.  Every round but
the last uses up at least three characters, so that the length of the text is fuel
enough. -/
def substituteLoop (env : Text → Option Text) : ℕ → Text → Text → Text × Text
  | 0, text, missing => (text, missing)
  | fuel + 1, text, missing =>
      match Text.splitAt ['$', '\x7b'] text with
      | none => (text, missing)
      | some (before, rest) =>
          match Text.splitAt ['\x7d'] rest with
          -- An unclosed group is copied with all that follows it.
          | none => (text, missing)
          | some (expr, after) =>
              let result := substituteLoop env fuel after (envMissing env expr missing)
              (before ++ envValue env expr ++ result.1, result.2)

def substituteText (env : Text → Option Text) (text missing : Text) : Text × Text :=
  substituteLoop env text.length text missing

/-! ### Documents -/

/-- The nodes of a document.  The same scalar can stand in several places. -/
inductive Outline where
  | null
  | scalar (node : ℕ)
  | sequence (items : List Outline)
  | map (entries : List (Outline × Outline))

namespace Outline

mutual

/-- The tree that is read, with the texts of the scalars. -/
def fill (texts : ℕ → Text) : Outline → Yaml
  | .null => .null
  | .scalar node => .scalar (texts node)
  | .sequence items => .sequence (fillItems texts items)
  | .map entries => .map (fillEntries texts entries)

def fillItems (texts : ℕ → Text) : List Outline → List Yaml
  | [] => []
  | item :: rest => item.fill texts :: fillItems texts rest

def fillEntries (texts : ℕ → Text) : List (Outline × Outline) → List (Yaml × Yaml)
  | [] => []
  | (key, value) :: rest => (key.fill texts, value.fill texts) :: fillEntries texts rest

end

end Outline

/-- The texts of the scalars and `first_missing`. -/
structure EnvState where
  texts : ℕ → Text
  missing : Text

/-- `substitute_env` at a scalar; `node = result` writes into the node. -/
def EnvState.visit (env : Text → Option Text) (state : EnvState) (node : ℕ) : EnvState :=
  let result := substituteText env (state.texts node) state.missing
  ⟨Function.update state.texts node result.1, result.2⟩

mutual

/-- `substitute_env`: the scalars of a document in their order, the keys of maps
excepted. -/
def substituteEnv (env : Text → Option Text) : Outline → EnvState → EnvState
  | .null, state => state
  | .scalar node, state => state.visit env node
  | .sequence items, state => substituteItems env items state
  | .map entries, state => substituteEntries env entries state

def substituteItems (env : Text → Option Text) : List Outline → EnvState → EnvState
  | [], state => state
  | item :: rest, state => substituteItems env rest (substituteEnv env item state)

def substituteEntries (env : Text → Option Text) :
    List (Outline × Outline) → EnvState → EnvState
  | [], state => state
  | (_, value) :: rest, state => substituteEntries env rest (substituteEnv env value state)

end

/-- A document that was loaded. -/
structure Document where
  outline : Outline
  texts : ℕ → Text

/-- The texts of scalars that are numbered in the order of a list. -/
def numbered (texts : List String) (node : ℕ) : Text :=
  (texts[node]?.getD "").toList

/-- The document with its variables put in, and the first one that is missing. -/
def Document.substituted (env : Text → Option Text) (document : Document) : Yaml × Text :=
  let state := substituteEnv env document.outline ⟨document.texts, []⟩
  (document.outline.fill state.texts, state.missing)

end Cppload
