import Mathlib

/-!
# Reading JSON trees

JSON values and the ways of reading them that throw: `value(key, default)` and
`at(key)` need an object, `get<T>()` needs a value of the right kind.  For each of
them there is a lemma that says exactly when it returns.
-/

namespace Cppload

/-- A JSON value.  An object is the list of its fields; a number is taken as exact. -/
inductive Json where
  | null
  | bool (value : Bool)
  | number (value : ℚ)
  | string (value : String)
  | array (items : List Json)
  | object (fields : List (String × Json))

/-- The exceptions of `nlohmann::json` that reading can throw. -/
inductive JsonError where
  | typeError
  | outOfRange
  deriving DecidableEq, Repr

namespace Json

def field? (key : String) : Json → Option Json
  | .object fields => fields.lookup key
  | _ => none

def isObject : Json → Bool
  | .object _ => true
  | _ => false

def isString : Json → Bool
  | .string _ => true
  | _ => false

def isNumber : Json → Bool
  | .number _ => true
  | _ => false

def items? : Json → Option (List Json)
  | .array items => some items
  | _ => none

/-- `get<std::string>()`. -/
def getString : Json → Except JsonError String
  | .string value => .ok value
  | _ => .error .typeError

/-- `get<double>()`. -/
def getDouble : Json → Except JsonError ℚ
  | .number value => .ok value
  | _ => .error .typeError

/-- `value(key, default)` with a string for the default. -/
def value (json : Json) (key default : String) : Except JsonError String :=
  match json with
  | .object fields =>
      match fields.lookup key with
      | some field => field.getString
      | none => .ok default
  | _ => .error .typeError

/-- `at(key)`. -/
def atKey (json : Json) (key : String) : Except JsonError Json :=
  match json with
  | .object fields =>
      match fields.lookup key with
      | some field => .ok field
      | none => .error .outOfRange
  | _ => .error .typeError

/-- `at(key).get<T>()`. -/
def getAt {Value : Type} (json : Json) (key : String)
    (convert : Json → Except JsonError Value) : Except JsonError Value :=
  (json.atKey key).bind convert

/-- The members over which an iterator goes: every key once, with the value that is found
under it. -/
def members (fields : List (String × Json)) : List (String × Json) :=
  (fields.map Prod.fst).dedup.filterMap fun key => (fields.lookup key).map fun field => (key, field)

/-- The field is absent or holds a string. -/
def OptionalString (json : Json) (key : String) : Prop :=
  ∀ field ∈ json.field? key, field.isString = true

/-- The field is there and passes the test. -/
def Required (json : Json) (key : String) (passes : Json → Bool) : Prop :=
  ∃ field ∈ json.field? key, passes field = true

theorem exists_getString_iff {json : Json} :
    (∃ text, json.getString = .ok text) ↔ json.isString = true := by
  cases json <;> simp [getString, isString]

theorem exists_getDouble_iff {json : Json} :
    (∃ number, json.getDouble = .ok number) ↔ json.isNumber = true := by
  cases json <;> simp [getDouble, isNumber]

/-- `value` returns exactly for objects whose field is absent or a string. -/
theorem exists_value_iff {json : Json} {key default : String} :
    (∃ text, json.value key default = .ok text) ↔
      json.isObject = true ∧ json.OptionalString key := by
  cases json with
  | object fields =>
      cases found : fields.lookup key with
      | none => simp [value, isObject, OptionalString, field?, found]
      | some field =>
          simp only [value, isObject, OptionalString, field?, found, Option.mem_def,
            Option.some.injEq, forall_eq', true_and]
          exact exists_getString_iff
  | null | bool | number | string | array => simp [value, isObject]

/-- `at` followed by a conversion returns exactly when the field is there and
converts. -/
theorem exists_getAt_iff {Value : Type} {json : Json} {key : String}
    {convert : Json → Except JsonError Value} {passes : Json → Bool}
    (converts : ∀ field, (∃ value, convert field = .ok value) ↔ passes field = true) :
    (∃ value, json.getAt key convert = .ok value) ↔ json.Required key passes := by
  cases json with
  | object fields =>
      cases found : fields.lookup key with
      | none => simp [getAt, atKey, Required, field?, found, Except.bind]
      | some field => simp [getAt, atKey, Required, field?, found, Except.bind, converts]
  | null | bool | number | string | array =>
      simp [getAt, atKey, Required, field?, Except.bind]

theorem mem_members_iff {fields : List (String × Json)} {key : String} {field : Json} :
    (key, field) ∈ members fields ↔ fields.lookup key = some field := by
  simp only [members, List.mem_filterMap, List.mem_dedup, Option.map_eq_some_iff, Prod.mk.injEq]
  constructor
  · rintro ⟨other, -, value, found, rfl, rfl⟩
    exact found
  · intro found
    obtain ⟨before, after, rfl, -⟩ := List.lookup_eq_some_iff.mp found
    exact ⟨key, by simp, field, found, rfl, rfl⟩

theorem nodup_members (fields : List (String × Json)) : ((members fields).map Prod.fst).Nodup := by
  have keys : (members fields).map Prod.fst =
      (fields.map Prod.fst).dedup.filter fun key => (fields.lookup key).isSome := by
    unfold members
    induction (fields.map Prod.fst).dedup with
    | nil => rfl
    | cons key keys induction =>
        cases found : fields.lookup key with
        | none => simp [found, induction]
        | some field => simp [found, induction]
  rw [keys]
  exact (List.nodup_dedup _).filter _

end Json

theorem exists_bind_ok_iff {Error First Second : Type} {first : Except Error First}
    {second : First → Except Error Second} :
    (∃ result, first.bind second = .ok result) ↔
      ∃ value, first = .ok value ∧ ∃ result, second value = .ok result := by
  cases first <;> simp [Except.bind]

end Cppload
