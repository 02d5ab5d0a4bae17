import Mathlib

/-!
# Tables

Finite maps as association lists with unique keys, beyond what the library has
on them: building a table entry by entry, keeping the values that pass a test,
and properties that all values share.
-/

namespace Cppload

abbrev Table (Key Value : Type*) :=
  AList fun _ : Key => Value

namespace Table

variable {Key Value : Type*}

/-- Keep the entries whose value passes the test. -/
def keep (table : Table Key Value) (passes : Value → Bool) : Table Key Value where
  entries := table.entries.filter fun entry => passes entry.2
  nodupKeys := (List.filter_sublist.map Sigma.fst).nodup table.nodupKeys

/-- All values, in no particular order. -/
def values (table : Table Key Value) : List Value :=
  table.entries.map fun entry => entry.2

theorem values_keep (table : Table Key Value) (passes : Value → Bool) :
    (table.keep passes).values = table.values.filter passes :=
  List.filter_map.symm

/-- Every value tells its key. -/
def Keyed (keyOf : Value → Key) (table : Table Key Value) : Prop :=
  ∀ entry ∈ table.entries, keyOf entry.2 = entry.1

theorem Keyed.of_sublist {keyOf : Value → Key} {table later : Table Key Value}
    (keyed : Keyed keyOf table) (fewer : later.entries.Sublist table.entries) :
    Keyed keyOf later :=
  fun entry member => keyed entry (fewer.subset member)

variable [DecidableEq Key] {table : Table Key Value} {key : Key} {value : Value}

/-- Enter the pairs one after the other. -/
def ofList (pairs : List (Key × Value)) : Table Key Value :=
  pairs.foldl (fun table pair => AList.insert pair.1 pair.2 table) ∅

@[simp]
theorem ofList_nil : ofList ([] : List (Key × Value)) = ∅ :=
  rfl

theorem ofList_concat (pairs : List (Key × Value)) (pair : Key × Value) :
    ofList (pairs ++ [pair]) = AList.insert pair.1 pair.2 (ofList pairs) := by
  simp [ofList, List.foldl_append]

/-- What is entered later counts. -/
theorem lookup_ofList_append (first second : List (Key × Value)) (key : Key) :
    (ofList (first ++ second)).lookup key =
      ((ofList second).lookup key).or ((ofList first).lookup key) := by
  induction second using List.reverseRecOn with
  | nil => simp
  | append_singleton second pair induction =>
      rw [← List.append_assoc, ofList_concat, ofList_concat]
      by_cases same : key = pair.1
      · subst same
        simp
      · rw [AList.lookup_insert_ne same, AList.lookup_insert_ne same, induction]

theorem lookup_ofList_isSome (pairs : List (Key × Value)) (key : Key) :
    ((ofList pairs).lookup key).isSome = true ↔ key ∈ pairs.map Prod.fst := by
  induction pairs using List.reverseRecOn with
  | nil => simp
  | append_singleton pairs pair induction =>
      rw [ofList_concat, List.map_append, List.mem_append, ← induction]
      by_cases same : key = pair.1
      · subst same
        simp
      · simp [AList.lookup_insert_ne same, same]

/-- Entries before others show exactly if their keys are not entered again. -/
theorem lookup_ofList_append_eq_iff (first second : List (Key × Value)) :
    (∀ key, (ofList (first ++ second)).lookup key = (ofList second).lookup key) ↔
      ∀ key ∈ first.map Prod.fst, key ∈ second.map Prod.fst := by
  simp only [lookup_ofList_append, ← lookup_ofList_isSome]
  refine forall_congr' fun key => ?_
  cases (ofList second).lookup key with
  | none => cases (ofList first).lookup key <;> simp
  | some value => simp

theorem lookup_keep (table : Table Key Value) (passes : Value → Bool) (key : Key) :
    (table.keep passes).lookup key = (table.lookup key).filter passes := by
  apply Option.ext
  intro value
  rw [Option.filter_eq_some_iff, ← Option.mem_def, ← Option.mem_def, AList.mem_lookup_iff,
    AList.mem_lookup_iff]
  exact List.mem_filter

theorem mem_of_mem_keep {passes : Value → Bool} (member : key ∈ table.keep passes) :
    key ∈ table := by
  rw [← AList.lookup_isSome, lookup_keep, Option.isSome_iff_exists] at member
  obtain ⟨value, found⟩ := member
  rw [← AList.lookup_isSome, (Option.filter_eq_some_iff.mp found).1]
  rfl

theorem values_insert (fresh : key ∉ table) (value : Value) :
    values (AList.insert key value table) = value :: table.values := by
  rw [values, AList.entries_insert_of_notMem fresh, List.map_cons]
  rfl

theorem Keyed.insert {keyOf : Value → Key} (keyed : Keyed keyOf table)
    (value : Value) : Keyed keyOf (AList.insert (keyOf value) value table) := by
  intro entry member
  rw [AList.entries_insert, List.mem_cons] at member
  rcases member with rfl | kept
  · rfl
  · exact keyed entry ((List.kerase_sublist _ _).subset kept)

theorem kerase_eq_filter (entries : List (Sigma fun _ : Key => Value))
    (distinct : entries.NodupKeys) (key : Key) :
    entries.kerase key = entries.filter fun entry => entry.1 ≠ key := by
  induction entries with
  | nil => rfl
  | cons entry rest ih =>
      have ⟨absent, distinctRest⟩ := List.nodupKeys_cons.mp distinct
      by_cases same : key = entry.1
      · have others : ∀ other ∈ rest, decide (other.1 ≠ key) = true := by
          intro other member
          have different : other.1 ≠ key := by
            rintro rfl
            exact absent (same ▸ List.mem_keys_of_mem member)
          exact decide_eq_true different
        rw [List.kerase_cons_eq same, List.filter_cons_of_neg (by simp [same]),
          List.filter_eq_self.mpr others]
      · rw [List.kerase_cons_ne same, List.filter_cons_of_pos (by simpa using Ne.symm same),
          ih distinctRest]

theorem Keyed.values_erase {keyOf : Value → Key} (keyed : Keyed keyOf table) (key : Key) :
    values (table.erase key) = table.values.filter fun value => keyOf value ≠ key := by
  have erased : (table.erase key).entries = table.entries.filter fun entry => entry.1 ≠ key :=
    kerase_eq_filter _ table.nodupKeys key
  rw [values, erased, values, List.filter_map]
  congr 1
  apply List.filter_congr
  intro entry member
  simp [keyed entry member]

theorem Keyed.lookup_eq_some_iff {keyOf : Value → Key} (keyed : Keyed keyOf table) :
    table.lookup key = some value ↔ value ∈ table.values ∧ keyOf value = key := by
  rw [← Option.mem_def, AList.mem_lookup_iff, values, List.mem_map]
  constructor
  · intro member
    exact ⟨⟨_, member, rfl⟩, keyed _ member⟩
  · rintro ⟨⟨entry, member, rfl⟩, rfl⟩
    rwa [keyed entry member]

/-- Every entry of the one table is an entry of the other. -/
def Included (before after : Table Key Value) : Prop :=
  ∀ key value, before.lookup key = some value → after.lookup key = some value

theorem Included.refl (table : Table Key Value) : table.Included table :=
  fun _ _ found => found

/-- A new entry replaces none. -/
theorem included_insert (fresh : key ∉ table) (value : Value) :
    table.Included (AList.insert key value table) := by
  intro other found located
  have distinct : other ≠ key := by
    rintro rfl
    rw [AList.lookup_eq_none.mpr fresh] at located
    cases located
  rw [AList.lookup_insert_ne distinct, located]

def All (table : Table Key Value) (property : Value → Prop) : Prop :=
  ∀ key value, table.lookup key = some value → property value

namespace All

variable {property weaker : Value → Prop}

@[simp]
theorem empty : All (∅ : Table Key Value) property := by
  intro key value found
  simp at found

theorem insert (all : table.All property) (key : Key) (holds : property value) :
    All (AList.insert key value table) property := by
  intro other found located
  by_cases same : other = key
  · subst same
    rw [AList.lookup_insert, Option.some.injEq] at located
    exact located ▸ holds
  · rw [AList.lookup_insert_ne same] at located
    exact all other found located

theorem mono (all : table.All property) (implied : ∀ value, property value → weaker value) :
    table.All weaker :=
  fun key value found => implied value (all key value found)

theorem keep (all : table.All property) (passes : Value → Bool) :
    (table.keep passes).All fun value => property value ∧ passes value = true := by
  intro key value found
  rw [lookup_keep, Option.filter_eq_some_iff] at found
  exact ⟨all key value found.1, found.2⟩

end All

end Table

end Cppload
