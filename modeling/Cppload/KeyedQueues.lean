import Mathlib

/-!
# Maps from keys to queues

An association list with unique keys whose values are queues, with the
accounting of all queued entries: replacing one queue exchanges exactly the
entries of that queue, and trimming every queue keeps the entries of the
trimmed queues.
-/

namespace Cppload

/-- A map from keys to queues; an absent key stands for an empty queue. -/
abbrev KeyedQueues (Key Entry : Type*) :=
  AList fun _ : Key => List Entry

namespace KeyedQueues

variable {Key Entry : Type*}

/-- All entries of all queues. -/
def contents (store : KeyedQueues Key Entry) : List Entry :=
  store.entries.flatMap fun pair => pair.2

@[simp]
theorem contents_empty : contents (∅ : KeyedQueues Key Entry) = [] :=
  rfl

/-- Shorten one queue, forgetting its key when nothing is left. -/
def trimPair (shorten : List Entry → List Entry)
    (pair : Sigma fun _ : Key => List Entry) :
    Option (Sigma fun _ : Key => List Entry) :=
  if (shorten pair.2).isEmpty then none else some ⟨pair.1, shorten pair.2⟩

theorem keys_filterMap_trimPair_sublist (shorten : List Entry → List Entry)
    (pairs : List (Sigma fun _ : Key => List Entry)) :
    (pairs.filterMap (trimPair shorten)).keys.Sublist pairs.keys := by
  induction pairs with
  | nil => exact List.Sublist.slnil
  | cons pair pairs ih =>
      rw [List.filterMap_cons]
      by_cases isEmpty : (shorten pair.2).isEmpty
      · simp only [trimPair, isEmpty, if_true]
        exact ih.cons pair.1
      · simp only [trimPair, isEmpty, Bool.false_eq_true, if_false, List.keys_cons]
        exact ih.cons_cons pair.1

/-- Shorten every queue and forget the keys whose queue became empty. -/
def trim (store : KeyedQueues Key Entry) (shorten : List Entry → List Entry) :
    KeyedQueues Key Entry where
  entries := store.entries.filterMap (trimPair shorten)
  nodupKeys := (keys_filterMap_trimPair_sublist shorten store.entries).nodup
    store.nodupKeys

theorem contents_trim (store : KeyedQueues Key Entry)
    (shorten : List Entry → List Entry) :
    contents (trim store shorten) =
      store.entries.flatMap fun pair => shorten pair.2 := by
  unfold contents trim
  dsimp only
  induction store.entries with
  | nil => rfl
  | cons pair pairs ih =>
      rw [List.filterMap_cons, List.flatMap_cons]
      by_cases isEmpty : (shorten pair.2).isEmpty
      · simp only [trimPair, List.isEmpty_iff.mp isEmpty, List.nil_append]
        exact ih
      · simp only [trimPair, isEmpty, Bool.false_eq_true, if_false,
          List.flatMap_cons]
        rw [← ih]

variable [DecidableEq Key]

/-- The queue stored under a key. -/
def queue (store : KeyedQueues Key Entry) (key : Key) : List Entry :=
  (store.lookup key).getD []

/-- Replacing the queue of a key trades its old entries for the new ones. -/
theorem contents_insert_perm (store : KeyedQueues Key Entry) (key : Key)
    (entries : List Entry) :
    (contents (store.insert key entries) ++ queue store key).Perm
      (contents store ++ entries) := by
  by_cases present : key ∈ store
  · obtain ⟨old, front, back, absent, split, erased⟩ :=
      List.exists_of_kerase (AList.mem_keys.mp present)
    have lookupEq : store.lookup key = some old := by
      apply (AList.mem_lookup_iff).mpr
      rw [split]
      simp
    simp only [contents, queue, lookupEq, Option.getD_some]
    rw [AList.entries_insert, erased, split]
    simp only [List.flatMap_cons, List.flatMap_append]
    rw [← Multiset.coe_eq_coe]
    simp only [← Multiset.coe_add]
    abel
  · have lookupEq : store.lookup key = none := AList.lookup_eq_none.mpr present
    simp only [contents, queue, lookupEq, Option.getD_none, List.append_nil,
      AList.entries_insert_of_notMem present, List.flatMap_cons]
    exact List.perm_append_comm

@[simp]
theorem queue_insert (store : KeyedQueues Key Entry) (key : Key) (entries : List Entry) :
    queue (store.insert key entries) key = entries := by
  simp [queue]

theorem queue_insert_of_ne (store : KeyedQueues Key Entry) {key other : Key}
    (distinct : other ≠ key) (entries : List Entry) :
    queue (store.insert key entries) other = queue store other := by
  rw [queue, AList.lookup_insert_ne distinct, queue]

/-! ### Trimmed queues -/

theorem dlookup_filterMap_trimPair (shorten : List Entry → List Entry) (key : Key)
    {pairs : List (Sigma fun _ : Key => List Entry)} (distinct : pairs.NodupKeys) :
    (pairs.filterMap (trimPair shorten)).dlookup key =
      (pairs.dlookup key).bind fun entries =>
        if (shorten entries).isEmpty then none else some (shorten entries) := by
  induction pairs with
  | nil => rfl
  | cons pair pairs ih =>
      obtain ⟨first, entries⟩ := pair
      obtain ⟨absent, rest⟩ := List.nodupKeys_cons.mp distinct
      have restEq := ih rest
      rw [List.filterMap_cons]
      by_cases same : key = first
      · subst same
        rw [List.dlookup_eq_none.mpr absent] at restEq
        rw [List.dlookup_cons_eq]
        by_cases empty : shorten entries = []
        · simpa [trimPair, empty] using restEq
        · simp [trimPair, empty]
      · rw [List.dlookup_cons_ne _ _ same, ← restEq]
        by_cases empty : shorten entries = []
        · simp [trimPair, empty]
        · have skipped : trimPair shorten ⟨first, entries⟩ = some ⟨first, shorten entries⟩ := by
            simp [trimPair, empty]
          rw [skipped]
          exact List.dlookup_cons_ne _ _ same

theorem lookup_trim (store : KeyedQueues Key Entry) (shorten : List Entry → List Entry)
    (key : Key) :
    (trim store shorten).lookup key =
      (store.lookup key).bind fun entries =>
        if (shorten entries).isEmpty then none else some (shorten entries) :=
  dlookup_filterMap_trimPair shorten key store.nodupKeys

/-- Trimming shortens the queue of every key. -/
theorem queue_trim (store : KeyedQueues Key Entry) {shorten : List Entry → List Entry}
    (nothing : shorten [] = []) (key : Key) :
    queue (trim store shorten) key = shorten (queue store key) := by
  rw [queue, lookup_trim, queue]
  cases store.lookup key with
  | none => exact nothing.symm
  | some entries =>
      by_cases empty : (shorten entries).isEmpty
      · simp only [Option.bind_some, empty, if_true, Option.getD_none, Option.getD_some]
        exact (List.isEmpty_iff.mp empty).symm
      · simp only [Option.bind_some, empty, Bool.false_eq_true, if_false, Option.getD_some]

/-- A key is left when its queue is. -/
theorem mem_trim_iff (store : KeyedQueues Key Entry) (shorten : List Entry → List Entry)
    (key : Key) :
    key ∈ trim store shorten ↔ queue (trim store shorten) key ≠ [] := by
  rw [← AList.lookup_isSome, queue, lookup_trim]
  cases store.lookup key with
  | none => simp
  | some entries => by_cases empty : shorten entries = [] <;> simp [empty]

/-- Dropping the entries in front that meet a condition drops all of them, when
every entry before one of them meets it too. -/
theorem dropWhile_eq_filter {condition : Entry → Bool} {entries : List Entry}
    (ordered : entries.Pairwise fun earlier later =>
      condition later = true → condition earlier = true) :
    entries.dropWhile condition = entries.filter fun entry => !condition entry := by
  induction entries with
  | nil => rfl
  | cons entry entries ih =>
      obtain ⟨before, rest⟩ := List.pairwise_cons.mp ordered
      cases met : condition entry with
      | true => simp [met, ih rest]
      | false =>
          have unmet : ∀ later ∈ entries, condition later = false := by
            intro later member
            by_contra meets
            simp [before later member (by simpa using meets)] at met
          rw [List.dropWhile_cons_of_neg (by simp [met]), List.filter_eq_self.mpr]
          simpa [met] using unmet

theorem length_queue_le (store : KeyedQueues Key Entry) (key : Key) :
    (queue store key).length ≤ (contents store).length := by
  have lengths := (contents_insert_perm store key []).length_eq
  simp only [List.length_append, List.length_nil] at lengths
  omega

end KeyedQueues

end Cppload
