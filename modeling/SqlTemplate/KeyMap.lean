import SqlTemplate.Text.Order

/-!
# Maps keyed by texts

A map is the list of its entries in increasing order of their keys, by code
point.  Writing a key again replaces its value, so a map depends only on the
last write of every key.  The laws of reading what was written hold for every
list of entries.
-/

namespace SqlTemplate.KeyMap

variable {α β : Type}

def insert (key : Text) (value : α) : List (Text × α) → List (Text × α)
  | [] => [(key, value)]
  | (other, held) :: rest =>
      if key.precedes other then (key, value) :: (other, held) :: rest
      else if key = other then (key, value) :: rest
      else (other, held) :: insert key value rest

def find? (key : Text) : List (Text × α) → Option α
  | [] => none
  | (other, held) :: rest => if key = other then some held else find? key rest

def insertAll (pairs entries : List (Text × α)) : List (Text × α) :=
  pairs.foldl (fun map pair => insert pair.1 pair.2 map) entries

def ofPairs (pairs : List (Text × α)) : List (Text × α) :=
  insertAll pairs []

def Sorted (entries : List (Text × α)) : Prop :=
  entries.Pairwise fun first second => first.1.precedes second.1 = true

@[simp] theorem find?_insert_self (key : Text) (value : α) (entries : List (Text × α)) :
    find? key (insert key value entries) = some value := by
  induction entries with
  | nil => simp [insert, find?]
  | cons entry rest ih =>
      obtain ⟨other, held⟩ := entry
      unfold insert
      split
      · simp [find?]
      · split
        · simp [find?]
        · next different => simp [find?, different, ih]

theorem find?_insert_of_ne {key other : Text} (different : key ≠ other) (value : α)
    (entries : List (Text × α)) :
    find? key (insert other value entries) = find? key entries := by
  induction entries with
  | nil => simp [insert, find?, different]
  | cons entry rest ih =>
      obtain ⟨first, held⟩ := entry
      unfold insert
      split
      · simp [find?, different]
      · split
        · next same => subst same; simp [find?, different]
        · simp [find?, ih]

theorem find?_append (key : Text) (front back : List (Text × α)) :
    find? key (front ++ back) = (find? key front).or (find? key back) := by
  induction front with
  | nil => rfl
  | cons entry rest ih =>
      rw [List.cons_append, find?, find?, ih]
      split <;> rfl

theorem mem_of_find? {key : Text} {value : α} {entries : List (Text × α)}
    (found : find? key entries = some value) : (key, value) ∈ entries := by
  induction entries with
  | nil => cases found
  | cons entry rest ih =>
      rw [find?] at found
      split at found
      · next same =>
          cases found
          rw [same]
          exact List.mem_cons_self
      · exact List.mem_cons_of_mem entry (ih found)

theorem find?_eq_none_iff {key : Text} {entries : List (Text × α)} :
    find? key entries = none ↔ key ∉ entries.map Prod.fst := by
  induction entries with
  | nil => simp [find?]
  | cons entry rest ih =>
      rw [find?]
      split
      · next same => simp [same]
      · next different => simp [different, ih]

theorem mem_insert {key : Text} {value : α} {entry : Text × α} {entries : List (Text × α)}
    (member : entry ∈ insert key value entries) : entry = (key, value) ∨ entry ∈ entries := by
  induction entries with
  | nil => simpa [insert] using member
  | cons first rest ih =>
      obtain ⟨other, held⟩ := first
      unfold insert at member
      split at member
      · simpa using member
      · split at member
        · rcases List.mem_cons.1 member with same | deeper
          · exact .inl same
          · exact .inr (List.mem_cons_of_mem _ deeper)
        · rcases List.mem_cons.1 member with same | deeper
          · exact .inr (same ▸ List.mem_cons_self)
          · exact (ih deeper).imp_right (List.mem_cons_of_mem _)

theorem sorted_nil : Sorted ([] : List (Text × α)) := List.Pairwise.nil

theorem sorted_insert (key : Text) (value : α) {entries : List (Text × α)}
    (sorted : Sorted entries) : Sorted (insert key value entries) := by
  induction entries with
  | nil => simp [insert, Sorted]
  | cons entry rest ih =>
      obtain ⟨other, held⟩ := entry
      obtain ⟨below, sortedRest⟩ := List.pairwise_cons.1 sorted
      unfold insert
      split
      · next before =>
          refine List.pairwise_cons.2 ⟨fun later member => ?_, sorted⟩
          rcases List.mem_cons.1 member with same | deeper
          · exact same ▸ before
          · exact Text.precedes_trans before (below later deeper)
      · split
        · next same => exact List.pairwise_cons.2 ⟨same ▸ below, sortedRest⟩
        · next notBefore different =>
            refine List.pairwise_cons.2 ⟨fun later member => ?_, ih sortedRest⟩
            rcases mem_insert member with same | deeper
            · subst same
              exact Text.precedes_of_not_precedes notBefore different
            · exact below later deeper

theorem sorted_insertAll (pairs : List (Text × α)) {entries : List (Text × α)}
    (sorted : Sorted entries) : Sorted (insertAll pairs entries) := by
  induction pairs generalizing entries with
  | nil => exact sorted
  | cons pair rest ih => exact ih (sorted_insert pair.1 pair.2 sorted)

theorem sorted_ofPairs (pairs : List (Text × α)) : Sorted (ofPairs pairs) :=
  sorted_insertAll pairs sorted_nil

end SqlTemplate.KeyMap
