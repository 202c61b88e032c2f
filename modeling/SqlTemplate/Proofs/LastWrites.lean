import Mathlib.Data.List.Dedup
import SqlTemplate.KeyMap

/-!
# What a map holds after its writes

Pairs that are written one after the other leave an entry for every key among
them, with the value that was written last.  Maps are kept in the order of their
keys, but what they hold does not depend on an order: entries in any order hold
the last writes when no key stands twice among them.
-/

namespace SqlTemplate.KeyMap

variable {α : Type} {key : Text} {value : α} {pairs entries others : List (Text × α)}

/-- The value that the last pair with a key writes. -/
def last (key : Text) (pairs : List (Text × α)) : Option α :=
  find? key pairs.reverse

/-- Entries in any order, one for every key among some pairs, with the value that is written last. -/
structure Holds (entries pairs : List (Text × α)) : Prop where
  distinct : (entries.map Prod.fst).Nodup
  mem_iff : ∀ key value, (key, value) ∈ entries ↔ last key pairs = some value

theorem mem_iff_find? (distinct : (entries.map Prod.fst).Nodup) :
    (key, value) ∈ entries ↔ find? key entries = some value := by
  refine ⟨fun member => ?_, mem_of_find?⟩
  induction entries with
  | nil => cases member
  | cons entry rest ih =>
      obtain ⟨new, distinct⟩ := List.nodup_cons.1 distinct
      rw [find?]
      rcases List.mem_cons.1 member with rfl | later
      · exact if_pos rfl
      · have different : key ≠ entry.1 := by
          rintro rfl
          exact new (List.mem_map.2 ⟨_, later, rfl⟩)
        rw [if_neg different]
        exact ih distinct later

theorem last_append (key : Text) (front back : List (Text × α)) :
    last key (front ++ back) = (last key back).or (last key front) := by
  rw [last, List.reverse_append, find?_append]
  rfl

theorem last_eq_none_iff : last key pairs = none ↔ key ∉ pairs.map Prod.fst := by
  rw [last, find?_eq_none_iff, List.map_reverse, List.mem_reverse]

theorem last_eq_find? (distinct : (entries.map Prod.fst).Nodup) :
    last key entries = find? key entries := by
  have reversed : (entries.reverse.map Prod.fst).Nodup := by
    rwa [List.map_reverse, List.nodup_reverse]
  refine Option.ext fun value => ?_
  rw [last, ← mem_iff_find? reversed, ← mem_iff_find? distinct, List.mem_reverse]

/-- The last pairs decide what is found, and where they say nothing the map from before. -/
theorem find?_insertAll (key : Text) (pairs entries : List (Text × α)) :
    find? key (insertAll pairs entries) = (last key pairs).or (find? key entries) := by
  induction pairs generalizing entries with
  | nil => rfl
  | cons pair rest ih =>
      have first : find? key (insert pair.1 pair.2 entries) =
          (find? key [pair]).or (find? key entries) := by
        by_cases same : key = pair.1
        · rw [same, find?_insert_self, find?, if_pos rfl, Option.some_or]
        · rw [find?_insert_of_ne same, find?, if_neg same, find?, Option.none_or]
      have behind : last key (pair :: rest) = (last key rest).or (find? key [pair]) :=
        last_append key [pair] rest
      change find? key (insertAll rest (insert pair.1 pair.2 entries)) = _
      rw [ih, first, behind, Option.or_assoc]

theorem find?_ofPairs (key : Text) (pairs : List (Text × α)) :
    find? key (ofPairs pairs) = last key pairs := by
  rw [ofPairs, find?_insertAll, find?, Option.or_none]

theorem Sorted.distinct (sorted : Sorted entries) : (entries.map Prod.fst).Nodup := by
  rw [List.Nodup, List.pairwise_map]
  refine sorted.imp fun {first second} below same => ?_
  rw [same, Text.precedes_self] at below
  cases below

theorem Sorted.find?_of_precedes {entry : Text × α} {rest : List (Text × α)}
    (sorted : Sorted (entry :: rest)) (before : key.precedes entry.1 = true) :
    find? key (entry :: rest) = none := by
  rw [find?_eq_none_iff, List.mem_map]
  rintro ⟨other, member, rfl⟩
  have self : other.1.precedes other.1 = true := by
    rcases List.mem_cons.1 member with rfl | later
    · exact before
    · exact Text.precedes_trans before ((List.pairwise_cons.1 sorted).1 other later)
  rw [Text.precedes_self] at self
  cases self

/-- Maps that give related values under every key have the same keys in the same order. -/
theorem Sorted.forall₂ {related : α → α → Prop} (sorted : Sorted entries) (other : Sorted others)
    (same : ∀ key, Option.Rel related (find? key entries) (find? key others)) :
    List.Forall₂ (fun a b => a.1 = b.1 ∧ related a.2 b.2) entries others := by
  induction entries generalizing others with
  | nil =>
      cases others with
      | nil => exact .nil
      | cons entry rest =>
          have found := same entry.1
          rw [find?, find?, if_pos rfl] at found
          cases found
  | cons entry rest ih =>
      cases others with
      | nil =>
          have found := same entry.1
          rw [find?, find?, if_pos rfl] at found
          cases found
      | cons twin tail =>
          have keys : entry.1 = twin.1 := by
            by_contra different
            have before : entry.1.precedes twin.1 = true ∨ twin.1.precedes entry.1 = true :=
              or_iff_not_imp_left.2 fun notBefore =>
                Text.precedes_of_not_precedes notBefore different
            rcases before with before | before
            · have found := same entry.1
              rw [other.find?_of_precedes before, find?, if_pos rfl] at found
              cases found
            · have found := same twin.1
              rw [sorted.find?_of_precedes before, find?, if_pos rfl] at found
              cases found
          have here := same entry.1
          rw [find?, if_pos rfl, find?, if_pos keys] at here
          obtain ⟨-, sortedRest⟩ := List.pairwise_cons.1 sorted
          obtain ⟨-, sortedTail⟩ := List.pairwise_cons.1 other
          refine .cons ⟨keys, Option.rel_some_some.1 here⟩ (ih sortedRest sortedTail fun key => ?_)
          by_cases first : key = entry.1
          · have newRest := (List.nodup_cons.1 sorted.distinct).1
            have newTail := (List.nodup_cons.1 other.distinct).1
            rw [first, find?_eq_none_iff.2 newRest, keys, find?_eq_none_iff.2 newTail]
            exact .none
          · have later := same key
            rwa [find?, if_neg first, find?, if_neg (keys ▸ first)] at later

namespace Holds

theorem find?_eq (holds : Holds entries pairs) (key : Text) :
    find? key entries = last key pairs := by
  refine Option.ext fun value => ?_
  rw [← mem_iff_find? holds.distinct, holds.mem_iff]

theorem mem_keys_iff (holds : Holds entries pairs) :
    key ∈ entries.map Prod.fst ↔ key ∈ pairs.map Prod.fst := by
  rw [← not_iff_not, ← find?_eq_none_iff, ← last_eq_none_iff, holds.find?_eq]

/-- There are as many entries as different keys. -/
theorem length_eq (holds : Holds entries pairs) :
    entries.length = (pairs.map Prod.fst).dedup.length := by
  have keys : (entries.map Prod.fst).Perm (pairs.map Prod.fst).dedup := by
    refine (List.perm_ext_iff_of_nodup holds.distinct (List.nodup_dedup _)).2 fun key => ?_
    rw [holds.mem_keys_iff, List.mem_dedup]
  rw [← keys.length_eq, List.length_map]

end Holds

theorem Sorted.holds (sorted : Sorted entries)
    (found : ∀ key, find? key entries = last key pairs) : Holds entries pairs where
  distinct := sorted.distinct
  mem_iff key value := by rw [mem_iff_find? sorted.distinct, found]

theorem holds_ofPairs (pairs : List (Text × α)) : Holds (ofPairs pairs) pairs :=
  (sorted_ofPairs pairs).holds fun key => find?_ofPairs key pairs

end SqlTemplate.KeyMap
