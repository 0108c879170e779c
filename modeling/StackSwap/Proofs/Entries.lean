import Mathlib.Data.List.Nodup
import StackSwap.Entries

namespace StackSwap

universe u v

namespace Entries

variable {α : Type u} {β : Type v}

theorem mem_of_find? {entries : Entries α} {key : String} {value : α}
    (found : entries.find? key = some value) : (key, value) ∈ entries := by
  induction entries with
  | nil => simp [find?] at found
  | cons head rest ih =>
    obtain ⟨name, old⟩ := head
    by_cases here : name = key
    · subst here
      have same : old = value := by simpa [find?] using found
      simp [same]
    · exact List.mem_cons_of_mem _ (ih (by simpa [find?, here] using found))

theorem find?_eq_none_iff {entries : Entries α} {key : String} :
    entries.find? key = none ↔ ∀ entry ∈ entries, entry.1 ≠ key := by
  induction entries with
  | nil => simp [find?]
  | cons head rest ih =>
    obtain ⟨name, old⟩ := head
    by_cases here : name = key <;> simp [find?, here, ih]

theorem contains_iff {entries : Entries α} {key : String} :
    entries.contains key = true ↔ key ∈ entries.keys := by
  induction entries with
  | nil => simp [contains, find?, keys]
  | cons head rest ih =>
    obtain ⟨name, old⟩ := head
    simp only [contains, keys] at ih
    by_cases here : name = key
    · simp [contains, find?, keys, here]
    · simp [contains, find?, keys, here, Ne.symm here, ih]

theorem find?_eq_some_iff {entries : Entries α} (distinct : entries.keys.Nodup) {key : String}
    {value : α} : entries.find? key = some value ↔ (key, value) ∈ entries := by
  refine ⟨mem_of_find?, ?_⟩
  induction entries with
  | nil => simp
  | cons head rest ih =>
    obtain ⟨name, old⟩ := head
    obtain ⟨fresh, distinct⟩ := List.nodup_cons.mp distinct
    intro member
    rcases List.mem_cons.mp member with same | later
    · simp [find?, (Prod.mk.inj same).1, (Prod.mk.inj same).2]
    · have different : name ≠ key := by
        rintro rfl
        exact fresh (List.mem_map.mpr ⟨_, later, rfl⟩)
      simpa [find?, different] using ih distinct later

theorem Sorted.nodup_keys {entries : Entries α} (sorted : Sorted entries) : entries.keys.Nodup :=
  List.pairwise_map.mpr (sorted.imp String.ne_of_lt)

theorem Sorted.keys_pairwise {entries : Entries α} (sorted : Sorted entries) :
    entries.keys.Pairwise (· < ·) :=
  List.pairwise_map.mpr sorted

theorem Sorted.find?_eq_some_iff {entries : Entries α} (sorted : Sorted entries) {key : String}
    {value : α} : entries.find? key = some value ↔ (key, value) ∈ entries :=
  Entries.find?_eq_some_iff sorted.nodup_keys

private theorem find?_foldl_insert (pairs : List (String × α)) (entries : Entries α) (key : String) :
    find? (pairs.foldl (fun entries pair => entries.insert pair.1 pair.2) entries) key =
      (find? pairs.reverse key).or (entries.find? key) := by
  induction pairs generalizing entries with
  | nil => simp [find?]
  | cons pair rest ih =>
    obtain ⟨name, value⟩ := pair
    have split (front : Entries α) :
        find? (front ++ [(name, value)]) key = (find? front key).or (find? [(name, value)] key) := by
      induction front with
      | nil => simp [find?]
      | cons head tail ih => by_cases here : head.1 = key <;> simp [find?, here, ih]
    rw [List.foldl_cons, ih, List.reverse_cons, split]
    cases find? rest.reverse key with
    | some found => rfl
    | none =>
      by_cases here : name = key
      · subst here
        simp [find?, find?_insert_self]
      · simp [find?, here, find?_insert_ne here]

theorem mem_keys_ofList {pairs : List (String × α)} {key : String} :
    key ∈ (ofList pairs).keys ↔ key ∈ pairs.map Prod.fst := by
  rw [← contains_iff, contains, ofList, find?_foldl_insert]
  have absent : find? ([] : Entries α) key = none := rfl
  rw [absent, Option.or_none]
  exact contains_iff.trans (by simp [keys])

theorem mem_of_mem_ofList {pairs : List (String × α)} {entry : String × α}
    (member : entry ∈ ofList pairs) : entry ∈ pairs := by
  obtain ⟨key, value⟩ := entry
  have found := (sorted_ofList pairs).find?_eq_some_iff.mpr member
  have absent : find? ([] : Entries α) key = none := rfl
  rw [ofList, find?_foldl_insert, absent, Option.or_none] at found
  exact List.mem_reverse.mp (mem_of_find? found)

theorem mem_ofList {pairs : List (String × α)} (distinct : (pairs.map Prod.fst).Nodup)
    {entry : String × α} : entry ∈ ofList pairs ↔ entry ∈ pairs := by
  obtain ⟨key, value⟩ := entry
  have reversed : (keys pairs.reverse).Nodup := by
    simpa [keys, List.nodup_reverse] using distinct
  rw [← (sorted_ofList pairs).find?_eq_some_iff, ofList, find?_foldl_insert]
  have absent : find? ([] : Entries α) key = none := rfl
  rw [absent, Option.or_none, Entries.find?_eq_some_iff reversed, List.mem_reverse]

end Entries

namespace Table

variable {α : Type u} {β : Type v}

theorem mem_keysOfBoth {left : Table α} {right : Table β} {key : String} :
    key ∈ Table.keysOfBoth left right ↔ key ∈ left.keys ∨ key ∈ right.keys := by
  simp only [keysOfBoth, Table.keys, Table.ofList]
  rw [Entries.mem_keys_ofList]
  simp

theorem mem_keys_iff {table : Table α} {key : String} :
    key ∈ table.keys ↔ ∃ value, table.find? key = some value := by
  rw [Table.keys, ← Entries.contains_iff, Entries.contains, Option.isSome_iff_exists]
  rfl

theorem find?_of_notMem_keysOfBoth {left : Table α} {right : Table β} {key : String}
    (nowhere : key ∉ Table.keysOfBoth left right) :
    left.find? key = none ∧ right.find? key = none := by
  rw [mem_keysOfBoth, not_or, mem_keys_iff, mem_keys_iff, not_exists, not_exists] at nowhere
  exact ⟨Option.eq_none_iff_forall_ne_some.mpr nowhere.1,
    Option.eq_none_iff_forall_ne_some.mpr nowhere.2⟩

end Table

end StackSwap
