import StackSwap.Json.Delta
import StackSwap.Proofs.Json

namespace StackSwap

namespace Change

theorem gather_eq_nil_iff {changes : List (String × List Change)}
    (distinct : (changes.map Prod.fst).Nodup) :
    gather changes = [] ↔ ∀ entry ∈ changes, entry.2 = [] := by
  simp only [gather, List.flatMap_eq_nil_iff, List.map_eq_nil_iff, Entries.mem_ofList distinct]

theorem mem_gather {changes : List (String × List Change)}
    (distinct : (changes.map Prod.fst).Nodup) {change : Change} :
    change ∈ gather changes ↔
      ∃ key inner, (key, inner) ∈ changes ∧ ∃ below ∈ inner, below.under key = change := by
  simp only [gather, List.mem_flatMap, List.mem_map, Entries.mem_ofList distinct, Prod.exists]

/-- The changes under a key are those that were gathered for it. -/
theorem mem_gather_property {changes : List (String × List Change)}
    (distinct : (changes.map Prod.fst).Nodup) {key : String} :
    (∃ change ∈ gather changes, change.property = key) ↔
      ∃ inner, (key, inner) ∈ changes ∧ inner ≠ [] := by
  simp only [mem_gather distinct]
  constructor
  · rintro ⟨_, ⟨name, inner, member, below, found, rfl⟩, rfl⟩
    exact ⟨inner, member, List.ne_nil_of_mem found⟩
  · rintro ⟨inner, member, nonempty⟩
    obtain ⟨below, found⟩ := List.exists_mem_of_ne_nil inner nonempty
    exact ⟨below.under key, ⟨key, inner, member, below, found, rfl⟩, rfl⟩

end Change

namespace Json

/-- The changes under the keys of two objects. -/
def fieldChanges (old new : List (String × Json)) : List (String × List Change) :=
  deltaFields old new ++
    (new.filter (fun (key, _) => !Entries.contains old key)).map
      (fun (key, value) => addition key value)

theorem delta_obj (old new : List (String × Json)) :
    delta (.obj old) (.obj new) = Change.gather (fieldChanges old new) := rfl

theorem delta_arr (old new : List Json) :
    delta (.arr old) (.arr new) = Change.gather (deltaItems 0 old new) := rfl

theorem keys_deltaFields (old new : List (String × Json)) :
    (deltaFields old new).map Prod.fst = old.map Prod.fst := by
  induction old with
  | nil => rfl
  | cons field rest ih =>
    obtain ⟨key, value⟩ := field
    rw [deltaFields, List.map_cons, List.map_cons, ih]
    split <;> rfl

theorem mem_deltaFields {old new : List (String × Json)} {key : String} {inner : List Change} :
    (key, inner) ∈ deltaFields old new ↔ ∃ value, (key, value) ∈ old ∧
      (match Entries.find? new key with
        | some other => (key, delta value other)
        | none => removal key value) = (key, inner) := by
  induction old with
  | nil => simp [deltaFields]
  | cons field rest ih =>
    obtain ⟨name, value⟩ := field
    rw [deltaFields, List.mem_cons, ih]
    constructor
    · rintro (here | ⟨other, member, same⟩)
      · have named : name = key := by
          split at here <;> exact (Prod.mk.inj here).1.symm
        subst named
        exact ⟨value, List.mem_cons_self .., here.symm⟩
      · exact ⟨other, List.mem_cons_of_mem _ member, same⟩
    · rintro ⟨other, member, same⟩
      rcases List.mem_cons.mp member with here | later
      · obtain ⟨rfl, rfl⟩ := Prod.mk.inj here
        exact .inl same.symm
      · exact .inr ⟨other, later, same⟩

theorem mem_additions {old new : List (String × Json)} {key : String} {inner : List Change} :
    (key, inner) ∈ (new.filter (fun (key, _) => !Entries.contains old key)).map
        (fun (key, value) => addition key value) ↔
      Entries.find? old key = none ∧ ∃ value, (key, value) ∈ new ∧
        inner = [⟨[], none, some value⟩] := by
  simp only [List.mem_map, List.mem_filter, Entries.contains, addition, Prod.exists]
  constructor
  · rintro ⟨name, value, ⟨member, fresh⟩, same⟩
    obtain ⟨rfl, rfl⟩ := Prod.mk.inj same
    exact ⟨by simpa using fresh, value, member, rfl⟩
  · rintro ⟨fresh, value, member, rfl⟩
    exact ⟨key, value, ⟨member, by simp [fresh]⟩, rfl⟩

theorem nodup_keys_fieldChanges {old new : List (String × Json)} (oldSorted : Entries.Sorted old)
    (newSorted : Entries.Sorted new) : ((fieldChanges old new).map Prod.fst).Nodup := by
  rw [fieldChanges, List.map_append, keys_deltaFields]
  refine List.nodup_append.mpr ⟨oldSorted.nodup_keys, ?_, ?_⟩
  · rw [List.map_map]
    exact (newSorted.filter _).nodup_keys
  · rintro key inOld other inNew rfl
    obtain ⟨⟨_, inner⟩, member, rfl⟩ := List.mem_map.mp inNew
    have fresh := (mem_additions.mp member).1
    obtain ⟨entry, found, same⟩ := List.mem_map.mp inOld
    exact Entries.find?_eq_none_iff.mp fresh entry found same

/-- Under a key something changed unless both objects have it, without changes between the values,
or neither has it. -/
theorem mem_fieldChanges_iff {old new : List (String × Json)} (oldSorted : Entries.Sorted old)
    (newSorted : Entries.Sorted new) {key : String} :
    (∃ inner, (key, inner) ∈ fieldChanges old new ∧ inner ≠ []) ↔
      ¬ Option.Rel (fun first second => delta first second = []) (Entries.find? old key)
        (Entries.find? new key) := by
  simp only [fieldChanges, List.mem_append, mem_deltaFields, mem_additions,
    ← oldSorted.find?_eq_some_iff, ← newSorted.find?_eq_some_iff]
  cases Entries.find? old key with
  | none =>
    cases Entries.find? new key with
    | none => simp
    | some value => simp
  | some value =>
    cases Entries.find? new key with
    | none => simp [removal]
    | some other => simp

theorem delta_obj_eq_nil_iff {old new : List (String × Json)} (oldSorted : Entries.Sorted old)
    (newSorted : Entries.Sorted new) :
    delta (.obj old) (.obj new) = [] ↔
      ∀ key, Option.Rel (fun first second => delta first second = []) (Entries.find? old key)
        (Entries.find? new key) := by
  rw [delta_obj, Change.gather_eq_nil_iff (nodup_keys_fieldChanges oldSorted newSorted)]
  constructor
  · intro unchanged key
    by_contra changed
    obtain ⟨inner, member, nonempty⟩ := (mem_fieldChanges_iff oldSorted newSorted).mpr changed
    exact nonempty (unchanged _ member)
  · rintro related ⟨key, inner⟩ member
    by_contra nonempty
    exact (mem_fieldChanges_iff oldSorted newSorted).mp ⟨inner, member, nonempty⟩ (related key)

theorem toString_injective {first second : Nat} (same : toString first = toString second) :
    first = second := by
  have digits := congrArg String.toList same
  simp only [Nat.toString_eq_ofList_toDigits, String.toList_ofList] at digits
  rw [← Nat.ofDigitChars_ten_toDigits (n := first), digits, Nat.ofDigitChars_ten_toDigits]

/-- The keys under which the changes of items stand are consecutive indices. -/
theorem keys_deltaItems (index : Nat) (old new : List Json) :
    ∃ count, (deltaItems index old new).map Prod.fst =
      (List.range' index count).map (fun index => toString index) := by
  induction old generalizing index new with
  | nil =>
    refine ⟨new.length, ?_⟩
    rw [deltaItems, List.map_map]
    induction new generalizing index with
    | nil => rfl
    | cons value rest ih =>
      rw [List.zipIdx_cons, List.map_cons, ih (index + 1), List.length_cons, List.range'_succ]
      rfl
  | cons first olds ih =>
    cases new with
    | nil => exact ⟨1, rfl⟩
    | cons second news =>
      obtain ⟨count, keys⟩ := ih (index + 1) news
      exact ⟨count + 1, by simp [deltaItems, keys, List.range'_succ]⟩

theorem nodup_keys_deltaItems (index : Nat) (old new : List Json) :
    ((deltaItems index old new).map Prod.fst).Nodup := by
  obtain ⟨count, keys⟩ := keys_deltaItems index old new
  rw [keys]
  have distinct : (List.range' index count).Nodup := List.nodup_range'
  exact distinct.map_on (fun _ _ _ _ same => toString_injective same)

theorem deltaItems_unchanged_iff (index : Nat) (old new : List Json) :
    (∀ entry ∈ deltaItems index old new, entry.2 = []) ↔
      List.Forall₂ (fun first second => delta first second = []) old new := by
  induction old generalizing index new with
  | nil =>
    cases new with
    | nil => simp [deltaItems]
    | cons second news => simp [deltaItems, addition]
  | cons first olds ih =>
    cases new with
    | nil => simp [deltaItems, removal]
    | cons second news =>
      rw [deltaItems, List.forall_mem_cons, ih, List.forall₂_cons]

private theorem forall₂_congr_mem {α : Type} {R S : α → α → Prop} {left right : List α}
    (agree : ∀ first ∈ left, ∀ second ∈ right, (R first second ↔ S first second)) :
    List.Forall₂ R left right ↔ List.Forall₂ S left right := by
  induction left generalizing right with
  | nil => cases right <;> simp
  | cons first lefts ih =>
    cases right with
    | nil => simp
    | cons second rights =>
      rw [List.forall₂_cons, List.forall₂_cons, agree first (by simp) second (by simp),
        ih (fun first inLeft second inRight =>
          agree first (List.mem_cons_of_mem _ inLeft) second (List.mem_cons_of_mem _ inRight))]

private theorem wholly_unchanged_iff (old new : Json) :
    (if old.same new then [] else [(⟨[], some old, some new⟩ : Change)]) = [] ↔
      old.same new = true := by
  split <;> simp_all

/-- There are no changes between two values exactly if they are the same. -/
theorem delta_eq_nil_iff {old new : Json} (oldFormed : old.WellFormed) (newFormed : new.WellFormed) :
    delta old new = [] ↔ old.same new = true := by
  induction old using Json.induction generalizing new with
  | null => exact wholly_unchanged_iff .null new
  | bool value => exact wholly_unchanged_iff (.bool value) new
  | num value => exact wholly_unchanged_iff (.num value) new
  | str value => exact wholly_unchanged_iff (.str value) new
  | arr olds ih =>
    cases new with
    | arr news =>
      have oldFormed := wellFormed_arr.mp oldFormed
      have newFormed := wellFormed_arr.mp newFormed
      rw [delta_arr, Change.gather_eq_nil_iff (nodup_keys_deltaItems 0 olds news),
        deltaItems_unchanged_iff, same_arr, sameItems_iff]
      exact forall₂_congr_mem (fun first inOld second inNew =>
        ih first inOld (oldFormed first inOld) (newFormed second inNew))
    | null => exact wholly_unchanged_iff (.arr olds) .null
    | bool value => exact wholly_unchanged_iff (.arr olds) (.bool value)
    | num value => exact wholly_unchanged_iff (.arr olds) (.num value)
    | str value => exact wholly_unchanged_iff (.arr olds) (.str value)
    | obj news => exact wholly_unchanged_iff (.arr olds) (.obj news)
  | obj olds ih =>
    cases new with
    | obj news =>
      obtain ⟨oldSorted, oldFormed⟩ := wellFormed_obj.mp oldFormed
      obtain ⟨newSorted, newFormed⟩ := wellFormed_obj.mp newFormed
      rw [delta_obj_eq_nil_iff oldSorted newSorted, same_obj, sameFields_iff,
        Entries.forall₂_iff_find? oldSorted newSorted
          (R := fun first second => first.same second = true)]
      apply forall_congr'
      intro key
      cases foundOld : Entries.find? olds key with
      | none => cases Entries.find? news key <;> simp
      | some first =>
        cases foundNew : Entries.find? news key with
        | none => simp
        | some second =>
          have inOld := Entries.mem_of_find? foundOld
          have inNew := Entries.mem_of_find? foundNew
          simp [ih _ inOld (oldFormed _ inOld) (newFormed _ inNew)]
    | null => exact wholly_unchanged_iff (.obj olds) .null
    | bool value => exact wholly_unchanged_iff (.obj olds) (.bool value)
    | num value => exact wholly_unchanged_iff (.obj olds) (.num value)
    | str value => exact wholly_unchanged_iff (.obj olds) (.str value)
    | arr news => exact wholly_unchanged_iff (.obj olds) (.arr news)

theorem deltaOptional_of_beq {old new : Option Json} (same : (old == new) = true)
    (oldFormed : ∀ value ∈ old, value.WellFormed) (newFormed : ∀ value ∈ new, value.WellFormed) :
    deltaOptional old new = [] := by
  cases beq_optional_iff.mp same with
  | none => rfl
  | some alike => exact (delta_eq_nil_iff (oldFormed _ rfl) (newFormed _ rfl)).mpr alike

/-- Between two objects something changed under a key exactly if the values of that key are not the
same. -/
theorem delta_obj_property_iff {old new : List (String × Json)}
    (oldFormed : (Json.obj old).WellFormed) (newFormed : (Json.obj new).WellFormed) {key : String} :
    (∃ change ∈ delta (.obj old) (.obj new), change.property = key) ↔
      (Entries.find? old key == Entries.find? new key) = false := by
  obtain ⟨oldSorted, oldFormed⟩ := wellFormed_obj.mp oldFormed
  obtain ⟨newSorted, newFormed⟩ := wellFormed_obj.mp newFormed
  rw [delta_obj, Change.mem_gather_property (nodup_keys_fieldChanges oldSorted newSorted),
    mem_fieldChanges_iff oldSorted newSorted, ← Bool.not_eq_true, beq_optional_iff, not_iff_not]
  cases foundOld : Entries.find? old key with
  | none => cases Entries.find? new key <;> simp
  | some first =>
    cases foundNew : Entries.find? new key with
    | none => simp
    | some second =>
      have inOld := Entries.mem_of_find? foundOld
      have inNew := Entries.mem_of_find? foundNew
      simp [delta_eq_nil_iff (oldFormed _ inOld) (newFormed _ inNew)]

end Json

end StackSwap
