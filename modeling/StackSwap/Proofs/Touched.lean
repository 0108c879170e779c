import StackSwap.Json.Patch
import StackSwap.Proofs.Delta

/-! The changes between two values are what they have at the places that are compared: each key and
index that one of them has, and of the items that an array has lost only the first. -/

namespace StackSwap

namespace Json

/-! Children -/

theorem child?_arr (items : List Json) (index : Nat) :
    (Json.arr items).child? (toString index) = items[index]? := by
  have found (start : Nat) (within : start ≤ index) :
      ((items.zipIdx start).find?
        (fun entry => toString entry.2 == toString index)).map Prod.fst =
          items[index - start]? := by
    induction items generalizing start with
    | nil => simp
    | cons item rest ih =>
      rw [List.zipIdx_cons, List.find?_cons]
      by_cases here : start = index
      · subst here
        simp
      · have different : (toString start == toString index) = false :=
          beq_false_of_ne (fun same => here (toString_injective same))
        have later : index - start = (index - (start + 1)) + 1 := by omega
        simp only [different]
        rw [ih (start + 1) (by omega), later, List.getElem?_cons_succ]
  exact found 0 (Nat.zero_le _)

theorem exists_index_of_child? {items : List Json} {key : String} {child : Json}
    (found : (Json.arr items).child? key = some child) : ∃ index : Nat, key = toString index := by
  obtain ⟨⟨item, index⟩, isPlace, _⟩ := Option.map_eq_some_iff.mp found
  have same : (toString index == key) = true :=
    List.find?_some (p := fun (place : Json × Nat) => toString place.2 == key) isPlace
  exact ⟨index, (beq_iff_eq.mp same).symm⟩

@[elab_as_elim]
theorem child_induction {P : Json → Prop}
    (step : ∀ value, (∀ key child, value.child? key = some child → P child) → P value)
    (value : Json) : P value := by
  induction value using Json.induction with
  | null | bool | num | str => exact step _ (fun _ _ found => by cases found)
  | arr items ih =>
    refine step _ (fun key child found => ih child ?_)
    obtain ⟨index, rfl⟩ := exists_index_of_child? found
    rw [child?_arr] at found
    exact List.mem_of_getElem? found
  | obj fields ih => exact step _ (fun key child found => ih _ (Entries.mem_of_find? found))

theorem WellFormed.child {value : Json} (formed : value.WellFormed) {key : String} {child : Json}
    (found : value.child? key = some child) : child.WellFormed := by
  cases value with
  | null | bool | num | str => cases found
  | arr items =>
    obtain ⟨index, rfl⟩ := exists_index_of_child? found
    rw [child?_arr] at found
    exact wellFormed_arr.mp formed _ (List.mem_of_getElem? found)
  | obj fields => exact (wellFormed_obj.mp formed).2 _ (Entries.mem_of_find? found)

/-! Places -/

/-- Two objects, or two arrays, are compared inside. -/
def inside : Json → Json → Bool
  | .obj _, .obj _ | .arr _, .arr _ => true
  | _, _ => false

/-- The key is the first one that is gone: any key of an object, and the length of an array. -/
def FirstGone (new : Json) (key : String) : Prop :=
  ∀ items, new = .arr items → key = toString items.length

/-- Two values differ at a path, while they do not differ as a whole at any path before it. -/
inductive Touched : Json → Json → Path → Prop where
  | whole {old new : Json} (outside : inside old new = false) (differ : old.same new = false) :
    Touched old new []
  | child {old new first second : Json} {key : String} {path : Path} (inner : inside old new = true)
    (inOld : old.child? key = some first) (inNew : new.child? key = some second)
    (touched : Touched first second path) : Touched old new (key :: path)
  | added {old new value : Json} {key : String} (inner : inside old new = true)
    (fresh : old.child? key = none) (inNew : new.child? key = some value) :
    Touched old new [key]
  | removed {old new value : Json} {key : String} (inner : inside old new = true)
    (inOld : old.child? key = some value) (gone : new.child? key = none)
    (first : new.FirstGone key) : Touched old new [key]

theorem touched_nil_iff {old new : Json} :
    Touched old new [] ↔ inside old new = false ∧ old.same new = false := by
  constructor
  · intro touched
    cases touched with
    | whole outside differ => exact ⟨outside, differ⟩
  · rintro ⟨outside, differ⟩
    exact .whole outside differ

theorem touched_cons_iff {old new first second : Json} {key : String} {path : Path}
    (inner : inside old new = true) (inOld : old.child? key = some first)
    (inNew : new.child? key = some second) :
    Touched old new (key :: path) ↔ Touched first second path := by
  constructor
  · intro touched
    cases touched with
    | child _ inOld' inNew' touched =>
      cases inOld.symm.trans inOld'
      cases inNew.symm.trans inNew'
      exact touched
    | added _ fresh => cases inOld.symm.trans fresh
    | removed _ _ gone => cases inNew.symm.trans gone
  · exact .child inner inOld inNew

theorem Touched.eq_of_prefix {old new : Json} {path other : Path} (touched : Touched old new path)
    (touched' : Touched old new other) (before : path <+: other) : path = other := by
  induction touched generalizing other with
  | whole outside differ =>
    cases touched' with
    | whole => rfl
    | child inner | added inner | removed inner => cases outside.symm.trans inner
  | @child old new first second key path inner inOld inNew _ ih =>
    obtain ⟨rest, rfl⟩ := before
    rw [List.cons_append, touched_cons_iff inner inOld inNew] at touched'
    rw [List.cons_append, ← ih touched' (List.prefix_append path rest)]
  | @added old new value key inner fresh inNew =>
    obtain ⟨rest, rfl⟩ := before
    cases touched' with
    | child _ inOld => cases fresh.symm.trans inOld
    | added | removed => rfl
  | @removed old new value key inner inOld gone first =>
    obtain ⟨rest, rfl⟩ := before
    cases touched' with
    | child _ _ inNew => cases gone.symm.trans inNew
    | added | removed => rfl

/-- What two values have at a place at which they differ is not the same. -/
theorem Touched.differ {old new : Json} {path : Path} (touched : Touched old new path) :
    (old.at? path == new.at? path) = false := by
  induction touched with
  | whole outside differ => exact differ
  | child inner inOld inNew _ ih => simpa [at?, inOld, inNew] using ih
  | added inner fresh inNew => simp [at?, fresh, inNew]
  | removed inner inOld gone first => simp [at?, inOld, gone]

end Json

namespace Change

/-- What two values have at a path. -/
def between (old new : Json) (path : Json.Path) : Change := ⟨path, old.at? path, new.at? path⟩

theorem between_cons {old new first second : Json} {key : String} {path : Json.Path}
    (inOld : old.child? key = some first) (inNew : new.child? key = some second) :
    between old new (key :: path) = (between first second path).under key := by
  simp [between, under, Json.at?, inOld, inNew]

theorem between_added {old new value : Json} {key : String} (fresh : old.child? key = none)
    (inNew : new.child? key = some value) :
    between old new [key] = under key ⟨[], none, some value⟩ := by
  simp [between, under, Json.at?, fresh, inNew]

theorem between_removed {old new value : Json} {key : String} (inOld : old.child? key = some value)
    (gone : new.child? key = none) : between old new [key] = under key ⟨[], some value, none⟩ := by
  simp [between, under, Json.at?, inOld, gone]

/-- The paths ascend strictly. -/
def Ordered (changes : List Change) : Prop :=
  changes.Pairwise (fun earlier later => earlier.path < later.path)

theorem gather_ordered {changes : List (String × List Change)}
    (ordered : ∀ entry ∈ changes, Ordered entry.2) : Ordered (gather changes) := by
  rw [Ordered, gather, List.pairwise_flatMap]
  constructor
  · rintro ⟨key, inner⟩ member
    refine List.pairwise_map.mpr ((ordered _ (Entries.mem_of_mem_ofList member)).imp ?_)
    intro earlier later before
    exact List.cons_lt_cons_iff.mpr (.inr ⟨rfl, before⟩)
  · refine (Entries.sorted_ofList changes).imp ?_
    intro first second before
    simp only [List.mem_map]
    rintro _ ⟨_, _, rfl⟩ _ ⟨_, _, rfl⟩
    exact List.cons_lt_cons_iff.mpr (.inl before)

end Change

namespace Json

/-! Changes of one level -/

/-- The changes under the keys and indices of two objects or two arrays. -/
def levelChanges : Json → Json → List (String × List Change)
  | .obj olds, .obj news => fieldChanges olds news
  | .arr olds, .arr news => deltaItems 0 olds news
  | _, _ => []

theorem delta_of_inside {old new : Json} (inner : inside old new = true) :
    delta old new = Change.gather (levelChanges old new) := by
  unfold inside at inner
  split at inner
  · exact delta_obj _ _
  · exact delta_arr _ _
  · cases inner

theorem delta_of_outside {old new : Json} (outside : inside old new = false) :
    delta old new = if old.same new then [] else [⟨[], some old, some new⟩] := by
  cases old <;> cases new <;> first | rfl | cases outside

theorem nodup_keys_levelChanges {old new : Json} (oldFormed : old.WellFormed)
    (newFormed : new.WellFormed) : ((levelChanges old new).map Prod.fst).Nodup := by
  unfold levelChanges
  split
  · exact nodup_keys_fieldChanges (wellFormed_obj.mp oldFormed).1 (wellFormed_obj.mp newFormed).1
  · exact nodup_keys_deltaItems 0 _ _
  · exact List.nodup_nil

/-- What changes under a key of two objects or two arrays. -/
inductive ChangesAt (old new : Json) (key : String) : List Change → Prop where
  | child {first second : Json} (inOld : old.child? key = some first)
    (inNew : new.child? key = some second) : ChangesAt old new key (delta first second)
  | added {value : Json} (fresh : old.child? key = none) (inNew : new.child? key = some value) :
    ChangesAt old new key [⟨[], none, some value⟩]
  | removed {value : Json} (inOld : old.child? key = some value) (gone : new.child? key = none)
    (first : new.FirstGone key) : ChangesAt old new key [⟨[], some value, none⟩]

theorem mem_fieldChanges {olds news : List (String × Json)} (oldSorted : Entries.Sorted olds)
    (newSorted : Entries.Sorted news) {key : String} {changes : List Change} :
    (key, changes) ∈ fieldChanges olds news ↔ ChangesAt (.obj olds) (.obj news) key changes := by
  simp only [fieldChanges, List.mem_append, mem_deltaFields, mem_additions,
    ← oldSorted.find?_eq_some_iff, ← newSorted.find?_eq_some_iff]
  constructor
  · rintro (⟨value, inOld, same⟩ | ⟨fresh, value, inNew, rfl⟩)
    · split at same
      · rename_i other inNew
        cases same
        exact .child inOld inNew
      · rename_i gone
        cases same
        exact .removed inOld gone (fun items isArray => by cases isArray)
    · exact .added fresh inNew
  · intro changed
    cases changed with
    | @child first second inOld inNew =>
      have found : Entries.find? news key = some second := inNew
      exact .inl ⟨_, inOld, by simp [found]⟩
    | added fresh inNew => exact .inr ⟨fresh, _, inNew, rfl⟩
    | removed inOld gone _ =>
      have absent : Entries.find? news key = none := gone
      exact .inl ⟨_, inOld, by simp [absent, removal]⟩

/-- What changes at an index of two arrays. -/
inductive ChangesAtIndex (olds news : List Json) (index : Nat) : List Change → Prop where
  | child {first second : Json} (inOld : olds[index]? = some first)
    (inNew : news[index]? = some second) : ChangesAtIndex olds news index (delta first second)
  | added {value : Json} (fresh : olds[index]? = none) (inNew : news[index]? = some value) :
    ChangesAtIndex olds news index [⟨[], none, some value⟩]
  | removed {value : Json} (inOld : olds[index]? = some value) (last : index = news.length) :
    ChangesAtIndex olds news index [⟨[], some value, none⟩]

theorem changesAtIndex_succ_iff {old new : Json} {olds news : List Json} {index : Nat}
    {changes : List Change} :
    ChangesAtIndex (old :: olds) (new :: news) (index + 1) changes ↔
      ChangesAtIndex olds news index changes := by
  constructor
  · intro changed
    cases changed with
    | child inOld inNew => exact .child (by simpa using inOld) (by simpa using inNew)
    | added fresh inNew => exact .added (by simpa using fresh) (by simpa using inNew)
    | removed inOld last => exact .removed (by simpa using inOld) (by simpa using last)
  · intro changed
    cases changed with
    | child inOld inNew => exact .child (by simpa using inOld) (by simpa using inNew)
    | added fresh inNew => exact .added (by simpa using fresh) (by simpa using inNew)
    | removed inOld last => exact .removed (by simpa using inOld) (by simpa using last)

theorem mem_deltaItems {start : Nat} {olds news : List Json} {key : String}
    {changes : List Change} :
    (key, changes) ∈ deltaItems start olds news ↔
      ∃ index, key = toString (start + index) ∧ ChangesAtIndex olds news index changes := by
  induction olds generalizing start news with
  | nil =>
    simp only [deltaItems, List.mem_map, List.mem_zipIdx_iff_le_and_getElem?_sub, addition]
    constructor
    · rintro ⟨⟨value, place⟩, ⟨above, inNew⟩, same⟩
      obtain ⟨rfl, rfl⟩ := Prod.mk.inj same
      exact ⟨place - start, by rw [Nat.add_sub_cancel' above], .added rfl inNew⟩
    · rintro ⟨index, rfl, changed⟩
      cases changed with
      | child inOld => cases inOld
      | @added value _ inNew => exact ⟨(value, start + index), ⟨by simp, by simpa using inNew⟩, rfl⟩
      | removed inOld => cases inOld
  | cons old olds ih =>
    cases news with
    | nil =>
      simp only [deltaItems, List.mem_singleton, removal]
      constructor
      · intro same
        obtain ⟨rfl, rfl⟩ := Prod.mk.inj same
        exact ⟨0, rfl, .removed rfl rfl⟩
      · rintro ⟨index, rfl, changed⟩
        cases changed with
        | child _ inNew => cases inNew
        | added _ inNew => cases inNew
        | removed inOld last =>
          -- of all items that are gone only the first one is reported
          subst last
          cases inOld
          rfl
    | cons new news =>
      rw [deltaItems, List.mem_cons, ih]
      constructor
      · rintro (same | ⟨index, rfl, changed⟩)
        · obtain ⟨rfl, rfl⟩ := Prod.mk.inj same
          exact ⟨0, rfl, .child rfl rfl⟩
        · refine ⟨index + 1, ?_, changesAtIndex_succ_iff.mpr changed⟩
          rw [Nat.add_assoc, Nat.add_comm 1 index]
      · rintro ⟨index, rfl, changed⟩
        cases index with
        | zero =>
          cases changed with
          | child inOld inNew =>
            cases inOld
            cases inNew
            exact .inl rfl
          | added fresh => cases fresh
          | removed _ last => cases last
        | succ index =>
          refine .inr ⟨index, ?_, changesAtIndex_succ_iff.mp changed⟩
          rw [Nat.add_assoc, Nat.add_comm 1 index]

theorem changesAt_arr_iff {olds news : List Json} {key : String} {changes : List Change} :
    ChangesAt (.arr olds) (.arr news) key changes ↔
      ∃ index : Nat, key = toString index ∧ ChangesAtIndex olds news index changes := by
  constructor
  · intro changed
    cases changed with
    | child inOld inNew =>
      obtain ⟨index, rfl⟩ := exists_index_of_child? inOld
      rw [child?_arr] at inOld inNew
      exact ⟨index, rfl, .child inOld inNew⟩
    | added fresh inNew =>
      obtain ⟨index, rfl⟩ := exists_index_of_child? inNew
      rw [child?_arr] at fresh inNew
      exact ⟨index, rfl, .added fresh inNew⟩
    | removed inOld gone first =>
      obtain rfl := first news rfl
      rw [child?_arr] at inOld
      exact ⟨news.length, rfl, .removed inOld rfl⟩
  · rintro ⟨index, rfl, changed⟩
    cases changed with
    | child inOld inNew =>
      exact .child ((child?_arr olds index).trans inOld) ((child?_arr news index).trans inNew)
    | added fresh inNew =>
      exact .added ((child?_arr olds index).trans fresh) ((child?_arr news index).trans inNew)
    | removed inOld last =>
      subst last
      refine .removed ((child?_arr olds _).trans inOld) ?_ ?_
      · rw [child?_arr, List.getElem?_eq_none (Nat.le_refl _)]
      · intro items same
        cases same
        rfl

theorem mem_levelChanges {old new : Json} (inner : inside old new = true)
    (oldFormed : old.WellFormed) (newFormed : new.WellFormed) {key : String}
    {changes : List Change} :
    (key, changes) ∈ levelChanges old new ↔ ChangesAt old new key changes := by
  unfold inside at inner
  split at inner
  · exact mem_fieldChanges (wellFormed_obj.mp oldFormed).1 (wellFormed_obj.mp newFormed).1
  · rw [levelChanges, mem_deltaItems, changesAt_arr_iff]
    simp only [Nat.zero_add]
  · cases inner

theorem mem_delta_of_outside {old new : Json} (outside : inside old new = false) {change : Change} :
    change ∈ delta old new ↔
      ∃ path, Touched old new path ∧ Change.between old new path = change := by
  rw [delta_of_outside outside]
  constructor
  · intro member
    split at member
    · cases member
    · rename_i differ
      rw [List.mem_singleton.mp member]
      exact ⟨[], .whole outside (Bool.eq_false_iff.mpr differ), rfl⟩
  · rintro ⟨path, touched, rfl⟩
    cases touched with
    | whole _ differ => simp [differ, Change.between, at?]
    | child inner | added inner | removed inner => cases outside.symm.trans inner

/-- The changes between two values are what they have at the places at which they differ. -/
theorem mem_delta_iff {old new : Json} (oldFormed : old.WellFormed) (newFormed : new.WellFormed)
    {change : Change} :
    change ∈ delta old new ↔
      ∃ path, Touched old new path ∧ Change.between old new path = change := by
  -- objects and arrays go the same way, by their children
  induction old using child_induction generalizing new change with
  | step old ih =>
    cases inner : inside old new with
    | false => exact mem_delta_of_outside inner
    | true =>
      rw [delta_of_inside inner, Change.mem_gather (nodup_keys_levelChanges oldFormed newFormed)]
      simp only [mem_levelChanges inner oldFormed newFormed]
      constructor
      · rintro ⟨key, changes, changed, below, member, rfl⟩
        cases changed with
        | @child first second inOld inNew =>
          obtain ⟨path, touched, rfl⟩ := (ih key first inOld (oldFormed.child inOld)
            (newFormed.child inNew)).mp member
          exact ⟨key :: path, .child inner inOld inNew touched, Change.between_cons inOld inNew⟩
        | added fresh inNew =>
          rw [List.mem_singleton.mp member]
          exact ⟨[key], .added inner fresh inNew, Change.between_added fresh inNew⟩
        | removed inOld gone first =>
          rw [List.mem_singleton.mp member]
          exact ⟨[key], .removed inner inOld gone first, Change.between_removed inOld gone⟩
      · rintro ⟨path, touched, rfl⟩
        cases touched with
        | whole outside => cases outside.symm.trans inner
        | @child _ _ first second key path _ inOld inNew touched =>
          refine ⟨key, _, .child inOld inNew, .between first second path, ?_, ?_⟩
          · exact (ih key first inOld (oldFormed.child inOld) (newFormed.child inNew)).mpr
              ⟨path, touched, rfl⟩
          · exact (Change.between_cons inOld inNew).symm
        | @added _ _ _ key _ fresh inNew =>
          exact ⟨key, _, .added fresh inNew, _, List.mem_singleton_self _,
            (Change.between_added fresh inNew).symm⟩
        | @removed _ _ _ key _ inOld gone first =>
          exact ⟨key, _, .removed inOld gone first, _, List.mem_singleton_self _,
            (Change.between_removed inOld gone).symm⟩

theorem delta_ordered {old new : Json} (oldFormed : old.WellFormed) (newFormed : new.WellFormed) :
    Change.Ordered (delta old new) := by
  induction old using child_induction generalizing new with
  | step old ih =>
    cases inner : inside old new with
    | false =>
      rw [delta_of_outside inner]
      split
      · exact .nil
      · exact List.pairwise_singleton _ _
    | true =>
      rw [delta_of_inside inner]
      apply Change.gather_ordered
      rintro ⟨key, changes⟩ member
      cases (mem_levelChanges inner oldFormed newFormed).mp member with
      | child inOld inNew =>
        exact ih key _ inOld (oldFormed.child inOld) (newFormed.child inNew)
      | added | removed => exact List.pairwise_singleton _ _

/-- No change is at the place of another one or inside it. -/
theorem delta_apart {old new : Json} (oldFormed : old.WellFormed) (newFormed : new.WellFormed) :
    (delta old new).Pairwise (fun earlier later => earlier.path < later.path ∧
      ¬ earlier.path <+: later.path ∧ ¬ later.path <+: earlier.path) := by
  refine (delta_ordered oldFormed newFormed).imp_of_mem ?_
  intro earlier later isEarlier isLater before
  obtain ⟨path, touched, rfl⟩ := (mem_delta_iff oldFormed newFormed).mp isEarlier
  obtain ⟨other, touched', rfl⟩ := (mem_delta_iff oldFormed newFormed).mp isLater
  refine ⟨before, fun isPrefix => ?_, fun isPrefix => ?_⟩
  · have same : path = other := touched.eq_of_prefix touched' isPrefix
    exact List.lt_irrefl other (same ▸ before)
  · have same : other = path := touched'.eq_of_prefix touched isPrefix
    exact List.lt_irrefl other (same ▸ before)

end Json

end StackSwap
