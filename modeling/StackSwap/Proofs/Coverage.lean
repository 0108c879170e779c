import StackSwap.Proofs.Patch

/-! A change covers its own path and every path that goes on from it. Only the items that an array has
lost are an exception, as the change at the first of them stands for all. -/

namespace StackSwap

/-- Some change is at the path, or at a place that the path goes through. -/
def Change.Cover (changes : List Change) (path : Json.Path) : Prop :=
  ∃ change ∈ changes, change.path <+: path

namespace Json

/-- A path goes through an item that an array has lost, though not through the first such item. -/
inductive Surplus : Json → Json → Path → Prop where
  | item {olds news : List Json} {index : Nat} (path : Path) (behind : news.length < index)
    (inOld : index < olds.length) : Surplus (.arr olds) (.arr news) (toString index :: path)
  | child {old new first second : Json} {key : String} {path : Path} (inner : inside old new = true)
    (inOld : old.child? key = some first) (inNew : new.child? key = some second)
    (surplus : Surplus first second path) : Surplus old new (key :: path)

variable {old new : Json} {path : Path}

theorem cover_delta_iff (oldFormed : old.WellFormed) (newFormed : new.WellFormed) :
    Change.Cover (delta old new) path ↔ ∃ place, Touched old new place ∧ place <+: path := by
  constructor
  · intro covered
    obtain ⟨change, member, before⟩ := covered
    obtain ⟨place, touched, rfl⟩ := (mem_delta_iff oldFormed newFormed).mp member
    exact ⟨place, touched, before⟩
  · intro covered
    obtain ⟨place, touched, before⟩ := covered
    exact ⟨_, (mem_delta_iff oldFormed newFormed).mpr ⟨place, touched, rfl⟩, before⟩

/-- Values that are the same, but not compared inside, have no children. -/
theorem child?_of_outside (outside : inside old new = false) (same : old.same new = true)
    (key : String) : old.child? key = none ∧ new.child? key = none := by
  cases old <;> cases new <;> first | exact ⟨rfl, rfl⟩ | cases same | cases outside

/-- What is compared at a path that goes on is a child of one of the values. -/
theorem touched_of_outside (outside : inside old new = false) (key : String)
    (child : old.child? key ≠ none ∨ new.child? key ≠ none) : Touched old new [] := by
  refine .whole outside ?_
  by_contra same
  obtain ⟨notOld, notNew⟩ := child?_of_outside outside (Bool.not_eq_false _ ▸ same) key
  exact child.elim (absurd notOld) (absurd notNew)

/-- The key of a child that is gone is the first one that is gone, unless an array has lost several
items. -/
theorem firstGone_or_surplus {key : String} {value : Json} (inner : inside old new = true)
    (inOld : old.child? key = some value) (gone : new.child? key = none) (path : Path) :
    new.FirstGone key ∨ Surplus old new (key :: path) := by
  unfold inside at inner
  split at inner
  · exact .inl (fun items isArray => by cases isArray)
  · rename_i olds news
    obtain ⟨index, rfl⟩ := exists_index_of_child? inOld
    rw [child?_arr] at inOld gone
    have reached : news.length ≤ index := List.getElem?_eq_none_iff.mp gone
    have within : index < olds.length := (List.getElem?_eq_some_iff.mp inOld).1
    by_cases first : index = news.length
    · left
      intro items isArray
      cases isArray
      rw [first]
    · exact .inr (.item path (by omega) within)
  · cases inner

/-- A path that only one of two values has goes through a place at which they differ, or through a
surplus item. -/
theorem touched_or_surplus (only : (old.at? path).isSome ≠ (new.at? path).isSome) :
    (∃ place, Touched old new place ∧ place <+: path) ∨ Surplus old new path := by
  induction path generalizing old new with
  | nil => exact absurd rfl only
  | cons key path ih =>
    by_cases inner : inside old new = true
    · cases inOld : old.child? key with
      | none =>
        cases inNew : new.child? key with
        | none => simp [at?, inOld, inNew] at only
        | some second => exact .inl ⟨[key], .added inner inOld inNew, List.prefix_append [key] path⟩
      | some first =>
        cases inNew : new.child? key with
        | none =>
          rcases firstGone_or_surplus inner inOld inNew path with firstGone | surplus
          · exact .inl ⟨[key], .removed inner inOld inNew firstGone, List.prefix_append [key] path⟩
          · exact .inr surplus
        | some second =>
          have below : (first.at? path).isSome ≠ (second.at? path).isSome := by
            simpa [at?, inOld, inNew] using only
          rcases ih below with ⟨place, touched, before⟩ | surplus
          · exact .inl ⟨key :: place, .child inner inOld inNew touched,
              List.cons_prefix_cons.mpr ⟨rfl, before⟩⟩
          · exact .inr (.child inner inOld inNew surplus)
    · refine .inl ⟨[], touched_of_outside (Bool.not_eq_true _ ▸ inner) key ?_, List.nil_prefix⟩
      by_contra neither
      obtain ⟨notOld, notNew⟩ := not_or.mp neither
      simp [at?, not_not.mp notOld, not_not.mp notNew] at only

/-- A path at which both values have something else goes through a place at which they differ, if it
is not compared inside. -/
theorem touched_of_differ {first second : Json} (inOld : old.at? path = some first)
    (inNew : new.at? path = some second) (outside : inside first second = false)
    (differ : first.same second = false) : ∃ place, Touched old new place ∧ place <+: path := by
  induction path generalizing old new with
  | nil =>
    cases inOld
    cases inNew
    exact ⟨[], .whole outside differ, List.nil_prefix⟩
  | cons key path ih =>
    obtain ⟨oldChild, oldFound, inOld⟩ := Option.bind_eq_some_iff.mp inOld
    obtain ⟨newChild, newFound, inNew⟩ := Option.bind_eq_some_iff.mp inNew
    by_cases inner : inside old new = true
    · obtain ⟨place, touched, before⟩ := ih inOld inNew
      exact ⟨key :: place, .child inner oldFound newFound touched,
        List.cons_prefix_cons.mpr ⟨rfl, before⟩⟩
    · refine ⟨[], touched_of_outside (Bool.not_eq_true _ ▸ inner) key (.inl ?_), List.nil_prefix⟩
      simp [oldFound]

theorem Surplus.not_touched (surplus : Surplus old new path) {place : Path}
    (touched : Touched old new place) : ¬ place <+: path := by
  induction surplus generalizing place with
  | @item olds news index path behind inOld =>
    intro before
    have lost : (Json.arr news).child? (toString index) = none := by
      rw [child?_arr, List.getElem?_eq_none (by omega)]
    have kept : (Json.arr olds).child? (toString index) = some olds[index] := by
      rw [child?_arr, List.getElem?_eq_getElem inOld]
    cases touched with
    | whole outside => cases outside
    | child _ _ inNew =>
      obtain ⟨rfl, _⟩ := List.cons_prefix_cons.mp before
      cases lost.symm.trans inNew
    | added _ fresh =>
      obtain ⟨rfl, _⟩ := List.cons_prefix_cons.mp before
      cases kept.symm.trans fresh
    | removed _ _ _ first =>
      obtain ⟨rfl, _⟩ := List.cons_prefix_cons.mp before
      have same : index = news.length := toString_injective (first news rfl)
      omega
  | @child old new first second key path inner inOld inNew _ ih =>
    intro before
    cases place with
    | nil => cases inner.symm.trans (touched_nil_iff.mp touched).1
    | cons segment place =>
      obtain ⟨rfl, below⟩ := List.cons_prefix_cons.mp before
      exact ih ((touched_cons_iff inner inOld inNew).mp touched) below

/-- The first item that an array has lost is a place at which the values differ. -/
theorem Surplus.exists_first (surplus : Surplus old new path) :
    ∃ front olds news index rest, path = front ++ toString index :: rest ∧
      old.at? front = some (.arr olds) ∧ new.at? front = some (.arr news) ∧
      news.length < index ∧ index < olds.length ∧
      Touched old new (front ++ [toString news.length]) := by
  induction surplus with
  | @item olds news index path behind inOld =>
    refine ⟨[], olds, news, index, path, rfl, rfl, rfl, behind, inOld, ?_⟩
    have within : news.length < olds.length := by omega
    have inOld : (arr olds).child? (toString news.length) = some olds[news.length] := by
      rw [child?_arr, List.getElem?_eq_getElem within]
    refine .removed rfl inOld ?_ ?_
    · rw [child?_arr, List.getElem?_eq_none (Nat.le_refl _)]
    · intro items isArray
      cases isArray
      rfl
  | @child old new first second key path inner inOld inNew _ ih =>
    obtain ⟨front, olds, news, index, rest, rfl, oldFound, newFound, behind, within, touched⟩ := ih
    refine ⟨key :: front, olds, news, index, rest, rfl, ?_, ?_, behind, within,
      .child inner inOld inNew touched⟩
    · simpa [at?, inOld] using oldFound
    · simpa [at?, inNew] using newFound

/-- The changes that a patch makes cover every path that only one of the values has, but those
through a surplus item, for which the first item that the array has lost is listed, and every path
at which both have values that differ and are not compared inside. -/
theorem ofPatch_covers (oldFormed : old.WellFormed) (newFormed : new.WellFormed)
    {patch : List PatchOperation} (walks : Walks old new patch) (path : Path) :
    Change.ofPatch old new patch = delta old new ∧
      ((old.at? path).isSome ≠ (new.at? path).isSome →
        (Change.Cover (Change.ofPatch old new patch) path ↔ ¬ Surplus old new path)) ∧
      (∀ first second, old.at? path = some first → new.at? path = some second →
        inside first second = false → first.same second = false →
          Change.Cover (Change.ofPatch old new patch) path) ∧
      (Surplus old new path → ∃ front olds news index rest,
        path = front ++ toString index :: rest ∧
        old.at? front = some (.arr olds) ∧ new.at? front = some (.arr news) ∧
        news.length < index ∧ index < olds.length ∧
        Change.between old new (front ++ [toString news.length]) ∈
          Change.ofPatch old new patch) := by
  have isDelta := ofPatch_eq_delta oldFormed newFormed walks
  rw [isDelta, cover_delta_iff oldFormed newFormed]
  refine ⟨rfl, ?_, ?_, ?_⟩
  · intro only
    constructor
    · intro covered surplus
      obtain ⟨place, touched, before⟩ := covered
      exact surplus.not_touched touched before
    · exact (touched_or_surplus only).resolve_right
  · intro first second inOld inNew outside differ
    exact touched_of_differ inOld inNew outside differ
  · intro surplus
    obtain ⟨front, olds, news, index, rest, same, inOld, inNew, behind, within, touched⟩ :=
      surplus.exists_first
    exact ⟨front, olds, news, index, rest, same, inOld, inNew, behind, within,
      (mem_delta_iff oldFormed newFormed).mpr ⟨_, touched, rfl⟩⟩

theorem Surplus.exists_child {key : String} (surplus : Surplus old new (key :: path)) :
    ∃ child, old.child? key = some child := by
  cases surplus with
  | item _ _ inOld => exact ⟨_, (child?_arr ..).trans (List.getElem?_eq_getElem inOld)⟩
  | child _ inOld => exact ⟨_, inOld⟩

/-- A value that loses two items of a list, and in which a name changes and a note is new. -/
def untrimmed : Json := .obj [("items", .arr [.str "a", .str "b", .str "c"]), ("name", .str "old")]

def trimmed : Json := .obj [("items", .arr [.str "a"]), ("name", .str "new"), ("note", .null)]

def trimming : List PatchOperation := [.remove "/items/1".toList, .remove "/items/1".toList,
  .replace "/name".toList, .add "/note".toList]

theorem ofPatch_covers_trimming :
    untrimmed.WellFormed ∧ trimmed.WellFormed ∧ Walks untrimmed trimmed trimming ∧
      Change.Cover (Change.ofPatch untrimmed trimmed trimming) ["name"] ∧
      Change.Cover (Change.ofPatch untrimmed trimmed trimming) ["note"] ∧
      ¬ Change.Cover (Change.ofPatch untrimmed trimmed trimming) ["items", "2"] := by
  have oldFormed : untrimmed.WellFormed := by decide
  have newFormed : trimmed.WellFormed := by decide
  have walks : Walks untrimmed trimmed trimming := by
    apply walks_of_delta oldFormed newFormed
    have pointers : (delta untrimmed trimmed).map (fun change => change.path.pointer) =
        ["/items/1".toList, "/name".toList, "/note".toList] := by rfl
    intro pointer
    rw [pointers]
    simp [trimming, PatchOperation.pointer?]
  refine ⟨oldFormed, newFormed, walks, ?_, ?_, ?_⟩
  · exact (ofPatch_covers oldFormed newFormed walks ["name"]).2.2.1 (.str "old") (.str "new")
      rfl rfl rfl rfl
  · refine ((ofPatch_covers oldFormed newFormed walks ["note"]).2.1 (by decide)).mpr ?_
    intro surplus
    obtain ⟨child, inOld⟩ := surplus.exists_child
    cases inOld
  · have item : Surplus (.arr [.str "a", .str "b", .str "c"]) (.arr [.str "a"]) [toString 2] :=
      .item [] (by decide) (by decide)
    have surplus : Surplus untrimmed trimmed ["items", "2"] := .child rfl rfl rfl item
    intro covered
    exact ((ofPatch_covers oldFormed newFormed walks ["items", "2"]).2.1 (by decide)).mp covered
      surplus

/-- Of two items that an array has lost the second one is not covered. -/
theorem ofPatch_leaves_out :
    let old := Json.arr [.str "a", .str "b", .str "c"]
    let new := Json.arr [.str "a"]
    let patch := [PatchOperation.remove "/1".toList, .remove "/1".toList]
    old.WellFormed ∧ new.WellFormed ∧ Walks old new patch ∧
      (old.at? ["2"]).isSome = true ∧ (new.at? ["2"]).isSome = false ∧
      Change.ofPatch old new patch = [⟨["1"], some (.str "b"), none⟩] ∧
      ¬ Change.Cover (Change.ofPatch old new patch) ["2"] := by
  intro old new patch
  have oldFormed : old.WellFormed := by decide
  have newFormed : new.WellFormed := by decide
  have walks : Walks old new patch := by
    apply walks_of_delta oldFormed newFormed
    have pointers : (delta old new).map (fun change => change.path.pointer) = ["/1".toList] := rfl
    intro pointer
    rw [pointers]
    simp [patch, PatchOperation.pointer?]
  have changes : Change.ofPatch old new patch = [⟨["1"], some (.str "b"), none⟩] := by rfl
  refine ⟨oldFormed, newFormed, walks, rfl, rfl, changes, ?_⟩
  intro covered
  obtain ⟨change, member, before⟩ := covered
  rw [changes] at member
  obtain rfl := List.mem_singleton.mp member
  exact absurd before (by decide)

end Json

end StackSwap
