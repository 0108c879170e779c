import StackSwap.Proofs.Pointer
import StackSwap.Proofs.Sequence
import StackSwap.Proofs.Touched

namespace StackSwap

namespace Change

theorem mem_of_mem_insertNew {change entry : Change} {changes : List Change}
    (member : entry ∈ change.insertNew changes) : entry = change ∨ entry ∈ changes := by
  induction changes with
  | nil => simpa [insertNew] using member
  | cons first rest ih =>
    rw [insertNew] at member
    split at member
    · exact List.mem_cons.mp member
    · split at member
      · exact .inr member
      · rcases List.mem_cons.mp member with rfl | later
        · exact .inr (List.mem_cons_self ..)
        · exact (ih later).imp_right (List.mem_cons_of_mem _)

theorem mem_insertNew {change entry : Change} {changes : List Change}
    (sole : ∀ other ∈ changes, change.path = other.path → change = other) :
    entry ∈ change.insertNew changes ↔ entry = change ∨ entry ∈ changes := by
  refine ⟨mem_of_mem_insertNew, ?_⟩
  induction changes with
  | nil => simp [insertNew]
  | cons first rest ih =>
    obtain ⟨here, later⟩ := List.forall_mem_cons.mp sole
    intro member
    rw [insertNew]
    split
    · exact List.mem_cons.mpr member
    · split
      · rename_i same
        rcases member with rfl | member
        · rw [here same]
          exact List.mem_cons_self ..
        · exact member
      · rw [List.mem_cons]
        rcases member with rfl | member
        · exact .inr (ih later (.inl rfl))
        · exact (List.mem_cons.mp member).imp_right (fun inRest => ih later (.inr inRest))

theorem insertNew_ordered (change : Change) {changes : List Change} (ordered : Ordered changes) :
    Ordered (change.insertNew changes) := by
  induction changes with
  | nil => exact List.pairwise_singleton _ _
  | cons first rest ih =>
    obtain ⟨below, ascending⟩ := List.pairwise_cons.mp ordered
    rw [insertNew]
    split
    · rename_i before
      refine List.pairwise_cons.mpr ⟨?_, ordered⟩
      intro entry member
      rcases List.mem_cons.mp member with rfl | later
      · exact before
      · exact List.lt_trans before (below entry later)
    · split
      · exact ordered
      · rename_i notBefore different
        refine List.pairwise_cons.mpr ⟨?_, ih ascending⟩
        intro entry member
        rcases mem_of_mem_insertNew member with rfl | later
        · exact ((Std.lt_trichotomy _ first.path).resolve_left notBefore).resolve_left different
        · exact below entry later

theorem atPointer_pointer (old new : Json) (path : Json.Path) :
    atPointer old new path.pointer = between old new path := by
  cases path with
  | nil => rfl
  | cons segment path =>
    have restored : Json.Path.ofPointer (Json.Path.pointer (segment :: path)) = segment :: path :=
      Json.Path.ofPointer_pointer (segment :: path)
    have found (value : Json) :
        value.atPointer? (Json.Path.pointer (segment :: path)) = value.at? (segment :: path) :=
      congrArg value.at? restored
    rw [atPointer, restored, found, found, between]

/-- Changes in order are known by which changes they are. -/
theorem eq_of_ordered {left right : List Change} (leftOrdered : Ordered left)
    (rightOrdered : Ordered right) (same : ∀ change, change ∈ left ↔ change ∈ right) :
    left = right := by
  have distinct {changes : List Change} (ordered : Ordered changes) : changes.Nodup := by
    refine List.Pairwise.imp ?_ ordered
    rintro earlier _ before rfl
    exact List.lt_irrefl _ before
  apply List.Perm.eq_of_pairwise _ leftOrdered rightOrdered
  · exact (List.perm_ext_iff_of_nodup (distinct leftOrdered) (distinct rightOrdered)).mpr same
  · intro first second _ _ before after
    exact absurd after (List.lt_asymm before)

/-- What two values have at some paths, put in its place one path after the other, is in order. -/
theorem foldl_insertNew (old new : Json) (paths : List Json.Path) {changes : List Change}
    (known : ∀ change ∈ changes, ∃ path, between old new path = change)
    (ordered : Ordered changes) :
    Ordered (paths.foldl (fun changes path => (between old new path).insertNew changes) changes) ∧
      ∀ change, change ∈ paths.foldl
          (fun changes path => (between old new path).insertNew changes) changes ↔
        change ∈ changes ∨ ∃ path ∈ paths, between old new path = change := by
  induction paths generalizing changes with
  | nil => simpa using ordered
  | cons path rest ih =>
    have sole : ∀ other ∈ changes, (between old new path).path = other.path →
        between old new path = other := by
      intro other member same
      obtain ⟨place, rfl⟩ := known other member
      exact congrArg (between old new) same
    have stillKnown : ∀ change ∈ (between old new path).insertNew changes,
        ∃ path, between old new path = change := by
      intro change member
      rcases mem_of_mem_insertNew member with rfl | before
      · exact ⟨path, rfl⟩
      · exact known change before
    obtain ⟨later, members⟩ := ih stillKnown (insertNew_ordered (between old new path) ordered)
    refine ⟨later, fun change => ?_⟩
    rw [List.foldl_cons, members, mem_insertNew sole, List.exists_mem_cons_iff]
    constructor
    · rintro ((rfl | before) | behind)
      · exact .inr (.inl rfl)
      · exact .inl before
      · exact .inr (.inr behind)
    · rintro (before | rfl | behind)
      · exact .inl (.inr before)
      · exact .inl (.inl rfl)
      · exact .inr behind

/-- A patch at the pointers of paths makes one change for each of the paths, in their order. -/
theorem ofPatch_atPaths (old new : Json) {patch : List PatchOperation}
    (atPaths : ∀ pointer ∈ patch.filterMap PatchOperation.pointer?,
      ∃ path : Json.Path, path.pointer = pointer) :
    Ordered (ofPatch old new patch) ∧ ∀ change, change ∈ ofPatch old new patch ↔
      ∃ path : Json.Path, path.pointer ∈ patch.filterMap PatchOperation.pointer? ∧
        between old new path = change := by
  let paths := (patch.filterMap PatchOperation.pointer?).map Json.Path.ofPointer
  have isPath {path : Json.Path} :
      path ∈ paths ↔ path.pointer ∈ patch.filterMap PatchOperation.pointer? := by
    rw [List.mem_map]
    constructor
    · rintro ⟨pointer, member, rfl⟩
      obtain ⟨place, rfl⟩ := atPaths pointer member
      rwa [Json.Path.ofPointer_pointer]
    · exact fun member => ⟨path.pointer, member, Json.Path.ofPointer_pointer path⟩
  have byPath : ofPatch old new patch =
      paths.foldl (fun changes path => (between old new path).insertNew changes) [] := by
    rw [ofPatch, List.foldl_map]
    apply List.foldl_ext
    intro changes pointer member
    obtain ⟨path, rfl⟩ := atPaths pointer member
    rw [Json.Path.ofPointer_pointer, atPointer_pointer]
  obtain ⟨ordered, members⟩ :=
    foldl_insertNew old new paths (List.forall_mem_nil _) List.Pairwise.nil
  rw [byPath]
  exact ⟨ordered, fun change => by simp only [members, List.not_mem_nil, false_or, isPath]⟩

end Change

namespace Json

/-- The operations of a patch change the places at which two values differ, in any order and as
often as they like. -/
def Walks (old new : Json) (patch : List PatchOperation) : Prop :=
  ∀ pointer, (∃ operation ∈ patch, operation.pointer? = some pointer) ↔
    ∃ path, Touched old new path ∧ path.pointer = pointer

/-- The changes that a patch makes are the changes between the values. -/
theorem ofPatch_eq_delta {old new : Json} (oldFormed : old.WellFormed) (newFormed : new.WellFormed)
    {patch : List PatchOperation} (walks : Walks old new patch) :
    Change.ofPatch old new patch = delta old new := by
  have isPointer {pointer : List Char} :
      pointer ∈ patch.filterMap PatchOperation.pointer? ↔
        ∃ path, Touched old new path ∧ path.pointer = pointer :=
    List.mem_filterMap.trans (walks pointer)
  have isTouched {path : Path} :
      path.pointer ∈ patch.filterMap PatchOperation.pointer? ↔ Touched old new path := by
    rw [isPointer]
    constructor
    · rintro ⟨place, touched, same⟩
      rwa [← Path.ofPointer_pointer path, ← same, Path.ofPointer_pointer]
    · exact fun touched => ⟨path, touched, rfl⟩
  have atPaths : ∀ pointer ∈ patch.filterMap PatchOperation.pointer?,
      ∃ path : Path, path.pointer = pointer :=
    fun pointer member => (isPointer.mp member).imp fun _ found => found.2
  obtain ⟨ordered, members⟩ := Change.ofPatch_atPaths old new atPaths
  apply Change.eq_of_ordered ordered (delta_ordered oldFormed newFormed)
  intro change
  simp only [members, isTouched, mem_delta_iff oldFormed newFormed]

/-! What the changes determine -/

theorem forall₂_of_getElem? {α : Type} {R : α → α → Prop} {left right : List α}
    (related : ∀ index : Nat, Option.Rel R left[index]? right[index]?) :
    List.Forall₂ R left right := by
  induction left generalizing right with
  | nil =>
    cases right with
    | nil => exact .nil
    | cons second rights => cases related 0
  | cons first lefts ih =>
    cases right with
    | nil => cases related 0
    | cons second rights =>
      cases related 0 with
      | some here => exact .cons here (ih (fun index => by simpa using related (index + 1)))

theorem same_of_children {left right : Json} (inner : inside left right = true)
    (leftFormed : left.WellFormed) (rightFormed : right.WellFormed)
    (related : ∀ key, Option.Rel (fun first second => first.same second = true)
      (left.child? key) (right.child? key)) : left.same right = true := by
  unfold inside at inner
  split at inner
  · have leftSorted := (wellFormed_obj.mp leftFormed).1
    have rightSorted := (wellFormed_obj.mp rightFormed).1
    rw [same_obj, sameFields_iff]
    exact (Entries.forall₂_iff_find? leftSorted rightSorted).mpr related
  · rw [same_arr, sameItems_iff]
    apply forall₂_of_getElem?
    intro index
    simpa only [child?_arr] using related (toString index)
  · cases inner

theorem not_same_of_inside {old new other : Json} (inner : inside old other = true)
    (outside : inside old new = false) : old.same new = false := by
  cases old <;> cases other <;> cases inner <;> cases new <;> first | rfl | cases outside

theorem inside_of_inside {old new other : Json} (inner : inside old new = true)
    (inner' : inside old other = true) : inside new other = true := by
  cases old <;> cases new <;> cases inner <;> cases other <;> first | rfl | cases inner'

/-- If one of two new values has lost an old key that the other one has, it has lost a first one. -/
theorem exists_firstGone {old new other first second : Json} {key : String}
    (inner : inside old new = true) (inner' : inside old other = true)
    (inOld : old.child? key = some first) (inNew : new.child? key = some second)
    (gone : other.child? key = none) :
    ∃ place first second, old.child? place = some first ∧ new.child? place = some second ∧
      other.child? place = none ∧ other.FirstGone place := by
  unfold inside at inner
  split at inner
  · cases other with
    | obj others => exact ⟨key, first, second, inOld, inNew, gone, fun items same => by cases same⟩
    | null | bool | num | str | arr => cases inner'
  · rename_i olds news
    cases other with
    | arr others =>
      obtain ⟨index, rfl⟩ := exists_index_of_child? inOld
      rw [child?_arr] at inOld inNew gone
      have beyond : others.length ≤ index := List.getElem?_eq_none_iff.mp gone
      have inOlds : others.length < olds.length :=
        Nat.lt_of_le_of_lt beyond (List.getElem?_eq_some_iff.mp inOld).1
      have inNews : others.length < news.length :=
        Nat.lt_of_le_of_lt beyond (List.getElem?_eq_some_iff.mp inNew).1
      refine ⟨toString others.length, olds[others.length], news[others.length], ?_, ?_, ?_, ?_⟩
      · rw [child?_arr, List.getElem?_eq_getElem inOlds]
      · rw [child?_arr, List.getElem?_eq_getElem inNews]
      · rw [child?_arr, List.getElem?_eq_none (Nat.le_refl _)]
      · intro items same
        cases same
        rfl
    | null | bool | num | str | obj => cases inner'
  · cases inner

/-- Two new values have the same keys if they differ from the old one at the same places, and each
of these places is missing in both or in neither. -/
theorem exists_child_of_touched {old new other child : Json} {key : String}
    (inner : inside old new = true) (inner' : inside old other = true)
    (agree : ∀ path, Touched old new path ↔ Touched old other path)
    (present : ∀ path, Touched old new path → (new.at? path).isSome = (other.at? path).isSome)
    (inNew : new.child? key = some child) : ∃ found, other.child? key = some found := by
  by_contra missing
  have gone : other.child? key = none :=
    Option.eq_none_iff_forall_ne_some.mpr (fun found same => missing ⟨found, same⟩)
  cases inOld : old.child? key with
  | none =>
    have both := present [key] (.added inner inOld inNew)
    simp [at?, inNew, gone] at both
  | some before =>
    -- the key itself may be behind the first one that is gone
    obtain ⟨place, first, second, inOld, inNew, gone, isFirst⟩ :=
      exists_firstGone inner inner' inOld inNew gone
    have touched : Touched old other [place] := .removed inner' inOld gone isFirst
    have both := present [place] ((agree [place]).mpr touched)
    simp [at?, inNew, gone] at both

/-- A new value that is compared inside with the old one makes every other with the same places be
compared inside. -/
theorem inside_of_agree {old new other : Json}
    (agree : ∀ path, Touched old new path ↔ Touched old other path)
    (inner : inside old new = true) : inside old other = true := by
  by_contra outside
  have outside : inside old other = false := Bool.eq_false_iff.mpr outside
  have whole := (agree []).mpr (.whole outside (not_same_of_inside inner outside))
  cases inner.symm.trans (touched_nil_iff.mp whole).1

theorem isSome_of_beq {first second : Option Json} (same : (first == second) = true) :
    first.isSome = second.isSome := by
  cases beq_optional_iff.mp same <;> rfl

/-- Two new values are the same if they differ from the old one at the same places and are the same
there. -/
theorem same_of_touched {old new other : Json} (newFormed : new.WellFormed)
    (otherFormed : other.WellFormed)
    (agree : ∀ path, Touched old new path ↔ Touched old other path)
    (values : ∀ path, Touched old new path → (new.at? path == other.at? path) = true) :
    new.same other = true := by
  induction old using child_induction generalizing new other with
  | step old ih =>
    have agree' : ∀ path, Touched old other path ↔ Touched old new path :=
      fun path => (agree path).symm
    cases inner : inside old new with
    | false =>
      cases same : old.same new with
      | false => exact values [] (.whole inner same)
      | true =>
        have outside : inside old other = false := by
          by_contra inner'
          cases inner.symm.trans (inside_of_agree agree' (Bool.not_eq_false _ ▸ inner'))
        -- no place at all, so both new values are the old one
        have same' : old.same other = true := by
          by_contra differ
          have whole := (agree []).mpr (.whole outside (Bool.eq_false_iff.mpr differ))
          cases same.symm.trans (touched_nil_iff.mp whole).2
        exact same_of_same same same'
    | true =>
      have inner' : inside old other = true := inside_of_agree agree inner
      have present : ∀ path, Touched old new path →
          (new.at? path).isSome = (other.at? path).isSome :=
        fun path touched => isSome_of_beq (values path touched)
      apply same_of_children (inside_of_inside inner inner') newFormed otherFormed
      intro key
      cases inNew : new.child? key with
      | none =>
        cases inOther : other.child? key with
        | none => exact .none
        | some child =>
          obtain ⟨found, inNew'⟩ := exists_child_of_touched inner' inner agree'
            (fun path touched => (present path ((agree path).mpr touched)).symm) inOther
          cases inNew.symm.trans inNew'
      | some first =>
        obtain ⟨second, inOther⟩ := exists_child_of_touched inner inner' agree present inNew
        rw [inOther]
        refine .some ?_
        cases inOld : old.child? key with
        | none =>
          -- added on both sides: the values at the place are those of the key
          have here := values [key] (.added inner inOld inNew)
          simpa [at?, inNew, inOther, beq_eq_same] using here
        | some before =>
          refine ih key before inOld (newFormed.child inNew) (otherFormed.child inOther) ?_ ?_
          · intro path
            rw [← touched_cons_iff inner inOld inNew, ← touched_cons_iff inner' inOld inOther]
            exact agree (key :: path)
          · intro path touched
            have below := values (key :: path) (.child inner inOld inNew touched)
            simpa [at?, inNew, inOther] using below

theorem forall₂_of_beq_changes {left right : List Change} (equal : (left == right) = true) :
    List.Forall₂ (fun first second => first.path = second.path ∧
      (first.after == second.after) = true) left right := by
  induction left generalizing right with
  | nil =>
    cases right with
    | nil => exact .nil
    | cons => cases equal
  | cons first lefts ih =>
    cases right with
    | nil => cases equal
    | cons second rights =>
      obtain ⟨here, later⟩ := Bool.and_eq_true_iff.mp equal
      obtain ⟨samePath, values⟩ := Bool.and_eq_true_iff.mp here
      obtain ⟨_, sameAfter⟩ := Bool.and_eq_true_iff.mp values
      exact .cons ⟨beq_iff_eq.mp samePath, sameAfter⟩ (ih later)

/-- The changes from an old value determine the new one. -/
theorem same_of_delta {old new other : Json} (oldFormed : old.WellFormed)
    (newFormed : new.WellFormed) (otherFormed : other.WellFormed)
    (equal : (delta old new == delta old other) = true) : new.same other = true := by
  have paired := forall₂_of_beq_changes equal
  have partner {path : Path} (touched : Touched old new path) :
      Touched old other path ∧ (new.at? path == other.at? path) = true := by
    have member := (mem_delta_iff oldFormed newFormed).mpr ⟨path, touched, rfl⟩
    obtain ⟨second, inDelta, samePath, sameAfter⟩ := exists_of_mem_left paired member
    obtain ⟨place, touched', rfl⟩ := (mem_delta_iff oldFormed otherFormed).mp inDelta
    cases samePath
    exact ⟨touched', sameAfter⟩
  have partner' {path : Path} (touched : Touched old other path) : Touched old new path := by
    have member := (mem_delta_iff oldFormed otherFormed).mpr ⟨path, touched, rfl⟩
    obtain ⟨first, inDelta, samePath, _⟩ := exists_of_mem_right paired member
    obtain ⟨place, touched', rfl⟩ := (mem_delta_iff oldFormed newFormed).mp inDelta
    cases samePath
    exact touched'
  exact same_of_touched newFormed otherFormed
    (fun path => ⟨fun touched => (partner touched).1, partner'⟩)
    (fun path touched => (partner touched).2)

/-- The changes that a patch makes, whatever the order of its operations: there are none exactly if
the values are the same; they stand in the order of their paths, none of them at or inside the place
of another; each has what the two values have at its path, which is not the same; and they determine
the new value. -/
theorem ofPatch_exact {old new : Json} (oldFormed : old.WellFormed) (newFormed : new.WellFormed)
    {patch : List PatchOperation} (walks : Walks old new patch) :
    Change.ofPatch old new patch = delta old new ∧
      (Change.ofPatch old new patch = [] ↔ old.same new = true) ∧
      (Change.ofPatch old new patch).Pairwise (fun earlier later => earlier.path < later.path ∧
        ¬ earlier.path <+: later.path ∧ ¬ later.path <+: earlier.path) ∧
      (∀ change ∈ Change.ofPatch old new patch, change.before = old.at? change.path ∧
        change.after = new.at? change.path ∧ (change.before == change.after) = false) ∧
      ∀ other patch', other.WellFormed → Walks old other patch' →
        (Change.ofPatch old new patch == Change.ofPatch old other patch') = true →
          new.same other = true := by
  have isDelta := ofPatch_eq_delta oldFormed newFormed walks
  rw [isDelta]
  refine ⟨rfl, delta_eq_nil_iff oldFormed newFormed, delta_apart oldFormed newFormed, ?_, ?_⟩
  · intro change member
    obtain ⟨path, touched, rfl⟩ := (mem_delta_iff oldFormed newFormed).mp member
    exact ⟨rfl, rfl, touched.differ⟩
  · intro other patch' otherFormed walks' equal
    rw [ofPatch_eq_delta oldFormed otherFormed walks'] at equal
    exact same_of_delta oldFormed newFormed otherFormed equal

theorem walks_of_delta {old new : Json} (oldFormed : old.WellFormed) (newFormed : new.WellFormed)
    {patch : List PatchOperation}
    (same : ∀ pointer, pointer ∈ patch.filterMap PatchOperation.pointer? ↔
      pointer ∈ (delta old new).map (fun change => change.path.pointer)) :
    Walks old new patch := by
  intro pointer
  rw [← List.mem_filterMap, same, List.mem_map]
  constructor
  · rintro ⟨_, member, rfl⟩
    obtain ⟨path, touched, rfl⟩ := (mem_delta_iff oldFormed newFormed).mp member
    exact ⟨path, touched, rfl⟩
  · rintro ⟨path, touched, rfl⟩
    exact ⟨_, (mem_delta_iff oldFormed newFormed).mpr ⟨path, touched, rfl⟩, rfl⟩

/-- A value from which a patch removes a null and two items, and in which it replaces a text and
adds another null. -/
def unpatched : Json := .obj [("a/b", .null), ("items", .arr [.str "1", .str "2", .str "3"]),
  ("~", .obj [("1", .str "old")])]

def patched : Json := .obj [("items", .arr [.str "1"]),
  ("~", .obj [("1", .str "new"), ("2", .null)])]

/-- Both surplus items are removed at the index that the second of them moves to. -/
def patching : List PatchOperation := [.remove "/a~1b".toList, .remove "/items/1".toList,
  .remove "/items/1".toList, .replace "/~0/1".toList, .add "/~0/2".toList]

theorem ofPatch_exact_patching :
    unpatched.WellFormed ∧ patched.WellFormed ∧ Walks unpatched patched patching ∧
      Change.ofPatch unpatched patched patching = [⟨["a/b"], some .null, none⟩,
        ⟨["items", "1"], some (.str "2"), none⟩, ⟨["~", "1"], some (.str "old"), some (.str "new")⟩,
        ⟨["~", "2"], none, some .null⟩] ∧
      unpatched.same patched = false ∧
      ∀ other patch', other.WellFormed → Walks unpatched other patch' →
        (Change.ofPatch unpatched patched patching ==
          Change.ofPatch unpatched other patch') = true → patched.same other = true := by
  have oldFormed : unpatched.WellFormed := by
    simp only [unpatched, WellFormed, WellFormedItems, WellFormedFields, Entries.Sorted]
    decide
  have newFormed : patched.WellFormed := by
    simp only [patched, WellFormed, WellFormedItems, WellFormedFields, Entries.Sorted]
    decide
  have walks : Walks unpatched patched patching := by
    apply walks_of_delta oldFormed newFormed
    have pointers : (delta unpatched patched).map (fun change => change.path.pointer) =
        ["/a~1b".toList, "/items/1".toList, "/~0/1".toList, "/~0/2".toList] := by rfl
    intro pointer
    rw [pointers]
    simp [patching, PatchOperation.pointer?]
  obtain ⟨isDelta, _, _, _, determines⟩ := ofPatch_exact oldFormed newFormed walks
  exact ⟨oldFormed, newFormed, walks, isDelta.trans rfl, rfl, determines⟩

end Json

end StackSwap
