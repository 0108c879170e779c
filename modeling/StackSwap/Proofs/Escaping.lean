import Mathlib.Data.List.Dedup
import StackSwap.Proofs.Patch

namespace StackSwap

namespace Json.Path

/-- A text in which another text takes the place of every occurrence of a character. -/
def replaceChar (char : Char) (text segment : List Char) : List Char :=
  segment.flatMap (fun other => if other = char then text else [other])

/-- The text of a path: a slash in front of every key, and in the keys first `~0` for every tilde
and then `~1` for every slash. -/
def written (path : Path) : List Char :=
  path.flatMap (fun key =>
    '/' :: replaceChar '/' ['~', '1'] (replaceChar '~' ['~', '0'] key.toList))

/-- The tildes that the second replacement brings are not met by the first one. -/
theorem replaceChar_replaceChar (segment : List Char) :
    replaceChar '/' ['~', '1'] (replaceChar '~' ['~', '0'] segment) = escape segment := by
  fun_induction escape segment with
  | case1 => rfl
  | case2 rest ih => simpa [replaceChar] using ih
  | case3 rest ih => simpa [replaceChar] using ih
  | case4 char rest noTilde noSlash ih =>
    have other : char ≠ '~' ∧ char ≠ '/' := ⟨noTilde, noSlash⟩
    simpa [replaceChar, other] using ih

theorem written_eq_pointer (path : Path) : path.written = path.pointer := by
  simp only [written, pointer, replaceChar_replaceChar]

/-- Every list of keys comes back from its text, so no two of them have the same text; and a patch
at the texts of paths makes one change for each text, at the path with that text. -/
theorem ofPointer_written {patch : List PatchOperation}
    (atPaths : ∀ pointer ∈ patch.filterMap PatchOperation.pointer?, ∃ path, written path = pointer)
    (old new : Json) :
    (∀ path, ofPointer (written path) = path) ∧
      (∀ path other, written path = written other → path = other) ∧
      ((Change.ofPatch old new patch).map (fun change => written change.path)).Perm
        (patch.filterMap PatchOperation.pointer?).dedup := by
  have restored (path : Path) : ofPointer (written path) = path := by
    rw [written_eq_pointer, ofPointer_pointer]
  have injective (path other : Path) (same : written path = written other) : path = other := by
    rw [← restored path, same, restored]
  refine ⟨restored, injective, ?_⟩
  simp only [written_eq_pointer] at atPaths injective ⊢
  obtain ⟨ordered, members⟩ := Change.ofPatch_atPaths old new atPaths
  have distinct :
      ((Change.ofPatch old new patch).map (fun change => change.path.pointer)).Nodup := by
    refine List.pairwise_map.mpr (ordered.imp ?_)
    intro earlier later before same
    rw [injective _ _ same] at before
    exact List.lt_irrefl _ before
  apply (List.perm_ext_iff_of_nodup distinct (List.nodup_dedup _)).mpr
  intro pointer
  simp only [List.mem_map, members, List.mem_dedup]
  constructor
  · rintro ⟨_, ⟨path, member, rfl⟩, rfl⟩
    exact member
  · intro member
    obtain ⟨path, rfl⟩ := atPaths pointer member
    exact ⟨_, ⟨path, member, rfl⟩, rfl⟩

/-- Keys that look like one another once they are escaped: a slash in a key or between two keys, an
escape that is a key, and the empty key. -/
def lookalikes : List Path := [["a/b"], ["a", "b"], ["~1"], ["/"], ["~01"], [""], []]

/-- Every place is changed twice, the second time in the opposite order. -/
def retouching : List PatchOperation :=
  lookalikes.map (fun path => .remove path.written) ++
    lookalikes.reverse.map (fun path => .add path.written)

theorem ofPointer_written_lookalikes :
    let pointers := retouching.filterMap PatchOperation.pointer?
    let changes := Change.ofPatch .null (.obj [("", .null), ("~1", .bool true)]) retouching
    (∀ pointer ∈ pointers, ∃ path, written path = pointer) ∧
      pointers.take 7 = ["/a~1b", "/a/b", "/~01", "/~1", "/~001", "/", ""].map String.toList ∧
      ofPointer (written ["~1", "a/b", ""]) = ["~1", "a/b", ""] ∧
      changes.length = 7 ∧ pointers.length = 14 := by
  intro pointers changes
  have atPaths : ∀ pointer ∈ pointers, ∃ path, written path = pointer := by
    intro pointer member
    obtain ⟨operation, inPatch, found⟩ := List.mem_filterMap.mp member
    rcases List.mem_append.mp inPatch with first | second
    · obtain ⟨path, _, rfl⟩ := List.mem_map.mp first
      exact ⟨path, Option.some.inj found⟩
    · obtain ⟨path, _, rfl⟩ := List.mem_map.mp second
      exact ⟨path, Option.some.inj found⟩
  obtain ⟨restored, _, perm⟩ :=
    ofPointer_written atPaths .null (.obj [("", .null), ("~1", .bool true)])
  refine ⟨atPaths, rfl, restored _, ?_, rfl⟩
  have length := perm.length_eq
  rw [List.length_map] at length
  exact length.trans (by decide)

end Json.Path

end StackSwap
