import Mathlib.Data.List.Basic
import StackSwap.Template.Rename

/-! Pairs of renamed resources are told apart by their positions, but these are only labels: other
labels in their place leave the same changes. -/

namespace StackSwap

namespace ResourceChange

/-- What is left of changes with positions after the pairs of renamed resources are dropped. -/
def remaining (placed : List (ResourceChange × Nat)) : List ResourceChange :=
  let dropped := renamedPairs
    (placed.filter (fun (change, _) => change.kind == .added))
    (placed.filter (fun (change, _) => change.kind == .removed))
  (placed.filter (fun (_, position) => !dropped.contains position)).map Prod.fst

theorem withoutRenames_eq (changes : List ResourceChange) :
    withoutRenames changes = remaining changes.zipIdx := rfl

theorem mem_of_withoutRenames {changes : List ResourceChange} {change : ResourceChange}
    (member : change ∈ withoutRenames changes) : change ∈ changes := by
  obtain ⟨⟨other, position⟩, placed, rfl⟩ := List.mem_map.mp member
  have found := List.mem_zipIdx_iff_getElem?.mp (List.mem_filter.mp placed).1
  exact List.mem_of_getElem? found

/-! Other labels -/

section Relabelling

variable {edit : ResourceChange → ResourceChange} {label : Nat → Nat}

/-- The pairs go along with an edit that keeps what makes a pair, and with distinct labels. -/
theorem renamedPairs_map (distinct : Function.Injective label)
    (pairs : ∀ removed added, (edit removed).isRenamedTo (edit added) = removed.isRenamedTo added)
    (added free : List (ResourceChange × Nat)) :
    renamedPairs (added.map (Prod.map edit label)) (free.map (Prod.map edit label)) =
      (renamedPairs added free).map label := by
  induction added generalizing free with
  | nil => rfl
  | cons first rest ih =>
    obtain ⟨change, position⟩ := first
    have sameSearch : (free.map (Prod.map edit label)).find?
          (fun placed => placed.1.isRenamedTo (edit change)) =
        (free.find? (fun placed => placed.1.isRenamedTo change)).map (Prod.map edit label) := by
      rw [List.find?_map]
      congr 2
      funext placed
      exact pairs placed.1 change
    simp only [List.map_cons, Prod.map_apply, renamedPairs, sameSearch]
    cases found : free.find? (fun placed => placed.1.isRenamedTo change) with
    | none => exact ih free
    | some partner =>
      have sameRest : (free.map (Prod.map edit label)).filter
            (fun placed => placed.2 ≠ label partner.2) =
          (free.filter (fun placed => placed.2 ≠ partner.2)).map (Prod.map edit label) := by
        rw [List.filter_map]
        congr 2
        funext placed
        simp [distinct.eq_iff]
      have later := ih (free.filter (fun placed => placed.2 ≠ partner.2))
      rw [← sameRest] at later
      simp only [Option.map_some, Prod.map_snd, later, List.map_cons]

theorem remaining_map (distinct : Function.Injective label)
    (kinds : ∀ change, (edit change).kind = change.kind)
    (pairs : ∀ removed added, (edit removed).isRenamedTo (edit added) = removed.isRenamedTo added)
    (placed : List (ResourceChange × Nat)) :
    remaining (placed.map (Prod.map edit label)) = (remaining placed).map edit := by
  have sameFilter (kind : ChangeKind) : (placed.map (Prod.map edit label)).filter
        (fun placed => placed.1.kind == kind) =
      (placed.filter (fun placed => placed.1.kind == kind)).map (Prod.map edit label) := by
    rw [List.filter_map]
    congr 2
    funext placed
    simp [kinds]
  have sameKept (dropped : List Nat) : (placed.map (Prod.map edit label)).filter
        (fun placed => !(dropped.map label).contains placed.2) =
      (placed.filter (fun placed => !dropped.contains placed.2)).map (Prod.map edit label) := by
    rw [List.filter_map]
    congr 2
    funext placed
    simp [distinct.eq_iff]
  simp only [remaining, sameFilter, renamedPairs_map distinct pairs, sameKept, List.map_map]
  rfl

end Relabelling

/-- An edit that keeps what makes a pair may come before or after the pairs are dropped. -/
theorem map_withoutRenames {edit : ResourceChange → ResourceChange}
    (kinds : ∀ change, (edit change).kind = change.kind)
    (pairs : ∀ removed added, (edit removed).isRenamedTo (edit added) = removed.isRenamedTo added)
    (changes : List ResourceChange) :
    (withoutRenames changes).map edit = withoutRenames (changes.map edit) := by
  have placed : (changes.map edit).zipIdx = changes.zipIdx.map (Prod.map edit id) :=
    List.zipIdx_map ..
  rw [withoutRenames_eq, withoutRenames_eq, placed,
    remaining_map Function.injective_id kinds pairs]

/-! Modified resources -/

/-- The positions behind one that is left open. -/
def skipping (position : Nat) (other : Nat) : Nat := if other < position then other else other + 1

theorem skipping_injective (position : Nat) : Function.Injective (skipping position) := by
  intro first second same
  unfold skipping at same
  split at same <;> split at same <;> omega

theorem remaining_filter_of_modified {keep : ResourceChange → Bool} {change : ResourceChange}
    (modified : change.kind = .modified) (dropped : keep change = false) (position : Nat)
    (before after : List (ResourceChange × Nat)) :
    (remaining (before ++ (change, position) :: after)).filter keep =
      (remaining (before ++ after)).filter keep := by
  have unpaired (kind : ChangeKind) (other : kind ≠ .modified) :
      (before ++ (change, position) :: after).filter (fun placed => placed.1.kind == kind) =
        (before ++ after).filter (fun placed => placed.1.kind == kind) := by
    have differs : (change.kind == kind) = false := by simpa [modified] using other.symm
    simp [differs]
  have passed (positions : List Nat) :
      (((before ++ (change, position) :: after).filter
          (fun placed => !positions.contains placed.2)).map Prod.fst).filter keep =
        (((before ++ after).filter (fun placed => !positions.contains placed.2)).map Prod.fst).filter
          keep := by
    simp only [List.filter_map, List.filter_filter, List.filter_append]
    rw [List.filter_cons_of_neg (by simp [dropped])]
  simp only [remaining, unpaired .added nofun, unpaired .removed nofun, passed]

theorem withoutRenames_filter_of_modified {keep : ResourceChange → Bool} {change : ResourceChange}
    (modified : change.kind = .modified) (dropped : keep change = false)
    (before after : List ResourceChange) :
    (withoutRenames (before ++ change :: after)).filter keep =
      (withoutRenames (before ++ after)).filter keep := by
  let label := Prod.map (id : ResourceChange → ResourceChange) (skipping before.length)
  have sameBefore : before.zipIdx.map label = before.zipIdx := by
    rw [← List.map_id before.zipIdx, List.map_map]
    apply List.map_congr_left
    intro placed member
    have below := List.snd_lt_of_mem_zipIdx member
    have stays : skipping before.length placed.2 = placed.2 := if_pos below
    exact Prod.ext rfl stays
  have laterAfter : (after.zipIdx before.length).map label = after.zipIdx (before.length + 1) := by
    rw [List.zipIdx_succ]
    apply List.map_congr_left
    intro placed member
    obtain ⟨reached, _⟩ := List.mem_zipIdx member
    have moves : skipping before.length placed.2 = placed.2 + 1 := if_neg (Nat.not_lt.mpr reached)
    exact Prod.ext rfl moves
  have placed : (before ++ after).zipIdx.map label =
      before.zipIdx ++ after.zipIdx (before.length + 1) := by
    rw [List.zipIdx_append, List.map_append, sameBefore, Nat.zero_add, laterAfter]
  have relabelled : remaining ((before ++ after).zipIdx.map label) =
      (remaining (before ++ after).zipIdx).map id :=
    remaining_map (skipping_injective before.length) (fun _ => rfl) (fun _ _ => rfl) _
  rw [withoutRenames_eq, withoutRenames_eq, List.zipIdx_append, List.zipIdx_cons, Nat.zero_add,
    remaining_filter_of_modified modified dropped, ← placed, relabelled, List.map_id]

theorem filter_withoutRenames {keep : ResourceChange → Bool} (changes : List ResourceChange)
    (modified : ∀ change ∈ changes, keep change = false → change.kind = .modified) :
    (withoutRenames changes).filter keep = withoutRenames (changes.filter keep) := by
  -- the changes before a place are kept, those behind it may still be dropped
  have behind : ∀ before after : List ResourceChange, (∀ change ∈ before, keep change = true) →
      (∀ change ∈ after, keep change = false → change.kind = .modified) →
      (withoutRenames (before ++ after)).filter keep =
        withoutRenames (before ++ after.filter keep) := by
    intro before after
    induction after generalizing before with
    | nil =>
      intro kept _
      rw [List.filter_nil, List.append_nil]
      apply List.filter_eq_self.mpr
      intro change member
      exact kept change (mem_of_withoutRenames member)
    | cons change rest ih =>
      intro kept modified
      have restModified : ∀ change ∈ rest, keep change = false → change.kind = .modified :=
        fun other member => modified other (List.mem_cons_of_mem _ member)
      cases keeps : keep change with
      | false =>
        have isModified := modified change (List.mem_cons_self ..) keeps
        rw [withoutRenames_filter_of_modified isModified keeps, ih before kept restModified,
          List.filter_cons_of_neg (by simp [keeps])]
      | true =>
        have longer : ∀ other ∈ before ++ [change], keep other = true :=
          List.forall_mem_append.mpr ⟨kept, List.forall_mem_singleton.mpr keeps⟩
        have later := ih (before ++ [change]) longer restModified
        simpa [keeps] using later
  exact behind [] changes (fun _ member => absurd member List.not_mem_nil) modified

end ResourceChange

end StackSwap
