import Mathlib.Data.List.Induction
import StackSwap.Settings.Merge

namespace StackSwap

namespace SettingSource

variable {sources : List SettingSource} {source : SettingSource}

/-- Of two sources with their places the second one counts more: its priority is higher, or it is the
same one and its place comes later. -/
def Below (lower higher : SettingSource × Nat) : Prop :=
  lower.1.priority < higher.1.priority ∨
    lower.1.priority = higher.1.priority ∧ lower.2 < higher.2

theorem insertOrdered_below (source : SettingSource) {placed : List (SettingSource × Nat)}
    {place : Nat} (ascending : placed.Pairwise Below) (last : ∀ entry ∈ placed, entry.2 < place) :
    ∃ after : List (SettingSource × Nat),
      after.map Prod.fst = source.insertOrdered (placed.map Prod.fst) ∧
      after.Perm ((source, place) :: placed) ∧ after.Pairwise Below := by
  induction placed with
  | nil => exact ⟨[(source, place)], rfl, .refl _, List.pairwise_singleton ..⟩
  | cons first rest ih =>
    obtain ⟨below, ascending⟩ := List.pairwise_cons.mp ascending
    obtain ⟨before, last⟩ := List.forall_mem_cons.mp last
    by_cases lower : source.priority < first.1.priority
    · refine ⟨(source, place) :: first :: rest, ?_, .refl _, ?_⟩
      · simp [insertOrdered, lower]
      · refine List.pairwise_cons.mpr ⟨fun entry member => .inl ?_,
          List.pairwise_cons.mpr ⟨below, ascending⟩⟩
        rcases List.mem_cons.mp member with rfl | member
        · exact lower
        · rcases below entry member with higher | ⟨same, _⟩
          · exact Int.lt_trans lower higher
          · exact same ▸ lower
    · obtain ⟨after, same, perm, ascending⟩ := ih ascending last
      refine ⟨first :: after, ?_, (perm.cons first).trans (.swap ..),
        List.pairwise_cons.mpr ⟨fun entry member => ?_, ascending⟩⟩
      · simp [insertOrdered, lower, same]
      · rcases List.mem_cons.mp (perm.mem_iff.mp member) with rfl | member
        · rcases Int.lt_or_eq_of_le (Int.not_lt.mp lower) with higher | same
          · exact .inl higher
          · exact .inr ⟨same, before⟩
        · exact below entry member

/-- The order is that of the priorities, and then of the places. -/
theorem ordered_below (sources : List SettingSource) :
    ∃ placed : List (SettingSource × Nat), placed.map Prod.fst = ordered sources ∧
      placed.Perm sources.zipIdx ∧ placed.Pairwise Below := by
  induction sources using List.reverseRecOn with
  | nil => exact ⟨[], rfl, .refl _, .nil⟩
  | append_singleton sources source ih =>
    obtain ⟨placed, same, perm, ascending⟩ := ih
    have last : ∀ entry ∈ placed, entry.2 < sources.length :=
      fun entry member => List.snd_lt_of_mem_zipIdx (perm.mem_iff.mp member)
    obtain ⟨after, inserted, afterPerm, ascending⟩ := insertOrdered_below source ascending last
    refine ⟨after, ?_, ?_, ascending⟩
    · rw [inserted, same, ordered, ordered, List.foldl_append]
      rfl
    · rw [List.zipIdx_append, Nat.zero_add]
      exact afterPerm.trans ((perm.cons _).trans (List.perm_append_singleton ..).symm)

theorem mem_ordered_iff : source ∈ ordered sources ↔ source ∈ sources := by
  obtain ⟨placed, same, perm, _⟩ := ordered_below sources
  rw [← same, (perm.map Prod.fst).mem_iff, List.zipIdx_map_fst]

/-- The sources that are read after a source count more than it. -/
theorem split_of_place {place : Nat} (listed : sources[place]? = some source) :
    ∃ before after, ordered sources = before ++ source :: after ∧
      ∀ later ∈ after, ∃ position, sources[position]? = some later ∧
        Below (source, place) (later, position) := by
  obtain ⟨placed, same, perm, ascending⟩ := ordered_below sources
  have member : (source, place) ∈ placed :=
    perm.mem_iff.mpr (List.mem_zipIdx_iff_getElem?.mpr listed)
  obtain ⟨before, after, rfl⟩ := List.append_of_mem member
  refine ⟨before.map Prod.fst, after.map Prod.fst, by rw [← same, List.map_append]; rfl, ?_⟩
  intro _ among
  obtain ⟨⟨later, position⟩, behind, rfl⟩ := List.mem_map.mp among
  have there : (later, position) ∈ sources.zipIdx := perm.mem_iff.mp (by simp [behind])
  refine ⟨position, List.mem_zipIdx_iff_getElem?.mp there, ?_⟩
  exact (List.pairwise_cons.mp (List.pairwise_append.mp ascending).2.1).1 _ behind

theorem place_of_split {before after : List SettingSource}
    (split : ordered sources = before ++ source :: after) :
    ∃ place, sources[place]? = some source ∧
      ∀ position other, sources[position]? = some other →
        other ∈ after ∨ position = place ∨ Below (other, position) (source, place) := by
  obtain ⟨placed, same, perm, ascending⟩ := ordered_below sources
  have listed {source : SettingSource} {place : Nat} :
      (source, place) ∈ placed ↔ sources[place]? = some source :=
    perm.mem_iff.trans List.mem_zipIdx_iff_getElem?
  obtain ⟨front, rest, rfl, _, tail⟩ := List.map_eq_append_iff.mp (same.trans split)
  obtain ⟨⟨source, place⟩, back, rfl, rfl, rfl⟩ := List.map_eq_cons_iff.mp tail
  refine ⟨place, listed.mp (by simp), fun position other there => ?_⟩
  rcases List.mem_append.mp (listed.mpr there) with earlier | member
  · exact .inr (.inr ((List.pairwise_append.mp ascending).2.2 _ earlier _ (List.mem_cons_self ..)))
  · rcases List.mem_cons.mp member with here | later
    · exact .inr (.inl (Prod.mk.inj here).2)
    · exact .inl (List.mem_map.mpr ⟨_, later, rfl⟩)

end SettingSource

end StackSwap
