import Mathlib.Data.List.Chain
import Mathlib.Data.List.Perm.Subperm
import Mathlib.Logic.Relation

namespace StackSwap

variable {α : Type} {step : α → α → Prop} {item next : α} {walk : List α}

/-- Steps lead from the item to one from which they lead back to it. -/
def LoopsFrom (step : α → α → Prop) (item : α) : Prop :=
  ∃ loop, Relation.ReflTransGen step item loop ∧ Relation.TransGen step loop loop

theorem LoopsFrom.exists_step (loops : LoopsFrom step item) :
    ∃ next, step item next ∧ LoopsFrom step next := by
  obtain ⟨loop, path, back⟩ := loops
  rcases Relation.ReflTransGen.cases_head path with rfl | ⟨next, goes, rest⟩
  · obtain ⟨next, goes, rest⟩ := Relation.TransGen.head'_iff.mp back
    exact ⟨next, goes, item, rest, back⟩
  · exact ⟨next, goes, loop, rest, back⟩

theorem pairwise_of_isChain (goes : walk.IsChain step) :
    walk.Pairwise (Relation.TransGen step) :=
  List.isChain_iff_pairwise.mp (goes.imp fun _ _ => .single)

/-- A walk from an item without loops comes to each item once. -/
theorem nodup_of_isChain (straight : ¬ LoopsFrom step item)
    (goes : (item :: walk).IsChain step) : walk.Nodup := by
  obtain ⟨fromItem, among⟩ := List.pairwise_cons.mp (pairwise_of_isChain goes)
  refine among.imp_of_mem fun {first second} member _ back same => ?_
  subst same
  exact straight ⟨first, (fromItem first member).to_reflTransGen, back⟩

/-- Without loops a walk is no longer than there are items to come to. -/
theorem length_le_of_isChain {items : List α} (known : ∀ first next, step first next → next ∈ items)
    (straight : ¬ LoopsFrom step item) (goes : (item :: walk).IsChain step) :
    walk.length ≤ items.length := by
  obtain ⟨fromItem, _⟩ := List.pairwise_cons.mp (pairwise_of_isChain goes)
  have inItems : walk ⊆ items := by
    intro place member
    obtain ⟨before, _, last⟩ := Relation.TransGen.tail'_iff.mp (fromItem place member)
    exact known before place last
  exact ((nodup_of_isChain straight goes).subperm inItems).length_le

end StackSwap
