import StackSwap.Proofs.Template
import StackSwap.Stack.Scope

namespace StackSwap

namespace Stack

theorem sizeOf_of_mem_nested {stack : Stack} {entry : String × Stack}
    (member : entry ∈ stack.nested) : sizeOf entry.2 < sizeOf stack := by
  obtain ⟨name, deployed, generated, listing, nested⟩ := stack
  obtain ⟨logicalId, child⟩ := entry
  have smaller := List.sizeOf_lt_of_mem member
  simp only [Stack.mk.sizeOf_spec, Prod.mk.sizeOf_spec] at *
  omega

theorem sizeOf_nested? {stack child : Stack} {logicalId : String}
    (found : stack.nested? logicalId = some child) : sizeOf child < sizeOf stack :=
  sizeOf_of_mem_nested (Entries.mem_of_find? found)

@[elab_as_elim]
theorem nesting_induction {motive : Stack → Prop}
    (level : ∀ stack, (∀ entry ∈ stack.nested, motive entry.2) → motive stack) (stack : Stack) :
    motive stack :=
  level stack (fun entry _ => nesting_induction level entry.2)
termination_by sizeOf stack
decreasing_by
  rename_i member
  exact sizeOf_of_mem_nested member

/-- Something holds of a stack and of all stacks inside it. -/
inductive Everywhere (P : Stack → Prop) : Stack → Prop where
  | intro {stack : Stack} (here : P stack)
    (inside : ∀ entry ∈ stack.nested, Everywhere P entry.2) : Everywhere P stack

namespace Everywhere

variable {P : Stack → Prop} {stack : Stack}

theorem here (holds : Everywhere P stack) : P stack := by
  cases holds with
  | intro here _ => exact here

theorem inside (holds : Everywhere P stack) {logicalId : String} {child : Stack}
    (found : stack.nested? logicalId = some child) : Everywhere P child := by
  cases holds with
  | intro _ inside => exact inside _ (Entries.mem_of_find? found)

end Everywhere

theorem Everywhere.imp {P Q : Stack → Prop} (imp : ∀ stack, P stack → Q stack) {stack : Stack}
    (holds : stack.Everywhere P) : stack.Everywhere Q := by
  induction holds with
  | intro here _ ih => exact .intro (imp _ here) ih

theorem Everywhere.nested {P : Stack → Prop} {stack : Stack} (holds : stack.Everywhere P) :
    stack.Everywhere (Everywhere P) := by
  induction holds with
  | intro here inside ih => exact .intro (.intro here inside) ih

theorem everywhere_iff {P : Stack → Prop} {stack : Stack} :
    stack.Everywhere P ↔ P stack ∧ ∀ entry ∈ stack.nested, entry.2.Everywhere P := by
  constructor
  · intro holds
    cases holds with
    | intro here inside => exact ⟨here, inside⟩
  · exact fun ⟨here, inside⟩ => .intro here inside

end Stack

/-- A template with a nested stack that gets parameters. -/
def Template.passing (parameters : Json) : Template :=
  .ofResource "Inner" ResourceKind.nestedStackType
    [("Parameters", parameters), ("TemplateURL", .str "inner.json")]

/-- A stack around another one, which passes parameters to it. Both are deployed as they are
generated. -/
def Scope.passing (parameters : Json) (inner : Template) : Scope where
  stack := {
    name := some "outer"
    deployed := .passing parameters
    generated := .passing parameters
    listing := .ofResources [⟨"Inner", ResourceKind.nestedStackType, "inner"⟩]
    nested := [("Inner", ⟨some "inner", inner, inner, .empty, []⟩)] }
  parameters := .empty
  environment := .inPartition "123456789012" "eu-west-1" "aws"
  exports := .empty

end StackSwap
