import StackSwap.Proofs.Attempt
import StackSwap.Proofs.Nesting

namespace StackSwap

namespace Stack

/-- The stack is deployed, with the template that is generated for it. -/
structure AsDeployed (stack : Stack) : Prop where
  deployed : stack.isDeployed = true
  same : (stack.deployed == stack.generated) = true

/-- The values in both templates of the stack are well formed. -/
structure WellFormed (stack : Stack) : Prop where
  deployed : stack.deployed.WellFormed
  generated : stack.generated.WellFormed

theorem AsDeployed.changes_eq_nil {stack : Stack} (asDeployed : stack.AsDeployed)
    (formed : stack.WellFormed) : stack.changes = [] := by
  have unchanged := Template.resourceChanges_of_beq asDeployed.same formed.deployed formed.generated
  rw [changes, unchanged]
  rfl

end Stack

namespace Scope

/-- The tree is deployed as it is generated, and so are all nested stacks that are loaded. The values
in its templates are well formed, as those that are read from a document are. -/
structure Unchanged (scope : Scope) : Prop where
  asDeployed : scope.stack.Everywhere Stack.AsDeployed
  formed : scope.stack.Everywhere Stack.WellFormed

/-- The level evaluates an expression for the parameters of a nested stack that is loaded. -/
def Passes (level : Scope) (expression : Json) : Prop :=
  ∃ logicalId ∈ level.stack.nestedInBoth, (∃ stack, level.stack.nested? logicalId = some stack) ∧
    level.template.property? logicalId "Parameters" = some expression

/-- At every level the parameters for each nested stack that is loaded have values. -/
def PassesValues (scope : Scope) : Prop :=
  ∀ level expression, scope.Reaches level → level.Passes expression →
    ∃ values, level.evaluate expression = .ok (.obj values)

/-- The parameters for a nested stack have no values, for an error in their expression or because
that stands for something else than an object. -/
inductive PassesNothing (level : Scope) (expression : Json) : EvaluationError → Prop where
  | failed {error : EvaluationError} (failed : level.evaluate expression = .error error) :
    PassesNothing level expression error
  | other {value : Json} (evaluated : level.evaluate expression = .ok value)
    (notObject : value.fields? = none) :
    PassesNothing level expression (.invalidArguments (.notNestedParameters value))

variable {scope level : Scope}

theorem Unchanged.reached (unchanged : scope.Unchanged) (reached : scope.Reaches level) :
    level.Unchanged := by
  induction reached with
  | here _ => exact unchanged
  | inside enters _ ih =>
    obtain ⟨stack, parameters, found, rfl⟩ := nested?_eq_some enters.loaded
    exact ih ⟨unchanged.asDeployed.inside found, unchanged.formed.inside found⟩

theorem Unchanged.changes_eq_nil (unchanged : level.Unchanged) : level.stack.changes = [] :=
  unchanged.asDeployed.here.changes_eq_nil unchanged.formed.here

/-- An unchanged level adds nothing to an assessment. -/
theorem Unchanged.yields_nothing (unchanged : level.Unchanged) (part : Assessment) :
    ¬ level.Yields part := by
  intro yields
  have noChanges := unchanged.changes_eq_nil
  cases yields with
  | output changed =>
    rw [Template.changedOutputs_of_beq unchanged.asDeployed.here.same] at changed
    cases changed
  | verdict member _ =>
    rw [judged, noChanges] at member
    cases member
  | unavailable _ _ modified =>
    rw [modifiedNested, noChanges] at modified
    cases modified
  | @undeployed logicalId child _ loaded missing _ =>
    obtain ⟨stack, parameters, found, rfl⟩ := nested?_eq_some loaded
    have deployed : stack.isDeployed = true := (unchanged.asDeployed.inside found).here.deployed
    rw [deployed] at missing
    cases missing

/-- If an unchanged tree has an assessment it is the empty one. -/
theorem Unchanged.assess_empty (unchanged : scope.Unchanged) {assessment : Assessment}
    (assessed : scope.assess = .ok assessment) : assessment = {} := by
  have nothing {γ : Type} {entries : Assessment → List γ} (listed : Assessment.Listed entries) :
      entries assessment = [] := by
    apply List.eq_nil_iff_forall_not_mem.mpr
    intro entry member
    obtain ⟨level, part, reached, yields, _⟩ := (mem_iff_of_assess listed assessed entry).mp member
    exact (unchanged.reached reached).yields_nothing part yields
  exact Assessment.eq_of_lists (nothing Assessment.listed_swaps) (nothing Assessment.listed_blockers)

theorem passesNothing_iff {expression : Json} {error : EvaluationError} :
    (Requirement.parameters expression).check level = .error error ↔
      level.PassesNothing expression error := by
  rw [Requirement.check]
  constructor
  · intro failed
    rcases bind_eq_error_iff.mp failed with here | ⟨value, evaluated, decided⟩
    · exact .failed here
    · cases value with
      | obj fields => cases decided
      | null | bool | num | str | arr =>
        cases decided
        exact .other evaluated rfl
  · intro nothing
    cases nothing with
    | failed failed => rw [failed]; rfl
    | @other value evaluated notObject =>
      rw [evaluated, ok_bind]
      cases value with
      | obj fields => cases notObject
      | null | bool | num | str | arr => rfl

/-- Only the parameters of a nested stack are missed at an unchanged level. -/
theorem Unchanged.passesNothing_of_unmet (unchanged : level.Unchanged) {error : EvaluationError}
    (unmet : level.Unmet error) :
    ∃ expression, level.Passes expression ∧ level.PassesNothing expression error := by
  cases unmet with
  | verdict member _ =>
    rw [judged, unchanged.changes_eq_nil] at member
    cases member
  | parameters both loaded passed failed =>
    exact ⟨_, ⟨_, both, ⟨_, loaded⟩, passed⟩, passesNothing_iff.mp failed⟩

theorem PassesNothing.no_values {expression : Json} {error : EvaluationError}
    (nothing : level.PassesNothing expression error) (values : List (String × Json)) :
    level.evaluate expression ≠ .ok (.obj values) := by
  intro evaluated
  cases nothing with
  | failed failed =>
    rw [failed] at evaluated
    cases evaluated
  | other evaluated' notObject =>
    rw [evaluated'] at evaluated
    cases evaluated
    cases notObject

theorem Unchanged.assess_of_values (unchanged : scope.Unchanged) (values : scope.PassesValues) :
    scope.assess = .ok {} := by
  cases assessed : scope.assess with
  | ok assessment => rw [unchanged.assess_empty assessed]
  | error error =>
    obtain ⟨level, reached, unmet⟩ := unmet_of_assess assessed
    obtain ⟨expression, passes, nothing⟩ := (unchanged.reached reached).passesNothing_of_unmet unmet
    obtain ⟨given, evaluated⟩ := values level expression reached passes
    exact absurd evaluated (nothing.no_values given)

/-- An unchanged tree without such values has the error of one of the expressions for them. -/
theorem Unchanged.assess_of_no_values (unchanged : scope.Unchanged) (missing : ¬ scope.PassesValues) :
    ∃ level expression error, scope.Reaches level ∧ level.Passes expression ∧
      level.PassesNothing expression error ∧ scope.assess = .error error := by
  cases assessed : scope.assess with
  | error error =>
    obtain ⟨level, reached, unmet⟩ := unmet_of_assess assessed
    obtain ⟨expression, passes, nothing⟩ := (unchanged.reached reached).passesNothing_of_unmet unmet
    exact ⟨level, expression, error, reached, passes, nothing, rfl⟩
  | ok assessment =>
    apply absurd _ missing
    intro level expression reached passes
    obtain ⟨logicalId, both, ⟨stack, loaded⟩, passed⟩ := passes
    have met : (Requirement.parameters expression).check level = .ok () := by
      cases checked : (Requirement.parameters expression).check level with
      | ok _ => rfl
      | error error =>
        have unmet : level.Unmet error := .parameters both loaded passed checked
        exact absurd assessed (unmet.no_assessment reached assessment)
    obtain ⟨value, evaluated, decided⟩ := bind_eq_ok_iff.mp met
    cases value with
    | obj values => exact ⟨values, evaluated⟩
    | null | bool | num | str | arr => cases decided

end Scope

namespace Deployer

variable {deployer : Deployer} {levels : Nat} {request : Request} {scope : Scope}

theorem courseOf_empty {duration : Nat} {plan : Plan}
    (planned : (deployer.plan levels request).plan = .ends duration (.ok (some plan)))
    (empty : plan.assessment = {}) (steps : Nat) :
    Quiet (deployer.courseOf levels request steps) (some (duration, .ok (some .nothing))) := by
  have unblocked : plan.requiresFullDeployment = false := by
    simp [Plan.requiresFullDeployment, empty]
  have idle : plan.isNoOp = true := Plan.isNoOp_iff.mpr (by simp [empty])
  exact courseOf_idle planned unblocked idle steps

end Deployer

namespace Scope

theorem unchanged_passing {parameters : Json} {inner : Template} (formed : parameters.WellFormed)
    (innerFormed : inner.WellFormed) : (passing parameters inner).Unchanged := by
  have outerFormed : (Template.passing parameters).WellFormed := by
    apply Template.wellFormed_ofResource
    simpa [Json.WellFormed] using formed
  constructor
  · refine .intro ⟨rfl, beq_self_eq_true _⟩ (fun entry member => ?_)
    rw [List.mem_singleton.mp member]
    exact .intro ⟨rfl, beq_self_eq_true _⟩ (fun _ member => absurd member List.not_mem_nil)
  · refine .intro ⟨outerFormed, outerFormed⟩ (fun entry member => ?_)
    rw [List.mem_singleton.mp member]
    exact .intro ⟨innerFormed, innerFormed⟩ (fun _ member => absurd member List.not_mem_nil)

/-- A stack around another one with a function, which gets the region passed down. -/
def regional : Scope :=
  passing (.obj [("Region", .obj [("Ref", .str "AWS::Region")])])
    (Verdict.functionTemplate (.str "archive") 3)

/-- A stack that passes down a reference to nothing. -/
def misreferring : Scope := passing (.obj [("Stage", .obj [("Ref", .str "Missing")])]) {}

end Scope

end StackSwap
