import StackSwap.Proofs.Assessment
import StackSwap.Proofs.Nesting
import StackSwap.Proofs.Unanswered

namespace StackSwap

namespace Scope

/-- What holds of a level whenever it holds of the levels entered from it holds of every level. -/
@[elab_as_elim]
theorem tree_induction {motive : Scope → Prop}
    (level : ∀ scope, (∀ logicalId child, scope.Enters logicalId child → motive child) →
      motive scope) (scope : Scope) : motive scope :=
  level scope (fun _ child _ => tree_induction level child)
termination_by sizeOf scope.stack
decreasing_by
  rename_i enters
  obtain ⟨stack, parameters, found, rfl⟩ := nested?_eq_some enters.loaded
  exact Stack.sizeOf_nested? found

/-- One entry or verdict that a level adds to the assessment of a tree. -/
inductive Yields (level : Scope) : Assessment → Prop where
  /-- a changed output -/
  | output {name : String}
    (changed : name ∈ level.stack.deployed.changedOutputs level.stack.generated) :
    Yields level (.ofBlocker { logicalId := name, type := "", reason := .outputChanged })
  /-- the verdict on a changed resource -/
  | verdict {change : ResourceChange} {verdict : Verdict} (member : change ∈ level.judged)
    (answered : Verdict.ofChange level change = .ok verdict) : Yields level (.ofVerdict verdict)
  /-- a changed nested stack without a template -/
  | unavailable {logicalId : String} (both : logicalId ∈ level.stack.nestedInBoth)
    (unknown : level.nested? logicalId = .ok none) (modified : logicalId ∈ level.modifiedNested) :
    Yields level (.ofBlocker {
      logicalId, type := ResourceKind.nestedStackType, reason := .nestedTemplateUnavailable })
  /-- a changed nested stack that is not deployed -/
  | undeployed {logicalId : String} {child : Scope} (both : logicalId ∈ level.stack.nestedInBoth)
    (loaded : level.nested? logicalId = .ok (some child))
    (missing : child.stack.isDeployed = false)
    (differs : logicalId ∈ level.modifiedNested ∨
      child.stack.deployed.isUnchanged child.stack.generated = false) :
    Yields level (.ofBlocker {
      logicalId, type := ResourceKind.nestedStackType, reason := .newNestedStack })

/-- A nested stack is assessed if it is entered; if not it yields a blocker or nothing. -/
theorem yields_of_assessNested {scope : Scope} {logicalId : String} {part : Assessment}
    (both : logicalId ∈ scope.stack.nestedInBoth)
    (assessed : scope.assessNested logicalId = .ok part) :
    (∃ child, scope.Enters logicalId child ∧ child.assess = .ok part) ∨
      part = {} ∨ scope.Yields part := by
  obtain ⟨loaded, found, _⟩ := bind_eq_ok_iff.mp assessed
  cases loaded with
  | none =>
    rw [assessNested_of_absent found] at assessed
    cases assessed
    split
    · rename_i modified
      exact .inr (.inr (.unavailable both found (List.contains_iff_mem.mp modified)))
    · exact .inr (.inl rfl)
  | some child =>
    cases deployed : child.stack.isDeployed with
    | true =>
      have enters : scope.Enters logicalId child := ⟨both, found, deployed⟩
      exact .inl ⟨child, enters, enters.assessNested_eq ▸ assessed⟩
    | false =>
      rw [assessNested_of_undeployed found deployed] at assessed
      cases assessed
      split
      · rename_i differs
        exact .inr (.inr (.undeployed both found deployed (by simpa using differs)))
      · exact .inr (.inl rfl)

theorem assessNested_eq_error {scope : Scope} {logicalId : String} {error : EvaluationError}
    (both : logicalId ∈ scope.stack.nestedInBoth)
    (failed : scope.assessNested logicalId = .error error) :
    scope.nested? logicalId = .error error ∨
      ∃ child, scope.Enters logicalId child ∧ child.assess = .error error := by
  rcases bind_eq_error_iff.mp failed with noScope | ⟨loaded, found, _⟩
  · exact .inl noScope
  · cases loaded with
    | none =>
      rw [assessNested_of_absent found] at failed
      cases failed
    | some child =>
      cases deployed : child.stack.isDeployed with
      | true =>
        have enters : scope.Enters logicalId child := ⟨both, found, deployed⟩
        exact .inr ⟨child, enters, enters.assessNested_eq ▸ failed⟩
      | false =>
        rw [assessNested_of_undeployed found deployed] at failed
        cases failed

theorem Yields.within {level : Scope} {part assessment : Assessment} (yields : level.Yields part)
    (assessed : level.assess = .ok assessment) : part.Within assessment := by
  cases yields with
  | @output name changed =>
    obtain ⟨verdicts, parts, _, _, rfl⟩ := assess_eq_ok_iff.mp assessed
    refine Assessment.Within.trans ?_ ((Assessment.Within.append_left _ _).trans (.append_left _ _))
    obtain ⟨before, after, same⟩ := List.append_of_mem changed
    refine ⟨List.nil_infix, ?_⟩
    simp only [Stack.assessOutputs, same, List.map_append, List.map_cons]
    exact ⟨_, _, (List.append_assoc ..).trans rfl⟩
  | @verdict change verdict member answered =>
    obtain ⟨again, answered', within⟩ := ofChange_within assessed member
    cases answered.symm.trans answered'
    exact within
  | @unavailable logicalId both unknown modified =>
    obtain ⟨part, made, within⟩ := assessNested_within assessed both
    rw [assessNested_of_absent unknown, if_pos (List.contains_iff_mem.mpr modified)] at made
    cases made
    exact within
  | @undeployed logicalId child both loaded missing differs =>
    obtain ⟨part, made, within⟩ := assessNested_within assessed both
    have blocks : (level.modifiedNested.contains logicalId ||
        !child.stack.deployed.isUnchanged child.stack.generated) = true := by
      simpa using differs
    rw [assessNested_of_undeployed loaded missing, if_pos blocks] at made
    cases made
    exact within

end Scope

theorem Stack.assessOutputs_eq (stack : Stack) :
    stack.assessOutputs = .concat ((stack.deployed.changedOutputs stack.generated).map
      (fun name => .ofBlocker { logicalId := name, type := "", reason := .outputChanged })) := by
  apply Assessment.eq_of_lists
  · simp [assessOutputs, Assessment.swaps_concat, Assessment.ofBlocker, List.flatMap_map]
  · rw [Assessment.blockers_concat, List.flatMap_map]
    exact List.map_eq_flatMap

namespace Scope

/-- The entries of an assessment are those that the levels yield. -/
theorem mem_iff_of_assess {γ : Type} {entries : Assessment → List γ}
    (listed : Assessment.Listed entries) {scope : Scope} {assessment : Assessment}
    (assessed : scope.assess = .ok assessment) (entry : γ) :
    entry ∈ entries assessment ↔
      ∃ level part, scope.Reaches level ∧ level.Yields part ∧ entry ∈ entries part := by
  constructor
  · induction scope using tree_induction generalizing assessment with
    | level scope ih =>
      intro member
      obtain ⟨verdicts, parts, judged, nested, rfl⟩ := assess_eq_ok_iff.mp assessed
      rw [listed.append, listed.append, List.mem_append, List.mem_append,
        Stack.assessOutputs_eq, listed.mem_concat, listed.mem_concat, listed.mem_concat] at member
      rcases member with (⟨part, isOutput, inPart⟩ | ⟨part, isVerdict, inPart⟩) | ⟨part, inParts, inPart⟩
      · obtain ⟨name, changed, rfl⟩ := List.mem_map.mp isOutput
        exact ⟨scope, _, .here scope, .output changed, inPart⟩
      · obtain ⟨verdict, inVerdicts, rfl⟩ := List.mem_map.mp isVerdict
        obtain ⟨change, isJudged, answered⟩ := exists_of_mem_right judged inVerdicts
        exact ⟨scope, _, .here scope, .verdict isJudged answered, inPart⟩
      · obtain ⟨logicalId, isNested, made⟩ := exists_of_mem_right nested inParts
        rcases yields_of_assessNested isNested made with ⟨child, enters, inner⟩ | rfl | yields
        · obtain ⟨level, deep, reached, yields, inDeep⟩ := ih logicalId child enters inner inPart
          exact ⟨level, deep, .inside enters reached, yields, inDeep⟩
        · rw [listed.empty] at inPart
          cases inPart
        · exact ⟨scope, part, .here scope, yields, inPart⟩
  · rintro ⟨level, part, reached, yields, member⟩
    obtain ⟨whole, levelAssessed, within⟩ := reached.within assessed
    exact listed.mono ((yields.within levelAssessed).trans within) member

/-- Something that a level needs has no value. -/
inductive Unmet (level : Scope) : EvaluationError → Prop where
  /-- for the verdict on a changed resource -/
  | verdict {change : ResourceChange} {error : EvaluationError} (member : change ∈ level.judged)
    (fails : Verdict.Fails level change error) : Unmet level error
  /-- for the parameters of a loaded nested stack that both templates have -/
  | parameters {logicalId : String} {stack : Stack} {expression : Json} {error : EvaluationError}
    (both : logicalId ∈ level.stack.nestedInBoth) (loaded : level.stack.nested? logicalId = some stack)
    (passed : level.template.property? logicalId "Parameters" = some expression)
    (failed : (Requirement.parameters expression).check level = .error error) : Unmet level error

/-- The parameter values of a loaded nested stack depend on the expression for them. -/
theorem nested?_dependsOn {scope : Scope} {logicalId : String} {stack : Stack}
    (loaded : scope.stack.nested? logicalId = some stack) :
    DependsOn scope ((scope.template.property? logicalId "Parameters").toList.map .parameters)
      (scope.nested? logicalId) := by
  simp only [nested?, nestedWith?, loaded, nestedParameters]
  cases scope.template.property? logicalId "Parameters" with
  | none => exact .of_ok _
  | some expression =>
    refine DependsOn.bind_pure (.single ?_) _
    simp only [Requirement.check, evaluate, bind_assoc]
    congr 1
    funext value
    cases value <;> rfl

theorem unmet_of_nested? {scope : Scope} {logicalId : String} {error : EvaluationError}
    (both : logicalId ∈ scope.stack.nestedInBoth)
    (failed : scope.nested? logicalId = .error error) : scope.Unmet error := by
  cases loaded : scope.stack.nested? logicalId with
  | none =>
    simp only [nested?, nestedWith?, loaded] at failed
    cases failed
  | some stack =>
    obtain ⟨need, needed, unmet⟩ := (nested?_dependsOn loaded).unmet error failed
    obtain ⟨expression, passed, rfl⟩ := List.mem_map.mp needed
    exact .parameters both loaded (Option.mem_toList.mp passed) unmet

/-- A tree without an assessment has a level at which something has no value. -/
theorem unmet_of_assess {scope : Scope} {error : EvaluationError}
    (failed : scope.assess = .error error) :
    ∃ level, scope.Reaches level ∧ level.Unmet error := by
  induction scope using tree_induction with
  | level scope ih =>
    rw [assess_eq] at failed
    rcases bind_eq_error_iff.mp failed with resources | ⟨_, _, nested⟩
    · rcases bind_eq_error_iff.mp resources with noVerdict | ⟨_, _, impossible⟩
      · obtain ⟨change, member, unanswered⟩ := exists_of_mapM_eq_error noVerdict
        exact ⟨scope, .here scope, .verdict member (Verdict.fails_of_ofChange unanswered)⟩
      · cases impossible
    · rcases bind_eq_error_iff.mp nested with noPart | ⟨_, _, impossible⟩
      · obtain ⟨logicalId, both, stopped⟩ := exists_of_mapM_eq_error noPart
        rcases assessNested_eq_error both stopped with noScope | ⟨child, enters, inner⟩
        · exact ⟨scope, .here scope, unmet_of_nested? both noScope⟩
        · obtain ⟨level, reached, unmet⟩ := ih logicalId child enters inner
          exact ⟨level, .inside enters reached, unmet⟩
      · cases impossible

theorem Unmet.no_assessment {scope level : Scope} {error : EvaluationError}
    (unmet : level.Unmet error) (reached : scope.Reaches level) (assessment : Assessment) :
    scope.assess ≠ .ok assessment := by
  intro assessed
  obtain ⟨whole, levelAssessed, _⟩ := reached.within assessed
  cases unmet with
  | verdict member fails =>
    obtain ⟨verdict, answered, _⟩ := ofChange_within levelAssessed member
    exact fails.no_verdict verdict answered
  | parameters both loaded passed failed =>
    obtain ⟨part, made, _⟩ := assessNested_within levelAssessed both
    obtain ⟨child, found, _⟩ := bind_eq_ok_iff.mp made
    have met := (nested?_dependsOn loaded).met child found (.parameters _)
      (List.mem_map_of_mem (Option.mem_toList.mpr passed))
    rw [failed] at met
    cases met

end Scope

end StackSwap
