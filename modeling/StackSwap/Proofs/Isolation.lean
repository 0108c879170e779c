import StackSwap.Proofs.Accounted
import StackSwap.Proofs.Agreement
import StackSwap.Proofs.Mentions
import StackSwap.Proofs.Termination

/-! A stack looks into a nested stack only through attributes of its resource. If the template never
mentions it, another nested stack in its place changes one part of the assessment. -/

namespace StackSwap

namespace Json

/-- The value looks up no attribute of a resource, whatever the names in it mean. -/
def Avoids (logicalId : String) (value : Json) : Prop :=
  ∀ resolver name, ¬ value.LooksUp resolver (.attributeOf logicalId name)

theorem Literal.avoids {value : Json} (literal : value.Literal) {logicalId : String}
    (unmentioned : value.mentions logicalId = false) : value.Avoids logicalId := by
  intro resolver name looksUp
  rw [literal.mentions_of_looksUp looksUp rfl] at unmentioned
  cases unmentioned

/-- A function that looks up no attribute avoids a resource if its argument does. -/
theorem Avoids.single {function : String} {arguments : Json} {logicalId : String}
    (other : function ≠ "Fn::GetAtt" ∧ function ≠ "Fn::Sub") (avoids : arguments.Avoids logicalId) :
    (obj [(function, arguments)]).Avoids logicalId := by
  intro resolver name looksUp
  rcases looksUp_single.mp looksUp with ⟨argument, _, here⟩ | inside
  · rcases here.of_attributeOf with attributes | substitution
    · exact other.1 attributes
    · exact other.2 substitution
  · exact avoids resolver name inside

theorem Avoids.str (text logicalId : String) : (Json.str text).Avoids logicalId :=
  fun _ _ => not_looksUp_str

theorem Avoids.arr {items : List Json} {logicalId : String}
    (all : ∀ item ∈ items, item.Avoids logicalId) : (Json.arr items).Avoids logicalId := by
  intro resolver name looksUp
  obtain ⟨item, member, inside⟩ := looksUp_arr.mp looksUp
  exact all item member resolver name inside

theorem hereditary_avoids (logicalId : String) : Hereditary (Avoids logicalId) where
  field avoids field member resolver name looksUp := avoids resolver name (.field member looksUp)
  arn := by
    intro name avoids
    have reference (text : String) : (obj [("Ref", .str text)]).Avoids logicalId :=
      .single (by decide) (.str text logicalId)
    apply Avoids.single (by decide)
    apply Avoids.arr
    simp [Avoids.str, Avoids.arr, reference, avoids]

end Json

/-- The values of a template that evaluation may come to: its properties and its outputs. -/
def Template.expressions (template : Template) : List Json :=
  template.resources.values.flatMap (fun resource => resource.properties.values) ++
    template.outputs.values.map Output.value

namespace Template

variable {template : Template} {name : String}

theorem mem_expressions_of_property {logicalId : String} {resource : Resource} {value : Json}
    (found : template.resource? logicalId = some resource)
    (given : resource.property? name = some value) : value ∈ template.expressions := by
  apply List.mem_append_left
  apply List.mem_flatMap.mpr
  refine ⟨resource, List.mem_map.mpr ⟨_, Entries.mem_of_find? found, rfl⟩, ?_⟩
  exact List.mem_map.mpr ⟨_, Entries.mem_of_find? given, rfl⟩

theorem mem_expressions_of_output {output : Output}
    (declared : template.outputs.find? name = some output) : output.value ∈ template.expressions := by
  apply List.mem_append_right
  apply List.mem_map_of_mem
  exact List.mem_map.mpr ⟨_, Entries.mem_of_find? declared, rfl⟩

end Template

namespace Scope

/-- The scope with other nested stacks. -/
def withNested (scope : Scope) (nested : List (String × Stack)) : Scope :=
  { scope with stack := { scope.stack with nested } }

/-- All values of the generated template avoid a resource. -/
def Avoids (scope : Scope) (logicalId : String) : Prop :=
  ∀ value ∈ scope.template.expressions, value.Avoids logicalId

variable {scope : Scope} {nested : List (String × Stack)} {logicalId : String}

theorem evaluateWithin_withNested {budget : Nat}
    (same : ∀ other, other ≠ logicalId → ∀ name,
      attributeOf budget (scope.withNested nested) other name = attributeOf budget scope other name)
    {expression : Json} (avoids : expression.Avoids logicalId) :
    (scope.withNested nested).evaluateWithin budget expression =
      scope.evaluateWithin budget expression := by
  apply Json.evaluate_congr
  intro question looksUp
  cases question with
  | reference name => rfl
  | exportedValue name => rfl
  | attributeOf other name =>
    apply same
    rintro rfl
    exact avoids _ name looksUp

theorem nestedParameters_withNested {budget : Nat} (avoids : scope.Avoids logicalId)
    (same : ∀ other, other ≠ logicalId → ∀ name,
      attributeOf budget (scope.withNested nested) other name = attributeOf budget scope other name)
    (other : String) :
    (scope.withNested nested).nestedParameters ((scope.withNested nested).resolverWithin budget)
        other =
      scope.nestedParameters (scope.resolverWithin budget) other := by
  have sameProperty : (scope.withNested nested).template.property? other "Parameters" =
      scope.template.property? other "Parameters" := rfl
  apply nestedParameters_congr sameProperty
  intro expression given
  obtain ⟨resource, found, isProperty⟩ := Option.bind_eq_some_iff.mp given
  have here := avoids _ (Template.mem_expressions_of_property found isProperty)
  exact evaluateWithin_withNested same here

/-- Only the attributes of one nested stack depend on what is in it. -/
theorem attributeOf_withNested (avoids : scope.Avoids logicalId)
    (others : ∀ other, other ≠ logicalId →
      (scope.withNested nested).stack.nested? other = scope.stack.nested? other) (budget : Nat) :
    ∀ other, other ≠ logicalId → ∀ name,
      attributeOf budget (scope.withNested nested) other name = attributeOf budget scope other name := by
  induction budget with
  | zero => exact fun _ _ _ => rfl
  | succ budget ih =>
    intro other different name
    have sameMeaning : (scope.withNested nested).meaning other name = scope.meaning other name := by
      have sameNested := others other different
      unfold meaning
      rw [sameNested]
      rfl
    apply attributeOf_succ_congr sameMeaning
    · intro expression leads
      obtain ⟨_, output, declared, rfl⟩ := meaning_eq_output leads
      exact evaluateWithin_withNested ih (avoids _ (Template.mem_expressions_of_output declared))
    · intro stack outputName leads
      exact ⟨nestedParameters_withNested avoids ih other, fun _ => rfl⟩

/-- A value that avoids the nested stack stands for the same. -/
theorem evaluate_withNested (avoids : scope.Avoids logicalId)
    (others : ∀ other, other ≠ logicalId →
      (scope.withNested nested).stack.nested? other = scope.stack.nested? other) {expression : Json}
    (apart : expression.Avoids logicalId) :
    (scope.withNested nested).evaluate expression = scope.evaluate expression := by
  -- the budgets of the two trees differ, but a larger one gives both the same values
  let budget := max (scope.withNested nested).stack.referenceBudget scope.stack.referenceBudget
  have first := evaluateWithin_of_enough (Nat.le_max_left _ _ : _ ≤ budget) expression
  have second := evaluateWithin_of_enough (Nat.le_max_right _ _ : _ ≤ budget) expression
  rw [← first, ← second]
  exact evaluateWithin_withNested (attributeOf_withNested avoids others budget) apart

theorem agreeOn_withNested (avoids : scope.Avoids logicalId)
    (others : ∀ other, other ≠ logicalId →
      (scope.withNested nested).stack.nested? other = scope.stack.nested? other) :
    (scope.withNested nested).AgreeOn (Json.Avoids logicalId) scope :=
  ⟨Json.hereditary_avoids logicalId, fun _ apart => evaluate_withNested avoids others apart,
    fun _ => rfl⟩

theorem nested?_withNested (avoids : scope.Avoids logicalId)
    (others : ∀ other, other ≠ logicalId →
      (scope.withNested nested).stack.nested? other = scope.stack.nested? other) {other : String}
    (different : other ≠ logicalId) :
    (scope.withNested nested).nested? other = scope.nested? other := by
  have sameProperty : (scope.withNested nested).template.property? other "Parameters" =
      scope.template.property? other "Parameters" := rfl
  have sameParameters : (scope.withNested nested).nestedParameters
        (scope.withNested nested).resolver other =
      scope.nestedParameters scope.resolver other := by
    apply nestedParameters_congr sameProperty
    intro expression given
    obtain ⟨resource, found, isProperty⟩ := Option.bind_eq_some_iff.mp given
    have here := avoids _ (Template.mem_expressions_of_property found isProperty)
    exact evaluate_withNested avoids others here
  exact nested?_congr (others other different) sameParameters rfl

theorem assessNested_withNested (avoids : scope.Avoids logicalId)
    (others : ∀ other, other ≠ logicalId →
      (scope.withNested nested).stack.nested? other = scope.stack.nested? other) {other : String}
    (different : other ≠ logicalId) :
    (scope.withNested nested).assessNested other = scope.assessNested other := by
  have sameChild (parameters : Table Json) :
      (scope.withNested nested).assessChild other parameters = scope.assessChild other parameters := by
    simp only [assessChild, others other different]
    rfl
  simp only [assessNested, Stack.assessNested, nested?_withNested avoids others different, sameChild]
  rfl

/-- What an assessment holds for a nested stack. -/
inductive StandsFor (scope : Scope) (logicalId : String) : Assessment → Prop where
  /-- the assessment of its own -/
  | entered {child : Scope} {inner : Assessment} (loaded : scope.nested? logicalId = .ok (some child))
    (assessed : child.assess = .ok inner) : StandsFor scope logicalId inner
  /-- a blocker -/
  | blocked (reason : Reason) :
    StandsFor scope logicalId (.ofBlocker { logicalId, type := ResourceKind.nestedStackType, reason })
  /-- nothing -/
  | nothing : StandsFor scope logicalId {}

theorem standsFor_of_assessNested {part : Assessment}
    (assessed : scope.assessNested logicalId = .ok part) : scope.StandsFor logicalId part := by
  obtain ⟨loaded, found, _⟩ := bind_eq_ok_iff.mp assessed
  cases loaded with
  | none =>
    rw [assessNested_of_absent found] at assessed
    cases assessed
    split
    · exact .blocked _
    · exact .nothing
  | some child =>
    cases deployed : child.stack.isDeployed with
    | true =>
      rw [assessNested_of_deployed found deployed] at assessed
      exact .entered found assessed
    | false =>
      rw [assessNested_of_undeployed found deployed] at assessed
      cases assessed
      split
      · exact .blocked _
      · exact .nothing

end Scope

theorem Stack.nestedInBoth_nodup (stack : Stack) : stack.nestedInBoth.Nodup := by
  have distinct : stack.generated.resources.keys.Nodup := stack.generated.resources.sorted.nodup_keys
  exact distinct.sublist (List.filter_sublist.map Prod.fst)

namespace Scope

variable {scope : Scope} {nested : List (String × Stack)} {logicalId : String}

/-- Another nested stack in the place of one that the generated template mentions nowhere changes the
assessment in one part only: what stands for the nested stack. -/
theorem assess_isolates {logicalId : String}
    (others : ∀ other, other ≠ logicalId →
      (scope.withNested nested).stack.nested? other = scope.stack.nested? other)
    (unmentioned : ∀ value ∈ scope.template.expressions,
      value.Literal ∧ value.mentions logicalId = false)
    {first second : Assessment} (assessed : scope.assess = .ok first)
    (assessed' : (scope.withNested nested).assess = .ok second) :
    ∃ before inner inner' after : Assessment,
      first = before ++ inner ++ after ∧ second = before ++ inner' ++ after ∧
        scope.StandsFor logicalId inner ∧ (scope.withNested nested).StandsFor logicalId inner' := by
  have avoids : scope.Avoids logicalId := by
    intro value member
    obtain ⟨literal, here⟩ := unmentioned value member
    exact literal.avoids here
  obtain ⟨verdicts, parts, judged, nestedParts, rfl⟩ := assess_eq_ok_iff.mp assessed
  obtain ⟨verdicts', parts', judged', nestedParts', rfl⟩ := assess_eq_ok_iff.mp assessed'
  have agree := agreeOn_withNested avoids others
  have keeps : scope.stack.generated.Keeps (Json.Avoids logicalId) :=
    fun found given => avoids _ (Template.mem_expressions_of_property found given)
  have sameVerdicts : verdicts = verdicts' := by
    apply eq_of_results _ judged judged'
    intro change member
    exact Verdict.ofChange_congr_of_mem agree rfl keeps (List.mem_filter.mp member).1
  subst sameVerdicts
  have sameParts : ∀ other ∈ scope.stack.nestedInBoth, other ≠ logicalId →
      (scope.withNested nested).assessNested other = scope.assessNested other :=
    fun other _ different => assessNested_withNested avoids others different
  have sameOutputs : (scope.withNested nested).stack.assessOutputs = scope.stack.assessOutputs := rfl
  rw [sameOutputs]
  let own : Assessment := scope.stack.assessOutputs ++ .concat (verdicts.map .ofVerdict)
  rcases results_eq_or_split scope.stack.nestedInBoth_nodup sameParts nestedParts nestedParts' with
    rfl | ⟨before, inner, inner', after, made, made', rfl, rfl⟩
  · refine ⟨own ++ .concat parts, {}, {}, {}, ?_, ?_, .nothing, .nothing⟩
    · rw [Assessment.append_empty, Assessment.append_empty]
    · rw [Assessment.append_empty, Assessment.append_empty]
  · refine ⟨own ++ .concat before, inner, inner', .concat after, ?_, ?_,
      standsFor_of_assessNested made, standsFor_of_assessNested made'⟩
    · rw [Assessment.concat_split]
      simp only [own, Assessment.append_assoc]
    · rw [Assessment.concat_split]
      simp only [own, Assessment.append_assoc]

/-- The nested stack with another timeout for its function, and in its place one without changes. -/
theorem assess_isolates_inner :
    let old := Verdict.functionTemplate (.str "archive") 3
    let new := Verdict.functionTemplate (.str "archive") 30
    let scope := nesting (nestingTemplate "same") (nestingTemplate "same") old new
    let nested := [("Inner", (⟨some "inner", new, new, .empty, []⟩ : Stack))]
    ∃ first before inner after : Assessment,
      scope.assess = .ok first ∧ (scope.withNested nested).assess = .ok {} ∧
        first.blockers.map Blocker.logicalId = ["Handler"] ∧ first = before ++ inner ++ after ∧
        scope.StandsFor "Inner" inner := by
  intro old new scope nested
  have others : ∀ other, other ≠ "Inner" →
      (scope.withNested nested).stack.nested? other = scope.stack.nested? other := by
    intro other different
    have absent {stack : Stack} : Entries.find? [("Inner", stack)] other = none :=
      Entries.find?_eq_none_iff.mpr (by simpa using different.symm)
    exact absent.trans absent.symm
  have values : scope.template.expressions = [.str "same", .str "inner.json"] := rfl
  have unmentioned : ∀ value ∈ scope.template.expressions,
      value.Literal ∧ value.mentions "Inner" = false := by
    intro value member
    rw [values] at member
    rcases List.mem_pair.mp member with rfl | rfl
    · exact ⟨.str _, rfl⟩
    · exact ⟨.str _, rfl⟩
  have assessed : ∃ first, scope.assess = .ok first ∧
      first.blockers.map Blocker.logicalId = ["Handler"] := ⟨_, rfl, rfl⟩
  obtain ⟨first, assessed, blocked⟩ := assessed
  have unchanged : (scope.withNested nested).assess = .ok {} := rfl
  obtain ⟨before, inner, _, after, same, _, stands, _⟩ :=
    assess_isolates others unmentioned assessed unchanged
  exact ⟨first, before, inner, after, assessed, unchanged, blocked, same, stands⟩

end Scope

end StackSwap
