import StackSwap.Plan
import StackSwap.Proofs.Counted

namespace StackSwap

namespace ResourceChange

theorem exists_of_mem_renamedPairs {added free : List (ResourceChange × Nat)} {position : Nat}
    (dropped : position ∈ renamedPairs added free) :
    ∃ change, (change, position) ∈ added ∨ (change, position) ∈ free := by
  induction added generalizing free with
  | nil => cases dropped
  | cons first rest ih =>
    obtain ⟨change, place⟩ := first
    simp only [renamedPairs] at dropped
    split at dropped
    · obtain ⟨other, inRest | inFree⟩ := ih dropped
      · exact ⟨other, .inl (List.mem_cons_of_mem _ inRest)⟩
      · exact ⟨other, .inr inFree⟩
    · rename_i removed partner found
      rcases List.mem_cons.mp dropped with rfl | dropped
      · exact ⟨change, .inl (List.mem_cons_self ..)⟩
      · rcases List.mem_cons.mp dropped with rfl | dropped
        · exact ⟨removed, .inr (List.mem_of_find?_eq_some found)⟩
        · obtain ⟨other, inRest | inFree⟩ := ih dropped
          · exact ⟨other, .inl (List.mem_cons_of_mem _ inRest)⟩
          · exact ⟨other, .inr (List.mem_filter.mp inFree).1⟩

/-- Only added and removed resources are taken for renamed ones. -/
theorem mem_withoutRenames {changes : List ResourceChange} {change : ResourceChange}
    (member : change ∈ changes) (modified : change.kind = .modified) :
    change ∈ withoutRenames changes := by
  obtain ⟨position, found⟩ := List.mem_iff_getElem?.mp member
  have placed : (change, position) ∈ changes.zipIdx := List.mem_zipIdx_iff_getElem?.mpr found
  refine List.mem_map.mpr ⟨(change, position), List.mem_filter.mpr ⟨placed, ?_⟩, rfl⟩
  have kept : ∀ kind : ChangeKind, kind ≠ .modified → ∀ other,
      (other, position) ∉ changes.zipIdx.filter (fun placed => placed.1.kind == kind) := by
    intro kind other_kind other inside
    obtain ⟨there, same⟩ := List.mem_filter.mp inside
    rw [List.mem_zipIdx_iff_getElem?, found] at there
    cases Option.some.inj there
    exact other_kind ((beq_iff_eq.mp same).symm.trans modified)
  have free : position ∉ renamedPairs
      (changes.zipIdx.filter (fun placed => placed.1.kind == .added))
      (changes.zipIdx.filter (fun placed => placed.1.kind == .removed)) := by
    intro dropped
    obtain ⟨other, inAdded | inRemoved⟩ := exists_of_mem_renamedPairs dropped
    · exact kept .added (by decide) other inAdded
    · exact kept .removed (by decide) other inRemoved
  simpa using free

end ResourceChange

namespace Assessment

/-- The lists of one assessment stand together in those of another. -/
structure Within (part whole : Assessment) : Prop where
  swaps : part.swaps <:+: whole.swaps
  blockers : part.blockers <:+: whole.blockers

namespace Within

theorem refl (assessment : Assessment) : assessment.Within assessment :=
  ⟨List.infix_rfl, List.infix_rfl⟩

theorem trans {first second third : Assessment} (inner : first.Within second)
    (outer : second.Within third) : first.Within third :=
  ⟨inner.swaps.trans outer.swaps, inner.blockers.trans outer.blockers⟩

theorem append_left (first second : Assessment) : first.Within (first ++ second) :=
  ⟨(List.prefix_append ..).isInfix, (List.prefix_append ..).isInfix⟩

theorem append_right (first second : Assessment) : second.Within (first ++ second) :=
  ⟨(List.suffix_append ..).isInfix, (List.suffix_append ..).isInfix⟩

end Within

theorem eq_of_lists {first second : Assessment} (swaps : first.swaps = second.swaps)
    (blockers : first.blockers = second.blockers) : first = second := by
  cases first
  cases second
  cases swaps
  cases blockers
  rfl

/-- What goes through an assessment like each of its two lists. -/
structure Listed {γ : Type} (entries : Assessment → List γ) : Prop where
  empty : entries {} = []
  append : ∀ first second, entries (first ++ second) = entries first ++ entries second
  mono : ∀ {part whole : Assessment}, part.Within whole → entries part ⊆ entries whole

theorem listed_swaps : Listed swaps := ⟨rfl, fun _ _ => rfl, fun within => within.swaps.subset⟩

theorem listed_blockers : Listed blockers :=
  ⟨rfl, fun _ _ => rfl, fun within => within.blockers.subset⟩

namespace Listed

variable {γ : Type} {entries : Assessment → List γ}

theorem foldl (listed : Listed entries) (first : Assessment) (parts : List Assessment) :
    entries (parts.foldl Assessment.append first) = entries first ++ parts.flatMap entries := by
  induction parts generalizing first with
  | nil => simp
  | cons part rest ih =>
    have here : entries (first.append part) = entries first ++ entries part :=
      listed.append first part
    rw [List.foldl_cons, ih, here, List.flatMap_cons, List.append_assoc]

theorem concat (listed : Listed entries) (parts : List Assessment) :
    entries (Assessment.concat parts) = parts.flatMap entries := by
  rw [Assessment.concat, listed.foldl, listed.empty, List.nil_append]

theorem mem_concat (listed : Listed entries) {parts : List Assessment} {entry : γ} :
    entry ∈ entries (Assessment.concat parts) ↔ ∃ part ∈ parts, entry ∈ entries part := by
  rw [listed.concat, List.mem_flatMap]

end Listed

theorem swaps_concat (parts : List Assessment) : (concat parts).swaps = parts.flatMap swaps :=
  listed_swaps.concat parts

theorem blockers_concat (parts : List Assessment) :
    (concat parts).blockers = parts.flatMap blockers :=
  listed_blockers.concat parts

@[simp] theorem swaps_append (first second : Assessment) :
    (first ++ second).swaps = first.swaps ++ second.swaps := rfl

@[simp] theorem blockers_append (first second : Assessment) :
    (first ++ second).blockers = first.blockers ++ second.blockers := rfl

theorem append_empty (assessment : Assessment) : assessment ++ ({} : Assessment) = assessment :=
  eq_of_lists (List.append_nil _) (List.append_nil _)

theorem append_assoc (first second third : Assessment) :
    first ++ second ++ third = first ++ (second ++ third) :=
  eq_of_lists (List.append_assoc ..) (List.append_assoc ..)

theorem concat_split (before : List Assessment) (part : Assessment) (after : List Assessment) :
    concat (before ++ part :: after) = concat before ++ part ++ concat after := by
  apply eq_of_lists
  · simp [swaps_concat]
  · simp [blockers_concat]

theorem concat_cons (part : Assessment) (rest : List Assessment) :
    concat (part :: rest) = part ++ concat rest := by
  apply eq_of_lists
  · simp [swaps_concat]
  · simp [blockers_concat]

theorem empty_append (assessment : Assessment) : ({} : Assessment) ++ assessment = assessment := rfl

/-- An edit of assessments that goes through them entry by entry. -/
structure Edits (edit : Assessment → Assessment) : Prop where
  empty : edit {} = {}
  append : ∀ first second, edit (first ++ second) = edit first ++ edit second

/-- An edit that empties the verdicts on some items and leaves those on all others alone leaves of
them together what there is for the others. -/
theorem Edits.concat_verdicts {α ε : Type} {edit : Assessment → Assessment} (edits : Edits edit)
    {step : α → Except ε Verdict} {keep : α → Bool}
    (dropped : ∀ item verdict, keep item = false → step item = .ok verdict →
      edit (.ofVerdict verdict) = {})
    (kept : ∀ item verdict, keep item = true → step item = .ok verdict →
      edit (.ofVerdict verdict) = .ofVerdict verdict)
    {items : List α} {verdicts : List Verdict}
    (made : List.Forall₂ (fun item verdict => step item = .ok verdict) items verdicts) :
    ∃ others, List.Forall₂ (fun item verdict => step item = .ok verdict) (items.filter keep) others ∧
      edit (concat (verdicts.map ofVerdict)) = concat (others.map ofVerdict) := by
  induction made with
  | nil => exact ⟨[], .nil, edits.empty⟩
  | @cons item verdict _ _ here _ ih =>
    obtain ⟨others, made, same⟩ := ih
    rw [List.map_cons, concat_cons, edits.append, same]
    cases keeps : keep item with
    | false =>
      refine ⟨others, ?_, ?_⟩
      · rwa [List.filter_cons_of_neg (by simp [keeps])]
      · rw [dropped item verdict keeps here, empty_append]
    | true =>
      refine ⟨verdict :: others, ?_, ?_⟩
      · rw [List.filter_cons_of_pos keeps]
        exact .cons here made
      · rw [kept item verdict keeps here, List.map_cons, concat_cons]

theorem within_concat {parts : List Assessment} {part : Assessment} (member : part ∈ parts) :
    part.Within (concat parts) := by
  obtain ⟨before, after, rfl⟩ := List.append_of_mem member
  constructor
  · exact ⟨before.flatMap swaps, after.flatMap swaps, by simp [swaps_concat]⟩
  · exact ⟨before.flatMap blockers, after.flatMap blockers, by simp [blockers_concat]⟩

end Assessment

namespace Stack

theorem find?_assessEach (environment : Environment) (exports : Table String)
    (nested : List (String × Stack)) (logicalId : String) :
    Entries.find? (assessEach environment exports nested) logicalId =
      (Entries.find? nested logicalId).map (assess environment exports) := by
  induction nested with
  | nil => rfl
  | cons first rest ih =>
    obtain ⟨name, stack⟩ := first
    by_cases here : name = logicalId <;> simp [assessEach, Entries.find?, here, ih]

end Stack

namespace Scope

/-- The assessment of a nested stack of the level for some parameter values. -/
def assessChild (scope : Scope) (logicalId : String) (parameters : Table Json) :
    Evaluated Assessment :=
  match scope.stack.nested? logicalId with
  | none => .ok {}
  | some stack => ({ scope with stack, parameters } : Scope).assess

/-- The assessment of a tree is that of its root, given the assessments of its nested stacks. -/
theorem assess_eq (scope : Scope) : scope.assess = Stack.assessLevel scope scope.assessChild := by
  obtain ⟨⟨name, deployed, generated, listing, nested⟩, parameters, environment, exports⟩ := scope
  simp only [assess, Stack.assess]
  congr 1
  funext logicalId parameters
  rw [Stack.find?_assessEach]
  simp only [assessChild, Stack.nested?]
  cases Entries.find? nested logicalId <;> rfl

/-- The nested stack is in both templates, loaded and deployed, so that its own changes decide. -/
structure Enters (scope : Scope) (logicalId : String) (child : Scope) : Prop where
  both : logicalId ∈ scope.stack.nestedInBoth
  loaded : scope.nested? logicalId = .ok (some child)
  deployed : child.stack.isDeployed = true

/-- The levels of a tree that are entered from its root. -/
inductive Reaches : Scope → Scope → Prop where
  | here (scope : Scope) : Reaches scope scope
  | inside {scope child level : Scope} {logicalId : String} (enters : scope.Enters logicalId child)
    (rest : Reaches child level) : Reaches scope level

theorem nested?_eq_some {scope child : Scope} {logicalId : String}
    (loaded : scope.nested? logicalId = .ok (some child)) :
    ∃ stack parameters, scope.stack.nested? logicalId = some stack ∧
      child = { scope with stack, parameters } := by
  simp only [nested?, nestedWith?] at loaded
  split at loaded
  · cases loaded
  · rename_i stack found
    obtain ⟨parameters, _, same⟩ := bind_eq_ok_iff.mp loaded
    cases same
    exact ⟨stack, parameters, found, rfl⟩

theorem assessChild_of_nested? {scope child : Scope} {logicalId : String}
    (loaded : scope.nested? logicalId = .ok (some child)) :
    scope.assessChild logicalId child.parameters = child.assess := by
  obtain ⟨stack, parameters, found, rfl⟩ := nested?_eq_some loaded
  simp [assessChild, found]

/-- The modified nested stacks of a level. -/
def modifiedNested (scope : Scope) : List String :=
  (scope.stack.changes.filter Stack.isModifiedNestedStack).map ResourceChange.logicalId

/-- The modified resources of a level that get verdicts of their own, and all others that changed. -/
def judged (scope : Scope) : List ResourceChange :=
  scope.stack.changes.filter (fun change => !Stack.isModifiedNestedStack change)

/-- The assessment of a nested stack that both templates have. -/
def assessNested (scope : Scope) (logicalId : String) : Evaluated Assessment :=
  Stack.assessNested scope scope.assessChild scope.modifiedNested logicalId

/-- The assessment of a tree is made of the changed outputs, the verdicts and the nested stacks. -/
theorem assess_eq_parts (scope : Scope) :
    scope.assess = Stack.assessResources scope >>= fun resources =>
      scope.stack.nestedInBoth.mapM scope.assessNested >>= fun nested =>
        .ok (scope.stack.assessOutputs ++ resources ++ .concat nested) := by
  rw [assess_eq]
  rfl

section AssessNested

variable {scope child : Scope} {logicalId : String}

theorem assessNested_of_failed {error : EvaluationError}
    (failed : scope.nested? logicalId = .error error) :
    scope.assessNested logicalId = .error error := by
  simp only [assessNested, Stack.assessNested, failed]
  rfl

theorem assessNested_of_absent (absent : scope.nested? logicalId = .ok none) :
    scope.assessNested logicalId = .ok (
      if scope.modifiedNested.contains logicalId then
        .ofBlocker {
          logicalId, type := ResourceKind.nestedStackType, reason := .nestedTemplateUnavailable }
      else {}) := by
  simp only [assessNested, Stack.assessNested, absent]
  rfl

theorem assessNested_of_undeployed (loaded : scope.nested? logicalId = .ok (some child))
    (undeployed : child.stack.isDeployed = false) :
    scope.assessNested logicalId = .ok (
      if scope.modifiedNested.contains logicalId ||
          !child.stack.deployed.isUnchanged child.stack.generated then
        .ofBlocker { logicalId, type := ResourceKind.nestedStackType, reason := .newNestedStack }
      else {}) := by
  simp only [assessNested, Stack.assessNested, loaded, ok_bind, undeployed, Bool.false_eq_true,
    ↓reduceIte]
  split <;> rfl

theorem assessNested_of_deployed (loaded : scope.nested? logicalId = .ok (some child))
    (deployed : child.stack.isDeployed = true) : scope.assessNested logicalId = child.assess := by
  simp only [assessNested, Stack.assessNested, loaded, ok_bind, deployed, ↓reduceIte]
  exact assessChild_of_nested? loaded

theorem Enters.assessNested_eq (enters : scope.Enters logicalId child) :
    scope.assessNested logicalId = child.assess :=
  assessNested_of_deployed enters.loaded enters.deployed

/-- A nested stack is entered, or its own change is all that counts. -/
theorem assessNested_eq_ok {part : Assessment} (both : logicalId ∈ scope.stack.nestedInBoth)
    (assessed : scope.assessNested logicalId = .ok part) :
    (∃ child, scope.Enters logicalId child ∧ child.assess = .ok part) ∨
      (logicalId ∈ scope.modifiedNested → ∃ reason,
        part = .ofBlocker { logicalId, type := ResourceKind.nestedStackType, reason }) := by
  obtain ⟨loaded, found, _⟩ := bind_eq_ok_iff.mp assessed
  cases loaded with
  | none =>
    refine .inr (fun modified => ⟨.nestedTemplateUnavailable, ?_⟩)
    rw [assessNested_of_absent found, if_pos (List.contains_iff_mem.mpr modified)] at assessed
    exact (Except.ok.inj assessed).symm
  | some child =>
    cases deployed : child.stack.isDeployed with
    | true =>
      have enters : scope.Enters logicalId child := ⟨both, found, deployed⟩
      exact .inl ⟨child, enters, enters.assessNested_eq ▸ assessed⟩
    | false =>
      refine .inr (fun modified => ⟨.newNestedStack, ?_⟩)
      have blocks : (scope.modifiedNested.contains logicalId ||
          !child.stack.deployed.isUnchanged child.stack.generated) = true := by
        rw [List.contains_iff_mem.mpr modified, Bool.true_or]
      rw [assessNested_of_undeployed found deployed, if_pos blocks] at assessed
      exact (Except.ok.inj assessed).symm

end AssessNested

/-- An assessment is made of the changed outputs, the verdicts and the nested stacks. -/
theorem assess_eq_ok_iff {scope : Scope} {assessment : Assessment} :
    scope.assess = .ok assessment ↔ ∃ verdicts parts,
      List.Forall₂ (fun change verdict => Verdict.ofChange scope change = .ok verdict)
        scope.judged verdicts ∧
      List.Forall₂ (fun logicalId part => scope.assessNested logicalId = .ok part)
        scope.stack.nestedInBoth parts ∧
      assessment = scope.stack.assessOutputs ++ .concat (verdicts.map .ofVerdict) ++ .concat parts := by
  simp only [assess_eq, Stack.assessLevel, Stack.assessResources, bind_eq_ok_iff]
  constructor
  · rintro ⟨_, ⟨verdicts, judged, same⟩, parts, nested, made⟩
    cases same
    cases made
    exact ⟨verdicts, parts, mapM_eq_ok_iff.mp judged, mapM_eq_ok_iff.mp nested, rfl⟩
  · rintro ⟨verdicts, parts, judged, nested, rfl⟩
    exact ⟨_, ⟨verdicts, mapM_eq_ok_iff.mpr judged, rfl⟩, parts, mapM_eq_ok_iff.mpr nested, rfl⟩

theorem assessResources_eq_ok {scope : Scope} {verdicts : List Verdict}
    (answered : List.Forall₂ (fun change verdict => Verdict.ofChange scope change = .ok verdict)
      scope.judged verdicts) :
    Stack.assessResources scope = .ok (.concat (verdicts.map .ofVerdict)) := by
  have made : scope.judged.mapM (Verdict.ofChange scope) = .ok verdicts :=
    mapM_eq_ok_iff.mpr answered
  rw [judged] at made
  rw [Stack.assessResources, made]
  rfl

theorem ofChange_within {scope : Scope} {assessment : Assessment}
    (assessed : scope.assess = .ok assessment) {change : ResourceChange}
    (member : change ∈ scope.judged) :
    ∃ verdict, Verdict.ofChange scope change = .ok verdict ∧
      (Assessment.ofVerdict verdict).Within assessment := by
  obtain ⟨verdicts, parts, judged, _, rfl⟩ := assess_eq_ok_iff.mp assessed
  obtain ⟨verdict, inVerdicts, answered⟩ := exists_of_mem_left judged member
  refine ⟨verdict, answered, ?_⟩
  have inConcat := Assessment.within_concat (List.mem_map_of_mem (f := .ofVerdict) inVerdicts)
  exact (inConcat.trans (.append_right _ _)).trans (.append_left _ _)

theorem assessNested_within {scope : Scope} {assessment : Assessment}
    (assessed : scope.assess = .ok assessment) {logicalId : String}
    (both : logicalId ∈ scope.stack.nestedInBoth) :
    ∃ part, scope.assessNested logicalId = .ok part ∧ part.Within assessment := by
  obtain ⟨verdicts, parts, _, nested, rfl⟩ := assess_eq_ok_iff.mp assessed
  obtain ⟨part, inParts, made⟩ := exists_of_mem_left nested both
  exact ⟨part, made, (Assessment.within_concat inParts).trans (.append_right _ _)⟩

/-- The assessment of a level that is entered is part of that of the tree. -/
theorem Reaches.within {scope level : Scope} (reached : scope.Reaches level)
    {assessment : Assessment} (assessed : scope.assess = .ok assessment) :
    ∃ part, level.assess = .ok part ∧ part.Within assessment := by
  induction reached generalizing assessment with
  | here scope => exact ⟨assessment, assessed, .refl assessment⟩
  | inside enters _ ih =>
    obtain ⟨inner, made, innerWithin⟩ := assessNested_within assessed enters.both
    rw [enters.assessNested_eq] at made
    obtain ⟨part, partMade, partWithin⟩ := ih made
    exact ⟨part, partMade, partWithin.trans innerWithin⟩

end Scope

end StackSwap
