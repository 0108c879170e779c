import StackSwap.Proofs.Needs
import StackSwap.Proofs.Renames
import StackSwap.Stack.Assessment

namespace StackSwap

/-- What holds of an expression holds of all that verdicts take from it or make of it. -/
structure Json.Hereditary (P : Json → Prop) : Prop where
  /-- the fields of an object -/
  field : ∀ {fields : Entries Json}, P (.obj fields) → ∀ field ∈ fields, P field.2
  /-- the ARN with a name -/
  arn : ∀ {name : Json}, P name → P (Verdict.Machine.arnExpression name)

/-- All new properties of a change are of some kind. -/
def ResourceChange.Keeps (P : Json → Prop) (change : ResourceChange) : Prop :=
  ∀ name, ∀ value ∈ change.newProperty? name, P value

/-- All properties in a template are of some kind. -/
def Template.Keeps (P : Json → Prop) (template : Template) : Prop :=
  ∀ {logicalId name : String} {resource : Resource} {value : Json},
    template.resource? logicalId = some resource → resource.property? name = some value → P value

/-- The new properties of a modified resource are those of the generated template. -/
theorem Stack.keeps_of_mem_changes {P : Json → Prop} {stack : Stack} (keeps : stack.generated.Keeps P)
    {change : ResourceChange} (member : change ∈ stack.changes) (modified : change.kind = .modified) :
    change.Keeps P := by
  obtain ⟨old, new, modifies⟩ := ResourceChange.modifies_of_mem
    (ResourceChange.mem_of_withoutRenames member) modified
  intro name value given
  obtain ⟨resource, isNew, isProperty⟩ := Option.bind_eq_some_iff.mp given
  rw [modifies.newGiven] at isNew
  cases isNew
  exact keeps modifies.generated isProperty

namespace Scope

/-- Two scopes that agree on the value of each expression of some kind, and on the physical IDs. -/
structure AgreeOn (P : Json → Prop) (first second : Scope) : Prop where
  hereditary : Json.Hereditary P
  evaluate : ∀ expression, P expression → first.evaluate expression = second.evaluate expression
  physicalId? : ∀ logicalId,
    first.listing.physicalId? logicalId = second.listing.physicalId? logicalId

namespace AgreeOn

variable {P : Json → Prop} {first second : Scope}

theorem text (agree : AgreeOn P first second) {expression : Json} (kept : P expression) :
    first.evaluateText expression = second.evaluateText expression := by
  have same := agree.evaluate expression kept
  simp only [Scope.evaluate] at same
  simp only [evaluateText, Json.evaluateText, same]

theorem requiredText (agree : AgreeOn P first second) (fault : ArgumentFault)
    {expression : Option Json} (kept : ∀ value ∈ expression, P value) :
    (Intrinsic.orRefuse fault expression >>= first.evaluateText) =
      Intrinsic.orRefuse fault expression >>= second.evaluateText := by
  cases expression with
  | none => rfl
  | some value => exact agree.text (kept value rfl)

theorem physicalName (agree : AgreeOn P first second) (logicalId : String)
    {expression : Option Json} (kept : ∀ value ∈ expression, P value) :
    first.physicalName logicalId expression = second.physicalName logicalId expression := by
  have same : expression.map first.evaluate = expression.map second.evaluate :=
    Option.map_congr (fun value given => agree.evaluate value (kept value given))
  simp only [Scope.physicalName, same, agree.physicalId?]

theorem all (sameResolver : first.resolver = second.resolver)
    (sameListing : first.listing = second.listing) : AgreeOn (fun _ => True) first second where
  hereditary := ⟨fun _ _ _ => trivial, fun _ => trivial⟩
  evaluate expression _ := by rw [Scope.evaluate, Scope.evaluate, sameResolver]
  physicalId? logicalId := by rw [sameListing]

end AgreeOn

end Scope

namespace Verdict

variable {P : Json → Prop} {first second : Scope} {change : ResourceChange}

namespace Function

theorem archive_congr (agree : first.AgreeOn P second) {runtime : Option Json}
    (kept : ∀ value ∈ runtime, P value) (source : String) :
    archive first runtime source = archive second runtime source := by
  have same := agree.requiredText .noRuntime kept
  simp only [archive, ← bind_assoc, same]

theorem addCodeKey_congr (agree : first.AgreeOn P second) {runtime : Option Json}
    (runtimeKept : ∀ value ∈ runtime, P value) {expression : Json} (kept : P expression)
    (key : String) (update : CodeUpdate) :
    addCodeKey first runtime update key expression =
      addCodeKey second runtime update key expression := by
  simp only [addCodeKey, agree.text kept, archive_congr agree runtimeKept]

theorem codeUpdate_congr (agree : first.AgreeOn P second) (keeps : change.Keeps P)
    (functionName : String) :
    codeUpdate first change functionName = codeUpdate second change functionName := by
  unfold codeUpdate
  apply foldlM_congr
  intro field member update
  have kept : P field.2 := by
    cases opened : (change.newProperty? "Code").bind Json.fields? with
    | none =>
      rw [opened] at member
      cases member
    | some fields =>
      rw [opened] at member
      obtain ⟨code, given, isObject⟩ := Option.bind_eq_some_iff.mp opened
      cases code with
      | obj all =>
        cases isObject
        exact agree.hereditary.field (keeps "Code" _ given) field member
      | null | bool | num | str | arr => cases isObject
  exact addCodeKey_congr agree (keeps "Runtime") kept field.1 update

theorem newValue_congr {α : Type} {name : String} {step other : Json → Evaluated α}
    (same : ∀ value ∈ change.newProperty? name, step value = other value) (changed : List String)
    (cleared : α) :
    newValue change changed name cleared step = newValue change changed name cleared other := by
  unfold newValue
  cases given : change.newProperty? name with
  | none => rfl
  | some value => simp only [same value given]

theorem configurationUpdate_congr (agree : first.AgreeOn P second) (keeps : change.Keeps P)
    (functionName : String) (changed : List String) :
    configurationUpdate first change functionName changed =
      configurationUpdate second change functionName changed := by
  have description : newValue change changed "Description" "" first.evaluateText =
      newValue change changed "Description" "" second.evaluateText := by
    apply newValue_congr
    intro value given
    exact agree.text (keeps "Description" value given)
  have environment : newValue change changed "Environment" []
        (fun expression => first.evaluate expression >>= environmentTexts) =
      newValue change changed "Environment" []
        (fun expression => second.evaluate expression >>= environmentTexts) := by
    apply newValue_congr
    intro value given
    simp only [agree.evaluate value (keeps "Environment" value given)]
  rw [configurationUpdate_eq, configurationUpdate_eq, description, environment]

theorem updates_congr (agree : first.AgreeOn P second) (keeps : change.Keeps P)
    (functionName : String) (changed : List String) :
    updates first change functionName changed = updates second change functionName changed := by
  rw [updates_eq, updates_eq, codeUpdate_congr agree keeps, configurationUpdate_congr agree keeps]

/-- Two scopes have the same publications for a function if the same versions and aliases refer to
it, and the names of these are of the kind that the scopes agree on. -/
theorem publication_congr (agree : first.AgreeOn P second) {logicalId : String}
    (versions : versionsOf first.template logicalId = versionsOf second.template logicalId)
    (aliases : aliasesOf first.template = aliasesOf second.template)
    (named : ∀ version, ∀ entry ∈ aliasesOf first.template version,
      ∀ name ∈ entry.2.property? "Name", P name) (functionName : String) :
    publication first logicalId functionName = publication second logicalId functionName := by
  have sameNames (versions : List String) : aliasNames first versions = aliasNames second versions := by
    unfold aliasNames
    rw [← aliases]
    apply mapM_congr
    intro entry member
    obtain ⟨version, _, isAlias⟩ := List.mem_flatMap.mp member
    exact agree.requiredText _ (named version entry isAlias)
  simp only [publication, versions, sameNames]

end Function

/-- The verdict on a function is the same if its publications are. -/
theorem ofFunction_congr (agree : first.AgreeOn P second) (keeps : change.Keeps P)
    (published : ∀ functionName, Function.publication first change.logicalId functionName =
      Function.publication second change.logicalId functionName) :
    ofFunction first change = ofFunction second change := by
  simp only [ofFunction, agree.physicalName change.logicalId (keeps "FunctionName"),
    Function.updates_congr agree keeps, published]

theorem ofProject_congr (agree : first.AgreeOn P second) (keeps : change.Keeps P) :
    ofProject first change = ofProject second change := by
  have sameProperty : Project.addProperty first change = Project.addProperty second change := by
    funext update property
    unfold Project.addProperty
    split
    · rename_i expression given
      simp only [agree.evaluate expression (keeps _ _ given)]
    · rename_i expression given
      simp only [agree.evaluate expression (keeps _ _ given)]
    · rename_i expression given
      simp only [agree.text (keeps _ _ given)]
    · rfl
  simp only [ofProject, agree.physicalName change.logicalId (keeps "Name"), sameProperty]

theorem ofMachine_congr (agree : first.AgreeOn P second) (keeps : change.Keeps P) :
    ofMachine first change = ofMachine second change := by
  have nameKept : ∀ value ∈ (change.newProperty? "StateMachineName").map Machine.arnExpression,
      P value := by
    intro value given
    obtain ⟨name, isName, rfl⟩ := Option.map_eq_some_iff.mp given
    exact agree.hereditary.arn (keeps "StateMachineName" name isName)
  simp only [ofMachine, agree.physicalName change.logicalId nameKept]
  cases given : change.newProperty? "DefinitionString" with
  | none => rfl
  | some definition => simp only [agree.evaluate definition (keeps _ definition given)]

/-- Two scopes have the same verdict on a change if they agree on the new properties of a modified
resource and have the same publications for it. -/
theorem ofChange_congr (agree : first.AgreeOn P second)
    (keeps : change.kind = .modified → change.Keeps P)
    (published : ∀ functionName, Function.publication first change.logicalId functionName =
      Function.publication second change.logicalId functionName) :
    ofChange first change = ofChange second change := by
  unfold ofChange
  cases kind : change.kind with
  | added => rfl
  | removed => rfl
  | modified =>
    have kept := keeps kind
    simp only [ofModified, ofFunction_congr agree kept published, ofProject_congr agree kept,
      ofMachine_congr agree kept]

theorem ofChange_congr_of_all (agree : first.AgreeOn (fun _ => True) second)
    (versions : Function.versionsOf first.template change.logicalId =
      Function.versionsOf second.template change.logicalId)
    (aliases : Function.aliasesOf first.template = Function.aliasesOf second.template) :
    ofChange first change = ofChange second change := by
  apply ofChange_congr agree (fun _ _ _ _ => trivial)
  exact Function.publication_congr agree versions aliases (fun _ _ _ _ _ => trivial)

theorem ofChange_congr_of_mem (agree : first.AgreeOn P second)
    (template : first.template = second.template) (keeps : first.template.Keeps P)
    (member : change ∈ first.stack.changes) : ofChange first change = ofChange second change := by
  apply ofChange_congr agree (first.stack.keeps_of_mem_changes keeps member)
  apply Function.publication_congr agree
  · rw [template]
  · rw [template]
  · intro version entry isAlias name given
    have inTemplate := (List.mem_filter.mp (List.mem_filter.mp isAlias).1).1
    have found := first.template.resources.sorted.find?_eq_some_iff.mpr inTemplate
    exact keeps found given

end Verdict

end StackSwap
