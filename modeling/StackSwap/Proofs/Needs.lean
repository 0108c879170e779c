import StackSwap.Proofs.Counted

namespace StackSwap

/-- Something that an assessment needs: an expression, and the form of its value. -/
inductive Requirement where
  /-- any value -/
  | value (expression : Json)
  /-- a scalar -/
  | text (expression : Json)
  /-- an environment with variables -/
  | variables (expression : Json)
  /-- a runtime for inline code -/
  | runtime (expression : Option Json)
  /-- the name of an alias -/
  | aliasName (logicalId : String) (expression : Option Json)
  /-- parameter values of a nested stack -/
  | parameters (expression : Json)

/-- Whether a requirement is met, or why it is not. -/
def Requirement.check (scope : Scope) : Requirement → Evaluated Unit
  | .value expression => do let _ ← scope.evaluate expression
  | .text expression => do let _ ← scope.evaluateText expression
  | .variables expression => do
    let _ ← Verdict.Function.environmentTexts (← scope.evaluate expression)
  | .runtime expression => do
    let runtime ← scope.evaluateText (← Intrinsic.orRefuse .noRuntime expression)
    let _ ← Verdict.Function.extension runtime
  | .aliasName logicalId expression => do
    let _ ← scope.evaluateText (← Intrinsic.orRefuse (.aliasWithoutName logicalId) expression)
  | .parameters expression => do
    match ← scope.evaluate expression with
    | .obj _ => return ()
    | other => Intrinsic.refuse (.notNestedParameters other)

/-- The step has a result if all requirements are met, and otherwise the error of one of them. -/
structure DependsOn {α : Type} (scope : Scope) (needs : List Requirement) (step : Evaluated α) :
    Prop where
  unmet : ∀ error, step = .error error → ∃ need ∈ needs, need.check scope = .error error
  met : ∀ value, step = .ok value → ∀ need ∈ needs, need.check scope = .ok ()

namespace DependsOn

variable {α β : Type} {scope : Scope}

theorem of_ok (value : α) : DependsOn scope [] (.ok value : Evaluated α) :=
  ⟨nofun, by simp⟩

theorem single {need : Requirement} {step : Evaluated α}
    (same : need.check scope = step >>= fun _ => pure ()) : DependsOn scope [need] step := by
  constructor
  · rintro error rfl
    exact ⟨need, List.mem_singleton_self _, same⟩
  · rintro value rfl
    simpa using same

theorem bind {needs more : List Requirement} {step : Evaluated α} {next : α → Evaluated β}
    (first : DependsOn scope needs step)
    (later : ∀ value, step = .ok value → DependsOn scope more (next value)) :
    DependsOn scope (needs ++ more) (step >>= next) := by
  constructor
  · intro error failed
    rcases bind_eq_error_iff.mp failed with here | ⟨value, succeeds, there⟩
    · obtain ⟨need, member, unmet⟩ := first.unmet error here
      exact ⟨need, List.mem_append_left _ member, unmet⟩
    · obtain ⟨need, member, unmet⟩ := (later value succeeds).unmet error there
      exact ⟨need, List.mem_append_right _ member, unmet⟩
  · intro result succeeds
    obtain ⟨value, here, there⟩ := bind_eq_ok_iff.mp succeeds
    exact List.forall_mem_append.mpr ⟨first.met value here, (later value here).met result there⟩

theorem bind_pure {needs : List Requirement} {step : Evaluated α}
    (first : DependsOn scope needs step) (next : α → β) :
    DependsOn scope needs (step >>= fun value => pure (next value)) := by
  have both : DependsOn scope (needs ++ []) (step >>= fun value => pure (next value)) :=
    first.bind (fun value _ => of_ok (next value))
  rwa [List.append_nil] at both

theorem foldlM {items : List α} {needs : α → List Requirement} {step : β → α → Evaluated β}
    (each : ∀ item ∈ items, ∀ state, DependsOn scope (needs item) (step state item)) (state : β) :
    DependsOn scope (items.flatMap needs) (items.foldlM step state) := by
  induction items generalizing state with
  | nil => exact of_ok state
  | cons item rest ih =>
    rw [List.foldlM_cons, List.flatMap_cons]
    exact (each item (List.mem_cons_self ..) state).bind (fun later _ =>
      ih (fun other member => each other (List.mem_cons_of_mem _ member)) later)

theorem mapM {items : List α} {need : α → Requirement} {step : α → Evaluated β}
    (each : ∀ item, DependsOn scope [need item] (step item)) :
    DependsOn scope (items.map need) (items.mapM step) := by
  induction items with
  | nil => exact of_ok []
  | cons item rest ih =>
    rw [List.mapM_cons, List.map_cons]
    exact (each item).bind (fun value _ => ih.bind_pure _)

end DependsOn

namespace Verdict

variable {scope : Scope} {change : ResourceChange}

namespace Function

/-- What one key of the code property needs. -/
def needsOfCode (change : ResourceChange) (key : String) (expression : Json) : List Requirement :=
  if key ∈ ["S3Bucket", "S3Key", "S3ObjectVersion", "ImageUri"] then [.text expression]
  else if key = "ZipFile" then [.text expression, .runtime (change.newProperty? "Runtime")]
  else []

/-- What a changed code property needs. -/
def codeNeeds (change : ResourceChange) : List Requirement :=
  if change.changedProperties.contains "Code" then
    (((change.newProperty? "Code").bind Json.fields?).getD []).flatMap
      (fun (key, expression) => needsOfCode change key expression)
  else []

/-- What the new value of a property needs. One that did not change, or that was removed, needs
nothing. -/
def newNeeds (change : ResourceChange) (name : String) (need : Json → Requirement) :
    List Requirement :=
  if change.changedProperties.contains name then (change.newProperty? name).toList.map need else []

/-- What the aliases of a function need that move to its new version. -/
def aliasNeeds (template : Template) (logicalId : String) : List Requirement :=
  ((versionsOf template logicalId).flatMap (aliasesOf template)).map
    (fun (aliasId, resource) => .aliasName aliasId (resource.property? "Name"))

/-- What the verdict on a function needs: its changed properties, and the names of the aliases of
its versions. -/
def needs (template : Template) (change : ResourceChange) : List Requirement :=
  codeNeeds change ++ (newNeeds change "Description" .text ++ newNeeds change "Environment" .variables) ++
    aliasNeeds template change.logicalId

theorem addCodeKey_dependsOn (update : CodeUpdate) (key : String) (expression : Json) :
    DependsOn scope (needsOfCode change key expression)
      (addCodeKey scope (change.newProperty? "Runtime") update key expression) := by
  have text : DependsOn scope [.text expression] (scope.evaluateText expression) := .single rfl
  unfold addCodeKey
  split
  · exact text.bind_pure _
  · exact text.bind_pure _
  · exact text.bind_pure _
  · exact text.bind_pure _
  · have runtime (source : String) : DependsOn scope [.runtime (change.newProperty? "Runtime")]
        (archive scope (change.newProperty? "Runtime") source) := by
      refine .single ?_
      simp [Requirement.check, archive]
    exact text.bind (fun source _ => (runtime source).bind_pure _)
  · rename_i bucket object version image zip
    have noText : key ∉ ["S3Bucket", "S3Key", "S3ObjectVersion", "ImageUri"] := by
      simpa using ⟨bucket, object, version, image⟩
    rw [needsOfCode, if_neg noText, if_neg zip]
    exact .of_ok update

theorem codeUpdate_dependsOn (functionName : String) :
    DependsOn scope ((((change.newProperty? "Code").bind Json.fields?).getD []).flatMap
      (fun (key, expression) => needsOfCode change key expression))
      (codeUpdate scope change functionName) :=
  .foldlM (fun (key, expression) _ update => addCodeKey_dependsOn update key expression) _

/-- The new value of a property for an update: nothing if it did not change, and what stands for no
value if it was removed. -/
def newValue {α : Type} (change : ResourceChange) (changed : List String) (name : String)
    (cleared : α) (step : Json → Evaluated α) : Evaluated (Option α) :=
  if changed.contains name then
    match change.newProperty? name with
    | some expression => some <$> step expression
    | none => pure (some cleared)
  else pure none

theorem configurationUpdate_eq (functionName : String) (changed : List String) :
    configurationUpdate scope change functionName changed =
      newValue change changed "Description" "" scope.evaluateText >>= fun description =>
        newValue change changed "Environment" []
          (fun expression => scope.evaluate expression >>= environmentTexts) >>= fun environment =>
            pure { functionName, description, environment } := by
  unfold configurationUpdate newValue
  cases change.newProperty? "Description" <;> cases change.newProperty? "Environment" <;>
    cases changed.contains "Description" <;> cases changed.contains "Environment" <;> simp

theorem newValue_dependsOn {α : Type} {name : String} {need : Json → Requirement} {cleared : α}
    {step : Json → Evaluated α}
    (each : ∀ expression, DependsOn scope [need expression] (step expression)) :
    DependsOn scope (newNeeds change name need)
      (newValue change change.changedProperties name cleared step) := by
  unfold newNeeds newValue
  split
  · cases change.newProperty? name with
    | none => exact .of_ok _
    | some expression =>
      simp only [Option.toList_some, List.map_cons, List.map_nil, map_eq_pure_bind]
      exact (each expression).bind_pure _
  · exact .of_ok _

theorem configurationUpdate_dependsOn (functionName : String) :
    DependsOn scope (newNeeds change "Description" .text ++ newNeeds change "Environment" .variables)
      (configurationUpdate scope change functionName change.changedProperties) := by
  rw [configurationUpdate_eq]
  have text (expression : Json) :
      DependsOn scope [.text expression] (scope.evaluateText expression) := .single rfl
  have environment (expression : Json) : DependsOn scope [.variables expression]
      (scope.evaluate expression >>= environmentTexts) := .single (by simp [Requirement.check])
  exact (newValue_dependsOn text).bind (fun _ _ => (newValue_dependsOn environment).bind_pure _)

theorem updates_eq (functionName : String) (changed : List String) :
    updates scope change functionName changed =
      (if changed.contains "Code" then
        codeUpdate scope change functionName >>= fun update => pure [.updateCode update]
      else pure []) >>= fun code =>
        (if changed.contains "Description" || changed.contains "Environment" then
          configurationUpdate scope change functionName changed >>= fun update =>
            pure [.updateConfiguration update]
        else pure []) >>= fun configuration => pure (code ++ configuration) := by
  unfold updates
  cases changed.contains "Code" <;>
    cases changed.contains "Description" || changed.contains "Environment" <;> simp

theorem updates_dependsOn (functionName : String) :
    DependsOn scope
      (codeNeeds change ++
        (newNeeds change "Description" .text ++ newNeeds change "Environment" .variables))
      (updates scope change functionName change.changedProperties) := by
  rw [updates_eq]
  refine DependsOn.bind ?_ (fun code _ => DependsOn.bind_pure ?_ _)
  · unfold codeNeeds
    split
    · exact (codeUpdate_dependsOn functionName).bind_pure _
    · exact .of_ok _
  · split
    · exact (configurationUpdate_dependsOn functionName).bind_pure _
    · rename_i unchanged
      simp only [Bool.or_eq_true, not_or] at unchanged
      rw [newNeeds, if_neg unchanged.1, newNeeds, if_neg unchanged.2]
      exact .of_ok _

theorem publication_dependsOn (logicalId functionName : String) :
    DependsOn scope (aliasNeeds scope.template logicalId)
      (publication scope logicalId functionName) := by
  by_cases unpublished : (versionsOf scope.template logicalId).isEmpty = true
  · simp only [publication, unpublished, ↓reduceIte]
    rw [aliasNeeds, List.isEmpty_iff.mp unpublished]
    exact .of_ok _
  · simp only [publication, unpublished, Bool.false_eq_true, ↓reduceIte]
    refine DependsOn.bind_pure (.mapM fun (aliasId, resource) => .single ?_) _
    simp [Requirement.check, aliasName]

end Function

theorem ifAllowed_of_allowed {allowed : List String} {proceed : List String → Evaluated Verdict}
    (all : ∀ name ∈ change.changedProperties, name ∈ allowed) :
    ifAllowed change allowed proceed = proceed change.changedProperties := by
  have allAllowed := rejected_eq_nil_iff.mpr all
  simp only [rejected] at allAllowed
  simp only [ifAllowed, allAllowed, List.isEmpty_nil, ↓reduceIte]

theorem ofFunction_dependsOn {functionName : String}
    (all : ∀ name ∈ change.changedProperties, name ∈ Function.allowed)
    (named : scope.physicalName change.logicalId (change.newProperty? "FunctionName") =
      .ok (some functionName)) :
    DependsOn scope (Function.needs scope.template change) (ofFunction scope change) := by
  rw [ofFunction, ifAllowed_of_allowed all, named, ok_bind]
  refine (Function.updates_dependsOn functionName).bind (fun operations _ => ?_)
  exact (Function.publication_dependsOn change.logicalId functionName).bind_pure _

namespace Project

/-- What the new value of a property of a project needs. -/
def propertyNeeds (change : ResourceChange) (property : String) : List Requirement :=
  (change.newProperty? property).toList.map
    (if property = "SourceVersion" then Requirement.text else Requirement.value)

/-- What the verdict on a project needs: its changed properties. -/
def needs (change : ResourceChange) : List Requirement :=
  change.changedProperties.flatMap (propertyNeeds change)

theorem addProperty_dependsOn {property : String} (listed : property ∈ allowed)
    (update : ProjectUpdate) :
    DependsOn scope (propertyNeeds change property) (addProperty scope change update property) := by
  have value (expression : Json) : DependsOn scope [.value expression] (scope.evaluate expression) :=
    .single rfl
  have text (expression : Json) :
      DependsOn scope [.text expression] (scope.evaluateText expression) := .single rfl
  simp only [allowed, List.mem_cons, List.not_mem_nil, or_false] at listed
  rcases listed with rfl | rfl | rfl
  · cases found : change.newProperty? "Source" with
    | none => simpa [propertyNeeds, addProperty, found] using DependsOn.of_ok update
    | some expression =>
      simpa [propertyNeeds, addProperty, found] using (value expression).bind_pure
        (fun value => { update with source := some (value.renameKeys sourceKey) })
  · cases found : change.newProperty? "Environment" with
    | none => simpa [propertyNeeds, addProperty, found] using DependsOn.of_ok update
    | some expression =>
      simpa [propertyNeeds, addProperty, found] using (value expression).bind_pure
        (fun value => { update with environment := some (value.renameKeys smallFirst) })
  · cases found : change.newProperty? "SourceVersion" with
    | none => simpa [propertyNeeds, addProperty, found] using DependsOn.of_ok update
    | some expression =>
      simpa [propertyNeeds, addProperty, found] using (text expression).bind_pure
        (fun text => { update with sourceVersion := some text })

end Project

theorem ofProject_dependsOn {name : String}
    (all : ∀ property ∈ change.changedProperties, property ∈ Project.allowed)
    (kept : ∀ property ∈ change.changedProperties, change.newProperty? property ≠ none)
    (named : scope.physicalName change.logicalId (change.newProperty? "Name") = .ok (some name)) :
    DependsOn scope (Project.needs change) (ofProject scope change) := by
  have noneRemoved : change.changedProperties.filter
      (fun property => (change.newProperty? property).isNone) = [] := by
    simpa [Option.ne_none_iff_isSome] using kept
  rw [ofProject, ifAllowed_of_allowed all]
  simp only [noneRemoved, List.isEmpty_nil, not_true_eq_false, ↓reduceIte, named, ok_bind]
  exact (DependsOn.foldlM (fun property member update =>
    Project.addProperty_dependsOn (all property member) update) _).bind_pure _

/-- What the verdict on a state machine needs: its definition. -/
def Machine.needs (change : ResourceChange) : List Requirement :=
  (change.newProperty? "DefinitionString").toList.map Requirement.value

theorem ofMachine_dependsOn {arn : String} {definition : Json}
    (all : ∀ property ∈ change.changedProperties, property ∈ ["DefinitionString"])
    (kept : change.newProperty? "DefinitionString" = some definition)
    (named : scope.physicalName change.logicalId
      ((change.newProperty? "StateMachineName").map Machine.arnExpression) = .ok (some arn)) :
    DependsOn scope (Machine.needs change) (ofMachine scope change) := by
  rw [ofMachine, ifAllowed_of_allowed all, Machine.needs, kept]
  simp only [named, ok_bind]
  exact DependsOn.bind_pure (.single rfl) _

end Verdict

end StackSwap
