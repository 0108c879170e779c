import StackSwap.Proofs.Swaps

namespace StackSwap

namespace Resource

/-- The property has another value in the second definition; a missing value differs from any. -/
def Differs (old new : Resource) (name : String) : Prop :=
  (old.property? name == new.property? name) = false

/-- A field of an update brings a property to its service: it is set exactly if the property
differs, to what the new value stands for, or to what clears the property if that is missing. A
property that nothing clears is not missing. -/
structure Brings {α : Type} (old new : Resource) (name : String) (cleared : Option α)
    (step : Json → Evaluated α) (field : Option α) : Prop where
  isSome : field.isSome = true ↔ old.Differs new name
  value : ∀ found ∈ field, match new.property? name with
    | some expression => step expression = .ok found
    | none => cleared = some found

end Resource

/-- The change tells how two definitions of a resource differ, and has the properties of the
second. -/
structure ResourceChange.Compares (change : ResourceChange) (old new : Resource) : Prop where
  differs : ∀ name, name ∈ change.changedProperties ↔ old.Differs new name
  newProperty : ∀ name, change.newProperty? name = new.property? name

theorem ResourceChange.Modifies.compares {deployed generated : Template} {change : ResourceChange}
    {old new : Resource} (modifies : change.Modifies deployed generated old new)
    (deployedFormed : deployed.WellFormed) (generatedFormed : generated.WellFormed) :
    change.Compares old new where
  differs _ := modifies.mem_changedProperties deployedFormed generatedFormed
  newProperty _ := by rw [newProperty?, modifies.newGiven, Option.bind_some]

namespace Verdict

variable {scope : Scope} {change : ResourceChange} {old new : Resource}

namespace Function

/-- The operations on a function, any of which may be missing. -/
structure Steps where
  code : Option CodeUpdate
  configuration : Option ConfigurationUpdate
  publish : Option VersionPublish

def Steps.operations (steps : Steps) : List Operation :=
  steps.code.toList.map .updateCode ++ steps.configuration.toList.map .updateConfiguration ++
    steps.publish.toList.map .publishVersion

/-- The operations on a function mirror how its definition differs, and which versions and aliases
refer to it. -/
structure Steps.Mirrors (scope : Scope) (logicalId functionName : String) (old new : Resource)
    (steps : Steps) : Prop where
  code : steps.code.isSome = true ↔ old.Differs new "Code"
  configuration : steps.configuration.isSome = true ↔
    old.Differs new "Description" ∨ old.Differs new "Environment"
  description : ∀ update ∈ steps.configuration,
    Resource.Brings old new "Description" (some "") scope.evaluateText update.description
  environment : ∀ update ∈ steps.configuration,
    Resource.Brings old new "Environment" (some [])
      (fun expression => scope.evaluate expression >>= environmentTexts) update.environment
  publish : steps.publish.isSome = true ↔
    ∃ version, scope.template.Refers "AWS::Lambda::Version" version logicalId
  aliases : ∀ request ∈ steps.publish, ∀ name, name ∈ request.aliases ↔
    ∃ aliasId expression, scope.template.AliasFollows aliasId logicalId ∧
      scope.template.property? aliasId "Name" = some expression ∧
      scope.evaluateText expression = .ok name
  codeNamed : ∀ update ∈ steps.code, update.functionName = functionName
  configurationNamed : ∀ update ∈ steps.configuration, update.functionName = functionName
  publishNamed : ∀ request ∈ steps.publish, request.functionName = functionName

end Function

/-- The operations on a function mirror its change. -/
theorem ofFunction_mirrors {swap : Swap} (compares : change.Compares old new)
    (swapped : ofFunction scope change = .ok (.swap swap)) :
    ∃ (functionName : String) (steps : Function.Steps),
      scope.physicalName change.logicalId (new.property? "FunctionName") =
        .ok (some functionName) ∧
      swap.operations = steps.operations ∧
      steps.Mirrors scope change.logicalId functionName old new := by
  obtain ⟨functionName, _, _, _, named, updated, published, operations, _⟩ :=
    ofFunction_eq_swap swapped
  obtain ⟨code, configuration, rfl, codeNeeded, codeMade, needed, made⟩ :=
    Function.updates_eq_ok updated
  obtain ⟨publish, rfl, publishNeeded, requested⟩ := Function.publication_eq_ok published
  refine ⟨functionName, ⟨code, configuration, publish⟩, compares.newProperty _ ▸ named,
    operations, ?_⟩
  have brought {α : Type} {name : String} {cleared : α} {step : Json → Evaluated α}
      {field : Option α}
      (value : Function.newValue change change.changedProperties name cleared step = .ok field) :
      Resource.Brings old new name (some cleared) step field := by
    obtain ⟨isSome, means⟩ := Function.newValue_eq_ok value
    exact ⟨isSome.trans (compares.differs name), compares.newProperty name ▸ means⟩
  exact {
    code := codeNeeded.trans (compares.differs _)
    configuration := needed.trans (or_congr (compares.differs _) (compares.differs _))
    description := fun update isUpdate =>
      brought (Function.configurationUpdate_eq_ok (made update isUpdate)).1
    environment := fun update isUpdate =>
      brought (Function.configurationUpdate_eq_ok (made update isUpdate)).2.1
    publish := publishNeeded.trans (exists_congr fun version => Function.mem_versionsOf_iff)
    aliases := fun request isRequest _ =>
      Function.mem_aliasNames_iff (requested request isRequest).2.1
    codeNamed := fun update isUpdate => Function.codeUpdate_functionName (codeMade update isUpdate)
    configurationNamed := fun update isUpdate =>
      (Function.configurationUpdate_eq_ok (made update isUpdate)).2.2
    publishNamed := fun request isRequest => (requested request isRequest).1 }

namespace Project

/-- The update of a project mirrors how its definition differs. No property that differs is missing
from the new definition. -/
structure Mirrors (scope : Scope) (old new : Resource) (update : ProjectUpdate) : Prop where
  source : Resource.Brings old new "Source" none
    (fun expression => Json.renameKeys sourceKey <$> scope.evaluate expression) update.source
  environment : Resource.Brings old new "Environment" none
    (fun expression => Json.renameKeys smallFirst <$> scope.evaluate expression) update.environment
  sourceVersion : Resource.Brings old new "SourceVersion" none scope.evaluateText
    update.sourceVersion
  kept : ∀ name, old.Differs new name → ∃ value, new.property? name = some value

/-- A field that exactly one property sets brings this property to the service. -/
theorem brings_of_folded {α : Type} {name : String} {step : Json → Evaluated α}
    {field : ProjectUpdate → Option α} {first last : ProjectUpdate}
    (compares : change.Compares old new)
    (listed : ∀ property ∈ change.changedProperties, property ∈ allowed)
    (kept : ∀ property ∈ change.changedProperties, change.newProperty? property ≠ none)
    (fresh : field first = none)
    (takes : ∀ property update later, TakesProperty scope change update property later →
      (property = name ∧ ∃ value, (∃ expression, change.newProperty? property = some expression ∧
        step expression = .ok value) ∧ field later = some value) ∨
        (property ≠ name ∧ field later = field update))
    (folded : change.changedProperties.foldlM (addProperty scope change) first = .ok last) :
    old.Brings new name none step (field last) := by
  have result := foldlM_field field (· = name)
    (fun property value => ∃ expression, change.newProperty? property = some expression ∧
      step expression = .ok value)
    (fun property member _ _ added =>
      takes _ _ _ (addProperty_takes (listed property member) (kept property member) added)) folded
  rcases result with ⟨unset, same⟩ | ⟨_, member, rfl, value, ⟨expression, given, means⟩, set⟩
  · constructor
    · rw [same, fresh, ← compares.differs]
      simpa using fun changed => unset name changed rfl
    · simp [same, fresh]
  · constructor
    · simpa [set, ← compares.differs] using member
    · intro found isFound
      rw [set] at isFound
      cases isFound
      rw [← compares.newProperty, given]
      exact means

end Project

theorem ofProject_mirrors {swap : Swap} (compares : change.Compares old new)
    (swapped : ofProject scope change = .ok (.swap swap)) :
    ∃ update : ProjectUpdate, swap.operations = [.updateProject update] ∧
      scope.physicalName change.logicalId (new.property? "Name") = .ok (some update.name) ∧
      Project.Mirrors scope old new update := by
  obtain ⟨listed, kept, name, update, named, folded, operations⟩ := ofProject_eq_swap swapped
  have sameName : update.name = name := by
    refine foldlM_keeps ProjectUpdate.name ?_ folded
    intro property member state later added
    cases Project.addProperty_takes (listed property member) (kept property member) added <;> rfl
  refine ⟨update, operations, by rw [sameName, ← compares.newProperty, named], ?_⟩
  exact {
    source := by
      refine Project.brings_of_folded compares listed kept rfl ?_ folded
      intro property update later takes
      cases takes with
      | source given means => exact .inl ⟨rfl, _, ⟨_, given, by simp [means]⟩, rfl⟩
      | environment | sourceVersion => exact .inr ⟨by decide, rfl⟩
    environment := by
      refine Project.brings_of_folded compares listed kept rfl ?_ folded
      intro property update later takes
      cases takes with
      | environment given means => exact .inl ⟨rfl, _, ⟨_, given, by simp [means]⟩, rfl⟩
      | source | sourceVersion => exact .inr ⟨by decide, rfl⟩
    sourceVersion := by
      refine Project.brings_of_folded compares listed kept rfl ?_ folded
      intro property update later takes
      cases takes with
      | sourceVersion given means => exact .inl ⟨rfl, _, ⟨_, given, by simp [means]⟩, rfl⟩
      | source | environment => exact .inr ⟨by decide, rfl⟩
    kept := by
      intro name changed
      rw [← compares.newProperty]
      exact Option.ne_none_iff_exists'.mp (kept name ((compares.differs name).mpr changed)) }

/-- The update of a state machine has the new definition, which differs from the old one. -/
theorem ofMachine_mirrors {swap : Swap} (compares : change.Compares old new)
    (changed : change.hasPropertyChanges = true)
    (swapped : ofMachine scope change = .ok (.swap swap)) :
    ∃ update : MachineUpdate, swap.operations = [.updateMachine update] ∧
      scope.physicalName change.logicalId
        ((new.property? "StateMachineName").map Machine.arnExpression) = .ok (some update.arn) ∧
      old.Brings new "DefinitionString" none
        (fun expression => Machine.definitionText <$> scope.evaluate expression)
        (some update.definition) := by
  obtain ⟨listed, expression, arn, definition, given, named, means, operations⟩ :=
    ofMachine_eq_swap swapped
  refine ⟨_, operations, by rw [← compares.newProperty, named], ?_, ?_⟩
  · obtain ⟨name, inChanged⟩ := ResourceChange.hasPropertyChanges_iff.mp changed
    exact iff_of_true rfl ((compares.differs _).mp (listed name inChanged ▸ inChanged))
  · intro found isFound
    cases isFound
    simp [← compares.newProperty, given, means]

/-- The operations mirror how two definitions of a resource differ, as far as its type has any. -/
structure Mirrors (scope : Scope) (logicalId : String) (old new : Resource)
    (operations : List Operation) : Prop where
  function : new.type = "AWS::Lambda::Function" →
    ∃ (functionName : String) (steps : Function.Steps),
      scope.physicalName logicalId (new.property? "FunctionName") = .ok (some functionName) ∧
      operations = steps.operations ∧ operations ≠ [] ∧
      steps.Mirrors scope logicalId functionName old new
  project : new.type = "AWS::CodeBuild::Project" →
    ∃ update : ProjectUpdate, operations = [.updateProject update] ∧
      scope.physicalName logicalId (new.property? "Name") = .ok (some update.name) ∧
      Project.Mirrors scope old new update
  machine : new.type = "AWS::StepFunctions::StateMachine" →
    ∃ update : MachineUpdate, operations = [.updateMachine update] ∧
      scope.physicalName logicalId
        ((new.property? "StateMachineName").map Machine.arnExpression) = .ok (some update.arn) ∧
      old.Brings new "DefinitionString" none
        (fun expression => Machine.definitionText <$> scope.evaluate expression)
        (some update.definition)
  follows : new.type = "AWS::Lambda::Version" ∨ new.type = "AWS::Lambda::Alias" → operations = []

/-- The operations of a swapped modification mirror exactly what differs between the templates. -/
theorem ofChange_mirrors {deployed generated : Template} (deployedFormed : deployed.WellFormed)
    (generatedFormed : generated.WellFormed) (scope : Scope) {change : ResourceChange}
    (member : change ∈ deployed.resourceChanges generated) (modified : change.kind = .modified)
    {swap : Swap} (swapped : ofChange scope change = .ok (.swap swap)) :
    ∃ old new, deployed.resource? change.logicalId = some old ∧
      generated.resource? change.logicalId = some new ∧ old.type = new.type ∧
      Mirrors scope change.logicalId old new swap.operations := by
  obtain ⟨old, new, modifies⟩ := ResourceChange.modifies_of_mem member modified
  have compares := modifies.compares deployedFormed generatedFormed
  have counts : change.Counts := counts_of_swap swapped
  have ofType : ofModified scope change = .ok (.swap swap) := by
    rw [← ofChange_modified scope modified counts.changed counts.type, swapped]
  refine ⟨old, new, modifies.deployed, modifies.generated,
    modifies.oldType.trans modifies.newType.symm, ?_⟩
  rw [ofModified, ← modifies.newType] at ofType
  constructor
  · intro type
    rw [type] at ofType
    obtain ⟨functionName, steps, named, operations, mirrors⟩ :=
      ofFunction_mirrors compares ofType
    refine ⟨functionName, steps, named, operations, ?_, mirrors⟩
    have noFollower : ¬ change.FollowsFunction := by
      rw [ResourceChange.FollowsFunction, ← modifies.newType, type]
      simp
    cases ofChange_answers counts swapped with
    | follows _ follows => exact absurd follows noFollower
    | applied _ _ _ nonempty => exact nonempty
  · intro type
    rw [type] at ofType
    exact ofProject_mirrors compares ofType
  · intro type
    rw [type] at ofType
    exact ofMachine_mirrors compares counts.changed ofType
  · rintro (type | type)
    · rw [type] at ofType
      cases ofType
      rfl
    · rw [type] at ofType
      cases (ifAllowed_eq_swap ofType).2
      rfl

end Verdict

/-- A function gets its new code and loses its description. Then one new version is published, and
the alias of its first version moves to it. -/
theorem Verdict.ofChange_mirrors_released :
    let deployed := Template.releasing
      [("Code", .obj [("S3Key", .str "old")]), ("Description", .str "old")] []
    let generated := Template.releasing [("Code", .obj [("S3Key", .str "new")])] []
    deployed.WellFormed ∧ generated.WellFormed ∧
      ∃ change ∈ deployed.resourceChanges generated, change.kind = .modified ∧
        ∃ swap old new, ofChange (.ofTemplate generated) change = .ok (.swap swap) ∧
          swap.operations = [
            .updateCode { functionName := "handler", s3Key := some "new" },
            .updateConfiguration { functionName := "handler", description := some "" },
            .publishVersion ⟨"handler", ["live"]⟩] ∧
          Mirrors (.ofTemplate generated) "Handler" old new swap.operations := by
  intro deployed generated
  have deployedFormed : deployed.WellFormed := by
    apply Template.releasing_wellFormed
    simp [Json.WellFormed, Json.WellFormedFields, Entries.Sorted]
  have generatedFormed : generated.WellFormed := by
    apply Template.releasing_wellFormed
    simp [Json.WellFormed, Json.WellFormedFields, Entries.Sorted]
  have changed : ∃ change swap, deployed.resourceChanges generated = [change] ∧
      change.logicalId = "Handler" ∧ change.kind = .modified ∧
      ofChange (.ofTemplate generated) change = .ok (.swap swap) ∧
      swap.operations = [
        .updateCode { functionName := "handler", s3Key := some "new" },
        .updateConfiguration { functionName := "handler", description := some "" },
        .publishVersion ⟨"handler", ["live"]⟩] := ⟨_, _, rfl, rfl, rfl, rfl, rfl⟩
  obtain ⟨change, swap, only, named, modified, swapped, operations⟩ := changed
  have member : change ∈ deployed.resourceChanges generated :=
    only ▸ List.mem_singleton_self change
  obtain ⟨old, new, _, _, _, mirrors⟩ :=
    ofChange_mirrors deployedFormed generatedFormed (.ofTemplate generated) member modified swapped
  exact ⟨deployedFormed, generatedFormed, change, member, modified, swap, old, new, swapped,
    operations, named ▸ mirrors⟩

end StackSwap
