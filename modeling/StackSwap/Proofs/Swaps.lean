import StackSwap.Proofs.Needs

namespace StackSwap

/-- A resource of a type mentions another one in its properties. -/
def Template.Refers (template : Template) (type : String) (source target : String) : Prop :=
  ∃ resource, template.resource? source = some resource ∧ resource.type = type ∧
    ∃ name value, resource.property? name = some value ∧ value.mentions target = true

/-- An alias follows a function: it refers to a version that refers to the function. -/
def Template.AliasFollows (template : Template) (aliasId functionId : String) : Prop :=
  ∃ version, template.Refers "AWS::Lambda::Version" version functionId ∧
    template.Refers "AWS::Lambda::Alias" aliasId version

namespace Verdict

variable {scope : Scope} {change : ResourceChange}

namespace Function

/-! Code -/

/-- The keys of the code property that an update takes. -/
def codeKeys : List String := ["S3Bucket", "S3Key", "S3ObjectVersion", "ImageUri", "ZipFile"]

/-- What becomes of an update that takes one key of the code property. -/
inductive TakesKey (scope : Scope) (runtime : Option Json) (expression : Json)
    (update : CodeUpdate) : String → CodeUpdate → Prop where
  | bucket {text : String} (means : scope.evaluateText expression = .ok text) :
    TakesKey scope runtime expression update "S3Bucket" { update with s3Bucket := some text }
  | object {text : String} (means : scope.evaluateText expression = .ok text) :
    TakesKey scope runtime expression update "S3Key" { update with s3Key := some text }
  | objectVersion {text : String} (means : scope.evaluateText expression = .ok text) :
    TakesKey scope runtime expression update "S3ObjectVersion"
      { update with s3ObjectVersion := some text }
  | image {text : String} (means : scope.evaluateText expression = .ok text) :
    TakesKey scope runtime expression update "ImageUri" { update with imageUri := some text }
  | inline {source : String} {entries : List ArchiveEntry}
    (means : scope.evaluateText expression = .ok source)
    (packed : archive scope runtime source = .ok entries) :
    TakesKey scope runtime expression update "ZipFile" { update with zipFile := some entries }
  | other {key : String} (unknown : key ∉ codeKeys) :
    TakesKey scope runtime expression update key update

theorem addCodeKey_takes {runtime : Option Json} {update later : CodeUpdate} {key : String}
    {expression : Json} (added : addCodeKey scope runtime update key expression = .ok later) :
    TakesKey scope runtime expression update key later := by
  unfold addCodeKey at added
  split at added
  · obtain ⟨text, means, same⟩ := bind_eq_ok_iff.mp added
    cases same
    exact .bucket means
  · obtain ⟨text, means, same⟩ := bind_eq_ok_iff.mp added
    cases same
    exact .object means
  · obtain ⟨text, means, same⟩ := bind_eq_ok_iff.mp added
    cases same
    exact .objectVersion means
  · obtain ⟨text, means, same⟩ := bind_eq_ok_iff.mp added
    cases same
    exact .image means
  · obtain ⟨source, means, packs⟩ := bind_eq_ok_iff.mp added
    obtain ⟨entries, packed, same⟩ := bind_eq_ok_iff.mp packs
    cases same
    exact .inline means packed
  · rename_i bucket object objectVersion image inline
    cases added
    exact .other (by simpa [codeKeys] using ⟨bucket, object, objectVersion, image, inline⟩)

theorem codeUpdate_functionName {functionName : String} {update : CodeUpdate}
    (updated : codeUpdate scope change functionName = .ok update) :
    update.functionName = functionName := by
  refine foldlM_keeps CodeUpdate.functionName ?_ updated
  rintro ⟨key, expression⟩ _ state later added
  cases addCodeKey_takes added <;> rfl

/-! Configuration -/

theorem newValue_eq_ok {α : Type} {changed : List String} {name : String} {cleared : α}
    {step : Json → Evaluated α} {field : Option α}
    (made : newValue change changed name cleared step = .ok field) :
    (field.isSome = true ↔ name ∈ changed) ∧ ∀ found ∈ field, match change.newProperty? name with
      | some expression => step expression = .ok found
      | none => some cleared = some found := by
  unfold newValue at made
  by_cases inChanged : name ∈ changed
  · rw [if_pos (List.contains_iff_mem.mpr inChanged)] at made
    cases given : change.newProperty? name with
    | some expression =>
      rw [given] at made
      cases stands : step expression with
      | error failure =>
        simp only [stands] at made
        cases made
      | ok value =>
        simp only [stands] at made
        cases made
        refine ⟨iff_of_true rfl inChanged, fun found isFound => ?_⟩
        cases isFound
        exact stands
    | none =>
      rw [given] at made
      cases made
      exact ⟨iff_of_true rfl inChanged, fun found isFound => isFound⟩
  · rw [if_neg (fun listed => inChanged (List.contains_iff_mem.mp listed))] at made
    cases made
    exact ⟨iff_of_false (by simp) inChanged, fun found isFound => by cases isFound⟩

theorem configurationUpdate_eq_ok {functionName : String} {changed : List String}
    {update : ConfigurationUpdate}
    (updated : configurationUpdate scope change functionName changed = .ok update) :
    newValue change changed "Description" "" scope.evaluateText = .ok update.description ∧
      newValue change changed "Environment" []
        (fun expression => scope.evaluate expression >>= environmentTexts) =
          .ok update.environment ∧
      update.functionName = functionName := by
  simp only [configurationUpdate_eq, bind_eq_ok_iff] at updated
  obtain ⟨description, newDescription, environment, newEnvironment, same⟩ := updated
  cases same
  exact ⟨newDescription, newEnvironment, rfl⟩

/-- A step that is only taken if something asks for it. -/
theorem optional_eq_ok {α : Type} {needed : Bool} {step : Evaluated α} {wrap : α → Operation}
    {operations : List Operation}
    (made : (if needed then step >>= fun value => pure [wrap value] else pure []) =
      .ok operations) :
    ∃ found : Option α, operations = found.toList.map wrap ∧
      (found.isSome = true ↔ needed = true) ∧ ∀ value ∈ found, step = .ok value := by
  cases needed with
  | false =>
    cases made
    exact ⟨none, rfl, by simp, by simp⟩
  | true =>
    obtain ⟨value, stands, same⟩ := bind_eq_ok_iff.mp made
    cases same
    exact ⟨some value, rfl, by simp, by simpa using stands⟩

theorem updates_eq_ok {functionName : String} {changed : List String} {operations : List Operation}
    (updated : updates scope change functionName changed = .ok operations) :
    ∃ (code : Option CodeUpdate) (configuration : Option ConfigurationUpdate),
      operations = code.toList.map .updateCode ++ configuration.toList.map .updateConfiguration ∧
      (code.isSome = true ↔ "Code" ∈ changed) ∧
      (∀ update ∈ code, codeUpdate scope change functionName = .ok update) ∧
      (configuration.isSome = true ↔ "Description" ∈ changed ∨ "Environment" ∈ changed) ∧
      ∀ update ∈ configuration,
        configurationUpdate scope change functionName changed = .ok update := by
  simp only [updates_eq, bind_eq_ok_iff] at updated
  obtain ⟨first, codeMade, second, configurationMade, same⟩ := updated
  cases same
  obtain ⟨code, rfl, codeNeeded, codeStep⟩ := optional_eq_ok codeMade
  obtain ⟨configuration, rfl, needed, step⟩ := optional_eq_ok configurationMade
  exact ⟨code, configuration, rfl, by simpa using codeNeeded, codeStep, by simpa using needed, step⟩

/-! Versions and aliases -/

theorem mem_resourcesMentioning_iff {template : Template} {target : String}
    {entry : String × Resource} :
    entry ∈ template.resourcesMentioning target ↔
      template.resource? entry.1 = some entry.2 ∧
        ∃ name value, entry.2.property? name = some value ∧ value.mentions target = true := by
  have found : entry ∈ template.resources.entries ↔ template.resource? entry.1 = some entry.2 :=
    template.resources.sorted.find?_eq_some_iff.symm
  have property (name : String) (value : Json) :
      (name, value) ∈ entry.2.properties.entries ↔ entry.2.property? name = some value :=
    entry.2.properties.sorted.find?_eq_some_iff.symm
  simp only [Template.resourcesMentioning, List.mem_filter, found, Table.values, Entries.values,
    List.any_map, List.any_eq_true, Function.comp_apply, Prod.exists, property]

theorem refers_iff {template : Template} (kind : ResourceKind) {type source target : String}
    (known : kind.typeName? = some type) :
    template.Refers type source target ↔
      ∃ resource, (source, resource) ∈ (template.resourcesMentioning target).filter
        (fun entry => entry.2.kind == kind) := by
  have sameKind (resource : Resource) : resource.kind = kind ↔ resource.type = type := by
    constructor
    · exact fun same => ResourceKind.type_eq same known
    · intro same
      cases kind <;> cases known <;> rw [Resource.kind, same] <;> rfl
  simp only [Template.Refers, List.mem_filter, mem_resourcesMentioning_iff, beq_iff_eq, sameKind,
    and_right_comm, and_assoc]

theorem mem_versionsOf_iff {template : Template} {version logicalId : String} :
    version ∈ versionsOf template logicalId ↔
      template.Refers "AWS::Lambda::Version" version logicalId := by
  rw [refers_iff .version rfl]
  simp [versionsOf]

theorem mem_aliasesOf_iff {template : Template} {aliasId version : String} :
    (∃ resource, (aliasId, resource) ∈ aliasesOf template version) ↔
      template.Refers "AWS::Lambda::Alias" aliasId version :=
  (refers_iff .aliasOfFunction rfl).symm

theorem publication_eq_ok {logicalId functionName : String} {names : List String}
    {operations : List Operation}
    (made : publication scope logicalId functionName = .ok (names, operations)) :
    ∃ publish : Option VersionPublish, operations = publish.toList.map .publishVersion ∧
      (publish.isSome = true ↔ ∃ version, version ∈ versionsOf scope.template logicalId) ∧
      ∀ request ∈ publish, request.functionName = functionName ∧
        aliasNames scope (versionsOf scope.template logicalId) = .ok request.aliases ∧
        names = ("Lambda Version for Function '" ++ functionName ++ "'") ::
          request.aliases.map (fun name =>
            "Lambda Alias '" ++ name ++ "' for Function '" ++ functionName ++ "'") := by
  by_cases noVersion : versionsOf scope.template logicalId = []
  · simp only [publication, noVersion, List.isEmpty_nil, ↓reduceIte] at made
    cases made
    exact ⟨none, rfl, by simp [noVersion], by simp⟩
  · have nonempty := List.isEmpty_eq_false_iff.mpr noVersion
    simp only [publication, nonempty, Bool.false_eq_true, ↓reduceIte, bind_eq_ok_iff] at made
    obtain ⟨aliases, named, same⟩ := made
    cases same
    exact ⟨some ⟨functionName, aliases⟩, rfl, by simpa using List.exists_mem_of_ne_nil _ noVersion,
      by simpa using named⟩

theorem aliasName_eq_ok_iff {logicalId name : String} {resource : Resource} :
    aliasName scope logicalId resource = .ok name ↔
      ∃ expression, resource.property? "Name" = some expression ∧
        scope.evaluateText expression = .ok name := by
  unfold aliasName
  cases resource.property? "Name" with
  | none => simp [Intrinsic.orRefuse, Intrinsic.refuse, bind, Except.bind]
  | some expression => simp [Intrinsic.orRefuse, bind, Except.bind]

/-- The versions of a function with the aliases that refer to them, in the order in which a
publication comes across them. -/
def followers (template : Template) (logicalId : String) : List (String × String) :=
  (versionsOf template logicalId).flatMap
    (fun version => (aliasesOf template version).keys.map (version, ·))

theorem mem_followers_iff {template : Template} {logicalId version aliasId : String} :
    (version, aliasId) ∈ followers template logicalId ↔
      template.Refers "AWS::Lambda::Version" version logicalId ∧
        template.Refers "AWS::Lambda::Alias" aliasId version := by
  simp [followers, mem_versionsOf_iff, ← mem_aliasesOf_iff, Entries.keys]

theorem aliasNames_eq_ok {logicalId : String} {names : List String}
    (named : aliasNames scope (versionsOf scope.template logicalId) = .ok names) :
    List.Forall₂ (fun follower name => ∃ expression,
        scope.template.property? follower.2 "Name" = some expression ∧
          scope.evaluateText expression = .ok name)
      (followers scope.template logicalId) names := by
  have sameAliases : (followers scope.template logicalId).map Prod.snd =
      Entries.keys ((versionsOf scope.template logicalId).flatMap (aliasesOf scope.template)) := by
    simp [followers, Entries.keys, List.map_flatMap, Function.comp_def]
  have known : ∀ entry ∈ (versionsOf scope.template logicalId).flatMap (aliasesOf scope.template),
      scope.template.resource? entry.1 = some entry.2 := by
    intro entry member
    obtain ⟨version, _, follows⟩ := List.mem_flatMap.mp member
    exact (mem_resourcesMentioning_iff.mp (List.mem_filter.mp follows).1).1
  have byAlias : List.Forall₂ (fun aliasId name => ∃ expression,
      scope.template.property? aliasId "Name" = some expression ∧
        scope.evaluateText expression = .ok name)
      ((followers scope.template logicalId).map Prod.snd) names := by
    rw [sameAliases, Entries.keys, List.forall₂_map_left_iff]
    refine ((List.forall₂_and_left _ _).mpr ⟨known, mapM_eq_ok_iff.mp named⟩).imp ?_
    rintro entry name ⟨found, isName⟩
    obtain ⟨expression, given, stands⟩ := aliasName_eq_ok_iff.mp isName
    exact ⟨expression, by simp [Template.property?, found, given], stands⟩
  exact List.forall₂_map_left_iff.mp byAlias

theorem mem_aliasNames_iff {logicalId : String} {names : List String}
    (named : aliasNames scope (versionsOf scope.template logicalId) = .ok names) {name : String} :
    name ∈ names ↔ ∃ aliasId expression, scope.template.AliasFollows aliasId logicalId ∧
      scope.template.property? aliasId "Name" = some expression ∧
      scope.evaluateText expression = .ok name := by
  have related := aliasNames_eq_ok named
  constructor
  · intro member
    obtain ⟨⟨version, aliasId⟩, inFollowers, expression, given, stands⟩ :=
      exists_of_mem_right related member
    exact ⟨aliasId, expression, ⟨version, mem_followers_iff.mp inFollowers⟩, given, stands⟩
  · rintro ⟨aliasId, expression, ⟨version, follows⟩, given, stands⟩
    obtain ⟨other, inNames, _, given', isOther⟩ :=
      exists_of_mem_left related (mem_followers_iff.mpr follows)
    cases given.symm.trans given'
    cases stands.symm.trans isOther
    exact inNames

end Function

/-- A verdict that begins with the list of a type is only a swap if all changed properties are on
the list. -/
theorem ifAllowed_eq_swap {allowed : List String} {proceed : List String → Evaluated Verdict}
    {swap : Swap} (swapped : ifAllowed change allowed proceed = .ok (.swap swap)) :
    (∀ name ∈ change.changedProperties, name ∈ allowed) ∧
      proceed change.changedProperties = .ok (.swap swap) := by
  rcases ifAllowed_eq_ok swapped with ⟨_, blocked⟩ | proceeds
  · cases blocked
  · exact proceeds

/-- The swap of a function is made of its updates and of the publication after them. -/
theorem ofFunction_eq_swap {swap : Swap} (swapped : ofFunction scope change = .ok (.swap swap)) :
    ∃ functionName operations names publication,
      scope.physicalName change.logicalId (change.newProperty? "FunctionName") =
        .ok (some functionName) ∧
      Function.updates scope change functionName change.changedProperties = .ok operations ∧
      Function.publication scope change.logicalId functionName = .ok (names, publication) ∧
      swap.operations = operations ++ publication ∧
      swap.resourceNames = Function.label functionName :: names := by
  obtain ⟨_, swapped⟩ := ifAllowed_eq_swap swapped
  obtain ⟨found, named, swapped⟩ := bind_eq_ok_iff.mp swapped
  cases found with
  | none => cases swapped
  | some functionName =>
    simp only [bind_eq_ok_iff] at swapped
    obtain ⟨operations, updated, ⟨names, publication⟩, published, same⟩ := swapped
    cases same
    exact ⟨functionName, operations, names, publication, named, updated, published, rfl, rfl⟩

namespace Project

/-- What becomes of an update that takes a changed property. -/
inductive TakesProperty (scope : Scope) (change : ResourceChange) (update : ProjectUpdate) :
    String → ProjectUpdate → Prop where
  | source {expression value : Json} (given : change.newProperty? "Source" = some expression)
    (means : scope.evaluate expression = .ok value) :
    TakesProperty scope change update "Source"
      { update with source := some (value.renameKeys sourceKey) }
  | environment {expression value : Json}
    (given : change.newProperty? "Environment" = some expression)
    (means : scope.evaluate expression = .ok value) :
    TakesProperty scope change update "Environment"
      { update with environment := some (value.renameKeys smallFirst) }
  | sourceVersion {expression : Json} {text : String}
    (given : change.newProperty? "SourceVersion" = some expression)
    (means : scope.evaluateText expression = .ok text) :
    TakesProperty scope change update "SourceVersion" { update with sourceVersion := some text }

theorem addProperty_takes {update later : ProjectUpdate} {property : String}
    (listed : property ∈ allowed) (kept : change.newProperty? property ≠ none)
    (added : addProperty scope change update property = .ok later) :
    TakesProperty scope change update property later := by
  obtain ⟨expression, given⟩ := Option.ne_none_iff_exists'.mp kept
  simp only [allowed, List.mem_cons, List.not_mem_nil, or_false] at listed
  rcases listed with rfl | rfl | rfl
  · simp only [addProperty, given] at added
    obtain ⟨value, means, same⟩ := bind_eq_ok_iff.mp added
    cases same
    exact .source given means
  · simp only [addProperty, given] at added
    obtain ⟨value, means, same⟩ := bind_eq_ok_iff.mp added
    cases same
    exact .environment given means
  · simp only [addProperty, given] at added
    obtain ⟨text, means, same⟩ := bind_eq_ok_iff.mp added
    cases same
    exact .sourceVersion given means

end Project

/-- The swap of a project is made of the changed properties, none of which was removed. -/
theorem ofProject_eq_swap {swap : Swap} (swapped : ofProject scope change = .ok (.swap swap)) :
    (∀ property ∈ change.changedProperties, property ∈ Project.allowed) ∧
      (∀ property ∈ change.changedProperties, change.newProperty? property ≠ none) ∧
      ∃ name update,
        scope.physicalName change.logicalId (change.newProperty? "Name") = .ok (some name) ∧
        change.changedProperties.foldlM (Project.addProperty scope change) { name } = .ok update ∧
        swap.operations = [.updateProject update] := by
  obtain ⟨listed, swapped⟩ := ifAllowed_eq_swap swapped
  dsimp only at swapped
  split at swapped
  · cases swapped
  · rename_i noneRemoved
    obtain ⟨found, named, swapped⟩ := bind_eq_ok_iff.mp swapped
    cases found with
    | none => cases swapped
    | some name =>
      obtain ⟨update, folded, same⟩ := bind_eq_ok_iff.mp swapped
      cases same
      refine ⟨listed, ?_, name, update, named, folded, rfl⟩
      simpa [Option.isNone_iff_eq_none] using noneRemoved

/-- The swap of a state machine is made of its new definition. -/
theorem ofMachine_eq_swap {swap : Swap} (swapped : ofMachine scope change = .ok (.swap swap)) :
    (∀ name ∈ change.changedProperties, name = "DefinitionString") ∧
      ∃ expression arn definition, change.newProperty? "DefinitionString" = some expression ∧
        scope.physicalName change.logicalId
          ((change.newProperty? "StateMachineName").map Machine.arnExpression) = .ok (some arn) ∧
        scope.evaluate expression = .ok definition ∧
        swap.operations = [.updateMachine ⟨arn, Machine.definitionText definition⟩] := by
  obtain ⟨listed, swapped⟩ := ifAllowed_eq_swap swapped
  split at swapped
  · cases swapped
  · rename_i expression given
    obtain ⟨found, named, swapped⟩ := bind_eq_ok_iff.mp swapped
    cases found with
    | none => cases swapped
    | some arn =>
      obtain ⟨definition, means, same⟩ := bind_eq_ok_iff.mp swapped
      cases same
      exact ⟨by simpa using listed, expression, arn, definition, given, named, means, rfl⟩

theorem counts_of_swap {swap : Swap} (swapped : ofChange scope change = .ok (.swap swap)) :
    change.Counts := by
  unfold ofChange at swapped
  split at swapped
  · cases swapped
  · rename_i type
    split at swapped
    · cases swapped
    · cases swapped
    · rename_i modified
      split at swapped
      · rename_i changed
        exact ⟨modified, changed, type⟩
      · cases swapped

/-- Operations on functions are those of a swapped function. -/
theorem ofFunction_of_lambda {swap : Swap} {operation : Operation}
    (swapped : ofChange scope change = .ok (.swap swap)) (member : operation ∈ swap.operations)
    (onFunction : operation.service = .lambda) : ofFunction scope change = .ok (.swap swap) := by
  have counts := counts_of_swap swapped
  rw [ofChange_modified scope counts.modified counts.changed counts.type, ofModified] at swapped
  split at swapped
  · exact swapped
  · cases swapped
    cases member
  · cases (ifAllowed_eq_swap swapped).2
    cases member
  · obtain ⟨_, _, _, _, _, _, operations⟩ := ofProject_eq_swap swapped
    rw [operations] at member
    cases List.mem_singleton.mp member
    cases onFunction
  · obtain ⟨_, _, _, _, _, _, _, operations⟩ := ofMachine_eq_swap swapped
    rw [operations] at member
    cases List.mem_singleton.mp member
    cases onFunction
  all_goals cases swapped

end Verdict

namespace Template

/-- A function with some properties and two versions, and an alias of the first version with more
properties of its own. -/
def releasing (properties routing : List (String × Json)) : Template :=
  ofResources [
    ("Handler", "AWS::Lambda::Function", ("FunctionName", .str "handler") :: properties),
    ("First", "AWS::Lambda::Version", [("FunctionName", .obj [("Ref", .str "Handler")])]),
    ("Second", "AWS::Lambda::Version", [("FunctionName", .obj [("Ref", .str "Handler")])]),
    ("Live", "AWS::Lambda::Alias",
      [("FunctionVersion", .obj [("Fn::GetAtt", .str "First.Version")]), ("Name", .str "live")] ++
        routing)]

theorem releasing_wellFormed {properties routing : List (String × Json)}
    (formed : ∀ property ∈ properties ++ routing, property.2.WellFormed) :
    (releasing properties routing).WellFormed := by
  apply wellFormed_ofResources
  have handler : (Json.obj [("Ref", .str "Handler")]).WellFormed := by
    simp [Json.WellFormed, Json.WellFormedFields, Entries.Sorted]
  have first : (Json.obj [("Fn::GetAtt", .str "First.Version")]).WellFormed := by
    simp [Json.WellFormed, Json.WellFormedFields, Entries.Sorted]
  have text (value : String) : (Json.str value).WellFormed := trivial
  obtain ⟨ofProperties, ofRouting⟩ := List.forall_mem_append.mp formed
  simp only [List.forall_mem_cons, List.forall_mem_append, List.not_mem_nil, IsEmpty.forall_iff,
    implies_true, and_true, true_and, handler, first, text]
  exact ⟨ofProperties, ofRouting⟩

end Template

/-- The scope of a stack with a template, nothing of which is listed as deployed. -/
def Scope.ofTemplate (template : Template) : Scope where
  stack := {
    name := some "outer"
    deployed := {}
    generated := template
    listing := .empty
    nested := [] }
  parameters := .empty
  environment := .inPartition "123456789012" "eu-west-1" "aws"
  exports := .empty

end StackSwap
