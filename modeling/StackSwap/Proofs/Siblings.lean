import StackSwap.Proofs.Accounted
import StackSwap.Proofs.Agreement
import StackSwap.Proofs.Termination

/-! Evaluation never looks at the properties of a resource, unless it is a nested stack and passes
parameters to it. So they change the verdict on the resource itself and no other entry. -/

namespace StackSwap

universe u

namespace Entries

variable {α : Type u} {change : α → α} {key : String}

/-- The entries with the value of one key changed. -/
def edit (entries : Entries α) (key : String) (change : α → α) : Entries α :=
  entries.map (fun entry => (entry.1, if entry.1 = key then change entry.2 else entry.2))

@[simp] theorem keys_edit (entries : Entries α) : (entries.edit key change).keys = entries.keys := by
  simp [keys, edit]

theorem find?_edit_ne {other : String} (different : other ≠ key) (entries : Entries α) :
    (entries.edit key change).find? other = entries.find? other := by
  induction entries with
  | nil => rfl
  | cons head rest ih =>
    obtain ⟨name, value⟩ := head
    by_cases here : name = other
    · have unchanged : name ≠ key := here ▸ different
      simp [edit, find?, here, different]
    · simpa [edit, find?, here] using ih

theorem find?_edit_self {value : α} {entries : Entries α} (found : entries.find? key = some value) :
    (entries.edit key change).find? key = some (change value) := by
  induction entries with
  | nil => cases found
  | cons head rest ih =>
    obtain ⟨name, own⟩ := head
    by_cases here : name = key
    · subst here
      have same : own = value := by simpa [find?] using found
      simp [edit, find?, same]
    · have later : find? rest key = some value := by simpa [find?, here] using found
      simpa [edit, find?, here] using ih later

theorem filter_edit {keep : String × α → Bool} {entries : Entries α}
    (passed : ∀ entry ∈ entries, entry.1 = key →
      keep entry = false ∧ keep (entry.1, change entry.2) = false) :
    (entries.edit key change).filter keep = entries.filter keep := by
  induction entries with
  | nil => rfl
  | cons head rest ih =>
    have later := ih (fun entry member => passed entry (List.mem_cons_of_mem _ member))
    have here := passed head (List.mem_cons_self ..)
    obtain ⟨name, value⟩ := head
    by_cases same : name = key
    · obtain ⟨before, after⟩ := here same
      simp only [edit, List.map_cons, if_pos same, List.filter_cons, before, after,
        Bool.false_eq_true, ↓reduceIte]
      exact later
    · simp only [edit, List.map_cons, if_neg same, List.filter_cons] at later ⊢
      rw [later]

end Entries

/-- The table with the value of one key changed. -/
def Table.edit {α : Type u} (table : Table α) (key : String) (change : α → α) : Table α :=
  ⟨table.entries.edit key change, List.pairwise_map.mpr table.sorted⟩

/-- The resource with other properties. -/
def Resource.withProperties (resource : Resource) (properties : Table Json) : Resource :=
  { resource with properties }

/-- The template with other properties of one resource. -/
def Template.withProperties (template : Template) (logicalId : String) (properties : Table Json) :
    Template :=
  { template with
    resources := template.resources.edit logicalId (·.withProperties properties) }

namespace Template

variable {template : Template} {logicalId : String} {properties : Table Json}

theorem resource?_withProperties_ne {other : String} (different : other ≠ logicalId) :
    (template.withProperties logicalId properties).resource? other = template.resource? other := by
  have same : (template.resources.entries.edit logicalId (·.withProperties properties)).find? other =
      template.resources.entries.find? other := Entries.find?_edit_ne different _
  exact same

theorem property?_withProperties_ne {other name : String} (different : other ≠ logicalId) :
    (template.withProperties logicalId properties).property? other name =
      template.property? other name := by
  rw [property?, resource?_withProperties_ne different]
  rfl

theorem resource?_withProperties_self {resource : Resource}
    (found : template.resource? logicalId = some resource) :
    (template.withProperties logicalId properties).resource? logicalId =
      some (resource.withProperties properties) := by
  have same : (template.resources.entries.edit logicalId (·.withProperties properties)).find?
      logicalId = some (resource.withProperties properties) := Entries.find?_edit_self found
  exact same

theorem filter_withProperties {resource : Resource}
    (found : template.resource? logicalId = some resource) {keep : String × Resource → Bool}
    (passed : ∀ properties, keep (logicalId, resource.withProperties properties) = false) :
    (template.withProperties logicalId properties).resources.entries.filter keep =
      template.resources.entries.filter keep := by
  have edited : (template.withProperties logicalId properties).resources.entries =
      template.resources.entries.edit logicalId (·.withProperties properties) := rfl
  rw [edited]
  apply Entries.filter_edit
  rintro ⟨name, value⟩ member same
  cases same
  have only : template.resource? name = some value :=
    template.resources.sorted.find?_eq_some_iff.mpr member
  rw [found] at only
  cases only
  exact ⟨passed resource.properties, passed properties⟩

end Template

namespace Scope

/-- The scope with other properties of one resource of the generated template. -/
def withProperties (scope : Scope) (logicalId : String) (properties : Table Json) : Scope :=
  { scope with
    stack := { scope.stack with
      generated := scope.stack.generated.withProperties logicalId properties } }

/-- The level has a nested stack for a resource, under its logical ID and with its type. -/
def HasNested (scope : Scope) (logicalId : String) : Prop :=
  ∃ resource stack, scope.listing.find? logicalId = some resource ∧
    ResourceKind.ofType resource.type = .nestedStack ∧ scope.stack.nested? logicalId = some stack

variable {scope : Scope} {logicalId : String} {properties : Table Json}

theorem hasNested_of_meaning {name outputName : String} {stack : Stack}
    (leads : scope.meaning logicalId name = .inner stack outputName) : scope.HasNested logicalId := by
  have loaded := meaning_eq_inner leads
  unfold meaning at leads
  split at leads
  · split at leads <;> cases leads
  · split at leads
    · cases leads
    · rename_i resource found
      split at leads
      · rename_i isNested
        exact ⟨resource, stack, found, isNested, loaded⟩
      · cases leads

/-- Attributes do not depend on the properties of a resource without a nested stack. -/
theorem attributeOf_withProperties (single : ¬ scope.HasNested logicalId) (budget : Nat) :
    attributeOf budget (scope.withProperties logicalId properties) = attributeOf budget scope := by
  induction budget with
  | zero => rfl
  | succ budget ih =>
    have sameResolver : (scope.withProperties logicalId properties).resolverWithin budget =
        scope.resolverWithin budget := by
      simp only [resolverWithin, ih]
      rfl
    funext other name
    have sameMeaning : (scope.withProperties logicalId properties).meaning other name =
        scope.meaning other name := rfl
    apply attributeOf_succ_congr sameMeaning
    · intro expression _
      simp only [evaluateWithin, sameResolver]
    · intro stack outputName leads
      refine ⟨?_, fun _ => rfl⟩
      have different : other ≠ logicalId := by
        rintro rfl
        exact single (hasNested_of_meaning leads)
      have sameProperty : (scope.withProperties logicalId properties).template.property? other
          "Parameters" = scope.template.property? other "Parameters" :=
        Template.property?_withProperties_ne different
      apply nestedParameters_congr sameProperty
      intro expression _
      rw [sameResolver]

theorem resolver_withProperties (single : ¬ scope.HasNested logicalId) :
    (scope.withProperties logicalId properties).resolver = scope.resolver := by
  have sameBudget : (scope.withProperties logicalId properties).stack.referenceBudget =
      scope.stack.referenceBudget := by
    rw [Stack.referenceBudget_eq, Stack.referenceBudget_eq]
    rfl
  simp only [resolver, sameBudget, attributeOf_withProperties single]
  rfl

end Scope

namespace Template

variable {deployed generated : Template} {logicalId : String}

theorem modified_of_mem_resourceChangesAt {old new : Resource} {change : ResourceChange}
    (inDeployed : deployed.resource? logicalId = some old)
    (inGenerated : generated.resource? logicalId = some new) (sameType : old.type = new.type)
    (member : change ∈ deployed.resourceChangesAt generated logicalId) :
    change.kind = .modified ∧ change.type = new.type := by
  simp only [resourceChangesAt, inDeployed, inGenerated, sameType, ↓reduceIte] at member
  have made := ResourceChange.modified?_eq_some (Option.mem_toList.mp member)
  rw [made]
  exact ⟨rfl, rfl⟩

end Template

namespace Stack

/-- Both templates have a resource with one type, and other resources do not follow it: it is no
nested stack, no version and no alias. -/
structure Retains (stack : Stack) (logicalId : String) (old new : Resource) : Prop where
  deployed : stack.deployed.resource? logicalId = some old
  generated : stack.generated.resource? logicalId = some new
  sameType : old.type = new.type
  noNested : new.kind ≠ .nestedStack
  noVersion : new.kind ≠ .version
  noAlias : new.kind ≠ .aliasOfFunction

/-- Whether a change is that of another resource. -/
def isOther (logicalId : String) (change : ResourceChange) : Bool := change.logicalId ≠ logicalId

namespace Retains

variable {stack : Stack} {logicalId : String} {old new : Resource}

theorem of_mem_resourceChanges (retains : stack.Retains logicalId old new) {change : ResourceChange}
    (member : change ∈ stack.deployed.resourceChanges stack.generated)
    (own : isOther logicalId change = false) :
    change.kind = .modified ∧ ResourceKind.ofType change.type = new.kind := by
  obtain ⟨name, _, inName⟩ := List.mem_flatMap.mp member
  have named := Template.logicalId_of_mem_resourceChangesAt inName
  have same : name = logicalId := by
    rw [← named]
    simpa [isOther] using own
  subst same
  obtain ⟨modified, type⟩ := Template.modified_of_mem_resourceChangesAt retains.deployed
    retains.generated retains.sameType inName
  exact ⟨modified, by rw [type, Resource.kind]⟩

/-- The changes of all other resources, also of renamed ones, are apart from that of the resource. -/
theorem changes_filter (retains : stack.Retains logicalId old new) :
    stack.changes.filter (isOther logicalId) =
      ResourceChange.withoutRenames
        ((stack.deployed.resourceChanges stack.generated).filter (isOther logicalId)) := by
  apply ResourceChange.filter_withoutRenames
  intro change member own
  exact (retains.of_mem_resourceChanges member own).1

end Retains

end Stack

namespace Scope

variable {scope : Scope} {logicalId : String} {properties : Table Json} {old new : Resource}

theorem retains_withProperties (retains : scope.stack.Retains logicalId old new) :
    (scope.withProperties logicalId properties).stack.Retains logicalId old
      (new.withProperties properties) :=
  ⟨retains.deployed, Template.resource?_withProperties_self retains.generated, retains.sameType,
    retains.noNested, retains.noVersion, retains.noAlias⟩

theorem resourceChanges_withProperties (deployed generated : Template) :
    (deployed.resourceChanges (generated.withProperties logicalId properties)).filter
        (Stack.isOther logicalId) =
      (deployed.resourceChanges generated).filter (Stack.isOther logicalId) := by
  have sameKeys : Table.keysOfBoth deployed.resources
        (generated.withProperties logicalId properties).resources =
      Table.keysOfBoth deployed.resources generated.resources := by
    simp only [Table.keysOfBoth, Template.withProperties, Table.edit, Table.keys, Entries.keys_edit]
  simp only [Template.resourceChanges, sameKeys, List.filter_flatMap]
  congr 1
  funext name
  by_cases own : name = logicalId
  · have noneLeft (generated : Template) :
        (deployed.resourceChangesAt generated name).filter (Stack.isOther logicalId) = [] := by
      apply List.filter_eq_nil_iff.mpr
      intro change member
      have named := Template.logicalId_of_mem_resourceChangesAt member
      simp [Stack.isOther, named, own]
    rw [noneLeft, noneLeft]
  · rw [Template.resourceChangesAt, Template.resource?_withProperties_ne own]
    rfl

theorem changes_withProperties (retains : scope.stack.Retains logicalId old new) :
    (scope.withProperties logicalId properties).stack.changes.filter (Stack.isOther logicalId) =
      scope.stack.changes.filter (Stack.isOther logicalId) := by
  have edited : (scope.withProperties logicalId properties).stack.Retains logicalId old
      (new.withProperties properties) := retains_withProperties retains
  rw [edited.changes_filter, retains.changes_filter]
  exact congrArg _ (resourceChanges_withProperties scope.stack.deployed scope.stack.generated)

end Scope

namespace Assessment

/-- The assessment without the entries under one logical ID. -/
def without (logicalId : String) (assessment : Assessment) : Assessment :=
  ⟨assessment.swaps.filter (fun swap => swap.logicalId ≠ logicalId),
    assessment.blockers.filter (fun blocker => blocker.logicalId ≠ logicalId)⟩

theorem edits_without (logicalId : String) : Edits (without logicalId) :=
  ⟨rfl, fun _ _ => eq_of_lists (List.filter_append ..) (List.filter_append ..)⟩

/-- All entries are under one logical ID. -/
structure IsUnder (logicalId : String) (assessment : Assessment) : Prop where
  swaps : ∀ swap ∈ assessment.swaps, swap.logicalId = logicalId
  blockers : ∀ blocker ∈ assessment.blockers, blocker.logicalId = logicalId

variable {logicalId : String} {assessment : Assessment}

theorem IsUnder.without_self (under : assessment.IsUnder logicalId) :
    assessment.without logicalId = {} := by
  apply eq_of_lists
  · apply List.filter_eq_nil_iff.mpr
    intro swap member
    simp [under.swaps swap member]
  · apply List.filter_eq_nil_iff.mpr
    intro blocker member
    simp [under.blockers blocker member]

theorem IsUnder.without_other (under : assessment.IsUnder logicalId) {other : String}
    (different : logicalId ≠ other) : assessment.without other = assessment := by
  apply eq_of_lists
  · apply List.filter_eq_self.mpr
    intro swap member
    simp [under.swaps swap member, different]
  · apply List.filter_eq_self.mpr
    intro blocker member
    simp [under.blockers blocker member, different]

theorem isUnder_unchanged (logicalId : String) : (ofVerdict .unchanged).IsUnder logicalId :=
  ⟨nofun, nofun⟩

theorem isUnder_blocked {blocker : Blocker} (same : blocker.logicalId = logicalId) :
    (ofVerdict (.blocked blocker)).IsUnder logicalId :=
  ⟨nofun, by simpa [ofVerdict] using same⟩

theorem isUnder_swap {swap : Swap} (same : swap.logicalId = logicalId) :
    (ofVerdict (.swap swap)).IsUnder logicalId :=
  ⟨by simpa [ofVerdict] using same, nofun⟩

end Assessment

/-- The entry of a verdict is under the logical ID of the resource. -/
theorem Verdict.isUnder_ofChange {scope : Scope} {change : ResourceChange} {verdict : Verdict}
    (answered : ofChange scope change = .ok verdict) :
    (Assessment.ofVerdict verdict).IsUnder change.logicalId := by
  by_cases toolkit : ResourceKind.ofType change.type = .toolkitMetadata
  · rw [ofChange, if_pos toolkit] at answered
    cases answered
    exact Assessment.isUnder_unchanged _
  · cases kind : change.kind with
    | added =>
      simp only [ofChange, toolkit, kind, ↓reduceIte] at answered
      cases answered
      exact Assessment.isUnder_blocked rfl
    | removed =>
      simp only [ofChange, toolkit, kind, ↓reduceIte] at answered
      cases answered
      exact Assessment.isUnder_blocked rfl
    | modified =>
      cases changed : change.hasPropertyChanges with
      | false =>
        simp only [ofChange, toolkit, kind, changed, Bool.false_eq_true, ↓reduceIte] at answered
        cases answered
        exact Assessment.isUnder_unchanged _
      | true =>
        cases ofChange_answers ⟨kind, changed, toolkit⟩ answered with
        | blocked reason rejected => exact Assessment.isUnder_blocked rfl
        | follows service follows => exact Assessment.isUnder_swap rfl
        | applied swap logicalId type operations => exact Assessment.isUnder_swap logicalId

namespace Scope

variable {scope : Scope} {logicalId : String} {properties : Table Json} {old new : Resource}

theorem mentioning_withProperties {template : Template}
    (found : template.resource? logicalId = some new) {kind : ResourceKind}
    (other : new.kind ≠ kind) (target : String) :
    ((template.withProperties logicalId properties).resourcesMentioning target).filter
        (fun entry => entry.2.kind == kind) =
      (template.resourcesMentioning target).filter (fun entry => entry.2.kind == kind) := by
  simp only [Template.resourcesMentioning, List.filter_filter]
  apply Template.filter_withProperties found
  intro properties
  have differs : ((new.withProperties properties).kind == kind) = false := beq_false_of_ne other
  rw [differs, Bool.false_and]

/-- The verdict on a change is the same for other properties of a resource that nothing follows. -/
theorem ofChange_withProperties (single : ¬ scope.HasNested logicalId)
    (retains : scope.stack.Retains logicalId old new) (change : ResourceChange) :
    Verdict.ofChange (scope.withProperties logicalId properties) change =
      Verdict.ofChange scope change := by
  have agree : (scope.withProperties logicalId properties).AgreeOn (fun _ => True) scope :=
    .all (resolver_withProperties single) rfl
  apply Verdict.ofChange_congr_of_all agree
  · exact congrArg (List.map Prod.fst)
      (mentioning_withProperties retains.generated retains.noVersion change.logicalId)
  · funext version
    exact mentioning_withProperties retains.generated retains.noAlias version

theorem isOther_of_isModifiedNestedStack (retains : scope.stack.Retains logicalId old new)
    {change : ResourceChange} (member : change ∈ scope.stack.changes)
    (nested : Stack.isModifiedNestedStack change = true) : Stack.isOther logicalId change = true := by
  by_contra own
  have inAll := ResourceChange.mem_of_withoutRenames member
  obtain ⟨_, kind⟩ := retains.of_mem_resourceChanges inAll (Bool.eq_false_iff.mpr own)
  simp only [Stack.isModifiedNestedStack, kind, Bool.and_eq_true, beq_iff_eq] at nested
  exact retains.noNested nested.2

theorem modifiedNested_withProperties (retains : scope.stack.Retains logicalId old new) :
    (scope.withProperties logicalId properties).modifiedNested = scope.modifiedNested := by
  have among (scope : Scope) {new : Resource} (retains : scope.stack.Retains logicalId old new) :
      scope.stack.changes.filter Stack.isModifiedNestedStack =
        (scope.stack.changes.filter (Stack.isOther logicalId)).filter
          Stack.isModifiedNestedStack := by
    rw [List.filter_filter]
    apply List.filter_congr
    intro change member
    cases nested : Stack.isModifiedNestedStack change with
    | false => rfl
    | true => rw [isOther_of_isModifiedNestedStack retains member nested]; rfl
  have edited : (scope.withProperties logicalId properties).stack.Retains logicalId old
      (new.withProperties properties) := retains_withProperties retains
  rw [modifiedNested, modifiedNested, among _ edited, among scope retains,
    changes_withProperties retains]

theorem nestedInBoth_withProperties (retains : scope.stack.Retains logicalId old new) :
    (scope.withProperties logicalId properties).stack.nestedInBoth = scope.stack.nestedInBoth := by
  unfold Stack.nestedInBoth
  congr 1
  apply Template.filter_withProperties retains.generated
  intro properties
  have differs : (new.withProperties properties).isNestedStack = false :=
    beq_false_of_ne retains.noNested
  simp only [differs, Bool.false_and]

theorem ne_of_mem_nestedInBoth (retains : scope.stack.Retains logicalId old new) {other : String}
    (both : other ∈ scope.stack.nestedInBoth) : other ≠ logicalId := by
  rintro rfl
  obtain ⟨⟨name, resource⟩, member, rfl⟩ := List.mem_map.mp both
  obtain ⟨inGenerated, nested⟩ := List.mem_filter.mp member
  have found : scope.stack.generated.resource? name = some resource :=
    scope.stack.generated.resources.sorted.find?_eq_some_iff.mpr inGenerated
  rw [retains.generated] at found
  cases found
  have kind : new.kind = .nestedStack := by
    simpa [Resource.isNestedStack] using (Bool.and_eq_true_iff.mp nested).1
  exact retains.noNested kind

theorem assessNested_withProperties (single : ¬ scope.HasNested logicalId)
    (retains : scope.stack.Retains logicalId old new) {other : String} (different : other ≠ logicalId) :
    (scope.withProperties logicalId properties).assessNested other = scope.assessNested other := by
  have sameProperty : (scope.withProperties logicalId properties).template.property? other
      "Parameters" = scope.template.property? other "Parameters" :=
    Template.property?_withProperties_ne different
  have sameParameters : (scope.withProperties logicalId properties).nestedParameters
        (scope.withProperties logicalId properties).resolver other =
      scope.nestedParameters scope.resolver other := by
    apply nestedParameters_congr sameProperty
    intro expression _
    rw [resolver_withProperties single]
  have sameNested : (scope.withProperties logicalId properties).nested? other =
      scope.nested? other := nested?_congr rfl sameParameters rfl
  have sameChild : (scope.withProperties logicalId properties).assessChild = scope.assessChild := rfl
  rw [assessNested, assessNested, modifiedNested_withProperties retains, sameChild,
    Stack.assessNested, Stack.assessNested, sameNested]

/-- The verdicts on all other changes of a level, in their order, are what is left of its own part
without the entries of one resource. -/
theorem without_verdicts (scope : Scope) (logicalId : String) {verdicts : List Verdict}
    (answered : List.Forall₂ (fun change verdict => Verdict.ofChange scope change = .ok verdict)
      scope.judged verdicts) :
    ∃ others, List.Forall₂ (fun change verdict => Verdict.ofChange scope change = .ok verdict)
        (scope.judged.filter (Stack.isOther logicalId)) others ∧
      (Assessment.concat (verdicts.map .ofVerdict)).without logicalId =
        .concat (others.map .ofVerdict) := by
  apply (Assessment.edits_without logicalId).concat_verdicts _ _ answered
  · intro change verdict own answered
    have same : change.logicalId = logicalId := by simpa [Stack.isOther] using own
    have under := Verdict.isUnder_ofChange answered
    rw [same] at under
    exact under.without_self
  · intro change verdict other answered
    have different : change.logicalId ≠ logicalId := by simpa [Stack.isOther] using other
    exact (Verdict.isUnder_ofChange answered).without_other different

theorem judged_withProperties (retains : scope.stack.Retains logicalId old new) :
    (scope.withProperties logicalId properties).judged.filter (Stack.isOther logicalId) =
      scope.judged.filter (Stack.isOther logicalId) := by
  rw [judged, judged, List.filter_comm, changes_withProperties retains, List.filter_comm]

/-- Other properties of a resource that keeps its type change no entry but its own, unless there is a
nested stack for it although its type is another one. The outputs and the nested stacks have the same
entries as before, and so have all other resources of the level, in the same order. -/
theorem assess_keeps_siblings (single : ¬ scope.HasNested logicalId)
    (retains : scope.stack.Retains logicalId old new) {first second : Assessment}
    (assessed : scope.assess = .ok first)
    (assessed' : (scope.withProperties logicalId properties).assess = .ok second) :
    ∃ own own' inner : Assessment, Stack.assessResources scope = .ok own ∧
      Stack.assessResources (scope.withProperties logicalId properties) = .ok own' ∧
      first = scope.stack.assessOutputs ++ own ++ inner ∧
      second = scope.stack.assessOutputs ++ own' ++ inner ∧
      own.without logicalId = own'.without logicalId := by
  obtain ⟨verdicts, parts, judged, nestedParts, rfl⟩ := assess_eq_ok_iff.mp assessed
  obtain ⟨verdicts', parts', judged', nestedParts', rfl⟩ := assess_eq_ok_iff.mp assessed'
  rw [nestedInBoth_withProperties retains] at nestedParts'
  have sameParts : parts = parts' := by
    apply eq_of_results _ nestedParts nestedParts'
    intro other both
    exact assessNested_withProperties single retains (ne_of_mem_nestedInBoth retains both)
  subst sameParts
  obtain ⟨others, answered, left⟩ := without_verdicts scope logicalId judged
  obtain ⟨others', answered', left'⟩ := without_verdicts _ logicalId judged'
  rw [judged_withProperties retains] at answered'
  have sameVerdicts : others = others' := by
    apply eq_of_results _ answered answered'
    intro change _
    exact ofChange_withProperties single retains change
  refine ⟨_, _, .concat parts, assessResources_eq_ok judged, assessResources_eq_ok judged',
    rfl, rfl, ?_⟩
  rw [left, left', sameVerdicts]

/-- A function with a description, beside a bucket that has some parameters among its properties. -/
def describing (description size : Json) : Template where
  resources := .ofList [
    ("Handler", {
      type := "AWS::Lambda::Function"
      properties := .ofList [("Description", description)] }),
    ("Shared", {
      type := "AWS::S3::Bucket"
      properties := .ofList [("Parameters", .obj [("Size", size)])] })]

/-- The function gets another description, and the bucket is listed as a nested stack. -/
def sharing (description size : Json) (nested : List (String × Stack)) : Scope where
  stack := {
    name := some "outer"
    deployed := describing (.str "old") (.str "small")
    generated := describing description size
    listing := .ofResources [⟨"Handler", "AWS::Lambda::Function", "handler"⟩,
      ⟨"Shared", ResourceKind.nestedStackType, "shared"⟩]
    nested }
  parameters := .empty
  environment := .inPartition "123456789012" "eu-west-1" "aws"
  exports := .empty

/-- Another size for the bucket blocks the bucket, and leaves the swap of the function as it is. -/
theorem assess_keeps_siblings_bucket :
    let scope := sharing (.str "new") (.str "small") []
    let properties := Table.ofList [("Parameters", Json.obj [("Size", .str "large")])]
    ∃ first second own own' inner : Assessment, scope.assess = .ok first ∧
      (scope.withProperties "Shared" properties).assess = .ok second ∧
      first.blockers = [] ∧ second.blockers.map Blocker.logicalId = ["Shared"] ∧
      first = scope.stack.assessOutputs ++ own ++ inner ∧
      second = scope.stack.assessOutputs ++ own' ++ inner ∧
      own.without "Shared" = own'.without "Shared" := by
  intro scope properties
  have retained : ∃ old new, scope.stack.Retains "Shared" old new :=
    ⟨_, _, rfl, rfl, rfl, by decide, by decide, by decide⟩
  obtain ⟨old, new, retains⟩ := retained
  have single : ¬ scope.HasNested "Shared" := by
    rintro ⟨resource, stack, _, _, loaded⟩
    cases loaded
  have assessed : ∃ first, scope.assess = .ok first ∧ first.blockers = [] := ⟨_, rfl, rfl⟩
  have edited : scope.withProperties "Shared" properties =
      sharing (.str "new") (.str "large") [] := rfl
  have assessed' : ∃ second, (sharing (.str "new") (.str "large") []).assess = .ok second ∧
      second.blockers.map Blocker.logicalId = ["Shared"] := ⟨_, rfl, rfl⟩
  rw [← edited] at assessed'
  obtain ⟨first, made, unblocked⟩ := assessed
  obtain ⟨second, made', blocked⟩ := assessed'
  obtain ⟨own, own', inner, _, _, same, same', left⟩ :=
    assess_keeps_siblings single retains made made'
  exact ⟨first, second, own, own', inner, made, made', unblocked, blocked, same, same', left⟩

/-- A nested stack of which the size is an output. -/
def sizeStack : Stack where
  name := some "shared"
  deployed := {}
  generated := { outputs := .ofList [("Size", { value := .obj [("Ref", .str "Size")] })] }
  listing := .empty
  nested := []

/-- The function described by the size, with a nested stack in the place of the bucket. -/
def describingSize (size : Json) : Scope :=
  sharing (.obj [("Fn::GetAtt", .arr [.str "Shared", .str "Outputs.Size"])]) size
    [("Shared", sizeStack)]

/-- The operations for one function that gets a description. -/
def descriptionGiven (description : String) : List (List Operation) :=
  [[.updateConfiguration
    { functionName := "handler", description := some description, environment := none }]]

/-- The size among the properties of a bucket becomes the description of the function if a nested
stack takes the place of the bucket. -/
theorem assess_shares_parameters :
    let properties := Table.ofList [("Parameters", Json.obj [("Size", .str "large")])]
    ∃ old new first second, (describingSize (.str "small")).stack.Retains "Shared" old new ∧
      (describingSize (.str "small")).assess = .ok first ∧
      ((describingSize (.str "small")).withProperties "Shared" properties).assess = .ok second ∧
      (first.without "Shared").swaps.map Swap.operations = descriptionGiven "small" ∧
      (second.without "Shared").swaps.map Swap.operations = descriptionGiven "large" ∧
      first.without "Shared" ≠ second.without "Shared" := by
  intro properties
  have retained : ∃ old new, (describingSize (.str "small")).stack.Retains "Shared" old new :=
    ⟨_, _, rfl, rfl, rfl, by decide, by decide, by decide⟩
  obtain ⟨old, new, retains⟩ := retained
  have assessed : ∃ first, (describingSize (.str "small")).assess = .ok first ∧
      (first.without "Shared").swaps.map Swap.operations = descriptionGiven "small" :=
    ⟨_, rfl, rfl⟩
  have edited : (describingSize (.str "small")).withProperties "Shared" properties =
      describingSize (.str "large") := rfl
  have assessed' : ∃ second, (describingSize (.str "large")).assess = .ok second ∧
      (second.without "Shared").swaps.map Swap.operations = descriptionGiven "large" :=
    ⟨_, rfl, rfl⟩
  rw [← edited] at assessed'
  obtain ⟨first, made, small⟩ := assessed
  obtain ⟨second, made', large⟩ := assessed'
  refine ⟨old, new, first, second, retains, made, made', small, large, ?_⟩
  intro same
  rw [same, large] at small
  exact absurd small (by simp [descriptionGiven])

end Scope

end StackSwap
