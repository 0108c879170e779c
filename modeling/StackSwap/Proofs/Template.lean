import StackSwap.Template.Delta
import StackSwap.Proofs.Delta
import StackSwap.Proofs.Sequence

namespace StackSwap

namespace Resource

/-- The values of the resource are well formed. -/
structure WellFormed (resource : Resource) : Prop where
  properties : (Json.obj resource.properties.entries).WellFormed
  metadata : ∀ value ∈ resource.metadata, value.WellFormed
  dependsOn : ∀ value ∈ resource.dependsOn, value.WellFormed

end Resource

namespace Template

/-- The values of all resources and outputs of the template are well formed. -/
structure WellFormed (template : Template) : Prop where
  resources : ∀ entry ∈ template.resources.entries, entry.2.WellFormed
  outputs : ∀ entry ∈ template.outputs.entries, entry.2.value.WellFormed ∧
    ∀ value ∈ entry.2.exported, value.WellFormed

theorem WellFormed.resource {template : Template} (formed : template.WellFormed)
    {logicalId : String} {resource : Resource}
    (found : template.resource? logicalId = some resource) : resource.WellFormed :=
  formed.resources _ (Entries.mem_of_find? found)

/-- The template with these resources, each given by its logical ID, its type and its properties. -/
def ofResources (resources : List (String × String × List (String × Json))) : Template where
  resources := .ofList (resources.map
    (fun (logicalId, type, properties) => (logicalId, { type, properties := .ofList properties })))

theorem wellFormed_ofResources {resources : List (String × String × List (String × Json))}
    (formed : ∀ resource ∈ resources, ∀ property ∈ resource.2.2, property.2.WellFormed) :
    (ofResources resources).WellFormed := by
  constructor
  · intro entry member
    obtain ⟨resource, inResources, rfl⟩ := List.mem_map.mp (Entries.mem_of_mem_ofList member)
    refine ⟨Json.wellFormed_obj.mpr ⟨Table.sorted _, ?_⟩, by simp, by simp⟩
    exact fun property inside =>
      formed resource inResources property (Entries.mem_of_mem_ofList inside)
  · exact fun entry member => absurd member List.not_mem_nil

/-- The template with a single resource. -/
def ofResource (logicalId type : String) (properties : List (String × Json)) : Template where
  resources := .ofList [(logicalId, { type, properties := .ofList properties })]

theorem wellFormed_ofResource {logicalId type : String} {properties : List (String × Json)}
    (formed : ∀ property ∈ properties, property.2.WellFormed) :
    (ofResource logicalId type properties).WellFormed := by
  have several : (ofResources [(logicalId, type, properties)]).WellFormed :=
    wellFormed_ofResources (by simpa using formed)
  exact several

end Template

namespace ResourceChange

/-- The change stands for a resource that both templates have with the type of the change, and
lists how the properties differ. -/
structure Modifies (deployed generated : Template) (change : ResourceChange) (old new : Resource) :
    Prop where
  kind : change.kind = .modified
  deployed : deployed.resource? change.logicalId = some old
  generated : generated.resource? change.logicalId = some new
  oldType : old.type = change.type
  newType : new.type = change.type
  oldGiven : change.old = some old
  newGiven : change.new = some new
  properties : change.properties =
    Json.delta (.obj old.properties.entries) (.obj new.properties.entries)
  metadata : change.metadata = Json.deltaOptional old.metadata new.metadata
  dependsOn : change.dependsOn = Json.deltaOptional old.dependsOn new.dependsOn

theorem modified?_eq_some {logicalId : String} {old new : Resource} {change : ResourceChange}
    (made : modified? logicalId old new = some change) :
    change = {
      logicalId, type := new.type, kind := .modified, old := some old, new := some new
      properties := Json.delta (.obj old.properties.entries) (.obj new.properties.entries)
      metadata := Json.deltaOptional old.metadata new.metadata
      dependsOn := Json.deltaOptional old.dependsOn new.dependsOn } := by
  simp only [modified?] at made
  split at made
  · cases made
  · exact (Option.some.inj made).symm

theorem modifies_of_mem {deployed generated : Template} {change : ResourceChange}
    (member : change ∈ deployed.resourceChanges generated) (modified : change.kind = .modified) :
    ∃ old new, change.Modifies deployed generated old new := by
  obtain ⟨logicalId, _, found⟩ := List.mem_flatMap.mp member
  simp only [Template.resourceChangesAt] at found
  split at found
  · cases found
  · rw [List.mem_singleton.mp found] at modified
    cases modified
  · rw [List.mem_singleton.mp found] at modified
    cases modified
  · rename_i old new inDeployed inGenerated
    split at found
    · rename_i sameType
      have made := modified?_eq_some (Option.mem_toList.mp found)
      subst made
      exact ⟨old, new, rfl, inDeployed, inGenerated, sameType, rfl, rfl, rfl, rfl, rfl, rfl⟩
    · rcases List.mem_cons.mp found with rfl | last
      · cases modified
      · rw [List.mem_singleton.mp last] at modified
        cases modified

theorem changedProperties_pairwise (change : ResourceChange) :
    change.changedProperties.Pairwise (· < ·) :=
  (Table.ofList _).sorted.keys_pairwise

theorem mem_changedProperties {change : ResourceChange} {name : String} :
    name ∈ change.changedProperties ↔ ∃ leaf ∈ change.properties, leaf.property = name := by
  rw [changedProperties, Table.keys, Table.ofList, Entries.mem_keys_ofList]
  simp

theorem hasPropertyChanges_iff {change : ResourceChange} :
    change.hasPropertyChanges = true ↔ ∃ name, name ∈ change.changedProperties := by
  simp only [mem_changedProperties, hasPropertyChanges, Bool.not_eq_true', List.isEmpty_eq_false_iff]
  constructor
  · intro nonempty
    obtain ⟨leaf, member⟩ := List.exists_mem_of_ne_nil _ nonempty
    exact ⟨leaf.property, leaf, member, rfl⟩
  · rintro ⟨_, leaf, member, _⟩
    exact List.ne_nil_of_mem member

theorem Modifies.mem_changedProperties {deployed generated : Template} {change : ResourceChange}
    {old new : Resource} (modifies : change.Modifies deployed generated old new)
    (deployedFormed : deployed.WellFormed) (generatedFormed : generated.WellFormed) {name : String} :
    name ∈ change.changedProperties ↔ (old.property? name == new.property? name) = false := by
  rw [ResourceChange.mem_changedProperties, modifies.properties]
  exact Json.delta_obj_property_iff (deployedFormed.resource modifies.deployed).properties
    (generatedFormed.resource modifies.generated).properties

/-- A resource of both templates with one type has a modification if a property differs. -/
theorem exists_modifies {deployed generated : Template} (deployedFormed : deployed.WellFormed)
    (generatedFormed : generated.WellFormed) {logicalId : String} {old new : Resource}
    (inDeployed : deployed.resource? logicalId = some old)
    (inGenerated : generated.resource? logicalId = some new) (sameType : old.type = new.type)
    {name : String} (differs : (old.property? name == new.property? name) = false) :
    ∃ change ∈ deployed.resourceChanges generated, change.logicalId = logicalId ∧
      change.Modifies deployed generated old new ∧ change.hasPropertyChanges = true := by
  obtain ⟨leaf, inDelta, _⟩ := (Json.delta_obj_property_iff
    (deployedFormed.resource inDeployed).properties
    (generatedFormed.resource inGenerated).properties).mpr differs
  have nonempty := List.isEmpty_eq_false_iff.mpr (List.ne_nil_of_mem inDelta)
  have inKeys : logicalId ∈ Table.keysOfBoth deployed.resources generated.resources :=
    Table.mem_keysOfBoth.mpr (.inr (Table.mem_keys_iff.mpr ⟨new, inGenerated⟩))
  obtain ⟨change, made⟩ : ∃ change, modified? logicalId old new = some change := by
    simp [modified?, nonempty]
  have same := modified?_eq_some made
  refine ⟨change, List.mem_flatMap.mpr ⟨logicalId, inKeys, ?_⟩, ?_⟩
  · simp [Template.resourceChangesAt, inDeployed, inGenerated, sameType, made]
  · subst same
    refine ⟨rfl, ⟨rfl, inDeployed, inGenerated, sameType, rfl, rfl, rfl, rfl, rfl, rfl⟩, ?_⟩
    simp only [hasPropertyChanges, nonempty, Bool.not_false]

end ResourceChange

/-! Equal templates -/

deriving instance ReflBEq for Parameter, Resource, Output, Template

theorem Resource.beq_iff {old new : Resource} :
    (old == new) = true ↔ old.type = new.type ∧ (old.properties == new.properties) = true ∧
      (old.metadata == new.metadata) = true ∧ (old.dependsOn == new.dependsOn) = true := by
  have parts : (old == new) = (old.type == new.type && (old.properties == new.properties &&
      (old.metadata == new.metadata && old.dependsOn == new.dependsOn))) := rfl
  rw [parts, Bool.and_eq_true, Bool.and_eq_true, Bool.and_eq_true, beq_iff_eq]

theorem Template.beq_iff {old new : Template} :
    (old == new) = true ↔ (old.parameters == new.parameters) = true ∧
      (old.resources == new.resources) = true ∧ (old.outputs == new.outputs) = true := by
  have parts : (old == new) = (old.parameters == new.parameters &&
      (old.resources == new.resources && old.outputs == new.outputs)) := rfl
  rw [parts, Bool.and_eq_true, Bool.and_eq_true]

theorem ResourceChange.modified?_of_beq {logicalId : String} {old new : Resource}
    (same : (old == new) = true) (oldFormed : old.WellFormed) (newFormed : new.WellFormed) :
    modified? logicalId old new = none := by
  obtain ⟨_, sameProperties, sameMetadata, sameOrder⟩ := Resource.beq_iff.mp same
  have alike : (Json.obj old.properties.entries).same (.obj new.properties.entries) = true :=
    Json.sameFields_iff.mpr (Entries.forall₂_of_beq sameProperties)
  have properties := (Json.delta_eq_nil_iff oldFormed.properties newFormed.properties).mpr alike
  have metadata := Json.deltaOptional_of_beq sameMetadata oldFormed.metadata newFormed.metadata
  have dependsOn := Json.deltaOptional_of_beq sameOrder oldFormed.dependsOn newFormed.dependsOn
  simp [modified?, properties, metadata, dependsOn]

namespace Template

variable {old new : Template}

theorem logicalId_of_mem_resourceChangesAt {logicalId : String} {change : ResourceChange}
    (member : change ∈ old.resourceChangesAt new logicalId) : change.logicalId = logicalId := by
  unfold resourceChangesAt at member
  split at member
  · cases member
  · cases List.mem_singleton.mp member
    rfl
  · cases List.mem_singleton.mp member
    rfl
  · split at member
    · rw [ResourceChange.modified?_eq_some (Option.mem_toList.mp member)]
    · rcases List.mem_pair.mp member with rfl | rfl
      · rfl
      · rfl

theorem resourceChanges_of_beq (same : (old == new) = true) (oldFormed : old.WellFormed)
    (newFormed : new.WellFormed) : old.resourceChanges new = [] := by
  obtain ⟨_, sameResources, _⟩ := beq_iff.mp same
  apply List.flatMap_eq_nil_iff.mpr
  intro logicalId _
  have alike : Option.Rel (fun first second => (first == second) = true)
      (old.resource? logicalId) (new.resource? logicalId) :=
    Table.find?_of_beq sameResources logicalId
  unfold resourceChangesAt
  generalize inOld : old.resource? logicalId = before at alike
  generalize inNew : new.resource? logicalId = after at alike
  cases alike with
  | none => rfl
  | @some first second alike =>
    have sameType := (Resource.beq_iff.mp alike).1
    have unmodified : ResourceChange.modified? logicalId first second = none :=
      ResourceChange.modified?_of_beq alike (oldFormed.resource inOld) (newFormed.resource inNew)
    simp [sameType, unmodified]

theorem changedOutputs_of_beq (same : (old == new) = true) : old.changedOutputs new = [] := by
  obtain ⟨_, _, sameOutputs⟩ := beq_iff.mp same
  apply List.filter_eq_nil_iff.mpr
  intro name _
  have alike := Table.find?_of_beq sameOutputs name
  generalize old.outputs.find? name = before at alike
  generalize new.outputs.find? name = after at alike
  intro differs
  cases alike with
  | none => cases differs
  | @some first second alike =>
    have same : (some first == some second) = true := alike
    simp [bne, same] at differs

end Template

end StackSwap
