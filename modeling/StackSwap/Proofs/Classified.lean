import StackSwap.Proofs.Decoding
import StackSwap.Proofs.Template

namespace StackSwap

namespace Json

/-- Two optional values are equal, where a missing one counts as null. -/
def Alike (old new : Option Json) : Prop := (old.getD .null).same (new.getD .null) = true

variable {old new : Option Json}

theorem deltaOptional_eq_nil_iff (oldFormed : ∀ value ∈ old, value.WellFormed)
    (newFormed : ∀ value ∈ new, value.WellFormed) :
    deltaOptional old new = [] ↔ Alike old new := by
  have formed {value : Option Json} (each : ∀ own ∈ value, own.WellFormed) :
      (value.getD .null).WellFormed := by
    cases value with
    | none => trivial
    | some own => exact each own rfl
  have whole := delta_eq_nil_iff (formed oldFormed) (formed newFormed)
  cases old with
  | none =>
    cases new with
    | none => exact iff_of_true rfl rfl
    | some value => exact whole
  | some value => exact whole

theorem alike_iff_of_ne_null (oldGiven : old ≠ some .null) (newGiven : new ≠ some .null) :
    Alike old new ↔ (old == new) = true := by
  cases old with
  | none =>
    cases new with
    | none => exact iff_of_true rfl rfl
    | some value => cases value <;> simp_all [Alike, same]
  | some first =>
    cases new with
    | none => cases first <;> simp_all [Alike, same]
    | some second => exact Iff.rfl

end Json

namespace Resource

/-- Two definitions that no difference is reported for. -/
structure Alike (old new : Resource) : Prop where
  type : old.type = new.type
  properties : (old.properties == new.properties) = true
  metadata : Json.Alike old.metadata new.metadata
  dependsOn : Json.Alike old.dependsOn new.dependsOn

variable {old new : Resource}

theorem alike_iff_of_nullFree (oldFree : old.NullFree) (newFree : new.NullFree) :
    old.Alike new ↔ (old == new) = true := by
  rw [beq_iff, ← Json.alike_iff_of_ne_null oldFree.metadata newFree.metadata,
    ← Json.alike_iff_of_ne_null oldFree.dependsOn newFree.dependsOn]
  constructor
  · intro alike
    exact ⟨alike.type, alike.properties, alike.metadata, alike.dependsOn⟩
  · intro parts
    obtain ⟨type, properties, metadata, dependsOn⟩ := parts
    exact ⟨type, properties, metadata, dependsOn⟩

end Resource

namespace ResourceChange

variable {logicalId : String}

theorem modified?_eq_none_iff {old new : Resource} (oldFormed : old.WellFormed)
    (newFormed : new.WellFormed) (sameType : old.type = new.type) :
    modified? logicalId old new = none ↔ old.Alike new := by
  have properties : Json.delta (.obj old.properties.entries) (.obj new.properties.entries) = [] ↔
      (old.properties == new.properties) = true := by
    rw [Json.delta_eq_nil_iff oldFormed.properties newFormed.properties, Json.same_obj,
      ← Json.beq_fields]
    rfl
  have metadata := Json.deltaOptional_eq_nil_iff oldFormed.metadata newFormed.metadata
  have dependsOn := Json.deltaOptional_eq_nil_iff oldFormed.dependsOn newFormed.dependsOn
  simp only [modified?, ite_eq_left_iff, reduceCtorEq, imp_false, not_not, Bool.and_eq_true,
    List.isEmpty_iff, properties, metadata, dependsOn]
  constructor
  · intro parts
    obtain ⟨⟨properties, metadata⟩, dependsOn⟩ := parts
    exact ⟨sameType, properties, metadata, dependsOn⟩
  · intro alike
    exact ⟨⟨alike.properties, alike.metadata⟩, alike.dependsOn⟩

/-- The entries for what two templates have under one logical ID. -/
inductive Classified (logicalId : String) :
    Option Resource → Option Resource → List ResourceChange → Prop where
  | absent : Classified logicalId none none []
  | added (new : Resource) : Classified logicalId none (some new) [.added logicalId new]
  | removed (old : Resource) : Classified logicalId (some old) none [.removed logicalId old]
  | retyped {old new : Resource} (types : old.type ≠ new.type) :
    Classified logicalId (some old) (some new) [.removed logicalId old, .added logicalId new]
  | modified {old new : Resource} (sameType : old.type = new.type) (differ : ¬ old.Alike new) :
    Classified logicalId (some old) (some new) [{
      logicalId, type := new.type, kind := .modified, old := some old, new := some new
      properties := Json.delta (.obj old.properties.entries) (.obj new.properties.entries)
      metadata := Json.deltaOptional old.metadata new.metadata
      dependsOn := Json.deltaOptional old.dependsOn new.dependsOn }]
  | unchanged {old new : Resource} (alike : old.Alike new) :
    Classified logicalId (some old) (some new) []

/-- There is no entry exactly if both templates have nothing, or definitions that are alike. -/
theorem Classified.eq_nil_iff {old new : Option Resource} {changes : List ResourceChange}
    (classified : Classified logicalId old new changes) :
    changes = [] ↔ Option.Rel Resource.Alike old new := by
  cases classified with
  | absent => exact iff_of_true rfl .none
  | added | removed => exact iff_of_false nofun nofun
  | retyped types =>
    refine iff_of_false nofun ?_
    intro related
    cases related with
    | some alike => exact types alike.type
  | modified _ differ =>
    refine iff_of_false nofun ?_
    intro related
    cases related with
    | some alike => exact differ alike
  | unchanged alike => exact iff_of_true rfl (.some alike)

end ResourceChange

namespace Template

variable {old new : Template}

theorem resourceChangesAt_classified (oldFormed : old.WellFormed) (newFormed : new.WellFormed)
    (logicalId : String) :
    ResourceChange.Classified logicalId (old.resource? logicalId) (new.resource? logicalId)
      (old.resourceChangesAt new logicalId) := by
  unfold resourceChangesAt
  cases inOld : old.resource? logicalId with
  | none =>
    cases inNew : new.resource? logicalId with
    | none => exact .absent
    | some second => exact .added second
  | some first =>
    cases inNew : new.resource? logicalId with
    | none => exact .removed first
    | some second =>
      simp only
      by_cases sameType : first.type = second.type
      · rw [if_pos sameType]
        have none_iff : ResourceChange.modified? logicalId first second = none ↔
            first.Alike second :=
          ResourceChange.modified?_eq_none_iff (oldFormed.resource inOld) (newFormed.resource inNew)
            sameType
        cases made : ResourceChange.modified? logicalId first second with
        | none => exact .unchanged (none_iff.mp made)
        | some change =>
          rw [ResourceChange.modified?_eq_some made]
          refine .modified sameType ?_
          intro alike
          rw [none_iff.mpr alike] at made
          cases made
      · rw [if_neg sameType]
        exact .retyped sameType

/-! The order of the entries -/

theorem keysOfBoth_pairwise {α β : Type} (left : Table α) (right : Table β) :
    (Table.keysOfBoth left right).Pairwise (· < ·) :=
  (Table.ofList _).sorted.keys_pairwise

/-- Entries that are made for one name after the other, in ascending order, can be cut out of the
list for each name. -/
theorem flatMap_cut {make : String → List ResourceChange} {names : List String}
    (ascending : names.Pairwise (· < ·))
    (own : ∀ name, ∀ change ∈ make name, change.logicalId = name) {logicalId : String}
    (elsewhere : logicalId ∉ names → make logicalId = []) :
    ∃ before after, names.flatMap make = before ++ make logicalId ++ after ∧
      (∀ change ∈ before, change.logicalId < logicalId) ∧
      ∀ change ∈ after, logicalId < change.logicalId := by
  induction names with
  | nil => exact ⟨[], [], by simp [elsewhere], List.forall_mem_nil _, List.forall_mem_nil _⟩
  | cons first rest ih =>
    obtain ⟨firstBelow, restAscending⟩ := List.pairwise_cons.mp ascending
    have above {name : String} (below : name ≤ first) (change : ResourceChange)
        (member : change ∈ rest.flatMap make) : name < change.logicalId := by
      obtain ⟨later, inRest, made⟩ := List.mem_flatMap.mp member
      rw [own later change made]
      exact Std.lt_of_le_of_lt below (firstBelow later inRest)
    rw [List.flatMap_cons]
    by_cases here : first = logicalId
    · subst here
      exact ⟨[], rest.flatMap make, by simp, List.forall_mem_nil _, above (String.le_refl _)⟩
    · by_cases before : first < logicalId
      · have stillElsewhere : logicalId ∉ rest → make logicalId = [] := by
          intro notLater
          exact elsewhere (by simp [Ne.symm here, notLater])
        obtain ⟨front, back, same, below, behind⟩ := ih restAscending stillElsewhere
        refine ⟨make first ++ front, back, by simp [same], ?_, behind⟩
        intro change member
        rcases List.mem_append.mp member with isFirst | later
        · rwa [own first change isFirst]
        · exact below change later
      · have after : logicalId < first :=
          Std.lt_of_le_of_ne (String.not_lt.mp before) (Ne.symm here)
        -- the names ascend, so the logical ID is none of them
        have nowhere : logicalId ∉ first :: rest := by
          intro member
          rcases List.mem_cons.mp member with same | later
          · exact here same.symm
          · exact before (firstBelow logicalId later)
        refine ⟨[], make first ++ rest.flatMap make, by simp [elsewhere nowhere],
          List.forall_mem_nil _, ?_⟩
        intro change member
        rcases List.mem_append.mp member with isFirst | later
        · rwa [own first change isFirst]
        · exact above (Std.le_of_lt after) change later

theorem resourceChanges_ordered (old new : Template) :
    (old.resourceChanges new).Pairwise
      (fun earlier later => earlier.logicalId ≤ later.logicalId) := by
  apply List.pairwise_flatMap.mpr
  constructor
  · intro logicalId _
    have equal : ∀ change ∈ old.resourceChangesAt new logicalId, change.logicalId = logicalId :=
      fun change member => logicalId_of_mem_resourceChangesAt member
    apply List.pairwise_iff_forall_sublist.mpr
    intro earlier later both
    have same : earlier.logicalId = later.logicalId := by
      rw [equal earlier (both.subset (by simp)), equal later (both.subset (by simp))]
    exact same ▸ String.le_refl earlier.logicalId
  · apply (keysOfBoth_pairwise old.resources new.resources).imp
    intro first second below earlier inEarlier later inLater
    rw [logicalId_of_mem_resourceChangesAt inEarlier, logicalId_of_mem_resourceChangesAt inLater]
    exact Std.le_of_lt below

theorem resourceChangesAt_of_notMem {logicalId : String}
    (nowhere : logicalId ∉ Table.keysOfBoth old.resources new.resources) :
    old.resourceChangesAt new logicalId = [] := by
  obtain ⟨inOld, inNew⟩ := Table.find?_of_notMem_keysOfBoth nowhere
  rw [resourceChangesAt, resource?, resource?, inOld, inNew]

theorem resourceChanges_eq_nil_iff (oldFormed : old.WellFormed) (newFormed : new.WellFormed) :
    old.resourceChanges new = [] ↔ ∀ logicalId,
      Option.Rel Resource.Alike (old.resource? logicalId) (new.resource? logicalId) := by
  rw [resourceChanges, List.flatMap_eq_nil_iff]
  apply forall_congr'
  intro logicalId
  rw [← (resourceChangesAt_classified oldFormed newFormed logicalId).eq_nil_iff]
  constructor
  · intro ifThere
    by_cases there : logicalId ∈ Table.keysOfBoth old.resources new.resources
    · exact ifThere there
    · exact resourceChangesAt_of_notMem there
  · exact fun unchanged _ => unchanged

/-! Outputs -/

theorem mem_changedOutputs_iff {name : String} :
    name ∈ old.changedOutputs new ↔
      (old.outputs.find? name == new.outputs.find? name) = false := by
  rw [changedOutputs, List.mem_filter, bne, Bool.not_eq_true']
  refine and_iff_right_of_imp ?_
  intro differ
  by_contra nowhere
  obtain ⟨inOld, inNew⟩ := Table.find?_of_notMem_keysOfBoth nowhere
  rw [inOld, inNew] at differ
  cases differ

theorem changedOutputs_eq_nil_iff :
    old.changedOutputs new = [] ↔ (old.outputs == new.outputs) = true := by
  simp only [List.eq_nil_iff_forall_not_mem, mem_changedOutputs_iff, Bool.not_eq_false,
    Table.beq_iff, optional_beq_iff]

/-! Both -/

theorem isUnchanged_iff (oldFormed : old.WellFormed) (newFormed : new.WellFormed) :
    old.isUnchanged new = true ↔
      (∀ logicalId, Option.Rel Resource.Alike (old.resource? logicalId) (new.resource? logicalId)) ∧
        (old.outputs == new.outputs) = true := by
  rw [isUnchanged, Bool.and_eq_true, List.isEmpty_iff, List.isEmpty_iff,
    resourceChanges_eq_nil_iff oldFormed newFormed, changedOutputs_eq_nil_iff]

theorem NullFree.alike_iff (oldFree : old.NullFree) (newFree : new.NullFree) :
    (∀ logicalId, Option.Rel Resource.Alike (old.resource? logicalId) (new.resource? logicalId)) ↔
      (old.resources == new.resources) = true := by
  rw [Table.beq_iff]
  apply forall_congr'
  intro logicalId
  change _ ↔ Option.Rel _ (old.resource? logicalId) (new.resource? logicalId)
  cases inOld : old.resource? logicalId with
  | none =>
    cases inNew : new.resource? logicalId with
    | none => exact iff_of_true .none .none
    | some second => exact iff_of_false nofun nofun
  | some first =>
    cases inNew : new.resource? logicalId with
    | none => exact iff_of_false nofun nofun
    | some second =>
      rw [Option.rel_some_some, Option.rel_some_some]
      exact Resource.alike_iff_of_nullFree (oldFree.resource inOld) (newFree.resource inNew)

/-- The comparison of two templates that were read: the entries of each logical ID stand together,
in order, and are those for the two definitions; the changed outputs are the names under which the
outputs differ, in order; and nothing changed exactly if all resources are alike and the outputs are
equal. Without nulls, as after JSON, alike means equal. -/
theorem resourceChanges_classified {first second : Absence} (oldDecoded : old.DecodedFrom first)
    (newDecoded : new.DecodedFrom second) :
    (old.resourceChanges new).Pairwise
      (fun earlier later => earlier.logicalId ≤ later.logicalId) ∧
    (∀ logicalId, ∃ before entries after,
      old.resourceChanges new = before ++ entries ++ after ∧
      (∀ change ∈ before, change.logicalId < logicalId) ∧
      (∀ change ∈ after, logicalId < change.logicalId) ∧
      ResourceChange.Classified logicalId (old.resource? logicalId) (new.resource? logicalId)
        entries) ∧
    (old.changedOutputs new).Pairwise (· < ·) ∧
    (∀ name, name ∈ old.changedOutputs new ↔
      (old.outputs.find? name == new.outputs.find? name) = false) ∧
    (old.isUnchanged new = true ↔
      (∀ logicalId,
        Option.Rel Resource.Alike (old.resource? logicalId) (new.resource? logicalId)) ∧
      (old.outputs == new.outputs) = true) ∧
    (first = .null → old.NullFree) ∧ (second = .null → new.NullFree) ∧
    (old.NullFree → new.NullFree →
      (∀ logicalId before after, old.resource? logicalId = some before →
        new.resource? logicalId = some after → (before.Alike after ↔ (before == after) = true)) ∧
      (old.isUnchanged new = true ↔
        (old.resources == new.resources) = true ∧ (old.outputs == new.outputs) = true)) := by
  have oldFormed := oldDecoded.wellFormed
  have newFormed := newDecoded.wellFormed
  have unchanged := isUnchanged_iff oldFormed newFormed
  refine ⟨resourceChanges_ordered old new, ?_, (keysOfBoth_pairwise _ _).filter _,
    fun name => mem_changedOutputs_iff, unchanged, ?_, ?_, ?_⟩
  · intro logicalId
    obtain ⟨before, after, same, below, behind⟩ :=
      flatMap_cut (keysOfBoth_pairwise old.resources new.resources)
        (fun _ _ member => logicalId_of_mem_resourceChangesAt member)
        (fun nowhere => resourceChangesAt_of_notMem nowhere)
    exact ⟨before, _, after, same, below, behind,
      resourceChangesAt_classified oldFormed newFormed logicalId⟩
  · intro isJson
    subst isJson
    exact oldDecoded.nullFree
  · intro isJson
    subst isJson
    exact newDecoded.nullFree
  · intro oldFree newFree
    constructor
    · intro logicalId before after inOld inNew
      exact Resource.alike_iff_of_nullFree (oldFree.resource inOld) (newFree.resource inNew)
    · rw [unchanged, oldFree.alike_iff newFree]

/-- A queue, and a topic that waits for it. -/
def queued : Json :=
  .obj [("Resources", .obj [
    ("Jobs", .obj [("Type", .str "AWS::SQS::Queue")]),
    ("News", .obj [("DependsOn", .str "Jobs"), ("Type", .str "AWS::SNS::Topic")])])]

/-- Two topics, of which none waits. -/
def unqueued : Json :=
  .obj [("Resources", .obj [
    ("Jobs", .obj [("Type", .str "AWS::SNS::Topic")]),
    ("News", .obj [("DependsOn", .null), ("Type", .str "AWS::SNS::Topic")])])]

def queueAndTopic : Template where
  resources := .ofList [("Jobs", { type := "AWS::SQS::Queue" }),
    ("News", { type := "AWS::SNS::Topic", dependsOn := some (.str "Jobs") })]

def twoTopics : Template where
  resources := .ofList
    [("Jobs", { type := "AWS::SNS::Topic" }), ("News", { type := "AWS::SNS::Topic" })]

theorem decodedFrom_queued : queueAndTopic.DecodedFrom .null :=
  have formed : queued.WellFormed := by decide
  .value formed rfl

theorem decodedFrom_unqueued : twoTopics.DecodedFrom .null :=
  have formed : unqueued.WellFormed := by decide
  .value formed rfl

/-- The other type makes two entries, and the other dependencies make one. -/
theorem resourceChanges_classified_topics :
    queueAndTopic.DecodedFrom .null ∧ twoTopics.DecodedFrom .null ∧
      (∃ before after, queueAndTopic.resourceChanges twoTopics = before ++
        [.removed "Jobs" { type := "AWS::SQS::Queue" },
          .added "Jobs" { type := "AWS::SNS::Topic" }] ++ after) ∧
      ∃ change ∈ queueAndTopic.resourceChanges twoTopics,
        change.logicalId = "News" ∧ change.kind = .modified := by
  have cut := (resourceChanges_classified decodedFrom_queued decodedFrom_unqueued).2.1
  refine ⟨decodedFrom_queued, decodedFrom_unqueued, ?_, ?_⟩
  · obtain ⟨before, entries, after, same, _, _, classified⟩ := cut "Jobs"
    have inOld : queueAndTopic.resource? "Jobs" = some { type := "AWS::SQS::Queue" } := rfl
    have inNew : twoTopics.resource? "Jobs" = some { type := "AWS::SNS::Topic" } := rfl
    rw [inOld, inNew] at classified
    cases classified with
    | retyped => exact ⟨before, after, same⟩
    | modified sameType => exact absurd sameType (by decide)
    | unchanged alike => exact absurd alike.type (by decide)
  · obtain ⟨before, entries, after, same, _, _, classified⟩ := cut "News"
    have inOld : queueAndTopic.resource? "News" =
        some { type := "AWS::SNS::Topic", dependsOn := some (.str "Jobs") } := rfl
    have inNew : twoTopics.resource? "News" = some { type := "AWS::SNS::Topic" } := rfl
    rw [inOld, inNew] at classified
    rw [same]
    cases classified with
    | retyped types => exact absurd rfl types
    | modified =>
      exact ⟨_, List.mem_append_left after (List.mem_append_right before (List.mem_singleton_self _)),
        rfl, rfl⟩
    | unchanged alike => cases alike.dependsOn

/-- Metadata that read as null make no entry, though the resources are not equal. -/
theorem isUnchanged_of_null_metadata :
    let value := Json.obj [("Resources", .obj [("News", .obj [("Type", .str "AWS::SNS::Topic")])])]
    let text := "Resources:\n  News:\n    Type: AWS::SNS::Topic\n    Metadata: .nan\n"
    ∃ old new, value.WellFormed ∧ ofJson? value = some old ∧ ofYamlText? text = some new ∧
      (old.resources == new.resources) = false ∧ old.isUnchanged new = true := by
  intro value text
  have formed : value.WellFormed := by decide
  let old : Template := { resources := .ofList [("News", { type := "AWS::SNS::Topic" })] }
  have read : (ofYamlText? text).any
      (fun new => !(old.resources == new.resources) && old.isUnchanged new) = true := by
    decide +kernel
  obtain ⟨new, parsed, holds⟩ := (Option.any_eq_true _ _).mp read
  obtain ⟨differ, unchanged⟩ := Bool.and_eq_true_iff.mp holds
  exact ⟨old, new, formed, rfl, parsed, Bool.not_inj differ, unchanged⟩

end Template

end StackSwap
