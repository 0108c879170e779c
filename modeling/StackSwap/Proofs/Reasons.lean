import StackSwap.Proofs.Mirroring

/-! A changed property outside the list blocks first, a property that no swap can take away second,
and a missing name last. Tags that changed with swappable properties are told of alone. -/

namespace StackSwap

/-- The swappable properties that a swap cannot take away from a resource. -/
def ResourceKind.lasting (type : String) : List String :=
  match type with
  | "AWS::CodeBuild::Project" => ["Source", "Environment", "SourceVersion"]
  | "AWS::StepFunctions::StateMachine" => ["DefinitionString"]
  | _ => []

theorem ResourceKind.lasting_subset {type : String} {allowed : List String}
    (listed : swappable? type = some allowed) : lasting type ⊆ allowed := by
  unfold swappable? at listed
  split at listed <;> cases listed <;> simp [lasting]

/-- Tags are never swapped. -/
theorem ResourceKind.tags_notMem {type : String} {allowed : List String}
    (listed : swappable? type = some allowed) : "Tags" ∉ allowed := by
  unfold swappable? at listed
  split at listed <;> cases listed <;> simp

namespace Resource

/-- A property that a swap cannot take away is gone from the second definition. -/
def Loses (old new : Resource) (lasting : List String) : Prop :=
  ∃ name ∈ lasting, old.Differs new name ∧ new.property? name = none

/-- What the reason for a blocked modification has to tell: that only the tags differ exactly if
nothing else does; of properties exactly if one outside the list and other than the tags differs, if
one is gone that cannot be taken away, or if the tags differ together with others; and that no name
is known only if there is nothing to reject. -/
structure Told (old new : Resource) (allowed lasting : List String) (reason : Reason) : Prop where
  tagsOnly : reason = .tagsOnly ↔ ∀ name, old.Differs new name ↔ name = "Tags"
  properties : reason = .nonHotswappableProperties ↔
    (∃ name, name ∉ allowed ∧ name ≠ "Tags" ∧ old.Differs new name) ∨ old.Loses new lasting ∨
      old.Differs new "Tags" ∧ ∃ name, name ≠ "Tags" ∧ old.Differs new name
  nameUnknown : reason = .physicalNameUnknown →
    (∀ name, old.Differs new name → name ∈ allowed) ∧ ¬ old.Loses new lasting

/-- The tags differ, and beside them swappable properties and no others. -/
def MixesTags (old new : Resource) (allowed : List String) : Prop :=
  old.Differs new "Tags" ∧ (∃ name ∈ allowed, old.Differs new name) ∧
    ∀ name, old.Differs new name → name ∈ allowed ∨ name = "Tags"

end Resource

namespace Verdict

variable {scope : Scope} {change : ResourceChange} {old new : Resource} {blocker : Blocker}
  {allowed lasting : List String}

/-- How a reason is found, from the rejected properties and the ones that are gone. -/
inductive Blocks (change : ResourceChange) (old new : Resource) (allowed lasting : List String) :
    Reason → Prop where
  | tags (only : rejected change allowed = ["Tags"]) :
    Blocks change old new allowed lasting .tagsOnly
  | others (outside : rejected change allowed ≠ []) (notOnly : rejected change allowed ≠ ["Tags"]) :
    Blocks change old new allowed lasting .nonHotswappableProperties
  | gone (allAllowed : rejected change allowed = []) (loses : old.Loses new lasting) :
    Blocks change old new allowed lasting .nonHotswappableProperties
  | nameless (allAllowed : rejected change allowed = []) (keeps : ¬ old.Loses new lasting) :
    Blocks change old new allowed lasting .physicalNameUnknown

theorem ifAllowed_blocks {proceed : List String → Evaluated Verdict}
    (blocked : ifAllowed change allowed proceed = .ok (.blocked blocker))
    (later : rejected change allowed = [] →
      proceed change.changedProperties = .ok (.blocked blocker) →
        Blocks change old new allowed lasting blocker.reason) :
    Blocks change old new allowed lasting blocker.reason := by
  have look : ifAllowed change allowed proceed =
      if (rejected change allowed).isEmpty then proceed change.changedProperties
      else if rejected change allowed = ["Tags"] then
        .ok (block change .tagsOnly (rejected change allowed))
      else .ok (block change .nonHotswappableProperties (rejected change allowed)) := rfl
  rw [look] at blocked
  split at blocked
  · rename_i allAllowed
    exact later (List.isEmpty_iff.mp allAllowed) blocked
  · rename_i outside
    split at blocked
    · rename_i only
      cases blocked
      exact .tags only
    · rename_i notOnly
      cases blocked
      exact .others (by simpa using outside) notOnly

theorem ofFunction_blocks (blocked : ofFunction scope change = .ok (.blocked blocker)) :
    Blocks change old new Function.allowed [] blocker.reason := by
  refine ifAllowed_blocks blocked fun allAllowed blocked => ?_
  obtain ⟨name, _, blocked⟩ := bind_eq_ok_iff.mp blocked
  cases name with
  | none =>
    cases blocked
    exact .nameless allAllowed fun ⟨_, inNothing, _⟩ => absurd inNothing List.not_mem_nil
  | some functionName =>
    simp only [bind_eq_ok_iff] at blocked
    obtain ⟨_, _, _, _, swapped⟩ := blocked
    cases swapped

theorem ofAlias_blocks (blocked : ofAlias change = .ok (.blocked blocker)) :
    Blocks change old new ["FunctionVersion"] [] blocker.reason :=
  ifAllowed_blocks blocked fun _ swapped => by cases swapped

theorem ofProject_blocks (compares : change.Compares old new)
    (blocked : ofProject scope change = .ok (.blocked blocker)) :
    Blocks change old new Project.allowed Project.allowed blocker.reason := by
  refine ifAllowed_blocks blocked fun noneRejected blocked => ?_
  have all := rejected_eq_nil_iff.mp noneRejected
  dsimp only at blocked
  split at blocked
  · rename_i removed
    cases blocked
    obtain ⟨name, changed, gone⟩ :
        ∃ name ∈ change.changedProperties, change.newProperty? name = none := by
      simpa using removed
    rw [compares.newProperty] at gone
    exact .gone noneRejected ⟨name, all name changed, (compares.differs name).mp changed, gone⟩
  · rename_i noneRemoved
    obtain ⟨name, _, blocked⟩ := bind_eq_ok_iff.mp blocked
    cases name with
    | none =>
      cases blocked
      refine .nameless noneRejected ?_
      rintro ⟨name, _, differs, gone⟩
      rw [← compares.newProperty] at gone
      have removed : ∃ name ∈ change.changedProperties, change.newProperty? name = none :=
        ⟨name, (compares.differs name).mpr differs, gone⟩
      exact noneRemoved (by simpa using removed)
    | some name =>
      obtain ⟨_, _, swapped⟩ := bind_eq_ok_iff.mp blocked
      cases swapped

theorem ofMachine_blocks (compares : change.Compares old new) (counts : change.Counts)
    (blocked : ofMachine scope change = .ok (.blocked blocker)) :
    Blocks change old new ["DefinitionString"] ["DefinitionString"] blocker.reason := by
  refine ifAllowed_blocks blocked fun noneRejected blocked => ?_
  split at blocked
  · rename_i gone
    cases blocked
    obtain ⟨name, changed⟩ := ResourceChange.hasPropertyChanges_iff.mp counts.changed
    have listed := rejected_eq_nil_iff.mp noneRejected name changed
    cases List.mem_singleton.mp listed
    rw [compares.newProperty] at gone
    exact .gone noneRejected ⟨_, listed, (compares.differs _).mp changed, gone⟩
  · rename_i definition given
    obtain ⟨name, _, blocked⟩ := bind_eq_ok_iff.mp blocked
    cases name with
    | none =>
      cases blocked
      refine .nameless noneRejected ?_
      rintro ⟨name, listed, _, gone⟩
      rw [List.mem_singleton.mp listed, ← compares.newProperty, given] at gone
      cases gone
    | some arn =>
      obtain ⟨_, _, swapped⟩ := bind_eq_ok_iff.mp blocked
      cases swapped

/-- For the types with a list, a blocker has the reason that is found first. -/
theorem ofChange_blocks (compares : change.Compares old new) (counts : change.Counts)
    (listed : ResourceKind.swappable? change.type = some allowed)
    (blocked : ofChange scope change = .ok (.blocked blocker)) :
    Blocks change old new allowed (ResourceKind.lasting change.type) blocker.reason := by
  rw [ofChange_modified scope counts.modified counts.changed counts.type] at blocked
  unfold ResourceKind.swappable? at listed
  split at listed
  case h_5 => cases listed
  all_goals
    rename_i type
    cases Option.some.inj listed
    simp only [ofModified, type, ResourceKind.ofType] at blocked
    rw [type]
  · exact ofFunction_blocks blocked
  · exact ofAlias_blocks blocked
  · exact ofProject_blocks compares blocked
  · exact ofMachine_blocks compares counts blocked

theorem mem_rejected_iff_differs (compares : change.Compares old new) {name : String} :
    name ∈ rejected change allowed ↔ name ∉ allowed ∧ old.Differs new name :=
  mem_rejected.trans (and_congr_right fun _ => compares.differs name)

theorem eq_singleton_of_ascending {names : List String} {only : String}
    (ascending : names.Pairwise (· < ·)) (nonempty : names ≠ [])
    (same : ∀ name ∈ names, name = only) : names = [only] := by
  match names with
  | [] => exact absurd rfl nonempty
  | [name] => rw [same name (List.mem_singleton_self name)]
  | first :: second :: rest =>
    have before : first < second := (List.pairwise_cons.mp ascending).1 second (by simp)
    rw [same first (by simp), same second (by simp)] at before
    exact absurd before (String.lt_irrefl only)

namespace Blocks

variable {reason : Reason}

/-- With tags alone rejected, they tell the truth unless a swappable property differs too. -/
theorem told_of_tags (compares : change.Compares old new) (within : lasting ⊆ allowed)
    (noTags : "Tags" ∉ allowed) (only : rejected change allowed = ["Tags"]) :
    old.Told new allowed lasting .tagsOnly ↔ ¬ old.MixesTags new allowed := by
  have outside {name : String} : name ∉ allowed ∧ old.Differs new name ↔ name = "Tags" := by
    rw [← mem_rejected_iff_differs compares, only, List.mem_singleton]
  have tags : old.Differs new "Tags" := (outside.mpr rfl).2
  constructor
  · rintro told ⟨_, ⟨name, inList, differs⟩, _⟩
    cases (told.tagsOnly.mp rfl name).mp differs
    exact noTags inList
  · intro apart
    have alone (name : String) (differs : old.Differs new name) : name = "Tags" := by
      by_contra other
      refine apart ⟨tags, ⟨name, ?_, differs⟩, fun second differs => ?_⟩
      · by_contra notListed
        exact other (outside.mp ⟨notListed, differs⟩)
      · exact or_iff_not_imp_left.mpr fun notListed => outside.mp ⟨notListed, differs⟩
    constructor
    · exact iff_of_true rfl fun name => ⟨alone name, fun same => same ▸ tags⟩
    · refine iff_of_false nofun ?_
      rintro (⟨name, _, notTags, differs⟩ | ⟨name, lasts, differs, _⟩ | ⟨_, name, notTags, differs⟩)
      · exact notTags (alone name differs)
      · exact noTags (alone name differs ▸ within lasts)
      · exact notTags (alone name differs)
    · exact nofun

theorem told_of_others (compares : change.Compares old new)
    (outside : rejected change allowed ≠ []) (notOnly : rejected change allowed ≠ ["Tags"]) :
    old.Told new allowed lasting .nonHotswappableProperties ∧ ¬ old.MixesTags new allowed := by
  obtain ⟨name, notTags, member⟩ : ∃ name, name ≠ "Tags" ∧ name ∈ rejected change allowed := by
    by_contra onlyTags
    refine notOnly (eq_singleton_of_ascending (rejected_pairwise change allowed) outside ?_)
    exact fun name member => by_contra fun other => onlyTags ⟨name, other, member⟩
  obtain ⟨outside, differs⟩ := (mem_rejected_iff_differs compares).mp member
  constructor
  · constructor
    · exact iff_of_false nofun fun only => notTags ((only name).mp differs)
    · exact iff_of_true rfl (.inl ⟨name, outside, notTags, differs⟩)
    · exact nofun
  · rintro ⟨_, _, within⟩
    exact (within name differs).elim outside notTags

theorem told_of_none (compares : change.Compares old new) (noTags : "Tags" ∉ allowed)
    (allAllowed : rejected change allowed = []) :
    ¬ old.Differs new "Tags" ∧ ∀ name, old.Differs new name → name ∈ allowed := by
  have all (name : String) (differs : old.Differs new name) : name ∈ allowed :=
    rejected_eq_nil_iff.mp allAllowed name ((compares.differs name).mpr differs)
  exact ⟨fun differs => noTags (all _ differs), all⟩

/-- A reason is what it says exactly if the tags did not change together with swappable properties
only; if they did, it tells of the tags. -/
theorem told_iff (compares : change.Compares old new) (within : lasting ⊆ allowed)
    (noTags : "Tags" ∉ allowed) (blocks : Blocks change old new allowed lasting reason) :
    (old.Told new allowed lasting reason ↔ ¬ old.MixesTags new allowed) ∧
      (old.MixesTags new allowed → reason = .tagsOnly) := by
  cases blocks with
  | tags only => exact ⟨told_of_tags compares within noTags only, fun _ => rfl⟩
  | others outside notOnly =>
    obtain ⟨told, notMixed⟩ := told_of_others compares outside notOnly
    exact ⟨iff_of_true told notMixed, fun mixes => absurd mixes notMixed⟩
  | gone allAllowed loses =>
    obtain ⟨sameTags, all⟩ := told_of_none compares noTags allAllowed
    refine ⟨iff_of_true ?_ fun mixes => sameTags mixes.1, fun mixes => absurd mixes.1 sameTags⟩
    constructor
    · exact iff_of_false nofun fun only => sameTags ((only "Tags").mpr rfl)
    · exact iff_of_true rfl (.inr (.inl loses))
    · exact nofun
  | nameless allAllowed keeps =>
    obtain ⟨sameTags, all⟩ := told_of_none compares noTags allAllowed
    refine ⟨iff_of_true ?_ fun mixes => sameTags mixes.1, fun mixes => absurd mixes.1 sameTags⟩
    constructor
    · exact iff_of_false nofun fun only => sameTags ((only "Tags").mpr rfl)
    · refine iff_of_false nofun ?_
      rintro (⟨name, outside, _, differs⟩ | loses | ⟨tags, _⟩)
      · exact outside (all name differs)
      · exact keeps loses
      · exact sameTags tags
    · exact fun _ => ⟨all, keeps⟩

end Blocks

theorem counts_of_blocked (modified : change.kind = .modified)
    (blocked : ofChange scope change = .ok (.blocked blocker)) : change.Counts := by
  simp only [ofChange, modified] at blocked
  split at blocked
  · cases blocked
  · rename_i type
    split at blocked
    · rename_i changed
      exact ⟨modified, changed, type⟩
    · cases blocked

/-- A modification of one of the four types that is blocked has one of three reasons. The reason is
what it says unless the tags changed together with swappable properties and no others; then it is
that of the tags. -/
theorem ofChange_tells {deployed generated : Template} (deployedFormed : deployed.WellFormed)
    (generatedFormed : generated.WellFormed)
    (member : change ∈ deployed.resourceChanges generated) (modified : change.kind = .modified)
    (listed : ResourceKind.swappable? change.type = some allowed)
    (blocked : ofChange scope change = .ok (.blocked blocker)) :
    ∃ old new, deployed.resource? change.logicalId = some old ∧
      generated.resource? change.logicalId = some new ∧
      blocker.reason ∈ [.tagsOnly, .nonHotswappableProperties, .physicalNameUnknown] ∧
      (old.Told new allowed (ResourceKind.lasting change.type) blocker.reason ↔
        ¬ old.MixesTags new allowed) ∧
      (old.MixesTags new allowed → blocker.reason = .tagsOnly) := by
  obtain ⟨old, new, modifies⟩ := ResourceChange.modifies_of_mem member modified
  have compares := modifies.compares deployedFormed generatedFormed
  have blocks := ofChange_blocks compares (counts_of_blocked modified blocked) listed blocked
  refine ⟨old, new, modifies.deployed, modifies.generated, ?_, ?_⟩
  · generalize blocker.reason = reason at blocks
    cases blocks <;> simp
  · exact blocks.told_iff compares (ResourceKind.lasting_subset listed)
      (ResourceKind.tags_notMem listed)

/-- The template with one resource of a type. -/
def reasoned (type : String) (properties : List (String × Json)) : Template :=
  .ofResource "Worker" type properties

theorem reasoned_wellFormed (type : String) {properties : List (String × Json)}
    (formed : ∀ property ∈ properties, property.2.WellFormed) :
    (reasoned type properties).WellFormed :=
  Template.wellFormed_ofResource formed

/-- A project gets a new source and loses its source version, which no update can take away. -/
theorem ofChange_tells_lost :
    let deployed := reasoned "AWS::CodeBuild::Project"
      [("Source", .str "old"), ("SourceVersion", .str "v1")]
    let generated := reasoned "AWS::CodeBuild::Project" [("Source", .str "new")]
    deployed.WellFormed ∧ generated.WellFormed ∧
      ∃ change ∈ deployed.resourceChanges generated, change.kind = .modified ∧
        ResourceKind.swappable? change.type = some ["Source", "Environment", "SourceVersion"] ∧
        ∃ blocker, ∃ old new : Resource, ofChange default change = .ok (.blocked blocker) ∧
          blocker.reason = .nonHotswappableProperties ∧ blocker.rejected = ["SourceVersion"] ∧
          old.Loses new (ResourceKind.lasting change.type) ∧
          old.Told new ["Source", "Environment", "SourceVersion"]
            (ResourceKind.lasting change.type) blocker.reason := by
  intro deployed generated
  have deployedFormed : deployed.WellFormed := reasoned_wellFormed _ (by simp [Json.WellFormed])
  have generatedFormed : generated.WellFormed := reasoned_wellFormed _ (by simp [Json.WellFormed])
  obtain ⟨change, blocker, only, named, modified, type, blocked, reason, rejected⟩ :
      ∃ change blocker, deployed.resourceChanges generated = [change] ∧
        change.logicalId = "Worker" ∧ change.kind = .modified ∧
        change.type = "AWS::CodeBuild::Project" ∧
        ofChange default change = .ok (.blocked blocker) ∧
        blocker.reason = .nonHotswappableProperties ∧ blocker.rejected = ["SourceVersion"] :=
    ⟨_, _, rfl, rfl, rfl, rfl, rfl, rfl, rfl⟩
  have member : change ∈ deployed.resourceChanges generated :=
    only ▸ List.mem_singleton_self change
  have listed : ResourceKind.swappable? change.type =
      some ["Source", "Environment", "SourceVersion"] := by
    rw [type]
    rfl
  obtain ⟨old, new, inDeployed, inGenerated, _, told, _⟩ :=
    ofChange_tells deployedFormed generatedFormed member modified listed blocked
  rw [named] at inDeployed inGenerated
  cases Option.some.inj inDeployed
  cases Option.some.inj inGenerated
  refine ⟨deployedFormed, generatedFormed, change, member, modified, listed, blocker, _, _, blocked,
    reason, rejected, ?_, told.mpr ?_⟩
  · rw [type]
    exact ⟨"SourceVersion", by simp [ResourceKind.lasting], rfl, rfl⟩
  · rintro ⟨tags, _⟩
    cases tags

/-- A function gets a new description and tags. The reason says that only the tags changed. -/
theorem ofChange_tells_of_tags :
    let deployed := reasoned "AWS::Lambda::Function" [("Description", .str "old")]
    let generated := reasoned "AWS::Lambda::Function"
      [("Description", .str "new"), ("Tags", .arr [])]
    ∃ change ∈ deployed.resourceChanges generated, ∃ blocker, ∃ old new : Resource,
      deployed.resource? change.logicalId = some old ∧
        generated.resource? change.logicalId = some new ∧
        ofChange default change = .ok (.blocked blocker) ∧ blocker.reason = .tagsOnly ∧
        blocker.message = "Tags are not hotswappable" ∧ old.Differs new "Description" ∧
        ¬ old.Told new Function.allowed [] blocker.reason := by
  intro deployed generated
  obtain ⟨change, blocker, old, new, only, inDeployed, inGenerated, blocked, reason, message,
      differs⟩ : ∃ change blocker, ∃ old new : Resource,
        deployed.resourceChanges generated = [change] ∧
        deployed.resource? change.logicalId = some old ∧
        generated.resource? change.logicalId = some new ∧
        ofChange default change = .ok (.blocked blocker) ∧ blocker.reason = .tagsOnly ∧
        blocker.message = "Tags are not hotswappable" ∧ old.Differs new "Description" :=
    ⟨_, _, _, _, rfl, rfl, rfl, rfl, rfl, rfl, rfl⟩
  refine ⟨change, only ▸ List.mem_singleton_self change, blocker, old, new, inDeployed, inGenerated,
    blocked, reason, message, differs, fun told => ?_⟩
  have isTags : "Description" = "Tags" := (told.tagsOnly.mp reason "Description").mp differs
  exact absurd isTags (by decide)

end Verdict

end StackSwap
