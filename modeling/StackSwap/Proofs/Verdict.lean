import StackSwap.Verdict.Resource
import StackSwap.Proofs.Template

namespace StackSwap

namespace ResourceKind

/-- The properties that can be swapped, for the types with a list of them. -/
def swappable? (type : String) : Option (List String) :=
  match type with
  | "AWS::Lambda::Function" => some ["Code", "Environment", "Description"]
  | "AWS::Lambda::Alias" => some ["FunctionVersion"]
  | "AWS::CodeBuild::Project" => some ["Source", "Environment", "SourceVersion"]
  | "AWS::StepFunctions::StateMachine" => some ["DefinitionString"]
  | _ => none

theorem swappable?_or_ofType (type : String) :
    type = "AWS::Lambda::Version" ∨ (∃ allowed, swappable? type = some allowed) ∨
      (ofType type = .nestedStack ∨ ofType type = .other) ∨ ofType type = .toolkitMetadata := by
  unfold ofType
  split
  · exact .inr (.inl ⟨_, rfl⟩)
  · exact .inl rfl
  · exact .inr (.inl ⟨_, rfl⟩)
  · exact .inr (.inl ⟨_, rfl⟩)
  · exact .inr (.inl ⟨_, rfl⟩)
  · exact .inr (.inr (.inl (.inl rfl)))
  · exact .inr (.inr (.inr rfl))
  · exact .inr (.inr (.inl (.inr rfl)))

/-- The one type of a kind, unless the kind gathers all others. -/
def typeName? : ResourceKind → Option String
  | .function => some "AWS::Lambda::Function"
  | .version => some "AWS::Lambda::Version"
  | .aliasOfFunction => some "AWS::Lambda::Alias"
  | .project => some "AWS::CodeBuild::Project"
  | .stateMachine => some "AWS::StepFunctions::StateMachine"
  | .nestedStack => some nestedStackType
  | .toolkitMetadata => some "AWS::CDK::Metadata"
  | .other => none

theorem typeName?_ofType (type : String) :
    (ofType type).typeName? = none ∨ (ofType type).typeName? = some type := by
  unfold ofType
  split <;> simp [typeName?, nestedStackType]

theorem type_eq {type name : String} {kind : ResourceKind} (same : ofType type = kind)
    (known : kind.typeName? = some name) : type = name := by
  rcases typeName?_ofType type with none | own
  · rw [same, known] at none
    cases none
  · rw [same, known] at own
    exact (Option.some.inj own).symm

end ResourceKind

namespace Verdict

/-- The changed properties outside a list. -/
def rejected (change : ResourceChange) (allowed : List String) : List String :=
  change.changedProperties.filter (fun name => !allowed.contains name)

theorem mem_rejected {change : ResourceChange} {allowed : List String} {name : String} :
    name ∈ rejected change allowed ↔ name ∉ allowed ∧ name ∈ change.changedProperties := by
  simp [rejected, and_comm]

theorem rejected_pairwise (change : ResourceChange) (allowed : List String) :
    (rejected change allowed).Pairwise (· < ·) :=
  change.changedProperties_pairwise.filter _

/-- A changed property outside the list blocks the change. -/
theorem ifAllowed_of_mem_rejected {change : ResourceChange} {allowed : List String} {name : String}
    (outside : name ∈ rejected change allowed) (proceed : List String → Evaluated Verdict) :
    ∃ reason, ifAllowed change allowed proceed = .ok (block change reason (rejected change allowed)) := by
  have nonempty : (rejected change allowed).isEmpty = false :=
    List.isEmpty_eq_false_iff.mpr (List.ne_nil_of_mem outside)
  simp only [rejected] at nonempty
  simp only [ifAllowed, rejected, nonempty, Bool.false_eq_true, ↓reduceIte]
  split
  · exact ⟨_, rfl⟩
  · exact ⟨_, rfl⟩

/-- For the types with a list the verdict begins with a look at the list. -/
theorem ofModified_eq_ifAllowed {change : ResourceChange} {allowed : List String}
    (listed : ResourceKind.swappable? change.type = some allowed) (scope : Scope) :
    ∃ proceed, ofModified scope change = ifAllowed change allowed proceed := by
  unfold ResourceKind.swappable? at listed
  split at listed
  case h_5 => cases listed
  all_goals
    rename_i type
    cases Option.some.inj listed
    simp only [ofModified, type]
    exact ⟨_, rfl⟩

theorem ofChange_modified {change : ResourceChange} (scope : Scope)
    (modified : change.kind = .modified) (changed : change.hasPropertyChanges = true)
    (counts : ResourceKind.ofType change.type ≠ .toolkitMetadata) :
    ofChange scope change = ofModified scope change := by
  simp [ofChange, counts, modified, changed]

/-- A changed property outside the list of its type blocks the change, whatever else would have to
be evaluated for it. -/
theorem ofChange_of_mem_rejected {change : ResourceChange} {allowed : List String} {name : String}
    (scope : Scope) (modified : change.kind = .modified)
    (listed : ResourceKind.swappable? change.type = some allowed)
    (outside : name ∈ rejected change allowed) :
    ∃ reason, ofChange scope change = .ok (block change reason (rejected change allowed)) := by
  have changed : change.hasPropertyChanges = true :=
    ResourceChange.hasPropertyChanges_iff.mpr ⟨name, (mem_rejected.mp outside).2⟩
  have counts : ResourceKind.ofType change.type ≠ .toolkitMetadata := by
    intro metadata
    unfold ResourceKind.swappable? at listed
    split at listed <;> simp_all [ResourceKind.ofType]
  obtain ⟨proceed, look⟩ := ofModified_eq_ifAllowed listed scope
  rw [ofChange_modified scope modified changed counts, look]
  exact ifAllowed_of_mem_rejected outside _

theorem type_of_swap {change : ResourceChange} {scope : Scope} {swap : Swap}
    (modified : change.kind = .modified) (swapped : ofChange scope change = .ok (.swap swap)) :
    change.type = "AWS::Lambda::Version" ∨ ∃ allowed, ResourceKind.swappable? change.type = some allowed := by
  rcases ResourceKind.swappable?_or_ofType change.type with version | listed | refused | metadata
  · exact .inl version
  · exact .inr listed
  · simp only [ofChange, modified] at swapped
    split at swapped
    · cases swapped
    · split at swapped
      · simp only [ofModified] at swapped
        rcases refused with nested | other
        · rw [nested] at swapped
          cases swapped
        · rw [other] at swapped
          cases swapped
      · cases swapped
  · simp only [ofChange, metadata, ↓reduceIte] at swapped
    cases swapped

/-- A swapped modification has one of five types, and for all of them but versions the templates
agree on every property outside the list of the type. If they do not, exactly the others that differ
are rejected, in ascending order. -/
theorem ofChange_modified_safe {deployed generated : Template} (deployedFormed : deployed.WellFormed)
    (generatedFormed : generated.WellFormed) (scope : Scope) {change : ResourceChange}
    (member : change ∈ deployed.resourceChanges generated) (modified : change.kind = .modified) :
    ∃ old new, deployed.resource? change.logicalId = some old ∧
      generated.resource? change.logicalId = some new ∧
      (∀ swap, ofChange scope change = .ok (.swap swap) →
        change.type = "AWS::Lambda::Version" ∨
          ∃ allowed, ResourceKind.swappable? change.type = some allowed ∧
            ∀ name, name ∉ allowed → (old.property? name == new.property? name) = true) ∧
      (∀ allowed, ResourceKind.swappable? change.type = some allowed →
        (∃ name, name ∉ allowed ∧ (old.property? name == new.property? name) = false) →
          ∃ blocker, ofChange scope change = .ok (.blocked blocker) ∧
            blocker.rejected.Pairwise (· < ·) ∧
            ∀ name, name ∈ blocker.rejected ↔
              name ∉ allowed ∧ (old.property? name == new.property? name) = false) := by
  obtain ⟨old, new, modifies⟩ := ResourceChange.modifies_of_mem member modified
  have differs {name : String} : name ∈ change.changedProperties ↔
      (old.property? name == new.property? name) = false :=
    modifies.mem_changedProperties deployedFormed generatedFormed
  refine ⟨old, new, modifies.deployed, modifies.generated, ?_, ?_⟩
  · intro swap swapped
    rcases type_of_swap modified swapped with version | ⟨allowed, listed⟩
    · exact .inl version
    · refine .inr ⟨allowed, listed, fun name outside => ?_⟩
      by_contra different
      have inRejected := mem_rejected.mpr ⟨outside, differs.mpr (Bool.eq_false_iff.mpr different)⟩
      obtain ⟨reason, blocked⟩ := ofChange_of_mem_rejected scope modified listed inRejected
      rw [blocked] at swapped
      cases swapped
  · rintro allowed listed ⟨name, outside, different⟩
    have inRejected := mem_rejected.mpr ⟨outside, differs.mpr different⟩
    obtain ⟨reason, blocked⟩ := ofChange_of_mem_rejected scope modified listed inRejected
    refine ⟨_, blocked, rejected_pairwise change allowed, fun name => ?_⟩
    exact mem_rejected.trans (and_congr_right fun _ => differs)

/-- A template with one function. -/
def functionTemplate (code : Json) (timeout : Int) : Template :=
  .ofResource "Handler" "AWS::Lambda::Function" [("Code", code), ("Timeout", .num (.int timeout))]

theorem functionTemplate_wellFormed (code : Json) (formed : code.WellFormed) (timeout : Int) :
    (functionTemplate code timeout).WellFormed :=
  Template.wellFormed_ofResource (by simp [formed, Json.WellFormed])

/-- A function whose new code refers to nothing is still blocked for its new timeout. -/
theorem ofChange_modified_safe_timeout :
    let deployed := functionTemplate (.str "archive") 3
    let generated := functionTemplate (.obj [("Ref", .str "Nowhere")]) 30
    deployed.WellFormed ∧ generated.WellFormed ∧
      ∃ change ∈ deployed.resourceChanges generated, change.kind = .modified ∧
        ResourceKind.swappable? change.type = some ["Code", "Environment", "Description"] ∧
        ∃ blocker, ofChange default change = .ok (.blocked blocker) ∧
          "Timeout" ∈ blocker.rejected ∧ "Code" ∉ blocker.rejected := by
  intro deployed generated
  have deployedFormed : deployed.WellFormed :=
    functionTemplate_wellFormed (.str "archive") trivial 3
  have nowhere : (Json.obj [("Ref", .str "Nowhere")]).WellFormed := by
    simp [Entries.Sorted, Json.WellFormed, Json.WellFormedFields]
  have generatedFormed : generated.WellFormed := functionTemplate_wellFormed _ nowhere 30
  have listed : ∃ change, deployed.resourceChanges generated = [change] ∧
      change.logicalId = "Handler" ∧ change.kind = .modified ∧
      change.type = "AWS::Lambda::Function" := ⟨_, rfl, rfl, rfl, rfl⟩
  obtain ⟨change, only, named, modified, type⟩ := listed
  have member : change ∈ deployed.resourceChanges generated :=
    only ▸ List.mem_singleton_self change
  have swappable : ResourceKind.swappable? change.type = some ["Code", "Environment", "Description"] := by
    rw [type]
    rfl
  obtain ⟨old, new, inDeployed, inGenerated, _, blocks⟩ :=
    ofChange_modified_safe deployedFormed generatedFormed default member modified
  rw [named] at inDeployed inGenerated
  cases Option.some.inj inDeployed
  cases Option.some.inj inGenerated
  obtain ⟨blocker, blocked, _, exactly⟩ := blocks _ swappable ⟨"Timeout", by decide, rfl⟩
  refine ⟨deployedFormed, generatedFormed, change, member, modified, swappable, blocker, blocked,
    (exactly _).mpr ⟨by decide, rfl⟩, fun inside => ?_⟩
  exact ((exactly _).mp inside).1 (by decide)

end Verdict

end StackSwap
