import StackSwap.Proofs.Needs

/-! A verdict evaluates something only if all changed properties can be swapped and the resource is
known. An expression for the name without a value stands for the physical ID. -/

namespace StackSwap

namespace Verdict

/-- What the verdict on a change needs. -/
def needs (template : Template) (change : ResourceChange) : List Requirement :=
  match ResourceKind.ofType change.type with
  | .function => Function.needs template change
  | .project => Project.needs change
  | .stateMachine => Machine.needs change
  | _ => []

/-- The expression for the name of the actual resource. -/
def nameExpression (change : ResourceChange) : Option Json :=
  match ResourceKind.ofType change.type with
  | .function => change.newProperty? "FunctionName"
  | .project => change.newProperty? "Name"
  | .stateMachine => (change.newProperty? "StateMachineName").map Machine.arnExpression
  | _ => none

end Verdict

/-- All changed properties can be swapped, and unless the resource is a function none was removed. -/
structure ResourceChange.Swappable (change : ResourceChange) : Prop where
  counts : change.Counts
  allowed : ∃ allowed, ResourceKind.swappable? change.type = some allowed ∧
    ∀ name ∈ change.changedProperties, name ∈ allowed
  kept : ResourceKind.ofType change.type = .function ∨
    ∀ name ∈ change.changedProperties, change.newProperty? name ≠ none

namespace Verdict

variable {scope : Scope} {change : ResourceChange}

theorem allowed_of_swappable {type : String} {allowed : List String} (swappable : change.Swappable)
    (isType : change.type = type) (listed : ResourceKind.swappable? type = some allowed) :
    ∀ name ∈ change.changedProperties, name ∈ allowed := by
  obtain ⟨others, known, all⟩ := swappable.allowed
  rw [isType, listed] at known
  cases known
  exact all

theorem exists_definition (swappable : change.Swappable)
    (kind : ResourceKind.ofType change.type = .stateMachine) :
    ∃ definition, change.newProperty? "DefinitionString" = some definition := by
  have all := allowed_of_swappable swappable (ResourceKind.type_eq kind rfl) rfl
  obtain ⟨name, changed⟩ := ResourceChange.hasPropertyChanges_iff.mp swappable.counts.changed
  rcases swappable.kept with function | kept
  · rw [kind] at function
    cases function
  · rw [List.mem_singleton.mp (all name changed)] at changed
    exact Option.ne_none_iff_exists'.mp (kept _ changed)

/-- A change that can be swapped, with a known name, has a verdict if all its needs are met. -/
theorem ofChange_dependsOn (swappable : change.Swappable) {name : String}
    (named : scope.physicalName change.logicalId (nameExpression change) = .ok (some name)) :
    DependsOn scope (needs scope.template change) (ofChange scope change) := by
  have counts := swappable.counts
  rw [ofChange_modified scope counts.modified counts.changed counts.type]
  cases kind : ResourceKind.ofType change.type with
  | function =>
    simp only [nameExpression, kind] at named
    simp only [needs, ofModified, kind]
    exact ofFunction_dependsOn
      (allowed_of_swappable swappable (ResourceKind.type_eq kind rfl) rfl) named
  | project =>
    simp only [nameExpression, kind] at named
    simp only [needs, ofModified, kind]
    have kept := swappable.kept.resolve_left (by simp [kind])
    exact ofProject_dependsOn
      (allowed_of_swappable swappable (ResourceKind.type_eq kind rfl) rfl) kept named
  | stateMachine =>
    simp only [nameExpression, kind] at named
    simp only [needs, ofModified, kind]
    obtain ⟨definition, present⟩ := exists_definition swappable kind
    exact ofMachine_dependsOn
      (allowed_of_swappable swappable (ResourceKind.type_eq kind rfl) rfl) present named
  | aliasOfFunction =>
    simp only [needs, ofModified, kind, ofAlias]
    rw [ifAllowed_of_allowed
      (allowed_of_swappable swappable (ResourceKind.type_eq kind rfl) rfl)]
    exact .of_ok _
  | version =>
    simp only [needs, ofModified, kind]
    exact .of_ok _
  | nestedStack | toolkitMetadata | other =>
    simp only [needs, ofModified, kind]
    exact .of_ok _

/-! Names -/

/-- The only error of a name is that its expression leads back to itself. -/
theorem physicalName_eq_error {logicalId : String} {expression : Option Json} {error : EvaluationError}
    (failed : scope.physicalName logicalId expression = .error error) :
    error = .endless ∧ ∃ value, expression = some value ∧ scope.evaluate value = .error .endless := by
  unfold Scope.physicalName at failed
  split at failed
  · cases failed
  · rename_i evaluated
    cases failed
    cases expression with
    | none => cases evaluated
    | some value => exact ⟨rfl, value, rfl, Option.some.inj evaluated⟩
  · cases failed

theorem physicalName_of_endless {logicalId : String} {value : Json}
    (endless : scope.evaluate value = .error .endless) :
    scope.physicalName logicalId (some value) = .error .endless := by
  simp [Scope.physicalName, endless]

theorem ifAllowed_eq_error {allowed : List String} {proceed : List String → Evaluated Verdict}
    {error : EvaluationError} (failed : ifAllowed change allowed proceed = .error error) :
    (∀ name ∈ change.changedProperties, name ∈ allowed) ∧
      proceed change.changedProperties = .error error := by
  by_cases allAllowed : rejected change allowed = []
  · have all := rejected_eq_nil_iff.mp allAllowed
    exact ⟨all, (ifAllowed_of_allowed all).symm.trans failed⟩
  · obtain ⟨name, outside⟩ := List.exists_mem_of_ne_nil _ allAllowed
    obtain ⟨reason, blocked⟩ := ifAllowed_of_mem_rejected outside proceed
    rw [blocked] at failed
    cases failed

/-- Why there is no verdict on a change. -/
inductive Fails (scope : Scope) (change : ResourceChange) : EvaluationError → Prop where
  /-- something that it needs has no value -/
  | unmet {name : String} {need : Requirement} {error : EvaluationError}
    (swappable : change.Swappable)
    (named : scope.physicalName change.logicalId (nameExpression change) = .ok (some name))
    (needed : need ∈ needs scope.template change) (failed : need.check scope = .error error) :
    Fails scope change error
  /-- the name of its resource leads back to itself -/
  | endless {value : Json} (swappable : change.Swappable) (named : nameExpression change = some value)
    (endless : scope.evaluate value = .error .endless) : Fails scope change .endless

theorem swappable_of_error {error : EvaluationError} (failed : ofChange scope change = .error error) :
    change.Swappable := by
  have counts : change.Counts := by
    unfold ofChange at failed
    split at failed
    · cases failed
    · rename_i counts
      split at failed
      · cases failed
      · cases failed
      · rename_i modified
        split at failed
        · rename_i changed
          exact ⟨modified, changed, counts⟩
        · cases failed
  rw [ofChange_modified scope counts.modified counts.changed counts.type] at failed
  cases kind : ResourceKind.ofType change.type with
  | function =>
    simp only [ofModified, kind] at failed
    have all := (ifAllowed_eq_error failed).1
    refine ⟨counts, ⟨Function.allowed, ?_, all⟩, .inl kind⟩
    rw [ResourceKind.type_eq kind rfl]
    rfl
  | project =>
    simp only [ofModified, kind] at failed
    obtain ⟨all, later⟩ := ifAllowed_eq_error failed
    refine ⟨counts, ⟨Project.allowed, ?_, all⟩, .inr ?_⟩
    · rw [ResourceKind.type_eq kind rfl]
      rfl
    · dsimp only at later
      split at later
      · cases later
      · rename_i noneRemoved
        simpa [Option.ne_none_iff_isSome] using noneRemoved
  | stateMachine =>
    simp only [ofModified, kind] at failed
    obtain ⟨all, later⟩ := ifAllowed_eq_error failed
    refine ⟨counts, ⟨["DefinitionString"], ?_, all⟩, .inr (fun name changed => ?_)⟩
    · rw [ResourceKind.type_eq kind rfl]
      rfl
    · split at later
      · cases later
      · rename_i definition present
        rw [List.mem_singleton.mp (all name changed), present]
        exact Option.some_ne_none _
  | aliasOfFunction =>
    simp only [ofModified, kind] at failed
    cases (ifAllowed_eq_error failed).2
  | version | nestedStack | toolkitMetadata | other =>
    simp only [ofModified, kind] at failed
    cases failed

/-- A verdict on a change that can be swapped begins with the name of its resource, if it has one. -/
theorem ofChange_eq_bind (scope : Scope) (swappable : change.Swappable) :
    (nameExpression change = none ∧ ∃ verdict, ofChange scope change = .ok verdict) ∨
      ∃ next verdict, next none = .ok verdict ∧ ofChange scope change =
        scope.physicalName change.logicalId (nameExpression change) >>= next := by
  have counts := swappable.counts
  rw [ofChange_modified scope counts.modified counts.changed counts.type]
  cases kind : ResourceKind.ofType change.type with
  | function =>
    have all : ∀ name ∈ change.changedProperties, name ∈ Function.allowed :=
      allowed_of_swappable swappable (ResourceKind.type_eq kind rfl) rfl
    simp only [nameExpression, ofModified, kind, ofFunction]
    rw [ifAllowed_of_allowed all]
    exact .inr ⟨_, _, rfl, rfl⟩
  | project =>
    have kept := swappable.kept.resolve_left (by simp [kind])
    have noneRemoved : change.changedProperties.filter
        (fun property => (change.newProperty? property).isNone) = [] := by
      simpa [Option.ne_none_iff_isSome] using kept
    have all : ∀ name ∈ change.changedProperties, name ∈ Project.allowed :=
      allowed_of_swappable swappable (ResourceKind.type_eq kind rfl) rfl
    simp only [nameExpression, ofModified, kind, ofProject]
    rw [ifAllowed_of_allowed all]
    simp only [noneRemoved, List.isEmpty_nil, not_true_eq_false, ↓reduceIte]
    exact .inr ⟨_, _, rfl, rfl⟩
  | stateMachine =>
    obtain ⟨definition, present⟩ := exists_definition swappable kind
    simp only [nameExpression, ofModified, kind, ofMachine]
    rw [ifAllowed_of_allowed (allowed_of_swappable swappable (ResourceKind.type_eq kind rfl) rfl),
      present]
    exact .inr ⟨_, _, rfl, rfl⟩
  | aliasOfFunction =>
    simp only [nameExpression, ofModified, kind, ofAlias]
    rw [ifAllowed_of_allowed (allowed_of_swappable swappable (ResourceKind.type_eq kind rfl) rfl)]
    exact .inl ⟨trivial, _, rfl⟩
  | version | nestedStack | toolkitMetadata | other =>
    simp only [nameExpression, ofModified, kind]
    exact .inl ⟨trivial, _, rfl⟩

theorem fails_of_ofChange {error : EvaluationError} (failed : ofChange scope change = .error error) :
    Fails scope change error := by
  have swappable := swappable_of_error failed
  rcases ofChange_eq_bind scope swappable with ⟨_, verdict, answered⟩ | ⟨next, verdict, unnamed, same⟩
  · rw [answered] at failed
    cases failed
  · rcases bind_eq_error_iff.mp (same ▸ failed) with noName | ⟨found, named, later⟩
    · obtain ⟨rfl, value, isValue, endless⟩ := physicalName_eq_error noName
      exact .endless swappable isValue endless
    · cases found with
      | none =>
        rw [unnamed] at later
        cases later
      | some name =>
        obtain ⟨need, needed, unmet⟩ := (ofChange_dependsOn swappable named).unmet error failed
        exact .unmet swappable named needed unmet

theorem Fails.no_verdict {error : EvaluationError} (fails : Fails scope change error)
    (verdict : Verdict) : ofChange scope change ≠ .ok verdict := by
  intro answered
  cases fails with
  | unmet swappable named needed failed =>
    rw [(ofChange_dependsOn swappable named).met verdict answered _ needed] at failed
    cases failed
  | endless swappable named endless =>
    rcases ofChange_eq_bind scope swappable with ⟨unnamed, _⟩ | ⟨next, _, _, same⟩
    · rw [named] at unnamed
      cases unnamed
    · rw [named, physicalName_of_endless endless] at same
      rw [same] at answered
      cases answered

end Verdict

end StackSwap
