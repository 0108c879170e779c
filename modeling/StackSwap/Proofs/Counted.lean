import StackSwap.Proofs.Verdict

namespace StackSwap

namespace ResourceChange

/-- A property changed, and the resource is no metadata of the toolkit. -/
structure Counts (change : ResourceChange) : Prop where
  modified : change.kind = .modified
  changed : change.hasPropertyChanges = true
  type : ResourceKind.ofType change.type ≠ .toolkitMetadata

/-- The change has nothing to apply: it is that of a version, or of an alias of which only the
version it refers to changed. -/
def FollowsFunction (change : ResourceChange) : Prop :=
  change.type = "AWS::Lambda::Version" ∨
    change.type = "AWS::Lambda::Alias" ∧ ∀ name ∈ change.changedProperties, name = "FunctionVersion"

end ResourceChange

namespace Verdict

/-- The answers to a modification that counts. -/
inductive Answers (change : ResourceChange) : Verdict → Prop where
  | blocked (reason : Reason) (rejected : List String) :
    Answers change (block change reason rejected)
  | follows (service : Service) (follows : change.FollowsFunction) :
    Answers change (idle change service)
  | applied (swap : Swap) (logicalId : swap.logicalId = change.logicalId)
    (type : swap.type = change.type) (operations : swap.operations ≠ []) :
    Answers change (.swap swap)

theorem rejected_eq_nil_iff {change : ResourceChange} {allowed : List String} :
    rejected change allowed = [] ↔ ∀ name ∈ change.changedProperties, name ∈ allowed := by
  simp [rejected]

/-- Either some changed property is rejected, or all are allowed and decide what follows. -/
theorem ifAllowed_eq_ok {change : ResourceChange} {allowed : List String}
    {proceed : List String → Evaluated Verdict} {verdict : Verdict}
    (answered : ifAllowed change allowed proceed = .ok verdict) :
    (∃ reason, verdict = block change reason (rejected change allowed)) ∨
      (∀ name ∈ change.changedProperties, name ∈ allowed) ∧
        proceed change.changedProperties = .ok verdict := by
  by_cases allAllowed : rejected change allowed = []
  · refine .inr ⟨rejected_eq_nil_iff.mp allAllowed, ?_⟩
    simp only [rejected] at allAllowed
    simpa only [ifAllowed, allAllowed, List.isEmpty_nil, ↓reduceIte] using answered
  · obtain ⟨name, outside⟩ := List.exists_mem_of_ne_nil _ allAllowed
    obtain ⟨reason, blocked⟩ := ifAllowed_of_mem_rejected outside proceed
    rw [blocked] at answered
    cases answered
    exact .inl ⟨reason, rfl⟩

/-- Every changed property of a function leads to an operation. -/
theorem Function.updates_ne_nil {scope : Scope} {change : ResourceChange} {functionName : String}
    {changed : List String} {operations : List Operation}
    (updated : Function.updates scope change functionName changed = .ok operations)
    (listed : ∃ name ∈ changed, name ∈ Function.allowed) : operations ≠ [] := by
  obtain ⟨name, inChanged, listed⟩ := listed
  by_cases code : changed.contains "Code" = true
  · simp only [Function.updates, code, ↓reduceIte, pure_bind, bind_eq_ok_iff] at updated
    obtain ⟨update, _, updated⟩ := updated
    split at updated
    · obtain ⟨configuration, _, same⟩ := bind_eq_ok_iff.mp updated
      cases same
      exact List.cons_ne_nil _ _
    · cases updated
      exact List.cons_ne_nil _ _
  · have other : name = "Description" ∨ name = "Environment" := by
      have notCode : name ≠ "Code" := by
        rintro rfl
        exact code (List.contains_iff_mem.mpr inChanged)
      simpa [Function.allowed, notCode, or_comm] using listed
    have needed : (changed.contains "Description" || changed.contains "Environment") = true := by
      rcases other with rfl | rfl <;> simp [inChanged]
    simp only [Function.updates, code, needed, ↓reduceIte, Bool.false_eq_true, pure_bind,
      bind_eq_ok_iff] at updated
    obtain ⟨update, _, same⟩ := updated
    cases same
    simp

theorem ofFunction_answers {scope : Scope} {change : ResourceChange} {verdict : Verdict}
    (counts : change.Counts) (answered : ofFunction scope change = .ok verdict) :
    Answers change verdict := by
  rcases ifAllowed_eq_ok answered with ⟨reason, rfl⟩ | ⟨allowed, answered⟩
  · exact .blocked reason _
  simp only [bind_eq_ok_iff] at answered
  obtain ⟨name, _, answered⟩ := answered
  cases name with
  | none =>
    cases answered
    exact .blocked .physicalNameUnknown []
  | some functionName =>
    simp only [bind_eq_ok_iff] at answered
    obtain ⟨operations, updated, ⟨names, publication⟩, _, same⟩ := answered
    cases same
    refine .applied _ rfl rfl (fun nothing => ?_)
    obtain ⟨name, changed⟩ := ResourceChange.hasPropertyChanges_iff.mp counts.changed
    exact Function.updates_ne_nil updated ⟨name, changed, allowed name changed⟩
      (List.append_eq_nil_iff.mp nothing).1

theorem ofAlias_answers {change : ResourceChange} {verdict : Verdict}
    (type : change.type = "AWS::Lambda::Alias") (answered : ofAlias change = .ok verdict) :
    Answers change verdict := by
  rcases ifAllowed_eq_ok answered with ⟨reason, rfl⟩ | ⟨allowed, answered⟩
  · exact .blocked reason _
  · cases answered
    exact .follows .lambda (.inr ⟨type, fun name changed => by simpa using allowed name changed⟩)

theorem ofProject_answers {scope : Scope} {change : ResourceChange} {verdict : Verdict}
    (answered : ofProject scope change = .ok verdict) : Answers change verdict := by
  rcases ifAllowed_eq_ok answered with ⟨reason, rfl⟩ | ⟨_, answered⟩
  · exact .blocked reason _
  dsimp only at answered
  split at answered
  · cases answered
    exact .blocked .nonHotswappableProperties _
  · simp only [bind_eq_ok_iff] at answered
    obtain ⟨name, _, answered⟩ := answered
    cases name with
    | none =>
      cases answered
      exact .blocked .physicalNameUnknown []
    | some name =>
      simp only [bind_eq_ok_iff] at answered
      obtain ⟨update, _, same⟩ := answered
      cases same
      exact .applied _ rfl rfl (List.cons_ne_nil _ _)

theorem ofMachine_answers {scope : Scope} {change : ResourceChange} {verdict : Verdict}
    (answered : ofMachine scope change = .ok verdict) : Answers change verdict := by
  rcases ifAllowed_eq_ok answered with ⟨reason, rfl⟩ | ⟨_, answered⟩
  · exact .blocked reason _
  split at answered
  · cases answered
    exact .blocked .nonHotswappableProperties _
  · simp only [bind_eq_ok_iff] at answered
    obtain ⟨name, _, answered⟩ := answered
    cases name with
    | none =>
      cases answered
      exact .blocked .physicalNameUnknown []
    | some arn =>
      simp only [bind_eq_ok_iff] at answered
      obtain ⟨definition, _, same⟩ := answered
      cases same
      exact .applied _ rfl rfl (List.cons_ne_nil _ _)

theorem ofChange_answers {scope : Scope} {change : ResourceChange} {verdict : Verdict}
    (counts : change.Counts) (answered : ofChange scope change = .ok verdict) :
    Answers change verdict := by
  rw [ofChange_modified scope counts.modified counts.changed counts.type, ofModified] at answered
  split at answered
  · exact ofFunction_answers counts answered
  · rename_i version
    cases answered
    exact .follows .lambda (.inl (ResourceKind.type_eq version rfl))
  · rename_i named
    exact ofAlias_answers (ResourceKind.type_eq named rfl) answered
  · exact ofProject_answers answered
  · exact ofMachine_answers answered
  all_goals
    cases answered
    exact .blocked .unsupportedResourceType []

end Verdict

end StackSwap
