import StackSwap.Proofs.Assessment

namespace StackSwap

namespace Assessment

/-- Some swap or blocker is about the resource. -/
def Mentions (assessment : Assessment) (logicalId type : String) : Prop :=
  (∃ swap ∈ assessment.swaps, swap.logicalId = logicalId ∧ swap.type = type) ∨
    ∃ blocker ∈ assessment.blockers, blocker.logicalId = logicalId ∧ blocker.type = type

theorem mentions_ofVerdict {change : ResourceChange} {verdict : Verdict}
    (answers : verdict.Answers change) :
    (ofVerdict verdict).Mentions change.logicalId change.type := by
  cases answers with
  | blocked reason rejected => exact .inr ⟨_, List.mem_singleton_self _, rfl, rfl⟩
  | follows service _ => exact .inl ⟨_, List.mem_singleton_self _, rfl, rfl⟩
  | applied swap logicalId type _ => exact .inl ⟨swap, List.mem_singleton_self _, logicalId, type⟩

theorem Mentions.mono {part whole : Assessment} {logicalId type : String}
    (mentions : part.Mentions logicalId type) (within : part.Within whole) :
    whole.Mentions logicalId type := by
  rcases mentions with ⟨swap, inside, same⟩ | ⟨blocker, inside, same⟩
  · exact .inl ⟨swap, within.swaps.subset inside, same⟩
  · exact .inr ⟨blocker, within.blockers.subset inside, same⟩

theorem operationCount_eq_zero_iff {assessment : Assessment} :
    assessment.operationCount = 0 ↔ ∀ swap ∈ assessment.swaps, swap.operations = [] := by
  rw [operationCount, List.length_eq_zero_iff, List.flatMap_eq_nil_iff]

end Assessment

namespace Plan

theorem ofScope_eq_ok {scope : Scope} {mode : Mode} {plan : Plan}
    (planned : ofScope scope mode = .ok plan) :
    scope.assess = .ok plan.assessment ∧ plan.mode = mode := by
  obtain ⟨assessment, assessed, same⟩ := bind_eq_ok_iff.mp planned
  cases same
  refine ⟨?_, rfl⟩
  cases found : scope.assess with
  | error error => simp [found, Outcome.ofEvaluated] at assessed
  | ok value => simpa [found, Outcome.ofEvaluated] using assessed

theorem requiresFullDeployment_iff {plan : Plan} :
    plan.requiresFullDeployment = true ↔ plan.mode = .fallBack ∧ plan.assessment.blockers ≠ [] := by
  simp [requiresFullDeployment]

theorem isNoOp_iff {plan : Plan} :
    plan.isNoOp = true ↔ ∀ swap ∈ plan.assessment.swaps, swap.operations = [] := by
  simp [isNoOp, Assessment.operationCount_eq_zero_iff]

end Plan

namespace Scope

/-- What stands for a change of a level in the assessment. -/
inductive Accounts (level : Scope) (change : ResourceChange) : Assessment → Prop where
  /-- the verdict on it -/
  | judged {verdict : Verdict} (member : change ∈ level.judged)
    (answered : Verdict.ofChange level change = .ok verdict) (answers : verdict.Answers change) :
    Accounts level change (.ofVerdict verdict)
  /-- a blocker in place of a nested stack that cannot be entered -/
  | stopped (reason : Reason) (nested : change.type = ResourceKind.nestedStackType) :
    Accounts level change (.ofBlocker { logicalId := change.logicalId, type := change.type, reason })
  /-- all that is in the nested stack -/
  | entered {child : Scope} {inner : Assessment} (nested : change.type = ResourceKind.nestedStackType)
    (enters : level.Enters change.logicalId child) (assessed : child.assess = .ok inner) :
    Accounts level change inner

theorem Accounts.mentions {level : Scope} {change : ResourceChange} {entry : Assessment}
    (accounts : level.Accounts change entry) :
    entry.Mentions change.logicalId change.type ∨
      change.type = ResourceKind.nestedStackType ∧
        ∃ child, level.Enters change.logicalId child ∧ child.assess = .ok entry := by
  cases accounts with
  | judged _ _ answers => exact .inl (Assessment.mentions_ofVerdict answers)
  | stopped reason _ => exact .inl (.inr ⟨_, List.mem_singleton_self _, rfl, rfl⟩)
  | entered nested enters assessed => exact .inr ⟨nested, _, enters, assessed⟩

/-- A change that leaves nothing to do follows its function or is that of an entered stack. -/
theorem Accounts.idle {level : Scope} {change : ResourceChange} {entry : Assessment}
    (accounts : level.Accounts change entry) (unblocked : entry.blockers = [])
    (idle : ∀ swap ∈ entry.swaps, swap.operations = []) :
    change.FollowsFunction ∨ ∃ child, level.Enters change.logicalId child := by
  cases accounts with
  | judged member answered answers =>
    cases answers with
    | blocked reason rejected => cases unblocked
    | follows service follows => exact .inl follows
    | applied swap _ _ operations => exact absurd (idle swap (List.mem_singleton_self _)) operations
  | stopped reason _ => cases unblocked
  | entered _ enters _ => exact .inr ⟨_, enters⟩

theorem mem_nestedInBoth {stack : Stack} {logicalId : String} {old new : Resource}
    (inDeployed : stack.deployed.resource? logicalId = some old)
    (inGenerated : stack.generated.resource? logicalId = some new)
    (oldNested : old.kind = .nestedStack) (newNested : new.kind = .nestedStack) :
    logicalId ∈ stack.nestedInBoth := by
  refine List.mem_map.mpr ⟨(logicalId, new), List.mem_filter.mpr ⟨?_, ?_⟩, rfl⟩
  · exact Entries.mem_of_find? inGenerated
  · simp [Resource.isNestedStack, oldNested, newNested, inDeployed]

theorem accounts_of_counts {level : Scope} {part : Assessment} (assessed : level.assess = .ok part)
    {change : ResourceChange} {old new : Resource} (member : change ∈ level.stack.changes)
    (modifies : change.Modifies level.stack.deployed level.stack.generated old new)
    (counts : change.Counts) : ∃ entry, level.Accounts change entry ∧ entry.Within part := by
  by_cases nested : ResourceKind.ofType change.type = .nestedStack
  · have isModified : Stack.isModifiedNestedStack change = true := by
      simp [Stack.isModifiedNestedStack, counts.modified, nested]
    have inModified : change.logicalId ∈ level.modifiedNested :=
      List.mem_map.mpr ⟨change, List.mem_filter.mpr ⟨member, isModified⟩, rfl⟩
    have both : change.logicalId ∈ level.stack.nestedInBoth :=
      mem_nestedInBoth modifies.deployed modifies.generated
        (by rw [Resource.kind, modifies.oldType, nested])
        (by rw [Resource.kind, modifies.newType, nested])
    have typed : change.type = ResourceKind.nestedStackType := ResourceKind.type_eq nested rfl
    obtain ⟨entry, made, within⟩ := assessNested_within assessed both
    rcases assessNested_eq_ok both made with ⟨child, enters, inner⟩ | stopped
    · exact ⟨entry, .entered typed enters inner, within⟩
    · obtain ⟨reason, rfl⟩ := stopped inModified
      exact ⟨_, .stopped reason typed, typed ▸ within⟩
  · have judged : change ∈ level.judged :=
      List.mem_filter.mpr ⟨member, by simp [Stack.isModifiedNestedStack, nested]⟩
    obtain ⟨verdict, answered, within⟩ := ofChange_within assessed judged
    exact ⟨_, .judged judged answered (Verdict.ofChange_answers counts answered), within⟩

end Scope

namespace Plan

/-- A plan in fall-back mode that has nothing to do has neither a blocker nor an operation. -/
theorem nothing_of_idle {scope : Scope} {plan : Plan} {assessment : Assessment}
    (assessed : scope.assess = .ok assessment) (planned : ofScope scope .fallBack = .ok plan)
    (unblocked : plan.requiresFullDeployment = false) (idle : plan.isNoOp = true) :
    assessment.blockers = [] ∧ ∀ swap ∈ assessment.swaps, swap.operations = [] := by
  obtain ⟨same, mode⟩ := ofScope_eq_ok planned
  rw [assessed] at same
  cases Except.ok.inj same
  refine ⟨?_, isNoOp_iff.mp idle⟩
  by_contra blockers
  rw [requiresFullDeployment_iff.mpr ⟨mode, blockers⟩] at unblocked
  cases unblocked

end Plan

namespace Scope

/-- Every resource with a changed property is accounted for in the assessment of the tree, under its
own logical ID and type unless it is a nested stack that is entered. In fall-back mode nothing is
left to do only if the resource is a version, an alias that moves to another version, or such a
nested stack. -/
theorem assess_accounts {scope level : Scope} {assessment : Assessment}
    (assessed : scope.assess = .ok assessment) (reached : scope.Reaches level)
    (deployedFormed : level.stack.deployed.WellFormed)
    (generatedFormed : level.stack.generated.WellFormed) {logicalId : String} {old new : Resource}
    (inDeployed : level.stack.deployed.resource? logicalId = some old)
    (inGenerated : level.stack.generated.resource? logicalId = some new)
    (sameType : old.type = new.type) (noMetadata : new.kind ≠ .toolkitMetadata) {name : String}
    (differs : (old.property? name == new.property? name) = false) :
    (∃ change entry, change.logicalId = logicalId ∧ change.type = new.type ∧
      level.Accounts change entry ∧ entry.Within assessment ∧
      (entry.Mentions logicalId new.type ∨ new.type = ResourceKind.nestedStackType ∧
        ∃ child, level.Enters logicalId child ∧ child.assess = .ok entry)) ∧
    ∀ plan, Plan.ofScope scope .fallBack = .ok plan → plan.requiresFullDeployment = false →
      plan.isNoOp = true →
      (new.type = "AWS::Lambda::Version" ∨
        new.type = "AWS::Lambda::Alias" ∧ ∀ other, other ≠ "FunctionVersion" →
          (old.property? other == new.property? other) = true) ∨
      ∃ child, level.Enters logicalId child := by
  obtain ⟨change, member, rfl, modifies, changed⟩ := ResourceChange.exists_modifies deployedFormed
    generatedFormed inDeployed inGenerated sameType differs
  have counts : change.Counts := ⟨modifies.kind, changed, modifies.newType ▸ noMetadata⟩
  have kept : change ∈ level.stack.changes :=
    ResourceChange.mem_withoutRenames member modifies.kind
  obtain ⟨part, levelAssessed, partWithin⟩ := reached.within assessed
  obtain ⟨entry, accounts, entryWithin⟩ := accounts_of_counts levelAssessed kept modifies counts
  have within := entryWithin.trans partWithin
  rw [modifies.newType]
  refine ⟨⟨change, entry, rfl, rfl, accounts, within, accounts.mentions⟩, ?_⟩
  intro plan planned unblocked idle
  obtain ⟨noBlockers, noOperations⟩ := Plan.nothing_of_idle assessed planned unblocked idle
  have entryUnblocked : entry.blockers = [] := List.infix_nil.mp (noBlockers ▸ within.blockers)
  have entryIdle : ∀ swap ∈ entry.swaps, swap.operations = [] :=
    fun swap inside => noOperations swap (within.swaps.subset inside)
  rcases accounts.idle entryUnblocked entryIdle with (version | ⟨named, only⟩) | entered
  · exact .inl (.inl version)
  · refine .inl (.inr ⟨named, fun property outside => ?_⟩)
    by_contra different
    have inChanged := (modifies.mem_changedProperties deployedFormed generatedFormed).mpr
      (Bool.eq_false_iff.mpr different)
    exact outside (only property inChanged)
  · exact .inr entered

/-- A template with one nested stack. -/
def nestingTemplate (tags : String) : Template :=
  .ofResource "Inner" ResourceKind.nestedStackType
    [("Tags", .str tags), ("TemplateURL", .str "inner.json")]

/-- A deployed stack around another one, each with its deployed and its generated template. -/
def nesting (deployed generated innerDeployed innerGenerated : Template) : Scope where
  stack := {
    name := some "outer"
    deployed, generated
    listing := .ofResources [⟨"Inner", ResourceKind.nestedStackType, "inner"⟩]
    nested := [("Inner", ⟨some "inner", innerDeployed, innerGenerated, .empty, []⟩)] }
  parameters := .empty
  environment := .inPartition "123456789012" "eu-west-1" "aws"
  exports := .empty

/-- A function inside a nested stack gets another timeout. -/
theorem assess_accounts_inner :
    let old := Verdict.functionTemplate (.str "archive") 3
    let new := Verdict.functionTemplate (.str "archive") 30
    let scope := nesting (nestingTemplate "same") (nestingTemplate "same") old new
    ∃ level assessment, scope.Reaches level ∧ scope.assess = .ok assessment ∧
      level.stack.deployed = old ∧ level.stack.generated = new ∧
      assessment.Mentions "Handler" "AWS::Lambda::Function" ∧
      ∀ plan, Plan.ofScope scope .fallBack = .ok plan → plan.requiresFullDeployment = false →
        plan.isNoOp = false := by
  intro old new scope
  let level : Scope := { scope with stack := ⟨some "inner", old, new, .empty, []⟩ }
  have enters : scope.Enters "Inner" level := ⟨List.mem_singleton_self _, rfl, rfl⟩
  have reached : scope.Reaches level := .inside enters (.here level)
  have closed : ∀ child, ¬ level.Enters "Handler" child := fun child enters =>
    absurd enters.both List.not_mem_nil
  have assessed : ∃ assessment, scope.assess = .ok assessment := ⟨_, rfl⟩
  obtain ⟨assessment, assessed⟩ := assessed
  have handlers : ∃ first second, old.resource? "Handler" = some first ∧
      new.resource? "Handler" = some second ∧ first.type = second.type ∧
      second.type = "AWS::Lambda::Function" ∧ second.kind ≠ .toolkitMetadata ∧
      (first.property? "Timeout" == second.property? "Timeout") = false :=
    ⟨_, _, rfl, rfl, rfl, rfl, by decide, rfl⟩
  obtain ⟨first, second, inOld, inNew, sameType, type, noMetadata, differs⟩ := handlers
  obtain ⟨⟨_, entry, _, _, _, within, mentions⟩, busy⟩ := assess_accounts assessed reached
    (Verdict.functionTemplate_wellFormed (.str "archive") trivial 3)
    (Verdict.functionTemplate_wellFormed (.str "archive") trivial 30)
    inOld inNew sameType noMetadata differs
  rw [type] at mentions busy
  refine ⟨level, assessment, reached, assessed, rfl, rfl, ?_, ?_⟩
  · rcases mentions with mentions | ⟨_, child, enters, _⟩
    · exact mentions.mono within
    · exact absurd enters (closed child)
  · intro plan planned unblocked
    by_contra idle
    rcases busy plan planned unblocked (by simpa using idle) with (version | ⟨named, _⟩) | ⟨child, enters⟩
    · exact absurd version (by decide)
    · exact absurd named (by decide)
    · exact closed child enters

/-- A template with one version. -/
def versionTemplate (description : String) : Template :=
  .ofResource "Release" "AWS::Lambda::Version" [("Description", .str description)]

/-- A nested stack with other tags has no entry when its own template is as deployed, so a plan has
nothing to do, and neither has it for another description of a version. -/
theorem assess_drops_tags :
    let retagged := nesting (nestingTemplate "old") (nestingTemplate "new") {} {}
    let described := nesting (versionTemplate "old") (versionTemplate "new") {} {}
    (nestingTemplate "old").WellFormed ∧ (nestingTemplate "new").WellFormed ∧
      (∃ old new, (nestingTemplate "old").resource? "Inner" = some old ∧
        (nestingTemplate "new").resource? "Inner" = some new ∧ old.type = new.type ∧
        new.kind ≠ .toolkitMetadata ∧ (old.property? "Tags" == new.property? "Tags") = false) ∧
      retagged.assess = .ok {} ∧
      (∃ plan, Plan.ofScope retagged .fallBack = .ok plan ∧ plan.requiresFullDeployment = false ∧
        plan.isNoOp = true) ∧
      (versionTemplate "old").WellFormed ∧ (versionTemplate "new").WellFormed ∧
      (∃ old new, (versionTemplate "old").resource? "Release" = some old ∧
        (versionTemplate "new").resource? "Release" = some new ∧ old.type = new.type ∧
        new.kind ≠ .toolkitMetadata ∧
        (old.property? "Description" == new.property? "Description") = false) ∧
      ∃ plan, Plan.ofScope described .fallBack = .ok plan ∧ plan.requiresFullDeployment = false ∧
        plan.isNoOp = true := by
  have nestingFormed (tags : String) : (nestingTemplate tags).WellFormed :=
    Template.wellFormed_ofResource (by simp [Json.WellFormed])
  have versionFormed (description : String) : (versionTemplate description).WellFormed :=
    Template.wellFormed_ofResource (by simp [Json.WellFormed])
  refine ⟨nestingFormed _, nestingFormed _, ?_, rfl, ⟨_, rfl, rfl, rfl⟩,
    versionFormed _, versionFormed _, ?_, ⟨_, rfl, rfl, rfl⟩⟩
  · exact ⟨_, _, rfl, rfl, rfl, by decide, rfl⟩
  · exact ⟨_, _, rfl, rfl, rfl, by decide, rfl⟩

end Scope

end StackSwap
