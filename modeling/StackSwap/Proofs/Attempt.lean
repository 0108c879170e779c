import StackSwap.Proofs.Execution.Attempts
import StackSwap.Proofs.Planning

namespace StackSwap

namespace Scope

/-- Some level of the tree yields a blocker. -/
def Blocked (scope : Scope) : Prop :=
  ∃ level part, scope.Reaches level ∧ level.Yields part ∧ part.blockers ≠ []

/-- Some level of the tree yields a swap with an operation. -/
def Busy (scope : Scope) : Prop :=
  ∃ level part, scope.Reaches level ∧ level.Yields part ∧ ∃ swap ∈ part.swaps, swap.operations ≠ []

theorem blocked_iff {scope : Scope} {assessment : Assessment}
    (assessed : scope.assess = .ok assessment) : scope.Blocked ↔ assessment.blockers ≠ [] := by
  have entries := mem_iff_of_assess Assessment.listed_blockers assessed
  constructor
  · rintro ⟨level, part, reached, yields, blocks⟩
    obtain ⟨blocker, member⟩ := List.exists_mem_of_ne_nil _ blocks
    exact List.ne_nil_of_mem ((entries blocker).mpr ⟨level, part, reached, yields, member⟩)
  · intro blocks
    obtain ⟨blocker, member⟩ := List.exists_mem_of_ne_nil _ blocks
    obtain ⟨level, part, reached, yields, inPart⟩ := (entries blocker).mp member
    exact ⟨level, part, reached, yields, List.ne_nil_of_mem inPart⟩

theorem busy_iff {scope : Scope} {assessment : Assessment}
    (assessed : scope.assess = .ok assessment) :
    scope.Busy ↔ ∃ swap ∈ assessment.swaps, swap.operations ≠ [] := by
  have entries := mem_iff_of_assess Assessment.listed_swaps assessed
  constructor
  · rintro ⟨level, part, reached, yields, swap, member, work⟩
    exact ⟨swap, (entries swap).mpr ⟨level, part, reached, yields, member⟩, work⟩
  · rintro ⟨swap, member, work⟩
    obtain ⟨level, part, reached, yields, inPart⟩ := (entries swap).mp member
    exact ⟨level, part, reached, yields, swap, inPart, work⟩

end Scope

namespace Deployer

variable {deployer : Deployer} {levels : Nat} {request : Request}

/-- Where a deployer executes changes. -/
def site (deployer : Deployer) : Execution.Site :=
  ⟨deployer.configured, deployer.backend, deployer.settings⟩

/-- The course of an attempt with a number of steps. -/
def courseOf (deployer : Deployer) (levels : Nat) (request : Request) (steps : Nat) : Course :=
  (deployer.attempt levels steps request).2

/-- Without a call of a service the course has ended like this, or it never ends. -/
structure Quiet (course : Course) (ended : Option (Nat × Outcome (Option Hotswap))) : Prop where
  calls : course.calls = []
  ended : course.ended = ended

/-- The state of executing the changes of a plan from an instant on, with a number of steps. -/
def execution (deployer : Deployer) (plan : Plan) (start steps : Nat) : Execution.State :=
  Execution.run deployer.site none steps start plan.assessment.swaps

/-- The operations of a plan are attempted from an instant on. -/
structure Applies (deployer : Deployer) (plan : Plan) (start : Nat) (course : Nat → Course) :
    Prop where
  /-- The calls are those of executing the changes. -/
  calls : ∀ steps, (course steps).calls = (deployer.execution plan start steps).ledger.calls
  /-- With enough steps some operation is attempted; only without a client it makes no call. -/
  attempts : ∃ bound, ∀ steps, bound < steps →
    ∃ change ∈ plan.assessment.swaps, ∃ operation ∈ change.operations,
      Execution.CalledIn (course steps).calls operation ∨
        ¬ Execution.Equipped deployer.site operation
  /-- The answer is that something was done, with the names of the changes that have operations and
  after a call for each of these, or the failure with which a change has ended. -/
  answers : ∀ steps time answer, (course steps).ended = some (time, answer) →
    (answer = .ok (some ⟨false, (plan.assessment.swaps.filter
          (fun change => change.operations ≠ [])).flatMap Swap.resourceNames⟩) ∧
      ∀ change ∈ plan.assessment.swaps, ∀ operation ∈ change.operations,
        Execution.CalledIn (course steps).calls operation) ∨
    ∃ failure, answer = .error failure ∧
      ∃ job, Execution.Job.Among plan.assessment.swaps job ∧
        Execution.Ended deployer.site job (.error failure)
          (Execution.eventsOf (deployer.execution plan start steps).ledger.journal job)
  /-- If every pause takes time there is an answer, unless some wait has no end. -/
  returns : Execution.Patient deployer.site → ∃ bound, ∀ steps, bound < steps →
    (course steps).ended ≠ none ∨
      Execution.Stalled (deployer.execution plan start steps)

theorem courseOf_failed {duration : Nat} {failure : Failure}
    (planned : (deployer.plan levels request).plan = .ends duration (.error failure)) (steps : Nat) :
    Quiet (deployer.courseOf levels request steps) (some (duration, .error failure)) := by
  constructor <;> simp [courseOf, attempt, planned]

theorem courseOf_never (planned : (deployer.plan levels request).plan = .never) (steps : Nat) :
    Quiet (deployer.courseOf levels request steps) none := by
  constructor <;> simp [courseOf, attempt, planned]

theorem courseOf_undeployed {duration : Nat}
    (planned : (deployer.plan levels request).plan = .ends duration (.ok none)) (steps : Nat) :
    Quiet (deployer.courseOf levels request steps) (some (duration, .ok none)) := by
  constructor <;> simp [courseOf, attempt, planned]

theorem courseOf_planned {start : Nat} {plan : Plan}
    (planned : (deployer.plan levels request).plan = .ends start (.ok (some plan))) (steps : Nat) :
    (deployer.courseOf levels request steps).calls = (deployer.apply none steps start plan).calls ∧
      (deployer.courseOf levels request steps).ended =
        (deployer.apply none steps start plan).ended := by
  constructor <;> simp [courseOf, attempt, planned]

theorem courseOf_blocked {start : Nat} {plan : Plan}
    (planned : (deployer.plan levels request).plan = .ends start (.ok (some plan)))
    (blocked : plan.requiresFullDeployment = true) (steps : Nat) :
    Quiet (deployer.courseOf levels request steps) (some (start, .ok none)) := by
  obtain ⟨calls, ended⟩ := courseOf_planned planned steps
  constructor
  · rw [calls, apply, if_pos blocked]
  · rw [ended, apply, if_pos blocked]

theorem courseOf_idle {start : Nat} {plan : Plan}
    (planned : (deployer.plan levels request).plan = .ends start (.ok (some plan)))
    (unblocked : plan.requiresFullDeployment = false) (idle : plan.isNoOp = true) (steps : Nat) :
    Quiet (deployer.courseOf levels request steps) (some (start, .ok (some .nothing))) := by
  obtain ⟨calls, ended⟩ := courseOf_planned planned steps
  constructor
  · rw [calls, apply, if_neg (Bool.eq_false_iff.mp unblocked), if_pos idle]
  · rw [ended, apply, if_neg (Bool.eq_false_iff.mp unblocked), if_pos idle]

theorem courseOf_busy {start : Nat} {plan : Plan}
    (planned : (deployer.plan levels request).plan = .ends start (.ok (some plan)))
    (unblocked : plan.requiresFullDeployment = false) (work : plan.isNoOp = false) (steps : Nat) :
    (deployer.courseOf levels request steps).calls =
        (deployer.execution plan start steps).ledger.calls ∧
      (deployer.courseOf levels request steps).ended =
        if (deployer.execution plan start steps).isOver then
          some ((deployer.execution plan start steps).now,
            (fun _ => some (hotswapOf plan)) <$> (deployer.execution plan start steps).result)
        else none := by
  obtain ⟨calls, ended⟩ := courseOf_planned planned steps
  rw [calls, ended]
  simp only [apply, unblocked, work, Bool.false_eq_true, ↓reduceIte]
  exact ⟨rfl, rfl⟩

theorem courseOf_stopped {problem : Option Failure}
    (stops : deployer.Stops levels request problem) :
    (∃ duration failure, deployer.Stops levels request (some failure) ∧
      (deployer.plan levels request).plan = .ends duration (.error failure) ∧
      ∀ steps, Quiet (deployer.courseOf levels request steps) (some (duration, .error failure))) ∨
    deployer.Stops levels request none ∧
      ∀ steps, Quiet (deployer.courseOf levels request steps) none := by
  cases planned : (deployer.plan levels request).plan with
  | never =>
    have cause := stops_of_plan (planned ▸ Timed.Stops.hangs)
    exact .inr ⟨cause, courseOf_never planned⟩
  | ends duration result =>
    cases result with
    | ok found => exact absurd planned stops.not_planned
    | error failure =>
      have cause := stops_of_plan (planned ▸ Timed.Stops.fails)
      exact .inl ⟨duration, failure, cause, rfl, courseOf_failed planned⟩

theorem hotswapOf_eq (plan : Plan) :
    hotswapOf plan = ⟨false, (plan.assessment.swaps.filter
      (fun change => change.operations ≠ [])).flatMap Swap.resourceNames⟩ := by
  unfold hotswapOf
  congr 2
  refine List.filter_congr fun change _ => ?_
  cases change.operations <;> rfl

/-- A plan with something to do and nothing in its way is applied. -/
theorem applies_of_busy {start : Nat} {plan : Plan}
    (planned : (deployer.plan levels request).plan = .ends start (.ok (some plan)))
    (unblocked : plan.requiresFullDeployment = false)
    (busy : ∃ swap ∈ plan.assessment.swaps, swap.operations ≠ []) :
    deployer.Applies plan start (deployer.courseOf levels request) := by
  have work : plan.isNoOp = false := by
    obtain ⟨swap, member, operations⟩ := busy
    exact Bool.eq_false_iff.mpr (fun idle => operations (Plan.isNoOp_iff.mp idle swap member))
  have calls (steps : Nat) := (courseOf_busy planned unblocked work steps).1
  have ended (steps : Nat) := (courseOf_busy planned unblocked work steps).2
  refine ⟨calls, ?_, ?_, ?_⟩
  · obtain ⟨bound, attempts⟩ := Execution.run_attempts deployer.site start busy
    refine ⟨bound, fun steps enough => ?_⟩
    rw [calls]
    exact attempts steps enough
  · intro steps time answer answered
    have holds := Execution.run_holds deployer.site none steps start plan.assessment.swaps
    rw [ended] at answered
    split at answered
    · rename_i isOver
      cases result : (deployer.execution plan start steps).result with
      | ok _ =>
        rw [result, hotswapOf_eq] at answered
        cases answered
        refine .inl ⟨rfl, fun change member operation inOperations => ?_⟩
        rw [calls]
        exact holds.called_of_ok isOver result member inOperations
      | error failure =>
        rw [result] at answered
        cases answered
        exact .inr ⟨failure, rfl, holds.ended_of_error result⟩
    · cases answered
  · intro patient
    obtain ⟨bound, returns⟩ := Execution.exists_bound patient start plan.assessment.swaps
    refine ⟨bound, fun steps enough => ?_⟩
    rw [ended]
    refine (returns steps enough).imp (fun isOver => ?_) id
    exact ne_of_eq_of_ne (if_pos isOver) (Option.some_ne_none _)

/-- If something stops the planning of an attempt the answer is a failure that stops it; there is
none if a lookup never comes or the tree is too deep. A stack that is not deployed is left to a full
deployment. Otherwise there is a plan: in fall-back mode a blocker at any level of the tree leaves
the attempt to a full deployment, without work nothing has to be done, and only else are services
called, to attempt the operations of the plan. -/
theorem attempt_decides (deployer : Deployer) (levels : Nat) (request : Request) :
    (∀ problem, deployer.Stops levels request problem →
      (∃ duration failure, deployer.Stops levels request (some failure) ∧
        (deployer.plan levels request).plan = .ends duration (.error failure) ∧
        ∀ steps, Quiet (deployer.courseOf levels request steps) (some (duration, .error failure))) ∨
      deployer.Stops levels request none ∧
        ∀ steps, Quiet (deployer.courseOf levels request steps) none) ∧
    (∀ first second resources, deployer.configured .cloudFormation = true →
      deployer.lookups.template request.stackName = .ends first (.ok none) →
      deployer.lookups.resources request.stackName = .ends second (.ok resources) →
      ∀ steps, Quiet (deployer.courseOf levels request steps) (some (max first second, .ok none))) ∧
    ((∀ problem, ¬ deployer.Stops levels request problem) →
      (∃ duration, deployer.loaded levels request = .ends duration (.ok none) ∧
        ∀ steps, ∃ time, Quiet (deployer.courseOf levels request steps) (some (time, .ok none))) ∨
      ∃ start plan scope, deployer.Surveys levels request scope ∧
        (deployer.plan levels request).plan = .ends start (.ok (some plan)) ∧
        scope.assess = .ok plan.assessment ∧
        (deployer.modeOf request = .fallBack ∧ scope.Blocked →
          ∀ steps, Quiet (deployer.courseOf levels request steps) (some (start, .ok none))) ∧
        (¬ (deployer.modeOf request = .fallBack ∧ scope.Blocked) →
          (¬ scope.Busy → ∀ steps, Quiet (deployer.courseOf levels request steps)
            (some (start, .ok (some ⟨true, []⟩)))) ∧
          (scope.Busy → deployer.Applies plan start (deployer.courseOf levels request)))) := by
  refine ⟨fun _ stops => courseOf_stopped stops, ?_, ?_⟩
  · intro first second resources client template listed
    exact courseOf_undeployed (plan_of_undeployed client template listed)
  · intro unstopped
    rcases Timed.ok_or_stops (deployer.plan levels request).plan with
      ⟨start, found, planned⟩ | ⟨problem, stops⟩
    · obtain ⟨_, ⟨⟨duration, absent⟩, rfl⟩ | ⟨scope, plan, surveys, made, rfl⟩⟩ :=
        surveys_of_plan planned
      · exact .inl ⟨duration, absent, fun steps => ⟨start, courseOf_undeployed planned steps⟩⟩
      · obtain ⟨assessed, mode⟩ := Plan.ofScope_eq_ok made
        have blocked_iff : plan.requiresFullDeployment = true ↔
            deployer.modeOf request = .fallBack ∧ scope.Blocked := by
          rw [Plan.requiresFullDeployment_iff, mode, Scope.blocked_iff assessed]
        refine .inr ⟨start, plan, scope, surveys, planned, assessed, ?_, fun open_ => ⟨?_, ?_⟩⟩
        · exact fun blocked => courseOf_blocked planned (blocked_iff.mpr blocked)
        · intro idle
          have unblocked := Bool.eq_false_iff.mpr (fun blocked => open_ (blocked_iff.mp blocked))
          refine courseOf_idle planned unblocked (Plan.isNoOp_iff.mpr fun swap member => ?_)
          by_contra work
          exact idle ((Scope.busy_iff assessed).mpr ⟨swap, member, work⟩)
        · intro busy
          have unblocked := Bool.eq_false_iff.mpr (fun blocked => open_ (blocked_iff.mp blocked))
          exact applies_of_busy planned unblocked ((Scope.busy_iff assessed).mp busy)
    · exact absurd (stops_of_plan stops) (unstopped problem)

/-- A deployer for a stack with a function in a nested stack, which is to get another timeout. -/
def nestingDeployer : Deployer where
  configured := fun _ => true
  lookups := {
    template := fun name => .now (.ok (some
      (if name = "outer" then Scope.nestingTemplate "same"
        else Verdict.functionTemplate (.str "archive") 3)))
    resources := fun name => .now (.ok
      (if name = "outer" then [⟨"Inner", ResourceKind.nestedStackType, "inner"⟩] else []))
    parameters := fun _ => .now (.ok .empty)
    exports := .now (.ok .empty) }
  source := fun _ => .now (.ok (some (Verdict.functionTemplate (.str "archive") 30)))
  backend := Execution.refusing.backend
  settings := {}

/-- An attempt that leaves the outer template as it is. -/
def nestingRequest : Request where
  stackName := "outer"
  template := Scope.nestingTemplate "same"

/-- The timeout inside the nested stack leaves the attempt to a full deployment. -/
theorem attempt_decides_nested :
    (∃ plan, (nestingDeployer.plan 2 nestingRequest).plan = .ends 0 (.ok (some plan)) ∧
      plan.assessment.blockers ≠ []) ∧
      ∀ steps, Quiet (nestingDeployer.courseOf 2 nestingRequest steps) (some (0, .ok none)) := by
  have planned : ∃ plan, (nestingDeployer.plan 2 nestingRequest).plan = .ends 0 (.ok (some plan)) ∧
      plan.assessment.blockers ≠ [] := ⟨_, rfl, by decide⟩
  refine ⟨planned, ?_⟩
  obtain ⟨plan, planned, blockers⟩ := planned
  obtain ⟨_, _, decides⟩ := attempt_decides nestingDeployer 2 nestingRequest
  rcases decides (fun _ stops => stops.not_planned planned) with
    ⟨_, absent, _⟩ | ⟨start, found, scope, _, planned', assessed, blocked, _⟩
  · cases absent
  · cases planned.symm.trans planned'
    exact blocked ⟨rfl, (Scope.blocked_iff assessed).mpr blockers⟩

end Deployer

end StackSwap
