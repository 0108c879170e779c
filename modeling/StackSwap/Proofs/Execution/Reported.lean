import Mathlib.Data.List.Permutation
import StackSwap.Proofs.Execution.Safety

/-! Failures count in the order of the services first, so the earliest failure of all is reported
unless an operation of an earlier service fails too, however much later. -/

namespace StackSwap

/-- The services whose failures count before those of the service. -/
def Service.before (service : Service) : List Service :=
  Service.all.takeWhile (fun other => other ≠ service)

theorem Service.all_eq_before (service : Service) :
    ∃ after, Service.all = service.before ++ service :: after := by
  cases service <;> exact ⟨_, rfl⟩

namespace Execution

variable {site : Site} {changes : List Swap}

/-- The outcome of what has failed like this; the first failure counts. -/
def firstFailure (failures : List Failure) : Outcome Unit :=
  failures.head?.elim (.ok ()) .error

theorem forM_eq_firstFailure (results : List (Outcome Unit)) :
    results.forM id = firstFailure (results.filterMap Outcome.failure?) := by
  induction results with
  | nil => rfl
  | cons result rest ih =>
    cases result with
    | error failure => rfl
    | ok _ => exact ih

/-- Only the entries that say that an operation has failed count. -/
theorem failuresOf_filter (journal : List Entry) (service : Service) :
    failuresOf (journal.filter Entry.isFailure) service = failuresOf journal service := by
  induction journal with
  | nil => rfl
  | cons entry rest ih =>
    obtain ⟨job, event⟩ := entry
    cases event <;>
      by_cases same : job.change.service = service <;>
        simp_all [failuresOf, Entry.isFailure, Event.failure?]

namespace StateHolds

variable {state : State}

/-- The failures of a group are those in the journal. -/
theorem failures_of_group (holds : StateHolds site changes state) {group : Group}
    (member : group ∈ state.groups) :
    group.results.filterMap Outcome.failure? = failuresOf state.ledger.journal group.service := by
  obtain ⟨closed, results, inGroup⟩ := holds.groups group member
  rw [results, List.filterMap_map]
  exact inGroup.failures

/-- The result is the first failure in the order of the services, and in each of them in time. -/
theorem result_eq (holds : StateHolds site changes state) :
    state.result = firstFailure (Service.all.flatMap (failuresOf state.ledger.journal)) := by
  have failures : state.groups.flatMap (fun group => group.results.filterMap Outcome.failure?) =
      state.groups.flatMap (fun group => failuresOf state.ledger.journal group.service) :=
    List.flatMap_congr (fun group member => holds.failures_of_group member)
  rw [State.result, forM_eq_firstFailure, List.filterMap_flatMap, failures, ← holds.services,
    List.flatMap_map]

/-- A failure of a service is reported if it is the first one of the service and no service that
counts before has any. -/
theorem result_of_first (holds : StateHolds site changes state) {service : Service}
    {failure : Failure} {later : List Failure}
    (first : failuresOf state.ledger.journal service = failure :: later)
    (unfailed : ∀ other ∈ service.before, failuresOf state.ledger.journal other = []) :
    state.result = .error failure := by
  obtain ⟨after, all⟩ := service.all_eq_before
  have noneBefore : service.before.flatMap (failuresOf state.ledger.journal) = [] :=
    List.flatMap_eq_nil_iff.mpr unfailed
  rw [holds.result_eq, all, List.flatMap_append, noneBefore, List.nil_append, List.flatMap_cons, first]
  rfl

/-! The journal at an instant is the beginning of every later one. -/

theorem prefix_visitAll (holds : StateHolds site changes state) (steps : Nat) :
    state.ledger.journal <+: (state.visitAll site steps).ledger.journal := by
  have distinct : (state.groups.map Group.service).Nodup := by
    rw [holds.services]
    decide
  obtain ⟨_, _, grows⟩ := visitEach_spec state.now steps distinct holds.groups
  obtain ⟨entries, same, _⟩ := grows.journal
  exact ⟨entries, same.symm⟩

theorem prefix_next (holds : StateHolds site changes state) {later : State} {steps : Nat}
    {latest : Option Nat} (goesOn : state.next? site steps latest = some later) :
    state.ledger.journal <+: later.ledger.journal := by
  simp only [State.next?] at goesOn
  split at goesOn
  · cases goesOn
  · rename_i time _
    split at goesOn
    · cases goesOn
    · cases goesOn
      have still : StateHolds site changes { state with now := time } :=
        ⟨holds.services, holds.groups, holds.known, holds.sound⟩
      exact still.prefix_visitAll steps

theorem prefix_proceed (latest : Option Nat) (steps : Nat) {state : State}
    (holds : StateHolds site changes state) :
    state.ledger.journal <+: (state.proceed site latest steps).ledger.journal := by
  induction steps generalizing state with
  | zero => exact List.prefix_rfl
  | succ steps ih =>
    simp only [State.proceed]
    split
    · exact List.prefix_rfl
    · rename_i later goesOn
      exact (holds.prefix_next goesOn).trans (ih (holds.next? goesOn))

end StateHolds

theorem State.next?_unlimited {state later : State} {steps time : Nat}
    (goesOn : state.next? site steps (some time) = some later) :
    state.next? site steps none = some later := by
  simp only [State.next?] at goesOn ⊢
  split at goesOn
  · cases goesOn
  · split at goesOn
    · cases goesOn
    · simpa using goesOn

/-- What has happened by an instant comes before all that happens. -/
theorem StateHolds.prefix_until (time steps : Nat) {state : State}
    (holds : StateHolds site changes state) :
    (state.proceed site (some time) steps).ledger.journal <+:
      (state.proceed site none steps).ledger.journal := by
  induction steps generalizing state with
  | zero => exact List.prefix_rfl
  | succ steps ih =>
    cases limited : state.next? site (steps + 1) (some time) with
    | none =>
      rw [State.proceed, limited]
      exact holds.prefix_proceed none (steps + 1)
    | some later =>
      rw [State.proceed, State.proceed, limited, State.next?_unlimited limited]
      exact ih (holds.next? limited)

theorem run_prefix (site : Site) (time steps now : Nat) (changes : List Swap) :
    (run site (some time) steps now changes).ledger.journal <+:
      (run site none steps now changes).ledger.journal :=
  ((StateHolds.init site changes now).visitAll steps).prefix_until time steps

/-- An execution reports the earliest failure of the first service that has one. So a failure that
happens before all others is reported unless a service that counts before has failures too. -/
theorem run_reports (site : Site) (steps now : Nat) (changes : List Swap) :
    (∀ latest, (run site latest steps now changes).result =
      firstFailure (Service.all.flatMap
        (failuresOf (run site latest steps now changes).ledger.journal))) ∧
      ∀ time job failure,
        (run site (some time) steps now changes).ledger.journal.filter Entry.isFailure =
          [⟨job, .failed failure⟩] →
        (∀ service ∈ job.change.service.before,
          failuresOf (run site none steps now changes).ledger.journal service = []) →
        (run site none steps now changes).result = .error failure := by
  refine ⟨fun latest => (run_holds site latest steps now changes).result_eq, ?_⟩
  intro time job failure only unfailed
  obtain ⟨later, same⟩ := run_prefix site time steps now changes
  have here : failuresOf (run site (some time) steps now changes).ledger.journal
      job.change.service = [failure] := by
    rw [← failuresOf_filter, only]
    exact failuresOf_own job [.failed failure]
  have first : failuresOf (run site none steps now changes).ledger.journal job.change.service =
      failure :: failuresOf later job.change.service := by
    rw [← same, failuresOf_append, here, List.singleton_append]
  exact (run_holds site none steps now changes).result_of_first first unfailed

/-- A site whose services refuse every call, and one of them sooner than the others. -/
def staggered : Site where
  configured := fun _ => true
  backend := {
    delay := fun _ call => if call.target = "early" then 5 else 10
    failure? := fun _ call => some (.api call.apiName call.target)
    report := fun _ _ => {}
    version := fun _ _ => "" }
  settings := {}

/-- A change that updates the configuration of a function. -/
def functionSwap (name : String) : Swap where
  logicalId := name
  type := "AWS::Lambda::Function"
  service := .lambda
  operations := [.updateConfiguration { functionName := name, description := some "" }]

/-- Of two state machines the one that fails first is reported. -/
theorem run_reports_early :
    (run staggered (some 5) 9 0 [machineSwap "late", machineSwap "early"]).ledger.journal.filter
        Entry.isFailure =
      [⟨⟨1, machineSwap "early"⟩, .failed (.api "UpdateStateMachine" "early")⟩] ∧
      (∀ service ∈ Service.stepFunctions.before, failuresOf (run staggered none 9 0
        [machineSwap "late", machineSwap "early"]).ledger.journal service = []) ∧
      (run staggered none 9 0 [machineSwap "late", machineSwap "early"]).result =
        .error (.api "UpdateStateMachine" "early") := by
  have alone : (run staggered (some 5) 9 0
      [machineSwap "late", machineSwap "early"]).ledger.journal.filter Entry.isFailure =
        [⟨⟨1, machineSwap "early"⟩, .failed (.api "UpdateStateMachine" "early")⟩] := by
    cbv
  have unfailed : ∀ service ∈ Service.stepFunctions.before, failuresOf (run staggered none 9 0
      [machineSwap "late", machineSwap "early"]).ledger.journal service = [] := by
    intro service member
    have cases : service = .lambda ∨ service = .codeBuild := by
      simpa [Service.before, Service.all] using member
    rcases cases with rfl | rfl
    · cbv
    · cbv
  exact ⟨alone, unfailed, (run_reports staggered 9 0 _).2 5 _ _ alone unfailed⟩

/-- A state machine fails first and alone, and a function later; the function is reported. -/
theorem run_reports_late :
    (run staggered (some 5) 9 0 [functionSwap "late", machineSwap "early"]).ledger.journal.filter
        Entry.isFailure =
      [⟨⟨1, machineSwap "early"⟩, .failed (.api "UpdateStateMachine" "early")⟩] ∧
      (run staggered none 9 0 [functionSwap "late", machineSwap "early"]).isOver = true ∧
      (run staggered none 9 0 [functionSwap "late", machineSwap "early"]).result =
        .error (.api "UpdateFunctionConfiguration" "late") := by
  refine ⟨?_, ?_, ?_⟩
  · cbv
  · cbv
  · cbv

end Execution

end StackSwap
