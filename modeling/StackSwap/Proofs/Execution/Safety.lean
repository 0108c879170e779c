import StackSwap.Proofs.Execution.Patience

namespace StackSwap

namespace Execution

variable {site : Site} {changes : List Swap}

/-- The event is a failed call, an attempt without a client, or the end of a change that fails. -/
def Event.Fails (site : Site) : Event → Prop
  | .called _ answer => ∃ failure, answer = .error failure
  | .attempted operation => ¬ Equipped site operation
  | .failed _ => True
  | _ => False

theorem Polling.succeeds {functionName : String} {schedule : Schedule} {polls : List Event}
    {waiter : Waiter} {next : Option Nat}
    (polling : Polling functionName schedule polls waiter next) :
    ∀ event ∈ polls, ¬ event.Fails site := by
  induction polling with
  | start now => simp
  | pause _ _ _ _ _ _ ih => exact List.forall_mem_append.mpr ⟨ih, by simp [Event.Fails]⟩

theorem Awaiting.succeeds {operation : Operation} {functionName : String} {events : List Event}
    {waiter : Waiter} {next : Option Nat} (equipped : Equipped site operation)
    (awaiting : Awaiting site operation functionName events waiter next) :
    ∀ event ∈ events, ¬ event.Fails site := by
  cases awaiting with
  | since updates scheduled polling =>
    exact List.forall_mem_append.mpr ⟨by simp [Event.Fails, equipped], polling.succeeds⟩

/-- Nothing fails in an operation that has succeeded. -/
theorem Applied.succeeds {operation : Operation} {events : List Event}
    (applied : Applied site operation events) : ∀ event ∈ events, ¬ event.Fails site := by
  cases applied with
  | update equipped awaiting _ _ =>
    have waited := awaiting.succeeds equipped
    exact List.forall_mem_append.mpr
      ⟨List.forall_mem_append.mpr ⟨waited, by simp [Event.Fails]⟩, by simp [Event.Fails]⟩
  | @publish request time answer moves equipped moved accepted =>
    have accepts : ∀ event ∈ moves, ¬ event.Fails site := by
      intro event member fails
      obtain ⟨_, _, isMove⟩ := moved_of_forall₂ moved event member
      cases isMove with
      | started moment reply =>
        obtain ⟨failure, rfl⟩ := fails
        exact accepted failure ⟨_, member⟩
    refine List.forall_mem_append.mpr ⟨List.forall_mem_append.mpr ⟨?_, accepts⟩, ?_⟩
    · simp [Event.Fails, equipped]
    · simp [Event.Fails]
  | single equipped sends direct => simp [Event.Fails, equipped]

theorem succeeds_flatten {operations : List Operation} {segments : List (List Event)}
    (applied : List.Forall₂ (Applied site) operations segments) :
    ∀ event ∈ segments.flatten, ¬ event.Fails site := by
  induction applied with
  | nil => simp
  | cons first _ ih => exact List.forall_mem_append.mpr ⟨first.succeeds, ih⟩

theorem Ended.of_fails {job : Job} {result : Outcome Unit} {events : List Event} {event : Event}
    (ended : Ended site job result events) (member : event ∈ events) (fails : event.Fails site) :
    ∃ failure, .failed failure ∈ events := by
  cases ended with
  | skipped => cases member
  | finished applied =>
    rcases List.mem_append.mp member with early | last
    · rcases List.mem_cons.mp early with rfl | inside
      · exact fails.elim
      · exact absurd fails (succeeds_flatten applied event inside)
    · rw [List.mem_singleton.mp last] at fails
      exact fails.elim
  | @failed done upcoming current segments own failure operations applied failing =>
    exact ⟨failure, by simp⟩

theorem isFailure_iff {entry : Entry} :
    entry.isFailure = true ↔ ∃ failure, entry.event = .failed failure := by
  obtain ⟨job, event⟩ := entry
  cases event <;> simp [Entry.isFailure]

theorem fails_of_isFailure {entry : Entry} (failed : entry.isFailure = true) :
    entry.event.Fails site := by
  obtain ⟨failure, event⟩ := isFailure_iff.mp failed
  rw [event]
  trivial

/-- What is safe about an execution, however far it has come. -/
structure Safe (site : Site) (changes : List Swap) (state : State) : Prop where
  /-- Only changes that have operations are taken up. -/
  known : ∀ entry ∈ state.ledger.journal, entry.job.Among changes
  /-- Calls are answered as the services answer them after the calls before. -/
  answered : ∀ earlier later job started answer,
    state.ledger.journal = earlier ++ ⟨job, .called started answer⟩ :: later →
      answer = site.backend.answer (callsOf earlier) started.call
  /-- At every moment each service has only so many changes in flight. -/
  bounded : ∀ earlier, earlier <+: state.ledger.journal → ∀ service,
    begun earlier service ≤ ended earlier service + max 1 site.settings.perService
  /-- Each change is on its course or has come to its end. -/
  course : ∀ job, job.Among changes →
    (∃ task, task.job = job ∧ Traced site task (eventsOf state.ledger.journal job)) ∨
      ∃ result, Ended site job result (eventsOf state.ledger.journal job)
  /-- Without a failure each change is applied in full. -/
  complete : state.isOver = true → (∀ entry ∈ state.ledger.journal, ¬ entry.event.Fails site) →
    state.result = .ok () ∧ ∀ job, job.Among changes → ∃ segments,
      List.Forall₂ (Applied site) job.change.operations segments ∧
      eventsOf state.ledger.journal job = .began :: segments.flatten ++ [.finished]
  /-- If something fails so does the execution. -/
  fails : state.isOver = true → ∀ entry ∈ state.ledger.journal, entry.event.Fails site →
    ∃ job failure, ⟨job, .failed failure⟩ ∈ state.ledger.journal ∧ state.result = .error failure
  /-- After a change has failed only changes go on that were taken up before. -/
  stops : ∀ earlier job failure later,
    state.ledger.journal = earlier ++ ⟨job, .failed failure⟩ :: later →
      ∀ entry ∈ later, ⟨entry.job, .began⟩ ∈ earlier
  /-- A change that was taken up goes on until it has finished or fails itself. -/
  settled : state.isOver = true → ∀ job, job.Among changes → ∃ result,
    Ended site job result (eventsOf state.ledger.journal job) ∧
      (eventsOf state.ledger.journal job = [] →
        ∃ other failure, ⟨other, .failed failure⟩ ∈ state.ledger.journal)

theorem StateHolds.safe {state : State} (holds : StateHolds site changes state) :
    Safe site changes state where
  known := fun entry member => Job.mem_ofChanges.mp (holds.known entry member)
  answered := fun _ _ _ _ _ same => (holds.sound.split same).answered _ _ rfl
  bounded := fun _ before service => holds.sound.bounded before service
  course := fun _ among => holds.course (Job.mem_ofChanges.mpr among)
  complete := by
    intro isOver unfailed
    have noFailure : ∀ entry ∈ state.ledger.journal, entry.isFailure = false := by
      intro entry member
      exact Bool.eq_false_iff.mpr (fun failed => unfailed entry member (fails_of_isFailure failed))
    obtain ⟨result, complete⟩ := holds.result_of_unfailed isOver noFailure
    exact ⟨result, fun job among => complete job (Job.mem_ofChanges.mpr among)⟩
  fails := by
    intro isOver entry member fails
    have known := holds.known entry member
    obtain ⟨_, _, ended, _⟩ := holds.ended_of_over isOver known
    obtain ⟨failure, inEvents⟩ := ended.of_fails ((holds.mem_events known).mpr member) fails
    exact holds.result_of_failed isOver ((holds.mem_events known).mp inEvents) rfl
  stops := fun _ _ _ _ same _ member => holds.began_before same rfl member
  settled := by
    intro isOver job among
    obtain ⟨result, _, ended, skipped⟩ := holds.ended_of_over isOver (Job.mem_ofChanges.mpr among)
    refine ⟨result, ended, fun silent => ?_⟩
    obtain ⟨⟨other, event⟩, inJournal, failed⟩ := hasFailed_iff.mp (skipped silent)
    obtain ⟨failure, rfl⟩ := isFailure_iff.mp failed
    exact ⟨other, failure, inJournal⟩

/-- Some change waits for an instant that the clock does not have. -/
def Stalled (state : State) : Prop :=
  ∃ group ∈ state.groups, ∃ task ∈ group.inFlight, Stalls task

/-- With pauses that take time an execution comes to its end, unless some change stalls. -/
theorem exists_bound (patient : Patient site) (now : Nat) (changes : List Swap) :
    ∃ bound, ∀ steps, bound < steps → (run site none steps now changes).isOver = true ∨
      Stalled (run site none steps now changes) := by
  refine ⟨(State.init now changes).work + 2 * ((Job.ofChanges changes).map
    (fun job => job.change.operations.length * patience site)).sum, fun steps enough => ?_⟩
  rcases run_progress site steps now changes with isOver | stalled | work
  · exact .inl isOver
  · exact .inr stalled
  · have bound := spent_le patient (run_holds site none steps now changes)
    omega

/-- A site whose services refuse every call, with room for one change of each. -/
def refusing : Site where
  configured := fun _ => true
  backend := {
    delay := fun _ _ => 5
    failure? := fun _ call => some (.api call.apiName "denied")
    report := fun _ _ => {}
    version := fun _ _ => "" }
  settings := { perService := 1 }

/-- A change that updates a state machine. -/
def machineSwap (arn : String) : Swap where
  logicalId := arn
  type := "AWS::StepFunctions::StateMachine"
  service := .stepFunctions
  operations := [.updateMachine ⟨arn, ""⟩]

end Execution

end StackSwap
