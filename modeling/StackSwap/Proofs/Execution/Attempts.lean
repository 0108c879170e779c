import StackSwap.Proofs.Execution.Safety

namespace StackSwap

namespace Execution

variable {site : Site} {changes : List Swap}

/-- The call that the operation begins with is among the events. -/
def Called (operation : Operation) (events : List Event) : Prop :=
  ∃ client call time answer, Sends operation client call ∧ .called ⟨time, call⟩ answer ∈ events

/-- The operation was called, or there is no client for it. -/
def Attempted (site : Site) (operation : Operation) (events : List Event) : Prop :=
  Called operation events ∨ ¬ Equipped site operation

theorem Called.mono {operation : Operation} {fewer more : List Event}
    (called : Called operation fewer) (all : ∀ event ∈ fewer, event ∈ more) :
    Called operation more := by
  obtain ⟨client, call, time, answer, sends, member⟩ := called
  exact ⟨client, call, time, answer, sends, all _ member⟩

theorem Attempted.mono {operation : Operation} {fewer more : List Event}
    (attempted : Attempted site operation fewer) (all : ∀ event ∈ fewer, event ∈ more) :
    Attempted site operation more :=
  attempted.imp_left (fun called => called.mono all)

theorem Awaiting.called {operation : Operation} {functionName : String} {events : List Event}
    {waiter : Waiter} {next : Option Nat}
    (awaiting : Awaiting site operation functionName events waiter next) :
    Called operation events := by
  cases awaiting with
  | @since call time answer _ _ _ _ updates =>
    exact ⟨.lambda, call, time, .ok answer, updates.sends, by simp⟩

theorem Applied.called {operation : Operation} {events : List Event}
    (applied : Applied site operation events) : Called operation events := by
  cases applied with
  | update _ awaiting _ _ => exact awaiting.called.mono (fun event member => by simp [member])
  | @publish request time answer =>
    exact ⟨_, _, time, .ok answer, .publication request, by simp⟩
  | @single operation client call time answer _ sends =>
    exact ⟨client, call, time, .ok answer, sends, by simp⟩

theorem Pending.called {operation : Operation} {stage : Stage} {events : List Event}
    (pending : Pending site operation stage events) : Called operation events := by
  cases pending with
  | @update operation _ call _ time answer updates =>
    exact ⟨.lambda, call, time, answer, updates.sends, by simp⟩
  | poll awaiting _ _ _ => exact awaiting.called.mono (fun event member => by simp [member])
  | pause awaiting => exact awaiting.called
  | @publish request _ time answer =>
    exact ⟨_, _, time, answer, .publication request, by simp⟩
  | @aliases request time answer =>
    exact ⟨_, _, time, .ok answer, .publication request, by simp⟩
  | @single operation client call _ time answer sends =>
    exact ⟨client, call, time, answer, sends, by simp⟩

theorem Failing.attempted {operation : Operation} {events : List Event} {failure : Failure}
    (failing : Failing site operation events failure) : Attempted site operation events := by
  cases failing with
  | unconfigured sends missing => exact .inr (not_equipped sends missing)
  | @refused operation client call time failure sends =>
    exact .inl ⟨client, call, time, .error failure, sends, by simp⟩
  | waited awaiting _ _ => exact .inl (awaiting.called.mono (fun event member => by simp [member]))
  | late awaiting _ _ _ _ => exact .inl (awaiting.called.mono (fun event member => by simp [member]))
  | @unmoved request time answer =>
    exact .inl ⟨_, _, time, .ok answer, .publication request, by simp⟩

theorem Traced.attempted {task : Task} {events : List Event} (traced : Traced site task events)
    (happened : events ≠ []) :
    ∃ operation ∈ task.job.change.operations, Attempted site operation events := by
  cases traced with
  | fresh job => exact absurd rfl happened
  | @underway job done upcoming current segments stage own operations applied equipped pending =>
    refine ⟨current, ?_, .inl (pending.called.mono (fun event member => by simp [member]))⟩
    rw [Task.job, operations]
    exact List.mem_append_right _ (List.mem_cons_self ..)

theorem called_of_applied {operations : List Operation} {segments : List (List Event)}
    (applied : List.Forall₂ (Applied site) operations segments) {operation : Operation}
    (member : operation ∈ operations) : Called operation segments.flatten := by
  obtain ⟨segment, inSegments, own⟩ := exists_of_mem_left applied member
  exact own.called.mono (fun event inside => List.mem_flatten.mpr ⟨segment, inSegments, inside⟩)

theorem Ended.attempted {job : Job} {result : Outcome Unit} {events : List Event}
    (ended : Ended site job result events) (work : job.change.operations ≠ [])
    (happened : events ≠ []) :
    ∃ operation ∈ job.change.operations, Attempted site operation events := by
  cases ended with
  | skipped => exact absurd rfl happened
  | @finished segments applied =>
    obtain ⟨operation, member⟩ := List.exists_mem_of_ne_nil _ work
    have called := called_of_applied applied member
    exact ⟨operation, member, .inl (called.mono (fun event inside => by simp [inside]))⟩
  | @failed done upcoming current segments own failure operations applied failing =>
    refine ⟨current, ?_, failing.attempted.mono (fun event member => by simp [member])⟩
    rw [operations]
    exact List.mem_append_right _ (List.mem_cons_self ..)

/-- The call that an operation begins with is among these calls. -/
def CalledIn (calls : List StartedCall) (operation : Operation) : Prop :=
  ∃ client call, Sends operation client call ∧ ∃ started ∈ calls, started.call = call

theorem Called.calledIn {ledger : Ledger} {job : Job} {operation : Operation}
    (called : Called operation (eventsOf ledger.journal job)) : CalledIn ledger.calls operation := by
  obtain ⟨client, call, time, answer, sends, inEvents⟩ := called
  obtain ⟨entry, inJournal, _, event⟩ := mem_eventsOf.mp inEvents
  refine ⟨client, call, sends, ⟨time, call⟩, ?_, rfl⟩
  exact List.mem_filterMap.mpr ⟨entry, inJournal, by simp [Entry.call?, event]⟩

namespace StateHolds

variable {state : State}

theorem attempted (holds : StateHolds site changes state) {entry : Entry}
    (member : entry ∈ state.ledger.journal) :
    ∃ change ∈ changes, ∃ operation ∈ change.operations,
      CalledIn state.ledger.calls operation ∨ ¬ Equipped site operation := by
  have known := holds.known entry member
  obtain ⟨place, work⟩ := Job.mem_ofChanges.mp known
  have inEvents : entry.event ∈ eventsOf state.ledger.journal entry.job :=
    (holds.mem_events known).mpr member
  have happened := List.ne_nil_of_mem inEvents
  have attempted : ∃ operation ∈ entry.job.change.operations,
      Attempted site operation (eventsOf state.ledger.journal entry.job) := by
    rcases holds.course known with ⟨task, same, traced⟩ | ⟨result, ended⟩
    · exact same ▸ traced.attempted happened
    · exact ended.attempted work happened
  obtain ⟨operation, inOperations, attempted⟩ := attempted
  refine ⟨entry.job.change, List.mem_of_getElem? place, operation, inOperations, ?_⟩
  exact attempted.imp_left Called.calledIn

theorem exists_entry_of_over (holds : StateHolds site changes state) (isOver : state.isOver = true)
    (busy : ∃ change ∈ changes, change.operations ≠ []) : ∃ entry, entry ∈ state.ledger.journal := by
  obtain ⟨change, member, work⟩ := busy
  obtain ⟨place, found⟩ := List.mem_iff_getElem?.mp member
  have known : ⟨place, change⟩ ∈ Job.ofChanges changes := Job.mem_ofChanges.mpr ⟨found, work⟩
  obtain ⟨result, _, ended, skipped⟩ := holds.ended_of_over isOver known
  by_cases silent : eventsOf state.ledger.journal ⟨place, change⟩ = []
  · obtain ⟨entry, inJournal, _⟩ := hasFailed_iff.mp (skipped silent)
    exact ⟨entry, inJournal⟩
  · obtain ⟨event, inEvents⟩ := List.exists_mem_of_ne_nil _ silent
    exact ⟨_, (holds.mem_events known).mp inEvents⟩

theorem exists_entry_of_stalled (holds : StateHolds site changes state) (stalled : Stalled state) :
    ∃ entry, entry ∈ state.ledger.journal := by
  obtain ⟨group, inGroups, task, inFlight, stalls⟩ := stalled
  obtain ⟨_, _, inGroup⟩ := holds.groups group inGroups
  have traced := inGroup.traced task inFlight
  generalize same : eventsOf state.ledger.journal task.job = events at traced
  have began : .began ∈ eventsOf state.ledger.journal task.job := by
    rw [same]
    cases stalls with
    | pause never endless =>
      cases traced with
      | underway operations applied equipped pending => simp
  obtain ⟨entry, inJournal, _⟩ := mem_eventsOf.mp began
  exact ⟨entry, inJournal⟩

/-- An execution that has succeeded has applied every operation. -/
theorem applied_of_ok (holds : StateHolds site changes state) (isOver : state.isOver = true)
    (succeeds : state.result = .ok ()) {job : Job} (among : job.Among changes) :
    ∃ segments, List.Forall₂ (Applied site) job.change.operations segments ∧
      eventsOf state.ledger.journal job = .began :: segments.flatten ++ [.finished] := by
  have unfailed : ∀ entry ∈ state.ledger.journal, ¬ entry.event.Fails site := by
    intro entry inJournal fails
    obtain ⟨_, failure, _, failed⟩ := holds.safe.fails isOver entry inJournal fails
    rw [succeeds] at failed
    cases failed
  exact (holds.safe.complete isOver unfailed).2 job among

/-- An execution that has succeeded has called every operation. -/
theorem called_of_ok (holds : StateHolds site changes state) (isOver : state.isOver = true)
    (succeeds : state.result = .ok ()) {change : Swap} (member : change ∈ changes)
    {operation : Operation} (inOperations : operation ∈ change.operations) :
    CalledIn state.ledger.calls operation := by
  obtain ⟨place, found⟩ := List.mem_iff_getElem?.mp member
  have among : Job.Among changes ⟨place, change⟩ := ⟨found, List.ne_nil_of_mem inOperations⟩
  obtain ⟨segments, applied, same⟩ := holds.applied_of_ok isOver succeeds among
  have called : Called operation (eventsOf state.ledger.journal ⟨place, change⟩) := by
    rw [same]
    exact (called_of_applied applied inOperations).mono (fun event inside => by simp [inside])
  exact called.calledIn

/-- An execution that has failed did so with the failure of a change. -/
theorem ended_of_error (holds : StateHolds site changes state) {failure : Failure}
    (fails : state.result = .error failure) :
    ∃ job, job.Among changes ∧
      Ended site job (.error failure) (eventsOf state.ledger.journal job) := by
  obtain ⟨job, inJobs, ended, _⟩ := holds.of_mem_results (mem_of_forM_eq_error fails)
  exact ⟨job, Job.mem_ofChanges.mp inJobs, ended⟩

end StateHolds

/-- With enough steps an execution that has something to do attempts some operation. -/
theorem run_attempts (site : Site) (now : Nat) (busy : ∃ change ∈ changes, change.operations ≠ []) :
    ∃ bound, ∀ steps, bound < steps → ∃ change ∈ changes, ∃ operation ∈ change.operations,
      CalledIn (run site none steps now changes).ledger.calls operation ∨
        ¬ Equipped site operation := by
  refine ⟨(State.init now changes).work, fun steps enough => ?_⟩
  have holds := run_holds site none steps now changes
  have happened : ∃ entry, entry ∈ (run site none steps now changes).ledger.journal := by
    rcases run_progress site steps now changes with isOver | stalled | work
    · exact holds.exists_entry_of_over isOver busy
    · exact holds.exists_entry_of_stalled stalled
    · -- more steps than there is work can only have gone into polls
      have polled : 0 < (run site none steps now changes).ledger.journal.countP
          (fun entry => entry.event.isPoll) := by
        unfold spent at work
        omega
      obtain ⟨entry, inJournal, _⟩ := List.countP_pos_iff.mp polled
      exact ⟨entry, inJournal⟩
  obtain ⟨entry, inJournal⟩ := happened
  exact holds.attempted inJournal

end Execution

end StackSwap
