import Mathlib.Algebra.BigOperators.Group.List.Basic
import Mathlib.Algebra.Order.BigOperators.Group.List
import Mathlib.Algebra.Order.Group.Nat
import StackSwap.Proofs.Execution.Progress

namespace StackSwap

namespace Execution

variable {site : Site}

/-- Every pause takes some time. -/
structure Patient (site : Site) : Prop where
  slow : 0 < site.settings.slow.schedule.minDelay ∧ 0 < site.settings.slow.schedule.maxDelay
  standard :
    0 < site.settings.standard.schedule.minDelay ∧ 0 < site.settings.standard.schedule.maxDelay

/-- A bound on the polls of a wait. -/
def patience (site : Site) : Nat :=
  max site.settings.slow.schedule.maxWait site.settings.standard.schedule.maxWait + 1

namespace Event

/-- The number of polls among some events. -/
def polls (events : List Event) : Nat := events.countP isPoll

theorem polls_append (first second : List Event) :
    polls (first ++ second) = polls first + polls second := List.countP_append

end Event

/-- The time that some polls have taken, as the waiter after them knows it. -/
structure Timely (schedule : Schedule) (began count : Nat) (waiter : Waiter) (next : Option Nat) :
    Prop where
  sameSchedule : waiter.schedule = schedule
  delay : 0 < waiter.delay
  deadline : waiter.deadline = Clock.after? began schedule.maxWait
  later : ∀ time, next = some time → began + count ≤ time
  inTime : ∀ time, next = some time → time ≤ began + schedule.maxWait

/-- An instant that is not too late is within the time to wait. -/
theorem le_of_notTooLate {waiter : Waiter} {began limit time now delay : Nat}
    (deadline : waiter.deadline = Clock.after? began limit)
    (next : Clock.after? now delay = some time)
    (inTime : waiter.isTooLate (some time) = false) : time ≤ began + limit := by
  have notLate := (Waiter.isTooLate_iff deadline now delay).not
  rw [next, inTime] at notLate
  unfold Clock.after? at next
  split at next
  · cases next
    have early := notLate.mp Bool.false_ne_true
    omega
  · cases next

/-- All polls but the last were followed by a pause that takes time. -/
theorem Polling.timely {functionName : String} {schedule : Schedule}
    (takesTime : 0 < schedule.minDelay ∧ 0 < schedule.maxDelay) {polls : List Event}
    {waiter : Waiter} {next : Option Nat}
    (polling : Polling functionName schedule polls waiter next) :
    polls.length ≤ schedule.maxWait + 1 ∧
      ∃ began, Timely schedule began polls.length waiter next := by
  induction polling with
  | start now => exact ⟨Nat.zero_le _, now, rfl, takesTime.1, rfl, by simp, by simp⟩
  | @pause polls waiter next time now until? answer polling notBefore arrived inProgress pauses
      inTime ih =>
    obtain ⟨_, began, timely⟩ := ih
    -- each poll starts later than the one before, and none after the deadline
    have lower := timely.later next rfl
    have upper := timely.inTime next rfl
    refine ⟨by simp only [List.length_append, List.length_singleton]; omega, began, ?_⟩
    refine ⟨timely.sameSchedule, ?_, timely.deadline, ?_, ?_⟩
    · have bound : 0 < waiter.schedule.maxDelay := timely.sameSchedule ▸ takesTime.2
      exact Nat.lt_min.mpr ⟨Clock.double_pos timely.delay, bound⟩
    · rintro instant rfl
      have delay := timely.delay
      unfold Clock.after? at pauses
      split at pauses
      · cases pauses
        simp only [List.length_append, List.length_singleton]
        omega
      · cases pauses
    · rintro instant rfl
      exact le_of_notTooLate timely.deadline pauses inTime

theorem takesTime_of_scheduled {answer : Answer} {schedule : Schedule} (patient : Patient site)
    (scheduled : Scheduled site answer schedule) :
    (0 < schedule.minDelay ∧ 0 < schedule.maxDelay) ∧ schedule.maxWait + 1 ≤ patience site := by
  by_cases slow : answer.report.Slow
  · rw [scheduled.slow slow]
    exact ⟨patient.slow, by unfold patience; omega⟩
  · rw [scheduled.standard slow]
    exact ⟨patient.standard, by unfold patience; omega⟩

theorem Sends.polls_eq {operation : Operation} {client : Client} {call : ServiceCall}
    (sends : Sends operation client call) (time : Nat) (answer : Outcome Answer) :
    Event.polls [.attempted operation, .called ⟨time, call⟩ answer] = 0 := by
  cases sends <;> rfl

/-- The polls of a wait, and those before a further one. -/
theorem Awaiting.polls_le {operation : Operation} {functionName : String} {events : List Event}
    {waiter : Waiter} {next : Option Nat} (patient : Patient site)
    (awaiting : Awaiting site operation functionName events waiter next) :
    Event.polls events ≤ patience site ∧ (next ≠ none → Event.polls events + 1 ≤ patience site) := by
  cases awaiting with
  | @since call time answer schedule polls waiter next updates scheduled polling =>
    obtain ⟨takesTime, bound⟩ := takesTime_of_scheduled patient scheduled
    obtain ⟨atMost, began, timely⟩ := polling.timely takesTime
    have noPoll : Event.polls [.attempted operation, .called ⟨time, call⟩ (.ok answer),
        .awaited functionName schedule] = 0 := updates.sends.polls_eq time (.ok answer)
    have counted : Event.polls polls ≤ polls.length := List.countP_le_length
    rw [Event.polls_append, noPoll]
    refine ⟨by omega, fun further => ?_⟩
    obtain ⟨instant, isNext⟩ := Option.ne_none_iff_exists'.mp further
    have lower := timely.later instant isNext
    have upper := timely.inTime instant isNext
    omega

theorem Awaiting.polls_call_le {operation : Operation} {functionName : String}
    {events : List Event} {waiter : Waiter} {next : Nat} (patient : Patient site)
    (awaiting : Awaiting site operation functionName events waiter (some next)) (time : Nat)
    (answer : Outcome Answer) :
    Event.polls (events ++ [.called ⟨time, .getConfiguration functionName⟩ answer]) ≤
      patience site := by
  have bound := (awaiting.polls_le patient).2 (Option.some_ne_none next)
  have one : Event.polls [.called ⟨time, .getConfiguration functionName⟩ answer] = 1 := rfl
  rw [Event.polls_append, one]
  exact bound

theorem MovesAmong.polls_publication {functionName version : String} {aliases : List String}
    {moves : List Event} (moved : MovesAmong functionName version aliases moves)
    (request : VersionPublish) (time : Nat) (answer : Outcome Answer) :
    Event.polls ([.attempted (.publishVersion request),
      .called ⟨time, .publishVersion request.functionName⟩ answer] ++ moves) = 0 := by
  have unpolled : Event.polls moves = 0 := by
    apply List.countP_eq_zero.mpr
    intro event member
    obtain ⟨_, _, started⟩ := moved event member
    cases started
    exact Bool.false_ne_true
  have first : Event.polls [.attempted (.publishVersion request),
    .called ⟨time, .publishVersion request.functionName⟩ answer] = 0 := rfl
  rw [Event.polls_append, first, unpolled]

theorem Applied.polls_le {operation : Operation} {events : List Event} (patient : Patient site)
    (applied : Applied site operation events) : Event.polls events ≤ patience site := by
  cases applied with
  | update _ awaiting _ _ =>
    rw [Event.polls_append]
    exact awaiting.polls_call_le patient _ _
  | publish _ moved _ =>
    rw [Event.polls_append, (moved_of_forall₂ moved).polls_publication]
    exact Nat.zero_le _
  | single _ sends _ =>
    rw [Event.polls_append, sends.polls_eq]
    exact Nat.zero_le _

theorem Failing.polls_le {operation : Operation} {events : List Event} {failure : Failure}
    (patient : Patient site) (failing : Failing site operation events failure) :
    Event.polls events ≤ patience site := by
  cases failing with
  | unconfigured _ _ => exact Nat.zero_le _
  | refused sends =>
    rw [sends.polls_eq]
    exact Nat.zero_le _
  | waited awaiting _ _ => exact awaiting.polls_call_le patient _ _
  | late awaiting _ _ _ _ => exact awaiting.polls_call_le patient _ _
  | unmoved moved _ =>
    rw [MovesAmong.polls_publication moved]
    exact Nat.zero_le _

theorem Pending.polls_le {operation : Operation} {stage : Stage} {events : List Event}
    (patient : Patient site) (pending : Pending site operation stage events) :
    Event.polls events ≤ patience site := by
  cases pending with
  | update updates _ =>
    rw [updates.sends.polls_eq]
    exact Nat.zero_le _
  | poll awaiting _ _ _ => exact awaiting.polls_call_le patient _ _
  | pause awaiting => exact (awaiting.polls_le patient).1
  | publish _ => exact Nat.zero_le _
  | aliases moved _ _ _ =>
    rw [(moved_of_forall₂ moved).polls_publication]
    exact Nat.zero_le _
  | single sends _ _ =>
    rw [sends.polls_eq]
    exact Nat.zero_le _

theorem polls_flatten_le {operations : List Operation} {segments : List (List Event)}
    (patient : Patient site) (applied : List.Forall₂ (Applied site) operations segments) :
    Event.polls segments.flatten ≤ operations.length * patience site := by
  induction applied with
  | nil => exact Nat.zero_le _
  | cons first _ ih =>
    have here := first.polls_le patient
    rw [List.flatten_cons, Event.polls_append, List.length_cons, Nat.succ_mul]
    omega

theorem polls_course {operations done upcoming : List Operation} {current : Operation}
    {segments : List (List Event)} {events last : List Event} (patient : Patient site)
    (same : operations = done ++ current :: upcoming)
    (applied : List.Forall₂ (Applied site) done segments)
    (bound : Event.polls events ≤ patience site) (noPoll : Event.polls last = 0) :
    Event.polls (.began :: segments.flatten ++ events ++ last) ≤
      operations.length * patience site := by
  have earlier := polls_flatten_le patient applied
  have start : Event.polls (.began :: segments.flatten) = Event.polls segments.flatten := rfl
  rw [Event.polls_append, Event.polls_append, start, noPoll, same, List.length_append,
    List.length_cons, Nat.add_mul, Nat.succ_mul]
  omega

theorem Traced.polls_le {task : Task} {events : List Event} (patient : Patient site)
    (traced : Traced site task events) :
    Event.polls events ≤ task.job.change.operations.length * patience site := by
  cases traced with
  | fresh job => exact Nat.zero_le _
  | underway operations applied equipped pending =>
    have noPoll : Event.polls [] = 0 := rfl
    have bound := polls_course patient operations applied (pending.polls_le patient) noPoll
    rwa [List.append_nil] at bound

theorem Ended.polls_le {job : Job} {result : Outcome Unit} {events : List Event}
    (patient : Patient site) (ended : Ended site job result events) :
    Event.polls events ≤ job.change.operations.length * patience site := by
  cases ended with
  | skipped => exact Nat.zero_le _
  | @finished segments applied =>
    have bound := polls_flatten_le patient applied
    have start : Event.polls (.began :: segments.flatten) = Event.polls segments.flatten := rfl
    have last : Event.polls [.finished] = 0 := rfl
    rwa [Event.polls_append, start, last, Nat.add_zero]
  | failed operations applied failing =>
    exact polls_course patient operations applied (failing.polls_le patient) rfl

theorem polls_journal_le {jobs : List Job} {journal : List Entry}
    (known : ∀ entry ∈ journal, entry.job ∈ jobs) :
    journal.countP (fun entry => entry.event.isPoll) ≤
      (jobs.map (fun job => Event.polls (eventsOf journal job))).sum := by
  induction journal with
  | nil => exact Nat.zero_le _
  | cons entry rest ih =>
    have later := ih (fun other member => known other (List.mem_cons_of_mem _ member))
    have inJobs := known entry (List.mem_cons_self ..)
    -- the entry is one of the events of its own job, and perhaps of others
    have split : (jobs.map (fun job => Event.polls (eventsOf (entry :: rest) job))).sum =
        (jobs.map (fun job => Event.polls (eventsOf [entry] job))).sum +
          (jobs.map (fun job => Event.polls (eventsOf rest job))).sum := by
      rw [← List.sum_map_add]
      refine congrArg List.sum (List.map_congr_left fun job _ => ?_)
      rw [← Event.polls_append, ← eventsOf_append, List.singleton_append]
    have own : (if entry.event.isPoll then 1 else 0) ≤
        (jobs.map (fun job => Event.polls (eventsOf [entry] job))).sum := by
      have counts : Event.polls (eventsOf [entry] entry.job) =
          if entry.event.isPoll then 1 else 0 := by
        simp [Event.polls, eventsOf, List.countP_singleton]
      rw [← counts]
      exact List.single_le_sum (fun _ _ => Nat.zero_le _) _ (List.mem_map_of_mem inJobs)
    rw [List.countP_cons, split]
    omega

/-- An execution that waits with pauses polls only so often. -/
theorem spent_le {changes : List Swap} {state : State} (patient : Patient site)
    (holds : StateHolds site changes state) :
    spent state.ledger ≤ 2 * ((Job.ofChanges changes).map
      (fun job => job.change.operations.length * patience site)).sum := by
  refine Nat.mul_le_mul_left 2 (Nat.le_trans (polls_journal_le holds.known) ?_)
  apply List.sum_le_sum
  intro job member
  rcases holds.course member with ⟨task, rfl, traced⟩ | ⟨result, ended⟩
  · exact traced.polls_le patient
  · exact ended.polls_le patient

end Execution

end StackSwap
