import StackSwap.Proofs.Execution.Operation

namespace StackSwap

namespace Execution

variable {site : Site} {job : Job}

/-- What has become of a change with these events. A change is only left out after a failure. -/
def Turned (site : Site) (job : Job) (events : List Event) : Task.Turn → Prop
  | (.inl task, _) => task.job = job ∧ Traced site task events
  | (.inr result, ledger) => Ended site job result events ∧ (events = [] → ledger.hasFailed = true)

/-- Going on with the operations that are left, the others having succeeded. -/
theorem next_spec (now : Nat) {done upcoming : List Operation} {segments : List (List Event)}
    (operations : job.change.operations = done ++ upcoming)
    (applied : List.Forall₂ (Applied site) done segments) (ledger : Ledger) :
    ∃ more, Extends site job ledger more (Task.next site now job upcoming ledger).2 ∧
      Turned site job (.began :: segments.flatten ++ more) (Task.next site now job upcoming ledger) := by
  cases upcoming with
  | nil =>
    rw [List.append_nil] at operations
    exact ⟨[.finished], .note ledger (by simp) (by simp), .finished (operations ▸ applied), by simp⟩
  | cons operation upcoming =>
    obtain ⟨events, extends_, starts⟩ :=
      startOperation_spec site job now operation ledger
    generalize started : startOperation site now job operation ledger = outcome at extends_ starts
    obtain ⟨outcome, after⟩ := outcome
    cases outcome with
    | ok stage =>
      simp only [Task.next, started]
      exact ⟨events, extends_, rfl, .underway operations applied starts.1 starts.2⟩
    | error failure =>
      simp only [Task.next, started, Task.fail]
      refine ⟨events ++ [.failed failure], extends_.trans (.note after (by simp) (by simp)), ?_, by simp⟩
      rw [← List.append_assoc]
      exact .failed operations applied starts

/-- A change may be taken up if its service has room. -/
def HasRoom (site : Site) (ledger : Ledger) : Task → Prop
  | .fresh job =>
    begun ledger.journal job.change.service <
      ended ledger.journal job.change.service + site.limit
  | .underway .. => True

theorem hasFailed_iff {ledger : Ledger} :
    ledger.hasFailed = true ↔ ∃ entry ∈ ledger.journal, entry.isFailure = true := by
  simp [Ledger.hasFailed]

theorem Extends.began {ledger : Ledger} (room : HasRoom site ledger (.fresh job))
    (unfailed : ledger.hasFailed = false) :
    Extends site job ledger [.began] (ledger.note job .began) := by
  refine ⟨rfl, fun sound => sound.snoc ⟨?_, ?_, fun _ => room⟩⟩
  · rintro started answer ⟨⟩
  · intro _ entry member
    by_contra failed
    have hasFailed := hasFailed_iff.mpr ⟨entry, member, by simpa using failed⟩
    rw [unfailed] at hasFailed
    cases hasFailed

/-- One step of a change whose wait is over leads on in its course. -/
theorem step_spec {now : Nat} {task : Task} {events : List Event} {ledger : Ledger}
    (traced : Traced site task events) (due : task.wake.isDue now = true)
    (room : HasRoom site ledger task) :
    ∃ more, Extends site task.job ledger more (Task.step site now ledger task).2 ∧
      Turned site task.job (events ++ more) (Task.step site now ledger task) := by
  cases traced with
  | fresh job =>
    by_cases failed : ledger.hasFailed = true
    · simp only [Task.step, failed, ↓reduceIte]
      exact ⟨[], .refl site _ ledger, .skipped, fun _ => failed⟩
    · simp only [Task.step, failed, Bool.false_eq_true, ↓reduceIte]
      have began := Extends.began room (Bool.eq_false_iff.mpr failed)
      have nothingDone : job.change.operations = [] ++ job.change.operations := rfl
      obtain ⟨more, extends_, turned⟩ := next_spec now nothingDone .nil (ledger.note job .began)
      exact ⟨_, began.trans extends_, turned⟩
  | @underway job done upcoming current segments stage own operations applied equipped pending =>
    obtain ⟨more, extends_, continues⟩ := resume_goesOn job equipped pending due ledger
    generalize resumed : resume site now job ledger stage = progress at extends_ continues
    obtain ⟨progress, after⟩ := progress
    cases progress with
    | waits stage =>
      simp only [Task.step, resumed, Task.job]
      refine ⟨more, extends_, rfl, ?_⟩
      rw [List.append_assoc]
      exact .underway operations applied equipped continues
    | ends result =>
      cases result with
      | ok _ =>
        simp only [Task.step, resumed, Task.job]
        have noted : Extends site job after [.applied current] (after.note job (.applied current)) :=
          .note after (by simp) (by simp)
        have allApplied : List.Forall₂ (Applied site) (done ++ [current])
            (segments ++ [own ++ more ++ [.applied current]]) :=
          List.rel_append applied (.cons continues .nil)
        have left : job.change.operations = done ++ [current] ++ upcoming := by simp [operations]
        obtain ⟨rest, restExtends, turned⟩ :=
          next_spec now left allApplied (after.note job (.applied current))
        refine ⟨_, (extends_.trans noted).trans restExtends, ?_⟩
        simpa [List.append_assoc] using turned
      | error failure =>
        simp only [Task.step, resumed, Task.fail, Task.job]
        refine ⟨_, extends_.trans (.note after (by simp) (by simp)), ?_, by simp⟩
        have ended := Ended.failed operations applied continues
        simpa [List.append_assoc] using ended

theorem hasRoom_of_next {now : Nat} {upcoming : List Operation} {ledger : Ledger} {later : Task}
    (goesOn : (Task.next site now job upcoming ledger).1 = .inl later) (after : Ledger) :
    HasRoom site after later := by
  cases upcoming with
  | nil => cases goesOn
  | cons operation upcoming =>
    simp only [Task.next] at goesOn
    split at goesOn
    · cases goesOn
      trivial
    · cases goesOn

theorem hasRoom_of_step {now : Nat} {task later : Task} {ledger : Ledger}
    (goesOn : (Task.step site now ledger task).1 = .inl later) (after : Ledger) :
    HasRoom site after later := by
  cases task with
  | fresh job =>
    simp only [Task.step] at goesOn
    split at goesOn
    · cases goesOn
    · exact hasRoom_of_next goesOn after
  | underway job current upcoming stage =>
    simp only [Task.step] at goesOn
    split at goesOn
    · cases goesOn
      trivial
    · exact hasRoom_of_next goesOn after
    · cases goesOn

theorem advance_spec {now : Nat} (steps : Nat) {task : Task} {events : List Event} {ledger : Ledger}
    (traced : Traced site task events) (due : task.wake.isDue now = true)
    (room : HasRoom site ledger task) :
    ∃ more, Extends site task.job ledger more (Task.advance site now steps task ledger).2 ∧
      Turned site task.job (events ++ more) (Task.advance site now steps task ledger) := by
  induction steps generalizing task events ledger with
  | zero => exact ⟨[], .refl site task.job ledger, rfl, by simpa using traced⟩
  | succ steps ih =>
    obtain ⟨more, extends_, turned⟩ := step_spec traced due room
    -- a change that goes on was taken up, so the room of its service matters no more
    have kept : ∀ later, (Task.step site now ledger task).1 = .inl later →
        ∀ after, HasRoom site after later := fun _ goesOn after => hasRoom_of_step goesOn after
    generalize stepped : Task.step site now ledger task = turn at extends_ turned kept
    obtain ⟨outcome, after⟩ := turn
    cases outcome with
    | inr result =>
      simp only [Task.advance, stepped]
      exact ⟨more, extends_, turned⟩
    | inl later =>
      obtain ⟨sameJob, laterTraced⟩ := turned
      simp only [Task.advance, stepped]
      split
      · rename_i laterDue
        obtain ⟨rest, restExtends, restTurned⟩ := ih laterTraced laterDue (kept later rfl after)
        rw [sameJob] at restExtends restTurned
        exact ⟨_, extends_.trans restExtends, by simpa [List.append_assoc] using restTurned⟩
      · exact ⟨more, extends_, sameJob, laterTraced⟩

/-! Counting beginnings and ends, and collecting failures -/

theorem quiet_flatten {operations : List Operation} {segments : List (List Event)}
    (applied : List.Forall₂ (Applied site) operations segments) : Quiet segments.flatten := by
  induction applied with
  | nil => simp [Quiet]
  | cons first _ ih => exact first.quiet.append ih

namespace Task

/-- Whether the change has been taken up. -/
def isUnderway : Task → Bool
  | .fresh _ => false
  | .underway .. => true

end Task

theorem Traced.count {task : Task} {events : List Event} (traced : Traced site task events) :
    events.countP Event.isBegin = (if task.isUnderway then 1 else 0) ∧
      events.countP Event.isEnd = 0 := by
  cases traced with
  | fresh job => simp [Task.isUnderway]
  | underway operations applied configured pending =>
    obtain ⟨noBegin, noEnd⟩ := (quiet_flatten applied).count
    obtain ⟨noBegin', noEnd'⟩ := pending.quiet.count
    simp [List.countP_append, List.countP_cons, noBegin, noEnd, noBegin', noEnd', Task.isUnderway,
      Event.isBegin, Event.isEnd]

theorem Ended.count {result : Outcome Unit} {events : List Event}
    (ended : Ended site job result events) :
    events.countP Event.isBegin = events.countP Event.isEnd := by
  cases ended with
  | skipped => rfl
  | finished applied =>
    obtain ⟨noBegin, noEnd⟩ := (quiet_flatten applied).count
    simp [List.countP_append, List.countP_cons, noBegin, noEnd, Event.isBegin, Event.isEnd]
  | failed operations applied failing =>
    obtain ⟨noBegin, noEnd⟩ := (quiet_flatten applied).count
    obtain ⟨noBegin', noEnd'⟩ := failing.quiet.count
    simp [List.countP_append, List.countP_cons, noBegin, noEnd, noBegin', noEnd', Event.isBegin,
      Event.isEnd]

theorem Quiet.failures {events : List Event} (quiet : Quiet events) :
    events.filterMap Event.failure? = [] := by
  apply List.filterMap_eq_nil_iff.mpr
  intro event member
  have noEnd := (quiet event member).2
  cases event <;> simp_all [Event.failure?, Event.isEnd]

theorem Traced.failures {task : Task} {events : List Event} (traced : Traced site task events) :
    events.filterMap Event.failure? = [] := by
  cases traced with
  | fresh job => rfl
  | underway operations applied configured pending =>
    rw [List.cons_append, List.filterMap_cons, List.filterMap_append,
      (quiet_flatten applied).failures, pending.quiet.failures]
    rfl

theorem Ended.failures {result : Outcome Unit} {events : List Event}
    (ended : Ended site job result events) :
    events.filterMap Event.failure? = result.failure?.toList := by
  cases ended with
  | skipped => rfl
  | finished applied =>
    rw [List.cons_append, List.filterMap_cons, List.filterMap_append,
      (quiet_flatten applied).failures]
    rfl
  | failed operations applied failing =>
    rw [List.filterMap_append, List.cons_append, List.filterMap_cons, List.filterMap_append,
      (quiet_flatten applied).failures, failing.quiet.failures]
    rfl

end Execution

end StackSwap
