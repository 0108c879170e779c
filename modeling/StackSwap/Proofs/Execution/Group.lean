import Mathlib.Data.List.Perm.Basic
import StackSwap.Proofs.Execution.Step

/-! Every change of a group is over, in flight or waiting, and its events in the journal tell which.
Visits keep this, and what one group writes leaves all others alone. -/

namespace StackSwap

namespace Execution

variable {site : Site} {jobs : List Job}

/-- A change that is over has ended, or was left out after a failure. -/
def IsOver (site : Site) (ledger : Ledger) (entry : Job × Outcome Unit) : Prop :=
  Ended site entry.1 entry.2 (eventsOf ledger.journal entry.1) ∧
    (eventsOf ledger.journal entry.1 = [] → ledger.hasFailed = true)

/-- The changes of a service are accounted for, whatever is over, in flight and waiting. -/
structure Holds (site : Site) (service : Service) (jobs : List Job)
    (closed : List (Job × Outcome Unit)) (tasks : List Task) (waiting : List Job) (ledger : Ledger) :
    Prop where
  services : ∀ job ∈ jobs, job.change.service = service
  places : (jobs.map Job.place).Nodup
  all : (closed.map Prod.fst ++ tasks.map Task.job ++ waiting).Perm jobs
  failures : closed.filterMap (fun entry => entry.2.failure?) = failuresOf ledger.journal service
  closed : ∀ entry ∈ closed, IsOver site ledger entry
  traced : ∀ task ∈ tasks, Traced site task (eventsOf ledger.journal task.job)
  waiting : ∀ job ∈ waiting, eventsOf ledger.journal job = []
  counted : begun ledger.journal service =
    ended ledger.journal service + tasks.countP Task.isUnderway
  bounded : tasks.length ≤ site.limit

/-- The journal grows by entries about some of these jobs. -/
structure Grows (site : Site) (jobs : List Job) (before after : Ledger) : Prop where
  journal : ∃ entries, after.journal = before.journal ++ entries ∧ ∀ entry ∈ entries, entry.job ∈ jobs
  sound : Sound site before.journal → Sound site after.journal

namespace Grows

theorem refl (ledger : Ledger) : Grows site jobs ledger ledger :=
  ⟨⟨[], by simp, by simp⟩, id⟩

theorem trans {first second third : Ledger} (left : Grows site jobs first second)
    (right : Grows site jobs second third) : Grows site jobs first third := by
  obtain ⟨early, same, fromJobs⟩ := left.journal
  obtain ⟨late, same', fromJobs'⟩ := right.journal
  refine ⟨⟨early ++ late, by simp [same, same'], ?_⟩, right.sound ∘ left.sound⟩
  exact List.forall_mem_append.mpr ⟨fromJobs, fromJobs'⟩

theorem of_extends {job : Job} (member : job ∈ jobs) {before after : Ledger} {events : List Event}
    (extends_ : Extends site job before events after) : Grows site jobs before after :=
  ⟨⟨_, extends_.journal, by simp [member]⟩, extends_.sound⟩

theorem hasFailed {before after : Ledger} (grows : Grows site jobs before after)
    (failed : before.hasFailed = true) : after.hasFailed = true := by
  obtain ⟨entries, same, _⟩ := grows.journal
  obtain ⟨entry, member, failure⟩ := hasFailed_iff.mp failed
  exact hasFailed_iff.mpr ⟨entry, same ▸ List.mem_append_left _ member, failure⟩

end Grows

/-- What is written about changes of other services leaves a group alone. -/
theorem Holds.frame {service : Service} {others : List Job} {closed : List (Job × Outcome Unit)}
    {tasks : List Task} {waiting : List Job} {before after : Ledger}
    (holds : Holds site service jobs closed tasks waiting before)
    (grows : Grows site others before after)
    (apart : ∀ other ∈ others, other.change.service ≠ service ∧
      ∀ job ∈ jobs, other.place ≠ job.place) :
    Holds site service jobs closed tasks waiting after := by
  obtain ⟨entries, same, fromOthers⟩ := grows.journal
  have unchanged : ∀ job ∈ jobs, eventsOf after.journal job = eventsOf before.journal job := by
    intro job member
    have elsewhere : eventsOf entries job = [] := eventsOf_of_other
      (fun entry inside => (apart entry.job (fromOthers entry inside)).2 job member)
    rw [same, eventsOf_append, elsewhere, List.append_nil]
  have otherService : ∀ entry ∈ entries, entry.job.change.service ≠ service :=
    fun entry inside => (apart entry.job (fromOthers entry inside)).1
  have isJob : ∀ job ∈ closed.map Prod.fst ++ tasks.map Task.job ++ waiting, job ∈ jobs :=
    fun job member => holds.all.mem_iff.mp member
  refine ⟨holds.services, holds.places, holds.all, ?_, ?_, ?_, ?_, ?_, holds.bounded⟩
  · rw [same, failuresOf_append, failuresOf_of_other otherService, List.append_nil]
    exact holds.failures
  · intro entry member
    obtain ⟨ended, skipped⟩ := holds.closed entry member
    rw [IsOver, unchanged entry.1 (isJob _ (by simp [List.mem_map_of_mem (f := Prod.fst) member]))]
    exact ⟨ended, fun silent => grows.hasFailed (skipped silent)⟩
  · intro task member
    rw [unchanged task.job (isJob _ (by simp [List.mem_map_of_mem (f := Task.job) member]))]
    exact holds.traced task member
  · intro job member
    rw [unchanged job (isJob _ (by simp [member]))]
    exact holds.waiting job member
  · rw [same, begun_append, ended_append, begun_of_other otherService, ended_of_other otherService]
    simpa using holds.counted

/-- The tasks may be listed in any order. -/
theorem Holds.perm {service : Service} {closed : List (Job × Outcome Unit)} {tasks tasks' : List Task}
    {waiting : List Job} {ledger : Ledger}
    (holds : Holds site service jobs closed tasks waiting ledger) (same : tasks.Perm tasks') :
    Holds site service jobs closed tasks' waiting ledger where
  services := holds.services
  places := holds.places
  all := (((same.map Task.job).symm.append_left _).append_right _).trans holds.all
  failures := holds.failures
  closed := holds.closed
  traced := fun task member => holds.traced task (same.mem_iff.mpr member)
  waiting := holds.waiting
  counted := same.countP_eq Task.isUnderway ▸ holds.counted
  bounded := same.length_eq ▸ holds.bounded

theorem Holds.take {service : Service} {closed : List (Job × Outcome Unit)} {tasks : List Task}
    {waiting : List Job} {ledger : Ledger}
    (holds : Holds site service jobs closed tasks waiting ledger) {room : Nat}
    (enough : tasks.length + room ≤ site.limit) :
    Holds site service jobs closed (tasks ++ (waiting.take room).map Task.fresh) (waiting.drop room)
      ledger where
  services := holds.services
  places := holds.places
  all := by
    have jobsOfFresh : ((waiting.take room).map Task.fresh).map Task.job = waiting.take room := by
      simp [Function.comp_def, Task.job]
    rw [List.map_append, jobsOfFresh, ← List.append_assoc, List.append_assoc,
      List.take_append_drop]
    exact holds.all
  failures := holds.failures
  closed := holds.closed
  traced := by
    refine List.forall_mem_append.mpr ⟨holds.traced, ?_⟩
    intro task member
    obtain ⟨job, inWaiting, rfl⟩ := List.mem_map.mp member
    simp only [Task.job, holds.waiting job (List.mem_of_mem_take inWaiting)]
    exact .fresh job
  waiting := fun job member => holds.waiting job (List.mem_of_mem_drop member)
  counted := by
    have noneBegun : ((waiting.take room).map Task.fresh).countP Task.isUnderway = 0 := by
      rw [List.countP_map]
      exact List.countP_eq_zero.mpr (fun job _ => Bool.false_ne_true)
    rw [List.countP_append, noneBegun, Nat.add_zero]
    exact holds.counted
  bounded := by
    simp only [List.length_append, List.length_map, List.length_take]
    omega

section Step

variable {service : Service} {closed : List (Job × Outcome Unit)} {task : Task} {others : List Task}
  {waiting : List Job} {before after : Ledger} {more : List Event}

theorem Holds.mem_jobs (holds : Holds site service jobs closed (task :: others) waiting before) :
    task.job ∈ jobs :=
  holds.all.mem_iff.mp (by simp)

/-- A change that has not been taken up finds room. -/
theorem Holds.hasRoom (holds : Holds site service jobs closed (task :: others) waiting before) :
    HasRoom site before task := by
  cases task with
  | underway => trivial
  | fresh job =>
    have counted := holds.counted
    have bounded := holds.bounded
    have underway : others.countP Task.isUnderway ≤ others.length := List.countP_le_length
    have sameService := holds.services _ holds.mem_jobs
    simp only [Task.job] at sameService
    simp only [HasRoom, sameService]
    simp only [List.countP_cons, Task.isUnderway, List.length_cons, Bool.false_eq_true,
      ↓reduceIte] at counted bounded
    omega

theorem Holds.apart (holds : Holds site service jobs closed (task :: others) waiting before) {job : Job}
    (member : job ∈ closed.map Prod.fst ++ others.map Task.job ++ waiting) :
    job.place ≠ task.job.place := by
  have distinct := (holds.all.map Job.place).nodup_iff.mpr holds.places
  have split : (closed.map Prod.fst ++ (task :: others).map Task.job ++ waiting).Perm
      (task.job :: (closed.map Prod.fst ++ others.map Task.job ++ waiting)) := by
    simp only [List.map_cons, List.append_assoc, List.cons_append]
    exact List.perm_middle
  have fresh := ((split.map Job.place).nodup_iff.mp distinct)
  rw [List.map_cons, List.nodup_cons] at fresh
  intro same
  exact fresh.1 (List.mem_map.mpr ⟨job, member, same⟩)

theorem Holds.beside (holds : Holds site service jobs closed (task :: others) waiting before)
    (extends_ : Extends site task.job before more after) :
    ∀ job ∈ closed.map Prod.fst ++ others.map Task.job ++ waiting,
      eventsOf after.journal job = eventsOf before.journal job := by
  intro job member
  have elsewhere : eventsOf (more.map (Entry.mk task.job)) job = [] := by
    apply eventsOf_of_other
    intro entry inside
    obtain ⟨event, _, rfl⟩ := List.mem_map.mp inside
    exact (holds.apart member).symm
  rw [extends_.journal, eventsOf_append, elsewhere, List.append_nil]

theorem Holds.own (extends_ : Extends site task.job before more after) :
    eventsOf after.journal task.job = eventsOf before.journal task.job ++ more := by
  rw [extends_.journal, eventsOf_append, eventsOf_own]

theorem Holds.hasFailed (extends_ : Extends site task.job before more after)
    (failed : before.hasFailed = true) : after.hasFailed = true :=
  (Grows.of_extends (List.mem_singleton_self _) extends_).hasFailed failed

theorem Holds.counts (holds : Holds site service jobs closed (task :: others) waiting before)
    (extends_ : Extends site task.job before more after) :
    begun after.journal service = begun before.journal service + more.countP Event.isBegin ∧
      ended after.journal service = ended before.journal service + more.countP Event.isEnd := by
  have sameService := holds.services _ holds.mem_jobs
  rw [extends_.journal, begun_append, ended_append, ← sameService, begun_own, ended_own]
  exact ⟨rfl, rfl⟩

theorem Holds.failures_after (holds : Holds site service jobs closed (task :: others) waiting before)
    (extends_ : Extends site task.job before more after) :
    failuresOf after.journal service =
      failuresOf before.journal service ++ more.filterMap Event.failure? := by
  have sameService := holds.services _ holds.mem_jobs
  rw [extends_.journal, failuresOf_append, ← sameService, failuresOf_own]

theorem Holds.goOn (holds : Holds site service jobs closed (task :: others) waiting before)
    (extends_ : Extends site task.job before more after) {later : Task}
    (turned : Turned site task.job (eventsOf before.journal task.job ++ more) (.inl later, after)) :
    Holds site service jobs closed (later :: others) waiting after := by
  obtain ⟨sameJob, traced⟩ := turned
  have beside := holds.beside extends_
  refine ⟨holds.services, holds.places, ?_, ?_, ?_, ?_, ?_, ?_, ?_⟩
  · simpa [sameJob] using holds.all
  · have noneLater := traced.failures
    rw [List.filterMap_append, List.append_eq_nil_iff] at noneLater
    rw [holds.failures_after extends_, noneLater.2, List.append_nil]
    exact holds.failures
  · intro entry member
    obtain ⟨ended, skipped⟩ := holds.closed entry member
    rw [IsOver, beside entry.1 (by simp [List.mem_map_of_mem (f := Prod.fst) member])]
    exact ⟨ended, fun silent => Holds.hasFailed extends_ (skipped silent)⟩
  · refine List.forall_mem_cons.mpr ⟨?_, fun other member => ?_⟩
    · rw [sameJob, Holds.own extends_]
      exact traced
    · rw [beside other.job (by simp [List.mem_map_of_mem (f := Task.job) member])]
      exact holds.traced other (List.mem_cons_of_mem _ member)
  · intro job member
    rw [beside job (by simp [member])]
    exact holds.waiting job member
  · obtain ⟨begins, ends⟩ := holds.counts extends_
    obtain ⟨beganBefore, endedBefore⟩ := (holds.traced task (List.mem_cons_self ..)).count
    obtain ⟨beganAfter, endedAfter⟩ := traced.count
    have counted := holds.counted
    simp only [List.countP_append, List.countP_cons] at *
    omega
  · exact holds.bounded

theorem Holds.finish (holds : Holds site service jobs closed (task :: others) waiting before)
    (extends_ : Extends site task.job before more after) {result : Outcome Unit}
    (turned : Turned site task.job (eventsOf before.journal task.job ++ more) (.inr result, after)) :
    Holds site service jobs (closed ++ [(task.job, result)]) others waiting after := by
  obtain ⟨ended, skipped⟩ := turned
  have beside := holds.beside extends_
  refine ⟨holds.services, holds.places, ?_, ?_, ?_, ?_, ?_, ?_, ?_⟩
  · simpa using holds.all
  · have noneBefore := (holds.traced task (List.mem_cons_self ..)).failures
    have own := ended.failures
    rw [List.filterMap_append, noneBefore, List.nil_append] at own
    rw [holds.failures_after extends_, own, List.filterMap_append, holds.failures]
    cases result <;> rfl
  · refine List.forall_mem_append.mpr ⟨fun entry member => ?_, ?_⟩
    · obtain ⟨ended, skipped⟩ := holds.closed entry member
      rw [IsOver, beside entry.1 (by simp [List.mem_map_of_mem (f := Prod.fst) member])]
      exact ⟨ended, fun silent => Holds.hasFailed extends_ (skipped silent)⟩
    · rw [List.forall_mem_singleton, IsOver, Holds.own extends_]
      exact ⟨ended, skipped⟩
  · intro other member
    rw [beside other.job (by simp [List.mem_map_of_mem (f := Task.job) member])]
    exact holds.traced other (List.mem_cons_of_mem _ member)
  · intro job member
    rw [beside job (by simp [member])]
    exact holds.waiting job member
  · obtain ⟨begins, ends⟩ := holds.counts extends_
    obtain ⟨beganBefore, endedBefore⟩ := (holds.traced task (List.mem_cons_self ..)).count
    have balanced := ended.count
    have counted := holds.counted
    simp only [List.countP_append, List.countP_cons] at *
    omega
  · exact Nat.le_trans (Nat.le_succ _) holds.bounded

end Step

/-- The changes of a group are accounted for, some of those in flight being ready to go on. -/
def GroupHolds (site : Site) (jobs : List Job) (ready : List Task) (group : Group)
    (ledger : Ledger) : Prop :=
  ∃ closed, group.results = closed.map Prod.snd ∧
    Holds site group.service jobs closed (ready ++ group.inFlight) group.waiting ledger

theorem due_fill {now limit : Nat} {ready : List Task} {group : Group}
    (due : ∀ task ∈ ready, task.wake.isDue now = true) :
    ∀ task ∈ (Group.fill limit ready group).1, task.wake.isDue now = true := by
  refine List.forall_mem_append.mpr ⟨due, fun task member => ?_⟩
  obtain ⟨job, _, rfl⟩ := List.mem_map.mp member
  simp [Task.wake, Wake.isDue]

namespace GroupHolds

theorem fill {ready : List Task} {group : Group} {ledger : Ledger}
    (holds : GroupHolds site jobs ready group ledger) :
    GroupHolds site jobs (Group.fill site.limit ready group).1 (Group.fill site.limit ready group).2
      ledger := by
  obtain ⟨closed, results, holds⟩ := holds
  have enough : (ready ++ group.inFlight).length +
      (site.limit - (group.inFlight.length + ready.length)) ≤ site.limit := by
    have bounded := holds.bounded
    rw [List.length_append] at *
    omega
  refine ⟨closed, results, (holds.take enough).perm ?_⟩
  simp only [Group.fill, List.append_assoc]
  exact List.perm_append_comm.append_left ready

/-- Going on with the ready changes and those that find room keeps the changes accounted for. -/
theorem pump {now steps : Nat} (turns : Nat) {ready : List Task} {group : Group} {ledger : Ledger}
    (holds : GroupHolds site jobs ready group ledger)
    (due : ∀ task ∈ ready, task.wake.isDue now = true) :
    GroupHolds site jobs [] (Group.pump site now steps site.limit turns ready group ledger).1
        (Group.pump site now steps site.limit turns ready group ledger).2 ∧
      Grows site jobs ledger (Group.pump site now steps site.limit turns ready group ledger).2 ∧
      (Group.pump site now steps site.limit turns ready group ledger).1.service = group.service := by
  induction turns generalizing ready group ledger with
  | zero =>
    obtain ⟨closed, results, holds⟩ := holds
    exact ⟨⟨closed, results, holds.perm List.perm_append_comm⟩, .refl ledger, rfl⟩
  | succ turns ih =>
    -- the turn first takes up waiting changes, so the changes are accounted for with those in flight
    have filled := holds.fill
    have dueFilled : ∀ task ∈ (Group.fill site.limit ready group).1, task.wake.isDue now = true :=
      due_fill due
    have sameService : (Group.fill site.limit ready group).2.service = group.service := rfl
    generalize fills : Group.fill site.limit ready group = pair at filled dueFilled sameService
    obtain ⟨ready, room⟩ := pair
    cases ready with
    | nil =>
      simp only [Group.pump, fills]
      exact ⟨filled, .refl ledger, sameService⟩
    | cons task others =>
      obtain ⟨closed, results, holds⟩ := filled
      dsimp only at results holds sameService
      have taskDue := dueFilled task (List.mem_cons_self ..)
      have othersDue : ∀ other ∈ others, other.wake.isDue now = true :=
        fun other member => dueFilled other (List.mem_cons_of_mem _ member)
      obtain ⟨more, extends_, turned⟩ := advance_spec steps
        (holds.traced task (List.mem_cons_self ..)) taskDue holds.hasRoom
      have grows := Grows.of_extends holds.mem_jobs extends_
      generalize advanced : task.advance site now steps ledger = turn at extends_ turned grows
      obtain ⟨outcome, after⟩ := turn
      simp only [Group.pump, fills, advanced]
      cases outcome with
      | inl later =>
        have kept : GroupHolds site jobs others { room with inFlight := room.inFlight ++ [later] }
            after := by
          refine ⟨closed, results, (holds.goOn extends_ turned).perm ?_⟩
          rw [← List.append_assoc]
          exact List.perm_append_singleton later _ |>.symm
        obtain ⟨final, rest, service⟩ := ih kept othersDue
        exact ⟨final, grows.trans rest, service.trans sameService⟩
      | inr result =>
        have kept : GroupHolds site jobs others { room with results := room.results ++ [result] }
            after :=
          ⟨closed ++ [(task.job, result)], by simp [results], holds.finish extends_ turned⟩
        obtain ⟨final, rest, service⟩ := ih kept othersDue
        exact ⟨final, grows.trans rest, service.trans sameService⟩

theorem visit {group : Group} {ledger : Ledger} (holds : GroupHolds site jobs [] group ledger)
    (now steps : Nat) :
    GroupHolds site jobs [] (group.visit site now steps ledger).1
        (group.visit site now steps ledger).2 ∧
      Grows site jobs ledger (group.visit site now steps ledger).2 ∧
      (group.visit site now steps ledger).1.service = group.service := by
  obtain ⟨closed, results, holds⟩ := holds
  have sorted := List.mergeSort_perm (group.inFlight.filter (fun task => task.wake.isDue now))
    (fun first second => !second.wake.isBefore first.wake)
  refine pump _ ⟨closed, results, holds.perm ?_⟩ ?_
  · exact (List.filter_append_perm _ group.inFlight).symm.trans (sorted.symm.append_right _)
  · intro task member
    exact (List.mem_filter.mp (sorted.mem_iff.mp member)).2

end GroupHolds

end Execution

end StackSwap
