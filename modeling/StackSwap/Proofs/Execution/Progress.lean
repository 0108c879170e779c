import Mathlib.Algebra.GroupWithZero.Nat
import StackSwap.Proofs.Execution.Run

/-! Each stage has some work left, and going on with it takes some of that away, except that a poll
may lead to a pause and so to another poll. -/

namespace StackSwap

namespace Execution

variable (site : Site) (job : Job)

/-- The stages that an operation goes through, without its polls. -/
def workOf : Operation → Nat
  | .publishVersion request => request.aliases.length + 1
  | _ => 1

/-- The stages that are left for some operations. -/
def workOfAll (operations : List Operation) : Nat := (operations.map workOf).sum

namespace Stage

/-- The stages that are left of an operation; those after a poll are counted by the poll. -/
def work : Stage → Nat
  | .update .. => 1
  | .poll .. => 2
  | .pause .. => 1
  | .publish _ request _ => request.aliases.length + 1
  | .aliases moves => moves.length
  | .single .. => 1

end Stage

namespace Progress

/-- The stages that are left of an operation. -/
def work : Progress → Nat
  | .waits stage => stage.work
  | .ends _ => 0

end Progress

namespace Job

/-- The stages of a change that waits. -/
def work (job : Job) : Nat := workOfAll job.change.operations + 1

end Job

namespace Task

/-- The stages that are left of a change. -/
def work : Task → Nat
  | .fresh job => job.work
  | .underway _ _ upcoming stage => stage.work + workOfAll upcoming

end Task

/-- The stages that a turn leaves. -/
def workOfTurn : Task ⊕ Outcome Unit → Nat
  | .inl task => task.work
  | .inr _ => 0

namespace Event

/-- Whether a poll is started. -/
def isPoll : Event → Bool
  | .called ⟨_, .getConfiguration _⟩ _ => true
  | _ => false

end Event

/-- The stages that polls have added. -/
def spent (ledger : Ledger) : Nat :=
  2 * ledger.journal.countP (fun entry => entry.event.isPoll)

theorem spent_note (ledger : Ledger) (job : Job) (event : Event) :
    spent (ledger.note job event) = spent ledger + if event.isPoll then 2 else 0 := by
  simp only [spent, Ledger.note, List.countP_append, List.countP_singleton]
  split <;> omega

theorem spent_send (ledger : Ledger) (now : Nat) (job : Job) (call : ServiceCall) :
    spent (ledger.send site now job call).2 = spent ledger +
      if (Event.called ⟨now, call⟩ (ledger.answer site call)).isPoll then 2 else 0 :=
  spent_note ledger job _

theorem startPoll_work (now : Nat) (functionName : String) (waiter : Waiter) (ledger : Ledger) :
    (startPoll site now job functionName waiter ledger).1.work = 2 ∧
      spent (startPoll site now job functionName waiter ledger).2 = spent ledger + 2 :=
  ⟨rfl, spent_send site ledger now job (.getConfiguration functionName)⟩

theorem startAliases_work (now : Nat) (functionName version : String) (aliases : List String)
    (moves : List AliasMove) (ledger : Ledger) :
    (startAliases site now job functionName version aliases moves ledger).1.work ≤
        moves.length + aliases.length ∧
      spent (startAliases site now job functionName version aliases moves ledger).2 =
        spent ledger := by
  induction aliases generalizing moves ledger with
  | nil => cases moves <;> simp [startAliases, Progress.work, Stage.work]
  | cons aliasName rest ih =>
    have sent := spent_send site ledger now job (.updateAlias functionName aliasName version)
    simp only [Event.isPoll, Bool.false_eq_true, ↓reduceIte, Nat.add_zero] at sent
    simp only [startAliases]
    split
    · split
      · exact ⟨Nat.zero_le _, sent⟩
      · obtain ⟨work, same⟩ := ih moves
          (ledger.send site now job (.updateAlias functionName aliasName version)).2
        refine ⟨Nat.le_trans work ?_, same.trans sent⟩
        simp only [List.length_cons]
        omega
    · obtain ⟨work, same⟩ := ih (moves ++ [⟨(ledger.send site now job
          (.updateAlias functionName aliasName version)).1,
          ledger.answer site (.updateAlias functionName aliasName version)⟩])
        (ledger.send site now job (.updateAlias functionName aliasName version)).2
      refine ⟨Nat.le_trans work ?_, same.trans sent⟩
      simp only [List.length_append, List.length_cons, List.length_nil]
      omega

theorem isDue_earlier {first second : Wake} {now : Nat}
    (due : (first.earlier second).isDue now = true) :
    first.isDue now = true ∨ second.isDue now = true := by
  unfold Wake.earlier at due
  split at due
  · exact .inr due
  · exact .inl due

theorem exists_isDue {moves : List AliasMove} {wake : Wake} {now : Nat}
    (due : (moves.foldl (fun wake move => wake.earlier move.wake) wake).isDue now = true) :
    wake.isDue now = true ∨ ∃ move ∈ moves, move.wake.isDue now = true := by
  induction moves generalizing wake with
  | nil => exact .inl due
  | cons move rest ih =>
    rcases ih due with here | ⟨other, inRest, later⟩
    · rcases isDue_earlier here with before | this
      · exact .inl before
      · exact .inr ⟨move, List.mem_cons_self .., this⟩
    · exact .inr ⟨other, List.mem_cons_of_mem _ inRest, later⟩

theorem settleAliases_length {now : Nat} {moves left : List AliasMove}
    (settled : settleAliases now moves = .ok left) :
    left.length + moves.countP (fun move => move.wake.isDue now) = moves.length := by
  induction moves generalizing left with
  | nil =>
    cases settled
    rfl
  | cons move rest ih =>
    simp only [settleAliases] at settled
    split at settled
    · rename_i due
      split at settled
      · cases settled
      · have here := ih settled
        simp only [List.countP_cons, due, ↓reduceIte, List.length_cons]
        omega
    · rename_i later
      obtain ⟨others, settledRest, same⟩ := bind_eq_ok_iff.mp settled
      cases same
      have here := ih settledRest
      simp only [List.countP_cons, later, Bool.false_eq_true, ↓reduceIte, List.length_cons]
      omega

/-- Going on with a stage takes work away, if polls are paid for. -/
theorem resume_work {now : Nat} {stage : Stage} (due : stage.wake.isDue now = true)
    (ledger : Ledger) :
    (resume site now job ledger stage).1.work + 1 + spent ledger ≤
      stage.work + spent (resume site now job ledger stage).2 := by
  cases stage with
  | update wake functionName answer =>
    cases answer with
    | error failure => simp [resume, Progress.work, Stage.work]
    | ok answer =>
      obtain ⟨work, paid⟩ := startPoll_work site job now functionName
        (Waiter.start (site.settings.scheduleFor answer.report) now)
        (ledger.note job (.awaited functionName (site.settings.scheduleFor answer.report)))
      simp only [resume, startWait, work, paid, spent_note, Stage.work, Event.isPoll]
      simp only [Bool.false_eq_true, ↓reduceIte]
      omega
  | poll wake functionName waiter answer =>
    cases answer with
    | error failure => simp [resume, Progress.work, Stage.work]
    | ok answer =>
      simp only [resume]
      split
      · simp [Progress.work, Stage.work]
      · simp only [Progress.work, Stage.work, Ledger.wait, spent]
        omega
  | pause wake functionName waiter =>
    obtain ⟨work, paid⟩ := startPoll_work site job now functionName waiter ledger
    simp only [resume, work, paid, Stage.work]
    omega
  | publish wake request answer =>
    cases answer with
    | error failure => simp [resume, Progress.work, Stage.work]
    | ok answer =>
      obtain ⟨work, paid⟩ := startAliases_work site job now request.functionName answer.version
        request.aliases [] ledger
      simp only [resume, paid, Stage.work]
      simp only [List.length_nil] at work
      omega
  | aliases moves =>
    obtain never | ⟨move, member, moveDue⟩ := exists_isDue due
    · cases never
    have anyDue : 0 < moves.countP (fun move => move.wake.isDue now) :=
      List.countP_pos_iff.mpr ⟨move, member, moveDue⟩
    have atMost := List.countP_le_length (p := fun move => move.wake.isDue now) (l := moves)
    cases settled : settleAliases now moves with
    | error failure =>
      simp only [resume, settled, Progress.work, Stage.work]
      omega
    | ok left =>
      have fewer := settleAliases_length settled
      cases left with
      | nil =>
        simp only [resume, settled, Progress.work, Stage.work]
        omega
      | cons first rest =>
        simp only [resume, settled, Progress.work, Stage.work]
        omega
  | single wake answer => simp [resume, Progress.work, Stage.work]

theorem startOperation_work (now : Nat) (operation : Operation) (ledger : Ledger) :
    (match (startOperation site now job operation ledger).1 with
      | .ok stage => stage.work
      | .error _ => 0) ≤ workOf operation ∧
      spent (startOperation site now job operation ledger).2 = spent ledger := by
  have attempted : spent (ledger.note job (.attempted operation)) = spent ledger := by
    simp [spent_note, Event.isPoll]
  by_cases configured : site.configured operation.client = true
  · have sent := spent_send site (ledger.note job (.attempted operation)) now job
      operation.firstCall
    have noPoll (answer : Outcome Answer) :
        (Event.called ⟨now, operation.firstCall⟩ answer).isPoll = false := by
      cases operation <;> rfl
    rw [noPoll, attempted] at sent
    simp only [startOperation, configured, ↓reduceIte]
    refine ⟨?_, sent⟩
    cases operation <;> simp [Stage.ofOperation, Stage.work, workOf]
  · simp only [startOperation, configured, Bool.false_eq_true, ↓reduceIte]
    exact ⟨Nat.zero_le _, attempted⟩

theorem next_work (now : Nat) (upcoming : List Operation) (ledger : Ledger) :
    workOfTurn (Task.next site now job upcoming ledger).1 ≤ workOfAll upcoming ∧
      spent (Task.next site now job upcoming ledger).2 = spent ledger := by
  cases upcoming with
  | nil => simp [Task.next, workOfTurn, spent_note, Event.isPoll]
  | cons operation upcoming =>
    obtain ⟨work, same⟩ := startOperation_work site job now operation ledger
    generalize started : startOperation site now job operation ledger = outcome at work same
    obtain ⟨outcome, after⟩ := outcome
    cases outcome with
    | ok stage =>
      simp only [Task.next, started, workOfTurn, Task.work, workOfAll, List.map_cons, List.sum_cons]
      simp only at work same
      exact ⟨Nat.add_le_add_right work _, same⟩
    | error failure =>
      simp only [Task.next, started, Task.fail, workOfTurn, spent_note, Event.isPoll]
      exact ⟨Nat.zero_le _, by simpa using same⟩

/-- A step takes work away, if polls are paid for. -/
theorem step_work {now : Nat} {task : Task} (due : task.wake.isDue now = true) (ledger : Ledger) :
    workOfTurn (Task.step site now ledger task).1 + 1 + spent ledger ≤
      task.work + spent (Task.step site now ledger task).2 := by
  cases task with
  | fresh job =>
    by_cases failed : ledger.hasFailed = true
    · simp only [Task.step, failed, ↓reduceIte, workOfTurn, Task.work, Job.work]
      omega
    · simp only [Task.step, failed, Bool.false_eq_true, ↓reduceIte, Task.work, Job.work]
      obtain ⟨work, same⟩ := next_work site job now job.change.operations
        (ledger.note job .began)
      simp only [same, spent_note, Event.isPoll, Bool.false_eq_true, ↓reduceIte]
      omega
  | underway job current upcoming stage =>
    have resumed := resume_work site job due ledger
    generalize outcome : resume site now job ledger stage = progress at resumed
    obtain ⟨progress, after⟩ := progress
    cases progress with
    | waits later =>
      simp only [Task.step, outcome, workOfTurn, Task.work]
      simp only [Progress.work] at resumed
      omega
    | ends result =>
      cases result with
      | ok _ =>
        obtain ⟨work, same⟩ := next_work site job now upcoming
          (after.note job (.applied current))
        simp only [Task.step, outcome, Task.work, same, spent_note, Event.isPoll]
        simp only [Progress.work, Bool.false_eq_true, ↓reduceIte] at resumed ⊢
        omega
      | error failure =>
        simp only [Task.step, outcome, Task.fail, workOfTurn, Task.work, spent_note, Event.isPoll]
        simp only [Progress.work, Bool.false_eq_true, ↓reduceIte] at resumed ⊢
        omega

theorem advance_work {now : Nat} (steps : Nat) {task : Task} (due : task.wake.isDue now = true)
    (ledger : Ledger) :
    workOfTurn (Task.advance site now steps task ledger).1 + min 1 steps + spent ledger ≤
      task.work + spent (Task.advance site now steps task ledger).2 := by
  induction steps generalizing task ledger with
  | zero => simp [Task.advance, workOfTurn]
  | succ steps ih =>
    have stepWork := step_work site due ledger
    generalize stepped : Task.step site now ledger task = turn at stepWork
    obtain ⟨outcome, after⟩ := turn
    cases outcome with
    | inr result =>
      simp only [Task.advance, stepped]
      simp only [workOfTurn] at stepWork ⊢
      omega
    | inl later =>
      simp only [Task.advance, stepped]
      simp only [workOfTurn] at stepWork
      split
      · rename_i laterDue
        have rest := ih laterDue after
        omega
      · simp only [workOfTurn]
        omega

/-! Groups -/

/-- The stages that are left for some tasks. -/
def workOfTasks (tasks : List Task) : Nat := (tasks.map Task.work).sum

/-- The stages that are left for some waiting changes. -/
def workOfJobs (jobs : List Job) : Nat := (jobs.map Job.work).sum

theorem workOfTasks_append (first second : List Task) :
    workOfTasks (first ++ second) = workOfTasks first + workOfTasks second := by
  simp [workOfTasks]

theorem workOfTasks_cons (task : Task) (tasks : List Task) :
    workOfTasks (task :: tasks) = task.work + workOfTasks tasks := by
  simp [workOfTasks]

theorem workOfTasks_perm {first second : List Task} (same : first.Perm second) :
    workOfTasks first = workOfTasks second :=
  (same.map Task.work).sum_nat

namespace Group

/-- The stages that are left for a group. -/
def work (group : Group) : Nat := workOfTasks group.inFlight + workOfJobs group.waiting

end Group

theorem fill_work (limit : Nat) (ready : List Task) (group : Group) :
    workOfTasks (Group.fill limit ready group).1 + (Group.fill limit ready group).2.work =
      workOfTasks ready + group.work := by
  have taken (room : Nat) : workOfTasks ((group.waiting.take room).map Task.fresh) +
      workOfJobs (group.waiting.drop room) = workOfJobs group.waiting := by
    have same : Task.work ∘ Task.fresh = Job.work := rfl
    simp only [workOfTasks, workOfJobs, List.map_map, same]
    rw [← List.sum_append_nat, ← List.map_append, List.take_append_drop]
  simp only [Group.fill, Group.work, workOfTasks_append]
  have same := taken (limit - (group.inFlight.length + ready.length))
  omega

theorem pump_work (now steps limit turns : Nat) {ready : List Task} (group : Group)
    (ledger : Ledger) (due : ∀ task ∈ ready, task.wake.isDue now = true) :
    (Group.pump site now steps limit turns ready group ledger).1.work +
        min (min 1 steps) (min turns ready.length) + spent ledger ≤
      workOfTasks ready + group.work +
        spent (Group.pump site now steps limit turns ready group ledger).2 := by
  induction turns generalizing ready group ledger with
  | zero =>
    simp only [Group.pump, Group.work, workOfTasks_append]
    omega
  | succ turns ih =>
    -- filling moves work from the waiting changes to the ready ones; only the advance takes it away
    have filled := fill_work limit ready group
    have dueFilled : ∀ task ∈ (Group.fill limit ready group).1, task.wake.isDue now = true :=
      due_fill due
    have longer : ready.length ≤ (Group.fill limit ready group).1.length := by
      simp [Group.fill]
    generalize fills : Group.fill limit ready group = pair at filled dueFilled longer
    obtain ⟨next, room⟩ := pair
    cases next with
    | nil =>
      simp only [Group.pump, fills]
      simp only [List.length_nil, workOfTasks, List.map_nil, List.sum_nil] at filled longer ⊢
      omega
    | cons task others =>
      have othersDue : ∀ other ∈ others, other.wake.isDue now = true :=
        fun other member => dueFilled other (List.mem_cons_of_mem _ member)
      have advanceWork := advance_work site steps
        (dueFilled task (List.mem_cons_self ..)) ledger
      generalize advanced : task.advance site now steps ledger = turn at advanceWork
      obtain ⟨outcome, after⟩ := turn
      simp only [workOfTasks_cons] at filled
      cases outcome with
      | inl later =>
        have rest := ih { room with inFlight := room.inFlight ++ [later] } after othersDue
        simp only [Group.pump, fills, advanced]
        simp only [Group.work, workOfTasks_append, workOfTasks_cons, workOfTurn] at rest filled advanceWork ⊢
        simp only [workOfTasks, List.map_nil, List.sum_nil] at rest filled ⊢
        omega
      | inr result =>
        have rest := ih { room with results := room.results ++ [result] } after othersDue
        simp only [Group.pump, fills, advanced]
        simp only [Group.work, workOfTurn] at rest filled advanceWork ⊢
        omega

namespace Group

/-- How many changes of a group go on at an instant. -/
def dueCount (now : Nat) (group : Group) : Nat :=
  group.inFlight.countP (fun task => task.wake.isDue now)

end Group

theorem visit_work (now steps : Nat) (group : Group) (ledger : Ledger) :
    (group.visit site now steps ledger).1.work + min (min 1 steps) (group.dueCount now) +
        spent ledger ≤
      group.work + spent (group.visit site now steps ledger).2 := by
  have sorted := List.mergeSort_perm (group.inFlight.filter (fun task => task.wake.isDue now))
    (fun first second => !second.wake.isBefore first.wake)
  have split := List.filter_append_perm (fun task => task.wake.isDue now) group.inFlight
  have pumped := pump_work site now steps site.limit
    ((((group.inFlight.filter (fun task => task.wake.isDue now)).mergeSort
      (fun first second => !second.wake.isBefore first.wake)).length) + group.waiting.length + 1)
    { group with inFlight := group.inFlight.filter (fun task => !task.wake.isDue now) } ledger
    (fun task member => (List.mem_filter.mp (sorted.mem_iff.mp member)).2)
  have same := workOfTasks_perm ((sorted.append_right _).trans split)
  have count := sorted.length_eq
  rw [← List.countP_eq_length_filter] at count
  rw [workOfTasks_append] at same
  simp only [Group.visit, Group.work, Group.dueCount] at pumped ⊢
  simp only [Site.limit] at pumped
  omega

theorem visitEach_work (now steps : Nat) (groups : List Group) (ledger : Ledger) :
    ((Group.visitEach site now steps groups ledger).1.map Group.work).sum +
        min (min 1 steps) ((groups.map (Group.dueCount now)).sum) + spent ledger ≤
      (groups.map Group.work).sum + spent (Group.visitEach site now steps groups ledger).2 := by
  induction groups generalizing ledger with
  | nil => simp [Group.visitEach]
  | cons group rest ih =>
    have here := visit_work site now steps group ledger
    have later := ih (group.visit site now steps ledger).2
    simp only [Group.visitEach, List.map_cons, List.sum_cons]
    omega

namespace State

/-- The stages that are left in a state. -/
def work (state : State) : Nat := (state.groups.map Group.work).sum

end State

theorem exists_due {state : State} {time : Nat} (next : state.nextTime = some time) :
    0 < (state.groups.map (Group.dueCount time)).sum := by
  obtain ⟨group, inGroups, groupNext⟩ := List.mem_filterMap.mp (List.min?_mem next)
  obtain ⟨task, inFlight, wakes⟩ := List.mem_filterMap.mp (List.min?_mem groupNext)
  have due : 0 < group.dueCount time :=
    List.countP_pos_iff.mpr ⟨task, inFlight, by simp [Wake.isDue, wakes]⟩
  exact List.sum_pos_iff_exists_pos_nat.mpr ⟨_, List.mem_map_of_mem inGroups, due⟩

/-- Every wait that ends takes work away. -/
theorem next?_work {state later : State} {steps : Nat} {latest : Option Nat}
    (goesOn : state.next? site (steps + 1) latest = some later) :
    later.work + 1 + spent state.ledger ≤ state.work + spent later.ledger := by
  simp only [State.next?] at goesOn
  split at goesOn
  · cases goesOn
  · rename_i time nextTime
    split at goesOn
    · cases goesOn
    · cases goesOn
      have due := exists_due nextTime
      have visited := visitEach_work site time (steps + 1) state.groups state.ledger
      simp only [State.visitAll, State.work]
      omega

/-- An execution ends when nothing goes on, or its steps are paid for by its work and polls. -/
theorem proceed_work (steps : Nat) (state : State) :
    (state.proceed site none steps).nextTime = none ∨
      steps + (state.proceed site none steps).work + spent state.ledger ≤
        state.work + spent (state.proceed site none steps).ledger := by
  induction steps generalizing state with
  | zero =>
    right
    simp only [State.proceed]
    omega
  | succ steps ih =>
    simp only [State.proceed]
    split
    · rename_i stops
      left
      simp only [State.next?] at stops
      split at stops
      · assumption
      · simp at stops
    · rename_i later goesOn
      have step := next?_work site goesOn
      rcases ih later with ends | paid
      · exact .inl ends
      · right
        omega

/-! Changes that find no room -/

variable {site}

/-- Changes only wait while the group is full. -/
def Full (site : Site) (group : Group) : Prop :=
  group.waiting ≠ [] → site.limit ≤ group.inFlight.length

theorem pump_full {now steps : Nat} (turns : Nat) {ready : List Task} (group : Group)
    (ledger : Ledger) (enough : ready.length + group.waiting.length < turns) :
    Full site (Group.pump site now steps site.limit turns ready group ledger).1 := by
  induction turns generalizing ready group ledger with
  | zero => omega
  | succ turns ih =>
    have sameLength : (Group.fill site.limit ready group).1.length +
        (Group.fill site.limit ready group).2.waiting.length =
          ready.length + group.waiting.length := by
      simp only [Group.fill, List.length_append, List.length_map, List.length_take, List.length_drop]
      omega
    have stops : (Group.fill site.limit ready group).1 = [] →
        Full site (Group.fill site.limit ready group).2 := by
      intro nothing waiting
      obtain ⟨rfl, taken⟩ := List.append_eq_nil_iff.mp nothing
      have waits : group.waiting ≠ [] := fun noneWaits => waiting (by simp [Group.fill, noneWaits])
      rcases List.take_eq_nil_iff.mp (List.map_eq_nil_iff.mp taken) with noRoom | noneWaits
      · simp only [Group.fill, List.length_nil] at noRoom ⊢
        omega
      · exact absurd noneWaits waits
    generalize fills : Group.fill site.limit ready group = pair at sameLength stops
    obtain ⟨next, room⟩ := pair
    cases next with
    | nil =>
      simp only [Group.pump, fills]
      exact stops rfl
    | cons task others =>
      generalize advanced : task.advance site now steps ledger = turn
      obtain ⟨outcome, after⟩ := turn
      simp only [List.length_cons] at sameLength
      simp only [Group.pump, fills, advanced]
      cases outcome with
      | inl later => exact ih _ after (by simp only; omega)
      | inr result => exact ih _ after (by simp only; omega)

theorem visit_full (now steps : Nat) (group : Group) (ledger : Ledger) :
    Full site (group.visit site now steps ledger).1 :=
  pump_full _ _ ledger (Nat.lt_succ_self _)

theorem visitEach_full (now steps : Nat) (groups : List Group) (ledger : Ledger) :
    ∀ group ∈ (Group.visitEach site now steps groups ledger).1, Full site group := by
  induction groups generalizing ledger with
  | nil => simp [Group.visitEach]
  | cons group rest ih =>
    exact List.forall_mem_cons.mpr ⟨visit_full now steps group ledger, ih _⟩

theorem proceed_full {latest : Option Nat} (steps : Nat) {state : State}
    (full : ∀ group ∈ state.groups, Full site group) :
    ∀ group ∈ (state.proceed site latest steps).groups, Full site group := by
  induction steps generalizing state with
  | zero => exact full
  | succ steps ih =>
    simp only [State.proceed]
    split
    · exact full
    · rename_i later goesOn
      simp only [State.next?] at goesOn
      split at goesOn
      · cases goesOn
      · split at goesOn
        · cases goesOn
        · cases goesOn
          exact ih (visitEach_full _ _ _ _)

/-! Waits without an end -/

theorem time_foldl_earlier {moves : List AliasMove} {wake : Wake}
    (arrive : ∀ move ∈ moves, move.wake.time ≠ none) (waits : moves ≠ [] ∨ wake.time ≠ none) :
    (moves.foldl (fun wake move => wake.earlier move.wake) wake).time ≠ none := by
  induction moves generalizing wake with
  | nil => simpa using waits
  | cons move rest ih =>
    refine ih (fun other member => arrive other (List.mem_cons_of_mem _ member)) (.inr ?_)
    have arrives := arrive move (List.mem_cons_self ..)
    cases moveTime : move.wake.time with
    | none => exact absurd moveTime arrives
    | some time =>
      cases wakeTime : wake.time with
      | none => simp [Wake.earlier, Wake.isBefore, moveTime, wakeTime]
      | some _ =>
        change (wake.earlier move.wake).time ≠ none
        unfold Wake.earlier
        split
        · exact arrives
        · simp [wakeTime]

/-- A pause without an end belongs to a wait without a deadline. -/
theorem Polling.endless {functionName : String} {schedule : Schedule} {polls : List Event}
    {waiter : Waiter} (polling : Polling functionName schedule polls waiter none) :
    waiter.deadline = none := by
  cases polling with
  | @pause polls earlier next time now until? answer polling notBefore arrived inProgress pauses
      inTime =>
    cases deadline : earlier.deadline with
    | none => exact deadline
    | some limit => simp [Waiter.isTooLate, deadline] at inTime

/-- The change pauses until an instant that the clock does not have, as its wait has no deadline
either. -/
inductive Stalls : Task → Prop where
  | pause {job : Job} {current : Operation} {upcoming : List Operation} {wake : Wake}
    {functionName : String} {waiter : Waiter} (never : wake.time = none)
    (endless : waiter.deadline = none) :
    Stalls (.underway job current upcoming (.pause wake functionName waiter))

theorem stalls_of_never {task : Task} {events : List Event} (traced : Traced site task events)
    (never : task.wake.time = none) : Stalls task := by
  cases traced with
  | fresh job => cases never
  | underway operations applied equipped pending =>
    cases pending with
    | update updates arrives => exact absurd never arrives
    | poll awaiting notBefore arrives later =>
      simp [Task.wake, Stage.wake, arrives] at never
    | @pause _ _ _ wake _ awaiting =>
      have noTime : wake.time = none := never
      rw [noTime] at awaiting
      cases awaiting with
      | since _ _ polling => exact .pause noTime polling.endless
    | publish arrives => exact absurd never arrives
    | aliases moved open_ unsettled arrive =>
      exact absurd never (time_foldl_earlier arrive (.inl unsettled))
    | single sends direct arrives => exact absurd never arrives

/-- Without anything that goes on all is over, or some change stalls. -/
theorem over_or_stalls {changes : List Swap} {state : State} (holds : StateHolds site changes state)
    (full : ∀ group ∈ state.groups, Full site group) (idle : state.nextTime = none) :
    state.isOver = true ∨ ∃ group ∈ state.groups, ∃ task ∈ group.inFlight, Stalls task := by
  by_cases isOver : state.isOver = true
  · exact .inl isOver
  · right
    obtain ⟨group, inGroups, notOver⟩ : ∃ group ∈ state.groups, group.isOver = false := by
      simpa [State.isOver] using isOver
    have busy : group.inFlight ≠ [] := by
      intro nothing
      have waits : group.waiting ≠ [] := by
        rintro noneWaits
        simp [Group.isOver, nothing, noneWaits] at notOver
      have filled := full group inGroups waits
      simp only [nothing, List.length_nil, Site.limit] at filled
      omega
    obtain ⟨task, inFlight⟩ := List.exists_mem_of_ne_nil _ busy
    have groupIdle : group.nextTime = none := by
      simp only [State.nextTime, List.min?_eq_none_iff, List.filterMap_eq_nil_iff] at idle
      exact idle group inGroups
    have never : task.wake.time = none := by
      simp only [Group.nextTime, List.min?_eq_none_iff, List.filterMap_eq_nil_iff] at groupIdle
      exact groupIdle task inFlight
    obtain ⟨_, _, inGroup⟩ := holds.groups group inGroups
    exact ⟨group, inGroups, task, inFlight, stalls_of_never (inGroup.traced task inFlight) never⟩

/-- An execution that is not over has a change that stalls, or has not had enough steps for its work
and its polls. -/
theorem run_progress (site : Site) (steps now : Nat) (changes : List Swap) :
    (run site none steps now changes).isOver = true ∨
      (∃ group ∈ (run site none steps now changes).groups, ∃ task ∈ group.inFlight, Stalls task) ∨
      steps ≤ (State.init now changes).work + spent (run site none steps now changes).ledger := by
  have holds := run_holds site none steps now changes
  have fullAtFirst : ∀ group ∈ ((State.init now changes).visitAll site steps).groups,
      Full site group := visitEach_full now steps (State.init now changes).groups {}
  have full : ∀ group ∈ (run site none steps now changes).groups, Full site group :=
    proceed_full steps fullAtFirst
  have first := visitEach_work site now steps (State.init now changes).groups {}
  rcases proceed_work site steps ((State.init now changes).visitAll site steps) with
    idle | paid
  · rcases over_or_stalls holds full idle with isOver | stalls
    · exact .inl isOver
    · exact .inr (.inl stalls)
  · refine .inr (.inr ?_)
    have start : spent ({} : Ledger) = 0 := rfl
    simp only [run, State.visitAll, State.work] at *
    simp only [State.init] at *
    omega

end Execution

end StackSwap
