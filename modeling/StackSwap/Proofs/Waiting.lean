import Mathlib.Algebra.Group.Nat.Defs
import Mathlib.Data.List.Range
import StackSwap.Waiter

namespace StackSwap

namespace Schedule

/-- The length of the pause with this number, from zero: the first one, doubled each time, up to the
bound. -/
def pause (schedule : Schedule) (number : Nat) : Nat :=
  min (schedule.minDelay * 2 ^ number) schedule.maxDelay

theorem pause_zero {schedule : Schedule} (ordered : schedule.minDelay ≤ schedule.maxDelay) :
    schedule.pause 0 = schedule.minDelay := by
  simp [pause, ordered]

/-- Doubling never comes to the longest duration: the bound on pauses is a duration too. -/
theorem pause_succ {schedule : Schedule} (isDuration : schedule.maxDelay ≤ Clock.longest)
    (number : Nat) :
    schedule.pause (number + 1) = min (Clock.double (schedule.pause number)) schedule.maxDelay := by
  simp only [pause, Clock.double, Nat.pow_succ, ← Nat.mul_assoc]
  omega

/-- The instant is behind the deadline of a wait that began at another one. A deadline that the
clock cannot name never comes. -/
def Late (schedule : Schedule) (began instant : Nat) : Prop :=
  began + schedule.maxWait ≤ Clock.limit ∧ began + schedule.maxWait < instant

end Schedule

/-- The answer to a poll decides a wait, whenever it comes: it is not that the update is in
progress. -/
inductive Decides : Outcome Answer → Outcome Unit → Prop where
  | failed (failure : Failure) : Decides (.error failure) (.error failure)
  | updated {answer : Answer}
    (status : answer.report.status = none ∨ answer.report.status = some .successful) :
    Decides (.ok answer) (.ok ())
  | broken {answer : Answer} (status : answer.report.status = some .failed) :
    Decides (.ok answer) (.error (.waiter .failure answer.report.reason))

/-- The answer to a poll says that the update is in progress. -/
inductive InProgress : Outcome Answer → Prop where
  | report {answer : Answer} (status : answer.report.status = some .inProgress) :
    InProgress (.ok answer)

theorem inProgress_or_decides (answer : Outcome Answer) :
    InProgress answer ∨ ∃ result, Decides answer result := by
  cases answer with
  | error failure => exact .inr ⟨_, .failed failure⟩
  | ok answer =>
    match status : answer.report.status with
    | none => exact .inr ⟨_, .updated (.inl status)⟩
    | some .successful => exact .inr ⟨_, .updated (.inr status)⟩
    | some .failed => exact .inr ⟨_, .broken status⟩
    | some .inProgress => exact .inl (.report status)

theorem InProgress.not_decides {answer : Outcome Answer} (inProgress : InProgress answer)
    (result : Outcome Unit) : ¬ Decides answer result := by
  intro decides
  cases inProgress with
  | report status => cases decides <;> simp_all

theorem Decides.unique {answer : Outcome Answer} {first second : Outcome Unit}
    (decides : Decides answer first) (again : Decides answer second) : first = second := by
  cases decides with
  | failed failure =>
    cases again
    rfl
  | updated status => cases again <;> simp_all
  | broken status => cases again <;> simp_all

theorem Decides.decide_eq {answer : Answer} {result : Outcome Unit}
    (decides : Decides (.ok answer) result) (waiter : Waiter) (now : Nat) :
    waiter.decide now answer.report = .finish result := by
  cases decides with
  | updated status => rcases status with none | some <;> simp [Waiter.decide, *]
  | broken status => simp [Waiter.decide, status]

/-- While the update is in progress a waiter gives up or pauses. -/
theorem InProgress.decide_eq {answer : Answer} (inProgress : InProgress (.ok answer))
    (waiter : Waiter) (now : Nat) :
    waiter.decide now answer.report =
      if waiter.isTooLate (Clock.after? now waiter.delay) then
        .finish (.error (.waiter .timeout none))
      else .pause (Clock.after? now waiter.delay) waiter.afterPause := by
  cases inProgress with
  | report status => simp only [Waiter.decide, status]

/-- A wait for the last update of a function, that begins at some instant. -/
structure Wait where
  backend : Backend
  functionName : String
  schedule : Schedule
  began : Nat

namespace Wait

/-- The polls that come before the one with this number. -/
def earlier (wait : Wait) (number : Nat) : List ServiceCall :=
  List.replicate number (.getConfiguration wait.functionName)

def answer (wait : Wait) (number : Nat) : Outcome Answer :=
  wait.backend.answer (wait.earlier number) (.getConfiguration wait.functionName)

/-- How long the answer to a poll takes. -/
def delay (wait : Wait) (number : Nat) : Nat :=
  wait.backend.delay (wait.earlier number) (.getConfiguration wait.functionName)

/-- When the poll with this number is started, if the wait comes to it. -/
def started (wait : Wait) : Nat → Nat
  | 0 => wait.began
  | number + 1 => wait.started number + wait.delay number + wait.schedule.pause number

def answered (wait : Wait) (number : Nat) : Nat := wait.started number + wait.delay number

/-- The polls of a wait in so many steps. -/
def run (wait : Wait) (steps : Nat) : PollRun :=
  .follow wait.backend wait.functionName none steps (.start wait.schedule wait.began) wait.began []

/-- When the first so many polls are started. -/
def made (wait : Wait) (count : Nat) : List Nat := (List.range count).map wait.started

/-- What a run of so many steps does when the poll with this number is answered. -/
structure Heeds (wait : Wait) (steps : Nat) (run : PollRun) (number : Nat) : Prop where
  /-- An answer that decides the wait ends it, and there is no further poll. -/
  decided : ∀ result, Decides (wait.answer number) result →
    run.polls.length = number + 1 ∧ run.ended = some (wait.answered number, result)
  /-- While the update is in progress the wait ends exactly if the next poll would be late. -/
  timedOut : InProgress (wait.answer number) →
    ((run.polls.length = number + 1 ∧
        run.ended = some (wait.answered number, .error (.waiter .timeout none))) ↔
      wait.schedule.Late wait.began (wait.started (number + 1)))
  /-- Otherwise there is a pause. It ends before the deadline and then comes the next poll, if there
  are steps left for it; or the clock can name neither its end nor the deadline. -/
  paused : InProgress (wait.answer number) →
    ¬ wait.schedule.Late wait.began (wait.started (number + 1)) →
      (wait.started (number + 1) ≤ wait.began + wait.schedule.maxWait ∧
          (number + 1 < steps → number + 1 < run.polls.length)) ∨
        (Clock.limit < wait.started (number + 1) ∧
          Clock.limit < wait.began + wait.schedule.maxWait)
  /-- A run that stops before or in a pause has no result. -/
  unended : InProgress (wait.answer number) →
    ¬ wait.schedule.Late wait.began (wait.started (number + 1)) →
      run.polls.length = number + 1 → run.ended = none

variable {wait : Wait}

/-- The waiter before the pause with this number. -/
def waiter (wait : Wait) (number : Nat) : Waiter where
  schedule := wait.schedule
  deadline := Clock.after? wait.began wait.schedule.maxWait
  delay := wait.schedule.pause number

theorem waiter_zero (ordered : wait.schedule.minDelay ≤ wait.schedule.maxDelay) :
    wait.waiter 0 = .start wait.schedule wait.began := by
  rw [waiter, Schedule.pause_zero ordered, Waiter.start]

theorem afterPause_waiter (isDuration : wait.schedule.maxDelay ≤ Clock.longest) (number : Nat) :
    (wait.waiter number).afterPause = wait.waiter (number + 1) := by
  simp only [Waiter.afterPause, waiter, Schedule.pause_succ isDuration]

theorem decide_of_late {answer : Answer} (inProgress : InProgress (.ok answer)) {number : Nat} (now : Nat)
    (late : wait.schedule.Late wait.began (now + wait.schedule.pause number)) :
    (wait.waiter number).decide now answer.report = .finish (.error (.waiter .timeout none)) := by
  have tooLate : (wait.waiter number).isTooLate (Clock.after? now (wait.schedule.pause number)) :=
    (Waiter.isTooLate_iff rfl now _).mpr late
  rw [inProgress.decide_eq]
  exact if_pos tooLate

theorem decide_of_inTime (isDuration : wait.schedule.maxDelay ≤ Clock.longest) {answer : Answer}
    (inProgress : InProgress (.ok answer)) {number : Nat} (now : Nat)
    (inTime : ¬ wait.schedule.Late wait.began (now + wait.schedule.pause number)) :
    (wait.waiter number).decide now answer.report =
      .pause (Clock.after? now (wait.schedule.pause number)) (wait.waiter (number + 1)) := by
  have notTooLate :
      ¬ (wait.waiter number).isTooLate (Clock.after? now (wait.schedule.pause number)) :=
    (Waiter.isTooLate_iff rfl now _).not.mpr inTime
  rw [← afterPause_waiter isDuration, inProgress.decide_eq]
  exact if_neg notTooLate

theorem length_made (count : Nat) : (wait.made count).length = count := by
  simp [made]

theorem made_succ (count : Nat) :
    wait.made count ++ [wait.started count] = wait.made (count + 1) := by
  simp [made, List.range_succ]

/-- One poll: what becomes of the wait when it is answered. -/
theorem follow_succ (steps number : Nat) :
    PollRun.follow wait.backend wait.functionName none (steps + 1) (wait.waiter number)
        (wait.started number) (wait.made number) =
      match wait.answer number with
      | .error failure => ⟨wait.made (number + 1), some (wait.answered number, .error failure)⟩
      | .ok answer =>
        match (wait.waiter number).decide (wait.answered number) answer.report with
        | .finish result => ⟨wait.made (number + 1), some (wait.answered number, result)⟩
        | .pause none _ => ⟨wait.made (number + 1), none⟩
        | .pause (some next) later =>
          .follow wait.backend wait.functionName none steps later next
            (wait.made (number + 1)) := by
  have sameCalls : (wait.made number).map
      (fun _ => ServiceCall.getConfiguration wait.functionName) = wait.earlier number := by
    simp [made, earlier, Function.comp_def, List.map_const']
  simp only [PollRun.follow, sameCalls, made_succ, Option.any_none, Bool.false_eq_true, if_false,
    answer, Backend.answer, answered, delay]
  cases wait.backend.failure? (wait.earlier number) (.getConfiguration wait.functionName) <;> rfl

theorem follow_of_decides {steps number : Nat} {result : Outcome Unit}
    (decides : Decides (wait.answer number) result) :
    PollRun.follow wait.backend wait.functionName none (steps + 1) (wait.waiter number)
        (wait.started number) (wait.made number) =
      ⟨wait.made (number + 1), some (wait.answered number, result)⟩ := by
  rw [follow_succ]
  cases answered : wait.answer number with
  | error failure =>
    rw [answered] at decides
    cases decides
    rfl
  | ok answer =>
    rw [answered] at decides
    simp only [decides.decide_eq]

theorem follow_of_late {steps number : Nat} (inProgress : InProgress (wait.answer number))
    (late : wait.schedule.Late wait.began (wait.started (number + 1))) :
    PollRun.follow wait.backend wait.functionName none (steps + 1) (wait.waiter number)
        (wait.started number) (wait.made number) =
      ⟨wait.made (number + 1), some (wait.answered number, .error (.waiter .timeout none))⟩ := by
  rw [follow_succ]
  generalize wait.answer number = answer at inProgress
  cases inProgress with
  | report status => simp only [decide_of_late (.report status) (wait.answered number) late]

theorem follow_of_inTime (isDuration : wait.schedule.maxDelay ≤ Clock.longest) {steps number : Nat}
    (inProgress : InProgress (wait.answer number))
    (inTime : ¬ wait.schedule.Late wait.began (wait.started (number + 1))) :
    PollRun.follow wait.backend wait.functionName none (steps + 1) (wait.waiter number)
        (wait.started number) (wait.made number) =
      if wait.started (number + 1) ≤ Clock.limit then
        .follow wait.backend wait.functionName none steps (wait.waiter (number + 1))
          (wait.started (number + 1)) (wait.made (number + 1))
      else ⟨wait.made (number + 1), none⟩ := by
  rw [follow_succ]
  generalize wait.answer number = answer at inProgress
  cases inProgress with
  | report status =>
    simp only [decide_of_inTime isDuration (.report status) (wait.answered number) inTime]
    by_cases named : wait.started (number + 1) ≤ Clock.limit
    · have next : Clock.after? (wait.answered number) (wait.schedule.pause number) =
          some (wait.started (number + 1)) := if_pos named
      rw [next, if_pos named]
    · have next : Clock.after? (wait.answered number) (wait.schedule.pause number) = none :=
        if_neg named
      rw [next, if_neg named]

/-- What a run shows of a wait from the poll with this number on, when there are so many steps
left. -/
structure Follows (wait : Wait) (number steps : Nat) (run : PollRun) : Prop where
  made : run.polls = wait.made run.polls.length
  atLeast : number ≤ run.polls.length
  atMost : run.polls.length ≤ number + steps
  goesOn : 0 < steps → number < run.polls.length
  unended : run.polls.length = number → run.ended = none
  heeds : ∀ poll, number ≤ poll → poll < run.polls.length → wait.Heeds (number + steps) run poll

/-! What a run does with one answer -/

theorem Heeds.of_decides {steps number : Nat} {result : Outcome Unit}
    (decides : Decides (wait.answer number) result) :
    wait.Heeds steps ⟨wait.made (number + 1), some (wait.answered number, result)⟩ number where
  decided := by
    intro other again
    exact ⟨length_made _, by rw [decides.unique again]⟩
  timedOut inProgress := absurd decides (inProgress.not_decides result)
  paused inProgress := absurd decides (inProgress.not_decides result)
  unended inProgress := absurd decides (inProgress.not_decides result)

theorem Heeds.of_late {steps number : Nat} (inProgress : InProgress (wait.answer number))
    (late : wait.schedule.Late wait.began (wait.started (number + 1))) :
    wait.Heeds steps
      ⟨wait.made (number + 1), some (wait.answered number, .error (.waiter .timeout none))⟩
      number where
  decided result decides := absurd decides (inProgress.not_decides result)
  timedOut _ := ⟨fun _ => late, fun _ => ⟨length_made _, rfl⟩⟩
  paused _ inTime := absurd late inTime
  unended _ inTime := absurd late inTime

theorem Heeds.of_inTime {steps number : Nat} {run : PollRun}
    (inProgress : InProgress (wait.answer number))
    (inTime : ¬ wait.schedule.Late wait.began (wait.started (number + 1)))
    (unended : run.polls.length = number + 1 → run.ended = none)
    (goesOn : wait.started (number + 1) ≤ Clock.limit → number + 1 < steps →
      number + 1 < run.polls.length) : wait.Heeds steps run number where
  decided result decides := absurd decides (inProgress.not_decides result)
  timedOut _ := by
    refine ⟨?_, fun late => absurd late inTime⟩
    rintro ⟨last, ended⟩
    rw [unended last] at ended
    cases ended
  paused _ _ := by
    unfold Schedule.Late at inTime
    rcases Nat.lt_or_ge Clock.limit (wait.started (number + 1)) with unnamed | named
    · exact .inr ⟨unnamed, by omega⟩
    · exact .inl ⟨by omega, goesOn named⟩
  unended _ _ := unended

theorem Follows.last {number steps : Nat} {ended : Option (Nat × Outcome Unit)}
    (heeds : wait.Heeds (number + (steps + 1)) ⟨wait.made (number + 1), ended⟩ number) :
    wait.Follows number (steps + 1) ⟨wait.made (number + 1), ended⟩ := by
  constructor
  · rw [length_made]
  · simp [length_made]
  · simp [length_made]
  · simp [length_made]
  · simp [length_made]
  · intro poll notBefore here
    rw [length_made] at here
    have same : poll = number := by omega
    exact same ▸ heeds

theorem Follows.step {number steps : Nat} {run : PollRun}
    (rest : wait.Follows (number + 1) steps run)
    (heeds : wait.Heeds (number + (steps + 1)) run number) :
    wait.Follows number (steps + 1) run := by
  have atLeast := rest.atLeast
  have atMost := rest.atMost
  refine ⟨rest.made, by omega, by omega, fun _ => atLeast, fun same => by omega, ?_⟩
  intro poll notBefore here
  rcases Nat.eq_or_lt_of_le notBefore with rfl | later
  · exact heeds
  · have inRest := rest.heeds poll later here
    rwa [Nat.add_right_comm, Nat.add_assoc] at inRest

/-- A run follows its wait: with each step it heeds one more answer. -/
theorem follows (isDuration : wait.schedule.maxDelay ≤ Clock.longest) (number steps : Nat) :
    wait.Follows number steps (.follow wait.backend wait.functionName none steps
      (wait.waiter number) (wait.started number) (wait.made number)) := by
  induction steps generalizing number with
  | zero =>
    constructor <;> simp [PollRun.follow, length_made]
    omega
  | succ steps ih =>
    rcases inProgress_or_decides (wait.answer number) with inProgress | ⟨result, decides⟩
    · by_cases late : wait.schedule.Late wait.began (wait.started (number + 1))
      · rw [follow_of_late inProgress late]
        exact .last (.of_late inProgress late)
      · rw [follow_of_inTime isDuration inProgress late]
        split
        · have rest := ih (number + 1)
          refine .step rest (.of_inTime inProgress late rest.unended fun _ inSteps => ?_)
          exact rest.goesOn (by omega)
        · exact .last (.of_inTime inProgress late (fun _ => rfl) fun named _ => absurd named ‹_›)
    · rw [follow_of_decides decides]
      exact .last (.of_decides decides)

theorem run_follows (ordered : wait.schedule.minDelay ≤ wait.schedule.maxDelay)
    (isDuration : wait.schedule.maxDelay ≤ Clock.longest) (steps : Nat) :
    wait.Follows 0 steps (wait.run steps) := by
  rw [run, ← waiter_zero ordered]
  exact follows isDuration 0 steps

/-- A wait keeps to its schedule, whatever its polls are answered and how long each of them takes.
From one answer to the next poll there is exactly the pause of the schedule, and each answer is
heeded. -/
theorem run_keeps_schedule (wait : Wait) (ordered : wait.schedule.minDelay ≤ wait.schedule.maxDelay)
    (isDuration : wait.schedule.maxDelay ≤ Clock.longest) (steps : Nat) :
    (0 < steps → 0 < (wait.run steps).polls.length) ∧
      (wait.run steps).polls.length ≤ steps ∧
      (wait.run steps).polls = (List.range (wait.run steps).polls.length).map wait.started ∧
      ∀ number < (wait.run steps).polls.length, wait.Heeds steps (wait.run steps) number := by
  have follows := run_follows ordered isDuration steps
  refine ⟨follows.goesOn, ?_, follows.made, fun number here => ?_⟩
  · simpa using follows.atMost
  · simpa using follows.heeds number (Nat.zero_le _) here

/-- A wait for a function whose update is in progress for the first three polls, which take half a
second each. -/
def doubling : Wait where
  backend := {
    delay := fun _ _ => 500
    failure? := fun _ _ => none
    report := fun earlier _ =>
      { status := some (if earlier.length < 3 then .inProgress else .successful) }
    version := fun _ _ => "1" }
  functionName := "handler"
  schedule := ⟨1000, 3000, 10000⟩
  began := 0

/-- The pauses take one, two and three seconds. -/
theorem run_keeps_schedule_doubling :
    doubling.schedule.minDelay ≤ doubling.schedule.maxDelay ∧
      doubling.schedule.maxDelay ≤ Clock.longest ∧
      (doubling.run 9).polls = [0, 1500, 4000, 7500] ∧
      (doubling.run 9).ended = some (8000, .ok ()) := by
  have ordered : doubling.schedule.minDelay ≤ doubling.schedule.maxDelay := by decide
  have isDuration : doubling.schedule.maxDelay ≤ Clock.longest := by decide
  obtain ⟨_, _, polls, heeds⟩ := doubling.run_keeps_schedule ordered isDuration 9
  obtain ⟨last, ended⟩ := (heeds 3 (by decide)).decided (.ok ()) (.updated (.inr rfl))
  rw [last] at polls
  exact ⟨ordered, isDuration, polls, ended⟩

end Wait

end StackSwap
