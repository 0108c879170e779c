import Mathlib.Data.Nat.Find
import StackSwap.Proofs.Waiting
import StackSwap.Settings

/-! Pauses that take some time carry a wait behind its deadline; the settings also allow pauses that
take none, and without any time passing no deadline ever comes. -/

namespace StackSwap

namespace WaiterSettings

theorem validate_eq_ok_iff {waiter : WaiterSettings} {field : String} :
    waiter.validate field = .ok () ↔ waiter.minDelay ≤ waiter.maxDelay ∧ 0 < waiter.maxWait := by
  unfold validate
  by_cases reversed : waiter.minDelay > waiter.maxDelay
  · simp [reversed, throw, throwThe, MonadExceptOf.throw, bind, Except.bind]
  · by_cases noWait : waiter.maxWait = 0
    · simp [reversed, noWait, throw, throwThe, MonadExceptOf.throw]
    · simp [reversed, noWait, pure, Except.pure]
      omega

end WaiterSettings

namespace Schedule

variable {schedule : Schedule}

theorem minDelay_le_pause (ordered : schedule.minDelay ≤ schedule.maxDelay) (number : Nat) :
    schedule.minDelay ≤ schedule.pause number :=
  Nat.le_min.mpr ⟨Nat.le_mul_of_pos_right _ (Nat.two_pow_pos number), ordered⟩

theorem pause_eq_zero (instant : schedule.minDelay = 0) (number : Nat) :
    schedule.pause number = 0 := by
  simp [pause, instant]

end Schedule

namespace Wait

/-- The update stays in progress, and polls take no time. -/
structure Busy (wait : Wait) : Prop where
  inProgress : ∀ number, InProgress (wait.answer number)
  instant : ∀ number, wait.delay number = 0

/-- The wait times out with the answer to so many polls, and not behind its deadline. -/
def GivesUp (wait : Wait) (count : Nat) : Prop :=
  ∃ time ≤ wait.began + wait.schedule.maxWait, ∀ steps, count ≤ steps →
    (wait.run steps).polls.length = count ∧
      (wait.run steps).ended = some (time, .error (.waiter .timeout none))

/-- No run of the wait comes to an end: each polls as often as it has steps, at the same instant. -/
def GoesOnAtOnce (wait : Wait) : Prop :=
  ∀ steps, wait.run steps = ⟨List.replicate steps wait.began, none⟩

variable {wait : Wait}

theorem Busy.started_succ (busy : wait.Busy) (number : Nat) :
    wait.started (number + 1) = wait.started number + wait.schedule.pause number := by
  rw [started, busy.instant, Nat.add_zero]

/-- Each pause takes at least the first one. -/
theorem Busy.le_started (busy : wait.Busy)
    (ordered : wait.schedule.minDelay ≤ wait.schedule.maxDelay) (number : Nat) :
    wait.began + number * wait.schedule.minDelay ≤ wait.started number := by
  induction number with
  | zero => simp [started]
  | succ number ih =>
    have pause := Schedule.minDelay_le_pause ordered number
    rw [busy.started_succ, Nat.succ_mul]
    omega

theorem Busy.started_eq (busy : wait.Busy) (noPause : wait.schedule.minDelay = 0) (number : Nat) :
    wait.started number = wait.began := by
  induction number with
  | zero => rfl
  | succ number ih => rw [busy.started_succ, ih, Schedule.pause_eq_zero noPause, Nat.add_zero]

/-- As long as no poll is late the next one is made. -/
theorem Busy.reaches (busy : wait.Busy) {steps number : Nat}
    (follows : wait.Follows 0 steps (wait.run steps))
    (fits : wait.began + wait.schedule.maxWait ≤ Clock.limit) (inSteps : number < steps)
    (inTime : ∀ poll < number, ¬ wait.schedule.Late wait.began (wait.started (poll + 1))) :
    number < (wait.run steps).polls.length := by
  induction number with
  | zero => exact follows.goesOn inSteps
  | succ number ih =>
    have here := ih (by omega) (fun poll before => inTime poll (by omega))
    have heeds := follows.heeds number (Nat.zero_le _) here
    rcases heeds.paused (busy.inProgress number) (inTime number (Nat.lt_succ_self _)) with
      ⟨_, goesOn⟩ | ⟨_, beyond⟩
    · exact goesOn (by omega)
    · omega

/-- Pauses of some length bring a poll that would be late. -/
theorem Busy.exists_late (busy : wait.Busy)
    (ordered : wait.schedule.minDelay ≤ wait.schedule.maxDelay)
    (fits : wait.began + wait.schedule.maxWait ≤ Clock.limit)
    (takesTime : 0 < wait.schedule.minDelay) :
    wait.schedule.Late wait.began
      (wait.started (wait.schedule.maxWait / wait.schedule.minDelay + 1)) := by
  have started := busy.le_started ordered (wait.schedule.maxWait / wait.schedule.minDelay + 1)
  have longer := Nat.lt_mul_div_succ wait.schedule.maxWait takesTime
  rw [Nat.mul_comm] at longer
  exact ⟨fits, by omega⟩

/-- The first poll that would be late is not made: the wait gives up before it. -/
theorem Busy.givesUp (busy : wait.Busy) (ordered : wait.schedule.minDelay ≤ wait.schedule.maxDelay)
    (isDuration : wait.schedule.maxDelay ≤ Clock.longest)
    (fits : wait.began + wait.schedule.maxWait ≤ Clock.limit)
    (takesTime : 0 < wait.schedule.minDelay) :
    ∃ count ≤ wait.schedule.maxWait / wait.schedule.minDelay + 1, wait.GivesUp count := by
  classical
  have someLate : ∃ number, wait.schedule.Late wait.began (wait.started (number + 1)) :=
    ⟨_, busy.exists_late ordered fits takesTime⟩
  obtain ⟨number, late, first⟩ : ∃ number,
      wait.schedule.Late wait.began (wait.started (number + 1)) ∧
        ∀ poll < number, ¬ wait.schedule.Late wait.began (wait.started (poll + 1)) :=
    ⟨Nat.find someLate, Nat.find_spec someLate, fun _ before => Nat.find_min someLate before⟩
  have bounded : number ≤ wait.schedule.maxWait / wait.schedule.minDelay := by
    by_contra beyond
    exact first _ (Nat.lt_of_not_le beyond) (busy.exists_late ordered fits takesTime)
  -- the last poll is in time: it is the first one, or there was a pause until it
  have inTime : wait.started number ≤ wait.began + wait.schedule.maxWait := by
    cases number with
    | zero => exact Nat.le_add_right _ _
    | succ before =>
      have notLate := first before (Nat.lt_succ_self _)
      unfold Schedule.Late at notLate
      omega
  refine ⟨number + 1, by omega, wait.started number, inTime, fun steps enough => ?_⟩
  have follows := run_follows ordered isDuration steps
  have made := busy.reaches follows fits enough first
  have heeds := follows.heeds number (Nat.zero_le _) made
  have ended := (heeds.timedOut (busy.inProgress number)).mpr late
  rwa [answered, busy.instant, Nat.add_zero] at ended

theorem Busy.goesOnAtOnce (busy : wait.Busy) (isDuration : wait.schedule.maxDelay ≤ Clock.longest)
    (fits : wait.began + wait.schedule.maxWait ≤ Clock.limit)
    (noPause : wait.schedule.minDelay = 0) : wait.GoesOnAtOnce := by
  intro steps
  have ordered : wait.schedule.minDelay ≤ wait.schedule.maxDelay := noPause ▸ Nat.zero_le _
  have follows := run_follows ordered isDuration steps
  have inTime (number : Nat) : ¬ wait.schedule.Late wait.began (wait.started (number + 1)) := by
    rw [busy.started_eq noPause]
    unfold Schedule.Late
    omega
  have allMade : (wait.run steps).polls.length = steps := by
    refine Nat.le_antisymm (by simpa using follows.atMost) (Nat.le_of_not_lt fun fewer => ?_)
    exact absurd (busy.reaches follows fits fewer fun poll _ => inTime poll) (Nat.lt_irrefl _)
  have polls : (wait.run steps).polls = List.replicate steps wait.began := by
    rw [follows.made, allMade, made, funext (busy.started_eq noPause), List.map_const',
      List.length_range]
  have unended : (wait.run steps).ended = none := by
    cases steps with
    | zero => rfl
    | succ before =>
      have heeds := follows.heeds before (Nat.zero_le _) (by omega)
      exact heeds.unended (busy.inProgress before) (inTime before) allMade
  rw [← polls, ← unended]

/-- A wait for a function whose update stays in progress, with every call answered at once. -/
def endless (schedule : Schedule) : Wait where
  backend := {
    delay := fun _ _ => 0
    failure? := fun _ _ => none
    report := fun _ _ => { status := some .inProgress }
    version := fun _ _ => "1" }
  functionName := "handler"
  schedule
  began := 0

theorem busy_endless (schedule : Schedule) : (endless schedule).Busy where
  inProgress _ := .report rfl
  instant _ := rfl

/-- A wait on a schedule that the settings allow gives up on an update that stays in progress, after
as many polls as there are first pauses in its time, if these take any; else it goes on for ever. -/
theorem gives_up_of_validate (wait : Wait) (waiter : WaiterSettings) (field : String)
    (accepted : waiter.validate field = .ok ()) (maxDelay : waiter.maxDelay < 2 ^ 64)
    (scheduled : wait.schedule = waiter.schedule)
    (fits : wait.began + wait.schedule.maxWait ≤ Clock.limit) (busy : wait.Busy) :
    (0 < waiter.minDelay →
        ∃ count ≤ waiter.maxWait / waiter.minDelay + 1, wait.GivesUp count) ∧
      (waiter.minDelay = 0 → wait.GoesOnAtOnce) := by
  obtain ⟨ordered, _⟩ := WaiterSettings.validate_eq_ok_iff.mp accepted
  have inOrder : wait.schedule.minDelay ≤ wait.schedule.maxDelay := by
    simp only [scheduled, WaiterSettings.schedule]
    omega
  have isDuration : wait.schedule.maxDelay ≤ Clock.longest := by
    have longest : Clock.longest = (2 ^ 64 - 1) * 1000 + 999 := rfl
    simp only [scheduled, WaiterSettings.schedule, longest]
    omega
  constructor
  · intro takesTime
    have somePause : 0 < wait.schedule.minDelay := by
      simp only [scheduled, WaiterSettings.schedule]
      omega
    have inSeconds : wait.schedule.maxWait / wait.schedule.minDelay =
        waiter.maxWait / waiter.minDelay := by
      simp only [scheduled, WaiterSettings.schedule]
      exact Nat.mul_div_mul_right _ _ (by decide)
    rw [← inSeconds]
    exact busy.givesUp inOrder isDuration fits somePause
  · intro noDelay
    have noPause : wait.schedule.minDelay = 0 := by simp [scheduled, WaiterSettings.schedule, noDelay]
    exact busy.goesOnAtOnce isDuration fits noPause

/-- On the slow schedule a wait gives up after at most 61 polls. -/
theorem gives_up_of_validate_slow :
    let waiter : WaiterSettings := ⟨5, 5, 300⟩
    waiter.validate "slow" = .ok () ∧ (endless waiter.schedule).Busy ∧
      ∃ count ≤ 61, (endless waiter.schedule).GivesUp count := by
  intro waiter
  have accepted : waiter.validate "slow" = .ok () := rfl
  have busy := busy_endless waiter.schedule
  have givesUp := gives_up_of_validate (endless waiter.schedule) waiter "slow" accepted (by decide)
    rfl (by decide) busy
  obtain ⟨count, bounded, stops⟩ := givesUp.1 (by decide)
  exact ⟨accepted, busy, count, Nat.le_trans bounded (by decide), stops⟩

/-- Settings whose ordinary functions are polled again at once. -/
def eager : Settings where
  target := { account := "1", region := "r" }
  standard := ⟨0, 5, 60⟩

/-- These settings are accepted, and yet no run of a wait on their schedule ever gives up. -/
theorem eager_never_gives_up :
    eager.validate = .ok () ∧
      60000 ≤ Clock.limit ∧ eager.standard.schedule.maxWait = 60000 ∧
      (endless eager.standard.schedule).Busy ∧
      (∀ steps, ((endless eager.standard.schedule).run steps).polls = List.replicate steps 0 ∧
        ((endless eager.standard.schedule).run steps).ended = none) ∧
      ¬ ∃ count, (endless eager.standard.schedule).GivesUp count := by
  have busy := busy_endless eager.standard.schedule
  have fits : 60000 ≤ Clock.limit := by decide
  have goesOn : (endless eager.standard.schedule).GoesOnAtOnce :=
    busy.goesOnAtOnce (by decide) fits rfl
  refine ⟨rfl, fits, rfl, busy, fun steps => ?_, ?_⟩
  · rw [goesOn steps]
    exact ⟨rfl, rfl⟩
  · rintro ⟨count, time, _, gaveUp⟩
    obtain ⟨_, ended⟩ := gaveUp count (Nat.le_refl _)
    rw [goesOn count] at ended
    cases ended

end Wait

end StackSwap
