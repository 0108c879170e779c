import StackSwap.ServiceCall
import StackSwap.Settings

/-! A waiter polls a function. While its update is in progress it pauses, each time twice as long as
before up to a bound, and gives up when the next poll would come after its deadline. -/

namespace StackSwap

namespace Clock

/-- The last instant that the clock can name: the largest signed 64-bit number of seconds. -/
def limit : Nat := (Nat.pow 2 63 - 1) * 1000 + 999

/-- The instant after a while, if the clock can name it. -/
def after? (now duration : Nat) : Option Nat :=
  if now + duration ≤ limit then some (now + duration) else none

/-- The longest duration: the largest unsigned 64-bit number of seconds, and nearly another one. -/
def longest : Nat := (Nat.pow 2 64 - 1) * 1000 + 999

/-- Twice a duration, or the longest one if that is shorter. -/
def double (duration : Nat) : Nat := min (duration * 2) longest

theorem double_pos {duration : Nat} (takesTime : 0 < duration) : 0 < double duration := by
  unfold double longest
  omega

end Clock

/-- A schedule of polls: the first pause, the bound on pauses, and how long to wait in all. -/
structure Schedule where
  minDelay : Nat
  maxDelay : Nat
  maxWait : Nat
deriving DecidableEq, Repr, Inhabited

namespace Schedule

def standard : Schedule := ⟨1000, 1000, 60000⟩

def slow : Schedule := ⟨5000, 5000, 300000⟩

end Schedule

/-- The schedule that settings in seconds describe. -/
def WaiterSettings.schedule (waiter : WaiterSettings) : Schedule :=
  ⟨waiter.minDelay * 1000, waiter.maxDelay * 1000, waiter.maxWait * 1000⟩

/-- The schedule for a function, by what was reported about it. -/
def Settings.scheduleFor (settings : Settings) (report : FunctionReport) : Schedule :=
  if report.isSlow then settings.slow.schedule else settings.standard.schedule

/-- A waiter between two polls: its deadline, unless that is beyond the clock, and the length of
its next pause. -/
structure Waiter where
  schedule : Schedule
  deadline : Option Nat
  delay : Nat
deriving DecidableEq, Repr, Inhabited

namespace Waiter

/-- What a waiter does with a report. -/
inductive Decision where
  /-- the wait is over -/
  | finish (result : Outcome Unit)
  /-- pause until an instant, or for ever when the clock has none, and then poll again -/
  | pause (until? : Option Nat) (waiter : Waiter)
deriving Inhabited

def start (schedule : Schedule) (now : Nat) : Waiter :=
  { schedule, deadline := Clock.after? now schedule.maxWait, delay := schedule.minDelay }

/-- Whether a poll at an instant would come too late. An instant that the clock cannot name is
later than every deadline. -/
def isTooLate (waiter : Waiter) (next : Option Nat) : Bool :=
  match waiter.deadline, next with
  | none, _ => false
  | some _, none => true
  | some deadline, some next => deadline < next

theorem isTooLate_iff {waiter : Waiter} {began maxWait : Nat}
    (deadline : waiter.deadline = Clock.after? began maxWait) (now duration : Nat) :
    waiter.isTooLate (Clock.after? now duration) = true ↔
      began + maxWait ≤ Clock.limit ∧ began + maxWait < now + duration := by
  by_cases limited : began + maxWait ≤ Clock.limit
  · by_cases named : now + duration ≤ Clock.limit
    · simp [isTooLate, deadline, Clock.after?, limited, named]
    · have beyond : began + maxWait < now + duration := by omega
      simp [isTooLate, deadline, Clock.after?, limited, named, beyond]
  · simp [isTooLate, deadline, Clock.after?, limited]

/-- The next pause is twice as long, but no longer than the bound. -/
def afterPause (waiter : Waiter) : Waiter :=
  { waiter with delay := min (Clock.double waiter.delay) waiter.schedule.maxDelay }

/-- What to do with a report that arrives now. Without a status the update has finished. -/
def decide (waiter : Waiter) (now : Nat) (report : FunctionReport) : Decision :=
  match report.status with
  | none | some .successful => .finish (.ok ())
  | some .failed => .finish (.error (.waiter .failure report.reason))
  | some .inProgress =>
    let next := Clock.after? now waiter.delay
    if waiter.isTooLate next then .finish (.error (.waiter .timeout none))
    else .pause next waiter.afterPause

end Waiter

/-- A course of polls: when each was started, and how the wait ended, if it did. -/
structure PollRun where
  polls : List Nat := []
  ended : Option (Nat × Outcome Unit) := none
deriving Inhabited

namespace PollRun

/-- Polls a function until the wait is over, or until an instant by which it is given up. -/
def follow (backend : Backend) (functionName : String) (latest : Option Nat) :
    (steps : Nat) → Waiter → (now : Nat) → (polls : List Nat) → PollRun
  | 0, _, _, polls => { polls }
  | steps + 1, waiter, now, polls =>
    let call := ServiceCall.getConfiguration functionName
    let earlier := polls.map (fun _ => call)
    let polls := polls ++ [now]
    let arrival := now + backend.delay earlier call
    if latest.any (fun latest => latest < arrival) then { polls }
    else
      match backend.failure? earlier call with
      | some failure => { polls, ended := some (arrival, .error failure) }
      | none =>
        match waiter.decide arrival (backend.report earlier call) with
        | .finish result => { polls, ended := some (arrival, result) }
        | .pause none _ => { polls }
        | .pause (some next) waiter =>
          if latest.any (fun latest => latest < next) then { polls }
          else follow backend functionName latest steps waiter next polls

/-- The polls of a waiter that starts at the instant zero. -/
def start (backend : Backend) (functionName : String) (schedule : Schedule)
    (latest : Option Nat) (steps : Nat) : PollRun :=
  follow backend functionName latest steps (Waiter.start schedule 0) 0 []

end PollRun

end StackSwap
