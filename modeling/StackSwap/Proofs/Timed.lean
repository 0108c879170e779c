import StackSwap.Proofs.Sequence
import StackSwap.Timed

namespace StackSwap

namespace Timed

variable {α β : Type}

/-- There is no success: the outcome is a failure, or without one it never comes. -/
inductive Stops : Timed α → Option Failure → Prop where
  | hangs : Stops .never none
  | fails {duration : Nat} {failure : Failure} :
    Stops (.ends duration (.error failure)) (some failure)

theorem not_stops_ok {duration : Nat} {value : α} {problem : Option Failure} :
    ¬ (Timed.ends duration (.ok value)).Stops problem := nofun

theorem eq_never_of_stops {timed : Timed α} (stops : timed.Stops none) : timed = .never := by
  cases stops
  rfl

theorem ok_or_stops (timed : Timed α) :
    (∃ duration value, timed = .ends duration (.ok value)) ∨ ∃ problem, timed.Stops problem := by
  cases timed with
  | never => exact .inr ⟨_, .hangs⟩
  | ends duration result =>
    cases result with
    | ok value => exact .inl ⟨duration, value, rfl⟩
    | error failure => exact .inr ⟨_, .fails⟩

theorem andThen_eq_ok {first : Timed α} {next : α → Timed β} {duration : Nat} {result : β}
    (succeeds : first.andThen next = .ends duration (.ok result)) :
    ∃ before value after, first = .ends before (.ok value) ∧
      next value = .ends after (.ok result) := by
  cases first with
  | never => cases succeeds
  | ends before outcome =>
    cases outcome with
    | error failure => cases succeeds
    | ok value =>
      simp only [andThen] at succeeds
      cases later : next value with
      | never => simp [later] at succeeds
      | ends after outcome =>
        simp only [later, ends.injEq] at succeeds
        rw [succeeds.2] at later
        exact ⟨before, value, after, rfl, later⟩

theorem andThen_congr {first : Timed α} {next other : α → Timed β}
    (same : ∀ duration value, first = .ends duration (.ok value) → next value = other value) :
    first.andThen next = first.andThen other := by
  cases first with
  | never => rfl
  | ends before outcome =>
    cases outcome with
    | error failure => rfl
    | ok value => simp only [andThen, same before value rfl]

theorem stops_of_andThen {first : Timed α} {next : α → Timed β} {problem : Option Failure}
    (stops : (first.andThen next).Stops problem) :
    first.Stops problem ∨
      ∃ duration value, first = .ends duration (.ok value) ∧ (next value).Stops problem := by
  cases first with
  | never =>
    cases stops
    exact .inl .hangs
  | ends before outcome =>
    cases outcome with
    | error failure =>
      cases stops
      exact .inl .fails
    | ok value =>
      refine .inr ⟨before, value, rfl, ?_⟩
      simp only [andThen] at stops
      cases later : next value with
      | never =>
        rw [later] at stops
        cases stops
        exact .hangs
      | ends after outcome =>
        rw [later] at stops
        cases stops
        exact .fails

theorem map_eq_ok {f : α → β} {timed : Timed α} {duration : Nat} {result : β}
    (succeeds : timed.map f = .ends duration (.ok result)) :
    ∃ value, timed = .ends duration (.ok value) ∧ f value = result := by
  cases timed with
  | never => cases succeeds
  | ends duration outcome =>
    cases outcome with
    | error failure => cases succeeds
    | ok value =>
      cases succeeds
      exact ⟨value, rfl, rfl⟩

theorem stops_map_iff {f : α → β} {timed : Timed α} {problem : Option Failure} :
    (timed.map f).Stops problem ↔ timed.Stops problem := by
  cases timed with
  | never => exact ⟨fun | .hangs => .hangs, fun | .hangs => .hangs⟩
  | ends duration outcome =>
    cases outcome with
    | error failure => exact ⟨fun | .fails => .fails, fun | .fails => .fails⟩
    | ok value => exact ⟨fun stops => (not_stops_ok stops).elim, fun stops => (not_stops_ok stops).elim⟩

theorem mapFailure_eq_ok {f : Failure → Failure} {timed : Timed α} {duration : Nat} {result : α}
    (succeeds : timed.mapFailure f = .ends duration (.ok result)) :
    timed = .ends duration (.ok result) := by
  cases timed with
  | never => cases succeeds
  | ends duration outcome =>
    cases outcome with
    | error failure => cases succeeds
    | ok value => exact succeeds

theorem stops_of_mapFailure {f : Failure → Failure} {timed : Timed α} {problem : Option Failure}
    (stops : (timed.mapFailure f).Stops problem) :
    ∃ cause, timed.Stops cause ∧ problem = cause.map f := by
  cases timed with
  | never =>
    cases stops
    exact ⟨_, .hangs, rfl⟩
  | ends duration outcome =>
    cases outcome with
    | error failure =>
      cases stops
      exact ⟨_, .fails, rfl⟩
    | ok value => cases stops

/-- The outcome, whenever it is there. -/
def result? : Timed α → Option (Outcome α)
  | .never => none
  | .ends _ result => some result

theorem result?_andThen_congr {first other : Timed α} {next after : α → Timed β}
    (same : first.result? = other.result?)
    (later : ∀ value, first.result? = some (.ok value) →
      (next value).result? = (after value).result?) :
    (first.andThen next).result? = (other.andThen after).result? := by
  cases first with
  | never =>
    cases other with
    | never => rfl
    | ends _ _ => cases same
  | ends duration result =>
    cases other with
    | never => cases same
    | ends _ _ =>
      cases same
      cases result with
      | error failure => rfl
      | ok value =>
        have agree := later value rfl
        cases found : next value with
        | never =>
          cases found' : after value with
          | never => simp [andThen, found, found', result?]
          | ends _ _ => simp [found, found', result?] at agree
        | ends _ _ =>
          cases found' : after value with
          | never => simp [found, found', result?] at agree
          | ends _ _ =>
            simp only [found, found', result?, Option.some.injEq] at agree
            simp [andThen, found, found', result?, agree]

/-- Two outcomes succeed together when the later one has. -/
theorem both_eq_ok {first : Timed α} {second : Timed β} {duration : Nat} {pair : α × β}
    (succeeds : both first second = .ends duration (.ok pair)) :
    ∃ early late, first = .ends early (.ok pair.1) ∧ second = .ends late (.ok pair.2) ∧
      duration = max early late := by
  unfold both at succeeds
  split at succeeds
  · split at succeeds <;> cases succeeds
  · cases succeeds
  · cases succeeds
  · cases succeeds
    exact ⟨_, _, rfl, rfl, rfl⟩
  · cases succeeds

theorem stops_of_both {first : Timed α} {second : Timed β} {problem : Option Failure}
    (stops : (both first second).Stops problem) : first.Stops problem ∨ second.Stops problem := by
  rcases ok_or_stops first with ⟨early, value, rfl⟩ | ⟨cause, firstStops⟩
  · rcases ok_or_stops second with ⟨late, other, rfl⟩ | ⟨cause, secondStops⟩
    · exact absurd stops not_stops_ok
    · cases secondStops <;> cases stops
      · exact .inr .hangs
      · exact .inr .fails
  · cases firstStops with
    | hangs =>
      rcases ok_or_stops second with ⟨late, other, rfl⟩ | ⟨cause, secondStops⟩
      · cases stops
        exact .inl .hangs
      · cases secondStops <;> cases stops
        · exact .inl .hangs
        · exact .inr .fails
    | fails =>
      rcases ok_or_stops second with ⟨late, other, rfl⟩ | ⟨cause, secondStops⟩
      · cases stops
        exact .inl .fails
      · cases secondStops with
        | hangs =>
          cases stops
          exact .inl .fails
        | fails =>
          simp only [both] at stops
          split at stops <;> cases stops
          · exact .inr .fails
          · exact .inl .fails

theorem all_eq_ok {parts : List (Timed α)} {duration : Nat} {results : List α}
    (succeeds : all parts = .ends duration (.ok results)) :
    List.Forall₂ (fun part result => ∃ duration, part = .ends duration (.ok result)) parts
      results := by
  induction parts generalizing duration results with
  | nil =>
    cases succeeds
    exact .nil
  | cons part rest ih =>
    obtain ⟨⟨value, values⟩, joined, rfl⟩ := map_eq_ok succeeds
    obtain ⟨early, late, first, later, _⟩ := both_eq_ok joined
    exact .cons ⟨early, first⟩ (ih later)

theorem stops_of_all {parts : List (Timed α)} {problem : Option Failure}
    (stops : (all parts).Stops problem) : ∃ part ∈ parts, part.Stops problem := by
  induction parts with
  | nil => cases stops
  | cons part rest ih =>
    rcases stops_of_both (stops_map_iff.mp stops) with here | later
    · exact ⟨part, List.mem_cons_self .., here⟩
    · obtain ⟨other, member, stopped⟩ := ih later
      exact ⟨other, List.mem_cons_of_mem _ member, stopped⟩

end Timed

end StackSwap
