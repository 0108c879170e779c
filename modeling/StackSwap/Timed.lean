import StackSwap.Failure

/-! Outcomes that take time. Lookups are joined so that a failure ends the whole as soon as it
happens; of failures at one instant the first in order counts. -/

namespace StackSwap

/-- An outcome after a while, or none ever. -/
inductive Timed (α : Type) where
  | ends (duration : Nat) (result : Outcome α)
  | never

namespace Timed

variable {α β : Type}

instance : Inhabited (Timed α) := ⟨.never⟩

def now (result : Outcome α) : Timed α := .ends 0 result

/-- What follows a success, one after the other. -/
def andThen (first : Timed α) (next : α → Timed β) : Timed β :=
  match first with
  | .never => .never
  | .ends duration (.error failure) => .ends duration (.error failure)
  | .ends duration (.ok value) =>
    match next value with
    | .never => .never
    | .ends more result => .ends (duration + more) result

def map (f : α → β) : Timed α → Timed β
  | .never => .never
  | .ends duration result => .ends duration (f <$> result)

def mapFailure (f : Failure → Failure) : Timed α → Timed α
  | .never => .never
  | .ends duration result => .ends duration (result.mapError f)

/-- Two at the same time: both successes when the later one is there, or the earlier failure. -/
def both : Timed α → Timed β → Timed (α × β)
  | .ends first (.error failure), .ends second (.error other) =>
    if second < first then .ends second (.error other) else .ends first (.error failure)
  | .ends first (.error failure), _ => .ends first (.error failure)
  | _, .ends second (.error other) => .ends second (.error other)
  | .ends first (.ok left), .ends second (.ok right) => .ends (max first second) (.ok (left, right))
  | _, _ => .never

def all : List (Timed α) → Timed (List α)
  | [] => now (.ok [])
  | first :: rest => (both first (all rest)).map (fun (value, values) => value :: values)

end Timed

end StackSwap
