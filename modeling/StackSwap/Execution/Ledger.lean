import StackSwap.Plan
import StackSwap.Waiter

/-! What the changes of one execution share: a journal, of which the calls, the log, the counted
operations and the knowledge of a failure are views, and the order of the pauses. -/

namespace StackSwap

namespace Execution

/-- A change to execute, with its place in the list of all changes. -/
structure Job where
  place : Nat
  change : Swap
deriving Inhabited

namespace Job

/-- The jobs for some changes. Changes without operations have none. -/
def ofChanges (changes : List Swap) : List Job :=
  (changes.zipIdx.map (fun (change, place) => ⟨place, change⟩)).filter
    (fun job => !job.change.operations.isEmpty)

/-- How the change is called in the log. -/
def label (job : Job) : String := ", ".intercalate job.change.resourceNames

end Job

/-- A call that was started at an instant. -/
structure StartedCall where
  time : Nat
  call : ServiceCall
deriving BEq, Repr, Inhabited

/-- One thing that happens to a change. -/
inductive Event where
  /-- the change is taken up -/
  | began
  /-- one of its operations is begun -/
  | attempted (operation : Operation)
  /-- a call is started; its answer is taken when it arrives -/
  | called (started : StartedCall) (answer : Outcome Answer)
  /-- a wait for the last update of a function is begun -/
  | awaited (functionName : String) (schedule : Schedule)
  /-- an operation has succeeded -/
  | applied (operation : Operation)
  /-- all operations have succeeded -/
  | finished
  /-- an operation has failed, and the change ends with it -/
  | failed (failure : Failure)
deriving Inhabited

/-- An event, and the job that it happens to. -/
structure Entry where
  job : Job
  event : Event
deriving Inhabited

namespace Entry

def call? (entry : Entry) : Option StartedCall :=
  match entry.event with
  | .called started _ => some started
  | _ => none

/-- The service whose operation has succeeded. -/
def applied? (entry : Entry) : Option Service :=
  match entry.event with
  | .applied operation => some operation.service
  | _ => none

def line? (entry : Entry) : Option LogLine :=
  match entry.event with
  | .began => some (.info ("hotswapping: " ++ entry.job.label))
  | .finished => some (.info ("hotswapped: " ++ entry.job.label))
  | .failed _ => some (.warn "hotswap operation failed")
  | _ => none

/-- Whether the entry says that an operation has failed. -/
def isFailure (entry : Entry) : Bool :=
  match entry.event with
  | .failed _ => true
  | _ => false

end Entry

/-- The shared record of an execution. -/
structure Ledger where
  journal : List Entry := []
  nextOrder : Nat := 0
deriving Inhabited

/-- An instant at which something goes on, and its place among those of the same instant. Without
an instant it never does. -/
structure Wake where
  time : Option Nat
  order : Nat
deriving DecidableEq, Repr, Inhabited

namespace Wake

def isDue (wake : Wake) (now : Nat) : Bool := wake.time.any (fun time => time ≤ now)

/-- Whether one comes before another. -/
def isBefore (first second : Wake) : Bool :=
  match first.time, second.time with
  | some earlier, some later => earlier < later || earlier = later && first.order < second.order
  | some _, none => true
  | none, some _ => false
  | none, none => first.order < second.order

def earlier (first second : Wake) : Wake := if second.isBefore first then second else first

end Wake

/-- The surroundings of an execution: the services that have clients, how the services behave, and
the settings. -/
structure Site where
  configured : Client → Bool
  backend : Backend
  settings : Settings

namespace Ledger

/-- The calls started so far, oldest first. -/
def calls (ledger : Ledger) : List StartedCall := ledger.journal.filterMap Entry.call?

/-- The calls started so far, without their instants. -/
def history (ledger : Ledger) : List ServiceCall := ledger.calls.map StartedCall.call

def log (ledger : Ledger) : List LogLine := ledger.journal.filterMap Entry.line?

/-- The services of the operations that have succeeded. -/
def applied (ledger : Ledger) : List Service := ledger.journal.filterMap Entry.applied?

def hasFailed (ledger : Ledger) : Bool := ledger.journal.any Entry.isFailure

def note (ledger : Ledger) (job : Job) (event : Event) : Ledger :=
  { ledger with journal := ledger.journal ++ [⟨job, event⟩] }

def wait (ledger : Ledger) (time : Option Nat) : Wake × Ledger :=
  (⟨time, ledger.nextOrder⟩, { ledger with nextOrder := ledger.nextOrder + 1 })

/-- How a call is answered that is started now. -/
def answer (ledger : Ledger) (site : Site) (call : ServiceCall) : Outcome Answer :=
  site.backend.answer ledger.history call

/-- Starts a call; its answer comes when the wait for it is over. -/
def send (ledger : Ledger) (site : Site) (now : Nat) (job : Job) (call : ServiceCall) :
    Wake × Ledger :=
  let arrival := now + site.backend.delay ledger.history call
  (ledger.note job (.called ⟨now, call⟩ (ledger.answer site call))).wait (some arrival)

end Ledger

end Execution

end StackSwap
