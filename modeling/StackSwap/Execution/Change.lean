import StackSwap.Execution.Ledger

/-! One change in flight: its operations run one after the other, and the first one that fails ends
it. An update is over when a waiter has seen it finish, a publication when all aliases have moved. -/

namespace StackSwap

namespace Execution

/-- The update of an alias that is under way. -/
structure AliasMove where
  wake : Wake
  answer : Outcome Answer
deriving Inhabited

/-- What the current operation of a change waits for. The answer of a call is known to the stage
from its start, and taken when the wait for it is over. -/
inductive Stage where
  /-- the answer to an update of a function -/
  | update (wake : Wake) (functionName : String) (answer : Outcome Answer)
  /-- the answer to a poll -/
  | poll (wake : Wake) (functionName : String) (waiter : Waiter) (answer : Outcome Answer)
  /-- the end of a pause between polls -/
  | pause (wake : Wake) (functionName : String) (waiter : Waiter)
  /-- the answer to the publication of a version -/
  | publish (wake : Wake) (request : VersionPublish) (answer : Outcome Answer)
  /-- the answers to the updates of aliases -/
  | aliases (moves : List AliasMove)
  /-- the answer to any other call -/
  | single (wake : Wake) (answer : Outcome Answer)
deriving Inhabited

namespace Stage

/-- When the stage goes on. -/
def wake : Stage → Wake
  | .update wake _ _ => wake
  | .poll wake _ _ _ => wake
  | .pause wake _ _ => wake
  | .publish wake _ _ => wake
  | .single wake _ => wake
  | .aliases moves => moves.foldl (fun wake move => wake.earlier move.wake) ⟨none, 0⟩

/-- The stage of an operation whose first call was just started. -/
def ofOperation (wake : Wake) (answer : Outcome Answer) : Operation → Stage
  | .updateCode request => .update wake request.functionName answer
  | .updateConfiguration request => .update wake request.functionName answer
  | .publishVersion request => .publish wake request answer
  | .updateProject _ | .updateMachine _ => .single wake answer

end Stage

/-- What became of the current operation of a change. -/
inductive Progress where
  | waits (stage : Stage)
  | ends (result : Outcome Unit)
deriving Inhabited

def startPoll (site : Site) (now : Nat) (job : Job) (functionName : String) (waiter : Waiter)
    (ledger : Ledger) : Progress × Ledger :=
  let call := ServiceCall.getConfiguration functionName
  let answer := ledger.answer site call
  let (wake, ledger) := ledger.send site now job call
  (.waits (.poll wake functionName waiter answer), ledger)

/-- Starts a wait for the last update of a function, with its first poll. -/
def startWait (site : Site) (now : Nat) (job : Job) (functionName : String) (schedule : Schedule)
    (ledger : Ledger) : Progress × Ledger :=
  startPoll site now job functionName (Waiter.start schedule now)
    (ledger.note job (.awaited functionName schedule))

/-- Starts the updates of aliases in order. One that is answered at once is settled before the next
one starts, and if it fails the others are not started. -/
def startAliases (site : Site) (now : Nat) (job : Job) (functionName version : String) :
    List String → List AliasMove → Ledger → Progress × Ledger
  | [], [], ledger => (.ends (.ok ()), ledger)
  | [], moves, ledger => (.waits (.aliases moves), ledger)
  | aliasName :: rest, moves, ledger =>
    let call := ServiceCall.updateAlias functionName aliasName version
    let answer := ledger.answer site call
    let (wake, ledger) := ledger.send site now job call
    if wake.isDue now then
      match answer with
      | .error failure => (.ends (.error failure), ledger)
      | .ok _ => startAliases site now job functionName version rest moves ledger
    else startAliases site now job functionName version rest (moves ++ [⟨wake, answer⟩]) ledger

/-- Settles the alias updates that are answered by now; the first failed one in their order ends
the operation. -/
def settleAliases (now : Nat) : List AliasMove → Outcome (List AliasMove)
  | [] => .ok []
  | move :: rest =>
    if move.wake.isDue now then
      match move.answer with
      | .error failure => .error failure
      | .ok _ => settleAliases now rest
    else do return move :: (← settleAliases now rest)

/-- Starts an operation, if its client is configured. -/
def startOperation (site : Site) (now : Nat) (job : Job) (operation : Operation)
    (ledger : Ledger) : Outcome Stage × Ledger :=
  let ledger := ledger.note job (.attempted operation)
  if site.configured operation.client then
    let answer := ledger.answer site operation.firstCall
    let (wake, ledger) := ledger.send site now job operation.firstCall
    (.ok (Stage.ofOperation wake answer operation), ledger)
  else (.error (.clientNotConfigured operation.client), ledger)

/-- Takes what a stage waited for. -/
def resume (site : Site) (now : Nat) (job : Job) (ledger : Ledger) : Stage → Progress × Ledger
  | .update _ functionName (.ok answer) =>
    startWait site now job functionName (site.settings.scheduleFor answer.report) ledger
  | .update _ _ (.error failure) => (.ends (.error failure), ledger)
  | .poll _ functionName waiter (.ok answer) =>
    match waiter.decide now answer.report with
    | .finish result => (.ends result, ledger)
    | .pause next waiter =>
      let (wake, ledger) := ledger.wait next
      (.waits (.pause wake functionName waiter), ledger)
  | .poll _ _ _ (.error failure) => (.ends (.error failure), ledger)
  | .pause _ functionName waiter => startPoll site now job functionName waiter ledger
  | .publish _ request (.ok answer) =>
    startAliases site now job request.functionName answer.version request.aliases [] ledger
  | .publish _ _ (.error failure) => (.ends (.error failure), ledger)
  | .aliases moves =>
    match settleAliases now moves with
    | .error failure => (.ends (.error failure), ledger)
    | .ok [] => (.ends (.ok ()), ledger)
    | .ok moves => (.waits (.aliases moves), ledger)
  | .single _ answer => (.ends (answer.map (fun _ => ())), ledger)

/-- A change of a group: not begun, or with an operation under way and others still to come. -/
inductive Task where
  | fresh (job : Job)
  | underway (job : Job) (current : Operation) (upcoming : List Operation) (stage : Stage)
deriving Inhabited

namespace Task

def job : Task → Job
  | .fresh job => job
  | .underway job _ _ _ => job

/-- When the change goes on. One that has not begun goes on at once. -/
def wake : Task → Wake
  | .fresh _ => ⟨some 0, 0⟩
  | .underway _ _ _ stage => stage.wake

/-- What a turn leaves: a task that goes on later, or the result of the change. -/
abbrev Turn := (Task ⊕ Outcome Unit) × Ledger

/-- Ends a change with the failure of one of its operations. -/
def fail (job : Job) (failure : Failure) (ledger : Ledger) : Turn :=
  (.inr (.error failure), ledger.note job (.failed failure))

/-- Goes on with the operations that are left. -/
def next (site : Site) (now : Nat) (job : Job) : List Operation → Ledger → Turn
  | [], ledger => (.inr (.ok ()), ledger.note job .finished)
  | operation :: upcoming, ledger =>
    match startOperation site now job operation ledger with
    | (.ok stage, ledger) => (.inl (.underway job operation upcoming stage), ledger)
    | (.error failure, ledger) => fail job failure ledger

/-- Goes on with a change whose wait is over. A change that has not begun is left out once some
operation has failed. -/
def step (site : Site) (now : Nat) (ledger : Ledger) : Task → Turn
  | .fresh job =>
    if ledger.hasFailed then (.inr (.ok ()), ledger)
    else next site now job job.change.operations (ledger.note job .began)
  | .underway job operation upcoming stage =>
    match resume site now job ledger stage with
    | (.waits stage, ledger) => (.inl (.underway job operation upcoming stage), ledger)
    | (.ends (.ok _), ledger) => next site now job upcoming (ledger.note job (.applied operation))
    | (.ends (.error failure), ledger) => fail job failure ledger

/-- Goes on with a change until it has to wait beyond the present instant or is over. -/
def advance (site : Site) (now : Nat) : (steps : Nat) → Task → Ledger → Turn
  | 0, task, ledger => (.inl task, ledger)
  | steps + 1, task, ledger =>
    match step site now ledger task with
    | (.inr result, ledger) => (.inr result, ledger)
    | (.inl task, ledger) =>
      if task.wake.isDue now then advance site now steps task ledger else (.inl task, ledger)

end Task

end Execution

end StackSwap
