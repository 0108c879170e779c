import StackSwap.Execution.Change

/-! The execution of all changes, grouped by service. When an instant comes the groups are visited in
their order, and in each the changes whose wait is over in the order in which they began to wait. -/

namespace StackSwap

namespace Execution

/-- The changes of one service: those that have not been taken up, those in flight, and the results
of those that are over. -/
structure Group where
  service : Service
  waiting : List Job
  inFlight : List Task := []
  results : List (Outcome Unit) := []
deriving Inhabited

namespace Group

def isOver (group : Group) : Bool := group.waiting.isEmpty && group.inFlight.isEmpty

/-- When the next change of the group goes on. -/
def nextTime (group : Group) : Option Nat :=
  (group.inFlight.filterMap (fun task => task.wake.time)).min?

/-- Takes up as many changes as there is room for, `ready` being those that go on now. -/
def fill (limit : Nat) (ready : List Task) (group : Group) : List Task × Group :=
  let room := limit - (group.inFlight.length + ready.length)
  (ready ++ (group.waiting.take room).map Task.fresh,
    { group with waiting := group.waiting.drop room })

/-- Goes on with the changes that are ready, and with those that then find room. -/
def pump (site : Site) (now steps : Nat) (limit : Nat) :
    (turns : Nat) → List Task → Group → Ledger → Group × Ledger
  | 0, ready, group, ledger => ({ group with inFlight := group.inFlight ++ ready }, ledger)
  | turns + 1, ready, group, ledger =>
    match fill limit ready group with
    | ([], group) => (group, ledger)
    | (task :: ready, group) =>
      match task.advance site now steps ledger with
      | (.inl task, ledger) =>
        pump site now steps limit turns ready { group with inFlight := group.inFlight ++ [task] } ledger
      | (.inr result, ledger) =>
        pump site now steps limit turns ready { group with results := group.results ++ [result] } ledger

/-- Goes on with a group at an instant. -/
def visit (site : Site) (now steps : Nat) (group : Group) (ledger : Ledger) : Group × Ledger :=
  let ready := (group.inFlight.filter (fun task => task.wake.isDue now)).mergeSort
    (fun first second => !second.wake.isBefore first.wake)
  let group := { group with inFlight := group.inFlight.filter (fun task => !task.wake.isDue now) }
  pump site now steps (max 1 site.settings.perService) (ready.length + group.waiting.length + 1)
    ready group ledger

def visitEach (site : Site) (now steps : Nat) : List Group → Ledger → List Group × Ledger
  | [], ledger => ([], ledger)
  | group :: rest, ledger =>
    let (group, ledger) := group.visit site now steps ledger
    let (rest, ledger) := visitEach site now steps rest ledger
    (group :: rest, ledger)

end Group

structure State where
  now : Nat
  groups : List Group
  ledger : Ledger := {}
deriving Inhabited

namespace State

/-- The state before anything has begun. Changes without operations are left out. -/
def init (now : Nat) (changes : List Swap) : State :=
  { now
    groups := Service.all.map (fun service =>
      { service, waiting := (Job.ofChanges changes).filter (fun job => job.change.service == service) }) }

def visitAll (site : Site) (steps : Nat) (state : State) : State :=
  let (groups, ledger) := Group.visitEach site state.now steps state.groups state.ledger
  { state with groups, ledger }

def nextTime (state : State) : Option Nat :=
  (state.groups.filterMap Group.nextTime).min?

def isOver (state : State) : Bool := state.groups.all Group.isOver

/-- The state after the waits that end next, if there are any that end by `latest`. -/
def next? (site : Site) (steps : Nat) (latest : Option Nat) (state : State) : Option State :=
  match state.nextTime with
  | none => none
  | some time =>
    if latest.any (fun latest => latest < time) then none
    else some (visitAll site steps { state with now := time })

/-- Goes on from wait to wait. -/
def proceed (site : Site) (latest : Option Nat) : (steps : Nat) → State → State
  | 0, state => state
  | steps + 1, state =>
    match state.next? site (steps + 1) latest with
    | none => state
    | some state => proceed site latest steps state

/-- The result of an execution that is over: the first failure in the order of the groups, and in
each of them in the order in which its changes ended. -/
def result (state : State) : Outcome Unit :=
  (state.groups.flatMap Group.results).forM id

end State

/-- The state after executing changes from an instant on, with at most so many steps, and nothing
that would go on after `latest`. -/
def run (site : Site) (latest : Option Nat) (steps : Nat) (now : Nat) (changes : List Swap) :
    State :=
  ((State.init now changes).visitAll site steps).proceed site latest steps

end Execution

end StackSwap
