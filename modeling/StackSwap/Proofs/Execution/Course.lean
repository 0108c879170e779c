import Mathlib.Data.List.Forall2
import StackSwap.Proofs.Execution.Journal
import StackSwap.Proofs.Waiting

/-! Which events belong to an operation that has succeeded, that waits or that has failed, and from
these to a task and to a change that is over, all without the executor. -/

namespace StackSwap

/-- Whether an update of the function takes long: it is attached to a network or is an image. -/
def FunctionReport.Slow (report : FunctionReport) : Prop :=
  (∃ id, report.vpcId = some id ∧ id ≠ "") ∨ report.packageType = some "Image"

theorem FunctionReport.isSlow_iff {report : FunctionReport} : report.isSlow = true ↔ report.Slow := by
  simp [isSlow, Slow, Option.any_eq_true]

namespace Execution

/-- The call that an operation begins with, and the client that sends it. -/
inductive Sends : Operation → Client → ServiceCall → Prop where
  | code (update : CodeUpdate) : Sends (.updateCode update) .lambda (.updateCode update)
  | configuration (update : ConfigurationUpdate) :
    Sends (.updateConfiguration update) .lambda (.updateConfiguration update)
  | publication (request : VersionPublish) :
    Sends (.publishVersion request) .lambda (.publishVersion request.functionName)
  | project (update : ProjectUpdate) :
    Sends (.updateProject update) .codeBuild (.updateProject update)
  | machine (update : MachineUpdate) :
    Sends (.updateMachine update) .stepFunctions (.updateMachine update)

theorem sends_firstCall (operation : Operation) :
    Sends operation operation.client operation.firstCall := by
  cases operation with
  | updateCode update => exact .code update
  | updateConfiguration update => exact .configuration update
  | publishVersion request => exact .publication request
  | updateProject update => exact .project update
  | updateMachine update => exact .machine update

theorem Sends.client_eq {operation : Operation} {client : Client} {call : ServiceCall}
    (sends : Sends operation client call) : operation.client = client := by
  cases sends <;> rfl

/-- The operation is an update of the function by this call; it is over when the update has
finished. -/
inductive Updates : Operation → String → ServiceCall → Prop where
  | code (update : CodeUpdate) :
    Updates (.updateCode update) update.functionName (.updateCode update)
  | configuration (update : ConfigurationUpdate) :
    Updates (.updateConfiguration update) update.functionName (.updateConfiguration update)

theorem Updates.sends {operation : Operation} {functionName : String} {call : ServiceCall}
    (updates : Updates operation functionName call) : Sends operation .lambda call := by
  cases updates with
  | code update => exact .code update
  | configuration update => exact .configuration update

/-- There is a client for the operation. -/
def Equipped (site : Site) (operation : Operation) : Prop :=
  ∃ client call, Sends operation client call ∧ site.configured client = true

theorem equipped_iff {site : Site} {operation : Operation} :
    Equipped site operation ↔ site.configured operation.client = true := by
  constructor
  · rintro ⟨client, call, sends, configured⟩
    rwa [sends.client_eq]
  · exact fun configured => ⟨_, _, sends_firstCall operation, configured⟩

theorem not_equipped {site : Site} {operation : Operation} {client : Client} {call : ServiceCall}
    (sends : Sends operation client call) (missing : site.configured client = false) :
    ¬ Equipped site operation := by
  rw [equipped_iff, sends.client_eq, missing]
  exact Bool.false_ne_true

/-- The schedule to wait with after an update was answered. -/
structure Scheduled (site : Site) (answer : Answer) (schedule : Schedule) : Prop where
  slow : answer.report.Slow → schedule = site.settings.slow.schedule
  standard : ¬ answer.report.Slow → schedule = site.settings.standard.schedule

theorem scheduled_scheduleFor (site : Site) (answer : Answer) :
    Scheduled site answer (site.settings.scheduleFor answer.report) := by
  constructor
  · intro slow
    rw [Settings.scheduleFor, if_pos (FunctionReport.isSlow_iff.mpr slow)]
  · intro quick
    rw [Settings.scheduleFor, if_neg (fun slow => quick (FunctionReport.isSlow_iff.mp slow))]

/-- The polls of a wait so far, all answered while the update was in progress, with the waiter that
they leave and the instant from which the next one may be started. -/
inductive Polling (functionName : String) (schedule : Schedule) :
    List Event → Waiter → Option Nat → Prop where
  | start (now : Nat) : Polling functionName schedule [] (Waiter.start schedule now) (some now)
  | pause {polls : List Event} {waiter : Waiter} {next time now : Nat} {until? : Option Nat}
    {answer : Answer} (polling : Polling functionName schedule polls waiter (some next))
    (notBefore : next ≤ time) (arrived : time ≤ now) (inProgress : InProgress (.ok answer))
    (pauses : Clock.after? now waiter.delay = until?) (inTime : waiter.isTooLate until? = false) :
    Polling functionName schedule
      (polls ++ [.called ⟨time, .getConfiguration functionName⟩ (.ok answer)])
      waiter.afterPause until?

/-- The events of an update of a function that was answered and is waited for. -/
inductive Awaiting (site : Site) (operation : Operation) (functionName : String) :
    List Event → Waiter → Option Nat → Prop where
  | since {call : ServiceCall} {time : Nat} {answer : Answer} {schedule : Schedule}
    {polls : List Event} {waiter : Waiter} {next : Option Nat}
    (updates : Updates operation functionName call) (scheduled : Scheduled site answer schedule)
    (polling : Polling functionName schedule polls waiter next) :
    Awaiting site operation functionName
      ([.attempted operation, .called ⟨time, call⟩ (.ok answer),
        .awaited functionName schedule] ++ polls) waiter next

/-- The event is an update of the alias to the version. -/
inductive Moved (functionName version aliasName : String) : Event → Prop where
  | started (time : Nat) (answer : Outcome Answer) :
    Moved functionName version aliasName
      (.called ⟨time, .updateAlias functionName aliasName version⟩ answer)

/-- Some call among the events is answered with the failure. -/
def Refused (events : List Event) (failure : Failure) : Prop :=
  ∃ started, .called started (.error failure) ∈ events

/-- The events of an operation that has succeeded. -/
inductive Applied (site : Site) : Operation → List Event → Prop where
  | update {operation : Operation} {functionName : String} {events : List Event} {waiter : Waiter}
    {next time : Nat} {answer : Answer} (equipped : Equipped site operation)
    (awaiting : Awaiting site operation functionName events waiter (some next))
    (notBefore : next ≤ time) (updated : Decides (.ok answer) (.ok ())) :
    Applied site operation
      (events ++ [.called ⟨time, .getConfiguration functionName⟩ (.ok answer)] ++
        [.applied operation])
  | publish {request : VersionPublish} {time : Nat} {answer : Answer} {moves : List Event}
    (equipped : Equipped site (.publishVersion request))
    (moved : List.Forall₂ (Moved request.functionName answer.version) request.aliases moves)
    (accepted : ∀ failure, ¬ Refused moves failure) :
    Applied site (.publishVersion request)
      ([.attempted (.publishVersion request),
        .called ⟨time, .publishVersion request.functionName⟩ (.ok answer)] ++ moves ++
          [.applied (.publishVersion request)])
  | single {operation : Operation} {client : Client} {call : ServiceCall} {time : Nat}
    {answer : Answer} (equipped : Equipped site operation) (sends : Sends operation client call)
    (direct : client ≠ .lambda) :
    Applied site operation
      ([.attempted operation, .called ⟨time, call⟩ (.ok answer)] ++ [.applied operation])

/-- The events of an operation that has failed: for want of a client, by a failed call, or by a wait
that was answered with a failure or took too long. -/
inductive Failing (site : Site) : Operation → List Event → Failure → Prop where
  | unconfigured {operation : Operation} {client : Client} {call : ServiceCall}
    (sends : Sends operation client call) (missing : site.configured client = false) :
    Failing site operation [.attempted operation] (.clientNotConfigured client)
  | refused {operation : Operation} {client : Client} {call : ServiceCall} {time : Nat}
    {failure : Failure} (sends : Sends operation client call) :
    Failing site operation
      [.attempted operation, .called ⟨time, call⟩ (.error failure)] failure
  | waited {operation : Operation} {functionName : String} {events : List Event} {waiter : Waiter}
    {next time : Nat} {answer : Outcome Answer} {failure : Failure}
    (awaiting : Awaiting site operation functionName events waiter (some next))
    (notBefore : next ≤ time) (broken : Decides answer (.error failure)) :
    Failing site operation
      (events ++ [.called ⟨time, .getConfiguration functionName⟩ answer]) failure
  | late {operation : Operation} {functionName : String} {events : List Event} {waiter : Waiter}
    {next time now : Nat} {answer : Answer}
    (awaiting : Awaiting site operation functionName events waiter (some next))
    (notBefore : next ≤ time) (arrived : time ≤ now) (inProgress : InProgress (.ok answer))
    (tooLate : waiter.isTooLate (Clock.after? now waiter.delay) = true) :
    Failing site operation
      (events ++ [.called ⟨time, .getConfiguration functionName⟩ (.ok answer)])
      (.waiter .timeout none)
  | unmoved {request : VersionPublish} {time : Nat} {answer : Answer} {moves : List Event}
    {failure : Failure}
    (moved : ∀ event ∈ moves, ∃ aliasName ∈ request.aliases,
      Moved request.functionName answer.version aliasName event)
    (refused : Refused moves failure) :
    Failing site (.publishVersion request)
      ([.attempted (.publishVersion request),
        .called ⟨time, .publishVersion request.functionName⟩ (.ok answer)] ++ moves) failure

/-- The events of an operation that waits at a stage. -/
inductive Pending (site : Site) : Operation → Stage → List Event → Prop where
  | update {operation : Operation} {functionName : String} {call : ServiceCall} {wake : Wake}
    {time : Nat} {answer : Outcome Answer} (updates : Updates operation functionName call)
    (arrives : wake.time ≠ none) :
    Pending site operation (.update wake functionName answer)
      [.attempted operation, .called ⟨time, call⟩ answer]
  | poll {operation : Operation} {functionName : String} {events : List Event} {wake : Wake}
    {waiter : Waiter} {next time arrival : Nat} {answer : Outcome Answer}
    (awaiting : Awaiting site operation functionName events waiter (some next))
    (notBefore : next ≤ time) (arrives : wake.time = some arrival) (later : time ≤ arrival) :
    Pending site operation (.poll wake functionName waiter answer)
      (events ++ [.called ⟨time, .getConfiguration functionName⟩ answer])
  | pause {operation : Operation} {functionName : String} {events : List Event} {wake : Wake}
    {waiter : Waiter} (awaiting : Awaiting site operation functionName events waiter wake.time) :
    Pending site operation (.pause wake functionName waiter) events
  | publish {request : VersionPublish} {wake : Wake} {time : Nat} {answer : Outcome Answer}
    (arrives : wake.time ≠ none) :
    Pending site (.publishVersion request) (.publish wake request answer)
      [.attempted (.publishVersion request),
        .called ⟨time, .publishVersion request.functionName⟩ answer]
  | aliases {request : VersionPublish} {time : Nat} {answer : Answer} {started : List Event}
    {moves : List AliasMove}
    (moved : List.Forall₂ (Moved request.functionName answer.version) request.aliases started)
    (open_ : ∀ failure, Refused started failure ↔ ∃ move ∈ moves, move.answer = .error failure)
    (unsettled : moves ≠ []) (arrive : ∀ move ∈ moves, move.wake.time ≠ none) :
    Pending site (.publishVersion request) (.aliases moves)
      ([.attempted (.publishVersion request),
        .called ⟨time, .publishVersion request.functionName⟩ (.ok answer)] ++ started)
  | single {operation : Operation} {client : Client} {call : ServiceCall} {wake : Wake} {time : Nat}
    {answer : Outcome Answer} (sends : Sends operation client call) (direct : client ≠ .lambda)
    (arrives : wake.time ≠ none) :
    Pending site operation (.single wake answer)
      [.attempted operation, .called ⟨time, call⟩ answer]

/-- The events of a change that goes on: none before it is taken up, and then those of the
operations that have succeeded before those of the current one. -/
inductive Traced (site : Site) : Task → List Event → Prop where
  | fresh (job : Job) : Traced site (.fresh job) []
  | underway {job : Job} {done upcoming : List Operation} {current : Operation}
    {segments : List (List Event)} {stage : Stage} {events : List Event}
    (operations : job.change.operations = done ++ current :: upcoming)
    (applied : List.Forall₂ (Applied site) done segments)
    (equipped : Equipped site current) (pending : Pending site current stage events) :
    Traced site (.underway job current upcoming stage) (.began :: segments.flatten ++ events)

/-- All events of a change that is over, with its result: none if it was left out, those of all its
operations, or those up to its own failure. -/
inductive Ended (site : Site) (job : Job) : Outcome Unit → List Event → Prop where
  | skipped : Ended site job (.ok ()) []
  | finished {segments : List (List Event)}
    (applied : List.Forall₂ (Applied site) job.change.operations segments) :
    Ended site job (.ok ()) (.began :: segments.flatten ++ [.finished])
  | failed {done upcoming : List Operation} {current : Operation} {segments : List (List Event)}
    {events : List Event} {failure : Failure}
    (operations : job.change.operations = done ++ current :: upcoming)
    (applied : List.Forall₂ (Applied site) done segments)
    (failing : Failing site current events failure) :
    Ended site job (.error failure) (.began :: segments.flatten ++ events ++ [.failed failure])

end Execution

end StackSwap
