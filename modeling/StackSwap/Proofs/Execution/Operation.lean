import StackSwap.Proofs.Execution.Course

namespace StackSwap

namespace Execution

variable {site : Site}

/-! Calls and waits of one operation -/

/-- What has become of an operation whose events these are. -/
def Continues (site : Site) (operation : Operation) (events : List Event) : Progress → Prop
  | .waits stage => Pending site operation stage events
  | .ends (.ok _) => Applied site operation (events ++ [.applied operation])
  | .ends (.error failure) => Failing site operation events failure

/-- The operation, whose events so far are these, has gone on by further ones of its change. -/
def GoesOn (site : Site) (job : Job) (ledger : Ledger) (operation : Operation) (events : List Event)
    (reached : Progress × Ledger) : Prop :=
  ∃ more, Extends site job ledger more reached.2 ∧
    Continues site operation (events ++ more) reached.1

theorem Continues.goesOn {operation : Operation} {events : List Event} {progress : Progress}
    (continues : Continues site operation events progress) (job : Job) (ledger : Ledger) :
    GoesOn site job ledger operation events (progress, ledger) :=
  ⟨[], .refl site job ledger, by rwa [List.append_nil]⟩

theorem Awaiting.pause {operation : Operation} {functionName : String} {events : List Event}
    {waiter : Waiter} {next time now : Nat} {answer : Answer}
    (awaiting : Awaiting site operation functionName events waiter (some next))
    (notBefore : next ≤ time) (arrived : time ≤ now) (inProgress : InProgress (.ok answer))
    (inTime : waiter.isTooLate (Clock.after? now waiter.delay) = false) :
    Awaiting site operation functionName
      (events ++ [.called ⟨time, .getConfiguration functionName⟩ (.ok answer)])
      waiter.afterPause (Clock.after? now waiter.delay) := by
  cases awaiting with
  | since updates scheduled polling =>
    rw [List.append_assoc]
    exact .since updates scheduled (polling.pause notBefore arrived inProgress rfl inTime)

theorem startPoll_goesOn (job : Job) {now next : Nat} {operation : Operation} {functionName : String}
    {events : List Event} {waiter : Waiter}
    (awaiting : Awaiting site operation functionName events waiter (some next))
    (notBefore : next ≤ now) (ledger : Ledger) :
    GoesOn site job ledger operation events
      (startPoll site now job functionName waiter ledger) :=
  ⟨_, .send site job ledger now (.getConfiguration functionName),
    .poll awaiting notBefore rfl (Nat.le_add_right ..)⟩

theorem startWait_goesOn (job : Job) (now time : Nat) {operation : Operation} {functionName : String}
    {call : ServiceCall} {answer : Answer} (updates : Updates operation functionName call)
    (ledger : Ledger) :
    GoesOn site job ledger operation [.attempted operation, .called ⟨time, call⟩ (.ok answer)]
      (startWait site now job functionName (site.settings.scheduleFor answer.report) ledger) := by
  have awaiting : Awaiting site operation functionName
      [.attempted operation, .called ⟨time, call⟩ (.ok answer),
        .awaited functionName (site.settings.scheduleFor answer.report)]
      (Waiter.start (site.settings.scheduleFor answer.report) now) (some now) :=
    .since updates (scheduled_scheduleFor site answer) (.start now)
  have noted : Extends site job ledger
      [.awaited functionName (site.settings.scheduleFor answer.report)]
      (ledger.note job (.awaited functionName (site.settings.scheduleFor answer.report))) :=
    .note ledger (by simp) (by simp)
  obtain ⟨more, extends_, continues⟩ := startPoll_goesOn job awaiting (Nat.le_refl now) _
  exact ⟨_, noted.trans extends_, continues⟩

/-- The answer to a poll decides the wait, comes too late for a further one, or a pause follows. -/
theorem resume_poll (job : Job) {now time next : Nat} {operation : Operation} {functionName : String}
    {events : List Event} {waiter : Waiter} {wake : Wake} {answer : Outcome Answer}
    (equipped : Equipped site operation)
    (awaiting : Awaiting site operation functionName events waiter (some next))
    (notBefore : next ≤ time) (arrived : time ≤ now) (ledger : Ledger) :
    GoesOn site job ledger operation
      (events ++ [.called ⟨time, .getConfiguration functionName⟩ answer])
      (resume site now job ledger (.poll wake functionName waiter answer)) := by
  cases answer with
  | error failure =>
    refine Continues.goesOn ?_ job ledger
    exact .waited awaiting notBefore (.failed failure)
  | ok answer =>
    rcases inProgress_or_decides (.ok answer) with inProgress | ⟨result, decides⟩
    · have decided := inProgress.decide_eq waiter now
      cases late : waiter.isTooLate (Clock.after? now waiter.delay) with
      | true =>
        rw [if_pos late] at decided
        simp only [resume, decided]
        refine Continues.goesOn ?_ job ledger
        exact .late awaiting notBefore arrived inProgress late
      | false =>
        rw [if_neg (Bool.eq_false_iff.mp late)] at decided
        simp only [resume, decided]
        refine ⟨[], ⟨by simp [Ledger.wait], id⟩, ?_⟩
        rw [List.append_nil]
        exact .pause (awaiting.pause notBefore arrived inProgress late)
    · simp only [resume, decides.decide_eq waiter now]
      refine Continues.goesOn ?_ job ledger
      cases result with
      | ok _ => exact .update equipped awaiting notBefore decides
      | error failure => exact .waited awaiting notBefore decides

theorem refused_append {first second : List Event} {failure : Failure} :
    Refused (first ++ second) failure ↔ Refused first failure ∨ Refused second failure := by
  simp [Refused, exists_or]

theorem refused_call {started : StartedCall} {answer : Outcome Answer} {failure : Failure} :
    Refused [.called started answer] failure ↔ answer = .error failure := by
  simp [Refused, eq_comm]

/-- Each event is the update of one of the aliases. -/
def MovesAmong (functionName version : String) (aliases : List String) (events : List Event) : Prop :=
  ∀ event ∈ events, ∃ aliasName ∈ aliases, Moved functionName version aliasName event

theorem MovesAmong.cons {functionName version aliasName : String} {aliases : List String}
    {first : Event} {rest : List Event} (moved : Moved functionName version aliasName first)
    (later : MovesAmong functionName version aliases rest) :
    MovesAmong functionName version (aliasName :: aliases) (first :: rest) := by
  intro event member
  rcases List.mem_cons.mp member with rfl | inRest
  · exact ⟨aliasName, List.mem_cons_self .., moved⟩
  · obtain ⟨other, inAliases, same⟩ := later event inRest
    exact ⟨other, List.mem_cons_of_mem _ inAliases, same⟩

theorem moved_of_forall₂ {functionName version : String} {aliases : List String}
    {events : List Event} (moved : List.Forall₂ (Moved functionName version) aliases events) :
    MovesAmong functionName version aliases events := by
  induction moved with
  | nil => exact fun event member => absurd member List.not_mem_nil
  | cons first _ ih => exact .cons first ih

/-- Where the updates of the aliases stand after some of them were started in a row. -/
def AliasProgress (started : List Event) : Progress → Prop
  | .waits (.aliases moves) =>
    (∀ failure, Refused started failure ↔ ∃ move ∈ moves, move.answer = .error failure) ∧
      moves ≠ [] ∧ ∀ move ∈ moves, move.wake.time ≠ none
  | .waits _ => False
  | .ends (.ok _) => ∀ failure, ¬ Refused started failure
  | .ends (.error failure) => Refused started failure

/-- All aliases are started, unless one of them has failed at once. -/
theorem startAliases_spec (job : Job) (now : Nat) (functionName version : String)
    (aliases : List String) {moves : List AliasMove} {before : List Event} (ledger : Ledger)
    (open_ : ∀ failure, Refused before failure ↔ ∃ move ∈ moves, move.answer = .error failure)
    (arrive : ∀ move ∈ moves, move.wake.time ≠ none) :
    ∃ more, Extends site job ledger more
        (startAliases site now job functionName version aliases moves ledger).2 ∧
      AliasProgress (before ++ more)
        (startAliases site now job functionName version aliases moves ledger).1 ∧
      MovesAmong functionName version aliases more ∧
      ((∀ failure, (startAliases site now job functionName version aliases moves ledger).1 ≠
          .ends (.error failure)) →
        List.Forall₂ (Moved functionName version) aliases more) := by
  induction aliases generalizing moves before ledger with
  | nil =>
    refine ⟨[], ?_, ?_, moved_of_forall₂ .nil, fun _ => .nil⟩
    · cases moves <;> exact .refl site job ledger
    · rw [List.append_nil]
      cases moves with
      | nil => exact fun failure refused => by simpa using (open_ failure).mp refused
      | cons move rest => exact ⟨open_, List.cons_ne_nil _ _, arrive⟩
  | cons aliasName rest ih =>
    have sent := Extends.send site job ledger now (.updateAlias functionName aliasName version)
    have moved (answer : Outcome Answer) : Moved functionName version aliasName
        (.called ⟨now, .updateAlias functionName aliasName version⟩ answer) := .started now answer
    generalize answered : ledger.answer site (.updateAlias functionName aliasName version) = answer at sent
    simp only [startAliases, answered]
    split
    · cases answer with
      | error failure =>
        have nothing : MovesAmong functionName version rest [] :=
          fun event member => absurd member List.not_mem_nil
        refine ⟨_, sent, ?_, .cons (moved _) nothing, fun succeeds => absurd rfl (succeeds failure)⟩
        exact refused_append.mpr (.inr (refused_call.mpr rfl))
      | ok value =>
        have stillOpen : ∀ failure,
            Refused (before ++ [.called ⟨now, .updateAlias functionName aliasName version⟩ (.ok value)])
              failure ↔ ∃ move ∈ moves, move.answer = .error failure := by
          intro failure
          rw [refused_append, refused_call]
          simpa using open_ failure
        obtain ⟨more, extends_, progress, named, all⟩ := ih _ stillOpen arrive
        exact ⟨_, sent.trans extends_, by simpa using progress, .cons (moved _) named,
          fun succeeds => .cons (moved _) (all succeeds)⟩
    · have stillOpen : ∀ failure,
          Refused (before ++ [.called ⟨now, .updateAlias functionName aliasName version⟩ answer])
            failure ↔ ∃ move ∈ moves ++ [⟨(ledger.send site now job
              (.updateAlias functionName aliasName version)).1, answer⟩], move.answer = .error failure := by
        intro failure
        rw [refused_append, refused_call, open_ failure]
        simp [or_and_right, exists_or]
      have stillArrive : ∀ move ∈ moves ++ [⟨(ledger.send site now job
          (.updateAlias functionName aliasName version)).1, answer⟩], move.wake.time ≠ none := by
        refine List.forall_mem_append.mpr ⟨arrive, ?_⟩
        rintro move inside
        rw [List.mem_singleton.mp inside]
        exact Option.some_ne_none _
      obtain ⟨more, extends_, progress, named, all⟩ := ih _ stillOpen stillArrive
      exact ⟨_, sent.trans extends_, by simpa using progress, .cons (moved _) named,
        fun succeeds => .cons (moved _) (all succeeds)⟩

/-- What is left when aliases are settled: all failures that are still to come, or one of them. -/
def Settles (moves : List AliasMove) : Outcome (List AliasMove) → Prop
  | .ok left => (∀ failure,
    (∃ move ∈ left, move.answer = .error failure) ↔ ∃ move ∈ moves, move.answer = .error failure) ∧
      ∀ move ∈ left, move ∈ moves
  | .error failure => ∃ move ∈ moves, move.answer = .error failure

theorem Settles.later {move : AliasMove} {rest : List AliasMove} {failure : Failure}
    (settles : Settles rest (.error failure)) : Settles (move :: rest) (.error failure) := by
  obtain ⟨other, inRest, failed⟩ := settles
  exact ⟨other, List.mem_cons_of_mem _ inRest, failed⟩

theorem settleAliases_spec (now : Nat) (moves : List AliasMove) :
    Settles moves (settleAliases now moves) := by
  induction moves with
  | nil => exact ⟨fun failure => Iff.rfl, fun move member => member⟩
  | cons move rest ih =>
    by_cases due : move.wake.isDue now = true
    · cases answered : move.answer with
      | error failure =>
        simp only [settleAliases, due, ↓reduceIte, answered]
        exact ⟨move, List.mem_cons_self .., answered⟩
      | ok value =>
        simp only [settleAliases, due, ↓reduceIte, answered]
        cases settled : settleAliases now rest with
        | error failure =>
          rw [settled] at ih
          exact ih.later
        | ok left =>
          rw [settled] at ih
          obtain ⟨same, fromRest⟩ := ih
          refine ⟨fun failure => ?_, fun other member => List.mem_cons_of_mem _ (fromRest other member)⟩
          simpa [answered] using same failure
    · simp only [settleAliases, due, Bool.false_eq_true, ↓reduceIte]
      cases settled : settleAliases now rest with
      | error failure =>
        rw [settled] at ih
        exact ih.later
      | ok left =>
        rw [settled] at ih
        obtain ⟨same, fromRest⟩ := ih
        refine ⟨fun failure => ?_, fun other member => ?_⟩
        · simp [same failure]
        · rcases List.mem_cons.mp member with rfl | inLeft
          · exact List.mem_cons_self ..
          · exact List.mem_cons_of_mem _ (fromRest other inLeft)

/-! One operation -/

theorem startAliases_goesOn (job : Job) (now time : Nat) {request : VersionPublish} {answer : Answer}
    (equipped : Equipped site (.publishVersion request)) (ledger : Ledger) :
    GoesOn site job ledger (.publishVersion request)
      [.attempted (.publishVersion request),
        .called ⟨time, .publishVersion request.functionName⟩ (.ok answer)]
      (startAliases site now job request.functionName answer.version request.aliases [] ledger) := by
  have open_ : ∀ failure,
      Refused [] failure ↔ ∃ move ∈ ([] : List AliasMove), move.answer = .error failure := by
    simp [Refused]
  obtain ⟨more, extends_, progress, named, all⟩ := startAliases_spec job now request.functionName
    answer.version request.aliases ledger open_ (by simp)
  refine ⟨more, extends_, ?_⟩
  generalize (startAliases site now job request.functionName answer.version request.aliases []
    ledger).1 = reached at *
  rw [List.nil_append] at progress
  cases reached with
  | waits stage =>
    cases stage with
    | aliases moves => exact .aliases (all (by simp)) progress.1 progress.2.1 progress.2.2
    | _ => exact progress.elim
  | ends result =>
    cases result with
    | ok _ => exact .publish equipped (all (by simp)) progress
    | error failure => exact .unmoved named progress

/-- The answers that have come settle some aliases; the others are still waited for. -/
theorem resume_aliases (job : Job) {now time : Nat} {request : VersionPublish} {answer : Answer}
    {started : List Event} {moves : List AliasMove}
    (equipped : Equipped site (.publishVersion request))
    (moved : List.Forall₂ (Moved request.functionName answer.version) request.aliases started)
    (open_ : ∀ failure, Refused started failure ↔ ∃ move ∈ moves, move.answer = .error failure)
    (arrive : ∀ move ∈ moves, move.wake.time ≠ none) (ledger : Ledger) :
    GoesOn site job ledger (.publishVersion request)
      ([.attempted (.publishVersion request),
        .called ⟨time, .publishVersion request.functionName⟩ (.ok answer)] ++ started)
      (resume site now job ledger (.aliases moves)) := by
  have settles := settleAliases_spec now moves
  cases settled : settleAliases now moves with
  | error failure =>
    rw [settled] at settles
    simp only [resume, settled]
    refine Continues.goesOn ?_ job ledger
    exact .unmoved (moved_of_forall₂ moved) ((open_ failure).mpr settles)
  | ok left =>
    rw [settled] at settles
    have stillOpen : ∀ failure,
        Refused started failure ↔ ∃ move ∈ left, move.answer = .error failure :=
      fun failure => (open_ failure).trans (settles.1 failure).symm
    cases left with
    | nil =>
      simp only [resume, settled]
      refine Continues.goesOn ?_ job ledger
      exact .publish equipped moved
        (fun failure refused => by simpa using (stillOpen failure).mp refused)
    | cons move rest =>
      simp only [resume, settled]
      refine Continues.goesOn ?_ job ledger
      exact .aliases moved stillOpen (List.cons_ne_nil _ _)
        (fun move member => arrive move (settles.2 move member))

/-- When the wait of a stage is over the operation goes on, succeeds or fails. -/
theorem resume_goesOn (job : Job) {now : Nat} {operation : Operation} {stage : Stage}
    {events : List Event} (equipped : Equipped site operation)
    (pending : Pending site operation stage events) (due : stage.wake.isDue now = true)
    (ledger : Ledger) :
    GoesOn site job ledger operation events (resume site now job ledger stage) := by
  cases pending with
  | @update operation functionName call wake time answer updates arrives =>
    cases answer with
    | error failure =>
      refine Continues.goesOn ?_ job ledger
      exact .refused updates.sends
    | ok answer => exact startWait_goesOn job now time updates ledger
  | @poll operation functionName events wake waiter next time arrival answer awaiting notBefore
      arrives later =>
    have arrived : time ≤ now := by
      simp only [Stage.wake, Wake.isDue, arrives, Option.any_some, decide_eq_true_eq] at due
      exact Nat.le_trans later due
    exact resume_poll job equipped awaiting notBefore arrived ledger
  | @pause operation functionName events wake waiter awaiting =>
    cases time : wake.time with
    | none => simp [Stage.wake, Wake.isDue, time] at due
    | some next =>
      rw [time] at awaiting
      have notBefore : next ≤ now := by simpa [Stage.wake, Wake.isDue, time] using due
      exact startPoll_goesOn job awaiting notBefore ledger
  | @publish request wake time answer arrives =>
    cases answer with
    | error failure =>
      refine Continues.goesOn ?_ job ledger
      exact .refused (.publication request)
    | ok answer => exact startAliases_goesOn job now time equipped ledger
  | aliases moved open_ unsettled arrive => exact resume_aliases job equipped moved open_ arrive ledger
  | @single operation client call wake time answer sends direct arrives =>
    refine Continues.goesOn ?_ job ledger
    cases answer with
    | error failure => exact .refused sends
    | ok answer => exact .single equipped sends direct

/-- What has become of an operation that was to be started. -/
def Starts (site : Site) (operation : Operation) (events : List Event) : Outcome Stage → Prop
  | .ok stage => Equipped site operation ∧ Pending site operation stage events
  | .error failure => Failing site operation events failure

theorem pending_ofOperation {wake : Wake} (arrives : wake.time ≠ none) (time : Nat)
    (answer : Outcome Answer) (operation : Operation) :
    Pending site operation (Stage.ofOperation wake answer operation)
      [.attempted operation, .called ⟨time, operation.firstCall⟩ answer] := by
  cases operation with
  | updateCode update => exact .update (.code update) arrives
  | updateConfiguration update => exact .update (.configuration update) arrives
  | publishVersion request => exact .publish arrives
  | updateProject update => exact .single (.project update) Client.noConfusion arrives
  | updateMachine update => exact .single (.machine update) Client.noConfusion arrives

theorem startOperation_spec (site : Site) (job : Job) (now : Nat) (operation : Operation) (ledger : Ledger) :
    ∃ events, Extends site job ledger events (startOperation site now job operation ledger).2 ∧
      Starts site operation events (startOperation site now job operation ledger).1 := by
  have noted : Extends site job ledger [.attempted operation]
      (ledger.note job (.attempted operation)) := .note ledger (by simp) (by simp)
  by_cases configured : site.configured operation.client = true
  · simp only [startOperation, configured, ↓reduceIte]
    exact ⟨_, noted.trans (.send site job _ now operation.firstCall), equipped_iff.mpr configured,
      pending_ofOperation (Option.some_ne_none _) now _ operation⟩
  · simp only [startOperation, configured, Bool.false_eq_true, ↓reduceIte]
    exact ⟨_, noted, .unconfigured (sends_firstCall operation) (Bool.eq_false_iff.mpr configured)⟩

/-! No operation begins or ends its change -/

/-- None of the events begins or ends a change. -/
def Quiet (events : List Event) : Prop :=
  ∀ event ∈ events, event.isBegin = false ∧ event.isEnd = false

theorem Quiet.append {first second : List Event} (early : Quiet first) (late : Quiet second) :
    Quiet (first ++ second) :=
  List.forall_mem_append.mpr ⟨early, late⟩

theorem Quiet.count {events : List Event} (quiet : Quiet events) :
    events.countP Event.isBegin = 0 ∧ events.countP Event.isEnd = 0 := by
  simp only [List.countP_eq_zero, Bool.not_eq_true]
  exact ⟨fun event member => (quiet event member).1, fun event member => (quiet event member).2⟩

theorem Polling.quiet {functionName : String} {schedule : Schedule} {polls : List Event}
    {waiter : Waiter} {next : Option Nat}
    (polling : Polling functionName schedule polls waiter next) : Quiet polls := by
  induction polling with
  | start now => simp [Quiet]
  | pause _ _ _ _ _ _ ih => exact ih.append (by simp [Quiet, Event.isBegin, Event.isEnd])

theorem Awaiting.quiet {operation : Operation} {functionName : String} {events : List Event}
    {waiter : Waiter} {next : Option Nat}
    (awaiting : Awaiting site operation functionName events waiter next) : Quiet events := by
  cases awaiting with
  | since updates scheduled polling =>
    refine Quiet.append ?_ polling.quiet
    simp [Quiet, Event.isBegin, Event.isEnd]

theorem MovesAmong.quiet {functionName version : String} {aliases : List String}
    {events : List Event} (moved : MovesAmong functionName version aliases events) :
    Quiet events := by
  intro event member
  obtain ⟨_, _, started⟩ := moved event member
  cases started
  exact ⟨rfl, rfl⟩

theorem quiet_first (operation : Operation) (started : StartedCall) (answer : Outcome Answer) :
    Quiet [.attempted operation, .called started answer] := by
  simp [Quiet, Event.isBegin, Event.isEnd]

theorem quiet_call (started : StartedCall) (answer : Outcome Answer) :
    Quiet [.called started answer] := by
  simp [Quiet, Event.isBegin, Event.isEnd]

theorem quiet_applied (operation : Operation) : Quiet [.applied operation] := by
  simp [Quiet, Event.isBegin, Event.isEnd]

theorem Applied.quiet {operation : Operation} {events : List Event}
    (applied : Applied site operation events) : Quiet events := by
  cases applied with
  | update _ awaiting _ _ => exact (awaiting.quiet.append (quiet_call _ _)).append (quiet_applied _)
  | publish _ moved _ =>
    exact ((quiet_first _ _ _).append (moved_of_forall₂ moved).quiet).append (quiet_applied _)
  | single _ _ _ => exact (quiet_first _ _ _).append (quiet_applied _)

theorem Pending.quiet {operation : Operation} {stage : Stage} {events : List Event}
    (pending : Pending site operation stage events) : Quiet events := by
  cases pending with
  | poll awaiting _ _ _ => exact awaiting.quiet.append (quiet_call _ _)
  | pause awaiting => exact awaiting.quiet
  | aliases moved _ _ _ => exact (quiet_first _ _ _).append (moved_of_forall₂ moved).quiet
  | _ => exact quiet_first _ _ _

theorem Failing.quiet {operation : Operation} {events : List Event} {failure : Failure}
    (failing : Failing site operation events failure) : Quiet events := by
  cases failing with
  | unconfigured _ _ => simp [Quiet, Event.isBegin, Event.isEnd]
  | refused _ => exact quiet_first _ _ _
  | waited awaiting _ _ => exact awaiting.quiet.append (quiet_call _ _)
  | late awaiting _ _ _ _ => exact awaiting.quiet.append (quiet_call _ _)
  | unmoved moved _ => exact (quiet_first _ _ _).append (MovesAmong.quiet moved)

end Execution

end StackSwap
