import Mathlib.Data.List.Nodup
import StackSwap.Proofs.Execution.Group
import StackSwap.Proofs.Sequence

namespace StackSwap

namespace Execution

variable {site : Site} {changes : List Swap}

namespace Job

/-- The job is that of one of the changes, and has something to do. -/
@[mk_iff]
structure Among (changes : List Swap) (job : Job) : Prop where
  listed : changes[job.place]? = some job.change
  busy : job.change.operations ≠ []

theorem mem_ofChanges {job : Job} : job ∈ ofChanges changes ↔ job.Among changes := by
  obtain ⟨place, change⟩ := job
  simp [ofChanges, List.mem_zipIdx_iff_getElem?, among_iff]

theorem ofChanges_places (changes : List Swap) : ((ofChanges changes).map place).Nodup := by
  have all : ((changes.zipIdx.map (fun entry => Job.mk entry.2 entry.1)).map place).Nodup := by
    rw [List.map_map]
    exact (List.zipIdx_map_snd 0 changes) ▸ List.nodup_range'
  exact all.sublist (List.filter_sublist.map place)

theorem eq_of_place {first second : Job} (inFirst : first ∈ ofChanges changes)
    (inSecond : second ∈ ofChanges changes) (same : first.place = second.place) : first = second :=
  List.inj_on_of_nodup_map (ofChanges_places changes) inFirst inSecond same

end Job

/-- The jobs of one service. -/
def jobsOf (changes : List Swap) (service : Service) : List Job :=
  (Job.ofChanges changes).filter (fun job => job.change.service == service)

theorem mem_jobsOf {service : Service} {job : Job} :
    job ∈ jobsOf changes service ↔ job ∈ Job.ofChanges changes ∧ job.change.service = service := by
  simp [jobsOf]

/-- The changes of a group are accounted for, and none of them is ready. -/
abbrev Rests (site : Site) (changes : List Swap) (group : Group) (ledger : Ledger) : Prop :=
  GroupHolds site (jobsOf changes group.service) [] group ledger

theorem Rests.frame {group : Group} {before after : Ledger} {others : List Job}
    (rests : Rests site changes group before) (grows : Grows site others before after)
    (apart : ∀ other ∈ others,
      other ∈ Job.ofChanges changes ∧ other.change.service ≠ group.service) :
    Rests site changes group after := by
  obtain ⟨closed, results, holds⟩ := rests
  refine ⟨closed, results, holds.frame grows (fun other member => ?_)⟩
  obtain ⟨known, otherService⟩ := apart other member
  refine ⟨otherService, fun job inJobs same => otherService ?_⟩
  obtain ⟨inChanges, service⟩ := mem_jobsOf.mp inJobs
  rw [Job.eq_of_place known inChanges same]
  exact service

/-- The jobs of several services. -/
def jobsOfAll (changes : List Swap) (services : List Service) : List Job :=
  (Job.ofChanges changes).filter (fun job => services.contains job.change.service)

theorem mem_jobsOfAll {services : List Service} {job : Job} :
    job ∈ jobsOfAll changes services ↔
      job ∈ Job.ofChanges changes ∧ job.change.service ∈ services := by
  simp [jobsOfAll]

theorem Grows.mono {fewer more : List Job} {before after : Ledger}
    (grows : Grows site fewer before after) (all : ∀ job ∈ fewer, job ∈ more) :
    Grows site more before after := by
  obtain ⟨⟨entries, same, fromJobs⟩, sound⟩ := grows
  exact ⟨⟨entries, same, fun entry member => all _ (fromJobs entry member)⟩, sound⟩

/-- A visit of several groups keeps all their changes accounted for. -/
theorem visitEach_spec (now steps : Nat) {groups : List Group} {ledger : Ledger}
    (distinct : (groups.map Group.service).Nodup)
    (rests : ∀ group ∈ groups, Rests site changes group ledger) :
    (Group.visitEach site now steps groups ledger).1.map Group.service = groups.map Group.service ∧
      (∀ group ∈ (Group.visitEach site now steps groups ledger).1,
        Rests site changes group (Group.visitEach site now steps groups ledger).2) ∧
      Grows site (jobsOfAll changes (groups.map Group.service)) ledger
        (Group.visitEach site now steps groups ledger).2 := by
  induction groups generalizing ledger with
  | nil => exact ⟨rfl, by simp [Group.visitEach], .refl ledger⟩
  | cons group rest ih =>
    obtain ⟨fresh, distinct⟩ := List.nodup_cons.mp distinct
    obtain ⟨visited, grows, service⟩ :=
      (rests group (List.mem_cons_self ..)).visit now steps
    -- the services differ, so what this visit writes concerns no change of the other groups
    have restRests : ∀ other ∈ rest,
        Rests site changes other (group.visit site now steps ledger).2 := by
      intro other member
      refine (rests other (List.mem_cons_of_mem _ member)).frame grows (fun job inJobs => ?_)
      obtain ⟨known, same⟩ := mem_jobsOf.mp inJobs
      refine ⟨known, fun otherService => fresh (List.mem_map.mpr ⟨other, member, ?_⟩)⟩
      exact otherService.symm.trans same
    obtain ⟨services, others, restGrows⟩ := ih distinct restRests
    have visitedRests : Rests site changes (group.visit site now steps ledger).1
        (group.visit site now steps ledger).2 := by
      rw [Rests, service]
      exact visited
    simp only [Group.visitEach]
    refine ⟨by rw [List.map_cons, service, services, List.map_cons], ?_, ?_⟩
    · refine List.forall_mem_cons.mpr ⟨visitedRests.frame restGrows (fun job inJobs => ?_), others⟩
      obtain ⟨known, inServices⟩ := mem_jobsOfAll.mp inJobs
      refine ⟨known, fun same => fresh ?_⟩
      rw [same, service] at inServices
      exact inServices
    · refine (grows.mono fun job inJobs => ?_).trans (restGrows.mono fun job inJobs => ?_)
      · obtain ⟨known, same⟩ := mem_jobsOf.mp inJobs
        exact mem_jobsOfAll.mpr ⟨known, by simp [same]⟩
      · obtain ⟨known, inServices⟩ := mem_jobsOfAll.mp inJobs
        exact mem_jobsOfAll.mpr ⟨known, List.mem_cons_of_mem _ inServices⟩

/-- In the state all changes are accounted for. -/
structure StateHolds (site : Site) (changes : List Swap) (state : State) : Prop where
  services : state.groups.map Group.service = Service.all
  groups : ∀ group ∈ state.groups, Rests site changes group state.ledger
  known : ∀ entry ∈ state.ledger.journal, entry.job ∈ Job.ofChanges changes
  sound : Sound site state.ledger.journal

namespace StateHolds

theorem init (site : Site) (changes : List Swap) (now : Nat) :
    StateHolds site changes (State.init now changes) := by
  refine ⟨rfl, ?_, by simp [State.init], .nil⟩
  intro group member
  obtain ⟨service, _, rfl⟩ := List.mem_map.mp member
  refine ⟨[], rfl, ?_⟩
  refine ⟨fun job inJobs => (mem_jobsOf.mp inJobs).2, ?_, ?_, rfl, by simp, by simp, ?_, rfl,
    Nat.zero_le _⟩
  · exact (Job.ofChanges_places changes).sublist (List.filter_sublist.map Job.place)
  · exact .refl _
  · exact fun job _ => rfl

theorem visitAll {state : State} (holds : StateHolds site changes state) (steps : Nat) :
    StateHolds site changes (state.visitAll site steps) := by
  have distinct : (state.groups.map Group.service).Nodup := by
    rw [holds.services]
    decide
  obtain ⟨services, rests, grows⟩ := visitEach_spec state.now steps distinct holds.groups
  refine ⟨services.trans holds.services, rests, ?_, grows.sound holds.sound⟩
  obtain ⟨entries, same, fromJobs⟩ := grows.journal
  simp only [State.visitAll, same]
  exact List.forall_mem_append.mpr
    ⟨holds.known, fun entry member => (mem_jobsOfAll.mp (fromJobs entry member)).1⟩

theorem next? {state later : State} {steps : Nat} {latest : Option Nat}
    (holds : StateHolds site changes state) (goesOn : state.next? site steps latest = some later) :
    StateHolds site changes later := by
  simp only [State.next?] at goesOn
  split at goesOn
  · cases goesOn
  · rename_i time _
    split at goesOn
    · cases goesOn
    · cases goesOn
      have still : StateHolds site changes { state with now := time } :=
        ⟨holds.services, holds.groups, holds.known, holds.sound⟩
      exact still.visitAll steps

theorem proceed {latest : Option Nat} (steps : Nat) {state : State}
    (holds : StateHolds site changes state) :
    StateHolds site changes (state.proceed site latest steps) := by
  induction steps generalizing state with
  | zero => exact holds
  | succ steps ih =>
    simp only [State.proceed]
    split
    · exact holds
    · rename_i later goesOn
      exact ih (holds.next? goesOn)

end StateHolds

/-- In every state of an execution all changes are accounted for. -/
theorem run_holds (site : Site) (latest : Option Nat) (steps now : Nat) (changes : List Swap) :
    StateHolds site changes (run site latest steps now changes) :=
  ((StateHolds.init site changes now).visitAll steps).proceed steps

/-! What the journal says about one change -/

theorem Traced.opens {task : Task} {events : List Event} (traced : Traced site task events)
    (happened : events ≠ []) : .began ∈ events := by
  cases traced with
  | fresh job => exact absurd rfl happened
  | underway operations applied equipped pending => simp

theorem Ended.opens {job : Job} {result : Outcome Unit} {events : List Event}
    (ended : Ended site job result events) (happened : events ≠ []) : .began ∈ events := by
  cases ended with
  | skipped => exact absurd rfl happened
  | finished applied => simp
  | failed operations applied failing => simp

/-- A change fails exactly with the failure of one of its operations. -/
theorem Ended.failed_iff {job : Job} {result : Outcome Unit} {events : List Event}
    (ended : Ended site job result events) {failure : Failure} :
    .failed failure ∈ events ↔ result = .error failure := by
  have absent {events : List Event} (quiet : Quiet events) : .failed failure ∉ events :=
    fun member => by simpa [Event.isEnd] using (quiet _ member).2
  cases ended with
  | skipped => simp
  | finished applied =>
    have unfailed := absent (quiet_flatten applied)
    simp [unfailed]
  | failed operations applied failing =>
    have unfailed := absent (quiet_flatten applied)
    have failingUnfailed := absent failing.quiet
    simp [unfailed, failingUnfailed, eq_comm]

theorem forM_cons (result : Outcome Unit) (rest : List (Outcome Unit)) :
    (result :: rest).forM id = (result >>= fun _ => rest.forM id) := rfl

theorem forM_eq_ok_iff {results : List (Outcome Unit)} :
    results.forM id = .ok () ↔ ∀ result ∈ results, result = .ok () := by
  induction results with
  | nil => simp [pure, Except.pure]
  | cons result rest ih =>
    rw [forM_cons, bind_eq_ok_iff, List.forall_mem_cons, ← ih]
    constructor
    · rintro ⟨⟨⟩, here, later⟩
      exact ⟨here, later⟩
    · rintro ⟨here, later⟩
      exact ⟨(), here, later⟩

theorem mem_of_forM_eq_error {results : List (Outcome Unit)} {failure : Failure}
    (failed : results.forM id = .error failure) : .error failure ∈ results := by
  induction results with
  | nil => cases failed
  | cons result rest ih =>
    rw [forM_cons, bind_eq_error_iff] at failed
    rcases failed with here | ⟨_, _, later⟩
    · exact List.mem_cons.mpr (.inl here.symm)
    · exact List.mem_cons_of_mem _ (ih later)

namespace StateHolds

variable {state : State}

theorem exists_group (holds : StateHolds site changes state) (service : Service) :
    ∃ group ∈ state.groups, group.service = service := by
  have all : service ∈ state.groups.map Group.service := by
    rw [holds.services]
    cases service <;> simp [Service.all]
  exact List.mem_map.mp all

/-- The events of a change are those of a task or of a change that is over. -/
theorem course (holds : StateHolds site changes state) {job : Job}
    (member : job ∈ Job.ofChanges changes) :
    (∃ task, task.job = job ∧ Traced site task (eventsOf state.ledger.journal job)) ∨
      ∃ result, Ended site job result (eventsOf state.ledger.journal job) := by
  obtain ⟨group, inGroups, service⟩ := holds.exists_group job.change.service
  obtain ⟨closed, results, inGroup⟩ := holds.groups group inGroups
  have inAll := inGroup.all.mem_iff.mpr (mem_jobsOf.mpr ⟨member, service.symm⟩)
  rcases List.mem_append.mp inAll with inAll | isWaiting
  · rcases List.mem_append.mp inAll with isOver | inFlight
    · obtain ⟨entry, inOver, rfl⟩ := List.mem_map.mp isOver
      exact .inr ⟨entry.2, (inGroup.closed entry inOver).1⟩
    · obtain ⟨task, inTasks, rfl⟩ := List.mem_map.mp inFlight
      exact .inl ⟨task, rfl, inGroup.traced task inTasks⟩
  · refine .inl ⟨.fresh job, rfl, ?_⟩
    rw [inGroup.waiting job isWaiting]
    exact .fresh job

/-- When all is over, every change is, and its result is one of those of the groups. -/
theorem ended_of_over (holds : StateHolds site changes state) (isOver : state.isOver = true) {job : Job}
    (member : job ∈ Job.ofChanges changes) :
    ∃ result ∈ state.groups.flatMap Group.results, IsOver site state.ledger (job, result) := by
  obtain ⟨group, inGroups, service⟩ := holds.exists_group job.change.service
  obtain ⟨closed, results, inGroup⟩ := holds.groups group inGroups
  have groupOver := List.all_eq_true.mp isOver group inGroups
  simp only [Group.isOver, Bool.and_eq_true, List.isEmpty_iff] at groupOver
  have inAll := inGroup.all.mem_iff.mpr (mem_jobsOf.mpr ⟨member, service.symm⟩)
  rw [groupOver.1, groupOver.2] at inAll
  simp only [List.append_nil, List.map_nil] at inAll
  obtain ⟨entry, inOver, rfl⟩ := List.mem_map.mp inAll
  refine ⟨entry.2, List.mem_flatMap.mpr ⟨group, inGroups, ?_⟩, inGroup.closed entry inOver⟩
  rw [results]
  exact List.mem_map_of_mem inOver

/-- Every result is that of a change. -/
theorem of_mem_results (holds : StateHolds site changes state) {result : Outcome Unit}
    (member : result ∈ state.groups.flatMap Group.results) :
    ∃ job ∈ Job.ofChanges changes, IsOver site state.ledger (job, result) := by
  obtain ⟨group, inGroups, inResults⟩ := List.mem_flatMap.mp member
  obtain ⟨closed, results, inGroup⟩ := holds.groups group inGroups
  rw [results] at inResults
  obtain ⟨entry, inOver, rfl⟩ := List.mem_map.mp inResults
  have inJobs := inGroup.all.mem_iff.mp (List.mem_append_left _ (List.mem_append_left _
    (List.mem_map_of_mem (f := Prod.fst) inOver)))
  exact ⟨entry.1, (mem_jobsOf.mp inJobs).1, inGroup.closed entry inOver⟩

theorem mem_events (holds : StateHolds site changes state) {job : Job}
    (member : job ∈ Job.ofChanges changes) {event : Event} :
    event ∈ eventsOf state.ledger.journal job ↔ ⟨job, event⟩ ∈ state.ledger.journal := by
  rw [mem_eventsOf]
  constructor
  · rintro ⟨⟨other, event⟩, inJournal, same, rfl⟩
    cases Job.eq_of_place (holds.known _ inJournal) member same
    exact inJournal
  · exact fun inJournal => ⟨_, inJournal, rfl, rfl⟩

theorem began_of_entry (holds : StateHolds site changes state) {entry : Entry}
    (member : entry ∈ state.ledger.journal) : ⟨entry.job, .began⟩ ∈ state.ledger.journal := by
  have known := holds.known entry member
  have inEvents : entry.event ∈ eventsOf state.ledger.journal entry.job :=
    (holds.mem_events known).mpr member
  have happened := List.ne_nil_of_mem inEvents
  rcases holds.course known with ⟨_, _, traced⟩ | ⟨_, ended⟩
  · exact (holds.mem_events known).mp (traced.opens happened)
  · exact (holds.mem_events known).mp (ended.opens happened)

/-- Whatever follows a failure is about changes that were taken up before it. -/
theorem began_before (holds : StateHolds site changes state) {earlier later : List Entry}
    {failed : Entry} (same : state.ledger.journal = earlier ++ failed :: later)
    (failure : failed.isFailure = true) {entry : Entry} (member : entry ∈ later) :
    ⟨entry.job, .began⟩ ∈ earlier := by
  have inJournal : entry ∈ state.ledger.journal := by
    rw [same]
    exact List.mem_append_right _ (List.mem_cons_of_mem _ member)
  have began := holds.began_of_entry inJournal
  rw [same] at began
  rcases List.mem_append.mp began with before | after
  · exact before
  · rcases List.mem_cons.mp after with here | after
    · rw [← here] at failure
      cases failure
    · exact absurd rfl (holds.sound.not_began_after same failure _ after)

/-- Without a failure all changes are applied in full. -/
theorem result_of_unfailed (holds : StateHolds site changes state) (isOver : state.isOver = true)
    (unfailed : ∀ entry ∈ state.ledger.journal, entry.isFailure = false) :
    state.result = .ok () ∧ ∀ job ∈ Job.ofChanges changes, ∃ segments,
      List.Forall₂ (Applied site) job.change.operations segments ∧
      eventsOf state.ledger.journal job = .began :: segments.flatten ++ [.finished] := by
  have complete : ∀ (job : Job) (result : Outcome Unit), job ∈ Job.ofChanges changes →
      IsOver site state.ledger (job, result) → result = .ok () ∧ ∃ segments,
        List.Forall₂ (Applied site) job.change.operations segments ∧
        eventsOf state.ledger.journal job = .began :: segments.flatten ++ [.finished] := by
    rintro job result member ⟨ended, skipped⟩
    dsimp only at ended skipped
    generalize same : eventsOf state.ledger.journal job = events at ended skipped
    cases ended with
    | skipped =>
      obtain ⟨entry, inJournal, failure⟩ := hasFailed_iff.mp (skipped rfl)
      rw [unfailed entry inJournal] at failure
      cases failure
    | @finished segments applied => exact ⟨rfl, segments, applied, rfl⟩
    | @failed done upcoming current segments own failure operations applied failing =>
      have inEvents : .failed failure ∈ eventsOf state.ledger.journal job := by simp [same]
      have impossible := unfailed _ ((holds.mem_events member).mp inEvents)
      cases impossible
  constructor
  · apply forM_eq_ok_iff.mpr
    intro result member
    obtain ⟨job, inJobs, ended⟩ := holds.of_mem_results member
    exact (complete job result inJobs ended).1
  · intro job member
    obtain ⟨result, _, ended⟩ := holds.ended_of_over isOver member
    exact (complete job result member ended).2

theorem result_of_failed (holds : StateHolds site changes state) (isOver : state.isOver = true)
    {entry : Entry} (member : entry ∈ state.ledger.journal) (failed : entry.isFailure = true) :
    ∃ job failure, ⟨job, .failed failure⟩ ∈ state.ledger.journal ∧
      state.result = .error failure := by
  have known := holds.known entry member
  obtain ⟨result, inResults, ended, _⟩ := holds.ended_of_over isOver known
  cases answered : state.result with
  | ok _ =>
    have succeeded := forM_eq_ok_iff.mp answered result inResults
    obtain ⟨job, event⟩ := entry
    cases event with
    | failed failure =>
      have impossible := ended.failed_iff.mp ((holds.mem_events known).mpr member)
      rw [succeeded] at impossible
      cases impossible
    | _ => cases failed
  | error failure =>
    obtain ⟨job, inJobs, jobEnded, _⟩ := holds.of_mem_results (mem_of_forM_eq_error answered)
    exact ⟨job, failure, (holds.mem_events inJobs).mp (jobEnded.failed_iff.mpr rfl), rfl⟩

end StateHolds

end Execution

end StackSwap
