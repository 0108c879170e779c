import Mathlib.Data.List.Infix
import StackSwap.Execution.Run

/-! An entry is allowed behind others if a call is answered as the services answer it there, and a
change is taken up only while nothing has failed and its service has room. -/

namespace StackSwap

/-- The failure that the outcome is. -/
def Outcome.failure? {α : Type} : Outcome α → Option Failure
  | .error failure => some failure
  | .ok _ => none

namespace Execution

namespace Event

/-- Whether the change ends with the event. -/
def isEnd : Event → Bool
  | .finished | .failed _ => true
  | _ => false

/-- Whether the change begins with the event. -/
def isBegin : Event → Bool
  | .began => true
  | _ => false

/-- The failure that the change ends with. -/
def failure? : Event → Option Failure
  | .failed failure => some failure
  | _ => none

end Event

/-- What happened to one job. -/
def eventsOf (journal : List Entry) (job : Job) : List Event :=
  (journal.filter (fun entry => entry.job.place = job.place)).map Entry.event

/-- How many changes of a service were taken up. -/
def begun (journal : List Entry) (service : Service) : Nat :=
  journal.countP (fun entry => entry.job.change.service = service && entry.event.isBegin)

/-- How many changes of a service have ended after they were taken up. -/
def ended (journal : List Entry) (service : Service) : Nat :=
  journal.countP (fun entry => entry.job.change.service = service && entry.event.isEnd)

/-- The failures that changes of a service have ended with, oldest first. -/
def failuresOf (journal : List Entry) (service : Service) : List Failure :=
  (journal.filter (fun entry => entry.job.change.service = service)).filterMap
    (fun entry => entry.event.failure?)

/-- The calls of a journal. -/
def callsOf (journal : List Entry) : List ServiceCall :=
  journal.filterMap (fun entry =>
    match entry.event with
    | .called started _ => some started.call
    | _ => none)

theorem history_eq (ledger : Ledger) : ledger.history = callsOf ledger.journal := by
  rw [Ledger.history, Ledger.calls, List.map_filterMap, callsOf]
  refine List.filterMap_congr fun entry _ => ?_
  cases event : entry.event <;> simp [Entry.call?, event]

namespace Site

/-- How many changes of one service may be in flight. -/
def limit (site : Site) : Nat := max 1 site.settings.perService

end Site

/-- The entry may stand behind the others. -/
structure Allowed (site : Site) (earlier : List Entry) (entry : Entry) : Prop where
  answered : ∀ started answer, entry.event = .called started answer →
    answer = site.backend.answer (callsOf earlier) started.call
  unfailed : entry.event = .began → ∀ other ∈ earlier, other.isFailure = false
  room : entry.event = .began →
    begun earlier entry.job.change.service < ended earlier entry.job.change.service + site.limit

/-- Each entry of the journal may stand behind those before it. -/
inductive Sound (site : Site) : List Entry → Prop where
  | nil : Sound site []
  | snoc {journal : List Entry} {entry : Entry} (sound : Sound site journal)
    (allowed : Allowed site journal entry) : Sound site (journal ++ [entry])

theorem eventsOf_append (first second : List Entry) (job : Job) :
    eventsOf (first ++ second) job = eventsOf first job ++ eventsOf second job := by
  simp [eventsOf]

theorem begun_append (first second : List Entry) (service : Service) :
    begun (first ++ second) service = begun first service + begun second service :=
  List.countP_append

theorem ended_append (first second : List Entry) (service : Service) :
    ended (first ++ second) service = ended first service + ended second service :=
  List.countP_append

theorem failuresOf_append (first second : List Entry) (service : Service) :
    failuresOf (first ++ second) service = failuresOf first service ++ failuresOf second service := by
  simp [failuresOf]

theorem eventsOf_own (job : Job) (events : List Event) :
    eventsOf (events.map (Entry.mk job)) job = events := by
  have all : (events.map (Entry.mk job)).filter (fun entry => entry.job.place = job.place) =
      events.map (Entry.mk job) := List.filter_eq_self.mpr (by simp)
  rw [eventsOf, all, List.map_map]
  exact List.map_id events

theorem begun_own (job : Job) (events : List Event) :
    begun (events.map (Entry.mk job)) job.change.service = events.countP Event.isBegin := by
  simp [begun, List.countP_map, Function.comp_def]

theorem ended_own (job : Job) (events : List Event) :
    ended (events.map (Entry.mk job)) job.change.service = events.countP Event.isEnd := by
  simp [ended, List.countP_map, Function.comp_def]

theorem failuresOf_own (job : Job) (events : List Event) :
    failuresOf (events.map (Entry.mk job)) job.change.service = events.filterMap Event.failure? := by
  simp [failuresOf, List.filter_map, List.filterMap_map, Function.comp_def]

theorem eventsOf_of_other {entries : List Entry} {job : Job}
    (other : ∀ entry ∈ entries, entry.job.place ≠ job.place) : eventsOf entries job = [] := by
  simp only [eventsOf, List.map_eq_nil_iff, List.filter_eq_nil_iff, decide_eq_true_eq]
  exact other

theorem begun_of_other {entries : List Entry} {service : Service}
    (other : ∀ entry ∈ entries, entry.job.change.service ≠ service) : begun entries service = 0 := by
  simp only [begun, List.countP_eq_zero, Bool.and_eq_true, decide_eq_true_eq, not_and]
  intro entry member same
  exact absurd same (other entry member)

theorem ended_of_other {entries : List Entry} {service : Service}
    (other : ∀ entry ∈ entries, entry.job.change.service ≠ service) : ended entries service = 0 := by
  simp only [ended, List.countP_eq_zero, Bool.and_eq_true, decide_eq_true_eq, not_and]
  intro entry member same
  exact absurd same (other entry member)

theorem failuresOf_of_other {entries : List Entry} {service : Service}
    (other : ∀ entry ∈ entries, entry.job.change.service ≠ service) :
    failuresOf entries service = [] := by
  have noEntries : entries.filter (fun entry => entry.job.change.service = service) = [] :=
    List.filter_eq_nil_iff.mpr (fun entry member => by simpa using other entry member)
  rw [failuresOf, noEntries, List.filterMap_nil]

theorem mem_eventsOf {journal : List Entry} {job : Job} {event : Event} :
    event ∈ eventsOf journal job ↔ ∃ entry ∈ journal, entry.job.place = job.place ∧ entry.event = event := by
  simp [eventsOf, and_assoc]

namespace Sound

theorem split {site : Site} {journal : List Entry} (sound : Sound site journal) :
    ∀ {earlier later : List Entry} {entry : Entry}, journal = earlier ++ entry :: later →
      Allowed site earlier entry := by
  induction sound with
  | nil => simp
  | @snoc journal last sound allowed ih =>
    intro earlier later entry same
    rcases List.eq_nil_or_concat later with rfl | ⟨front, final, rfl⟩
    · obtain ⟨rfl, rfl⟩ := List.append_singleton_inj.mp same
      exact allowed
    · rw [List.concat_eq_append, ← List.cons_append, ← List.append_assoc] at same
      exact ih (List.append_singleton_inj.mp same).1

/-- At every moment of a sound journal no service has more changes in flight than it may. -/
theorem bounded {site : Site} {journal : List Entry} (sound : Sound site journal)
    {earlier : List Entry} (before : earlier <+: journal) (service : Service) :
    begun earlier service ≤ ended earlier service + site.limit := by
  obtain ⟨later, rfl⟩ := before
  induction earlier using List.reverseRecOn generalizing later with
  | nil => simp [begun]
  | append_singleton front entry ih =>
    have allowed : Allowed site front entry := sound.split (List.append_assoc front [entry] later)
    have bound := ih (entry :: later) (by simpa using sound)
    rw [begun_append, ended_append]
    by_cases here : entry.job.change.service = service ∧ entry.event.isBegin
    · obtain ⟨rfl, begins⟩ := here
      have isBegan : entry.event = .began := by
        cases event : entry.event <;> simp_all [Event.isBegin]
      have room := allowed.room isBegan
      have one : begun [entry] entry.job.change.service ≤ 1 := List.countP_le_length
      omega
    · have unbegun : begun [entry] service = 0 := by
        simpa [begun, List.countP_cons] using here
      omega

/-- What follows a failure belongs to changes that were taken up before it. -/
theorem not_began_after {site : Site} {journal earlier later : List Entry} {failed : Entry}
    (sound : Sound site journal) (same : journal = earlier ++ failed :: later)
    (failure : failed.isFailure = true) : ∀ entry ∈ later, entry.event ≠ .began := by
  intro entry member began
  obtain ⟨front, back, rfl⟩ := List.append_of_mem member
  have whole : journal = (earlier ++ failed :: front) ++ entry :: back := by simpa using same
  have allowed := sound.split whole
  rw [allowed.unfailed began failed (by simp)] at failure
  cases failure

end Sound

/-- The ledger grows by events of one job. -/
structure Extends (site : Site) (job : Job) (before : Ledger) (events : List Event)
    (after : Ledger) : Prop where
  journal : after.journal = before.journal ++ events.map (Entry.mk job)
  sound : Sound site before.journal → Sound site after.journal

namespace Extends

theorem refl (site : Site) (job : Job) (ledger : Ledger) : Extends site job ledger [] ledger :=
  ⟨by simp, id⟩

theorem trans {site : Site} {job : Job} {first second third : Ledger} {early late : List Event}
    (left : Extends site job first early second) (right : Extends site job second late third) :
    Extends site job first (early ++ late) third :=
  ⟨by simp [right.journal, left.journal], right.sound ∘ left.sound⟩

theorem note {site : Site} {job : Job} {event : Event} (ledger : Ledger)
    (noCall : ∀ started answer, event ≠ .called started answer) (noBegin : event ≠ .began) :
    Extends site job ledger [event] (ledger.note job event) := by
  refine ⟨rfl, fun sound => sound.snoc ⟨?_, ?_, ?_⟩⟩
  · intro started answer same
    exact absurd same (noCall started answer)
  · intro same
    exact absurd same noBegin
  · intro same
    exact absurd same noBegin

theorem send (site : Site) (job : Job) (ledger : Ledger) (now : Nat) (call : ServiceCall) :
    Extends site job ledger [.called ⟨now, call⟩ (ledger.answer site call)]
      (ledger.send site now job call).2 := by
  refine ⟨rfl, fun sound => sound.snoc ⟨?_, ?_, ?_⟩⟩
  · rintro started answer ⟨⟩
    rw [Ledger.answer, history_eq]
  · rintro ⟨⟩
  · rintro ⟨⟩

end Extends

end Execution

end StackSwap
