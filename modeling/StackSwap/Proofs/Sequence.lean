import Mathlib.Data.List.Forall2
import StackSwap.Failure

namespace StackSwap

variable {α β : Type}

theorem exists_of_mem_right {R : α → β → Prop} {items : List α} {results : List β}
    (related : List.Forall₂ R items results) {result : β} (member : result ∈ results) :
    ∃ item ∈ items, R item result := by
  induction related with
  | nil => cases member
  | cons here _ ih =>
    rcases List.mem_cons.mp member with rfl | later
    · exact ⟨_, List.mem_cons_self .., here⟩
    · obtain ⟨item, inRest, there⟩ := ih later
      exact ⟨item, List.mem_cons_of_mem _ inRest, there⟩

theorem exists_of_mem_left {R : α → β → Prop} {items : List α} {results : List β}
    (related : List.Forall₂ R items results) {item : α} (member : item ∈ items) :
    ∃ result ∈ results, R item result :=
  exists_of_mem_right related.flip member

theorem forall₂_forall₂_iff {γ : Type} {R : α → β → Prop} {S : β → γ → Prop} {items : List α}
    {results : List γ} :
    (∃ between, List.Forall₂ R items between ∧ List.Forall₂ S between results) ↔
      List.Forall₂ (fun item result => ∃ value, R item value ∧ S value result) items results := by
  constructor
  · intro through
    obtain ⟨between, first, second⟩ := through
    induction first generalizing results with
    | nil =>
      cases second
      exact .nil
    | cons here _ ih =>
      cases second with
      | cons there later => exact .cons ⟨_, here, there⟩ (ih later)
  · intro related
    induction related with
    | nil => exact ⟨[], .nil, .nil⟩
    | cons here _ ih =>
      obtain ⟨value, first, second⟩ := here
      obtain ⟨between, firsts, seconds⟩ := ih
      exact ⟨value :: between, .cons first firsts, .cons second seconds⟩

theorem ok_bind {ε : Type} (value : α) (next : α → Except ε β) :
    (Except.ok value >>= next) = next value := rfl

theorem bind_eq_ok_iff {ε : Type} {first : Except ε α} {next : α → Except ε β} {result : β} :
    (first >>= next) = .ok result ↔ ∃ value, first = .ok value ∧ next value = .ok result := by
  cases first with
  | error failure => simp [bind, Except.bind]
  | ok value => simp [bind, Except.bind]

theorem bind_eq_error_iff {ε : Type} {first : Except ε α} {next : α → Except ε β} {failure : ε} :
    (first >>= next) = .error failure ↔
      first = .error failure ∨ ∃ value, first = .ok value ∧ next value = .error failure := by
  cases first with
  | error other => simp [bind, Except.bind]
  | ok value => simp [bind, Except.bind]

theorem bind_congr_ok {ε : Type} {first : Except ε α} {next other : α → Except ε β}
    (same : ∀ value, first = .ok value → next value = other value) :
    (first >>= next) = (first >>= other) := by
  cases first with
  | error failure => rfl
  | ok value => exact same value rfl

theorem mapM_congr {m : Type → Type} [Monad m] [LawfulMonad m] {items : List α}
    {step other : α → m β} (same : ∀ item ∈ items, step item = other item) :
    items.mapM step = items.mapM other := by
  induction items with
  | nil => rfl
  | cons item rest ih =>
    have later := ih (fun item member => same item (List.mem_cons_of_mem _ member))
    rw [List.mapM_cons, List.mapM_cons, same item (List.mem_cons_self ..), later]

theorem map_mapM {ε γ : Type} (edit : β → γ) (step : α → Except ε β) (items : List α) :
    List.map edit <$> items.mapM step = items.mapM (fun item => edit <$> step item) := by
  induction items with
  | nil => rfl
  | cons item rest ih =>
    rw [List.mapM_cons, List.mapM_cons, ← ih]
    cases step item with
    | error failure => rfl
    | ok result => cases rest.mapM step <;> rfl

theorem foldlM_congr {m : Type → Type} [Monad m] {items : List α} {step other : β → α → m β}
    (same : ∀ item ∈ items, ∀ state, step state item = other state item) (state : β) :
    items.foldlM step state = items.foldlM other state := by
  induction items generalizing state with
  | nil => rfl
  | cons item rest ih =>
    have later := ih (fun item member => same item (List.mem_cons_of_mem _ member))
    rw [List.foldlM_cons, List.foldlM_cons, same item (List.mem_cons_self ..)]
    simp only [later]

theorem foldlM_map {γ : Type} (step : α → Option β) (goOn : γ → β → γ) (items : List α)
    (state : γ) :
    items.foldlM (fun state item => (step item).map (goOn state)) state =
      (items.mapM step).map (fun results => results.foldl goOn state) := by
  induction items generalizing state with
  | nil => rfl
  | cons item rest ih =>
    rw [List.foldlM_cons, List.mapM_cons]
    cases step item with
    | none => rfl
    | some result =>
      have later := ih (goOn state result)
      cases results : rest.mapM step with
      | none => simpa [results] using later
      | some results => simpa [results] using later

theorem foldlM_keeps {ε σ : Type} {step : σ → α → Except ε σ} (field : σ → β) {items : List α}
    (keeps : ∀ item ∈ items, ∀ state later, step state item = .ok later → field later = field state)
    {state last : σ} (ran : items.foldlM step state = .ok last) : field last = field state := by
  induction items generalizing state with
  | nil =>
    cases ran
    rfl
  | cons item rest ih =>
    rw [List.foldlM_cons, bind_eq_ok_iff] at ran
    obtain ⟨later, first, ran⟩ := ran
    calc
      field last = field later :=
        ih (fun other member => keeps other (List.mem_cons_of_mem _ member)) ran
      _ = field state := keeps item (List.mem_cons_self ..) state later first

/-- A field that some of the steps set, while all others keep it, is as it was before all of them if
none sets it, and otherwise it has what one of them sets it to. -/
theorem foldlM_field {ε σ : Type} {step : σ → α → Except ε σ} (field : σ → Option β)
    (Sets : α → Prop) (Gives : α → β → Prop) {items : List α}
    (takes : ∀ item ∈ items, ∀ state later, step state item = .ok later →
      (Sets item ∧ ∃ value, Gives item value ∧ field later = some value) ∨
        (¬ Sets item ∧ field later = field state))
    {state last : σ} (ran : items.foldlM step state = .ok last) :
    ((∀ item ∈ items, ¬ Sets item) ∧ field last = field state) ∨
      ∃ item ∈ items, Sets item ∧ ∃ value, Gives item value ∧ field last = some value := by
  induction items generalizing state with
  | nil =>
    cases ran
    exact .inl ⟨fun item member => absurd member List.not_mem_nil, rfl⟩
  | cons item rest ih =>
    rw [List.foldlM_cons, bind_eq_ok_iff] at ran
    obtain ⟨later, first, ran⟩ := ran
    rcases ih (fun other member => takes other (List.mem_cons_of_mem _ member)) ran with
      ⟨noneLater, kept⟩ | ⟨other, member, isSet, given⟩
    · rcases takes item (List.mem_cons_self ..) state later first with
        ⟨here, value, gives, set⟩ | ⟨notHere, same⟩
      · exact .inr ⟨item, List.mem_cons_self .., here, value, gives, kept.trans set⟩
      · exact .inl ⟨List.forall_mem_cons.mpr ⟨notHere, noneLater⟩, kept.trans same⟩
    · exact .inr ⟨other, List.mem_cons_of_mem _ member, isSet, given⟩

theorem mapM_eq_some_iff {step : α → Option β} {items : List α} {results : List β} :
    items.mapM step = some results ↔
      List.Forall₂ (fun item result => step item = some result) items results := by
  induction items generalizing results with
  | nil => cases results <;> simp
  | cons item rest ih =>
    rw [List.mapM_cons]
    cases results with
    | nil => simp [Option.bind_eq_some_iff]
    | cons result others => simp [Option.bind_eq_some_iff, ← ih]

theorem mapM_eq_ok_iff {ε : Type} {step : α → Except ε β} {items : List α} {results : List β} :
    items.mapM step = .ok results ↔
      List.Forall₂ (fun item result => step item = .ok result) items results := by
  induction items generalizing results with
  | nil => cases results <;> simp [pure, Except.pure]
  | cons item rest ih =>
    rw [List.mapM_cons, bind_eq_ok_iff]
    cases results with
    | nil => simp [bind_eq_ok_iff, pure, Except.pure]
    | cons result others => simp [bind_eq_ok_iff, pure, Except.pure, ← ih]

/-- A sequence has the failure of the first step that fails. -/
theorem mapM_eq_error_iff {ε : Type} {step : α → Except ε β} {items : List α} {failure : ε} :
    items.mapM step = .error failure ↔ ∃ before item after, items = before ++ item :: after ∧
      (∀ other ∈ before, ∃ result, step other = .ok result) ∧ step item = .error failure := by
  induction items with
  | nil => simp [pure, Except.pure]
  | cons first rest ih =>
    rw [List.mapM_cons, bind_eq_error_iff]
    constructor
    · intro failed
      rcases failed with here | ⟨result, passed, later⟩
      · exact ⟨[], first, rest, rfl, List.forall_mem_nil _, here⟩
      · have restFailed : rest.mapM step = .error failure := by
          rcases bind_eq_error_iff.mp later with failed | ⟨_, _, impossible⟩
          · exact failed
          · cases impossible
        obtain ⟨before, item, after, same, earlier, failed⟩ := ih.mp restFailed
        exact ⟨first :: before, item, after, congrArg (first :: ·) same,
          List.forall_mem_cons.mpr ⟨⟨result, passed⟩, earlier⟩, failed⟩
    · intro failed
      obtain ⟨before, item, after, same, earlier, failed⟩ := failed
      cases before with
      | nil =>
        obtain ⟨rfl, rfl⟩ := List.cons.inj same
        exact .inl failed
      | cons head before =>
        obtain ⟨rfl, rfl⟩ := List.cons.inj same
        obtain ⟨⟨result, passed⟩, earlier⟩ := List.forall_mem_cons.mp earlier
        have restFailed := ih.mpr ⟨before, item, after, rfl, earlier, failed⟩
        exact .inr ⟨result, passed, bind_eq_error_iff.mpr (.inl restFailed)⟩

theorem eq_of_results {ε : Type} {first second : α → Except ε β} {items : List α}
    {firsts seconds : List β} (same : ∀ item ∈ items, second item = first item)
    (made : List.Forall₂ (fun item result => first item = .ok result) items firsts)
    (made' : List.Forall₂ (fun item result => second item = .ok result) items seconds) :
    firsts = seconds := by
  have here := mapM_eq_ok_iff.mpr made
  have there := mapM_eq_ok_iff.mpr made'
  rw [mapM_congr same, here] at there
  exact Except.ok.inj there

/-- Steps that differ for one item only have the same results but for that one. -/
theorem results_eq_or_split {ε : Type} {first second : α → Except ε β} {items : List α} {one : α}
    {firsts seconds : List β} (distinct : items.Nodup)
    (same : ∀ item ∈ items, item ≠ one → second item = first item)
    (made : List.Forall₂ (fun item result => first item = .ok result) items firsts)
    (made' : List.Forall₂ (fun item result => second item = .ok result) items seconds) :
    firsts = seconds ∨ ∃ before result result' after, first one = .ok result ∧
      second one = .ok result' ∧ firsts = before ++ result :: after ∧
        seconds = before ++ result' :: after := by
  induction made generalizing seconds with
  | nil =>
    cases made'
    exact .inl rfl
  | @cons item result items firsts here later ih =>
    cases made' with
    | @cons _ result' _ seconds here' later' =>
      obtain ⟨fresh, restDistinct⟩ := List.nodup_cons.mp distinct
      have restSame : ∀ next ∈ items, next ≠ one → second next = first next :=
        fun next member => same next (List.mem_cons_of_mem _ member)
      by_cases isOne : item = one
      · subst isOne
        have unmoved : firsts = seconds := by
          apply eq_of_results _ later later'
          intro next member
          exact restSame next member (fun equal => fresh (equal ▸ member))
        exact .inr ⟨[], result, result', firsts, here, here', rfl, by rw [unmoved, List.nil_append]⟩
      · have sameHead : result = result' := by
          rw [same item (List.mem_cons_self ..) isOne, here] at here'
          exact Except.ok.inj here'
        subst sameHead
        rcases ih restDistinct restSame later' with
          rfl | ⟨before, one, other, after, atOne, atOther, rfl, rfl⟩
        · exact .inl rfl
        · exact .inr ⟨result :: before, one, other, after, atOne, atOther, rfl, rfl⟩

theorem exists_of_mapM_eq_error {ε : Type} {step : α → Except ε β} {items : List α} {failure : ε}
    (failed : items.mapM step = .error failure) : ∃ item ∈ items, step item = .error failure := by
  obtain ⟨before, item, after, rfl, _, failed⟩ := mapM_eq_error_iff.mp failed
  exact ⟨item, List.mem_append_right before (List.mem_cons_self ..), failed⟩

end StackSwap
