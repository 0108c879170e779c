import StackSwap.Proofs.Evaluation

/-! What an evaluation asks its resolver: it asks a question if it fails with whatever error the
question is answered. One that runs out of its budget has asked something whose answer did. -/

namespace StackSwap

/-- Something that an evaluation asks its resolver. -/
inductive Question where
  | reference (name : String)
  | attributeOf (logicalId name : String)
  | exportedValue (name : String)
deriving DecidableEq

namespace Resolver

def answer (resolver : Resolver) : Question → Evaluated Json
  | .reference name => resolver.reference name
  | .attributeOf logicalId name => resolver.attributeOf logicalId name
  | .exportedValue name => resolver.exportedValue name

/-- The resolver with an error in the place of one answer. -/
def failing (resolver : Resolver) (question : Question) (error : EvaluationError) : Resolver where
  reference name :=
    if question = .reference name then .error error else resolver.reference name
  attributeOf logicalId name :=
    if question = .attributeOf logicalId name then .error error
    else resolver.attributeOf logicalId name
  exportedValue name :=
    if question = .exportedValue name then .error error else resolver.exportedValue name

theorem answer_failing (resolver : Resolver) (question other : Question) (error : EvaluationError) :
    (resolver.failing question error).answer other =
      if question = other then .error error else resolver.answer other := by
  cases other <;> rfl

theorem eq_of_answer {first second : Resolver} (same : first.answer = second.answer) :
    first = second := by
  have references : first.reference = second.reference :=
    funext (fun name => congrFun same (.reference name))
  have attributes : first.attributeOf = second.attributeOf :=
    funext (fun logicalId => funext (fun name => congrFun same (.attributeOf logicalId name)))
  have exports : first.exportedValue = second.exportedValue :=
    funext (fun name => congrFun same (.exportedValue name))
  obtain ⟨_, _, _⟩ := first
  obtain ⟨_, _, _⟩ := second
  cases references
  cases attributes
  cases exports
  rfl

theorem failing_eq_self {resolver : Resolver} {question : Question} {error : EvaluationError}
    (failed : resolver.answer question = .error error) : resolver.failing question error = resolver := by
  apply eq_of_answer
  funext other
  rw [answer_failing]
  split
  · rename_i same
    rw [← same, failed]
  · rfl

end Resolver

/-! Budgets -/

/-- The first has run out of its budget, or is what the second is. -/
def Approximates {α : Type} (first second : Evaluated α) : Prop :=
  first = .error .endless ∨ first = second

namespace Approximates

variable {α β : Type}

theorem refl (result : Evaluated α) : Approximates result result := .inr rfl

theorem eq_of_ends {first second : Evaluated α} (approximates : Approximates first second)
    (ends : first ≠ .error .endless) : first = second :=
  approximates.resolve_left ends

theorem bind {first second : Evaluated α} {next later : α → Evaluated β}
    (here : Approximates first second) (after : ∀ value, Approximates (next value) (later value)) :
    Approximates (first >>= next) (second >>= later) := by
  rcases here with endless | rfl
  · exact .inl (by rw [endless]; rfl)
  · cases first with
    | error error => exact .refl _
    | ok value => exact after value

end Approximates

/-- Every answer of the first resolver has run out of its budget, or is that of the second. -/
def Resolver.Approximates (first second : Resolver) : Prop :=
  ∀ question, StackSwap.Approximates (first.answer question) (second.answer question)

theorem Resolver.Approximates.failing {first second : Resolver}
    (approximates : first.Approximates second) (question : Question) (error : EvaluationError) :
    (first.failing question error).Approximates (second.failing question error) := by
  intro other
  rw [answer_failing, answer_failing]
  split
  · exact .refl _
  · exact approximates other

/-! Questions -/

/-- The step fails with whatever error the question is answered. -/
def Asks {α : Type} (step : Resolver → Evaluated α) (resolver : Resolver) (question : Question) :
    Prop :=
  ∀ error, step (resolver.failing question error) = .error error

theorem Asks.bind {α β : Type} {first : Resolver → Evaluated α} {next : α → Resolver → Evaluated β}
    {resolver : Resolver} {question : Question} (asks : Asks first resolver question) :
    Asks (fun resolver => first resolver >>= fun value => next value resolver) resolver question := by
  intro error
  simp only [asks error]
  rfl

/-- The step is made of questions, and otherwise needs no resolver. -/
structure Consults {α : Type} (step : Resolver → Evaluated α) : Prop where
  /-- More answers change no result, unless the step had run out of the budget. -/
  approximates : ∀ {first second : Resolver}, first.Approximates second →
    Approximates (step first) (step second)
  /-- A question is asked, or its answer makes no difference. -/
  decided : ∀ resolver question,
    Asks step resolver question ∨ ∀ error, step (resolver.failing question error) = step resolver
  /-- A step that runs out of the budget has asked a question whose answer did. -/
  endless : ∀ {resolver}, step resolver = .error .endless →
    ∃ question, Asks step resolver question ∧ resolver.answer question = .error .endless

namespace Consults

variable {α β : Type} {resolver : Resolver}

theorem constant {result : Evaluated α} (ends : result ≠ .error .endless) :
    Consults (fun _ => result) :=
  ⟨fun _ => .refl _, fun _ _ => .inr (fun _ => rfl), fun endless => absurd endless ends⟩

theorem ok (value : α) : Consults (fun _ => (.ok value : Evaluated α)) := constant nofun

theorem question (question : Question) : Consults (fun resolver => resolver.answer question) := by
  constructor
  · exact fun approximates => approximates question
  · intro resolver other
    by_cases same : other = question
    · exact .inl (fun error => (resolver.answer_failing other question error).trans (if_pos same))
    · exact .inr (fun error => (resolver.answer_failing other question error).trans (if_neg same))
  · intro resolver endless
    have asks : Asks (fun resolver => resolver.answer question) resolver question :=
      fun error => (resolver.answer_failing question question error).trans (if_pos rfl)
    exact ⟨question, asks, endless⟩

theorem asks_bind {first : Resolver → Evaluated α} {next : α → Resolver → Evaluated β}
    (here : Consults first) {resolver : Resolver} {question : Question} {value : α}
    (succeeds : first resolver = .ok value) (asks : Asks (next value) resolver question) :
    Asks (fun resolver => first resolver >>= fun value => next value resolver) resolver question := by
  rcases here.decided resolver question with asked | unasked
  · exact asked.bind
  · intro error
    simp only [unasked error, succeeds, ok_bind]
    exact asks error

theorem bind {first : Resolver → Evaluated α} {next : α → Resolver → Evaluated β}
    (here : Consults first) (after : ∀ value, Consults (next value)) :
    Consults (fun resolver => first resolver >>= fun value => next value resolver) := by
  constructor
  · intro smaller larger approximates
    exact (here.approximates approximates).bind (fun value => (after value).approximates approximates)
  · intro resolver question
    rcases here.decided resolver question with asked | unasked
    · exact .inl asked.bind
    · cases result : first resolver with
      | error failure =>
        right
        intro error
        simp only [unasked error, result]
        rfl
      | ok value =>
        rcases (after value).decided resolver question with asked | indifferent
        · exact .inl (here.asks_bind result asked)
        · right
          intro error
          simp only [unasked error, result, ok_bind, indifferent error]
  · intro resolver endless
    rcases bind_eq_error_iff.mp endless with first | ⟨value, succeeds, second⟩
    · obtain ⟨question, asks, unanswered⟩ := here.endless first
      exact ⟨question, asks.bind, unanswered⟩
    · obtain ⟨question, asks, unanswered⟩ := (after value).endless second
      exact ⟨question, here.asks_bind succeeds asks, unanswered⟩

theorem mapM {γ : Type} {items : List γ} {step : γ → Resolver → Evaluated β}
    (each : ∀ item ∈ items, Consults (step item)) :
    Consults (fun resolver => items.mapM (fun item => step item resolver)) := by
  induction items with
  | nil => exact ok []
  | cons item rest ih =>
    have first := each item (List.mem_cons_self ..)
    have others := ih (fun item member => each item (List.mem_cons_of_mem _ member))
    simp only [List.mapM_cons]
    exact first.bind (fun value => others.bind (fun values => ok (value :: values)))

end Consults

namespace Intrinsic

theorem consults_orRefuse {α : Type} (fault : ArgumentFault) (value : Option α) :
    Consults (fun _ => orRefuse fault value) := by
  cases value with
  | none => exact .constant nofun
  | some value => exact .ok value

theorem consults_attributeArguments (argument : Json) :
    Consults (fun _ => attributeArguments argument) := by
  unfold attributeArguments
  split
  · exact consults_orRefuse _ _
  · exact consults_orRefuse _ _
  · exact .constant nofun

theorem consults_join (argument : Json) : Consults (fun _ => join argument) := by
  unfold join
  split
  · exact (consults_orRefuse _ _).bind (fun _ => (consults_orRefuse _ _).bind (fun _ => .ok _))
  · exact .constant nofun

theorem consults_split (argument : Json) : Consults (fun _ => split argument) := by
  unfold split
  split
  · exact .ok _
  · exact .constant nofun

theorem consults_select (argument : Json) : Consults (fun _ => select argument) := by
  unfold select
  split
  · exact (consults_orRefuse _ _).bind (fun _ => consults_orRefuse _ _)
  · exact .constant nofun

theorem consults_substitutionArguments (argument : Json) :
    Consults (fun _ => substitutionArguments argument) := by
  unfold substitutionArguments
  split
  · exact .ok _
  · exact .ok _
  · exact .ok _
  · exact .constant nofun

theorem consults_placeholderValue (values : Entries Json) (token : String) :
    Consults (fun resolver => placeholderValue resolver values token) := by
  unfold placeholderValue
  cases values.find? token with
  | some value => exact .ok value
  | none =>
    cases Text.splitOnce '.' token.toList with
    | some pair => exact .question (.attributeOf (String.ofList pair.1) (String.ofList pair.2))
    | none => exact .question (.reference token)

theorem consults_segmentText (values : Entries Json) (segment : Segment) :
    Consults (fun resolver => segmentText resolver values segment) := by
  cases segment with
  | literal text => exact .ok text
  | escaped text => exact .ok _
  | placeholder token =>
    exact (consults_placeholderValue values token).bind (fun _ => consults_orRefuse _ _)

theorem consults_substitute (argument : Json) :
    Consults (fun resolver => substitute resolver argument) := by
  simp only [substitute_eq]
  refine (consults_substitutionArguments argument).bind (fun (body, values) => ?_)
  exact (Consults.mapM (fun segment _ => consults_segmentText values segment)).bind (fun _ => .ok _)

/-- A function asks for what it names and for the placeholders in it. -/
theorem consults_apply (name : String) (argument : Json) :
    Consults (fun resolver => apply resolver name argument) := by
  unfold apply
  split
  · exact (consults_orRefuse _ _).bind (fun name => .question (.reference name))
  · exact (consults_attributeArguments argument).bind
      (fun (logicalId, name) => .question (.attributeOf logicalId name))
  · exact consults_join argument
  · exact consults_split argument
  · exact consults_select argument
  · exact consults_substitute argument
  · exact (consults_orRefuse _ _).bind (fun name => .question (.exportedValue name))
  · exact .constant nofun

theorem consults_settle (fields : Entries Json) :
    Consults (fun resolver => settle resolver fields) := by
  rcases Json.isIntrinsic_cases fields with noFunction | ⟨name, argument, rfl, isFunction⟩
  · simp only [settle_of_not_intrinsic noFunction]
    exact .ok _
  · simp only [settle_function isFunction]
    exact consults_apply name argument

end Intrinsic

/-- Evaluation is made of questions. -/
theorem Json.consults_evaluate (expression : Json) :
    Consults (fun resolver => expression.evaluate resolver) := by
  induction expression using Json.induction with
  | null | bool | num | str => exact .ok _
  | arr items ih =>
    simp only [evaluate_arr]
    exact (Consults.mapM ih).bind (fun _ => .ok _)
  | obj fields ih =>
    simp only [evaluate_obj]
    refine (Consults.mapM fun field member => ?_).bind Intrinsic.consults_settle
    exact (ih field member).bind (fun _ => .ok _)

/-! Questions under different budgets -/

namespace Consults

variable {α : Type} {step : Resolver → Evaluated α} {question : Question}

/-- Two errors that both come through show that the question is asked. -/
theorem asks_of_two (consults : Consults step) {resolver : Resolver}
    {first second : EvaluationError} (differ : first ≠ second)
    (one : step (resolver.failing question first) = .error first)
    (other : step (resolver.failing question second) = .error second) :
    Asks step resolver question := by
  rcases consults.decided resolver question with asks | same
  · exact asks
  · have both := (same first).symm.trans one |>.symm.trans ((same second).symm.trans other)
    exact absurd (Except.error.inj both) differ

theorem asks_of_smaller (consults : Consults step) {smaller larger : Resolver}
    (approximates : smaller.Approximates larger) (asks : Asks step smaller question) :
    Asks step larger question := by
  have through (name : String) : step (larger.failing question (.refNotFound name)) =
      .error (.refNotFound name) := by
    have approximated := consults.approximates (approximates.failing question (.refNotFound name))
    rw [asks] at approximated
    exact (approximated.eq_of_ends nofun).symm
  exact consults.asks_of_two (fun same => absurd (EvaluationError.refNotFound.inj same) (by decide))
    (through "") (through "other")

/-- With a smaller budget a step asks the same question, or has run out of the budget before. -/
theorem asks_of_larger (consults : Consults step) {smaller larger : Resolver}
    (approximates : smaller.Approximates larger) (asks : Asks step larger question) :
    Asks step smaller question ∨ step smaller = .error .endless := by
  rcases consults.decided smaller question with asked | same
  · exact .inl asked
  · right
    by_contra ends
    have unmoved (name : String) : step smaller = .error (.refNotFound name) := by
      have approximated := consults.approximates (approximates.failing question (.refNotFound name))
      rw [asks, same] at approximated
      exact approximated.eq_of_ends ends
    have both := (unmoved "").symm.trans (unmoved "other")
    exact absurd (EvaluationError.refNotFound.inj (Except.error.inj both)) (by decide)

end Consults

end StackSwap
