import StackSwap.Proofs.Consultation

namespace StackSwap

/-- What a placeholder names: an attribute if there is a dot in it, and else a reference. -/
def Question.ofToken (token : String) : Question :=
  match Text.splitOnce '.' token.toList with
  | some (logicalId, name) => .attributeOf (String.ofList logicalId) (String.ofList name)
  | none => .reference token

namespace Intrinsic

/-- A function looks a name up for an argument that is evaluated. -/
inductive LooksUp : String → Json → Question → Prop where
  /-- the target of a reference -/
  | reference (name : String) : LooksUp "Ref" (.str name) (.reference name)
  /-- the attribute of a resource -/
  | attributeOf {argument : Json} {logicalId name : String}
    (named : attributeArguments argument = .ok (logicalId, name)) :
    LooksUp "Fn::GetAtt" argument (.attributeOf logicalId name)
  /-- a placeholder that is no variable of the substitution -/
  | placeholder {argument : Json} {body : String} {values : Entries Json} {token : String}
    (opened : substitutionArguments argument = .ok (body, values))
    (inBody : .placeholder token ∈ Segment.ofBody body) (unbound : values.find? token = none) :
    LooksUp "Fn::Sub" argument (.ofToken token)
  /-- an export -/
  | exportedValue (name : String) :
    LooksUp "Fn::ImportValue" (.str name) (.exportedValue name)

/-- Only two functions look up attributes. -/
theorem LooksUp.of_attributeOf {function : String} {argument : Json} {logicalId name : String}
    (looksUp : LooksUp function argument (.attributeOf logicalId name)) :
    function = "Fn::GetAtt" ∨ function = "Fn::Sub" := by
  generalize asked : Question.attributeOf logicalId name = question at looksUp
  cases looksUp with
  | reference name => cases asked
  | attributeOf named => exact .inl rfl
  | placeholder opened inBody unbound => exact .inr rfl
  | exportedValue name => cases asked

variable {first second : Resolver}

theorem placeholderValue_eq_answer (resolver : Resolver) {values : Entries Json} {token : String}
    (unbound : values.find? token = none) :
    placeholderValue resolver values token = resolver.answer (.ofToken token) := by
  unfold placeholderValue Question.ofToken
  rw [unbound]
  cases Text.splitOnce '.' token.toList <;> rfl

theorem segmentText_congr {values : Entries Json} {segment : Segment}
    (same : ∀ token, segment = .placeholder token → values.find? token = none →
      first.answer (.ofToken token) = second.answer (.ofToken token)) :
    segmentText first values segment = segmentText second values segment := by
  cases segment with
  | literal text => rfl
  | escaped text => rfl
  | placeholder token =>
    have sameValue : placeholderValue first values token = placeholderValue second values token := by
      cases bound : values.find? token with
      | some value => simp only [placeholderValue, bound]
      | none =>
        rw [placeholderValue_eq_answer first bound, placeholderValue_eq_answer second bound]
        exact same token rfl bound
    simp only [segmentText, sameValue]

/-- What a function makes of its argument depends on the meaning of the names that it looks up. -/
theorem apply_congr {name : String} {argument : Json}
    (same : ∀ question, LooksUp name argument question →
      first.answer question = second.answer question) :
    apply first name argument = apply second name argument := by
  unfold apply
  split
  · cases argument with
    | str target => exact same _ (.reference target)
    | null | bool | num | arr | obj => rfl
  · apply bind_congr_ok
    intro (logicalId, name) named
    exact same _ (.attributeOf named)
  · rfl
  · rfl
  · rfl
  · rw [substitute_eq, substitute_eq]
    apply bind_congr_ok
    intro (body, values) opened
    have sameTexts : (Segment.ofBody body).mapM (segmentText first values) =
        (Segment.ofBody body).mapM (segmentText second values) := by
      apply mapM_congr
      intro segment inBody
      apply segmentText_congr
      rintro token rfl unbound
      exact same _ (.placeholder opened inBody unbound)
    simp only [sameTexts]
  · cases argument with
    | str target => exact same _ (.exportedValue target)
    | null | bool | num | arr | obj => rfl
  · rfl

end Intrinsic

namespace Json

/-- An expression looks a name up if a function inside it does. -/
inductive LooksUp (resolver : Resolver) : Json → Question → Prop where
  /-- the function of the expression itself -/
  | function {name : String} {arguments argument : Json} {question : Question}
    (evaluated : arguments.evaluate resolver = .ok argument)
    (looksUp : Intrinsic.LooksUp name argument question) :
    LooksUp resolver (.obj [(name, arguments)]) question
  /-- a function inside an item -/
  | item {items : List Json} {item : Json} {question : Question} (member : item ∈ items)
    (inside : LooksUp resolver item question) : LooksUp resolver (.arr items) question
  /-- a function inside the value of a field -/
  | field {fields : List (String × Json)} {field : String × Json} {question : Question}
    (member : field ∈ fields) (inside : LooksUp resolver field.2 question) :
    LooksUp resolver (.obj fields) question

@[simp] theorem not_looksUp_str {resolver : Resolver} {text : String} {question : Question} :
    ¬ (str text).LooksUp resolver question := nofun

@[simp] theorem looksUp_arr {resolver : Resolver} {items : List Json} {question : Question} :
    (arr items).LooksUp resolver question ↔ ∃ item ∈ items, item.LooksUp resolver question := by
  constructor
  · rintro ⟨⟩
    exact ⟨_, ‹_›, ‹_›⟩
  · rintro ⟨item, member, inside⟩
    exact .item member inside

/-- An object with one field looks up what the function of that name does, and what is inside. -/
theorem looksUp_single {resolver : Resolver} {name : String} {arguments : Json}
    {question : Question} :
    (obj [(name, arguments)]).LooksUp resolver question ↔
      (∃ argument, arguments.evaluate resolver = .ok argument ∧
        Intrinsic.LooksUp name argument question) ∨ arguments.LooksUp resolver question := by
  constructor
  · intro looksUp
    cases looksUp with
    | function evaluated looksUp => exact .inl ⟨_, evaluated, looksUp⟩
    | field member inside =>
      cases List.mem_singleton.mp member
      exact .inr inside
  · rintro (⟨argument, evaluated, looksUp⟩ | inside)
    · exact .function evaluated looksUp
    · exact .field (List.mem_singleton_self _) inside

variable {first second : Resolver}

theorem eq_single_of_mapM {resolver : Resolver} {fields : List (String × Json)} {name : String}
    {argument : Json} (made : fields.mapM (evaluateField resolver) = .ok [(name, argument)]) :
    ∃ arguments, fields = [(name, arguments)] ∧ arguments.evaluate resolver = .ok argument := by
  cases mapM_eq_ok_iff.mp made with
  | @cons field _ _ _ here rest =>
    cases rest
    obtain ⟨key, arguments⟩ := field
    obtain ⟨value, evaluated, same⟩ := bind_eq_ok_iff.mp here
    cases same
    exact ⟨arguments, rfl, evaluated⟩

/-- An expression stands for the same under two resolvers that agree on each name it looks up. -/
theorem evaluate_congr {expression : Json}
    (same : ∀ question, expression.LooksUp first question →
      first.answer question = second.answer question) :
    expression.evaluate first = expression.evaluate second := by
  induction expression using Json.induction with
  | null | bool | num | str => rfl
  | arr items ih =>
    have sameItems : items.mapM (evaluate first) = items.mapM (evaluate second) := by
      apply mapM_congr
      intro item member
      exact ih item member (fun question inside => same question (.item member inside))
    rw [evaluate_arr, evaluate_arr, sameItems]
  | obj fields ih =>
    have sameFields : fields.mapM (evaluateField first) = fields.mapM (evaluateField second) := by
      apply mapM_congr
      intro field member
      have sameValue := ih field member (fun question inside => same question (.field member inside))
      rw [evaluateField, evaluateField, sameValue]
    rw [evaluate_obj, evaluate_obj, ← sameFields]
    apply bind_congr_ok
    intro values made
    rcases isIntrinsic_cases values with noFunction | ⟨name, argument, rfl, isFunction⟩
    · rw [Intrinsic.settle_of_not_intrinsic noFunction, Intrinsic.settle_of_not_intrinsic noFunction]
    · -- evaluation keeps the keys, so the fields were those of the same function before
      obtain ⟨arguments, rfl, evaluated⟩ := eq_single_of_mapM made
      rw [Intrinsic.settle_function isFunction, Intrinsic.settle_function isFunction]
      apply Intrinsic.apply_congr
      intro question looksUp
      exact same question (.function evaluated looksUp)

end Json

end StackSwap
