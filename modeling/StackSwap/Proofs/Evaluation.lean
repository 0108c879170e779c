import StackSwap.Expression.Evaluate
import StackSwap.Proofs.Json
import StackSwap.Proofs.Sequence

namespace StackSwap

namespace Json

theorem isIntrinsic_of_length {fields : Entries Json} (several : fields.length ≠ 1) :
    isIntrinsic fields = false := by
  match fields, several with
  | [], _ => rfl
  | [_], several => exact absurd rfl several
  | _ :: _ :: _, _ => rfl

theorem isIntrinsic_cases (fields : Entries Json) :
    isIntrinsic fields = false ∨
      ∃ name argument, fields = [(name, argument)] ∧ isFunctionName name = true := by
  match fields with
  | [] => exact .inl rfl
  | [(name, argument)] =>
    cases isFunction : isFunctionName name with
    | false => exact .inl isFunction
    | true => exact .inr ⟨name, argument, rfl, isFunction⟩
  | _ :: _ :: _ => exact .inl rfl

end Json

namespace Intrinsic

/-- The body of a substitution, and the variables that stand beside it. -/
def substitutionArguments : Json → Evaluated (String × Entries Json)
  | .str body => .ok (body, [])
  | .arr [.str body] => .ok (body, [])
  | .arr [.str body, .obj values] => .ok (body, values)
  | _ => refuse .notBodyAndVariables

private theorem substitutionArguments_of_other {arguments : Json}
    (noText : ∀ body, arguments = .str body → False)
    (noBody : ∀ body, arguments = .arr [.str body] → False)
    (noPair : ∀ body values, arguments = .arr [.str body, .obj values] → False) :
    substitutionArguments arguments = refuse .notBodyAndVariables := by
  unfold substitutionArguments
  split
  · exact absurd rfl (noText _)
  · exact absurd rfl (noBody _)
  · exact absurd rfl (noPair _ _)
  · rfl

theorem substitute_eq (resolver : Resolver) (arguments : Json) :
    substitute resolver arguments = substitutionArguments arguments >>= fun (body, values) => do
      let texts ← (Segment.ofBody body).mapM (segmentText resolver values)
      return .str (String.join texts) := by
  unfold substitute
  split
  · rfl
  · rfl
  · rfl
  · rename_i noText noBody noPair
    rw [substitutionArguments_of_other noText noBody noPair]

end Intrinsic

/-- What evaluated fields stand for. -/
def Intrinsic.settle (resolver : Resolver) : Entries Json → Evaluated Json
  | [(name, argument)] =>
    if Json.isFunctionName name then apply resolver name argument else .ok (.obj [(name, argument)])
  | fields => .ok (.obj fields)

namespace Intrinsic

variable {resolver : Resolver}

theorem settle_single (name : String) (argument : Json) :
    settle resolver [(name, argument)] =
      if Json.isFunctionName name then apply resolver name argument
      else .ok (.obj [(name, argument)]) := rfl

theorem settle_of_not_intrinsic {fields : Entries Json} (plain : Json.isIntrinsic fields = false) :
    settle resolver fields = .ok (.obj fields) := by
  match fields, plain with
  | [], _ => rfl
  | [(name, argument)], plain =>
    have noFunction : Json.isFunctionName name = false := plain
    simp [settle_single, noFunction]
  | _ :: _ :: _, _ => rfl

theorem settle_function {name : String} (isFunction : Json.isFunctionName name = true)
    (argument : Json) : settle resolver [(name, argument)] = apply resolver name argument := by
  rw [settle_single, if_pos isFunction]

end Intrinsic

namespace Json

variable {resolver : Resolver}

/-- A field with its value evaluated. -/
def evaluateField (resolver : Resolver) (field : String × Json) : Evaluated (String × Json) := do
  let value ← field.2.evaluate resolver
  return (field.1, value)

theorem evaluateItems_eq (items : List Json) :
    evaluateItems resolver items = items.mapM (evaluate resolver) := by
  induction items with
  | nil => rfl
  | cons item rest ih => rw [evaluateItems, List.mapM_cons, ih]

theorem evaluateFields_eq (fields : List (String × Json)) :
    evaluateFields resolver fields = fields.mapM (evaluateField resolver) := by
  induction fields with
  | nil => rfl
  | cons field rest ih =>
    obtain ⟨key, value⟩ := field
    rw [evaluateFields, List.mapM_cons, ih]
    simp [evaluateField]

theorem evaluate_arr (items : List Json) :
    (arr items).evaluate resolver = do return .arr (← items.mapM (evaluate resolver)) := by
  rw [evaluate, evaluateItems_eq]

/-- Fields are evaluated in turn, and then they settle. -/
theorem evaluate_obj (fields : List (String × Json)) :
    (obj fields).evaluate resolver =
      fields.mapM (evaluateField resolver) >>= Intrinsic.settle resolver := by
  match fields with
  | [] => rfl
  | [(name, argument)] =>
    rw [evaluate, List.mapM_cons, evaluateField]
    cases argument.evaluate resolver <;> rfl
  | first :: second :: rest =>
    rw [evaluate, evaluateFields_eq]
    · cases made : (first :: second :: rest).mapM (evaluateField resolver) with
      | error error => rfl
      | ok values =>
        have sameLength := (mapM_eq_ok_iff.mp made).length_eq
        have several : values.length ≠ 1 := by simp [← sameLength]
        rw [ok_bind, ok_bind, Intrinsic.settle_of_not_intrinsic (isIntrinsic_of_length several)]
        rfl
    · simp

/-! Parts of an expression -/

/-- A value around a hole: an array with one item left open, or an object with one field left
open. -/
inductive Frame where
  | item (before after : List Json)
  | field (before : List (String × Json)) (key : String) (after : List (String × Json))

/-- The value with something in its hole. -/
def Frame.fill : Frame → Json → Json
  | .item before after, inner => .arr (before ++ inner :: after)
  | .field before key after, inner => .obj (before ++ (key, inner) :: after)

/-- Puts a value into the last of several nested frames, of which the first is the outermost. -/
def fill (path : List Frame) (inner : Json) : Json := path.foldr Frame.fill inner

theorem Frame.evaluate_fill_congr (frame : Frame) {first second : Json}
    (same : first.evaluate resolver = second.evaluate resolver) :
    (frame.fill first).evaluate resolver = (frame.fill second).evaluate resolver := by
  cases frame with
  | item before after =>
    simp only [fill, evaluate_arr, List.mapM_append, List.mapM_cons, same]
  | field before key after =>
    have sameField : evaluateField resolver (key, first) = evaluateField resolver (key, second) := by
      simp only [evaluateField, same]
    simp only [fill, evaluate_obj, List.mapM_append, List.mapM_cons, sameField]

/-- A part may be replaced by another one that stands for the same. -/
theorem evaluate_fill_congr (path : List Frame) {first second : Json}
    (same : first.evaluate resolver = second.evaluate resolver) :
    (fill path first).evaluate resolver = (fill path second).evaluate resolver := by
  induction path with
  | nil => exact same
  | cons frame rest ih => exact frame.evaluate_fill_congr ih

end Json

end StackSwap
