import Mathlib.Data.List.TakeWhile
import StackSwap.Proofs.Evaluation
import StackSwap.Proofs.Mentions

/-! If no dollar sign of a literal stands in front of an opening brace, filling in a body gives what
its segments mean, in their order, or the first failure among them. -/

namespace StackSwap

namespace Text

variable {separator : Char}

theorem splitOnce_append {before : List Char} (first : separator ∉ before) (after : List Char) :
    splitOnce separator (before ++ separator :: after) = some (before, after) := by
  induction before with
  | nil => simp [splitOnce]
  | cons char before ih =>
    rw [List.mem_cons, not_or] at first
    simp [splitOnce, Ne.symm first.1, ih first.2]

theorem splitOnce_eq_none_iff {text : List Char} :
    splitOnce separator text = none ↔ separator ∉ text := by
  induction text with
  | nil => simp [splitOnce]
  | cons char rest ih =>
    by_cases here : char = separator
    · simp [splitOnce, here]
    · simp [splitOnce, here, Ne.symm here, ih]

theorem splitOnce_eq_some_iff {text before after : List Char} :
    splitOnce separator text = some (before, after) ↔
      text = before ++ separator :: after ∧ separator ∉ before := by
  constructor
  · intro cut
    obtain ⟨whole, beginning⟩ := splitOnce_eq_some cut
    refine ⟨whole, ?_⟩
    intro again
    rw [← beginning] at again
    simpa using List.mem_takeWhile_imp again
  · intro cut
    rw [cut.1]
    exact splitOnce_append cut.2 after

end Text

namespace Segment

/-- The text of a segment in a body. -/
def rendered : Segment → List Char
  | .literal text => text.toList
  | .escaped text => '$' :: '\x7b' :: '!' :: (text.toList ++ ['\x7d'])
  | .placeholder token => '$' :: '\x7b' :: (token.toList ++ ['\x7d'])

/-- The beginning of a placeholder, with all the text behind it. -/
def renderedOpen : Option String → List Char
  | none => []
  | some text => '$' :: '\x7b' :: text.toList

/-- The body of some segments, and perhaps of a placeholder that is not closed. -/
def render (segments : List Segment) (opened : Option String) : List Char :=
  segments.flatMap rendered ++ renderedOpen opened

/-- The segment can be told from its text in a body, where some text stands behind it: literal text
begins no placeholder, not even with what follows, no closing brace comes too early, and only what
is escaped starts with an exclamation mark. -/
def ReadableBefore (behind : List Char) : Segment → Prop
  | .literal text => ¬ ['$', '\x7b'] <:+: text.toList ++ behind.take 1
  | .escaped text => '\x7d' ∉ text.toList
  | .placeholder token => '\x7d' ∉ token.toList ∧ token.toList.head? ≠ some '!'

/-- Segments can be told from their body. -/
def Readable (opened : Option String) : List Segment → Prop
  | [] => '\x7d' ∉ renderedOpen opened
  | segment :: rest => segment.ReadableBefore (render rest opened) ∧ Readable opened rest

instance (behind : List Char) (segment : Segment) : Decidable (segment.ReadableBefore behind) :=
  match segment with
  | .literal text => inferInstanceAs (Decidable (¬ ['$', '\x7b'] <:+: text.toList ++ behind.take 1))
  | .escaped text => inferInstanceAs (Decidable ('\x7d' ∉ text.toList))
  | .placeholder token =>
    inferInstanceAs (Decidable ('\x7d' ∉ token.toList ∧ token.toList.head? ≠ some '!'))

instance decidableReadable (opened : Option String) : (segments : List Segment) →
    Decidable (Readable opened segments)
  | [] => inferInstanceAs (Decidable ('\x7d' ∉ renderedOpen opened))
  | segment :: rest =>
    have := decidableReadable opened rest
    inferInstanceAs
      (Decidable (segment.ReadableBefore (render rest opened) ∧ Readable opened rest))

theorem render_cons (segment : Segment) (segments : List Segment) (opened : Option String) :
    render (segment :: segments) opened = segment.rendered ++ render segments opened := by
  simp [render]

/-! Reading a body back -/

theorem scan_literal {text rest : List Char} (literal : List Char)
    (quiet : ¬ ['$', '\x7b'] <:+: text ++ rest.take 1) :
    scan literal none (text ++ rest) = scan (text.reverse ++ literal) none rest := by
  induction text generalizing literal with
  | nil => rfl
  | cons char text ih =>
    -- the brace behind a dollar sign may be in the text or the first character after it
    have here : ∀ after, char = '$' → text ++ rest = '\x7b' :: after → False := by
      intro after isDollar opens
      apply quiet
      cases text with
      | nil =>
        rw [List.nil_append] at opens
        simp [isDollar, opens]
      | cons second text =>
        obtain ⟨rfl, _⟩ := List.cons.inj opens
        exact ⟨[], text ++ rest.take 1, by rw [isDollar]; rfl⟩
    have later := ih (char :: literal)
      (fun inside => quiet (inside.trans (List.suffix_cons char _).isInfix))
    rw [List.cons_append, scan, later, List.reverse_cons, List.append_assoc, List.singleton_append]
    exact here

/-- An open placeholder ends at the next closing brace. -/
theorem scan_placeholder {token : List Char} (whole : '\x7d' ∉ token)
    (literal begun rest : List Char) :
    scan literal (some begun) (token ++ '\x7d' :: rest) =
      .literal (String.ofList literal.reverse) :: ofToken (begun.reverse ++ token) ::
        scan [] none rest := by
  induction token generalizing begun with
  | nil => rw [List.nil_append, scan, if_pos rfl, List.append_nil]
  | cons char token ih =>
    rw [List.mem_cons, not_or] at whole
    rw [List.cons_append, scan, if_neg (Ne.symm whole.1), ih whole.2, List.reverse_cons,
      List.append_assoc, List.singleton_append]

/-- Without a closing brace the beginning of a placeholder is literal text. -/
theorem scan_opened {text : List Char} (unclosed : '\x7d' ∉ text) (literal begun : List Char) :
    scan literal (some begun) text =
      [.literal (String.ofList (literal.reverse ++ '$' :: '\x7b' :: (begun.reverse ++ text)))] := by
  induction text generalizing begun with
  | nil => rw [scan, List.append_nil]
  | cons char text ih =>
    rw [List.mem_cons, not_or] at unclosed
    rw [scan, if_neg (Ne.symm unclosed.1), ih unclosed.2, List.reverse_cons, List.append_assoc,
      List.singleton_append]

theorem ofToken_escaped (text : String) : ofToken ('!' :: text.toList) = .escaped text := by
  rw [ofToken, String.ofList_toList]

theorem ofToken_placeholder {token : String} (unescaped : token.toList.head? ≠ some '!') :
    ofToken token.toList = .placeholder token := by
  rw [ofToken, String.ofList_toList]
  intro text starts
  exact unescaped (by rw [starts, List.head?_cons])

end Segment

/-! What segments mean -/

namespace Intrinsic

section

variable (resolver : Resolver) (values : Entries Json)

/-- What a token stands for, or why it stands for nothing: a variable if there is one, else an
attribute, whose resource stands before the first dot, else a reference. -/
inductive TokenValue (token : String) : Evaluated Json → Prop where
  | bound {value : Json} (found : values.find? token = some value) : TokenValue token (.ok value)
  | attributeOf {logicalId name : String} (unbound : values.find? token = none)
    (dotted : token.toList = logicalId.toList ++ '.' :: name.toList)
    (first : '.' ∉ logicalId.toList) : TokenValue token (resolver.attributeOf logicalId name)
  | reference (unbound : values.find? token = none) (undotted : '.' ∉ token.toList) :
    TokenValue token (resolver.reference token)

/-- The text that a segment means. -/
inductive Means : Segment → String → Prop where
  | literal (text : String) : Means (.literal text) text
  | escaped (text : String) : Means (.escaped text) ("$\x7b" ++ text ++ "\x7d")
  | placeholder {token text : String} {value : Json}
    (stands : TokenValue resolver values token (.ok value))
    (scalar : value.scalarText? = some text) : Means (.placeholder token) text

/-- Why a token has no text. -/
inductive Fails (token : String) : EvaluationError → Prop where
  | unanswered {error : EvaluationError}
    (stands : TokenValue resolver values token (.error error)) : Fails token error
  | notString {value : Json} (stands : TokenValue resolver values token (.ok value))
    (noScalar : value.scalarText? = none) :
    Fails token (.invalidArguments (.placeholderNotString token))

end

variable {resolver : Resolver} {values : Entries Json}

theorem tokenValue_placeholderValue (token : String) :
    TokenValue resolver values token (placeholderValue resolver values token) := by
  unfold placeholderValue
  cases found : values.find? token with
  | some value => exact .bound found
  | none =>
    cases cut : Text.splitOnce '.' token.toList with
    | none => exact .reference found (Text.splitOnce_eq_none_iff.mp cut)
    | some parts =>
      obtain ⟨whole, first⟩ := Text.splitOnce_eq_some_iff.mp cut
      apply TokenValue.attributeOf found
      · rw [String.toList_ofList, String.toList_ofList]
        exact whole
      · rw [String.toList_ofList]
        exact first

theorem tokenValue_iff {token : String} {answer : Evaluated Json} :
    TokenValue resolver values token answer ↔ placeholderValue resolver values token = answer := by
  constructor
  · intro stands
    unfold placeholderValue
    cases stands with
    | bound found => rw [found]
    | attributeOf unbound dotted first =>
      rw [unbound, Text.splitOnce_eq_some_iff.mpr ⟨dotted, first⟩]
      simp only [String.ofList_toList]
    | reference unbound undotted => rw [unbound, Text.splitOnce_eq_none_iff.mpr undotted]
  · intro same
    exact same ▸ tokenValue_placeholderValue token

theorem orRefuse_eq_ok_iff {α : Type} {fault : ArgumentFault} {found : Option α} {value : α} :
    orRefuse fault found = .ok value ↔ found = some value := by
  cases found <;> simp [orRefuse, refuse]

theorem orRefuse_eq_error_iff {α : Type} {fault : ArgumentFault} {found : Option α}
    {error : EvaluationError} :
    orRefuse fault found = .error error ↔ found = none ∧ error = .invalidArguments fault := by
  cases found <;> simp [orRefuse, refuse, eq_comm]

theorem segmentText_eq_ok_iff {segment : Segment} {text : String} :
    segmentText resolver values segment = .ok text ↔ Means resolver values segment text := by
  constructor
  · intro made
    cases segment with
    | literal own =>
      cases made
      exact .literal _
    | escaped own =>
      cases made
      exact .escaped own
    | placeholder token =>
      obtain ⟨value, stands, scalar⟩ := bind_eq_ok_iff.mp made
      exact .placeholder (tokenValue_iff.mpr stands) (orRefuse_eq_ok_iff.mp scalar)
  · intro means
    cases means with
    | literal => rfl
    | escaped => rfl
    | placeholder stands scalar =>
      exact bind_eq_ok_iff.mpr ⟨_, tokenValue_iff.mp stands, orRefuse_eq_ok_iff.mpr scalar⟩

theorem segmentText_eq_error_iff {segment : Segment} {error : EvaluationError} :
    segmentText resolver values segment = .error error ↔
      ∃ token, segment = .placeholder token ∧ Fails resolver values token error := by
  constructor
  · intro failed
    cases segment with
    | literal | escaped => cases failed
    | placeholder token =>
      refine ⟨token, rfl, ?_⟩
      rcases bind_eq_error_iff.mp failed with failed | ⟨value, stands, refused⟩
      · exact .unanswered (tokenValue_iff.mpr failed)
      · obtain ⟨noScalar, rfl⟩ := orRefuse_eq_error_iff.mp refused
        exact .notString (tokenValue_iff.mpr stands) noScalar
  · intro failed
    obtain ⟨token, rfl, fails⟩ := failed
    apply bind_eq_error_iff.mpr
    cases fails with
    | unanswered stands => exact .inl (tokenValue_iff.mp stands)
    | notString stands noScalar =>
      exact .inr ⟨_, tokenValue_iff.mp stands, orRefuse_eq_error_iff.mpr ⟨noScalar, rfl⟩⟩

/-! Filling in a rendered body -/

@[simp]
theorem segmentText_literal (text : String) :
    segmentText resolver values (.literal text) = pure text := rfl

/-- The texts of the segments of a body in one, behind the literal text read before. -/
def fill (resolver : Resolver) (values : Entries Json) (literal body : List Char) :
    Evaluated String := do
  let texts ← (Segment.scan literal none body).mapM (segmentText resolver values)
  return String.join texts

/-- What stands between braces comes behind the literal text and before the rest of the body. -/
theorem fill_braced {token : List Char} (whole : '\x7d' ∉ token) (literal rest : List Char) :
    fill resolver values literal ('$' :: '\x7b' :: (token ++ '\x7d' :: rest)) = do
      let text ← segmentText resolver values (Segment.ofToken token)
      let later ← fill resolver values [] rest
      return String.ofList literal.reverse ++ (text ++ later) := by
  simp [fill, Segment.scan, Segment.scan_placeholder whole]

theorem fill_segment {segment : Segment} {rest : List Char}
    (closes : segment.ReadableBefore rest) (notLiteral : ∀ text, segment ≠ .literal text)
    (literal : List Char) :
    fill resolver values literal (segment.rendered ++ rest) = do
      let text ← segmentText resolver values segment
      let later ← fill resolver values [] rest
      return String.ofList literal.reverse ++ (text ++ later) := by
  cases segment with
  | literal text => exact absurd rfl (notLiteral text)
  | escaped text =>
    have unclosed : '\x7d' ∉ text.toList := closes
    have whole : '\x7d' ∉ '!' :: text.toList := by simpa using unclosed
    rw [← Segment.ofToken_escaped, ← fill_braced whole, Segment.ofToken_escaped, Segment.rendered]
    simp
  | placeholder token =>
    rw [← Segment.ofToken_placeholder closes.2, ← fill_braced closes.1,
      Segment.ofToken_placeholder closes.2, Segment.rendered]
    simp

/-- Filling in a rendered body takes the texts of its segments one after the other. -/
theorem fill_render {segments : List Segment} {opened : Option String}
    (readable : Segment.Readable opened segments) (literal : List Char) :
    fill resolver values literal (Segment.render segments opened) = do
      let texts ← segments.mapM (segmentText resolver values)
      return String.ofList literal.reverse ++
        (String.join texts ++ String.ofList (Segment.renderedOpen opened)) := by
  induction segments generalizing literal with
  | nil =>
    cases opened with
    | none =>
      simp [Segment.render, Segment.renderedOpen, fill, Segment.scan]
    | some text =>
      have unclosed : '\x7d' ∉ text.toList := by
        simpa [Segment.Readable, Segment.renderedOpen] using readable
      simp [Segment.render, Segment.renderedOpen, fill, Segment.scan, Segment.scan_opened unclosed]
  | cons segment segments ih =>
    obtain ⟨closes, readable⟩ := readable
    have later := ih readable
    rw [Segment.render_cons, List.mapM_cons]
    by_cases isLiteral : ∃ text, segment = .literal text
    · obtain ⟨text, rfl⟩ := isLiteral
      rw [Segment.rendered, fill, Segment.scan_literal literal closes, ← fill, later]
      simp [String.append_assoc]
    · rw [fill_segment closes (fun text same => isLiteral ⟨text, same⟩), later]
      simp [String.append_assoc]

/-- What a substitution makes of a rendered body. -/
theorem substitute_render {segments : List Segment} {opened : Option String}
    (readable : Segment.Readable opened segments) {arguments : Json}
    (given : substitutionArguments arguments =
      .ok (String.ofList (Segment.render segments opened), values)) :
    substitute resolver arguments = do
      let texts ← segments.mapM (segmentText resolver values)
      return .str (String.join texts ++ String.ofList (Segment.renderedOpen opened)) := by
  have inOne : substitute resolver arguments = do
      let text ← fill resolver values [] (Segment.render segments opened)
      return .str text := by
    simp only [substitute_eq, given, ok_bind, Segment.ofBody, String.toList_ofList, fill,
      bind_assoc, pure_bind]
  rw [inOne, fill_render readable]
  simp

end Intrinsic

/-! The same with a join -/

theorem Text.intercalate_empty (texts : List String) :
    "".intercalate texts = String.join texts := by
  induction texts with
  | nil => rfl
  | cons first rest ih =>
    cases rest with
    | nil => simp
    | cons second rest =>
      have firstOut := String.join_cons (s := first) (l := second :: rest)
      rw [String.intercalate_cons_cons, ih, String.append_empty, firstOut]

namespace Segment

/-- The expression of what a segment means without variables. -/
def node : Segment → Json
  | .literal text => .str text
  | .escaped text => .str (unescaped text)
  | .placeholder token =>
    match Text.splitOnce '.' token.toList with
    | some (logicalId, name) =>
      .obj [("Fn::GetAtt", .arr [.str (String.ofList logicalId), .str (String.ofList name)])]
    | none => .obj [("Ref", .str token)]

/-- The expressions of some segments, and of the beginning of a placeholder that is not closed. -/
def nodes (segments : List Segment) : (opened : Option String) → List Json
  | none => segments.map node
  | some text => segments.map node ++ [.str (String.ofList (renderedOpen (some text)))]

end Segment

namespace Json

variable {resolver : Resolver}

theorem evaluate_function {name : String} (isFunction : isFunctionName name = true)
    (argument : Json) :
    (obj [(name, argument)]).evaluate resolver =
      argument.evaluate resolver >>= Intrinsic.apply resolver name := by
  rw [evaluate]
  simp only [isFunction, if_true]

theorem evaluate_node_placeholder (token : String) :
    (Segment.node (.placeholder token)).evaluate resolver =
      Intrinsic.placeholderValue resolver [] token := by
  have unbound : Entries.find? ([] : Entries Json) token = none := rfl
  simp only [Segment.node, Intrinsic.placeholderValue, unbound]
  cases Text.splitOnce '.' token.toList with
  | none =>
    rw [evaluate_function (by decide)]
    rfl
  | some parts =>
    rw [evaluate_function (by decide)]
    rfl

theorem evaluateText_eq_ok_iff {expression : Json} {text : String} :
    expression.evaluateText resolver = .ok text ↔
      ∃ value, expression.evaluate resolver = .ok value ∧ value.scalarText? = some text := by
  simp only [evaluateText, bind_eq_ok_iff, Intrinsic.orRefuse_eq_ok_iff]

theorem evaluateText_node {segment : Segment} {text : String} :
    segment.node.evaluateText resolver = .ok text ↔
      Intrinsic.segmentText resolver [] segment = .ok text := by
  cases segment with
  | literal | escaped => rfl
  | placeholder token =>
    rw [evaluateText_eq_ok_iff, evaluate_node_placeholder, Intrinsic.segmentText, bind_eq_ok_iff]
    simp only [Intrinsic.orRefuse_eq_ok_iff]

theorem evaluate_join_iff {items : List Json} {result : Json} :
    (obj [("Fn::Join", .arr [.str "", .arr items])]).evaluate resolver = .ok result ↔
      ∃ texts, items.mapM (evaluateText resolver) = .ok texts ∧
        result = .str (String.join texts) := by
  have steps : (obj [("Fn::Join", .arr [.str "", .arr items])]).evaluate resolver = do
      let values ← items.mapM (evaluate resolver)
      let texts ← Intrinsic.orRefuse .valuesNotStrings (values.mapM scalarText?)
      return .str ("".intercalate texts) := by
    rw [evaluate_function (by decide)]
    simp only [evaluate_arr, List.mapM_cons, List.mapM_nil, bind_assoc, pure_bind]
    rfl
  simp only [steps, bind_eq_ok_iff, Intrinsic.orRefuse_eq_ok_iff, mapM_eq_ok_iff, mapM_eq_some_iff,
    evaluateText_eq_ok_iff, ← forall₂_forall₂_iff, Text.intercalate_empty]
  constructor
  · intro made
    obtain ⟨values, evaluated, texts, scalars, same⟩ := made
    cases same
    exact ⟨texts, ⟨values, evaluated, scalars⟩, rfl⟩
  · intro made
    obtain ⟨texts, ⟨values, evaluated, scalars⟩, rfl⟩ := made
    exact ⟨values, evaluated, texts, scalars, rfl⟩

end Json

namespace Scope

open Intrinsic Segment

/-- The joined texts of the expressions are those of the segments. -/
theorem mapM_nodes_iff {resolver : Resolver} {segments : List Segment} {opened : Option String}
    {result : Json} :
    (∃ texts, (nodes segments opened).mapM (Json.evaluateText resolver) = .ok texts ∧
        result = .str (String.join texts)) ↔
      ∃ texts, segments.mapM (segmentText resolver []) = .ok texts ∧
        result = .str (String.join texts ++ String.ofList (renderedOpen opened)) := by
  have closed : ∀ texts, (segments.map node).mapM (Json.evaluateText resolver) = .ok texts ↔
      segments.mapM (segmentText resolver []) = .ok texts := by
    intro texts
    simp only [mapM_eq_ok_iff, List.forall₂_map_left_iff, Json.evaluateText_node]
  cases opened with
  | none =>
    simp only [nodes, renderedOpen, closed]
    simp
  | some text =>
    have atEnd : (nodes segments (some text)).mapM (Json.evaluateText resolver) = do
        let texts ← (segments.map node).mapM (Json.evaluateText resolver)
        return texts ++ [String.ofList (renderedOpen (some text))] := by
      rw [nodes, List.mapM_append]
      rfl
    rw [atEnd]
    constructor
    · intro made
      obtain ⟨texts, made, rfl⟩ := made
      obtain ⟨own, ownMade, same⟩ := bind_eq_ok_iff.mp made
      cases same
      exact ⟨own, (closed own).mp ownMade, by simp⟩
    · intro made
      obtain ⟨texts, made, rfl⟩ := made
      exact ⟨_, bind_eq_ok_iff.mpr ⟨texts, (closed texts).mpr made, rfl⟩, by simp⟩

/-- A substitution is the inverse of rendering: it gives the meanings of the rendered segments in
one text, or the failure of the first token that fails. Without variables a join of the expressions
of the segments gives the same. -/
theorem substitute_rendered (scope : Scope) {segments : List Segment} {opened : Option String}
    (readable : Readable opened segments) :
    let body := String.ofList (render segments opened)
    (∀ arguments values, substitutionArguments arguments = .ok (body, values) →
      (∀ result, substitute scope.resolver arguments = .ok result ↔
        ∃ texts, List.Forall₂ (Means scope.resolver values) segments texts ∧
          result = .str (String.join texts ++ String.ofList (renderedOpen opened))) ∧
      ∀ error, substitute scope.resolver arguments = .error error ↔
        ∃ before token after, segments = before ++ .placeholder token :: after ∧
          (∀ segment ∈ before, ∃ text, Means scope.resolver values segment text) ∧
          Fails scope.resolver values token error) ∧
    ∀ result, scope.evaluate (.obj [("Fn::Sub", .str body)]) = .ok result ↔
      scope.evaluate (.obj [("Fn::Join", .arr [.str "", .arr (nodes segments opened)])]) =
        .ok result := by
  intro body
  constructor
  · intro arguments values given
    rw [substitute_render readable given]
    constructor
    · intro result
      simp only [bind_eq_ok_iff, mapM_eq_ok_iff, segmentText_eq_ok_iff]
      constructor
      · intro made
        obtain ⟨texts, mean, same⟩ := made
        cases same
        exact ⟨texts, mean, rfl⟩
      · intro made
        obtain ⟨texts, mean, rfl⟩ := made
        exact ⟨texts, mean, rfl⟩
    · intro error
      simp only [bind_eq_error_iff, mapM_eq_error_iff, segmentText_eq_ok_iff,
        segmentText_eq_error_iff]
      constructor
      · intro failed
        rcases failed with failed | ⟨_, _, impossible⟩
        · obtain ⟨before, segment, after, same, earlier, token, rfl, fails⟩ := failed
          exact ⟨before, token, after, same, earlier, fails⟩
        · cases impossible
      · intro failed
        obtain ⟨before, token, after, same, earlier, fails⟩ := failed
        exact .inl ⟨before, _, after, same, earlier, token, rfl, fails⟩
  · intro result
    have substituted : scope.evaluate (.obj [("Fn::Sub", .str body)]) =
        substitute scope.resolver (.str body) := by
      unfold evaluate
      rw [Json.evaluate_function (by decide)]
      rfl
    rw [substituted, substitute_render readable rfl]
    unfold evaluate
    rw [Json.evaluate_join_iff, mapM_nodes_iff, bind_eq_ok_iff]
    constructor
    · intro made
      obtain ⟨texts, made, same⟩ := made
      cases same
      exact ⟨texts, made, rfl⟩
    · intro made
      obtain ⟨texts, made, rfl⟩ := made
      exact ⟨texts, made, rfl⟩

/-- Dollar signs beside placeholders, a variable with a dot in its name whose value looks like a
placeholder, and a placeholder that is not closed. -/
theorem substitute_rendered_dollars :
    let segments := [.literal "cost: $", .placeholder "Bucket.Arn", .escaped "Role",
      .placeholder "Bucket.Name", .literal "$", .placeholder "Role", .literal " "]
    let values : Entries Json := [("Bucket.Name", .str "$\x7bRole\x7d")]
    let body := String.ofList (render segments (some "end"))
    Readable (some "end") segments ∧
      body = "cost: $$\x7bBucket.Arn\x7d$\x7b!Role\x7d$\x7bBucket.Name\x7d$$\x7bRole\x7d $\x7bend" ∧
      substitute withBucket.resolver (.arr [.str body, .obj values]) =
        .ok (.str "cost: $arn:aws:s3:::files$\x7bRole\x7d$\x7bRole\x7d$reader $\x7bend") := by
  intro segments values body
  have readable : Readable (some "end") segments := by decide
  refine ⟨readable, rfl, ?_⟩
  let texts := ["cost: $", "arn:aws:s3:::files", "$\x7bRole\x7d", "$\x7bRole\x7d", "$", "reader",
    " "]
  have made : segments.mapM (segmentText withBucket.resolver values) = .ok texts := rfl
  have mean : List.Forall₂ (Means withBucket.resolver values) segments texts :=
    (mapM_eq_ok_iff.mp made).imp (fun _ _ => segmentText_eq_ok_iff.mp)
  exact (((withBucket.substitute_rendered readable).1 _ values rfl).1 _).mpr ⟨texts, mean, rfl⟩

end Scope

end StackSwap
