import Mathlib.Data.List.TakeWhile
import StackSwap.Proofs.BlankTexts
import StackSwap.Proofs.Brackets
import StackSwap.Template.Text

namespace StackSwap

namespace Text

theorem trimStart_of_skipBlank {chars rest : List Char} {char : Char}
    (skipped : Json.Document.skipBlank chars = char :: rest) (stays : isBlank char = false) :
    trimStart chars = char :: rest := by
  induction chars with
  | nil => cases skipped
  | cons first behind ih =>
    rw [Json.Document.skipBlank] at skipped
    rcases ite_eq_iff.mp skipped with ⟨blank, skipped⟩ | ⟨_, skipped⟩
    · rw [trimStart, List.dropWhile_cons_of_pos (isBlank_of_isBlank blank)]
      exact ih skipped
    · cases skipped
      exact List.dropWhile_cons_of_neg (Bool.not_eq_true _ ▸ stays)

end Text

namespace Json.Document

/-- An array or an object. -/
def IsComposite : Document → Prop
  | .arr _ | .obj _ => True
  | _ => False

theorem opens_of_value? {fuel : Nat} {chars rest : List Char} {document : Document}
    (read : value? fuel chars = some (document, rest)) (composite : document.IsComposite) :
    ∃ behind, skipBlank chars = '[' :: behind ∨ skipBlank chars = '\x7b' :: behind := by
  cases fuel with
  | zero => cases read
  | succ fuel =>
    rw [value?] at read
    split at read
    case h_5 behind opens => exact ⟨behind, .inl opens⟩
    case h_6 behind opens => exact ⟨behind, .inr opens⟩
    case h_4 | h_7 =>
      obtain ⟨_, _, same⟩ := Option.map_eq_some_iff.mp read
      cases same
      cases composite
    all_goals
      cases read
      cases composite

theorem composite_of_structure? {depth : Nat} {shape : Shape} {document : Document} {value : Json}
    {names : List String} {look : String → Option Json}
    (read : document.read? depth shape = some value)
    (opened : value.structure? names = some look) : document.IsComposite := by
  cases document with
  | arr | obj => trivial
  | null | bool =>
    cases read
    cases opened
  | num | str =>
    obtain ⟨_, _, rfl⟩ := Option.map_eq_some_iff.mp read
    cases opened

end Json.Document

namespace Template

variable {body : String} {template : Template} {rest : List Char}

/-- A template in JSON opens with a bracket or a brace. -/
theorem opens_of_ofJsonText? (read : ofJsonText? body = some template) :
    ∃ behind, Json.Document.skipBlank body.toList = '[' :: behind ∨
      Json.Document.skipBlank body.toList = '\x7b' :: behind := by
  obtain ⟨value, found, decoded⟩ := Option.bind_eq_some_iff.mp read
  obtain ⟨document, parsed, found⟩ := Option.bind_eq_some_iff.mp found
  obtain ⟨look, opened, _⟩ := Option.bind_eq_some_iff.mp decoded
  have composite := Json.Document.composite_of_structure? found opened
  simp only [Json.Document.parse] at parsed
  split at parsed
  case h_1 whole rest ofText =>
    rcases ite_eq_iff.mp parsed with ⟨_, same⟩ | ⟨_, same⟩ <;> cases same
    exact Json.Document.opens_of_value? ofText composite
  case h_2 => cases parsed

theorem trimStart_of_ofJsonText? (read : ofJsonText? body = some template) :
    ∃ behind, Text.trimStart body.toList = '[' :: behind ∨
      Text.trimStart body.toList = '\x7b' :: behind := by
  obtain ⟨behind, opens⟩ := opens_of_ofJsonText? read
  exact ⟨behind, opens.imp (fun bracket => Text.trimStart_of_skipBlank bracket rfl)
    (fun brace => Text.trimStart_of_skipBlank brace rfl)⟩

/-- A text that opens with a bracket is no template in YAML if it is one in JSON. -/
theorem ofYamlText?_eq_none_of_ofJsonText? (opens : Text.trimStart body.toList = '[' :: rest)
    (read : ofJsonText? body = some template) : ofYamlText? body = none := by
  obtain ⟨behind, bracket | brace⟩ := opens_of_ofJsonText? read
  · exact ofYamlText?_eq_none_of_bracket bracket
  · cases (Text.trimStart_of_skipBlank brace rfl).symm.trans opens

theorem forall_isBlank_of_trimStart (blank : Text.trimStart body.toList = []) :
    ∀ char ∈ body.toList, Text.isBlank char :=
  List.dropWhile_eq_nil_iff.mp blank

/-! ### The notation that is tried -/

theorem parse?_of_blank (blank : Text.trimStart body.toList = []) : parse? body = some {} := by
  rw [parse?, blank]

theorem parse?_of_brace (opens : Text.trimStart body.toList = '\x7b' :: rest) :
    parse? body = ofJsonText? body := by
  rw [parse?, opens]
  rfl

theorem parse?_of_other {char : Char} (opens : Text.trimStart body.toList = char :: rest)
    (other : char ≠ '\x7b') : parse? body = ofYamlText? body := by
  rw [parse?, opens]
  split
  case h_1 same => cases same
  case h_2 same =>
    cases same
    exact absurd rfl other
  case h_3 => rfl

/-- A text is read if either notation reads it, and as the one that does. -/
structure ReadsEither (body : String) : Prop where
  accepts : (ofJsonText? body).isSome ∨ (ofYamlText? body).isSome → (parse? body).isSome
  json : ∀ template, ofJsonText? body = some template → ofYamlText? body = none →
    parse? body = some template
  yaml : ∀ template, ofYamlText? body = some template → ofJsonText? body = none →
    parse? body = some template

/-- A text is handed to the reader of the notation that it is not written in. -/
inductive Misjudged (body : String) : Prop where
  /-- a flow mapping, or another text in YAML that opens with a brace -/
  | brace (opens : ∃ rest, Text.trimStart body.toList = '\x7b' :: rest)
    (json : ofJsonText? body = none) (yaml : (ofYamlText? body).isSome)
  /-- the array of the fields of a template -/
  | bracket (opens : ∃ rest, Text.trimStart body.toList = '[' :: rest)
    (json : (ofJsonText? body).isSome)

theorem Misjudged.parse?_eq_none (misjudged : Misjudged body) : parse? body = none := by
  cases misjudged with
  | brace opens json _ =>
    obtain ⟨rest, opens⟩ := opens
    rw [parse?_of_brace opens, json]
  | bracket opens json =>
    obtain ⟨rest, opens⟩ := opens
    obtain ⟨template, read⟩ := Option.isSome_iff_exists.mp json
    rw [parse?_of_other opens (by decide), ofYamlText?_eq_none_of_ofJsonText? opens read]

theorem Misjudged.isSome (misjudged : Misjudged body) :
    (ofJsonText? body).isSome ∨ (ofYamlText? body).isSome := by
  cases misjudged with
  | brace _ _ yaml => exact .inr yaml
  | bracket _ json => exact .inl json

theorem readsEither_of_blank (blank : Text.trimStart body.toList = []) : ReadsEither body := by
  have parsed := parse?_of_blank blank
  refine ⟨fun _ => parsed ▸ rfl, ?_, ?_⟩
  · intro template read _
    obtain ⟨behind, opens⟩ := trimStart_of_ofJsonText? read
    simp [blank] at opens
  · intro template read _
    rw [parsed, ofYamlText?_of_blank (forall_isBlank_of_trimStart blank) read]

theorem readsEither_of_brace (opens : Text.trimStart body.toList = '\x7b' :: rest)
    (judged : ¬ Misjudged body) : ReadsEither body := by
  have parsed := parse?_of_brace opens
  rcases json : ofJsonText? body with _ | template
  · have noYaml : ofYamlText? body = none := by
      rw [← Option.not_isSome_iff_eq_none]
      exact fun yaml => judged (.brace ⟨rest, opens⟩ json yaml)
    constructor <;> simp [json, noYaml]
  · constructor <;> simp [json, parsed]

theorem readsEither_of_other {char : Char} (opens : Text.trimStart body.toList = char :: rest)
    (other : char ≠ '\x7b') (judged : ¬ Misjudged body) : ReadsEither body := by
  have parsed := parse?_of_other opens other
  have noJson : ofJsonText? body = none := by
    rw [Option.eq_none_iff_forall_ne_some]
    intro template read
    obtain ⟨behind, bracket | brace⟩ := trimStart_of_ofJsonText? read
    · exact judged (.bracket ⟨behind, bracket⟩ (read ▸ rfl))
    · cases opens.symm.trans brace
      exact other rfl
  constructor <;> simp [noJson, parsed]

/-- A text is read if either notation reads it, and as the one that does, unless it is misjudged;
then it is not read at all. What is read comes from one of the notations, or from a blank text. -/
theorem parse?_readsEither (body : String) :
    (ReadsEither body ↔ ¬ Misjudged body) ∧ (Misjudged body → parse? body = none) ∧
      ∀ template, parse? body = some template →
        ofJsonText? body = some template ∨ ofYamlText? body = some template ∨
          Text.isAllBlank body ∧ template = {} := by
  refine ⟨⟨?_, ?_⟩, Misjudged.parse?_eq_none, ?_⟩
  · intro reads misjudged
    have parsed := reads.accepts misjudged.isSome
    rw [misjudged.parse?_eq_none] at parsed
    cases parsed
  · intro judged
    rcases opens : Text.trimStart body.toList with _ | ⟨char, rest⟩
    · exact readsEither_of_blank opens
    · by_cases brace : char = '\x7b'
      · exact readsEither_of_brace (brace ▸ opens) judged
      · exact readsEither_of_other opens brace judged
  · intro template parsed
    rcases opens : Text.trimStart body.toList with _ | ⟨char, rest⟩
    · rw [parse?_of_blank opens] at parsed
      cases parsed
      exact .inr (.inr ⟨List.all_eq_true.mpr (forall_isBlank_of_trimStart opens), rfl⟩)
    · by_cases brace : char = '\x7b'
      · rw [parse?_of_brace (brace ▸ opens)] at parsed
        exact .inl parsed
      · rw [parse?_of_other opens brace] at parsed
        exact .inr (.inl parsed)

/-- A flow mapping without quotation marks, and the array of no fields. -/
theorem not_readsEither_braces_brackets :
    ¬ ReadsEither "\x7bResources: \x7b\x7d\x7d" ∧ ¬ ReadsEither "[\x7b\x7d, \x7b\x7d]" := by
  refine ⟨fun reads => ?_, fun reads => ?_⟩
  · have yaml : (ofYamlText? "\x7bResources: \x7b\x7d\x7d").isSome := by decide +kernel
    have parsed := reads.accepts (.inr yaml)
    have fails : (parse? "\x7bResources: \x7b\x7d\x7d").isSome = false := by decide +kernel
    rw [fails] at parsed
    cases parsed
  · have json : (ofJsonText? "[\x7b\x7d, \x7b\x7d]").isSome := by decide +kernel
    have parsed := reads.accepts (.inl json)
    have fails : (parse? "[\x7b\x7d, \x7b\x7d]").isSome = false := by decide +kernel
    rw [fails] at parsed
    cases parsed

end Template

end StackSwap
