import StackSwap.Json.Pointer
import StackSwap.Proofs.Pieces

namespace StackSwap

namespace Json.Path

/-- A text in which the tildes are escaped, but not the slashes. -/
def escapeTildes : List Char → List Char
  | [] => []
  | '~' :: rest => '~' :: '0' :: escapeTildes rest
  | char :: rest => char :: escapeTildes rest

/-- A character begins a pair only if it is the first of it. -/
theorem replacePair_cons {first second replacement char : Char} (other : char ≠ first)
    (rest : List Char) :
    replacePair first second replacement (char :: rest) =
      char :: replacePair first second replacement rest := by
  cases rest with
  | nil => rfl
  | cons next rest => simp [replacePair, other]

theorem replacePair_escape (text : List Char) :
    replacePair '~' '1' '/' (escape text) = escapeTildes text := by
  fun_induction escape text with
  | case1 => rfl
  | case2 rest ih =>
    have unpaired : ¬ ('0' = '1') := by decide
    simp [replacePair, replacePair_cons, unpaired, escapeTildes, ih]
  | case3 rest ih => simp [replacePair, escapeTildes, ih]
  | case4 char rest noTilde noSlash ih =>
    rw [replacePair_cons noTilde, ih, escapeTildes]
    exact noTilde

theorem replacePair_escapeTildes (text : List Char) :
    replacePair '~' '0' '~' (escapeTildes text) = text := by
  fun_induction escapeTildes text with
  | case1 => rfl
  | case2 rest ih => simp [replacePair, ih]
  | case3 char rest noTilde ih => rw [replacePair_cons noTilde, ih]

theorem unescape_escape (text : List Char) : unescape (escape text) = text := by
  rw [unescape, replacePair_escape, replacePair_escapeTildes]

theorem slash_not_mem_escape (text : List Char) : '/' ∉ escape text := by
  fun_induction escape text with
  | case1 => simp
  | case2 rest ih => simp [ih]
  | case3 rest ih => simp [ih]
  | case4 char rest noTilde noSlash ih => simp [ih, Ne.symm noSlash]

theorem piecesBetween_pointer (path : Path) :
    Text.piecesBetween ['/'] 0 path.pointer =
      [] :: path.map (fun segment => escape segment.toList) := by
  induction path with
  | nil => rfl
  | cons segment path ih =>
    have behind := Text.piecesBetween_append (slash_not_mem_escape segment.toList) ih
    rw [List.append_nil] at behind
    simpa [pointer, Text.piecesBetween] using behind

theorem ofPointer_pointer (path : Path) : ofPointer path.pointer = path := by
  cases path with
  | nil => rfl
  | cons segment path =>
    have nonempty : (pointer (segment :: path)).isEmpty = false := by simp [pointer]
    simp [ofPointer, nonempty, Text.pieces, piecesBetween_pointer, unescape_escape,
      Function.comp_def]

end Json.Path

end StackSwap
