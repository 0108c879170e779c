import Mathlib.Data.List.Basic
import StackSwap.Text.Pieces

namespace StackSwap

namespace Text

variable {delimiter : List Char}

theorem piecesBetween_ne_nil (skip : Nat) (text : List Char) :
    piecesBetween delimiter skip text ≠ [] := by
  fun_induction piecesBetween delimiter skip text with
  | case2 _ _ _ ih => exact ih
  | _ => exact List.cons_ne_nil _ _

theorem intercalate_piecesBetween (nonempty : delimiter ≠ []) (skip : Nat) (text : List Char) :
    delimiter.intercalate (piecesBetween delimiter skip text) = text.drop skip := by
  fun_induction piecesBetween delimiter skip text with
  | case1 => simp
  | case2 _ _ _ ih => exact ih
  | case3 char rest occurs ih =>
    obtain ⟨first, others, rfl⟩ := List.exists_cons_of_ne_nil nonempty
    have whole := List.prefix_iff_eq_append.mp (List.isPrefixOf_iff_prefix.mp occurs)
    rw [List.intercalate_cons_of_ne_nil (piecesBetween_ne_nil _ _), ih, List.drop_zero]
    simpa using whole
  | case4 char rest _ nothing ih => exact absurd nothing (piecesBetween_ne_nil 0 rest)
  | case5 char rest _ piece pieces cut ih =>
    rw [List.intercalate_cons_cons_left, ← cut, ih, List.drop_zero, List.drop_zero]

theorem nil_intercalate (pieces : List (List Char)) : [].intercalate pieces = pieces.flatten := by
  induction pieces with
  | nil => rfl
  | cons piece rest ih =>
    cases rest with
    | nil => simp
    | cons second others => simp [List.intercalate_cons_cons, ih]

/-- The pieces of a text, joined by the delimiter, give the text back. -/
theorem intercalate_pieces (delimiter text : List Char) :
    delimiter.intercalate (pieces delimiter text) = text := by
  unfold pieces
  split
  · rename_i empty
    rw [List.isEmpty_iff.mp empty, nil_intercalate]
    simp [← List.flatMap_def]
  · rename_i nonempty
    exact intercalate_piecesBetween (by simpa using nonempty) 0 text

/-! A delimiter of one character -/

variable {separator : Char}

theorem piecesBetween_append {piece rest first : List Char} {later : List (List Char)}
    (whole : separator ∉ piece) (pieces : piecesBetween [separator] 0 rest = first :: later) :
    piecesBetween [separator] 0 (piece ++ rest) = (piece ++ first) :: later := by
  induction piece with
  | nil => exact pieces
  | cons char piece ih =>
    rw [List.mem_cons, not_or] at whole
    simp [piecesBetween, whole.1, ih whole.2]

/-- Pieces without the separator come back from their joined text. -/
theorem pieces_intercalate {parts : List (List Char)} (nonempty : parts ≠ [])
    (whole : ∀ part ∈ parts, separator ∉ part) :
    pieces [separator] ([separator].intercalate parts) = parts := by
  change piecesBetween [separator] 0 ([separator].intercalate parts) = parts
  induction parts with
  | nil => exact absurd rfl nonempty
  | cons part others ih =>
    have here := whole part (List.mem_cons_self ..)
    cases others with
    | nil =>
      have alone : piecesBetween [separator] 0 (part ++ []) = [part ++ []] :=
        piecesBetween_append here rfl
      simpa using alone
    | cons second rest =>
      have later := ih (List.cons_ne_nil _ _)
        (fun other member => whole other (List.mem_cons_of_mem _ member))
      have behind :
          piecesBetween [separator] 0 (separator :: [separator].intercalate (second :: rest)) =
            [] :: second :: rest := by
        simpa [piecesBetween] using later
      have joined := piecesBetween_append here behind
      rw [List.append_nil] at joined
      rw [List.intercalate_cons_cons, List.append_assoc, List.singleton_append]
      exact joined

end Text

end StackSwap
