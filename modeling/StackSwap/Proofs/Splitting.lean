import Mathlib.Algebra.Group.Nat.Defs
import StackSwap.Proofs.Pieces
import StackSwap.Proofs.Rendering

namespace StackSwap

namespace Text

theorem intercalate_split (delimiter text : String) :
    delimiter.intercalate (split delimiter text) = text := by
  apply String.toList_injective
  rw [String.toList_intercalate, split, List.map_map]
  simpa [Function.comp_def] using intercalate_pieces delimiter.toList text.toList

theorem split_intercalate {separator : Char} {parts : List String} (nonempty : parts ≠ [])
    (whole : ∀ part ∈ parts, separator ∉ part.toList) :
    split (String.singleton separator) ((String.singleton separator).intercalate parts) = parts := by
  have wholeChars : ∀ part ∈ parts.map String.toList, separator ∉ part := by simpa using whole
  have cut := pieces_intercalate (by simpa using nonempty) wholeChars
  rw [split, String.toList_intercalate, String.toList_singleton, cut, List.map_map]
  simp [Function.comp_def]

/-! Reading an index -/

theorem natural?_eq_some_iff {digits : List Char} {value : Nat} :
    natural? digits = some value ↔
      digits ≠ [] ∧ (∀ char ∈ digits, char.isDigit = true) ∧ natural digits = value := by
  simp [natural?, and_assoc]

/-- A plus sign is passed over once; it is no digit. -/
theorem unsigned?_eq_some_iff {text : String} {value : Nat} :
    unsigned? text = some value ↔
      ∃ digits, (text.toList = digits ∨ text.toList = '+' :: digits) ∧
        natural? digits = some value ∧ value < 2 ^ 64 := by
  have read (digits : List Char) : (do
      let value ← natural? digits
      if value < Nat.pow 2 64 then return value else none) = some value ↔
        natural? digits = some value ∧ value < 2 ^ 64 := by
    simp only [Option.bind_eq_bind, Option.bind_eq_some_iff]
    constructor
    · rintro ⟨other, made, fits⟩
      split at fits
      · cases fits
        exact ⟨made, ‹_›⟩
      · cases fits
    · rintro ⟨made, fits⟩
      exact ⟨value, made, if_pos fits⟩
  unfold unsigned?
  split
  · rename_i rest written
    rw [read, written]
    constructor
    · intro made
      exact ⟨rest, .inr rfl, made⟩
    · rintro ⟨digits, same | same, made, fits⟩
      · have decimal := (natural?_eq_some_iff.mp made).2.1 '+' (by simp [← same])
        exact absurd decimal (by decide)
      · cases same
        exact ⟨made, fits⟩
  · rename_i unsigned
    rw [read]
    constructor
    · intro made
      exact ⟨text.toList, .inl rfl, made⟩
    · rintro ⟨digits, same | same, made⟩
      · rwa [same]
      · exact absurd same (unsigned digits)

end Text

namespace Json

/-- The expression that joins values. -/
def joined (delimiter : String) (values : Json) : Json :=
  .obj [("Fn::Join", .arr [.str delimiter, values])]

/-- The expression that splits a text. -/
def cut (delimiter : String) (text : Json) : Json :=
  .obj [("Fn::Split", .arr [.str delimiter, text])]

/-- The expression that selects one of some values. -/
def selected (index values : Json) : Json := .obj [("Fn::Select", .arr [index, values])]

/-- The value names a position: as a natural number, or as the decimal digits of one below `2 ^ 64`,
perhaps with a plus sign in front. -/
inductive Indexes : Json → Nat → Prop where
  | number (position : Nat) : Indexes (.num (.int position)) position
  | digits {text : String} {digits : List Char}
    (written : text.toList = digits ∨ text.toList = '+' :: digits) (nonempty : digits ≠ [])
    (decimal : ∀ char ∈ digits, char.isDigit = true) (fits : Text.natural digits < 2 ^ 64) :
    Indexes (.str text) (Text.natural digits)

theorem indexes_iff {index : Json} {position : Nat} :
    index.Indexes position ↔ Intrinsic.index? index = some position := by
  constructor
  · intro indexes
    cases indexes with
    | number position => simp [Intrinsic.index?, Number.toNat?]
    | digits written nonempty decimal fits =>
      exact Text.unsigned?_eq_some_iff.mpr
        ⟨_, written, Text.natural?_eq_some_iff.mpr ⟨nonempty, decimal, rfl⟩, fits⟩
  · intro read
    cases index with
    | num number =>
      cases number with
      | int value =>
        simp only [Intrinsic.index?, Number.toNat?] at read
        split at read
        · rename_i natural
          obtain ⟨position, rfl⟩ := Int.eq_ofNat_of_zero_le natural
          cases read
          exact .number position
        · cases read
      | float value => cases read
    | str text =>
      obtain ⟨digits, written, made, fits⟩ := Text.unsigned?_eq_some_iff.mp read
      obtain ⟨nonempty, decimal, rfl⟩ := Text.natural?_eq_some_iff.mp made
      exact .digits written nonempty decimal fits
    | null | bool | arr | obj => cases read

variable {resolver : Resolver}

theorem evaluate_str (text : String) : (str text).evaluate resolver = .ok (.str text) := rfl

theorem evaluate_texts (texts : List String) :
    (arr (texts.map str)).evaluate resolver = .ok (.arr (texts.map str)) := by
  have each : List.Forall₂ (fun item result => evaluate resolver item = .ok result) (texts.map str)
      (texts.map str) := List.forall₂_same.mpr (List.forall_mem_map.mpr fun _ _ => rfl)
  rw [evaluate_arr, mapM_eq_ok_iff.mpr each]
  rfl

theorem evaluate_joined (delimiter : String) (values : Json) :
    (joined delimiter values).evaluate resolver =
      values.evaluate resolver >>= fun value => Intrinsic.join (.arr [.str delimiter, value]) := by
  rw [joined, evaluate_function (by decide)]
  simp only [evaluate_arr, List.mapM_cons, List.mapM_nil, bind_assoc, pure_bind]
  rfl

theorem evaluate_cut (delimiter : String) (text : Json) :
    (cut delimiter text).evaluate resolver =
      text.evaluate resolver >>= fun value => Intrinsic.split (.arr [.str delimiter, value]) := by
  rw [cut, evaluate_function (by decide)]
  simp only [evaluate_arr, List.mapM_cons, List.mapM_nil, bind_assoc, pure_bind]
  rfl

theorem evaluate_selected (index values : Json) :
    (selected index values).evaluate resolver =
      index.evaluate resolver >>= fun position => values.evaluate resolver >>= fun value =>
        Intrinsic.select (.arr [position, value]) := by
  rw [selected, evaluate_function (by decide)]
  simp only [evaluate_arr, List.mapM_cons, List.mapM_nil, bind_assoc, pure_bind]
  rfl

end Json

namespace Intrinsic

theorem join_texts (delimiter : String) (texts : List String) :
    join (.arr [.str delimiter, .arr (texts.map .str)]) =
      .ok (.str (delimiter.intercalate texts)) := by
  have scalars : (texts.map Json.str).mapM Json.scalarText? = some texts :=
    mapM_eq_some_iff.mpr (List.forall₂_map_left_iff.mpr (List.forall₂_same.mpr fun _ _ => rfl))
  simp [join, Json.str?, scalars, orRefuse, ok_bind]

theorem split_text (delimiter text : String) :
    split (.arr [.str delimiter, .str text]) = .ok (.arr ((Text.split delimiter text).map .str)) :=
  rfl

theorem select_eq_ok_iff {index result : Json} {values : List Json} :
    select (.arr [index, .arr values]) = .ok result ↔
      ∃ position, index.Indexes position ∧ values[position]? = some result := by
  simp only [select, bind_eq_ok_iff, orRefuse_eq_ok_iff, Json.indexes_iff]

end Intrinsic

namespace Scope

open Json

/-- Joins and splits are inverse. A split text joins to itself. Joined parts without the separator
split into themselves, and the part at an index is what a selection gives; of an index that names no
part a selection fails. -/
theorem evaluate_split_join (scope : Scope) :
    (∀ delimiter text, scope.evaluate (joined delimiter (cut delimiter (.str text))) =
      .ok (.str text)) ∧
    ∀ separator parts, parts ≠ [] → (∀ part ∈ parts, separator ∉ part.toList) →
      let delimiter := String.singleton separator
      let pieces := cut delimiter (joined delimiter (.arr (parts.map .str)))
      scope.evaluate pieces = .ok (.arr (parts.map .str)) ∧
      (∀ index value position part, scope.evaluate index = .ok value → value.Indexes position →
        parts[position]? = some part →
          scope.evaluate (selected index pieces) = .ok (.str part)) ∧
      ∀ index, (∀ value position, scope.evaluate index = .ok value → value.Indexes position →
        parts.length ≤ position) → ∃ error, scope.evaluate (selected index pieces) = .error error := by
  unfold evaluate
  constructor
  · intro delimiter text
    rw [evaluate_joined, evaluate_cut, evaluate_str, ok_bind, Intrinsic.split_text, ok_bind,
      Intrinsic.join_texts, Text.intercalate_split]
  · intro separator parts nonempty whole delimiter pieces
    have cutAgain : pieces.evaluate scope.resolver = .ok (.arr (parts.map .str)) := by
      rw [evaluate_cut, evaluate_joined, evaluate_texts, ok_bind, Intrinsic.join_texts, ok_bind,
        Intrinsic.split_text, Text.split_intercalate nonempty whole]
    have selection (index result : Json) :
        (selected index pieces).evaluate scope.resolver = .ok result ↔
          ∃ value position, index.evaluate scope.resolver = .ok value ∧ value.Indexes position ∧
            (parts.map Json.str)[position]? = some result := by
      simp only [evaluate_selected, cutAgain, bind_eq_ok_iff, ok_bind, Intrinsic.select_eq_ok_iff]
      simp
    refine ⟨cutAgain, ?_, ?_⟩
    · intro index value position part evaluated indexes found
      exact (selection index _).mpr ⟨value, position, evaluated, indexes, by simp [found]⟩
    · intro index outside
      cases made : (selected index pieces).evaluate scope.resolver with
      | error error => exact ⟨error, rfl⟩
      | ok result =>
        obtain ⟨value, position, evaluated, indexes, found⟩ := (selection index result).mp made
        obtain ⟨inside, _⟩ := List.getElem?_eq_some_iff.mp found
        have beyond := outside value position evaluated indexes
        rw [List.length_map] at inside
        omega

/-- Empty parts at both ends, an index with a plus sign and a zero in front, an index behind the last
part, and a delimiter whose occurrences overlap. -/
theorem evaluate_split_join_ends :
    let parts := ["", "eu-west-1", ""]
    let pieces := cut "," (joined "," (.arr (parts.map .str)))
    let index : Json := .str "+01"
    parts ≠ [] ∧ (∀ part ∈ parts, ',' ∉ part.toList) ∧ index.Indexes 1 ∧
      withBucket.evaluate pieces = .ok (.arr (parts.map .str)) ∧
      withBucket.evaluate (selected index pieces) = .ok (.str "eu-west-1") ∧
      (∃ error, withBucket.evaluate (selected (.num (.int 3)) pieces) = .error error) ∧
      withBucket.evaluate (joined "aa" (cut "aa" (.str "aaaba"))) = .ok (.str "aaaba") := by
  intro parts pieces index
  have nonempty : parts ≠ [] := List.cons_ne_nil _ _
  have whole : ∀ part ∈ parts, ',' ∉ part.toList := by decide
  have indexes : index.Indexes 1 := indexes_iff.mpr rfl
  obtain ⟨same, selection, failure⟩ := withBucket.evaluate_split_join.2 ',' parts nonempty whole
  refine ⟨nonempty, whole, indexes, same, selection index _ 1 _ rfl indexes rfl, ?_,
    withBucket.evaluate_split_join.1 "aa" "aaaba"⟩
  apply failure
  intro value position evaluated names
  cases evaluated
  cases names
  decide

end Scope

end StackSwap
