import Mathlib.Data.List.Basic
import Mathlib.Logic.Basic
import StackSwap.Text.Blank
import StackSwap.Yaml.Layout

/-! A step between two tokens adds tokens behind those that are there, or makes a key of the place
that is remembered for one; nothing else puts a token in front of another. -/

namespace StackSwap.Yaml

theorem skipToBreak_suffix (glyphs : List Glyph) : skipToBreak glyphs <:+ glyphs := by
  induction glyphs with
  | nil => exact List.suffix_rfl
  | cons glyph rest ih =>
    rw [skipToBreak]
    split
    · exact List.suffix_rfl
    · exact ih.trans (List.suffix_cons glyph rest)

theorem atMarker_of_ne {mark : Char} {glyph : Glyph} (rest : List Glyph)
    (other : glyph.char ≠ mark) : atMarker mark (glyph :: rest) = false := by
  rcases rest with _ | ⟨second, _ | ⟨third, rest⟩⟩
  · rfl
  · rfl
  · simp [atMarker, other]

namespace Layout

variable {layout next : Layout} {glyph : Glyph} {glyphs rest after : List Glyph}

/-- Looking for the next token passes over some of the text, and learns only whether a key may
start. -/
theorem exists_toToken (layout : Layout) (fuel : Nat) (glyphs : List Glyph) :
    ∃ keyAllowed rest, rest <:+ glyphs ∧
      layout.toToken fuel glyphs = ({ layout with keyAllowed }, rest) := by
  induction layout, fuel, glyphs using toToken.induct with
  | case1 layout glyphs => exact ⟨_, _, List.suffix_rfl, rfl⟩
  | case2 layout => exact ⟨_, _, List.suffix_rfl, rfl⟩
  | case3 layout fuel glyph rest passed ih =>
    obtain ⟨keyAllowed, after, shorter, reached⟩ := ih
    exact ⟨keyAllowed, after, shorter.trans (List.suffix_cons glyph rest),
      by rw [toToken, if_pos passed, reached]⟩
  | case4 layout fuel glyph rest here comment ih =>
    obtain ⟨keyAllowed, after, shorter, reached⟩ := ih
    have skipped := (shorter.trans (skipToBreak_suffix rest)).trans (List.suffix_cons glyph rest)
    exact ⟨keyAllowed, after, skipped, by rw [toToken, if_neg here, if_pos comment, reached]⟩
  | case5 layout fuel glyph rest here comment breaks ih =>
    obtain ⟨keyAllowed, after, shorter, reached⟩ := ih
    exact ⟨keyAllowed, after, shorter.trans (List.suffix_cons glyph rest),
      by rw [toToken, if_neg here, if_neg comment, if_pos breaks, reached]⟩
  | case6 layout fuel glyph rest here comment stays =>
    exact ⟨layout.keyAllowed, glyph :: rest, List.suffix_rfl,
      by rw [toToken, if_neg here, if_neg comment, if_neg stays]⟩

/-- At white space a step can only start a plain scalar. -/
theorem of_step?_blank (blank : Text.isBlank glyph.char)
    (stepped : layout.step? glyph rest = some (next, after)) :
    startsPlain layout.inFlow (glyph :: rest) ∧
      ∃ noted text broken, layout.noteKey? glyph = some noted ∧
        plain? layout.inFlow layout.margin (rest.length + 1) (glyph :: rest) =
          some (text, broken, after) ∧
        next = { noted with keyAllowed := broken }.push (.scalar true (String.ofList text)) := by
  have other (char : Char) (marks : Text.isBlank char = false) : glyph.char ≠ char :=
    fun same => by simp [← same, blank] at marks
  rw [step?] at stepped
  simp only [atMarker_of_ne rest (other '-' rfl), atMarker_of_ne rest (other '.' rfl),
    other '%' rfl, other '[' rfl, other '\x7b' rfl, other ']' rfl, other '\x7d' rfl,
    other ',' rfl, other '-' rfl, other '?' rfl, other ':' rfl, other '*' rfl, other '&' rfl,
    other '!' rfl, other '|' rfl, other '>' rfl, other '\'' rfl, other '"' rfl,
    decide_false, Bool.and_false, Bool.false_and, Bool.or_self, Bool.false_eq_true,
    if_false] at stepped
  rcases ite_eq_iff.mp stepped with ⟨starts, stepped⟩ | ⟨_, stepped⟩
  · obtain ⟨noted, notes, stepped⟩ := Option.bind_eq_some_iff.mp stepped
    obtain ⟨⟨text, broken, rest⟩, reads, same⟩ := Option.bind_eq_some_iff.mp stepped
    cases same
    exact ⟨starts, noted, text, broken, notes, reads, rfl⟩
  · cases stepped

theorem suffix_closeUntil (keep : Nat → Bool) (columns : List Nat) (tokens : List Token) :
    tokens <:+ (closeUntil keep columns tokens).2 := by
  induction columns, tokens using closeUntil.induct keep with
  | case1 tokens => exact List.suffix_rfl
  | case2 column columns tokens kept =>
    have stays : closeUntil keep (column :: columns) tokens = (column :: columns, tokens) := by
      rw [closeUntil, if_pos kept]
    exact stays ▸ List.suffix_rfl
  | case3 column columns tokens closed ih =>
    rw [closeUntil, if_neg closed]
    exact (List.suffix_cons _ tokens).trans ih

/-- The possible keys that are remembered, the one of the innermost flow collection first. -/
def places (layout : Layout) : List (Option KeyPlace) := layout.keyPlace :: layout.outer

/-- All of these places are old ones, or have at least some number of tokens in front of them. -/
def Recalls (count : Nat) (old places : List (Option KeyPlace)) : Prop :=
  ∀ place, some place ∈ places → some place ∈ old ∨ count ≤ place.number

/-- Tokens were only added behind the others, and so were the places that are remembered. -/
structure Extends (layout next : Layout) : Prop where
  tokens : layout.tokens <:+ next.tokens
  places : Recalls layout.tokens.length layout.places next.places
  /-- This holds of the places inside of flow collections by themselves. -/
  inner : Recalls layout.tokens.length layout.places.dropLast next.places.dropLast

theorem Recalls.trans {count later : Nat} {first second third : List (Option KeyPlace)}
    (recalls : Recalls count first second) (again : Recalls later second third)
    (le : count ≤ later) : Recalls count first third := by
  intro place remembered
  rcases again place remembered with old | beyond
  · exact recalls place old
  · exact .inr (Nat.le_trans le beyond)

theorem eq_of_dropKey? (dropped : layout.dropKey? = some next) :
    next = { layout with keyPlace := none } := by
  rw [dropKey?] at dropped
  split at dropped
  · split at dropped <;> cases dropped
    rfl
  case h_2 noPlace =>
    cases dropped
    rw [← noPlace]

/-- A key that is noted starts behind all tokens, unless it was noted before. -/
theorem exists_keyPlace_of_noteKey? (noted : layout.noteKey? glyph = some next) :
    ∃ keyPlace, next = { layout with keyPlace } ∧ ∀ place, keyPlace = some place →
      layout.keyPlace = some place ∨ layout.tokens.length ≤ place.number := by
  rw [noteKey?] at noted
  split at noted
  · obtain ⟨dropped, drops, same⟩ := Option.bind_eq_some_iff.mp noted
    rw [eq_of_dropKey? drops] at same
    cases same
    refine ⟨_, rfl, fun place here => .inr ?_⟩
    cases here
    exact Nat.le_refl _
  · cases noted
    exact ⟨_, rfl, fun _ => .inl⟩

namespace Extends

theorem refl (layout : Layout) : Extends layout layout :=
  ⟨List.suffix_rfl, fun _ => .inl, fun _ => .inl⟩

theorem trans {last : Layout} (extended : Extends layout next) (again : Extends next last) :
    Extends layout last :=
  ⟨extended.tokens.trans again.tokens,
    extended.places.trans again.places extended.tokens.length_le,
    extended.inner.trans again.inner extended.tokens.length_le⟩

/-- Outside of a change of the flow collections, only the place of this level counts. -/
theorem of_keyPlace (tokens : layout.tokens <:+ next.tokens) (outer : next.outer = layout.outer)
    (here : ∀ place, next.keyPlace = some place →
      layout.keyPlace = some place ∨ layout.tokens.length ≤ place.number) :
    Extends layout next := by
  refine ⟨tokens, ?_, ?_⟩
  · intro place remembered
    rcases List.mem_cons.mp remembered with atKey | outside
    · exact (here place atKey.symm).imp_left fun same => List.mem_cons.mpr (.inl same.symm)
    · exact .inl (List.mem_cons_of_mem _ (outer ▸ outside))
  · rw [Layout.places, Layout.places, outer]
    cases layout.outer with
    | nil => exact fun _ remembered => nomatch remembered
    | cons first others =>
      intro place remembered
      rw [List.dropLast_cons_cons] at remembered ⊢
      rcases List.mem_cons.mp remembered with atKey | outside
      · exact (here place atKey.symm).imp_left fun same => List.mem_cons.mpr (.inl same.symm)
      · exact .inl (List.mem_cons_of_mem _ outside)

theorem of_same (tokens : layout.tokens <:+ next.tokens) (outer : next.outer = layout.outer)
    (keyPlace : next.keyPlace = layout.keyPlace) : Extends layout next :=
  of_keyPlace tokens outer fun _ here => .inl (keyPlace ▸ here)

theorem push (layout : Layout) (token : Token) : Extends layout (layout.push token) :=
  of_same (List.suffix_cons token layout.tokens) rfl rfl

theorem allowing (layout : Layout) (keyAllowed : Bool) :
    Extends layout { layout with keyAllowed } :=
  of_same List.suffix_rfl rfl rfl

theorem then_push (extended : Extends layout next) (keyAllowed : Bool) (token : Token) :
    Extends layout ({ next with keyAllowed }.push token) :=
  (extended.trans (allowing next keyAllowed)).trans (push _ token)

theorem closeBeyond (layout : Layout) (column : Nat) :
    Extends layout (layout.closeBeyond column) := by
  rw [Layout.closeBeyond]
  split
  · exact refl layout
  · exact of_same (suffix_closeUntil _ _ _) rfl rfl

theorem closeAll (layout : Layout) : Extends layout layout.closeAll := by
  rw [Layout.closeAll]
  split
  · exact refl layout
  · exact of_same (suffix_closeUntil _ _ _) rfl rfl

theorem openBlock (layout : Layout) (column : Nat) (token : Token) :
    Extends layout (layout.openBlock column layout.tokens.length token) := by
  rw [Layout.openBlock]
  split
  · exact refl layout
  · refine of_same ?_ rfl rfl
    simp only [insertAt, Token.insertAt, Nat.sub_self, List.insertIdx_zero]
    exact List.suffix_cons token layout.tokens

theorem of_dropKey? (dropped : layout.dropKey? = some next) : Extends layout next := by
  rw [eq_of_dropKey? dropped]
  exact of_keyPlace List.suffix_rfl rfl fun _ here => nomatch here

theorem of_noteKey? (noted : layout.noteKey? glyph = some next) : Extends layout next := by
  obtain ⟨keyPlace, rfl, here⟩ := exists_keyPlace_of_noteKey? noted
  exact of_keyPlace List.suffix_rfl rfl here

theorem of_node? {token : Token} (added : layout.node? glyph token = some next) :
    Extends layout next := by
  obtain ⟨noted, notes, same⟩ := Option.bind_eq_some_iff.mp added
  cases same
  exact (of_noteKey? notes).then_push false token

theorem of_openFlow? {token : Token} (opened : layout.openFlow? glyph token = some next) :
    Extends layout next := by
  obtain ⟨noted, notes, same⟩ := Option.bind_eq_some_iff.mp opened
  cases same
  refine (of_noteKey? notes).trans ⟨List.suffix_cons token noted.tokens, ?_, ?_⟩
  · intro _ remembered
    exact .inl ((List.mem_cons.mp remembered).resolve_left nofun)
  · intro _ remembered
    exact .inl ((List.mem_cons.mp remembered).resolve_left nofun)

theorem of_closeFlow? {token : Token} (closed : layout.closeFlow? token = some next) :
    Extends layout next := by
  obtain ⟨dropped, drops, same⟩ := Option.bind_eq_some_iff.mp closed
  cases same
  refine (of_dropKey? drops).trans (then_push ?_ false token)
  rcases outer : dropped.outer with _ | ⟨keyPlace, others⟩
  · exact refl dropped
  · refine ⟨List.suffix_rfl, ?_, ?_⟩
    · rw [Layout.places, Layout.places, outer]
      exact fun _ remembered => .inl (List.mem_cons_of_mem _ remembered)
    · rw [Layout.places, Layout.places, outer, List.dropLast_cons_cons]
      exact fun _ remembered => .inl (List.mem_cons_of_mem _ remembered)

theorem of_marker? {token : Token} (marked : layout.marker? token = some next) :
    Extends layout next := by
  obtain ⟨dropped, drops, same⟩ := Option.bind_eq_some_iff.mp marked
  cases same
  exact ((closeAll layout).trans (of_dropKey? drops)).then_push false token

theorem of_hyphen (entered : layout.blockEntry? glyph = some next) : Extends layout next := by
  unfold blockEntry? at entered
  split at entered
  · cases entered
  obtain ⟨dropped, drops, same⟩ := Option.bind_eq_some_iff.mp entered
  cases same
  exact ((openBlock layout _ _).trans (of_dropKey? drops)).then_push true _

theorem of_complexKey? (entered : layout.complexKey? glyph = some next) :
    Extends layout next := by
  rw [complexKey?] at entered
  split at entered
  · cases entered
  obtain ⟨dropped, drops, same⟩ := Option.bind_eq_some_iff.mp entered
  cases same
  exact ((openBlock layout _ _).trans (of_dropKey? drops)).then_push _ _

theorem of_plainValue? (entered : value?.plainValue? glyph layout = some next) :
    Extends layout next := by
  rw [value?.plainValue?] at entered
  split at entered <;> cases entered
  exact (openBlock layout _ _).then_push _ _

theorem of_readNode {α : Type} {found : Option (α × List Glyph)} (token : α → Token)
    (stepped : (do
      let (value, rest) ← found
      return (← layout.node? glyph (token value), rest)) = some (next, after)) :
    Extends layout next := by
  obtain ⟨⟨value, rest⟩, _, stepped⟩ := Option.bind_eq_some_iff.mp stepped
  obtain ⟨added, adds, same⟩ := Option.bind_eq_some_iff.mp stepped
  cases same
  exact of_node? adds

theorem of_map {found : Option Layout} (each : found = some next → Extends layout next)
    (stepped : found.map (·, rest) = some (next, after)) : Extends layout next := by
  obtain ⟨moved, moves, same⟩ := Option.map_eq_some_iff.mp stepped
  cases same
  exact each moves

end Extends

/-- The place of this level became a key: its token went to that place, perhaps with one that opens
a block mapping in front of it. -/
structure Keys (layout next : Layout) (place : KeyPlace) : Prop where
  here : layout.keyPlace = some place
  tokens : next.tokens = .value :: Token.insertAt layout.tokens place.number .key ∨
    next.tokens = .value ::
      Token.insertAt (Token.insertAt layout.tokens place.number .key) place.number .blockMapping
  places : next.places = none :: layout.outer

theorem of_value? (valued : layout.value? glyph = some next) :
    Extends layout next ∨ ∃ place, Keys layout next place := by
  rw [value?] at valued
  split at valued
  case h_1 place here =>
    split at valued
    · cases valued
      refine .inr ⟨place, here, ?_, ?_⟩
      · simp only [openBlock]
        split
        · exact .inl rfl
        · exact .inr rfl
      · simp only [openBlock]
        split <;> rfl
    · split at valued
      · cases valued
      · exact .inl (.of_plainValue? valued)
  case h_2 => exact .inl (.of_plainValue? valued)

/-- A step only adds tokens behind the others, but for a colon, which may make a key of the place
that is remembered. -/
theorem step?_cases (stepped : layout.step? glyph rest = some (next, after)) :
    Extends layout next ∨ ∃ place, Keys layout next place := by
  rw [step?] at stepped
  -- the branches of the step in their order, for one kind of token each
  rcases ite_eq_iff.mp stepped with ⟨_, stepped⟩ | ⟨_, stepped⟩
  · obtain ⟨dropped, drops, stepped⟩ := Option.bind_eq_some_iff.mp stepped
    obtain ⟨⟨directive, after⟩, _, same⟩ := Option.bind_eq_some_iff.mp stepped
    cases same
    exact .inl (((Extends.closeAll layout).trans (.of_dropKey? drops)).then_push false _)
  rcases ite_eq_iff.mp stepped with ⟨_, stepped⟩ | ⟨_, stepped⟩
  · exact .inl (.of_map .of_marker? stepped)
  rcases ite_eq_iff.mp stepped with ⟨_, stepped⟩ | ⟨_, stepped⟩
  · exact .inl (.of_map .of_marker? stepped)
  rcases ite_eq_iff.mp stepped with ⟨_, stepped⟩ | ⟨_, stepped⟩
  · exact .inl (.of_map .of_openFlow? stepped)
  rcases ite_eq_iff.mp stepped with ⟨_, stepped⟩ | ⟨_, stepped⟩
  · exact .inl (.of_map .of_openFlow? stepped)
  rcases ite_eq_iff.mp stepped with ⟨_, stepped⟩ | ⟨_, stepped⟩
  · exact .inl (.of_map .of_closeFlow? stepped)
  rcases ite_eq_iff.mp stepped with ⟨_, stepped⟩ | ⟨_, stepped⟩
  · exact .inl (.of_map .of_closeFlow? stepped)
  rcases ite_eq_iff.mp stepped with ⟨_, stepped⟩ | ⟨_, stepped⟩
  · obtain ⟨dropped, drops, same⟩ := Option.bind_eq_some_iff.mp stepped
    cases same
    exact .inl ((Extends.of_dropKey? drops).then_push true _)
  rcases ite_eq_iff.mp stepped with ⟨_, stepped⟩ | ⟨_, stepped⟩
  · exact .inl (.of_map .of_hyphen stepped)
  rcases ite_eq_iff.mp stepped with ⟨_, stepped⟩ | ⟨_, stepped⟩
  · exact .inl (.of_map .of_complexKey? stepped)
  rcases ite_eq_iff.mp stepped with ⟨_, stepped⟩ | ⟨_, stepped⟩
  · obtain ⟨valued, values, same⟩ := Option.map_eq_some_iff.mp stepped
    cases same
    exact of_value? values
  rcases ite_eq_iff.mp stepped with ⟨_, stepped⟩ | ⟨_, stepped⟩
  · exact .inl (.of_readNode .alias stepped)
  rcases ite_eq_iff.mp stepped with ⟨_, stepped⟩ | ⟨_, stepped⟩
  · exact .inl (.of_readNode .anchor stepped)
  rcases ite_eq_iff.mp stepped with ⟨_, stepped⟩ | ⟨_, stepped⟩
  · exact .inl (.of_readNode .tag stepped)
  rcases ite_eq_iff.mp stepped with ⟨_, stepped⟩ | ⟨_, stepped⟩
  · obtain ⟨dropped, drops, stepped⟩ := Option.bind_eq_some_iff.mp stepped
    obtain ⟨⟨text, after⟩, _, same⟩ := Option.bind_eq_some_iff.mp stepped
    cases same
    exact .inl ((Extends.of_dropKey? drops).then_push true _)
  rcases ite_eq_iff.mp stepped with ⟨_, stepped⟩ | ⟨_, stepped⟩
  · exact .inl (.of_readNode (fun text => .scalar false (String.ofList text)) stepped)
  rcases ite_eq_iff.mp stepped with ⟨_, stepped⟩ | ⟨_, stepped⟩
  · obtain ⟨noted, notes, stepped⟩ := Option.bind_eq_some_iff.mp stepped
    obtain ⟨⟨text, broken, after⟩, _, same⟩ := Option.bind_eq_some_iff.mp stepped
    cases same
    exact .inl ((Extends.of_noteKey? notes).then_push broken _)
  · cases stepped

end Layout

end StackSwap.Yaml
