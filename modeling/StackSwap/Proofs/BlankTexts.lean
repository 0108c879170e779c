import Mathlib.Data.List.Basic
import Mathlib.Logic.Basic
import StackSwap.Proofs.Scanning
import StackSwap.Template.Text

/-! Some white space is neither a blank nor a line break of the older edition, so a text of nothing
else may hold plain scalars. Without any token it is the empty template. -/

namespace StackSwap

theorem Text.isBlank_of_isBlank {char : Char} (blank : Json.Document.isBlank char) :
    Text.isBlank char := by
  simp only [Json.Document.isBlank, Bool.or_eq_true, decide_eq_true_eq] at blank
  rcases blank with ((rfl | rfl) | rfl) | rfl <;> rfl

namespace Yaml

variable {glyphs rest : List Glyph}

theorem plainWord?_suffix {inFlow : Bool} {word : List Char}
    (read : plainWord? inFlow glyphs = some (word, rest)) : rest <:+ glyphs := by
  induction glyphs generalizing word rest with
  | nil =>
    cases read
    exact List.suffix_rfl
  | cons glyph glyphs ih =>
    rcases ite_eq_iff.mp read with ⟨_, read⟩ | ⟨_, read⟩
    · cases read
      exact List.suffix_rfl
    rcases ite_eq_iff.mp read with ⟨_, read⟩ | ⟨_, read⟩
    · cases read
    rcases ite_eq_iff.mp read with ⟨_, read⟩ | ⟨_, read⟩
    · cases read
      exact List.suffix_rfl
    · obtain ⟨⟨chars, left⟩, reads, same⟩ := Option.map_eq_some_iff.mp read
      cases same
      exact (ih reads).trans (List.suffix_cons glyph glyphs)

theorem Gap.read?_suffix {margin : Nat} {gap found : Gap}
    (read : gap.read? margin glyphs = some (found, rest)) : rest <:+ glyphs := by
  induction glyphs generalizing gap with
  | nil =>
    cases read
    exact List.suffix_rfl
  | cons glyph glyphs ih =>
    have later {gap : Gap} (read : gap.read? margin glyphs = some (found, rest)) :
        rest <:+ glyph :: glyphs := (ih read).trans (List.suffix_cons glyph glyphs)
    rw [Gap.read?] at read
    split at read
    · split at read
      · exact later read
      · split at read
        · cases read
        · exact later read
    · split at read
      · split at read <;> exact later read
      · cases read
        exact List.suffix_rfl

theorem plain?_suffix {inFlow broken : Bool} {margin fuel : Nat} {text : List Char}
    (read : plain? inFlow margin fuel glyphs = some (text, broken, rest)) : rest <:+ glyphs := by
  induction fuel generalizing glyphs text broken rest with
  | zero => cases read
  | succ fuel ih =>
    obtain ⟨⟨word, behind⟩, ofWord, read⟩ := Option.bind_eq_some_iff.mp read
    obtain ⟨⟨gap, next⟩, ofGap, read⟩ := Option.bind_eq_some_iff.mp read
    have passed := (Gap.read?_suffix ofGap).trans (plainWord?_suffix ofWord)
    rcases ite_eq_iff.mp read with ⟨_, read⟩ | ⟨_, read⟩
    · cases read
      exact passed
    · obtain ⟨⟨more, breaks, after⟩, ofMore, read⟩ := Option.bind_eq_some_iff.mp read
      have ended : rest = after := by
        rcases ite_eq_iff.mp read with ⟨_, read⟩ | ⟨_, read⟩ <;> cases read <;> rfl
      rw [ended]
      exact (ih ofMore).trans passed

/-- A text of nothing but white space. -/
def AllBlank (glyphs : List Glyph) : Prop := ∀ glyph ∈ glyphs, Text.isBlank glyph.char

theorem AllBlank.of_suffix (blank : AllBlank glyphs) (shorter : rest <:+ glyphs) : AllBlank rest :=
  fun glyph member => blank glyph (shorter.subset member)

theorem map_char_placed (edition : Edition) (line column index : Nat) (leads : Bool)
    (chars : List Char) :
    (placed edition line column index leads chars).map Glyph.char = chars := by
  induction chars generalizing line column index leads with
  | nil => rfl
  | cons char rest ih =>
    rw [placed, List.map_cons]
    split
    · rw [ih]
    · rw [ih]

theorem forall_isBlank_unifyBreaks (edition : Edition) (chars : List Char)
    (blank : ∀ char ∈ chars, Text.isBlank char) :
    ∀ char ∈ unifyBreaks edition chars, Text.isBlank char := by
  induction chars using unifyBreaks.induct with
  | case1 => exact blank
  | case2 rest ih =>
    rw [unifyBreaks]
    have behind := (List.forall_mem_cons.mp (List.forall_mem_cons.mp blank).2).2
    exact List.forall_mem_cons.mpr ⟨rfl, ih behind⟩
  | case3 char rest notBoth ih =>
    rw [unifyBreaks]
    · refine List.forall_mem_cons.mpr ⟨?_, ih (List.forall_mem_cons.mp blank).2⟩
      split
      · rfl
      · exact (List.forall_mem_cons.mp blank).1
    · exact notBoth

/-- Without a byte order mark in front, all characters of the text are read. -/
theorem eq_placed_of_glyphs? {text : String}
    (noMark : ∀ char, text.toList.head? = some char → isOrderMark char = false)
    (read : glyphs? .v11 text = some glyphs) :
    glyphs = placed .v11 0 0 0 true (unifyBreaks .v11 text.toList) := by
  rw [glyphs?] at read
  rcases chars : text.toList with _ | ⟨char, rest⟩
  · rw [chars] at read
    cases read
    rfl
  · have marked : isOrderMark char = false := noMark char (by rw [chars]; rfl)
    rw [chars] at read
    simp only [marked, Bool.false_eq_true, if_false] at read
    rcases ite_eq_iff.mp read with ⟨_, read⟩ | ⟨_, read⟩ <;> cases read
    rfl

theorem isOrderMark_of_isBlank {char : Char} (blank : Text.isBlank char) :
    isOrderMark char = false := by
  rw [isOrderMark, decide_eq_false_iff_not]
  intro mark
  simp [Text.isBlank, mark] at blank

theorem allBlank_of_glyphs? {text : String} (blank : ∀ char ∈ text.toList, Text.isBlank char)
    (read : glyphs? .v11 text = some glyphs) : AllBlank glyphs := by
  intro glyph member
  apply forall_isBlank_unifyBreaks .v11 text.toList blank
  rw [eq_placed_of_glyphs? _ read] at member
  · rw [← map_char_placed .v11 0 0 0 true (unifyBreaks .v11 text.toList)]
    exact List.mem_map_of_mem member
  · exact fun char first => isOrderMark_of_isBlank (blank char (List.mem_of_mem_head? first))

/-- A plain scalar, and no token of structure. -/
def Token.IsPlain (token : Token) : Prop := ∃ text, token = .scalar true text

namespace Layout

variable {layout next : Layout} {glyph : Glyph} {after : List Glyph}

/-- No block or flow collection is open, and all tokens are plain scalars. -/
structure Bare (layout : Layout) : Prop where
  columns : layout.columns = []
  outer : layout.outer = []
  tokens : ∀ token ∈ layout.tokens, token.IsPlain

namespace Bare

theorem allowing (bare : layout.Bare) (keyAllowed : Bool) :
    Bare { layout with keyAllowed } := ⟨bare.columns, bare.outer, bare.tokens⟩

theorem closeBeyond_eq (bare : layout.Bare) (column : Nat) :
    layout.closeBeyond column = layout := by
  obtain ⟨tokens, columns, keyPlace, outer, keyAllowed⟩ := layout
  obtain ⟨rfl, rfl, _⟩ := bare
  rfl

theorem closeAll_eq (bare : layout.Bare) : layout.closeAll = layout := by
  obtain ⟨tokens, columns, keyPlace, outer, keyAllowed⟩ := layout
  obtain ⟨rfl, rfl, _⟩ := bare
  rfl

theorem of_step? (bare : layout.Bare) (blank : AllBlank (glyph :: rest))
    (stepped : layout.step? glyph rest = some (next, after)) : next.Bare ∧ AllBlank after := by
  obtain ⟨_, noted, text, broken, notes, reads, rfl⟩ :=
    of_step?_blank (blank glyph List.mem_cons_self) stepped
  obtain ⟨keyPlace, rfl, _⟩ := exists_keyPlace_of_noteKey? notes
  refine ⟨⟨bare.columns, bare.outer, ?_⟩, blank.of_suffix (plain?_suffix reads)⟩
  exact List.forall_mem_cons.mpr ⟨⟨_, rfl⟩, bare.tokens⟩

theorem of_run? {fuel : Nat} {tokens : List Token} (bare : layout.Bare) (blank : AllBlank glyphs)
    (ran : run? fuel layout glyphs = some tokens) : ∀ token ∈ tokens, token.IsPlain := by
  induction fuel generalizing layout glyphs with
  | zero => cases ran
  | succ fuel ih =>
    obtain ⟨keyAllowed, left, shorter, reached⟩ :=
      exists_toToken layout (glyphs.length + 1) glyphs
    replace bare := bare.allowing keyAllowed
    replace blank := blank.of_suffix shorter
    rw [run?, reached] at ran
    rcases left with _ | ⟨glyph, rest⟩
    · obtain ⟨dropped, drops, rfl⟩ := Option.map_eq_some_iff.mp ran
      rw [bare.closeAll_eq] at drops
      rw [eq_of_dropKey? drops]
      exact fun token member => bare.tokens token (List.mem_reverse.mp member)
    · obtain ⟨⟨next, after⟩, stepped, ran⟩ := Option.bind_eq_some_iff.mp ran
      rw [bare.closeBeyond_eq] at stepped
      obtain ⟨bare, blank⟩ := bare.of_step? blank stepped
      exact ih bare blank ran

end Bare

end Layout

theorem Token.isPlain_of_ofText? {text : String} {tokens : List Token}
    (blank : ∀ char ∈ text.toList, Text.isBlank char)
    (read : Token.ofText? text = some tokens) : ∀ token ∈ tokens, token.IsPlain := by
  obtain ⟨glyphs, placed, ran⟩ := Option.bind_eq_some_iff.mp read
  have bare : Layout.Bare {} := ⟨rfl, rfl, List.forall_mem_nil _⟩
  exact bare.of_run? (allBlank_of_glyphs? blank placed) ran

theorem Read.node_plain (edition : Edition) (handles : List (String × String)) (text : String)
    (others : List Token) :
    Read.runOn? edition handles (.scalar true text :: others) (fun fuel => node fuel true false) =
      some (.scalar none true text, others) := by
  rw [runOn?, List.length_cons, Nat.mul_succ, node]
  simp [peek, properties, anchored, skip, scalarTag]

namespace Node

theorem explicitDocuments?_plain {fuel : Nat} {tokens : List Token} {nodes : List Node}
    (plain : ∀ token ∈ tokens, token.IsPlain)
    (read : explicitDocuments? fuel tokens = some nodes) : tokens = [] ∧ nodes = [] := by
  cases fuel with
  | zero => cases read
  | succ fuel =>
    rcases tokens with _ | ⟨token, others⟩
    · cases read
      exact ⟨rfl, rfl⟩
    · obtain ⟨text, rfl⟩ := plain token List.mem_cons_self
      cases read

theorem documents?_of_blank {text : String} {nodes : List Node}
    (blank : ∀ char ∈ text.toList, Text.isBlank char)
    (read : documents? text = some nodes) :
    nodes = [] ∨ ∃ text, nodes = [.scalar none true text] := by
  obtain ⟨tokens, scanned, read⟩ := Option.bind_eq_some_iff.mp read
  have plain := Token.isPlain_of_ofText? blank scanned
  rcases tokens with _ | ⟨token, others⟩
  · exact .inl (explicitDocuments?_plain plain read).2
  · obtain ⟨⟨text, rfl⟩, othersPlain⟩ := List.forall_mem_cons.mp plain
    obtain ⟨⟨node, left⟩, ran, read⟩ := Option.bind_eq_some_iff.mp read
    obtain ⟨later, more, same⟩ := Option.bind_eq_some_iff.mp read
    rw [Read.node_plain] at ran
    cases ran
    cases same
    rw [(explicitDocuments?_plain othersPlain more).2]
    exact .inr ⟨text, rfl⟩

theorem parse?_of_blank {known : List (String × Shape)} {text : String} {value : Json}
    (blank : ∀ char ∈ text.toList, Text.isBlank char)
    (read : parse? (.record known) text = some value) : value = .obj [] := by
  obtain ⟨nodes, documents, read⟩ := Option.bind_eq_some_iff.mp read
  rcases documents?_of_blank blank documents with rfl | ⟨text, rfl⟩
  · cases read
    rfl
  · rcases ite_eq_iff.mp read with ⟨_, read⟩ | ⟨_, read⟩ <;> cases read
    rfl

end Node

end Yaml

namespace Template

/-- A blank text reads as the empty template in YAML, if it is read at all. -/
theorem ofYamlText?_of_blank {body : String} {template : Template}
    (blank : ∀ char ∈ body.toList, Text.isBlank char)
    (read : ofYamlText? body = some template) : template = {} := by
  obtain ⟨value, parsed, decoded⟩ := Option.bind_eq_some_iff.mp read
  rw [Yaml.Node.parse?_of_blank blank parsed] at decoded
  cases decoded
  rfl

end Template

end StackSwap
