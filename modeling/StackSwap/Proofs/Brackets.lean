import Mathlib.Data.List.Basic
import Mathlib.Data.Option.Basic
import Mathlib.Logic.Basic
import StackSwap.Proofs.BlankTexts
import StackSwap.Proofs.Scanning
import StackSwap.Template.Text

/-! A text that opens with a bracket is a sequence, or a mapping whose first key is one: the bracket
stays in front of all other tokens, but for those that make it a key. -/

namespace StackSwap.Yaml

/-- Tokens of which the first one starts a flow sequence, but for the mark of a key in front of it,
and the start of a block mapping in front of that. -/
inductive Token.OpenBracket : List Token → Prop where
  | sequence (rest : List Token) : OpenBracket (.flowSequence :: rest)
  | key (rest : List Token) : OpenBracket (.key :: .flowSequence :: rest)
  | mapping (rest : List Token) : OpenBracket (.blockMapping :: .key :: .flowSequence :: rest)

section Inserted

variable {opening tokens : List Token} {number : Nat} (token : Token)

theorem Token.suffix_insertAt (first : opening <:+ tokens) (behind : opening.length ≤ number) :
    opening <:+ Token.insertAt tokens number token := by
  obtain ⟨later, rfl⟩ := first
  have among : (later ++ opening).length - number ≤ later.length := by
    rw [List.length_append]
    omega
  rw [insertAt]
  generalize (later ++ opening).length - number = index at among
  induction later generalizing index with
  | nil =>
    rw [Nat.le_zero.mp among, List.insertIdx_zero]
    exact List.suffix_cons token opening
  | cons head later ih =>
    cases index with
    | zero => exact (List.suffix_append (head :: later) opening).trans (List.suffix_cons token _)
    | succ index =>
      rw [List.cons_append, List.insertIdx_succ_cons]
      exact (ih index (Nat.le_of_succ_le_succ among)).trans (List.suffix_cons head _)

theorem Token.suffix_insertAt_zero (first : opening <:+ tokens) :
    opening ++ [token] <:+ Token.insertAt tokens 0 token := by
  obtain ⟨later, rfl⟩ := first
  rw [insertAt, Nat.sub_zero, List.insertIdx_length_self, List.append_assoc]
  exact List.suffix_append later _

end Inserted

namespace Layout

variable {layout next : Layout} {glyph : Glyph} {glyphs rest after : List Glyph}

/-- All remembered places have at least some number of tokens in front of them. -/
def Behind (count : Nat) (places : List (Option KeyPlace)) : Prop :=
  ∀ place, some place ∈ places → count ≤ place.number

theorem Recalls.behind {count later : Nat} {old places : List (Option KeyPlace)}
    (recalls : Recalls later old places) (behind : Behind count old) (le : count ≤ later) :
    Behind count places := by
  intro place remembered
  rcases recalls place remembered with old | beyond
  · exact behind place old
  · exact Nat.le_trans le beyond

theorem Behind.nil (count : Nat) : Behind count [] :=
  fun _ remembered => absurd remembered List.not_mem_nil

theorem Behind.cons_none {count : Nat} {places : List (Option KeyPlace)}
    (behind : Behind count places) : Behind count (none :: places) :=
  fun place remembered => behind place ((List.mem_cons.mp remembered).resolve_left nofun)

/-- The text opened with a bracket: its token is the first one, or the first key, perhaps of a block
mapping. Only the place outside of all flow collections can make it a key. -/
inductive Opened (layout : Layout) : Prop where
  | pending (first : [.flowSequence] <:+ layout.tokens) (inner : Behind 1 layout.places.dropLast)
  | keyed {opening : List Token}
    (either : opening = [.flowSequence, .key] ∨ opening = [.flowSequence, .key, .blockMapping])
    (first : opening <:+ layout.tokens) (places : Behind opening.length layout.places)

namespace Opened

theorem of_extends (opened : layout.Opened) (extended : Extends layout next) : next.Opened := by
  cases opened with
  | pending first inner =>
    exact .pending (first.trans extended.tokens) (extended.inner.behind inner first.length_le)
  | keyed either first places =>
    exact .keyed either (first.trans extended.tokens)
      (extended.places.behind places first.length_le)

theorem suffix_of_keys {opening : List Token} {place : KeyPlace} (keys : Keys layout next place)
    (first : opening <:+ layout.tokens) (behind : opening.length ≤ place.number) :
    opening <:+ next.tokens := by
  have keyed := Token.suffix_insertAt .key first behind
  rcases keys.tokens with tokens | tokens <;> rw [tokens]
  · exact keyed.trans (List.suffix_cons _ _)
  · exact (Token.suffix_insertAt .blockMapping keyed behind).trans (List.suffix_cons _ _)

/-- The bracket itself becomes the start of a key. -/
theorem of_keys_zero {place : KeyPlace} (keys : Keys layout next place)
    (first : [.flowSequence] <:+ layout.tokens) (number : place.number = 0)
    (outer : layout.outer = []) : next.Opened := by
  have keyed := Token.suffix_insertAt_zero .key first
  have nothing : ∀ count, Behind count next.places := by
    intro count
    rw [keys.places, outer]
    exact (Behind.nil count).cons_none
  have tokens := keys.tokens
  rw [number] at tokens
  rcases tokens with tokens | tokens
  · refine .keyed (.inl rfl) ?_ (nothing _)
    rw [tokens]
    exact keyed.trans (List.suffix_cons _ _)
  · refine .keyed (.inr rfl) ?_ (nothing _)
    rw [tokens]
    exact (Token.suffix_insertAt_zero .blockMapping keyed).trans (List.suffix_cons _ _)

theorem of_keys {place : KeyPlace} (opened : layout.Opened) (keys : Keys layout next place) :
    next.Opened := by
  cases opened with
  | pending first inner =>
    -- only outside of all flow collections may the place be in front of the bracket
    rcases outer : layout.outer with _ | ⟨keyPlace, others⟩
    · rcases Nat.eq_zero_or_pos place.number with number | number
      · exact of_keys_zero keys first number outer
      · refine .pending (suffix_of_keys keys first number) ?_
        rw [keys.places, outer]
        exact Behind.nil 1
    · rw [places, outer, List.dropLast_cons_cons, keys.here] at inner
      have number := inner place List.mem_cons_self
      refine .pending (suffix_of_keys keys first number) ?_
      rw [keys.places, outer, List.dropLast_cons_cons]
      exact Behind.cons_none fun other remembered => inner other (List.mem_cons_of_mem _ remembered)
  | keyed either first behind =>
    rw [places, keys.here] at behind
    refine .keyed either (suffix_of_keys keys first (behind place List.mem_cons_self)) ?_
    rw [keys.places]
    exact Behind.cons_none fun other remembered => behind other (List.mem_cons_of_mem _ remembered)

theorem of_step? (opened : layout.Opened)
    (stepped : layout.step? glyph rest = some (next, after)) : next.Opened := by
  rcases step?_cases stepped with extended | ⟨place, keys⟩
  · exact opened.of_extends extended
  · exact opened.of_keys keys

theorem openBracket (opened : layout.Opened) : Token.OpenBracket layout.tokens.reverse := by
  cases opened with
  | pending first _ =>
    obtain ⟨rest, same⟩ := List.reverse_prefix.mpr first
    exact same ▸ .sequence rest
  | keyed either first _ =>
    obtain ⟨rest, same⟩ := List.reverse_prefix.mpr first
    rcases either with rfl | rfl
    · exact same ▸ .key rest
    · exact same ▸ .mapping rest

theorem of_run? {fuel : Nat} {tokens : List Token} (opened : layout.Opened)
    (ran : run? fuel layout glyphs = some tokens) : Token.OpenBracket tokens := by
  induction fuel generalizing layout glyphs with
  | zero => cases ran
  | succ fuel ih =>
    obtain ⟨keyAllowed, left, _, reached⟩ := exists_toToken layout (glyphs.length + 1) glyphs
    replace opened := opened.of_extends (.allowing layout keyAllowed)
    rw [run?, reached] at ran
    rcases left with _ | ⟨glyph, rest⟩
    · obtain ⟨closed, drops, rfl⟩ := Option.map_eq_some_iff.mp ran
      exact (opened.of_extends ((Extends.closeAll _).trans (.of_dropKey? drops))).openBracket
    · obtain ⟨⟨next, after⟩, stepped, ran⟩ := Option.bind_eq_some_iff.mp ran
      exact ih ((opened.of_extends (.closeBeyond _ glyph.column)).of_step? stepped) ran

end Opened

theorem opened_of_step? (bracket : glyph.char = '[')
    (stepped : step? {} glyph rest = some (next, after)) : next.Opened := by
  have unmarked (mark : Char) (differs : '[' ≠ mark) : atMarker mark (glyph :: rest) = false :=
    atMarker_of_ne rest (bracket ▸ differs)
  rw [step?, if_neg (by simp [bracket]), if_neg (by simp [unmarked '-']),
    if_neg (by simp [unmarked '.']), if_pos bracket] at stepped
  cases stepped
  exact .pending List.suffix_rfl (Behind.nil 1).cons_none

end Layout

/-- A bracket comes behind blanks and line breaks only. -/
inductive ToBracket : List Glyph → Prop where
  | here {glyph : Glyph} {rest : List Glyph} (bracket : glyph.char = '[')
    (breaks : glyph.breaks = false) : ToBracket (glyph :: rest)
  | blank {glyph : Glyph} {rest : List Glyph} (blank : isBlank glyph.char)
    (breaks : glyph.breaks = false) (later : ToBracket rest) : ToBracket (glyph :: rest)
  | line {glyph : Glyph} {rest : List Glyph} (feed : glyph.char = '\n') (breaks : glyph.breaks)
    (later : ToBracket rest) : ToBracket (glyph :: rest)

theorem toBracket_placed {chars rest : List Char} {line column index : Nat} {leads : Bool}
    (opens : Json.Document.skipBlank chars = '[' :: rest) :
    ToBracket (placed .v11 line column index leads (unifyBreaks .v11 chars)) := by
  induction chars using unifyBreaks.induct generalizing line column index leads with
  | case1 => cases opens
  | case2 behind ih => exact .line rfl rfl (ih opens)
  | case3 char behind notBoth ih =>
    rw [Json.Document.skipBlank] at opens
    rw [unifyBreaks]
    · rcases ite_eq_iff.mp opens with ⟨blank, opens⟩ | ⟨_, opens⟩
      · simp only [Json.Document.isBlank, Bool.or_eq_true, decide_eq_true_eq] at blank
        rcases blank with ((rfl | rfl) | rfl) | rfl
        · exact .blank rfl rfl (ih opens)
        · exact .blank rfl rfl (ih opens)
        · exact .line rfl rfl (ih opens)
        · exact .line rfl rfl (ih opens)
      · cases opens
        exact .here rfl rfl
    · exact notBoth

theorem isOrderMark_of_skipBlank {chars rest : List Char} {char : Char}
    (opens : Json.Document.skipBlank chars = '[' :: rest) (first : chars.head? = some char) :
    isOrderMark char = false := by
  obtain _ | ⟨_, behind⟩ := chars
  · cases first
  cases first
  rw [Json.Document.skipBlank] at opens
  rcases ite_eq_iff.mp opens with ⟨blank, _⟩ | ⟨_, opens⟩
  · exact isOrderMark_of_isBlank (Text.isBlank_of_isBlank blank)
  · cases opens
    rfl

/-- The next token is the bracket, or a tab comes first, which is not passed over where a key may
start. -/
theorem ToBracket.exists_toToken {glyphs : List Glyph} (opens : ToBracket glyphs) {fuel : Nat}
    (enough : glyphs.length < fuel) :
    ∃ glyph rest, (glyph.char = '[' ∨ glyph.char = '\t') ∧
      Layout.toToken {} fuel glyphs = ({}, glyph :: rest) := by
  induction opens generalizing fuel with
  | @here glyph rest bracket breaks =>
    obtain _ | fuel := fuel
    · cases enough
    exact ⟨glyph, rest, .inl bracket, by simp [Layout.toToken, bracket, breaks, isOrderMark]⟩
  | @blank glyph rest blank breaks later ih =>
    obtain _ | fuel := fuel
    · cases enough
    by_cases tab : glyph.char = '\t'
    · exact ⟨glyph, rest, .inr tab,
        by simp [Layout.toToken, Layout.inFlow, tab, breaks, isOrderMark]⟩
    · have space : glyph.char = ' ' := by simpa [isBlank, tab] using blank
      simpa [Layout.toToken, space] using ih (Nat.lt_of_succ_lt_succ enough)
  | @line glyph rest feed breaks later ih =>
    obtain _ | fuel := fuel
    · cases enough
    simpa [Layout.toToken, feed, breaks, isOrderMark] using ih (Nat.lt_of_succ_lt_succ enough)

theorem ToBracket.of_run? {glyphs : List Glyph} {fuel : Nat} {tokens : List Token}
    (opens : ToBracket glyphs) (ran : Layout.run? fuel {} glyphs = some tokens) :
    Token.OpenBracket tokens := by
  obtain _ | fuel := fuel
  · cases ran
  obtain ⟨glyph, rest, either, reached⟩ := opens.exists_toToken (Nat.lt_succ_self glyphs.length)
  rw [Layout.run?, reached] at ran
  obtain ⟨⟨next, after⟩, stepped, ran⟩ := Option.bind_eq_some_iff.mp ran
  rcases either with bracket | tab
  · exact (Layout.opened_of_step? bracket stepped).of_run? ran
  · have starts := (Layout.of_step?_blank (tab ▸ rfl) stepped).1
    simp [Layout.startsPlain, isBlank, tab] at starts

theorem Token.openBracket_of_ofText? {text : String} {rest : List Char} {tokens : List Token}
    (opens : Json.Document.skipBlank text.toList = '[' :: rest)
    (read : Token.ofText? text = some tokens) : OpenBracket tokens := by
  obtain ⟨glyphs, placed, ran⟩ := Option.bind_eq_some_iff.mp read
  rw [eq_placed_of_glyphs? _ placed] at ran
  · exact (toBracket_placed opens).of_run? ran
  · exact fun char first => isOrderMark_of_skipBlank opens first

namespace Read

variable {fuel : Nat} {block indentless : Bool} {reading after : Reading} {node : Node}
  {rest : List Token}

theorem run_node_flowSequence (tokens : reading.tokens = .flowSequence :: rest) :
    (Read.node (fuel + 1) block indentless).run reading =
      (Node.sequence none <$> flowItems fuel true).run { reading with tokens := rest } := by
  rw [Read.node]
  simp [peek, properties, anchored, skip, tokens]

theorem node_flowSequence (tokens : reading.tokens = .flowSequence :: rest)
    (read : (Read.node fuel block indentless).run reading = some (node, after)) :
    ∃ items, node = .sequence none items := by
  cases fuel with
  | zero => cases read
  | succ fuel =>
    rw [run_node_flowSequence tokens, StateT.run_map] at read
    obtain ⟨⟨items, left⟩, _, same⟩ := Option.map_eq_some_iff.mp read
    cases same
    exact ⟨items, rfl⟩

theorem run_node_key (tokens : reading.tokens = .key :: rest) :
    (Read.node fuel block indentless).run reading = none := by
  cases fuel with
  | zero => rfl
  | succ fuel =>
    rw [Read.node]
    simp [peek, properties, tokens, Option.failure_eq_none]

theorem run_node_blockMapping (tokens : reading.tokens = .blockMapping :: rest) :
    (Read.node (fuel + 1) true indentless).run reading =
      (Node.mapping none <$> blockEntries fuel).run { reading with tokens := rest } := by
  rw [Read.node]
  simp [peek, properties, anchored, skip, tokens]

theorem run_blockEntries_key (tokens : reading.tokens = .key :: rest) :
    (blockEntries (fuel + 1)).run reading =
      (do
        let key ← nodeUnless fuel true true [.key, .value, .blockEnd]
        let value ←
          if ← skipIf .value then nodeUnless fuel true true [.key, .value, .blockEnd]
          else pure .missing
        return (key, value) :: (← blockEntries fuel)).run { reading with tokens := rest } := by
  rw [blockEntries]
  simp [skipKey, skipIf, peek, skip, tokens]

theorem nodeUnless_flowSequence {ends : List Token}
    (tokens : reading.tokens = .flowSequence :: rest) (goes : Token.flowSequence ∉ ends)
    (read : (nodeUnless fuel block indentless ends).run reading = some (node, after)) :
    ∃ items, node = .sequence none items := by
  cases fuel with
  | zero => cases read
  | succ fuel =>
    have same : (nodeUnless (fuel + 1) block indentless ends).run reading =
        (Read.node fuel block indentless).run reading := by
      rw [nodeUnless]
      simp [atAny, peek, tokens, goes]
    exact node_flowSequence tokens (same ▸ read)

theorem blockEntries_flowSequence {entries : List (Node × Node)}
    (tokens : reading.tokens = .key :: .flowSequence :: rest)
    (read : (blockEntries fuel).run reading = some (entries, after)) :
    ∃ items value others, entries = (.sequence none items, value) :: others := by
  cases fuel with
  | zero => cases read
  | succ fuel =>
    rw [run_blockEntries_key tokens] at read
    obtain ⟨⟨key, behind⟩, ofKey, read⟩ := Option.bind_eq_some_iff.mp read
    obtain ⟨⟨valued, next⟩, _, read⟩ := Option.bind_eq_some_iff.mp read
    obtain ⟨items, rfl⟩ := nodeUnless_flowSequence rfl (by decide) ofKey
    cases valued with
    | true =>
      obtain ⟨⟨value, next⟩, _, read⟩ := Option.bind_eq_some_iff.mp read
      obtain ⟨⟨others, last⟩, _, same⟩ := Option.bind_eq_some_iff.mp read
      cases same
      exact ⟨items, value, others, rfl⟩
    | false =>
      obtain ⟨⟨others, last⟩, _, same⟩ := Option.bind_eq_some_iff.mp read
      cases same
      exact ⟨items, .missing, others, rfl⟩

theorem node_blockMapping (tokens : reading.tokens = .blockMapping :: .key :: .flowSequence :: rest)
    (read : (Read.node fuel true false).run reading = some (node, after)) :
    ∃ items value entries, node = .mapping none ((.sequence none items, value) :: entries) := by
  cases fuel with
  | zero => cases read
  | succ fuel =>
    rw [run_node_blockMapping tokens, StateT.run_map] at read
    obtain ⟨⟨entries, left⟩, ran, same⟩ := Option.map_eq_some_iff.mp read
    cases same
    obtain ⟨items, value, others, rfl⟩ := blockEntries_flowSequence rfl ran
    exact ⟨items, value, others, rfl⟩

end Read

namespace Node

/-- A node that is read behind these first tokens is no record with named fields: it is a sequence,
or a mapping in which one is a key. -/
theorem read?_eq_none_of_openBracket {known : List (String × Shape)} {depth : Nat}
    {edition : Edition} {handles : List (String × String)} {tokens left : List Token} {node : Node}
    (opens : Token.OpenBracket tokens)
    (read : Read.runOn? edition handles tokens (fun fuel => Read.node fuel true false) =
      some (node, left)) :
    read? depth node (.record known) = none := by
  obtain ⟨⟨node, reading⟩, ran, same⟩ := Option.bind_eq_some_iff.mp read
  cases same
  cases opens with
  | sequence rest =>
    obtain ⟨items, rfl⟩ := Read.node_flowSequence rfl ran
    rfl
  | key rest =>
    rw [Read.run_node_key rfl] at ran
    cases ran
  | mapping rest =>
    obtain ⟨items, value, entries, rfl⟩ := Read.node_blockMapping rfl ran
    simp [read?, Shape.present, readRecord?, text?]

/-- Such tokens start with a document, without anything in front of it. -/
theorem exists_runOn?_of_openBracket {tokens : List Token} {text : String} {nodes : List Node}
    (opens : Token.OpenBracket tokens) (scanned : Token.ofText? text = some tokens)
    (read : documents? text = some nodes) :
    ∃ node left later, nodes = node :: later ∧
      Read.runOn? .v11 Tag.defaultHandles tokens (fun fuel => Read.node fuel true false) =
        some (node, left) := by
  obtain ⟨found, scannedAgain, read⟩ := Option.bind_eq_some_iff.mp read
  cases scanned.symm.trans scannedAgain
  rcases opens with rest | rest | rest
  all_goals
    obtain ⟨⟨node, left⟩, ran, read⟩ := Option.bind_eq_some_iff.mp read
    obtain ⟨later, _, same⟩ := Option.bind_eq_some_iff.mp read
    cases same
    exact ⟨node, left, later, rfl, ran⟩

/-- What a text that opens with a bracket reads as is no record with named fields. -/
theorem parse?_eq_none_of_bracket {known : List (String × Shape)} {text : String}
    {rest : List Char} (opens : Json.Document.skipBlank text.toList = '[' :: rest) :
    parse? (.record known) text = none := by
  rw [Option.eq_none_iff_forall_ne_some]
  intro value read
  obtain ⟨nodes, documents, read⟩ := Option.bind_eq_some_iff.mp read
  obtain ⟨tokens, scanned, _⟩ := Option.bind_eq_some_iff.mp documents
  have opens := Token.openBracket_of_ofText? opens scanned
  obtain ⟨node, left, later, rfl, ran⟩ := exists_runOn?_of_openBracket opens scanned documents
  rcases later with _ | ⟨next, later⟩
  · cases (read?_eq_none_of_openBracket opens ran).symm.trans read
  · cases read

end Node

end StackSwap.Yaml

namespace StackSwap.Template

theorem ofYamlText?_eq_none_of_bracket {body : String} {rest : List Char}
    (opens : Json.Document.skipBlank body.toList = '[' :: rest) : ofYamlText? body = none := by
  rw [ofYamlText?, shape, Yaml.Node.parse?_eq_none_of_bracket opens]
  rfl

end StackSwap.Template
