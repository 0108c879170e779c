import StackSwap.Json.Shaped
import StackSwap.Proofs.Json
import StackSwap.Yaml.Shaped

namespace StackSwap

namespace Json

theorem wellFormed_ofPairs {pairs : List (String × Json)}
    (each : ∀ pair ∈ pairs, pair.2.WellFormed) : (ofPairs pairs).WellFormed :=
  wellFormed_obj.mpr ⟨Entries.sorted_ofList pairs,
    fun pair member => each pair (Entries.mem_of_mem_ofList member)⟩

/-- A value that was read against a shape. What stands for a record or a table may have its fields
in any order, as long as they were read against their own shapes; all else is well formed. -/
inductive ReadAs : Json → Shape → Prop where
  | formed {shape : Shape} {value : Json} (formed : value.WellFormed) : ReadAs value shape
  | optional {shape : Shape} {value : Json} (read : ReadAs value shape) :
    ReadAs value (.optional shape)
  | record {known : List (String × Shape)} {fields : List (String × Json)}
    (each : ∀ field ∈ fields, ∀ shape, Shape.field? known field.1 = some shape →
      ReadAs field.2 shape) : ReadAs (.obj fields) (.record known)
  | positions {known : List (String × Shape)} {items : List Json}
    (each : ∀ place ∈ known.zip items, ReadAs place.2 place.1.2) :
    ReadAs (.arr items) (.record known)
  | table {inner : Shape} {fields : List (String × Json)}
    (each : ∀ field ∈ fields, ReadAs field.2 inner) : ReadAs (.obj fields) (.table inner)

namespace ReadAs

variable {shape : Shape} {value : Json}

theorem of_present (read : ReadAs value shape.present) : ReadAs value shape := by
  induction shape using Shape.present.induct with
  | case1 shape ih => exact .optional (ih read)
  | case2 shape _ =>
    rw [Shape.present] at read
    · exact read
    · assumption

theorem wellFormed_any (read : ReadAs value .any) : value.WellFormed := by
  cases read with
  | formed formed => exact formed

theorem wellFormed_optional (read : ReadAs value (.optional .any)) : value.WellFormed := by
  cases read with
  | formed formed => exact formed
  | optional read => exact read.wellFormed_any

end ReadAs

end Json

/-! Texts in JSON -/

namespace Json.Document

mutual

theorem wellFormed_of_toJson? {depth : Nat} : ∀ {document : Document} {value : Json},
    document.toJson? depth = some value → value.WellFormed
  | .null, _, read => by cases read; trivial
  | .bool _, _, read => by cases read; trivial
  | .num number, _, read => by
    obtain ⟨number, _, rfl⟩ := Option.map_eq_some_iff.mp read
    trivial
  | .str text, _, read => by
    obtain ⟨text, _, rfl⟩ := Option.map_eq_some_iff.mp read
    trivial
  | .arr items, _, read => by
    rw [toJson?] at read
    split at read
    · cases read
    · obtain ⟨values, itemsRead, rfl⟩ := Option.map_eq_some_iff.mp read
      exact wellFormed_arr.mpr (wellFormed_of_itemsToJson? itemsRead)
  | .obj fields, _, read => by
    rw [toJson?] at read
    split at read
    · cases read
    · obtain ⟨pairs, fieldsRead, rfl⟩ := Option.map_eq_some_iff.mp read
      exact wellFormed_ofPairs (wellFormed_of_fieldsToJson? fieldsRead)

theorem wellFormed_of_itemsToJson? {depth : Nat} : ∀ {items : List Document} {values : List Json},
    itemsToJson? depth items = some values → ∀ value ∈ values, value.WellFormed
  | [], _, read => by
    cases read
    exact List.forall_mem_nil _
  | item :: rest, _, read => by
    simp only [itemsToJson?, Option.bind_eq_bind, Option.bind_eq_some_iff] at read
    obtain ⟨value, first, values, later, same⟩ := read
    cases same
    exact List.forall_mem_cons.mpr ⟨wellFormed_of_toJson? first, wellFormed_of_itemsToJson? later⟩

theorem wellFormed_of_fieldsToJson? {depth : Nat} :
    ∀ {fields : List (Option String × Document)} {pairs : List (String × Json)},
    fieldsToJson? depth fields = some pairs → ∀ pair ∈ pairs, pair.2.WellFormed
  | [], _, read => by
    cases read
    exact List.forall_mem_nil _
  | (key, field) :: rest, _, read => by
    simp only [fieldsToJson?, Option.bind_eq_bind, Option.bind_eq_some_iff] at read
    obtain ⟨key, _, value, first, pairs, later, same⟩ := read
    cases same
    exact List.forall_mem_cons.mpr ⟨wellFormed_of_toJson? first, wellFormed_of_fieldsToJson? later⟩

end

mutual

theorem readAs_of_read? {depth : Nat} : ∀ {document : Document} {shape : Shape} {value : Json},
    document.read? depth shape = some value → value.ReadAs shape
  | .null, _, _, read => .formed (wellFormed_of_toJson? read)
  | .bool _, _, _, read => .formed (wellFormed_of_toJson? read)
  | .num _, _, _, read => .formed (wellFormed_of_toJson? read)
  | .str _, _, _, read => .formed (wellFormed_of_toJson? read)
  | .arr items, shape, _, read => by
    rw [read?] at read
    apply ReadAs.of_present
    generalize shape.present = expected at read ⊢
    cases expected with
    | record known =>
      simp only at read
      split at read
      · cases read
      · obtain ⟨values, itemsRead, rfl⟩ := Option.map_eq_some_iff.mp read
        exact .positions (readAs_of_readPositions? itemsRead)
    | _ => exact .formed (wellFormed_of_toJson? read)
  | .obj fields, shape, _, read => by
    rw [read?] at read
    apply ReadAs.of_present
    generalize shape.present = expected at read ⊢
    cases expected with
    | record known =>
      simp only at read
      split at read
      · cases read
      · obtain ⟨values, fieldsRead, rfl⟩ := Option.map_eq_some_iff.mp read
        exact .record (readAs_of_readRecord? fieldsRead)
    | table inner =>
      simp only at read
      split at read
      · cases read
      · obtain ⟨values, fieldsRead, rfl⟩ := Option.map_eq_some_iff.mp read
        exact .table (readAs_of_readTable? fieldsRead)
    | _ => exact .formed (wellFormed_of_toJson? read)

theorem readAs_of_readRecord? {depth : Nat} {known : List (String × Shape)} :
    ∀ {fields : List (Option String × Document)} {pairs : List (String × Json)},
    readRecord? depth known fields = some pairs → ∀ pair ∈ pairs, ∀ shape,
      Shape.field? known pair.1 = some shape → pair.2.ReadAs shape
  | [], _, read => by
    cases read
    exact List.forall_mem_nil _
  | (key, field) :: rest, _, read => by
    simp only [readRecord?, Option.bind_eq_bind, Option.bind_eq_some_iff] at read
    obtain ⟨key, _, read⟩ := read
    cases expected : Shape.field? known key with
    | none =>
      rw [expected] at read
      exact readAs_of_readRecord? read
    | some shape =>
      simp only [expected, Option.bind_eq_some_iff] at read
      obtain ⟨value, first, pairs, later, same⟩ := read
      cases same
      refine List.forall_mem_cons.mpr ⟨?_, readAs_of_readRecord? later⟩
      intro other found
      obtain rfl := Option.some.inj (expected.symm.trans found)
      exact readAs_of_read? first

theorem readAs_of_readTable? {depth : Nat} {shape : Shape} :
    ∀ {fields : List (Option String × Document)} {pairs : List (String × Json)},
    readTable? depth shape fields = some pairs → ∀ pair ∈ pairs, pair.2.ReadAs shape
  | [], _, read => by
    cases read
    exact List.forall_mem_nil _
  | (key, field) :: rest, _, read => by
    simp only [readTable?, Option.bind_eq_bind, Option.bind_eq_some_iff] at read
    obtain ⟨key, _, value, first, pairs, later, same⟩ := read
    cases same
    exact List.forall_mem_cons.mpr ⟨readAs_of_read? first, readAs_of_readTable? later⟩

theorem readAs_of_readPositions? {depth : Nat} :
    ∀ {known : List (String × Shape)} {items : List Document} {values : List Json},
    readPositions? depth known items = some values →
      ∀ place ∈ known.zip values, place.2.ReadAs place.1.2
  | known, [], _, read => by
    cases read
    rw [List.zip_nil_right]
    exact List.forall_mem_nil _
  | [], _ :: _, _, read => by cases read
  | (_, shape) :: known, item :: rest, _, read => by
    simp only [readPositions?, Option.bind_eq_bind, Option.bind_eq_some_iff] at read
    obtain ⟨value, first, values, later, same⟩ := read
    cases same
    exact List.forall_mem_cons.mpr ⟨readAs_of_read? first, readAs_of_readPositions? later⟩

end

end Json.Document

/-! Texts in YAML -/

namespace Yaml.Scalar

variable {text : String} {value : Json}

theorem wellFormed_of_float? (read : float? text = some value) : value.WellFormed := by
  unfold float? at read
  split at read
  · cases read
    trivial
  · obtain ⟨number, _, read⟩ := Option.bind_eq_some_iff.mp read
    obtain ⟨finite, _, rfl⟩ := Option.map_eq_some_iff.mp read
    trivial

theorem wellFormed_of_plain? (read : plain? text = some value) : value.WellFormed := by
  unfold plain? at read
  split at read
  · cases read
    trivial
  · split at read
    · cases read
      trivial
    · split at read
      · cases read
        trivial
      · cases read
      · split at read
        · cases read
          trivial
        · cases isFloat : float? text with
          | none =>
            rw [isFloat] at read
            cases read
            trivial
          | some number =>
            rw [isFloat] at read
            cases read
            exact wellFormed_of_float? isFloat

theorem wellFormed_of_value? {tag : Option NodeTag} {plain : Bool}
    (read : value? tag plain text = some value) : value.WellFormed := by
  unfold value? at read
  split at read
  · split at read
    · exact wellFormed_of_plain? read
    · cases read
      trivial
  · obtain ⟨_, _, rfl⟩ := Option.map_eq_some_iff.mp read
    trivial
  · split at read
    · cases read
      trivial
    · cases read
  · exact wellFormed_of_float? read
  · split at read
    · cases read
      trivial
    · cases read
  · split at read
    · cases read
    · cases read
      trivial

end Yaml.Scalar

namespace Yaml.Node

theorem wellFormed_of_scalar? {tag : Option NodeTag} {plain : Bool} {text : String} {shape : Shape}
    {value : Json} (read : scalar? tag plain text shape = some value) : value.WellFormed := by
  induction shape using Shape.present.induct with
  | case1 shape ih => exact ih read
  | case2 shape other =>
    cases shape with
    | any => exact Scalar.wellFormed_of_value? read
    | text =>
      cases read
      trivial
    | optional shape => exact absurd rfl (other shape)
    | table | record =>
      simp only [scalar?] at read
      split at read
      · cases read
        exact ⟨.nil, trivial⟩
      · cases read

mutual

theorem readAs_of_read? {depth : Nat} : ∀ {node : Node} {shape : Shape} {value : Json},
    node.read? depth shape = some value → value.ReadAs shape
  | .missing, _, _, read => .formed (wellFormed_of_scalar? read)
  | .scalar _ _ _, _, _, read => .formed (wellFormed_of_scalar? read)
  | .sequence tag items, shape, _, read => by
    rw [read?] at read
    apply Json.ReadAs.of_present
    generalize shape.present = expected at read ⊢
    cases expected with
    | any =>
      simp only at read
      split at read
      · cases read
      · obtain ⟨values, itemsRead, rfl⟩ := Option.map_eq_some_iff.mp read
        exact .formed (Json.wellFormed_arr.mpr (wellFormed_of_readItems? itemsRead))
    | _ => cases read
  | .mapping tag entries, shape, _, read => by
    rw [read?] at read
    split at read
    · cases read
    · apply Json.ReadAs.of_present
      generalize shape.present = expected at read ⊢
      cases expected with
      | any =>
        simp only at read
        split at read
        · obtain ⟨pairs, entriesRead, rfl⟩ := Option.map_eq_some_iff.mp read
          refine .formed (Json.wellFormed_ofPairs fun pair member => ?_)
          exact (readAs_of_readTable? entriesRead pair member).wellFormed_any
        · cases read
      | table inner =>
        obtain ⟨pairs, entriesRead, rfl⟩ := Option.map_eq_some_iff.mp read
        exact .table (readAs_of_readTable? entriesRead)
      | record known =>
        simp only at read
        split at read
        · cases read
        · obtain ⟨pairs, entriesRead, rfl⟩ := Option.map_eq_some_iff.mp read
          exact .record (readAs_of_readRecord? entriesRead)
      | _ => cases read
  | .alias (some target), shape, value, read => by
    have inner : target.read? depth shape = some value := read
    exact readAs_of_read? inner
  | .alias none, _, _, read => by cases read

theorem wellFormed_of_readItems? {depth : Nat} : ∀ {items : List Node} {values : List Json},
    readItems? depth items = some values → ∀ value ∈ values, value.WellFormed
  | [], _, read => by
    cases read
    exact List.forall_mem_nil _
  | item :: rest, _, read => by
    simp only [readItems?, Option.bind_eq_bind, Option.bind_eq_some_iff] at read
    obtain ⟨value, first, values, later, same⟩ := read
    cases same
    exact List.forall_mem_cons.mpr
      ⟨(readAs_of_read? first).wellFormed_any, wellFormed_of_readItems? later⟩

theorem readAs_of_readTable? {depth : Nat} {shape : Shape} :
    ∀ {entries : List (Node × Node)} {pairs : List (String × Json)},
    readTable? depth shape entries = some pairs → ∀ pair ∈ pairs, pair.2.ReadAs shape
  | [], _, read => by
    cases read
    exact List.forall_mem_nil _
  | (key, node) :: rest, _, read => by
    simp only [readTable?, Option.bind_eq_bind, Option.bind_eq_some_iff] at read
    obtain ⟨key, _, value, first, pairs, later, same⟩ := read
    cases same
    exact List.forall_mem_cons.mpr ⟨readAs_of_read? first, readAs_of_readTable? later⟩

theorem readAs_of_readRecord? {depth : Nat} {known : List (String × Shape)} :
    ∀ {entries : List (Node × Node)} {pairs : List (String × Json)},
    readRecord? depth known entries = some pairs → ∀ pair ∈ pairs, ∀ shape,
      Shape.field? known pair.1 = some shape → pair.2.ReadAs shape
  | [], _, read => by
    cases read
    exact List.forall_mem_nil _
  | (key, node) :: rest, _, read => by
    simp only [readRecord?, Option.bind_eq_bind, Option.bind_eq_some_iff] at read
    obtain ⟨key, _, read⟩ := read
    cases expected : Shape.field? known key with
    | none =>
      rw [expected] at read
      exact readAs_of_readRecord? read
    | some shape =>
      simp only [expected, Option.bind_eq_some_iff] at read
      obtain ⟨leftOut, _, read⟩ := read
      split at read
      · exact readAs_of_readRecord? read
      · simp only [Option.bind_eq_some_iff] at read
        obtain ⟨value, first, pairs, later, same⟩ := read
        cases same
        refine List.forall_mem_cons.mpr ⟨?_, readAs_of_readRecord? later⟩
        intro other found
        obtain rfl := Option.some.inj (expected.symm.trans found)
        exact readAs_of_read? first

end

end Yaml.Node

end StackSwap
