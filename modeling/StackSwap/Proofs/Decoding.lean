import StackSwap.Proofs.Readers
import StackSwap.Proofs.Template
import StackSwap.Template.Text

namespace StackSwap

namespace Json

theorem WellFormed.field {value field : Json} {names : List String}
    {look : String → Option Json} {name : String} (formed : value.WellFormed)
    (opened : value.structure? names = some look) (found : look name = some field) :
    field.WellFormed := by
  cases value with
  | obj fields =>
    cases opened
    exact (wellFormed_obj.mp formed).2 _ (Entries.mem_of_find? found)
  | arr items =>
    simp only [structure?] at opened
    split at opened
    · cases opened
      obtain ⟨⟨_, item⟩, first, rfl⟩ := Option.map_eq_some_iff.mp found
      exact wellFormed_arr.mp formed _ (List.of_mem_zip (List.mem_of_find?_eq_some first)).2
    · cases opened
  | _ => cases opened

theorem exists_field_of_table? {α : Type} {decode : Json → Option α} {value : Option Json}
    {table : Table α} (decoded : table? decode value = some table) {entry : String × α}
    (member : entry ∈ table.entries) :
    ∃ fields, value = some (.obj fields) ∧ ∃ field ∈ fields, decode field.2 = some entry.2 := by
  unfold table? at decoded
  split at decoded
  · cases Option.some.inj decoded
    cases member
  · rename_i fields
    obtain ⟨pairs, mapped, rfl⟩ := Option.map_eq_some_iff.mp decoded
    obtain ⟨field, inFields, decodedField⟩ :=
      exists_of_mem_right (mapM_eq_some_iff.mp mapped) (Entries.mem_of_mem_ofList member)
    obtain ⟨result, decodedValue, rfl⟩ := Option.map_eq_some_iff.mp decodedField
    exact ⟨fields, rfl, field, inFields, decodedValue⟩
  · cases decoded

namespace ReadAs

variable {shape : Shape} {value : Json}

private theorem mem_zip_of_find? {known : List (String × Shape)} {items : List Json}
    {name : String} {found : String × Json} (expected : Shape.field? known name = some shape)
    (first : ((known.map Prod.fst).zip items).find? (fun field => field.1 == name) = some found) :
    ((name, shape), found.2) ∈ known.zip items := by
  induction known generalizing items with
  | nil => cases expected
  | cons head known ih =>
    cases items with
    | nil => cases first
    | cons item items =>
      obtain ⟨own, ownShape⟩ := head
      by_cases here : own = name
      · subst here
        have sameShape : ownShape = shape := by simpa [Shape.field?] using expected
        have sameField : (own, item) = found := by simpa using first
        rw [← sameShape, ← sameField]
        exact List.mem_cons_self ..
      · have later : Shape.field? known name = some shape := by
          simpa [Shape.field?, here] using expected
        exact List.mem_cons_of_mem _ (ih later (by simpa [here] using first))

/-- A field of a record was read against its own shape. -/
theorem field {known : List (String × Shape)} {look : String → Option Json} {name : String}
    {field : Json} (read : ReadAs value (.record known))
    (opened : value.structure? (known.map Prod.fst) = some look) (found : look name = some field)
    (expected : Shape.field? known name = some shape) : ReadAs field shape := by
  cases read with
  | formed formed => exact .formed (formed.field opened found)
  | record each =>
    cases opened
    exact each _ (Entries.mem_of_find? found) shape expected
  | positions each =>
    simp only [structure?] at opened
    split at opened
    · cases opened
      obtain ⟨place, first, rfl⟩ := Option.map_eq_some_iff.mp found
      exact each _ (mem_zip_of_find? expected first)
    · cases opened

/-- What holds of everything that can be decoded holds of the values of a decoded table. -/
theorem table?_forall {α : Type} {decode : Json → Option α} {P : α → Prop} {value : Option Json}
    {table : Table α} (decoded : table? decode value = some table)
    (read : ∀ found ∈ value, ReadAs found (.table shape))
    (each : ∀ {item : Json} {result}, ReadAs item shape → decode item = some result → P result) :
    ∀ entry ∈ table.entries, P entry.2 := by
  intro entry member
  obtain ⟨fields, rfl, field, inFields, decodedField⟩ := exists_field_of_table? decoded member
  refine each ?_ decodedField
  cases read _ rfl with
  | formed formed => exact .formed ((wellFormed_obj.mp formed).2 field inFields)
  | table each => exact each field inFields

end ReadAs

/-- A decoded optional field is the field as it stands, and in JSON it is not null. -/
theorem of_optional?_some {absence : Absence} {field result : Option Json}
    (decoded : absence.optional? some field = some result) :
    ∀ value ∈ result, field = some value ∧ (absence = .null → value ≠ .null) := by
  intro value member
  cases absence with
  | null =>
    simp only [Absence.optional?, optional?] at decoded
    split at decoded
    · cases Option.some.inj decoded
      cases member
    · cases Option.some.inj decoded
      cases member
    · rename_i notNull
      cases Option.some.inj decoded
      cases member
      exact ⟨rfl, fun _ isNull => notNull isNull⟩
  | omission =>
    cases field with
    | none =>
      cases Option.some.inj decoded
      cases member
    | some given =>
      cases Option.some.inj decoded
      cases member
      exact ⟨rfl, nofun⟩

end Json

/-- No optional value of the resource is null. -/
structure Resource.NullFree (resource : Resource) : Prop where
  metadata : resource.metadata ≠ some .null
  dependsOn : resource.dependsOn ≠ some .null

section

variable {absence : Absence} {value : Json}

theorem Resource.of_decode? {resource : Resource} (read : value.ReadAs Resource.shape)
    (decoded : Resource.decode? absence value = some resource) :
    resource.WellFormed ∧ (absence = .null → resource.NullFree) := by
  simp only [Resource.decode?, Option.bind_eq_bind, Option.bind_eq_some_iff] at decoded
  obtain ⟨field, opened, type, _, properties, table, metadata, free, dependsOn, order, made⟩ :=
    decoded
  cases Option.some.inj made
  have ofMetadata := Json.of_optional?_some free
  have ofDependsOn := Json.of_optional?_some order
  constructor
  · constructor
    · refine Json.wellFormed_obj.mpr ⟨properties.sorted, ?_⟩
      refine Json.ReadAs.table?_forall table (fun _ found => read.field opened found rfl) ?_
      intro item property itemRead same
      cases same
      exact itemRead.wellFormed_any
    · intro found member
      exact (read.field opened (ofMetadata found member).1 rfl).wellFormed_optional
    · intro found member
      exact (read.field opened (ofDependsOn found member).1 rfl).wellFormed_optional
  · intro isNull
    exact ⟨fun found => (ofMetadata _ found).2 isNull rfl,
      fun found => (ofDependsOn _ found).2 isNull rfl⟩

theorem Output.of_decode? {output : Output} (read : value.ReadAs Output.shape)
    (decoded : Output.decode? absence value = some output) :
    output.value.WellFormed ∧ ∀ value ∈ output.exported, value.WellFormed := by
  simp only [Output.decode?, Option.bind_eq_bind, Option.bind_eq_some_iff] at decoded
  obtain ⟨field, opened, inner, found, _, _, exported, free, made⟩ := decoded
  cases Option.some.inj made
  constructor
  · exact (read.field opened found rfl).wellFormed_any
  · intro value member
    exact (read.field opened (Json.of_optional?_some free value member).1 rfl).wellFormed_optional

namespace Template

/-- No optional value of a resource of the template is null. -/
def NullFree (template : Template) : Prop := ∀ entry ∈ template.resources.entries, entry.2.NullFree

theorem NullFree.resource {template : Template} (free : template.NullFree) {logicalId : String}
    {resource : Resource} (found : template.resource? logicalId = some resource) :
    resource.NullFree :=
  free _ (Entries.mem_of_find? found)

theorem of_decode? {template : Template} (read : value.ReadAs shape)
    (decoded : decode? absence value = some template) :
    template.WellFormed ∧ (absence = .null → template.NullFree) := by
  simp only [decode?, Option.bind_eq_bind, Option.bind_eq_some_iff] at decoded
  obtain ⟨field, opened, _, _, resources, decodedResources, outputs, decodedOutputs, made⟩ :=
    decoded
  cases Option.some.inj made
  have ofResources := Json.ReadAs.table?_forall decodedResources
    (fun _ found => read.field opened found rfl) Resource.of_decode?
  have ofOutputs := Json.ReadAs.table?_forall decodedOutputs
    (fun _ found => read.field opened found rfl) Output.of_decode?
  exact ⟨⟨fun entry member => (ofResources entry member).1, ofOutputs⟩,
    fun isNull entry member => (ofResources entry member).2 isNull⟩

end Template

end

namespace Template

/-- The template was decoded, from a notation in which optional fields are absent like this. -/
inductive DecodedFrom (template : Template) : Absence → Prop where
  | value {value : Json} (formed : value.WellFormed) (decoded : ofJson? value = some template) :
    DecodedFrom template .null
  | jsonText {body : String} (decoded : ofJsonText? body = some template) :
    DecodedFrom template .null
  | yamlText {body : String} (decoded : ofYamlText? body = some template) :
    DecodedFrom template .omission

variable {template : Template} {absence : Absence}

theorem decodedFrom_of_parse? {body : String} (parsed : parse? body = some template) :
    ∃ absence, template.DecodedFrom absence := by
  unfold parse? at parsed
  split at parsed
  · cases parsed
    have formed : (Json.obj []).WellFormed := ⟨.nil, trivial⟩
    exact ⟨.null, .value formed rfl⟩
  · exact ⟨.null, .jsonText parsed⟩
  · exact ⟨.omission, .yamlText parsed⟩

theorem DecodedFrom.exists_read (decoded : template.DecodedFrom absence) :
    ∃ value : Json, value.ReadAs shape ∧ decode? absence value = some template := by
  cases decoded with
  | @value value formed decoded => exact ⟨value, .formed formed, decoded⟩
  | jsonText decoded =>
    obtain ⟨value, read, decoded⟩ := Option.bind_eq_some_iff.mp decoded
    obtain ⟨document, _, read⟩ := Option.bind_eq_some_iff.mp read
    exact ⟨value, Json.Document.readAs_of_read? read, decoded⟩
  | yamlText decoded =>
    obtain ⟨value, read, decoded⟩ := Option.bind_eq_some_iff.mp decoded
    refine ⟨value, ?_, decoded⟩
    simp only [Yaml.Node.parse?, Option.bind_eq_bind, Option.bind_eq_some_iff] at read
    obtain ⟨documents, _, read⟩ := read
    split at read
    · exact Yaml.Node.readAs_of_read? read
    · exact Yaml.Node.readAs_of_read? read
    · cases read

theorem DecodedFrom.wellFormed (decoded : template.DecodedFrom absence) : template.WellFormed := by
  obtain ⟨value, read, decoded⟩ := decoded.exists_read
  exact (of_decode? read decoded).1

theorem DecodedFrom.nullFree (decoded : template.DecodedFrom .null) : template.NullFree := by
  obtain ⟨value, read, decoded⟩ := decoded.exists_read
  exact (of_decode? read decoded).2 rfl

end Template

end StackSwap
