import StackSwap.Proofs.Entries
import StackSwap.Proofs.Sequence
import StackSwap.Proofs.Decoding

/-! A record is written with the fields that it has. JSON cannot write an optional field that is null;
decoding from JSON never makes one, and whatever it makes comes back. -/

namespace StackSwap

universe u

namespace Entries

variable {α : Type u}

theorem find?_ofList {pairs : List (String × α)} (distinct : (pairs.map Prod.fst).Nodup)
    (key : String) : (ofList pairs).find? key = find? pairs key :=
  Option.ext fun value => by
    rw [(sorted_ofList pairs).find?_eq_some_iff, mem_ofList distinct,
      Entries.find?_eq_some_iff distinct]

theorem insert_of_above {entries : Entries α} {key : String}
    (above : ∀ entry ∈ entries, entry.1 < key) (value : α) :
    entries.insert key value = entries ++ [(key, value)] := by
  induction entries with
  | nil => rfl
  | cons head rest ih =>
    obtain ⟨name, old⟩ := head
    obtain ⟨here, later⟩ := List.forall_mem_cons.mp above
    have notBelow : ¬ key < name := String.lt_asymm here
    have different : key ≠ name := (String.ne_of_lt here).symm
    simp [insert, notBelow, different, ih later]

theorem ofList_of_sorted {entries : Entries α} (sorted : Sorted entries) :
    ofList entries = entries := by
  suffices appends : ∀ front : Entries α, Sorted (front ++ entries) →
      entries.foldl (fun result entry => result.insert entry.1 entry.2) front =
        front ++ entries from appends [] sorted
  clear sorted
  induction entries with
  | nil => simp
  | cons entry rest ih =>
    intro front sorted
    have above : ∀ earlier ∈ front, earlier.1 < entry.1 :=
      fun earlier member => (List.pairwise_append.mp sorted).2.2 earlier member entry
        (List.mem_cons_self ..)
    rw [List.foldl_cons, insert_of_above above, ih _ (by simpa using sorted), List.append_assoc,
      List.singleton_append]

end Entries

/-! Fields and tables -/

namespace Json

/-- The fields of a record that are written: those with a value. -/
def present (fields : List (String × Option Json)) : List (String × Json) :=
  fields.filterMap (fun field => field.2.map (fun value => (field.1, value)))

theorem keys_present_sublist (fields : List (String × Option Json)) :
    ((present fields).map Prod.fst).Sublist (fields.map Prod.fst) := by
  induction fields with
  | nil => exact .slnil
  | cons field rest ih =>
    obtain ⟨name, value⟩ := field
    cases value with
    | none => exact ih.cons name
    | some value => exact ih.cons_cons name

theorem find?_present {fields : List (String × Option Json)}
    (distinct : (fields.map Prod.fst).Nodup) (name : String) :
    Entries.find? (present fields) name = (Entries.find? fields name).join := by
  induction fields with
  | nil => rfl
  | cons field rest ih =>
    obtain ⟨own, value⟩ := field
    obtain ⟨fresh, distinct⟩ := List.nodup_cons.mp distinct
    have later := ih distinct
    by_cases here : own = name
    · subst here
      have nowhere : Entries.find? rest own = none := Entries.find?_eq_none_iff.mpr
        fun other member same => fresh (List.mem_map.mpr ⟨other, member, same⟩)
      cases value with
      | none => simpa [present, Entries.find?, nowhere] using later
      | some value => simp [present, Entries.find?]
    · cases value with
      | none => simpa [present, Entries.find?, here] using later
      | some value => simpa [present, Entries.find?, here] using later

/-- A record that was written has the fields that it was given. -/
theorem structure?_present {fields : List (String × Option Json)}
    (distinct : (fields.map Prod.fst).Nodup) (names : List String) :
    (ofPairs (present fields)).structure? names =
      some (fun name => (Entries.find? fields name).join) := by
  have written : ((present fields).map Prod.fst).Nodup :=
    (keys_present_sublist fields).nodup distinct
  simp only [ofPairs, structure?]
  congr 1
  funext name
  rw [Entries.find?_ofList written, find?_present distinct]

/-- A table as the value of a field, which is not written if there are no entries. -/
def ofTable {α : Type} (encode : α → Json) (table : Table α) : Option Json :=
  if table.isEmpty then none else some (.obj (table.map encode).entries)

theorem table?_map {α : Type} {encode : α → Json} {decode : Json → Option α} {table : Table α}
    (each : ∀ entry ∈ table.entries, decode (encode entry.2) = some entry.2) :
    table? decode (some (.obj (table.map encode).entries)) = some table := by
  have decoded : (table.map encode).entries.mapM
      (fun field => (decode field.2).map (fun value => (field.1, value))) = some table.entries := by
    rw [mapM_eq_some_iff]
    refine List.forall₂_map_left_iff.mpr (List.forall₂_same.mpr fun entry member => ?_)
    simp [each entry member]
  rw [table?, decoded, Option.map_some, Table.ofList]
  congr
  exact Entries.ofList_of_sorted table.sorted

theorem table?_ofTable {α : Type} {encode : α → Json} {decode : Json → Option α} {table : Table α}
    (each : ∀ entry ∈ table.entries, decode (encode entry.2) = some entry.2) :
    table? decode (ofTable encode table) = some table := by
  unfold ofTable
  split
  · rename_i empty
    have nothing : table.entries = [] := List.isEmpty_iff.mp empty
    rw [table?, Table.empty]
    congr
    exact nothing.symm
  · exact table?_map each

@[simp] theorem present_nil : present [] = [] := rfl

@[simp] theorem present_cons (name : String) (value : Option Json)
    (rest : List (String × Option Json)) :
    present ((name, value) :: rest) =
      (value.map (fun value => (name, value))).toList ++ present rest := by
  cases value with
  | none => rfl
  | some value => rfl

end Json

namespace Absence

/-- The notation can write this optional value: it has no way to write one that is null if null
means that the value is absent. -/
def Writes (absence : Absence) (value : Option Json) : Prop :=
  absence = .null → value ≠ some .null

theorem optional?_of_writes {absence : Absence} {value : Option Json}
    (writes : absence.Writes value) : absence.optional? some value = some value := by
  cases value with
  | none => cases absence <;> rfl
  | some value =>
    cases absence with
    | omission => rfl
    | null =>
      have notNull : value ≠ .null := fun same => writes rfl (congrArg some same)
      cases value <;> first | rfl | exact absurd rfl notNull

theorem optional?_str (absence : Absence) (text : Option String) :
    absence.optional? Json.str? (text.map Json.str) = some text := by
  cases text with
  | none => cases absence <;> rfl
  | some text => cases absence <;> rfl

end Absence

/-! Records -/

section

variable {absence : Absence}

theorem Parameter.decode?_toJson {parameter : Parameter}
    (default : absence.Writes parameter.default) :
    decode? absence parameter.toJson = some parameter := by
  have fields : parameter.toJson = .ofPairs (Json.present [("Type", parameter.type.map .str),
      ("Default", parameter.default), ("Description", parameter.description.map .str)]) := by
    simp [toJson, Function.comp_def]
  rw [fields, decode?, Json.structure?_present (by simp)]
  simp [Entries.find?, Absence.optional?_str, Absence.optional?_of_writes default]

theorem Resource.decode?_toJson {resource : Resource} (metadata : absence.Writes resource.metadata)
    (dependsOn : absence.Writes resource.dependsOn) :
    decode? absence resource.toJson = some resource := by
  have fields : resource.toJson = .ofPairs (Json.present [("Type", some (.str resource.type)),
      ("Properties", Json.ofTable id resource.properties), ("Metadata", resource.metadata),
      ("DependsOn", resource.dependsOn)]) := by
    by_cases empty : resource.properties.isEmpty = true
    · simp [toJson, Json.ofTable, empty]
    · simp [toJson, Json.ofTable, empty, Table.map, Entries.mapValues]
  have properties : Json.table? some (Json.ofTable id resource.properties) =
      some resource.properties := Json.table?_ofTable fun _ _ => rfl
  rw [fields, decode?, Json.structure?_present (by simp)]
  simp [Entries.find?, Json.str?, properties, Absence.optional?_of_writes metadata,
    Absence.optional?_of_writes dependsOn]

theorem Output.decode?_toJson {output : Output} (exported : absence.Writes output.exported) :
    decode? absence output.toJson = some output := by
  have fields : output.toJson = .ofPairs (Json.present [("Value", some output.value),
      ("Description", output.description.map .str), ("Export", output.exported)]) := by
    simp [toJson, Function.comp_def]
  rw [fields, decode?, Json.structure?_present (by simp)]
  simp [Entries.find?, Absence.optional?_str, Absence.optional?_of_writes exported]

theorem Absence.writes_of_optional? {field result : Option Json}
    (decoded : absence.optional? some field = some result) : absence.Writes result :=
  fun isNull same => (Json.of_optional?_some decoded _ same).2 isNull rfl

theorem Parameter.writes_of_decode? {value : Json} {parameter : Parameter}
    (decoded : decode? absence value = some parameter) : absence.Writes parameter.default := by
  simp only [decode?, Option.bind_eq_bind, Option.bind_eq_some_iff] at decoded
  obtain ⟨_, _, _, _, default, read, _, _, made⟩ := decoded
  cases Option.some.inj made
  exact Absence.writes_of_optional? read

theorem Resource.writes_of_decode? {value : Json} {resource : Resource}
    (decoded : decode? absence value = some resource) :
    absence.Writes resource.metadata ∧ absence.Writes resource.dependsOn := by
  simp only [decode?, Option.bind_eq_bind, Option.bind_eq_some_iff] at decoded
  obtain ⟨_, _, _, _, _, _, metadata, readMetadata, dependsOn, readDependsOn, made⟩ := decoded
  cases Option.some.inj made
  exact ⟨Absence.writes_of_optional? readMetadata, Absence.writes_of_optional? readDependsOn⟩

theorem Output.writes_of_decode? {value : Json} {output : Output}
    (decoded : decode? absence value = some output) : absence.Writes output.exported := by
  simp only [decode?, Option.bind_eq_bind, Option.bind_eq_some_iff] at decoded
  obtain ⟨_, _, _, _, _, _, exported, read, made⟩ := decoded
  cases Option.some.inj made
  exact Absence.writes_of_optional? read

end

namespace Template

/-- A notation can write every optional value of the template. -/
structure Writable (absence : Absence) (template : Template) : Prop where
  defaults : ∀ entry ∈ template.parameters.entries, absence.Writes entry.2.default
  metadata : ∀ entry ∈ template.resources.entries, absence.Writes entry.2.metadata
  dependsOn : ∀ entry ∈ template.resources.entries, absence.Writes entry.2.dependsOn
  exports : ∀ entry ∈ template.outputs.entries, absence.Writes entry.2.exported

/-- What a notation can write comes back from what is written. -/
theorem decode?_toJson {absence : Absence} {template : Template}
    (writable : template.Writable absence) : decode? absence template.toJson = some template := by
  have fields : template.toJson = .ofPairs (Json.present [
      ("Parameters", Json.ofTable Parameter.toJson template.parameters),
      ("Resources", some (.obj (template.resources.map Resource.toJson).entries)),
      ("Outputs", Json.ofTable Output.toJson template.outputs)]) := by
    by_cases noParameters : template.parameters.isEmpty = true <;>
      by_cases noOutputs : template.outputs.isEmpty = true <;>
        simp [toJson, Json.ofTable, noParameters, noOutputs]
  have parameters := Json.table?_ofTable
    fun entry member => Parameter.decode?_toJson (writable.defaults entry member)
  have resources := Json.table?_map fun entry member =>
    Resource.decode?_toJson (writable.metadata entry member) (writable.dependsOn entry member)
  have outputs := Json.table?_ofTable fun entry member =>
    Output.decode?_toJson (writable.exports entry member)
  rw [fields, decode?, Json.structure?_present (by simp)]
  simp [Entries.find?, parameters, resources, outputs]

/-- A notation can write every template that was decoded from it. -/
theorem writable_of_decode? {absence : Absence} {value : Json} {template : Template}
    (decoded : decode? absence value = some template) : template.Writable absence := by
  simp only [decode?, Option.bind_eq_bind, Option.bind_eq_some_iff] at decoded
  obtain ⟨_, _, parameters, readParameters, resources, readResources, outputs, readOutputs, made⟩ :=
    decoded
  cases Option.some.inj made
  constructor
  · intro entry member
    obtain ⟨_, _, field, _, decoded⟩ := Json.exists_field_of_table? readParameters member
    exact Parameter.writes_of_decode? decoded
  · intro entry member
    obtain ⟨_, _, field, _, decoded⟩ := Json.exists_field_of_table? readResources member
    exact (Resource.writes_of_decode? decoded).1
  · intro entry member
    obtain ⟨_, _, field, _, decoded⟩ := Json.exists_field_of_table? readResources member
    exact (Resource.writes_of_decode? decoded).2
  · intro entry member
    obtain ⟨_, _, field, _, decoded⟩ := Json.exists_field_of_table? readOutputs member
    exact Output.writes_of_decode? decoded

/-- A template that was decoded from a value comes back from its encoding, and so does the encoding
from decoding and encoding again. -/
theorem ofJson?_toJson {value : Json} {template : Template}
    (decoded : ofJson? value = some template) :
    ofJson? template.toJson = some template ∧
      (ofJson? template.toJson).map toJson = some template.toJson := by
  have again : ofJson? template.toJson = some template :=
    decode?_toJson (writable_of_decode? decoded)
  exact ⟨again, by rw [again, Option.map_some]⟩

/-- Arrays of fields in place of objects: a parameter without any, a resource with nothing but its
type, another one without properties and with dependencies, and an output whose value is null. -/
def positional : Json := .arr [
  .obj [("Stage", .arr [])],
  .obj [("Topic", .arr [.str "AWS::SNS::Topic"]),
    ("Queue", .arr [.str "AWS::SQS::Queue", .obj [], .null, .str "Topic"])],
  .obj [("Nothing", .arr [.null])]]

theorem ofJson?_toJson_positional :
    ∃ template, ofJson? positional = some template ∧
      template.parameters.keys = ["Stage"] ∧ template.resources.keys = ["Queue", "Topic"] ∧
      (template.outputs.find? "Nothing").map Output.value = some .null ∧
      (template.resource? "Queue").bind Resource.dependsOn = some (.str "Topic") ∧
      ofJson? template.toJson = some template ∧
      (ofJson? template.toJson).map toJson = some template.toJson := by
  have decoded : ∃ template, ofJson? positional = some template ∧
      template.parameters.keys = ["Stage"] ∧ template.resources.keys = ["Queue", "Topic"] ∧
      (template.outputs.find? "Nothing").map Output.value = some .null ∧
      (template.resource? "Queue").bind Resource.dependsOn = some (.str "Topic") :=
    ⟨_, rfl, rfl, rfl, rfl, rfl⟩
  obtain ⟨template, decoded, parameters, resources, nothing, dependsOn⟩ := decoded
  exact ⟨template, decoded, parameters, resources, nothing, dependsOn, ofJson?_toJson decoded⟩

end Template

end StackSwap
