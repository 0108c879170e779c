import StackSwap.Template
import StackSwap.Shape

/-! Templates as JSON values. In JSON an optional field is absent when it is missing or null. Another
notation leaves out what stands for nothing, and a null that is left is a value. -/

namespace StackSwap

/-- Looks up a field of a structure that is given as an object or as an array of its fields.
The outer `none` means that the value is neither, or has more items than there are fields. -/
def Json.structure? (names : List String) : Json → Option (String → Option Json)
  | .obj fields => some (Entries.find? fields)
  | .arr items =>
    if items.length ≤ names.length then
      some (fun name => ((names.zip items).find? (fun field => field.1 == name)).map Prod.snd)
    else none
  | _ => none

/-- An optional field: absent when missing or null. -/
def Json.optional? {α : Type} (decode : Json → Option α) : Option Json → Option (Option α)
  | none | some .null => some none
  | some value => (decode value).map some

/-- How a notation writes that an optional field is absent. -/
inductive Absence where
  /-- by null, or by leaving out the field -/
  | null
  /-- only by leaving out the field -/
  | omission
deriving DecidableEq, Repr, Inhabited

/-- An optional field. -/
def Absence.optional? {α : Type} (absence : Absence) (decode : Json → Option α)
    (field : Option Json) : Option (Option α) :=
  match absence with
  | .null => Json.optional? decode field
  | .omission => field.mapM decode

/-- Decodes the values of an object; a missing object is an empty one. -/
def Json.table? {α : Type} (decode : Json → Option α) : Option Json → Option (Table α)
  | none => some .empty
  | some (.obj fields) =>
    (fields.mapM (fun field => (decode field.2).map (fun value => (field.1, value)))).map Table.ofList
  | some _ => none

namespace Parameter

def fieldNames : List String := ["Type", "Default", "Description"]

def shape : Shape :=
  .record [("Type", .optional .text), ("Default", .optional .any), ("Description", .optional .text)]

def decode? (absence : Absence) (value : Json) : Option Parameter := do
  let field ← value.structure? fieldNames
  return {
    type := ← absence.optional? Json.str? (field "Type")
    default := ← absence.optional? some (field "Default")
    description := ← absence.optional? Json.str? (field "Description") }

def toJson (parameter : Parameter) : Json :=
  .ofPairs <|
    (parameter.type.map (fun type => ("Type", Json.str type))).toList ++
    (parameter.default.map (fun default => ("Default", default))).toList ++
    (parameter.description.map (fun text => ("Description", Json.str text))).toList

end Parameter

namespace Resource

def fieldNames : List String := ["Type", "Properties", "Metadata", "DependsOn"]

def shape : Shape :=
  .record [("Type", .text), ("Properties", .table .any), ("Metadata", .optional .any),
    ("DependsOn", .optional .any)]

def decode? (absence : Absence) (value : Json) : Option Resource := do
  let field ← value.structure? fieldNames
  return {
    type := ← (field "Type").bind Json.str?
    properties := ← Json.table? some (field "Properties")
    metadata := ← absence.optional? some (field "Metadata")
    dependsOn := ← absence.optional? some (field "DependsOn") }

def toJson (resource : Resource) : Json :=
  .ofPairs <|
    [("Type", Json.str resource.type)] ++
    (if resource.properties.isEmpty then [] else [("Properties", .obj resource.properties.entries)]) ++
    (resource.metadata.map (fun value => ("Metadata", value))).toList ++
    (resource.dependsOn.map (fun value => ("DependsOn", value))).toList

end Resource

namespace Output

def fieldNames : List String := ["Value", "Description", "Export"]

def shape : Shape :=
  .record [("Value", .any), ("Description", .optional .text), ("Export", .optional .any)]

/-- Decodes an output. Its value has to be there, and may be null. -/
def decode? (absence : Absence) (value : Json) : Option Output := do
  let field ← value.structure? fieldNames
  return {
    value := ← field "Value"
    description := ← absence.optional? Json.str? (field "Description")
    exported := ← absence.optional? some (field "Export") }

def toJson (output : Output) : Json :=
  .ofPairs <|
    [("Value", output.value)] ++
    (output.description.map (fun text => ("Description", Json.str text))).toList ++
    (output.exported.map (fun value => ("Export", value))).toList

end Output

namespace Template

def fieldNames : List String := ["Parameters", "Resources", "Outputs"]

def shape : Shape :=
  .record [("Parameters", .table Parameter.shape), ("Resources", .table Resource.shape),
    ("Outputs", .table Output.shape)]

def decode? (absence : Absence) (value : Json) : Option Template := do
  let field ← value.structure? fieldNames
  return {
    parameters := ← Json.table? (Parameter.decode? absence) (field "Parameters")
    resources := ← Json.table? (Resource.decode? absence) (field "Resources")
    outputs := ← Json.table? (Output.decode? absence) (field "Outputs") }

/-- Decodes a template that is given as JSON. -/
def ofJson? (value : Json) : Option Template := decode? .null value

def toJson (template : Template) : Json :=
  .ofPairs <|
    (if template.parameters.isEmpty then []
      else [("Parameters", .obj (template.parameters.map Parameter.toJson).entries)]) ++
    [("Resources", .obj (template.resources.map Resource.toJson).entries)] ++
    (if template.outputs.isEmpty then []
      else [("Outputs", .obj (template.outputs.map Output.toJson).entries)])

end Template

end StackSwap
