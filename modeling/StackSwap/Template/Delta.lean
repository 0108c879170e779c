import StackSwap.Json.Delta
import StackSwap.Template

namespace StackSwap

inductive ChangeKind where
  | added
  | removed
  | modified
deriving DecidableEq, Repr, Inhabited

/-- The change of one resource between two templates. Metadata and dependencies are reported but
never stand in the way of anything. -/
structure ResourceChange where
  logicalId : String
  type : String
  kind : ChangeKind
  old : Option Resource := none
  new : Option Resource := none
  properties : List Change := []
  metadata : List Change := []
  dependsOn : List Change := []
deriving BEq, Inhabited

namespace ResourceChange

/-- A resource that only the new template has. -/
def added (logicalId : String) (new : Resource) : ResourceChange :=
  { logicalId, type := new.type, kind := .added, new := some new }

/-- A resource that only the old template has. -/
def removed (logicalId : String) (old : Resource) : ResourceChange :=
  { logicalId, type := old.type, kind := .removed, old := some old }

/-- The change of a resource that both templates have with one type, if it changed at all. -/
def modified? (logicalId : String) (old new : Resource) : Option ResourceChange :=
  let properties := Json.delta (.obj old.properties.entries) (.obj new.properties.entries)
  let metadata := Json.deltaOptional old.metadata new.metadata
  let dependsOn := Json.deltaOptional old.dependsOn new.dependsOn
  if properties.isEmpty && metadata.isEmpty && dependsOn.isEmpty then none
  else some {
    logicalId, type := new.type, kind := .modified, old := some old, new := some new,
    properties, metadata, dependsOn }

/-- The names of the top-level properties that changed, in order. -/
def changedProperties (change : ResourceChange) : List String :=
  (Table.ofList (change.properties.map (fun leaf => (leaf.property, ())))).keys

def hasPropertyChanges (change : ResourceChange) : Bool := !change.properties.isEmpty

def newProperty? (change : ResourceChange) (name : String) : Option Json :=
  change.new.bind (·.property? name)

end ResourceChange

namespace Template

/-- The changes of the resource with one logical ID. -/
def resourceChangesAt (old new : Template) (logicalId : String) : List ResourceChange :=
  match old.resource? logicalId, new.resource? logicalId with
  | none, none => []
  | none, some new => [.added logicalId new]
  | some old, none => [.removed logicalId old]
  | some old, some new =>
    if old.type = new.type then (ResourceChange.modified? logicalId old new).toList
    else [.removed logicalId old, .added logicalId new]

/-- The changes of all resources, in order of their logical IDs. -/
def resourceChanges (old new : Template) : List ResourceChange :=
  (Table.keysOfBoth old.resources new.resources).flatMap (resourceChangesAt old new)

/-- The names of the outputs that were added, removed or changed, in order. -/
def changedOutputs (old new : Template) : List String :=
  (Table.keysOfBoth old.outputs new.outputs).filter
    (fun name => old.outputs.find? name != new.outputs.find? name)

/-- Whether no resource and no output changed. -/
def isUnchanged (old new : Template) : Bool :=
  (resourceChanges old new).isEmpty && (changedOutputs old new).isEmpty

end Template

end StackSwap
