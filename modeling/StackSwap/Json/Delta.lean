import StackSwap.Json.Pointer

namespace StackSwap

/-- A place at which two values differ. A value that one side does not have is `none`. -/
structure Change where
  path : Json.Path
  before : Option Json
  after : Option Json
deriving BEq, Repr, Inhabited

namespace Change

/-- The change seen from one level further out. -/
def under (segment : String) (change : Change) : Change :=
  { change with path := segment :: change.path }

def property (change : Change) : String := change.path.headD ""

def dotted (change : Change) : String := ".".intercalate change.path

/-- Changes at several keys or indices, in the order of their paths. -/
def gather (changes : List (String × List Change)) : List Change :=
  (Entries.ofList changes).flatMap (fun (segment, inner) => inner.map (under segment))

end Change

namespace Json

/-- A value that only the newer side has. -/
def addition (segment : String) (value : Json) : String × List Change :=
  (segment, [⟨[], none, some value⟩])

/-- A value that only the older side has. -/
def removal (segment : String) (value : Json) : String × List Change :=
  (segment, [⟨[], some value, none⟩])

mutual

/-- The changes from an old value to a new one. -/
def delta : Json → Json → List Change
  | .obj old, .obj new =>
    Change.gather (deltaFields old new ++
      (new.filter (fun (key, _) => !Entries.contains old key)).map
        (fun (key, value) => addition key value))
  | .arr old, .arr new => Change.gather (deltaItems 0 old new)
  | old, new => if old.same new then [] else [⟨[], some old, some new⟩]
termination_by structural old => old

/-- The changes under the keys of the old object. -/
def deltaFields : List (String × Json) → List (String × Json) → List (String × List Change)
  | [], _ => []
  | (key, old) :: rest, fields =>
    (match Entries.find? fields key with
      | some new => (key, delta old new)
      | none => removal key old) :: deltaFields rest fields
termination_by structural old => old

def deltaItems (index : Nat) : List Json → List Json → List (String × List Change)
  | [], new => (new.zipIdx index).map (fun (value, index) => addition (toString index) value)
  | old :: _, [] => [removal (toString index) old]
  | old :: olds, new :: news =>
    (toString index, delta old new) :: deltaItems (index + 1) olds news
termination_by structural old => old

end

/-- The changes between two values either of which may be missing; if only one is, it counts as
null. -/
def deltaOptional : Option Json → Option Json → List Change
  | none, none => []
  | old, new => delta (old.getD .null) (new.getD .null)

end Json

end StackSwap
