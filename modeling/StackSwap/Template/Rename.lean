import StackSwap.Template.Delta

/-! Resources that only got another logical ID: each added resource, in order, takes the first removed
one of equal type and properties that is still free, and both are dropped. -/

namespace StackSwap

namespace ResourceChange

/-- Whether a removed resource is what was added under another logical ID. -/
def isRenamedTo (removed added : ResourceChange) : Bool :=
  match removed.old, added.new with
  | some old, some new => old.type == new.type && old.properties == new.properties
  | _, _ => false

/-- The positions of the pairs, for the added resources in order and the free removed ones. -/
def renamedPairs : (added free : List (ResourceChange × Nat)) → List Nat
  | [], _ => []
  | (added, position) :: rest, free =>
    match free.find? (fun (removed, _) => removed.isRenamedTo added) with
    | none => renamedPairs rest free
    | some (_, partner) =>
      position :: partner :: renamedPairs rest (free.filter (fun (_, other) => other ≠ partner))

/-- The changes without the pairs of renamed resources. -/
def withoutRenames (changes : List ResourceChange) : List ResourceChange :=
  let placed := changes.zipIdx
  let dropped := renamedPairs
    (placed.filter (fun (change, _) => change.kind == .added))
    (placed.filter (fun (change, _) => change.kind == .removed))
  (placed.filter (fun (_, position) => !dropped.contains position)).map Prod.fst

end ResourceChange

end StackSwap
