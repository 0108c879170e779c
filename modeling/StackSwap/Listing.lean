import StackSwap.Json

namespace StackSwap

structure ListedResource where
  logicalId : String
  type : String
  physicalId : String
deriving DecidableEq, Repr, Inhabited

namespace ListedResource

/-- Decodes an object with the three names, or the array of exactly these. -/
def ofJson? : Json → Option ListedResource
  | .obj fields => do
    return {
      logicalId := ← (Entries.find? fields "logical_id").bind Json.str?
      type := ← (Entries.find? fields "resource_type").bind Json.str?
      physicalId := ← (Entries.find? fields "physical_id").bind Json.str? }
  | .arr [.str logicalId, .str type, .str physicalId] => some ⟨logicalId, type, physicalId⟩
  | _ => none

end ListedResource

abbrev Listing := Table ListedResource

namespace Listing

/-- The listing of some resources; of several with one logical ID the last stays. -/
def ofResources (resources : List ListedResource) : Listing :=
  Table.ofList (resources.map (fun resource => (resource.logicalId, resource)))

/-- The identifier of the actual resource behind a logical ID. -/
def physicalId? (listing : Listing) (logicalId : String) : Option String :=
  (listing.find? logicalId).map ListedResource.physicalId

end Listing

end StackSwap
