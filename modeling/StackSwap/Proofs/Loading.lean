import StackSwap.Proofs.Timed
import StackSwap.Stack.Loading

namespace StackSwap

namespace Stack

variable {lookups : Lookups} {source : TemplateSource}

/-- One of the two lookups about a stack stops. -/
inductive LookupStops (lookups : Lookups) (stackName : String) (problem : Option Failure) : Prop where
  | template (stops : (lookups.template stackName).Stops problem)
  | resources (stops : (lookups.resources stackName).Stops problem)

/-- The resources of a template that are nested stacks. -/
def nestedResources (generated : Template) : Entries Resource :=
  generated.resources.entries.filter (fun (_, resource) => resource.isNestedStack)

/-- The template has a nested stack for which the source has this template. -/
structure Nests (source : TemplateSource) (generated : Template) (logicalId : String)
    (template : Template) : Prop where
  known : ∃ resource duration, (logicalId, resource) ∈ nestedResources generated ∧
    source (.ofResource logicalId resource) = .ends duration (.ok (some template))

/-- Something stops the nested stacks of a level from being loaded. Below the last level a tree is
never loaded. -/
inductive NestedStops (lookups : Lookups) (source : TemplateSource) :
    Nat → Template → Listing → Option Failure → Prop where
  | deep {generated : Template} {listing : Listing} :
    NestedStops lookups source 0 generated listing none
  | source {levels : Nat} {generated : Template} {listing : Listing} {logicalId : String}
    {resource : Resource} {problem : Option Failure}
    (member : (logicalId, resource) ∈ nestedResources generated)
    (stops : (source (.ofResource logicalId resource)).Stops problem) :
    NestedStops lookups source (levels + 1) generated listing
      (problem.map (nestedFailure logicalId))
  | lookup {levels : Nat} {generated template : Template} {listing : Listing}
    {logicalId stackName : String} {problem : Option Failure}
    (nests : Nests source generated logicalId template)
    (listed : listing.physicalId? logicalId = some stackName)
    (stops : LookupStops lookups stackName problem) :
    NestedStops lookups source (levels + 1) generated listing
      (problem.map (nestedFailure logicalId))
  | inside {levels duration : Nat} {generated template : Template} {listing : Listing}
    {logicalId : String} {stack : Stack} {problem : Option Failure}
    (nests : Nests source generated logicalId template)
    (loaded : loadNestedLevel lookups (listing.physicalId? logicalId) template =
      .ends duration (.ok stack))
    (rest : NestedStops lookups source levels stack.generated stack.listing problem) :
    NestedStops lookups source (levels + 1) generated listing problem

/-- Something stops the tree of a deployed stack from being loaded. -/
inductive LoadStops (lookups : Lookups) (source : TemplateSource) (levels : Nat)
    (stackName : String) (generated : Template) (problem : Option Failure) : Prop where
  | lookup (stops : LookupStops lookups stackName problem)
  | nested {duration : Nat} {stack : Stack}
    (loaded : loadDeployed lookups stackName generated = .ends duration (.ok (some stack)))
    (stops : NestedStops lookups source levels stack.generated stack.listing problem)

theorem loadDeployed_eq_ok {stackName : String} {generated : Template} {duration : Nat}
    {stack : Option Stack}
    (loaded : loadDeployed lookups stackName generated = .ends duration (.ok stack)) :
    ∃ early late deployed resources, lookups.template stackName = .ends early (.ok deployed) ∧
      lookups.resources stackName = .ends late (.ok resources) := by
  obtain ⟨⟨deployed, resources⟩, joined, _⟩ := Timed.map_eq_ok loaded
  obtain ⟨early, late, template, listed, _⟩ := Timed.both_eq_ok joined
  exact ⟨early, late, deployed, resources, template, listed⟩

theorem lookupStops_of_loadDeployed {stackName : String} {generated : Template}
    {problem : Option Failure} (stops : (loadDeployed lookups stackName generated).Stops problem) :
    LookupStops lookups stackName problem := by
  rcases Timed.stops_of_both (Timed.stops_map_iff.mp stops) with template | resources
  · exact .template template
  · exact .resources resources

theorem LookupStops.not_loaded {stackName : String} {problem : Option Failure}
    (stops : LookupStops lookups stackName problem) {generated : Template} {duration : Nat}
    {stack : Option Stack} : loadDeployed lookups stackName generated ≠ .ends duration (.ok stack) := by
  intro loaded
  obtain ⟨early, late, deployed, resources, template, listed⟩ := loadDeployed_eq_ok loaded
  cases stops with
  | template stops => exact Timed.not_stops_ok (template ▸ stops)
  | resources stops => exact Timed.not_stops_ok (listed ▸ stops)

theorem lookupStops_of_loadNestedLevel {physicalId : Option String} {generated : Template}
    {problem : Option Failure}
    (stops : (loadNestedLevel lookups physicalId generated).Stops problem) :
    ∃ stackName, physicalId = some stackName ∧ LookupStops lookups stackName problem := by
  cases physicalId with
  | none => exact absurd stops Timed.not_stops_ok
  | some stackName =>
    exact ⟨stackName, rfl, lookupStops_of_loadDeployed (Timed.stops_map_iff.mp stops)⟩

/-- Loads one nested stack of a level, and what is nested in it. -/
def loadNestedStack (lookups : Lookups) (source : TemplateSource) (levels : Nat)
    (listing : Listing) (logicalId : String) (resource : Resource) :
    Timed (Option (String × Stack)) :=
  ((source (.ofResource logicalId resource)).mapFailure (nestedFailure logicalId)).andThen
    fun template =>
      match template with
      | none => .now (.ok none)
      | some template =>
        ((loadNestedLevel lookups (listing.physicalId? logicalId) template).mapFailure
          (nestedFailure logicalId)).andThen fun stack =>
            (loadNested lookups source levels stack.generated stack.listing).map fun nested =>
              some (logicalId, { stack with nested })

theorem loadNested_succ (levels : Nat) (generated : Template) (listing : Listing) :
    loadNested lookups source (levels + 1) generated listing =
      (Timed.all ((nestedResources generated).map (fun (logicalId, resource) =>
        loadNestedStack lookups source levels listing logicalId resource))).map
          (fun children => children.filterMap id) := rfl

theorem nestedStops_of_loadNested {levels : Nat} {generated : Template} {listing : Listing}
    {problem : Option Failure}
    (stops : (loadNested lookups source levels generated listing).Stops problem) :
    NestedStops lookups source levels generated listing problem := by
  induction levels generalizing generated listing problem with
  | zero =>
    cases stops
    exact .deep
  | succ levels ih =>
    rw [loadNested_succ, Timed.stops_map_iff] at stops
    obtain ⟨part, inParts, stopped⟩ := Timed.stops_of_all stops
    obtain ⟨⟨logicalId, resource⟩, member, rfl⟩ := List.mem_map.mp inParts
    rcases Timed.stops_of_andThen stopped with noTemplate | ⟨duration, template, found, later⟩
    · obtain ⟨cause, sourceStops, rfl⟩ := Timed.stops_of_mapFailure noTemplate
      exact .source member sourceStops
    · cases template with
      | none => exact absurd later Timed.not_stops_ok
      | some template =>
        have nests : Nests source generated logicalId template :=
          ⟨resource, duration, member, Timed.mapFailure_eq_ok found⟩
        rcases Timed.stops_of_andThen later with noLevel | ⟨_, stack, loaded, inner⟩
        · obtain ⟨cause, levelStops, rfl⟩ := Timed.stops_of_mapFailure noLevel
          obtain ⟨stackName, listed, lookupStops⟩ := lookupStops_of_loadNestedLevel levelStops
          exact .lookup nests listed lookupStops
        · exact .inside nests (Timed.mapFailure_eq_ok loaded) (ih (Timed.stops_map_iff.mp inner))

theorem exists_of_loadNested {levels duration : Nat} {generated : Template} {listing : Listing}
    {nested : List (String × Stack)} {logicalId : String} {resource : Resource}
    (loaded : loadNested lookups source (levels + 1) generated listing = .ends duration (.ok nested))
    (member : (logicalId, resource) ∈ nestedResources generated) :
    ∃ result late, loadNestedStack lookups source levels listing logicalId resource =
      .ends late (.ok result) := by
  rw [loadNested_succ] at loaded
  obtain ⟨children, joined, _⟩ := Timed.map_eq_ok loaded
  obtain ⟨result, _, late, succeeds⟩ := exists_of_mem_left (Timed.all_eq_ok joined)
    (List.mem_map_of_mem member)
  exact ⟨result, late, succeeds⟩

/-- Where the template is known the nested stack was loaded, and what is nested in it. -/
theorem Nests.exists_level {levels duration : Nat} {generated template : Template}
    {listing : Listing} {nested : List (String × Stack)} {logicalId : String}
    (nests : Nests source generated logicalId template)
    (loaded : loadNested lookups source (levels + 1) generated listing =
      .ends duration (.ok nested)) :
    ∃ late stack last below, loadNestedLevel lookups (listing.physicalId? logicalId) template =
        .ends late (.ok stack) ∧
      loadNested lookups source levels stack.generated stack.listing = .ends last (.ok below) := by
  obtain ⟨resource, found, member, known⟩ := nests
  obtain ⟨result, late, succeeds⟩ := exists_of_loadNested loaded member
  obtain ⟨_, again, _, first, second⟩ := Timed.andThen_eq_ok succeeds
  cases known.symm.trans (Timed.mapFailure_eq_ok first)
  obtain ⟨_, stack, _, here, inner⟩ := Timed.andThen_eq_ok second
  obtain ⟨below, last, _⟩ := Timed.map_eq_ok inner
  exact ⟨_, stack, _, below, Timed.mapFailure_eq_ok here, last⟩

theorem NestedStops.not_loaded {levels : Nat} {generated : Template} {listing : Listing}
    {problem : Option Failure} (stops : NestedStops lookups source levels generated listing problem)
    {duration : Nat} {nested : List (String × Stack)} :
    loadNested lookups source levels generated listing ≠ .ends duration (.ok nested) := by
  induction stops generalizing duration nested with
  | deep => exact nofun
  | source member stopped =>
    intro loaded
    obtain ⟨result, late, succeeds⟩ := exists_of_loadNested loaded member
    obtain ⟨_, _, _, first, _⟩ := Timed.andThen_eq_ok succeeds
    exact Timed.not_stops_ok (Timed.mapFailure_eq_ok first ▸ stopped)
  | lookup nests listed stopped =>
    intro loaded
    obtain ⟨late, stack, last, below, here, _⟩ := nests.exists_level loaded
    rw [listed] at here
    obtain ⟨_, found, _⟩ := Timed.map_eq_ok here
    exact stopped.not_loaded found
  | inside nests here _ ih =>
    intro loaded
    obtain ⟨late, stack, last, below, again, inner⟩ := nests.exists_level loaded
    cases here.symm.trans again
    exact ih inner

/-- A tree is not loaded for one of the problems in it. -/
theorem loadStops_of_load {levels : Nat} {stackName : String} {generated : Template}
    {problem : Option Failure}
    (stops : (load lookups source levels stackName generated).Stops problem) :
    LoadStops lookups source levels stackName generated problem := by
  rcases Timed.stops_of_andThen stops with atRoot | ⟨duration, found, loaded, later⟩
  · exact .lookup (lookupStops_of_loadDeployed atRoot)
  · cases found with
    | none => exact absurd later Timed.not_stops_ok
    | some stack => exact .nested loaded (nestedStops_of_loadNested (Timed.stops_map_iff.mp later))

theorem LoadStops.not_loaded {levels : Nat} {stackName : String} {generated : Template}
    {problem : Option Failure}
    (stops : LoadStops lookups source levels stackName generated problem) {duration : Nat}
    {stack : Option Stack} :
    load lookups source levels stackName generated ≠ .ends duration (.ok stack) := by
  intro loaded
  obtain ⟨early, found, late, atRoot, later⟩ := Timed.andThen_eq_ok loaded
  cases stops with
  | lookup stopped => exact stopped.not_loaded atRoot
  | nested here stopped =>
    cases here.symm.trans atRoot
    obtain ⟨nested, below, _⟩ := Timed.map_eq_ok later
    exact stopped.not_loaded below

end Stack

end StackSwap
