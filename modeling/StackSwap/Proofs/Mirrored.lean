import StackSwap.Proofs.Loading
import StackSwap.Proofs.Nesting

namespace StackSwap

/-- There is a deployed stack with this name and template. -/
def Lookups.Deploys (lookups : Lookups) (stackName : String) (template : Template) : Prop :=
  ∃ duration, lookups.template stackName = .ends duration (.ok (some template))

/-- These are the resources of the stack with this name. -/
def Lookups.Lists (lookups : Lookups) (stackName : String) (resources : List ListedResource) :
    Prop :=
  ∃ duration, lookups.resources stackName = .ends duration (.ok resources)

/-- The source has a template for the location. -/
def TemplateSource.Has (source : TemplateSource) (location : TemplateLocation)
    (template : Template) : Prop :=
  ∃ duration, source location = .ends duration (.ok (some template))

namespace Stack

variable {lookups : Lookups} {source : TemplateSource}

/-- The deployed side of a stack is what was looked up under its name, or nothing. -/
structure Shows (lookups : Lookups) (stack : Stack) : Prop where
  deployed : ∀ stackName, stack.name = some stackName →
    lookups.Deploys stackName stack.deployed ∧
      ∃ resources, lookups.Lists stackName resources ∧ stack.listing = .ofResources resources
  undeployed : stack.name = none → stack.deployed = {} ∧ stack.listing = .empty

/-- A level of a stack tree agrees with the lookups and with the source. -/
structure Mirrors (lookups : Lookups) (source : TemplateSource) (stack : Stack) : Prop where
  shows_ : stack.Shows lookups
  /-- The nested stacks are in order of their logical IDs, each once. -/
  sorted : Entries.Sorted stack.nested
  /-- They are the nested stack resources with a template, and have it as the generated one. -/
  nested : ∀ logicalId template,
    (∃ child, stack.nested? logicalId = some child ∧ child.generated = template) ↔
      ∃ resource, stack.generated.resource? logicalId = some resource ∧
        resource.isNestedStack = true ∧ source.Has (.ofResource logicalId resource) template
  /-- One is deployed under its listed name exactly if there is a template under that. -/
  named : ∀ logicalId child, stack.nested? logicalId = some child → ∀ stackName,
    child.name = some stackName ↔
      stack.listing.physicalId? logicalId = some stackName ∧
        ∃ template, lookups.Deploys stackName template

/-! One level -/

theorem loadDeployed_eq_some {stackName : String} {generated : Template} {duration : Nat}
    {stack : Stack}
    (loaded : loadDeployed lookups stackName generated = .ends duration (.ok (some stack))) :
    ∃ deployed resources, lookups.Deploys stackName deployed ∧
      lookups.Lists stackName resources ∧
      stack = ⟨some stackName, deployed, generated, .ofResources resources, []⟩ := by
  obtain ⟨⟨deployed, resources⟩, joined, made⟩ := Timed.map_eq_ok loaded
  obtain ⟨early, late, template, listed, _⟩ := Timed.both_eq_ok joined
  obtain ⟨found, rfl, rfl⟩ := Option.map_eq_some_iff.mp made
  exact ⟨found, resources, ⟨early, template⟩, ⟨late, listed⟩, rfl⟩

theorem loadDeployed_eq_none {stackName : String} {generated : Template} {duration : Nat}
    (loaded : loadDeployed lookups stackName generated = .ends duration (.ok none))
    (template : Template) : ¬ lookups.Deploys stackName template := by
  rintro ⟨_, deployed⟩
  obtain ⟨⟨found, resources⟩, joined, made⟩ := Timed.map_eq_ok loaded
  obtain ⟨early, late, answered, _, _⟩ := Timed.both_eq_ok joined
  cases answered.symm.trans deployed
  cases made

/-- What is known about a nested stack before its own nested stacks are loaded. -/
structure LevelOf (lookups : Lookups) (physicalId : Option String) (template : Template)
    (stack : Stack) : Prop where
  generated : stack.generated = template
  shows_ : stack.Shows lookups
  named : ∀ stackName, stack.name = some stackName ↔
    physicalId = some stackName ∧ ∃ deployed, lookups.Deploys stackName deployed

theorem levelOf_notDeployed {physicalId : Option String} {template : Template}
    (missing : ∀ stackName, physicalId = some stackName →
      ∀ deployed, ¬ lookups.Deploys stackName deployed) :
    LevelOf lookups physicalId template (notDeployed template) where
  generated := rfl
  shows_ := ⟨nofun, fun _ => ⟨rfl, rfl⟩⟩
  named := by
    intro stackName
    constructor
    · exact nofun
    · rintro ⟨listed, deployed, deploys⟩
      exact absurd deploys (missing stackName listed deployed)

theorem levelOf_loadNestedLevel {physicalId : Option String} {template : Template}
    {duration : Nat} {stack : Stack}
    (loaded : loadNestedLevel lookups physicalId template = .ends duration (.ok stack)) :
    LevelOf lookups physicalId template stack := by
  cases physicalId with
  | none =>
    cases loaded
    exact levelOf_notDeployed nofun
  | some stackName =>
    obtain ⟨found, looked, rfl⟩ := Timed.map_eq_ok loaded
    cases found with
    | none =>
      apply levelOf_notDeployed
      rintro _ ⟨⟩ deployed
      exact loadDeployed_eq_none looked deployed
    | some stack =>
      obtain ⟨deployed, resources, deploys, lists, rfl⟩ := loadDeployed_eq_some looked
      refine ⟨rfl, ⟨?_, nofun⟩, ?_⟩
      · rintro _ ⟨⟩
        exact ⟨deploys, resources, lists, rfl⟩
      · intro other
        constructor
        · rintro ⟨⟩
          exact ⟨rfl, deployed, deploys⟩
        · rintro ⟨same, _⟩
          exact same

/-! The nested stacks of a level -/

/-- What becomes of one nested stack resource: its source has no template, or the stack is loaded
with what is nested in it. -/
inductive Child (lookups : Lookups) (source : TemplateSource) (levels : Nat) (listing : Listing)
    (logicalId : String) (resource : Resource) : Option (String × Stack) → Prop where
  | absent {duration : Nat}
    (unknown : source (.ofResource logicalId resource) = .ends duration (.ok none)) :
    Child lookups source levels listing logicalId resource none
  | present {template : Template} {level : Stack} {nested : List (String × Stack)} {duration : Nat}
    (has : source.Has (.ofResource logicalId resource) template)
    (own : LevelOf lookups (listing.physicalId? logicalId) template level)
    (inner : loadNested lookups source levels level.generated level.listing =
      .ends duration (.ok nested)) :
    Child lookups source levels listing logicalId resource (some (logicalId, { level with nested }))

theorem child_of_loadNestedStack {levels duration : Nat} {listing : Listing} {logicalId : String}
    {resource : Resource} {result : Option (String × Stack)}
    (loaded : loadNestedStack lookups source levels listing logicalId resource =
      .ends duration (.ok result)) :
    Child lookups source levels listing logicalId resource result := by
  obtain ⟨_, found, _, known, later⟩ := Timed.andThen_eq_ok loaded
  have answered := Timed.mapFailure_eq_ok known
  cases found with
  | none =>
    cases later
    exact .absent answered
  | some template =>
    obtain ⟨_, level, _, here, inner⟩ := Timed.andThen_eq_ok later
    obtain ⟨nested, below, rfl⟩ := Timed.map_eq_ok inner
    exact .present ⟨_, answered⟩ (levelOf_loadNestedLevel (Timed.mapFailure_eq_ok here)) below

/-- The nested stacks of a loaded level come from its nested stack resources, one by one. -/
theorem forall₂_of_loadNested {levels duration : Nat} {generated : Template} {listing : Listing}
    {nested : List (String × Stack)}
    (loaded : loadNested lookups source (levels + 1) generated listing =
      .ends duration (.ok nested)) :
    ∃ children, nested = children.filterMap id ∧
      List.Forall₂ (fun entry child => Child lookups source levels listing entry.1 entry.2 child)
        (nestedResources generated) children := by
  rw [loadNested_succ] at loaded
  obtain ⟨children, joined, rfl⟩ := Timed.map_eq_ok loaded
  refine ⟨children, rfl, ?_⟩
  have each := Timed.all_eq_ok joined
  rw [List.forall₂_map_left_iff] at each
  exact each.imp (fun _ _ ⟨_, ends⟩ => child_of_loadNestedStack ends)

theorem keys_sublist_of_forall₂ {levels : Nat} {listing : Listing} {resources : Entries Resource}
    {children : List (Option (String × Stack))}
    (each : List.Forall₂
      (fun entry child => Child lookups source levels listing entry.1 entry.2 child)
      resources children) :
    ((children.filterMap id).map Prod.fst).Sublist (resources.map Prod.fst) := by
  induction each with
  | nil => exact .slnil
  | cons here _ ih =>
    cases here with
    | absent _ => exact ih.cons _
    | present _ _ _ => exact ih.cons_cons _

theorem mem_nestedResources {generated : Template} {logicalId : String} {resource : Resource} :
    (logicalId, resource) ∈ nestedResources generated ↔
      generated.resource? logicalId = some resource ∧ resource.isNestedStack = true := by
  rw [nestedResources, List.mem_filter]
  exact and_congr_left' generated.resources.sorted.find?_eq_some_iff.symm

section Level

variable {levels duration : Nat} {stack : Stack}
  (loaded : loadNested lookups source (levels + 1) stack.generated stack.listing =
    .ends duration (.ok stack.nested))

include loaded

theorem sorted_of_loadNested : Entries.Sorted stack.nested := by
  obtain ⟨children, same, each⟩ := forall₂_of_loadNested loaded
  have ascending : ((nestedResources stack.generated).map Prod.fst).Pairwise (· < ·) :=
    (stack.generated.resources.sorted.filter _).keys_pairwise
  rw [same]
  exact List.pairwise_map.mp (ascending.sublist (keys_sublist_of_forall₂ each))

theorem exists_child_of_mem {logicalId : String} {child : Stack}
    (member : (logicalId, child) ∈ stack.nested) :
    ∃ resource, (logicalId, resource) ∈ nestedResources stack.generated ∧
      Child lookups source levels stack.listing logicalId resource (some (logicalId, child)) := by
  obtain ⟨children, same, each⟩ := forall₂_of_loadNested loaded
  rw [same] at member
  obtain ⟨_, inChildren, rfl⟩ := List.mem_filterMap.mp member
  obtain ⟨⟨name, resource⟩, inResources, came⟩ := exists_of_mem_right each inChildren
  cases came with
  | present has own inner => exact ⟨resource, inResources, .present has own inner⟩

/-- A resource with a template has a nested stack with that template. -/
theorem exists_nested_of_has {logicalId : String} {resource : Resource} {template : Template}
    (member : (logicalId, resource) ∈ nestedResources stack.generated)
    (has : source.Has (.ofResource logicalId resource) template) :
    ∃ child, (logicalId, child) ∈ stack.nested ∧ child.generated = template := by
  obtain ⟨children, same, each⟩ := forall₂_of_loadNested loaded
  obtain ⟨result, inChildren, came⟩ := exists_of_mem_left each member
  obtain ⟨_, known⟩ := has
  cases came with
  | absent unknown => cases unknown.symm.trans known
  | present found own inner =>
    obtain ⟨_, answered⟩ := found
    cases answered.symm.trans known
    rw [same]
    exact ⟨_, List.mem_filterMap.mpr ⟨_, inChildren, rfl⟩, own.generated⟩

theorem mirrors_of_loadNested (shows_ : stack.Shows lookups) : stack.Mirrors lookups source where
  shows_ := shows_
  sorted := sorted_of_loadNested loaded
  nested := by
    intro logicalId template
    constructor
    · rintro ⟨child, found, rfl⟩
      obtain ⟨resource, member, came⟩ := exists_child_of_mem loaded (Entries.mem_of_find? found)
      cases came with
      | present has own inner =>
        obtain ⟨known, isNested⟩ := mem_nestedResources.mp member
        exact ⟨resource, known, isNested, by rw [own.generated]; exact has⟩
    · rintro ⟨resource, known, isNested, has⟩
      obtain ⟨child, member, same⟩ :=
        exists_nested_of_has loaded (mem_nestedResources.mpr ⟨known, isNested⟩) has
      exact ⟨child, (sorted_of_loadNested loaded).find?_eq_some_iff.mpr member, same⟩
  named := by
    intro logicalId child found
    obtain ⟨_, _, came⟩ := exists_child_of_mem loaded (Entries.mem_of_find? found)
    cases came with
    | present has own inner => exact own.named

end Level

theorem everywhere_of_loadNested {levels duration : Nat} {stack : Stack}
    (loaded : loadNested lookups source levels stack.generated stack.listing =
      .ends duration (.ok stack.nested))
    (shows_ : stack.Shows lookups) : stack.Everywhere (Mirrors lookups source) := by
  induction levels generalizing stack duration with
  | zero => cases loaded
  | succ levels ih =>
    refine .intro (mirrors_of_loadNested loaded shows_) ?_
    rintro ⟨logicalId, child⟩ member
    obtain ⟨_, _, came⟩ := exists_child_of_mem loaded member
    cases came with
    | present has own inner => exact ih inner ⟨own.shows_.deployed, own.shows_.undeployed⟩

/-- Nothing below a level is deployed unless the level is. -/
theorem Mirrors.undeployed_below {stack : Stack}
    (mirrored : stack.Everywhere (Mirrors lookups source)) (undeployed : stack.isDeployed = false) :
    stack.Everywhere (fun inner => inner.isDeployed = false) := by
  induction mirrored with
  | @intro stack here _ ih =>
    refine .intro undeployed ?_
    rintro ⟨logicalId, child⟩ member
    refine ih _ member ?_
    have listsNothing : stack.listing = .empty :=
      (here.shows_.undeployed (by simpa [isDeployed] using undeployed)).2
    have found : stack.nested? logicalId = some child := here.sorted.find?_eq_some_iff.mpr member
    cases name : child.name with
    | none => simp [isDeployed, name]
    | some stackName =>
      obtain ⟨listed, _⟩ := (here.named logicalId child found stackName).mp name
      rw [listsNothing] at listed
      cases listed

/-- The tree of a deployed stack, once it is loaded, agrees at every level with what was looked up
and with the source, and below a level that is not deployed nothing is. -/
theorem load_mirrors {levels duration : Nat} {stackName : String} {generated deployed : Template}
    {result : Option Stack} (deploys : lookups.Deploys stackName deployed)
    (loaded : load lookups source levels stackName generated = .ends duration (.ok result)) :
    ∃ stack, result = some stack ∧ stack.name = some stackName ∧ stack.deployed = deployed ∧
      stack.generated = generated ∧ stack.Everywhere (Mirrors lookups source) ∧
      stack.Everywhere (fun level => level.isDeployed = false →
        level.Everywhere (fun inner => inner.isDeployed = false)) := by
  obtain ⟨_, found, _, here, later⟩ := Timed.andThen_eq_ok loaded
  cases found with
  | none => exact absurd deploys (loadDeployed_eq_none here deployed)
  | some root =>
    obtain ⟨template, resources, again, lists, rfl⟩ := loadDeployed_eq_some here
    obtain ⟨nested, inner, rfl⟩ := Timed.map_eq_ok later
    have same : template = deployed := by
      obtain ⟨_, first⟩ := again
      obtain ⟨_, second⟩ := deploys
      cases first.symm.trans second
      rfl
    have shows_ : Shows lookups
        ⟨some stackName, template, generated, .ofResources resources, nested⟩ := by
      refine ⟨?_, nofun⟩
      rintro _ ⟨⟩
      exact ⟨again, resources, lists, rfl⟩
    have mirrored := everywhere_of_loadNested inner shows_
    refine ⟨_, rfl, rfl, same, rfl, mirrored, ?_⟩
    exact mirrored.nested.imp (fun _ => Mirrors.undeployed_below)

/-- A template whose nested stacks have these URLs. -/
def nestingUrls (urls : List (String × String)) : Template where
  resources := .ofList (urls.map (fun (logicalId, url) =>
    (logicalId, { type := ResourceKind.nestedStackType
                  properties := .ofList [("TemplateURL", .str url)] })))

def outerTemplate : Template := nestingUrls [("Known", "known.json"), ("New", "new.json")]

/-- An outer stack in which one of two nested stacks is deployed. -/
def outerLookups : Lookups where
  template := fun stackName => .now (.ok
    (if stackName = "outer" then some outerTemplate
    else if stackName = "known" then some {}
    else none))
  resources := fun stackName => .now (.ok
    (if stackName = "outer" then [⟨"Known", ResourceKind.nestedStackType, "known"⟩] else []))
  parameters := fun _ => .now (.ok .empty)
  exports := .now (.ok .empty)

/-- The template of the new nested stack has a nested stack of its own. -/
def outerSource : TemplateSource :=
  .ofTable (.ofList [("known.json", {}), ("new.json", nestingUrls [("Inner", "known.json")])])

def outerTree : Stack where
  name := some "outer"
  deployed := outerTemplate
  generated := outerTemplate
  listing := .ofResources [⟨"Known", ResourceKind.nestedStackType, "known"⟩]
  nested := [
    ("Known", ⟨some "known", {}, {}, .empty, []⟩),
    ("New", ⟨none, {}, nestingUrls [("Inner", "known.json")], .empty,
      [("Inner", ⟨none, {}, {}, .empty, []⟩)]⟩)]

/-- The new nested stack is not deployed, and nothing in it is. -/
theorem load_mirrors_new :
    outerLookups.Deploys "outer" outerTemplate ∧
      load outerLookups outerSource 3 "outer" outerTemplate = .ends 0 (.ok (some outerTree)) ∧
      outerTree.Everywhere (Mirrors outerLookups outerSource) ∧
      outerTree.Everywhere (fun level => level.isDeployed = false →
        level.Everywhere (fun inner => inner.isDeployed = false)) := by
  have deploys : outerLookups.Deploys "outer" outerTemplate := ⟨0, rfl⟩
  have loaded : load outerLookups outerSource 3 "outer" outerTemplate =
      .ends 0 (.ok (some outerTree)) := rfl
  obtain ⟨_, same, _, _, _, mirrored, below⟩ := load_mirrors deploys loaded
  cases same
  exact ⟨deploys, loaded, mirrored, below⟩

end Stack

end StackSwap
