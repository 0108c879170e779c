import Mathlib.Data.Finite.Prod
import Mathlib.Data.Set.Finite.Lattice
import StackSwap.Proofs.Descent
import StackSwap.Proofs.Template

namespace StackSwap

namespace Stack

inductive Lookup where
  | template (stackName : String)
  | resources (stackName : String)
  | source (location : TemplateLocation)

/-- A lookup has the same answer elsewhere. -/
def Lookup.SameAnswer (lookups other : Lookups) (source elsewhere : TemplateSource) :
    Lookup → Prop
  | .template stackName => lookups.template stackName = other.template stackName
  | .resources stackName => lookups.resources stackName = other.resources stackName
  | .source location => source location = elsewhere location

/-- A lookup is made for the nested stack at this path, by logical IDs, below a level. -/
inductive Level.LooksUp (lookups : Lookups) (source : TemplateSource) :
    Level → List String → Lookup → Prop where
  | source {level : Level} {logicalId : String} {resource : Resource}
    (member : (logicalId, resource) ∈ nestedResources level.generated) :
    LooksUp lookups source level [logicalId] (.source (.ofResource logicalId resource))
  | template {level : Level} {logicalId stackName : String} {template : Template}
    (nests : Nests source level.generated logicalId template)
    (listed : level.listing.physicalId? logicalId = some stackName) :
    LooksUp lookups source level [logicalId] (.template stackName)
  | resources {level : Level} {logicalId stackName : String} {template : Template}
    (nests : Nests source level.generated logicalId template)
    (listed : level.listing.physicalId? logicalId = some stackName) :
    LooksUp lookups source level [logicalId] (.resources stackName)
  | inside {level next : Level} {logicalId : String} {path : List String} {lookup : Lookup}
    (enters : Enters lookups source level logicalId next)
    (looksUp : LooksUp lookups source next path lookup) :
    LooksUp lookups source level (logicalId :: path) lookup

/-- A lookup is made for the stack at this path in the tree of a deployed stack. -/
inductive LooksUp (lookups : Lookups) (source : TemplateSource) (stackName : String)
    (generated : Template) : List String → Lookup → Prop where
  | template : LooksUp lookups source stackName generated [] (.template stackName)
  | resources : LooksUp lookups source stackName generated [] (.resources stackName)
  | nested {duration : Nat} {stack : Stack} {path : List String} {lookup : Lookup}
    (loaded : loadDeployed lookups stackName generated = .ends duration (.ok (some stack)))
    (looksUp : stack.level.LooksUp lookups source path lookup) :
    LooksUp lookups source stackName generated path lookup

open Level

variable {lookups other : Lookups} {source elsewhere : TemplateSource} {level : Level}

/-! Nothing else counts -/

theorem loadDeployed_congr {stackName : String}
    (template : lookups.template stackName = other.template stackName)
    (resources : lookups.resources stackName = other.resources stackName) (generated : Template) :
    loadDeployed lookups stackName generated = loadDeployed other stackName generated := by
  rw [loadDeployed, loadDeployed, template, resources]

theorem loadNested_of_sameAnswer (levels : Nat)
    (same : ∀ path lookup, level.LooksUp lookups source path lookup →
      lookup.SameAnswer lookups other source elsewhere) :
    loadNested lookups source levels level.generated level.listing =
      loadNested other elsewhere levels level.generated level.listing := by
  induction levels generalizing level with
  | zero => rfl
  | succ levels ih =>
    refine loadNested_succ_congr fun logicalId resource member => ?_
    refine loadNestedStack_congr member (same _ _ (.source member)) ?sameLevel ?sameBelow
    case sameLevel =>
      intro template nests
      cases listed : level.listing.physicalId? logicalId with
      | none => rfl
      | some stackName =>
        have sameStack := loadDeployed_congr (same _ _ (.template nests listed))
          (same _ _ (.resources nests listed)) template
        exact congrArg (Timed.map _) sameStack
    case sameBelow =>
      exact fun next enters => ih fun path lookup looksUp => same _ _ (.inside enters looksUp)

/-- A tree is loaded alike wherever the lookups for it have the same answers. -/
theorem load_of_sameAnswer {stackName : String} {generated : Template} (levels : Nat)
    (same : ∀ path lookup, LooksUp lookups source stackName generated path lookup →
      lookup.SameAnswer lookups other source elsewhere) :
    load lookups source levels stackName generated =
      load other elsewhere levels stackName generated := by
  rw [load, load, ← loadDeployed_congr (same _ _ .template) (same _ _ .resources)]
  refine Timed.andThen_congr fun duration found loaded => ?_
  cases found with
  | none => rfl
  | some stack =>
    have nested := loadNested_of_sameAnswer levels fun path lookup looksUp =>
      same path lookup (.nested loaded looksUp)
    exact congrArg (Timed.map _) nested

/-! How many there are -/

/-- The lookups for the nested stacks of a level themselves. -/
def Level.lookedUp (level : Level) : List (List String × Lookup) :=
  (nestedResources level.generated).flatMap fun (logicalId, resource) =>
    ([logicalId], .source (.ofResource logicalId resource)) ::
      match level.listing.physicalId? logicalId with
      | none => []
      | some stackName => [([logicalId], .template stackName), ([logicalId], .resources stackName)]

theorem Level.LooksUp.here_or_inside {path : List String} {lookup : Lookup}
    (looksUp : level.LooksUp lookups source path lookup) :
    (path, lookup) ∈ level.lookedUp ∨
      ∃ logicalId next rest, Enters lookups source level logicalId next ∧
        next.LooksUp lookups source rest lookup ∧ path = logicalId :: rest := by
  cases looksUp with
  | source member => exact .inl (List.mem_flatMap.mpr ⟨_, member, List.mem_cons_self ..⟩)
  | template nests listed =>
    obtain ⟨_, _, member, _⟩ := nests
    exact .inl (List.mem_flatMap.mpr ⟨_, member, by simp [listed]⟩)
  | resources nests listed =>
    obtain ⟨_, _, member, _⟩ := nests
    exact .inl (List.mem_flatMap.mpr ⟨_, member, by simp [listed]⟩)
  | inside enters looksUp => exact .inr ⟨_, _, _, enters, looksUp, rfl⟩

variable {templates : List Template} {stackNames : List String}

/-- There are finitely many steps down from a level. -/
theorem Surveyed.finite_enters (survey : Surveyed lookups source templates stackNames)
    (level : Level) :
    {entry : String × Level | Enters lookups source level entry.1 entry.2}.Finite := by
  have ids := ((nestedResources level.generated).map Prod.fst).finite_toSet
  have levels := (levelsOf lookups templates stackNames).finite_toSet
  refine (ids.prod levels).subset ?_
  rintro ⟨logicalId, next⟩ enters
  have isLevel := survey.mem_levelsOf ⟨logicalId, enters⟩
  cases enters with
  | nested nests _ =>
    obtain ⟨resource, _, member, _⟩ := nests
    exact ⟨List.mem_map.mpr ⟨(logicalId, resource), member, rfl⟩, isLevel⟩

/-- Walks of bounded length make finitely many lookups. -/
theorem Surveyed.finite_looksUp_of_shallow (survey : Surveyed lookups source templates stackNames)
    {bound : Nat}
    (shallow : ∀ walk, (level :: walk).IsChain (Leads lookups source) → walk.length < bound) :
    {look : List String × Lookup | level.LooksUp lookups source look.1 look.2}.Finite := by
  -- on the bound: what is below the next level has walks that are shorter by one
  induction bound generalizing level with
  | zero => exact absurd (shallow [] (.singleton _)) (Nat.not_lt_zero _)
  | succ bound ih =>
    have inside (entry : String × Level)
        (enters : Enters lookups source level entry.1 entry.2) :
        {look : List String × Lookup | entry.2.LooksUp lookups source look.1 look.2}.Finite := by
      refine ih fun walk goes => ?_
      have longer := shallow (entry.2 :: walk) (.cons_cons ⟨entry.1, enters⟩ goes)
      exact Nat.lt_of_succ_lt_succ longer
    have below := (survey.finite_enters level).biUnion fun entry enters =>
      (inside entry enters).image fun look => (entry.1 :: look.1, look.2)
    refine (level.lookedUp.finite_toSet.union below).subset ?_
    rintro ⟨path, lookup⟩ looksUp
    rcases looksUp.here_or_inside with here | ⟨logicalId, next, rest, enters, later, rfl⟩
    · exact .inl here
    · exact .inr (Set.mem_biUnion (x := (logicalId, next)) enters ⟨(rest, lookup), later, rfl⟩)

/-- On the way to a loop there are lookups at any depth. -/
theorem exists_looksUp_of_loops (loops : LoopsFrom (Leads lookups source) level) (depth : Nat) :
    ∃ path lookup, level.LooksUp lookups source path lookup ∧ path.length = depth + 1 := by
  induction depth generalizing level with
  | zero =>
    obtain ⟨next, ⟨logicalId, enters⟩, _⟩ := loops.exists_step
    cases enters with
    | nested nests _ =>
      obtain ⟨_, _, member, _⟩ := nests
      exact ⟨_, _, .source member, rfl⟩
  | succ depth ih =>
    obtain ⟨next, ⟨logicalId, enters⟩, later⟩ := loops.exists_step
    obtain ⟨path, lookup, looksUp, length⟩ := ih later
    exact ⟨_, lookup, .inside enters looksUp, congrArg (· + 1) length⟩

theorem infinite_looksUp_of_loops (loops : LoopsFrom (Leads lookups source) level) :
    {look : List String × Lookup | level.LooksUp lookups source look.1 look.2}.Infinite := by
  intro finite
  obtain ⟨bound, isBound⟩ := (finite.image fun look => look.1.length).bddAbove
  obtain ⟨path, lookup, looksUp, length⟩ := exists_looksUp_of_loops loops bound
  have within : path.length ≤ bound := isBound ⟨(path, lookup), looksUp, rfl⟩
  omega

variable {stackName : String} {generated : Template}

/-- There are finitely many lookups for a tree exactly if no level of it leads back to itself. -/
theorem Surveyed.finite_looksUp_iff (survey : Surveyed lookups source templates stackNames) :
    {look : List String × Lookup |
        LooksUp lookups source stackName generated look.1 look.2}.Finite ↔
      ¬ Circular lookups source stackName generated := by
  constructor
  · rintro finite ⟨duration, stack, loaded, loops⟩
    refine infinite_looksUp_of_loops loops (finite.subset ?_)
    exact fun look looksUp => .nested loaded looksUp
  · intro straight
    have below {stack : Stack} {duration : Nat}
        (loaded : loadDeployed lookups stackName generated = .ends duration (.ok (some stack))) :
        {look : List String × Lookup | stack.level.LooksUp lookups source look.1 look.2}.Finite :=
      survey.finite_looksUp_of_shallow fun _ => survey.length_walk_lt straight loaded
    have root : {look : List String × Lookup |
        look ∈ [([], .template stackName), ([], .resources stackName)]}.Finite :=
      List.finite_toSet _
    by_cases deployed : ∃ duration stack,
        loadDeployed lookups stackName generated = .ends duration (.ok (some stack))
    · obtain ⟨duration, stack, loaded⟩ := deployed
      refine (root.union (below loaded)).subset ?_
      rintro ⟨path, lookup⟩ (_ | _ | ⟨again, looksUp⟩)
      · exact .inl (by simp)
      · exact .inl (by simp)
      · cases loaded.symm.trans again
        exact .inr looksUp
    · refine root.subset ?_
      rintro ⟨path, lookup⟩ (_ | _ | ⟨again, _⟩)
      · simp
      · simp
      · exact absurd ⟨_, _, again⟩ deployed

theorem mem_values_of_has {templates : Table Template} {location : TemplateLocation}
    {template : Template} (has : (TemplateSource.ofTable templates).Has location template) :
    template ∈ templates.values := by
  obtain ⟨duration, known⟩ := has
  simp only [TemplateSource.ofTable, Timed.now, Timed.ends.injEq, Except.ok.injEq] at known
  obtain ⟨key, _, found⟩ := Option.bind_eq_some_iff.mp known.2
  exact List.mem_map_of_mem (Entries.mem_of_find? found)

/-- The lookups about a single stack, which has no resources yet. -/
def rootLookups : Lookups where
  template stackName := .now (.ok (if stackName = "root" then some {} else none))
  resources _ := .now (.ok [])
  parameters _ := .now (.ok .empty)
  exports := .now (.ok .empty)

/-- A template with a nested stack at a URL. -/
def nesting (url : String) : Template :=
  .ofResource "Inner" ResourceKind.nestedStackType [("TemplateURL", .str url)]

theorem deploys_rootLookups (stackName : String) (template : Template)
    (deploys : rootLookups.Deploys stackName template) : stackName ∈ ["root"] := by
  obtain ⟨duration, answered⟩ := deploys
  by_cases isRoot : stackName = "root"
  · exact List.mem_singleton.mpr isRoot
  · simp [rootLookups, Timed.now, isRoot] at answered

/-- The templates of a source with a single one, which is nested in itself. -/
def ownUrl : Table Template := .ofList [("self.json", nesting "self.json")]

/-- Within any number of levels there is one more below. -/
theorem loadNested_of_own_url (levels : Nat) :
    loadNested rootLookups (.ofTable ownUrl) levels (nesting "self.json") .empty = .never := by
  induction levels with
  | zero => rfl
  | succ levels ih =>
    obtain ⟨resource, nested, known⟩ : ∃ resource,
        nestedResources (nesting "self.json") = [("Inner", resource)] ∧
          TemplateSource.ofTable ownUrl (.ofResource "Inner" resource) =
            .ends 0 (.ok (some (nesting "self.json"))) :=
      ⟨_, rfl, rfl⟩
    have inner :
        loadNestedStack rootLookups (.ofTable ownUrl) levels .empty "Inner" resource = .never := by
      rw [loadNestedStack, known]
      simp [Timed.now, Timed.mapFailure, Except.mapError, Timed.andThen, loadNestedLevel,
        notDeployed, Listing.physicalId?, ih, Timed.map]
    rw [loadNested_succ, nested, List.map_singleton]
    simp only [inner]
    rfl

end Stack

end StackSwap
