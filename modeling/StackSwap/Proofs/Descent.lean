import StackSwap.Proofs.Loops
import StackSwap.Proofs.Mirrored

/-! A walk down through nested stacks is no longer than there are pairs of a template and a deployed
stack, or it comes to a level that leads back to itself. -/

namespace StackSwap

namespace Stack

/-- A level of a tree that is loaded: the generated template, and the deployed resources. -/
structure Level where
  generated : Template
  listing : Listing

def level (stack : Stack) : Level := ⟨stack.generated, stack.listing⟩

namespace Level

variable {lookups : Lookups} {source : TemplateSource} {level next : Level}

/-- Loading goes from a level into one of its nested stacks. -/
inductive Enters (lookups : Lookups) (source : TemplateSource) (level : Level)
    (logicalId : String) : Level → Prop where
  | nested {template : Template} {duration : Nat} {stack : Stack}
    (nests : Nests source level.generated logicalId template)
    (loaded : loadNestedLevel lookups (level.listing.physicalId? logicalId) template =
      .ends duration (.ok stack)) :
    Enters lookups source level logicalId stack.level

/-- One level stands directly below the other. -/
def Leads (lookups : Lookups) (source : TemplateSource) (level next : Level) : Prop :=
  ∃ logicalId, Enters lookups source level logicalId next

/-- Below a level that leads to a loop there is no end to the levels. -/
theorem nestedStops_of_loops (loops : LoopsFrom (Leads lookups source) level) (levels : Nat) :
    NestedStops lookups source levels level.generated level.listing none := by
  induction levels generalizing level with
  | zero => exact .deep
  | succ levels ih =>
    obtain ⟨next, ⟨logicalId, enters⟩, later⟩ := loops.exists_step
    cases enters with
    | nested nests loaded => exact .inside nests loaded (ih later)

end Level

open Level

/-! Trees within finitely many templates and stacks -/

/-- All that the lookups and the source answer is about these templates and these stacks. -/
structure Surveyed (lookups : Lookups) (source : TemplateSource) (templates : List Template)
    (stackNames : List String) : Prop where
  answersTemplate : ∀ stackName, lookups.template stackName ≠ .never
  answersResources : ∀ stackName, lookups.resources stackName ≠ .never
  answersSource : ∀ location, source location ≠ .never
  template : ∀ location template, source.Has location template → template ∈ templates
  stackName : ∀ stackName template, lookups.Deploys stackName template → stackName ∈ stackNames

/-- The resources that are listed for a stack. -/
def listed (lookups : Lookups) (stackName : String) : Listing :=
  match lookups.resources stackName with
  | .ends _ (.ok resources) => .ofResources resources
  | _ => .empty

/-- The levels of these templates, not deployed or over one of these stacks. -/
def levelsOf (lookups : Lookups) (templates : List Template) (stackNames : List String) :
    List Level :=
  templates.flatMap fun template =>
    (.empty :: stackNames.map (listed lookups)).map fun listing => ⟨template, listing⟩

variable {lookups other : Lookups} {source elsewhere : TemplateSource} {templates : List Template}
  {stackNames : List String} {level : Level} {levels more : Nat}

theorem length_levelsOf : (levelsOf lookups templates stackNames).length =
    templates.length * (stackNames.length + 1) := by
  simp [levelsOf]

theorem Shows.listing_eq {stack : Stack} (shows_ : stack.Shows lookups) {stackName : String}
    (named : stack.name = some stackName) : stack.listing = listed lookups stackName := by
  obtain ⟨_, resources, ⟨duration, lists⟩, listing⟩ := shows_.deployed stackName named
  rw [listing, listed, lists]

namespace Surveyed

variable (survey : Surveyed lookups source templates stackNames)

include survey

theorem mem_levelsOf {next : Level} (leads : Leads lookups source level next) :
    next ∈ levelsOf lookups templates stackNames := by
  obtain ⟨logicalId, enters⟩ := leads
  cases enters with
  | @nested template _ stack nests loaded =>
    obtain ⟨resource, duration, _, known⟩ := nests
    have here := levelOf_loadNestedLevel loaded
    have isTemplate : stack.generated ∈ templates :=
      here.generated ▸ survey.template _ template ⟨duration, known⟩
    have isListing : stack.listing ∈ .empty :: stackNames.map (listed lookups) := by
      cases named : stack.name with
      | none =>
        rw [(here.shows_.undeployed named).2]
        exact List.mem_cons_self ..
      | some stackName =>
        have deploys := (here.shows_.deployed stackName named).1
        rw [here.shows_.listing_eq named]
        exact List.mem_cons_of_mem _ (List.mem_map_of_mem (survey.stackName _ _ deploys))
    exact List.mem_flatMap.mpr ⟨_, isTemplate, List.mem_map.mpr ⟨_, isListing, rfl⟩⟩

/-- Without loops a walk down is no longer than there are levels. -/
theorem length_walk_le (straight : ¬ LoopsFrom (Leads lookups source) level) {walk : List Level}
    (goes : (level :: walk).IsChain (Leads lookups source)) :
    walk.length ≤ templates.length * (stackNames.length + 1) := by
  rw [← length_levelsOf]
  exact length_le_of_isChain (fun _ _ => survey.mem_levelsOf) straight goes

theorem not_stops_lookup {stackName : String} : ¬ LookupStops lookups stackName none
  | .template stops => survey.answersTemplate _ (Timed.eq_never_of_stops stops)
  | .resources stops => survey.answersResources _ (Timed.eq_never_of_stops stops)

/-- Where every lookup is answered, nested stacks are never loaded only if they go on below the last
level. -/
theorem exists_walk {generated : Template} {listing : Listing} {problem : Option Failure}
    (stops : NestedStops lookups source levels generated listing problem)
    (unanswered : problem = none) :
    ∃ walk, walk.length = levels ∧
      (Level.mk generated listing :: walk).IsChain (Leads lookups source) := by
  induction stops with
  | deep => exact ⟨[], rfl, .singleton _⟩
  | source _ stops =>
    rw [Option.map_eq_none_iff.mp unanswered] at stops
    exact absurd (Timed.eq_never_of_stops stops) (survey.answersSource _)
  | lookup _ _ stops =>
    rw [Option.map_eq_none_iff.mp unanswered] at stops
    exact absurd stops survey.not_stops_lookup
  | inside nests loaded _ ih =>
    obtain ⟨walk, length, goes⟩ := ih unanswered
    refine ⟨_ :: walk, congrArg (· + 1) length, .cons_cons ⟨_, .nested nests loaded⟩ goes⟩

end Surveyed

/-! What a result depends on -/

/-- The nested stacks of two levels are loaded alike if each of them is. -/
theorem loadNested_succ_congr {generated : Template} {listing : Listing}
    (same : ∀ logicalId resource, (logicalId, resource) ∈ nestedResources generated →
      loadNestedStack lookups source levels listing logicalId resource =
        loadNestedStack other elsewhere more listing logicalId resource) :
    loadNested lookups source (levels + 1) generated listing =
      loadNested other elsewhere (more + 1) generated listing := by
  rw [loadNested_succ, loadNested_succ]
  have parts := List.map_congr_left fun (entry : String × Resource) => same entry.1 entry.2
  exact congrArg (fun parts => (Timed.all parts).map fun children => children.filterMap id) parts

theorem loadNestedStack_congr {logicalId : String} {resource : Resource}
    (member : (logicalId, resource) ∈ nestedResources level.generated)
    (sameSource : source (.ofResource logicalId resource) =
      elsewhere (.ofResource logicalId resource))
    (sameLevel : ∀ template, Nests source level.generated logicalId template →
      loadNestedLevel lookups (level.listing.physicalId? logicalId) template =
        loadNestedLevel other (level.listing.physicalId? logicalId) template)
    (sameBelow : ∀ next, Enters lookups source level logicalId next →
      loadNested lookups source levels next.generated next.listing =
        loadNested other elsewhere more next.generated next.listing) :
    loadNestedStack lookups source levels level.listing logicalId resource =
      loadNestedStack other elsewhere more level.listing logicalId resource := by
  unfold loadNestedStack
  rw [← sameSource]
  refine Timed.andThen_congr fun duration template found => ?_
  cases template with
  | none => rfl
  | some template =>
    have nests : Nests source level.generated logicalId template :=
      ⟨resource, duration, member, Timed.mapFailure_eq_ok found⟩
    dsimp only
    rw [← sameLevel template nests]
    refine Timed.andThen_congr fun late stack loaded => ?_
    have enters : Enters lookups source level logicalId stack.level :=
      .nested nests (Timed.mapFailure_eq_ok loaded)
    exact congrArg (Timed.map _) (sameBelow _ enters)

/-- More levels than a tree has make no difference. -/
theorem loadNested_of_more
    (shallow : ∀ walk, (level :: walk).IsChain (Leads lookups source) → walk.length < levels)
    (noFewer : levels ≤ more) :
    loadNested lookups source more level.generated level.listing =
      loadNested lookups source levels level.generated level.listing := by
  induction levels generalizing level more with
  | zero => exact absurd (shallow [] (.singleton _)) (Nat.not_lt_zero _)
  | succ levels ih =>
    obtain ⟨more, rfl⟩ : ∃ fewer, more = fewer + 1 := ⟨more - 1, by omega⟩
    refine loadNested_succ_congr fun logicalId resource member => ?_
    refine loadNestedStack_congr member rfl (fun _ _ => rfl) fun next enters => ?_
    refine ih (fun walk goes => ?_) (by omega)
    have longer := shallow (next :: walk) (.cons_cons ⟨logicalId, enters⟩ goes)
    exact Nat.lt_of_succ_lt_succ longer

/-! The tree of a deployed stack -/

/-- In the tree of a deployed stack some level leads back to itself. -/
def Circular (lookups : Lookups) (source : TemplateSource) (stackName : String)
    (generated : Template) : Prop :=
  ∃ duration stack, loadDeployed lookups stackName generated = .ends duration (.ok (some stack)) ∧
    LoopsFrom (Leads lookups source) stack.level

variable {stackName : String} {generated : Template}

theorem Circular.not_loaded (circular : Circular lookups source stackName generated)
    {duration : Nat} {tree : Option Stack} :
    load lookups source levels stackName generated ≠ .ends duration (.ok tree) := by
  obtain ⟨_, stack, loaded, loops⟩ := circular
  exact LoadStops.not_loaded (.nested loaded (nestedStops_of_loops loops levels))

theorem Surveyed.length_walk_lt (survey : Surveyed lookups source templates stackNames)
    (straight : ¬ Circular lookups source stackName generated) {duration : Nat} {stack : Stack}
    (loaded : loadDeployed lookups stackName generated = .ends duration (.ok (some stack)))
    {walk : List Level} (goes : (stack.level :: walk).IsChain (Leads lookups source)) :
    walk.length < templates.length * (stackNames.length + 1) + 1 := by
  have noLoop : ¬ LoopsFrom (Leads lookups source) stack.level :=
    fun loops => straight ⟨duration, stack, loaded, loops⟩
  exact Nat.lt_succ_of_le (survey.length_walk_le noLoop goes)

theorem Surveyed.load_ends (survey : Surveyed lookups source templates stackNames)
    (straight : ¬ Circular lookups source stackName generated) :
    ∃ duration result, ∀ levels, templates.length * (stackNames.length + 1) < levels →
      load lookups source levels stackName generated = .ends duration result := by
  have same (levels : Nat) (enough : templates.length * (stackNames.length + 1) < levels) :
      load lookups source levels stackName generated =
        load lookups source (templates.length * (stackNames.length + 1) + 1) stackName
          generated := by
    refine Timed.andThen_congr fun duration found loaded => ?_
    cases found with
    | none => rfl
    | some stack =>
      have nested := loadNested_of_more (fun _ => survey.length_walk_lt straight loaded) enough
      exact congrArg (Timed.map _) nested
  cases within : load lookups source (templates.length * (stackNames.length + 1) + 1) stackName
      generated with
  | ends duration result =>
    exact ⟨duration, result, fun levels enough => (same levels enough).trans within⟩
  | never =>
    -- every lookup is answered, so only a walk as long as there are levels is left
    have unanswered : (load lookups source (templates.length * (stackNames.length + 1) + 1)
        stackName generated).Stops none := within ▸ .hangs
    cases loadStops_of_load unanswered with
    | lookup stops => exact absurd stops survey.not_stops_lookup
    | nested loaded stops =>
      obtain ⟨walk, length, goes⟩ := survey.exists_walk stops rfl
      exact absurd length (Nat.ne_of_lt (survey.length_walk_lt straight loaded goes))

end Stack

end StackSwap
