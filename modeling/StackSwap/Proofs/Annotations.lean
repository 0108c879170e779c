import StackSwap.Proofs.Accounted
import StackSwap.Proofs.Agreement
import StackSwap.Proofs.Termination

/-! Evaluation does not look at deployed templates, and no verdict looks at metadata or dependencies.
Trees that differ only in these have the same assessments, but for nested stacks that are not entered.
-/

namespace StackSwap

universe u v

theorem Entries.find?_mapValues {α : Type u} {β : Type v} (edit : α → β) (entries : Entries α)
    (key : String) : (entries.mapValues edit).find? key = (entries.find? key).map edit := by
  induction entries with
  | nil => rfl
  | cons head rest ih =>
    obtain ⟨name, value⟩ := head
    by_cases here : name = key
    · simp [mapValues, find?, here]
    · simpa [mapValues, find?, here] using ih

/-! Other deployed templates -/

namespace Stack

mutual

/-- The tree with an edit of the deployed template of every level. -/
def mapDeployed (edit : Template → Template) : Stack → Stack
  | ⟨name, deployed, generated, listing, nested⟩ =>
    ⟨name, edit deployed, generated, listing, mapDeployedEach edit nested⟩
termination_by structural stack => stack

/-- The nested stacks with an edit of all deployed templates in them. -/
def mapDeployedEach (edit : Template → Template) : List (String × Stack) → List (String × Stack)
  | [] => []
  | (logicalId, stack) :: rest =>
    (logicalId, mapDeployed edit stack) :: mapDeployedEach edit rest
termination_by structural nested => nested

end

variable {edit : Template → Template}

theorem mapDeployedEach_eq (nested : List (String × Stack)) :
    mapDeployedEach edit nested = Entries.mapValues (mapDeployed edit) nested := by
  induction nested with
  | nil => rfl
  | cons first rest ih => rw [mapDeployedEach, ih]; rfl

theorem mapDeployed_eq (stack : Stack) :
    stack.mapDeployed edit = { stack with
      deployed := edit stack.deployed
      nested := Entries.mapValues (mapDeployed edit) stack.nested } := by
  cases stack
  rw [mapDeployed, mapDeployedEach_eq]

@[simp] theorem name_mapDeployed (stack : Stack) : (stack.mapDeployed edit).name = stack.name := by
  rw [mapDeployed_eq]

@[simp] theorem isDeployed_mapDeployed (stack : Stack) :
    (stack.mapDeployed edit).isDeployed = stack.isDeployed := by
  rw [isDeployed, name_mapDeployed, isDeployed]

@[simp] theorem deployed_mapDeployed (stack : Stack) :
    (stack.mapDeployed edit).deployed = edit stack.deployed := by
  rw [mapDeployed_eq]

@[simp] theorem generated_mapDeployed (stack : Stack) :
    (stack.mapDeployed edit).generated = stack.generated := by
  rw [mapDeployed_eq]

@[simp] theorem listing_mapDeployed (stack : Stack) :
    (stack.mapDeployed edit).listing = stack.listing := by
  rw [mapDeployed_eq]

theorem nested?_mapDeployed (stack : Stack) (logicalId : String) :
    (stack.mapDeployed edit).nested? logicalId =
      (stack.nested? logicalId).map (mapDeployed edit) := by
  rw [mapDeployed_eq, nested?, Entries.find?_mapValues, nested?]

theorem everywhere_mapDeployed {P Q : Stack → Prop}
    (same : ∀ stack : Stack, P (stack.mapDeployed edit) ↔ Q stack) (stack : Stack) :
    (stack.mapDeployed edit).Everywhere P ↔ stack.Everywhere Q := by
  induction stack using nesting_induction with
  | level stack ih =>
    have nested : (stack.mapDeployed edit).nested =
        Entries.mapValues (mapDeployed edit) stack.nested := by
      rw [mapDeployed_eq]
    rw [everywhere_iff, everywhere_iff, same, nested, Entries.mapValues, List.forall_mem_map]
    exact and_congr_right' (forall₂_congr ih)

theorem referenceBudget_mapDeployed (stack : Stack) :
    (stack.mapDeployed edit).referenceBudget = stack.referenceBudget := by
  induction stack using nesting_induction with
  | level stack ih =>
    have sameNested : ∀ nested : List (String × Stack),
        (∀ entry ∈ nested, (entry.2.mapDeployed edit).referenceBudget = entry.2.referenceBudget) →
        nestedBudget (Entries.mapValues (mapDeployed edit) nested) = nestedBudget nested := by
      intro nested
      induction nested with
      | nil => exact fun _ => rfl
      | cons first rest later =>
        intro same
        have here := same first (List.mem_cons_self ..)
        have there := later (fun entry member => same entry (List.mem_cons_of_mem _ member))
        simp only [Entries.mapValues, List.map_cons, nestedBudget] at there ⊢
        rw [here, there]
    rw [referenceBudget_eq, referenceBudget_eq, mapDeployed_eq]
    simp only [sameNested stack.nested ih]

end Stack

namespace Meaning

/-- What an attribute leads to in a tree with other deployed templates. -/
def mapDeployed (edit : Template → Template) : Meaning → Meaning
  | .settled answer => .settled answer
  | .output expression => .output expression
  | .inner stack outputName => .inner (stack.mapDeployed edit) outputName

end Meaning

namespace Scope

/-- The scope with an edit of the deployed template of every level. -/
def mapDeployed (edit : Template → Template) (scope : Scope) : Scope :=
  { scope with stack := scope.stack.mapDeployed edit }

variable {edit : Template → Template} {scope : Scope}

@[simp] theorem template_mapDeployed (scope : Scope) :
    (scope.mapDeployed edit).template = scope.template :=
  Stack.generated_mapDeployed scope.stack

@[simp] theorem listing_mapDeployed (scope : Scope) :
    (scope.mapDeployed edit).listing = scope.listing :=
  Stack.listing_mapDeployed scope.stack

theorem meaning_mapDeployed (logicalId name : String) :
    (scope.mapDeployed edit).meaning logicalId name =
      (scope.meaning logicalId name).mapDeployed edit := by
  have sameNested : (scope.mapDeployed edit).stack.nested? logicalId =
      (scope.stack.nested? logicalId).map (Stack.mapDeployed edit) :=
    scope.stack.nested?_mapDeployed logicalId
  have sameEnvironment : (scope.mapDeployed edit).environment = scope.environment := rfl
  simp only [meaning, template_mapDeployed, listing_mapDeployed, sameNested, sameEnvironment]
  by_cases own : logicalId = outputsId
  · simp only [own, ↓reduceIte]
    cases scope.template.outputs.find? name <;> rfl
  · simp only [own, ↓reduceIte]
    cases scope.listing.find? logicalId with
    | none => rfl
    | some resource =>
      dsimp only
      cases Text.dropBeginning? "Outputs." name with
      | none => rfl
      | some outputName =>
        cases ResourceKind.ofType resource.type with
        | nestedStack => cases scope.stack.nested? logicalId <;> rfl
        | _ => rfl

theorem reference_mapDeployed (scope : Scope) :
    (scope.mapDeployed edit).reference = scope.reference := by
  funext name
  simp only [reference, template_mapDeployed, listing_mapDeployed]
  rfl

theorem nestedParameters_mapDeployed (scope : Scope) (resolver : Resolver) (logicalId : String) :
    (scope.mapDeployed edit).nestedParameters resolver logicalId =
      scope.nestedParameters resolver logicalId := by
  simp only [nestedParameters, template_mapDeployed]

theorem attributeOf_mapDeployed (budget : Nat) (scope : Scope) :
    attributeOf budget (scope.mapDeployed edit) = attributeOf budget scope := by
  induction budget generalizing scope with
  | zero => rfl
  | succ budget ih =>
    have sameResolver : (scope.mapDeployed edit).resolverWithin budget =
        scope.resolverWithin budget := by
      simp only [resolverWithin, resolverWith, ih, reference_mapDeployed]
      rfl
    funext logicalId name
    rw [attributeOf_succ, attributeOf_succ, meaning_mapDeployed]
    cases scope.meaning logicalId name with
    | settled answer => rfl
    | output expression => exact congrArg expression.evaluate sameResolver
    | inner stack outputName =>
      simp only [Meaning.mapDeployed, sameResolver, nestedParameters_mapDeployed,
        Stack.isDeployed_mapDeployed]
      apply bind_congr_ok
      intro parameters _
      have inside : (scope.mapDeployed edit).inside (stack.mapDeployed edit) parameters =
          (scope.inside stack parameters).mapDeployed edit := rfl
      rw [inside, ih]

/-- What any expression stands for does not depend on deployed templates. -/
theorem resolver_mapDeployed (scope : Scope) :
    (scope.mapDeployed edit).resolver = scope.resolver := by
  have sameBudget : (scope.mapDeployed edit).stack.referenceBudget = scope.stack.referenceBudget :=
    scope.stack.referenceBudget_mapDeployed
  simp only [resolver, resolverWith, sameBudget, attributeOf_mapDeployed, reference_mapDeployed]
  rfl

/-- No verdict on a change depends on deployed templates but for the change itself. -/
theorem ofChange_mapDeployed (scope : Scope) (change : ResourceChange) :
    Verdict.ofChange (scope.mapDeployed edit) change = Verdict.ofChange scope change := by
  have agree : (scope.mapDeployed edit).AgreeOn (fun _ => True) scope :=
    .all (resolver_mapDeployed scope) (listing_mapDeployed scope)
  apply Verdict.ofChange_congr_of_all agree
  · rw [template_mapDeployed]
  · rw [template_mapDeployed]

theorem nested?_mapDeployed (scope : Scope) (logicalId : String) :
    (scope.mapDeployed edit).nested? logicalId =
      Option.map (mapDeployed edit) <$> scope.nested? logicalId := by
  have sameStack : (scope.mapDeployed edit).stack.nested? logicalId =
      (scope.stack.nested? logicalId).map (Stack.mapDeployed edit) :=
    scope.stack.nested?_mapDeployed logicalId
  apply nested?_map sameStack
  · rw [resolver_mapDeployed, nestedParameters_mapDeployed]
  · exact fun _ _ => rfl

end Scope

/-! Templates without metadata and dependencies -/

/-- The resource without metadata and dependencies. -/
def Resource.bare (resource : Resource) : Resource :=
  { resource with metadata := none, dependsOn := none }

/-- The template without metadata and dependencies of its resources. -/
def Template.bare (template : Template) : Template :=
  { template with resources := template.resources.map Resource.bare }

namespace ResourceChange

/-- The change without metadata and dependencies before and after it. -/
def bare (change : ResourceChange) : ResourceChange :=
  { change with old := change.old.map Resource.bare, metadata := [], dependsOn := [] }

/-- Whether a change is more than one of metadata and dependencies. -/
def matters (change : ResourceChange) : Bool :=
  change.kind != .modified || change.hasPropertyChanges

/-- What is left of the modification of a resource is its change of properties. -/
theorem modified?_matters (logicalId : String) (old new : Resource) :
    ((modified? logicalId old new).toList.filter matters).map bare =
      let properties := Json.delta (.obj old.properties.entries) (.obj new.properties.entries)
      if properties.isEmpty then []
      else [{
        logicalId, type := new.type, kind := .modified, old := some old.bare, new := some new,
        properties }] := by
  simp only [modified?]
  cases unchanged : (Json.delta (.obj old.properties.entries) (.obj new.properties.entries)).isEmpty with
  | true =>
    split
    · rfl
    · simp [matters, hasPropertyChanges, unchanged]
  | false => simp [matters, hasPropertyChanges, unchanged, bare]

theorem resourceChangesAt_bare (deployed generated : Template) (logicalId : String) :
    ((deployed.bare.resourceChangesAt generated logicalId).filter matters).map bare =
      ((deployed.resourceChangesAt generated logicalId).filter matters).map bare := by
  have sameResource : deployed.bare.resource? logicalId =
      (deployed.resource? logicalId).map Resource.bare :=
    Entries.find?_mapValues Resource.bare deployed.resources.entries logicalId
  unfold Template.resourceChangesAt
  rw [sameResource]
  cases deployed.resource? logicalId with
  | none => rfl
  | some old =>
    cases generated.resource? logicalId with
    | none => rfl
    | some new =>
      have sameType : old.bare.type = old.type := rfl
      simp only [Option.map_some, sameType]
      split
      · exact (modified?_matters logicalId old.bare new).trans
          (modified?_matters logicalId old new).symm
      · rfl

theorem resourceChanges_bare (deployed generated : Template) :
    ((deployed.bare.resourceChanges generated).filter matters).map bare =
      ((deployed.resourceChanges generated).filter matters).map bare := by
  have sameKeys : Table.keysOfBoth deployed.bare.resources generated.resources =
      Table.keysOfBoth deployed.resources generated.resources := by
    have keys : deployed.bare.resources.keys = deployed.resources.keys := by
      simp [Template.bare, Table.map, Table.keys, Entries.keys, Entries.mapValues]
    simp only [Table.keysOfBoth, keys]
  simp only [Template.resourceChanges, sameKeys, List.filter_flatMap, List.map_flatMap,
    resourceChangesAt_bare]

theorem withoutRenames_matters (changes : List ResourceChange) :
    ((withoutRenames changes).filter matters).map bare =
      withoutRenames ((changes.filter matters).map bare) := by
  have modified : ∀ change ∈ changes, change.matters = false → change.kind = .modified := by
    intro change _ bare
    have both : change.kind = .modified ∧ change.hasPropertyChanges = false := by
      simpa [matters] using bare
    exact both.1
  have pairs (removed added : ResourceChange) :
      removed.bare.isRenamedTo added.bare = removed.isRenamedTo added := by
    unfold isRenamedTo bare
    cases removed.old <;> cases added.new <;> rfl
  have kinds (change : ResourceChange) : change.bare.kind = change.kind := rfl
  rw [filter_withoutRenames changes modified]
  exact map_withoutRenames kinds pairs (changes.filter matters)

end ResourceChange

theorem Stack.changes_bare (stack : Stack) :
    ((stack.mapDeployed Template.bare).changes.filter ResourceChange.matters).map ResourceChange.bare =
      (stack.changes.filter ResourceChange.matters).map ResourceChange.bare := by
  have sameChanges := ResourceChange.resourceChanges_bare stack.deployed stack.generated
  rw [changes, changes, deployed_mapDeployed, generated_mapDeployed,
    ResourceChange.withoutRenames_matters, ResourceChange.withoutRenames_matters, sameChanges]

namespace Verdict

variable {scope : Scope} {change : ResourceChange}

theorem ofChange_bare (scope : Scope) (change : ResourceChange) :
    ofChange scope change.bare = ofChange scope change := rfl

theorem ofChange_of_not_matters (scope : Scope) (little : change.matters = false) :
    ofChange scope change = .ok .unchanged := by
  have both : change.kind = .modified ∧ change.hasPropertyChanges = false := by
    simpa [ResourceChange.matters] using little
  simp [ofChange, both.1, both.2]

end Verdict

namespace Assessment

/-- The verdicts on some items together, or the first error. -/
def ofEach {α : Type} (step : α → Evaluated Verdict) (items : List α) : Evaluated Assessment :=
  items.mapM step >>= fun verdicts => .ok (.concat (verdicts.map ofVerdict))

variable {α : Type} {step : α → Evaluated Verdict}

theorem ofEach_cons (item : α) (rest : List α) :
    ofEach step (item :: rest) =
      step item >>= fun verdict =>
        ofEach step rest >>= fun others => .ok (.ofVerdict verdict ++ others) := by
  simp only [ofEach, List.mapM_cons, bind_assoc, pure_bind, ok_bind, List.map_cons, concat_cons]

/-- Items that are passed over make no difference. -/
theorem ofEach_filter {keep : α → Bool}
    (passed : ∀ item, keep item = false → step item = .ok .unchanged) (items : List α) :
    ofEach step (items.filter keep) = ofEach step items := by
  induction items with
  | nil => rfl
  | cons item rest ih =>
    rw [ofEach_cons]
    cases keeps : keep item with
    | false =>
      rw [List.filter_cons_of_neg (by simp [keeps]), ih, passed item keeps, ok_bind]
      cases ofEach step rest <;> rfl
    | true => rw [List.filter_cons_of_pos keeps, ofEach_cons, ih]

theorem ofEach_map {edit : α → α} (same : ∀ item, step (edit item) = step item) (items : List α) :
    ofEach step (items.map edit) = ofEach step items := by
  induction items with
  | nil => rfl
  | cons item rest ih => rw [List.map_cons, ofEach_cons, ofEach_cons, same, ih]

end Assessment

namespace Scope

/-- The scope without metadata and dependencies in the deployed templates. -/
def bare (scope : Scope) : Scope := scope.mapDeployed Template.bare

theorem assessResources_eq (scope : Scope) :
    Stack.assessResources scope = Assessment.ofEach (Verdict.ofChange scope) scope.judged := rfl

theorem judged_bare (scope : Scope) :
    (scope.bare.judged.filter ResourceChange.matters).map ResourceChange.bare =
      (scope.judged.filter ResourceChange.matters).map ResourceChange.bare := by
  have apart (scope : Scope) :
      (scope.judged.filter ResourceChange.matters).map ResourceChange.bare =
        ((scope.stack.changes.filter ResourceChange.matters).map ResourceChange.bare).filter
          (fun change => !Stack.isModifiedNestedStack change) := by
    rw [judged, List.filter_comm, List.filter_map]
    rfl
  have sameChanges := scope.stack.changes_bare
  rw [apart, apart]
  exact congrArg _ sameChanges

theorem assessResources_bare (scope : Scope) :
    Stack.assessResources scope.bare = Stack.assessResources scope := by
  have sameVerdicts : Verdict.ofChange scope.bare = Verdict.ofChange scope :=
    funext (ofChange_mapDeployed scope)
  have among (changes : List ResourceChange) :
      Assessment.ofEach (Verdict.ofChange scope) changes =
        Assessment.ofEach (Verdict.ofChange scope)
          ((changes.filter ResourceChange.matters).map ResourceChange.bare) := by
    rw [Assessment.ofEach_map (Verdict.ofChange_bare scope),
      Assessment.ofEach_filter (fun _ => Verdict.ofChange_of_not_matters scope)]
  rw [assessResources_eq, assessResources_eq, sameVerdicts, among, judged_bare, ← among]

end Scope

/-! Nested stacks that are not entered -/

/-- Whether the reason is that a nested stack cannot be entered. -/
def Reason.isOfNested (reason : Reason) : Bool :=
  reason == .newNestedStack || reason == .nestedTemplateUnavailable

namespace Assessment

/-- The assessment without blockers for nested stacks that cannot be entered. -/
def withoutNested (assessment : Assessment) : Assessment :=
  ⟨assessment.swaps, assessment.blockers.filter (fun blocker => !blocker.reason.isOfNested)⟩

theorem edits_withoutNested : Edits withoutNested :=
  ⟨rfl, fun _ _ => eq_of_lists rfl (List.filter_append ..)⟩

/-- An edit that empties all blockers for nested stacks that cannot be entered. -/
def DropsNested (edit : Assessment → Assessment) : Prop :=
  ∀ logicalId reason, reason.isOfNested = true →
    edit (.ofBlocker { logicalId, type := ResourceKind.nestedStackType, reason }) = {}

theorem dropsNested_withoutNested : DropsNested withoutNested := by
  intro logicalId reason isOfNested
  simp [withoutNested, ofBlocker, isOfNested]

end Assessment

/-- All nested stacks that both templates of the level have are loaded and deployed. -/
def Stack.EntersNested (stack : Stack) : Prop :=
  ∀ logicalId ∈ stack.nestedInBoth, ∃ child,
    stack.nested? logicalId = some child ∧ child.isDeployed = true

namespace Scope

variable {edit : Assessment → Assessment} {scope child : Scope} {logicalId : String}

theorem map_assessNested_absent (edits : Assessment.Edits edit)
    (drops : Assessment.DropsNested edit) (absent : scope.nested? logicalId = .ok none) :
    edit <$> scope.assessNested logicalId = .ok {} := by
  rw [assessNested_of_absent absent]
  split
  · exact congrArg Except.ok (drops logicalId .nestedTemplateUnavailable rfl)
  · exact congrArg Except.ok edits.empty

theorem map_assessNested_undeployed (edits : Assessment.Edits edit)
    (drops : Assessment.DropsNested edit) (loaded : scope.nested? logicalId = .ok (some child))
    (undeployed : child.stack.isDeployed = false) :
    edit <$> scope.assessNested logicalId = .ok {} := by
  rw [assessNested_of_undeployed loaded undeployed]
  split
  · exact congrArg Except.ok (drops logicalId .newNestedStack rfl)
  · exact congrArg Except.ok edits.empty

theorem map_assess (edits : Assessment.Edits edit) (scope : Scope) :
    edit <$> scope.assess = Stack.assessResources scope >>= fun resources =>
      scope.stack.nestedInBoth.mapM (fun logicalId => edit <$> scope.assessNested logicalId) >>=
        fun nested => .ok (edit (scope.stack.assessOutputs ++ resources) ++ .concat nested) := by
  have concat (parts : List Assessment) :
      edit (.concat parts) = .concat (parts.map edit) := by
    induction parts with
    | nil => exact edits.empty
    | cons part rest ih =>
      rw [List.map_cons, Assessment.concat_cons, Assessment.concat_cons, edits.append, ih]
  rw [assess_eq_parts]
  cases Stack.assessResources scope with
  | error error => rfl
  | ok resources =>
    simp only [ok_bind, ← map_mapM]
    cases scope.stack.nestedInBoth.mapM scope.assessNested with
    | error error => rfl
    | ok nested =>
      have edited : edit (scope.stack.assessOutputs ++ resources ++ .concat nested) =
          edit (scope.stack.assessOutputs ++ resources) ++ .concat (nested.map edit) := by
        rw [edits.append, concat]
      exact congrArg Except.ok edited

theorem assessOutputs_bare (scope : Scope) :
    scope.bare.stack.assessOutputs = scope.stack.assessOutputs := by
  have deployed : scope.bare.stack.deployed = scope.stack.deployed.bare :=
    scope.stack.deployed_mapDeployed
  have generated : scope.bare.stack.generated = scope.stack.generated :=
    scope.stack.generated_mapDeployed
  rw [Stack.assessOutputs, Stack.assessOutputs, deployed, generated]
  rfl

theorem nestedInBoth_bare (stack : Stack) :
    (stack.mapDeployed Template.bare).nestedInBoth = stack.nestedInBoth := by
  have sameKind (logicalId : String) :
      (stack.deployed.bare.resource? logicalId).any Resource.isNestedStack =
        (stack.deployed.resource? logicalId).any Resource.isNestedStack := by
    have sameResource : stack.deployed.bare.resource? logicalId =
        (stack.deployed.resource? logicalId).map Resource.bare :=
      Entries.find?_mapValues Resource.bare stack.deployed.resources.entries logicalId
    rw [sameResource]
    cases stack.deployed.resource? logicalId <;> rfl
  simp only [Stack.nestedInBoth, Stack.generated_mapDeployed, Stack.deployed_mapDeployed, sameKind]

theorem assess_bare_of_level (edits : Assessment.Edits edit)
    (sameNested : ∀ logicalId ∈ scope.stack.nestedInBoth,
      edit <$> scope.bare.assessNested logicalId = edit <$> scope.assessNested logicalId) :
    edit <$> scope.bare.assess = edit <$> scope.assess := by
  have sameBoth : scope.bare.stack.nestedInBoth = scope.stack.nestedInBoth :=
    nestedInBoth_bare scope.stack
  rw [map_assess edits, map_assess edits, assessResources_bare, assessOutputs_bare, sameBoth,
    mapM_congr sameNested]

theorem nested?_eq_none (absent : scope.nested? logicalId = .ok none) :
    scope.stack.nested? logicalId = none := by
  simp only [nested?, nestedWith?] at absent
  split at absent
  · assumption
  · obtain ⟨_, _, impossible⟩ := bind_eq_ok_iff.mp absent
    cases impossible

/-- A nested stack is assessed alike if its own assessment is, provided that it can be entered or the
edit drops the blockers for those that cannot. -/
theorem map_assessNested_bare (edits : Assessment.Edits edit)
    (entered : Assessment.DropsNested edit ∨
      ∃ child, scope.stack.nested? logicalId = some child ∧ child.isDeployed = true)
    (sameInside : ∀ stack, scope.stack.nested? logicalId = some stack → ∀ parameters,
      edit <$> (scope.inside stack parameters).bare.assess =
        edit <$> (scope.inside stack parameters).assess) :
    edit <$> scope.bare.assessNested logicalId = edit <$> scope.assessNested logicalId := by
  have loadedBare : scope.bare.nested? logicalId = Option.map bare <$> scope.nested? logicalId :=
    nested?_mapDeployed scope logicalId
  cases loaded : scope.nested? logicalId with
  | error error =>
    rw [loaded] at loadedBare
    rw [assessNested_of_failed loaded, assessNested_of_failed loadedBare]
  | ok found =>
    rw [loaded] at loadedBare
    cases found with
    | none =>
      rcases entered with drops | ⟨child, isLoaded, _⟩
      · rw [map_assessNested_absent edits drops loaded, map_assessNested_absent edits drops loadedBare]
      · rw [nested?_eq_none loaded] at isLoaded
        cases isLoaded
    | some child =>
      obtain ⟨stack, parameters, found, rfl⟩ := nested?_eq_some loaded
      have sameDeployed : (stack.mapDeployed Template.bare).isDeployed = stack.isDeployed :=
        stack.isDeployed_mapDeployed
      cases deployed : stack.isDeployed with
      | true =>
        rw [assessNested_of_deployed loaded deployed,
          assessNested_of_deployed loadedBare (sameDeployed.trans deployed)]
        exact sameInside stack found parameters
      | false =>
        rcases entered with drops | ⟨child, isLoaded, isDeployed⟩
        · rw [map_assessNested_undeployed edits drops loaded deployed,
            map_assessNested_undeployed edits drops loadedBare (sameDeployed.trans deployed)]
        · rw [found] at isLoaded
          cases isLoaded
          rw [deployed] at isDeployed
          cases isDeployed

/-- For bare deployed templates the assessment of a tree is the same under an edit that drops the
blockers for nested stacks which cannot be entered, or under any edit if there are no such stacks. -/
theorem map_assess_bare (edits : Assessment.Edits edit) (stack : Stack)
    (entered : Assessment.DropsNested edit ∨ stack.Everywhere Stack.EntersNested) :
    ∀ scope : Scope, scope.stack = stack → edit <$> scope.bare.assess = edit <$> scope.assess := by
  induction stack using Stack.nesting_induction with
  | level stack ih =>
    rintro scope rfl
    apply assess_bare_of_level edits
    intro logicalId both
    apply map_assessNested_bare edits
    · exact entered.imp_right (fun everywhere => everywhere.here logicalId both)
    · intro stack found parameters
      have enteredInside : Assessment.DropsNested edit ∨ stack.Everywhere Stack.EntersNested :=
        entered.imp_right (fun everywhere => everywhere.inside found)
      exact ih _ (Entries.mem_of_find? found) enteredInside _ rfl

theorem entersNested_bare (stack : Stack) :
    (stack.mapDeployed Template.bare).EntersNested ↔ stack.EntersNested := by
  simp only [Stack.EntersNested, nestedInBoth_bare, Stack.nested?_mapDeployed]
  apply forall_congr'
  intro logicalId
  cases stack.nested? logicalId <;> simp

/-- Two deployed trees that differ only in the metadata and the dependencies of their resources have
the same error, or the same changes in the same order apart from blockers for nested stacks that
cannot be entered. If all nested stacks can be entered they have the same assessment. -/
theorem assess_of_bare {first second : Scope} (same : first.bare = second.bare) :
    Assessment.withoutNested <$> first.assess = Assessment.withoutNested <$> second.assess ∧
      (first.stack.Everywhere Stack.EntersNested → first.assess = second.assess) := by
  constructor
  · have dropped (scope : Scope) : Assessment.withoutNested <$> scope.bare.assess =
        Assessment.withoutNested <$> scope.assess :=
      map_assess_bare Assessment.edits_withoutNested scope.stack
        (.inl Assessment.dropsNested_withoutNested) scope rfl
    rw [← dropped first, same, dropped second]
  · intro everywhere
    have sameStack : first.stack.mapDeployed Template.bare = second.stack.mapDeployed Template.bare :=
      congrArg Scope.stack same
    have everywhereInSecond : second.stack.Everywhere Stack.EntersNested := by
      rw [← Stack.everywhere_mapDeployed entersNested_bare, ← sameStack,
        Stack.everywhere_mapDeployed entersNested_bare]
      exact everywhere
    have keepsAll : Assessment.Edits id := ⟨rfl, fun _ _ => rfl⟩
    have bareFirst := map_assess_bare keepsAll first.stack (.inr everywhere) first rfl
    have bareSecond := map_assess_bare keepsAll second.stack (.inr everywhereInSecond) second rfl
    rw [id_map, id_map] at bareFirst bareSecond
    rw [← bareFirst, same, bareSecond]

/-- A template with one nested stack that is made from an asset. -/
def assetTemplate (path : String) : Template where
  resources := .ofList [("Inner", {
    type := ResourceKind.nestedStackType
    properties := .ofList [("TemplateURL", .str "inner.json")]
    metadata := some (.obj [("aws:asset:path", .str path)]) })]

/-- The nested stack moves to another asset, and a function inside it gets another timeout. -/
theorem assess_of_bare_asset :
    let old := Verdict.functionTemplate (.str "archive") 3
    let new := Verdict.functionTemplate (.str "archive") 30
    let moved := nesting (assetTemplate "old.json") (assetTemplate "new.json") old new
    let kept := nesting (assetTemplate "new.json") (assetTemplate "new.json") old new
    moved.bare = kept.bare ∧ moved.stack.Everywhere Stack.EntersNested ∧
      ∃ assessment, moved.assess = .ok assessment ∧ kept.assess = .ok assessment ∧
        assessment.blockers.map Blocker.logicalId = ["Handler"] := by
  intro old new moved kept
  have sameBare : moved.bare = kept.bare := rfl
  have entersInner : moved.stack.EntersNested := by
    intro logicalId both
    have only : logicalId = "Inner" := List.mem_singleton.mp both
    subst only
    exact ⟨_, rfl, rfl⟩
  have everywhere : moved.stack.Everywhere Stack.EntersNested := by
    refine .intro entersInner (fun entry member => ?_)
    have only := List.mem_singleton.mp member
    subst only
    have nothingNested : (⟨some "inner", old, new, .empty, []⟩ : Stack).EntersNested :=
      fun _ both => absurd both List.not_mem_nil
    exact .intro nothingNested (fun _ inner => absurd inner List.not_mem_nil)
  have assessed : ∃ assessment, kept.assess = .ok assessment ∧
      assessment.blockers.map Blocker.logicalId = ["Handler"] := ⟨_, rfl, rfl⟩
  obtain ⟨assessment, made, blocked⟩ := assessed
  have sameAssessment : moved.assess = kept.assess := (assess_of_bare sameBare).2 everywhere
  exact ⟨sameBare, everywhere, assessment, sameAssessment.trans made, made, blocked⟩

/-- A stack whose nested stack comes from an asset, which is at a path in the deployed template. -/
def assetScope (path : String) (nested : List (String × Stack)) : Scope where
  stack := {
    name := some "outer"
    deployed := assetTemplate path
    generated := assetTemplate "new.json"
    listing := .ofResources [⟨"Inner", ResourceKind.nestedStackType, "inner"⟩]
    nested }
  parameters := .empty
  environment := .inPartition "123456789012" "eu-west-1" "aws"
  exports := .empty

/-- The only blocker is one for the nested stack. -/
def blockedInner (reason : Reason) : Assessment :=
  .ofBlocker { logicalId := "Inner", type := ResourceKind.nestedStackType, reason }

/-- A nested stack that is not loaded or not deployed blocks as soon as its metadata differ, although
all properties are as deployed. -/
theorem assess_reads_metadata :
    let unloaded := fun path => assetScope path []
    let undeployed := fun path => assetScope path [("Inner", ⟨none, {}, {}, .empty, []⟩)]
    (unloaded "old.json").bare = (unloaded "new.json").bare ∧
      (unloaded "old.json").assess = .ok (blockedInner .nestedTemplateUnavailable) ∧
      (unloaded "new.json").assess = .ok {} ∧
      (undeployed "old.json").bare = (undeployed "new.json").bare ∧
      (undeployed "old.json").assess = .ok (blockedInner .newNestedStack) ∧
      (undeployed "new.json").assess = .ok {} :=
  ⟨rfl, rfl, rfl, rfl, rfl, rfl⟩

end Scope

end StackSwap
