import Mathlib.Data.List.Perm.Subperm
import StackSwap.Proofs.Circular
import StackSwap.Proofs.Plain

/-! A chain of references at one level comes back before it is longer than there are places, and one
that enters a nested stack never returns. So within its budget each chain has ended or met itself. -/

namespace StackSwap

namespace Stack

theorem referenceBudget_eq (stack : Stack) :
    stack.referenceBudget = stack.generated.outputs.size + nestedBudget stack.nested + 1 := by
  cases stack
  rfl

theorem length_le_nestedBudget (nested : List (String × Stack)) :
    nested.length ≤ nestedBudget nested := by
  induction nested with
  | nil => exact Nat.le_refl _
  | cons entry rest ih =>
    rw [List.length_cons, nestedBudget]
    omega

/-- The budget of one nested stack is there beside a step into each of them. -/
theorem referenceBudget_le_nestedBudget {nested : List (String × Stack)} {entry : String × Stack}
    (member : entry ∈ nested) :
    entry.2.referenceBudget + nested.length ≤ nestedBudget nested := by
  induction nested with
  | nil => cases member
  | cons first rest ih =>
    rw [List.length_cons, nestedBudget]
    rcases List.mem_cons.mp member with rfl | later
    · have others := length_le_nestedBudget rest
      omega
    · have inRest := ih later
      omega

end Stack

namespace Scope

variable {scope : Scope}

/-- The places of a level. -/
def places (scope : Scope) : List Place :=
  scope.template.outputs.keys.map .output ++
    scope.stack.nested.map (fun entry => .parameters entry.1)

theorem length_places (scope : Scope) :
    scope.places.length = scope.template.outputs.size + scope.stack.nested.length := by
  simp [places, Table.keys, Entries.keys, Table.size]

/-- A chain that stays at a level has fewer places to come to than there are steps in the budget. -/
theorem length_places_lt (scope : Scope) : scope.places.length < scope.stack.referenceBudget := by
  have steps := Stack.length_le_nestedBudget scope.stack.nested
  have sameOutputs : scope.template.outputs.size = scope.stack.generated.outputs.size := rfl
  rw [length_places, Stack.referenceBudget_eq]
  omega

/-- After as many steps as there are places enough is left for each nested stack. -/
theorem referenceBudget_nested {logicalId : String} {stack : Stack}
    (loaded : scope.stack.nested? logicalId = some stack) :
    stack.referenceBudget + scope.places.length < scope.stack.referenceBudget := by
  have inner : stack.referenceBudget + scope.stack.nested.length ≤
      Stack.nestedBudget scope.stack.nested :=
    Stack.referenceBudget_le_nestedBudget (Entries.mem_of_find? loaded)
  have sameOutputs : scope.template.outputs.size = scope.stack.generated.outputs.size := rfl
  rw [length_places, Stack.referenceBudget_eq scope.stack]
  omega

theorem output_mem_places {name : String} {output : Output}
    (declared : scope.template.outputs.find? name = some output) : .output name ∈ scope.places := by
  have isKey : name ∈ scope.template.outputs.keys := Table.mem_keys_iff.mpr ⟨output, declared⟩
  exact List.mem_append_left _ (List.mem_map_of_mem isKey)

theorem parameters_mem_places {logicalId : String} {stack : Stack}
    (loaded : scope.stack.nested? logicalId = some stack) : .parameters logicalId ∈ scope.places :=
  List.mem_append_right _ (List.mem_map.mpr ⟨_, Entries.mem_of_find? loaded, rfl⟩)

/-! From a chain without end to a loop -/

theorem reference_ends (name : String) : scope.reference name ≠ .error .endless := by
  unfold reference
  repeat' split
  all_goals nofun

theorem exportedValue_ends (name : String) : scope.exportedValue name ≠ .error .endless := by
  unfold exportedValue
  split <;> nofun

/-- An expression without a value for want of budget asks for an attribute that has none. -/
theorem exists_asks_of_endless {budget : Nat} {expression : Json}
    (endless : scope.evaluateWithin budget expression = .error .endless) :
    ∃ logicalId name, scope.AsksFor expression logicalId name ∧
      attributeOf budget scope logicalId name = .error .endless := by
  obtain ⟨question, asks, unanswered⟩ := (Json.consults_evaluate expression).endless endless
  cases question with
  | reference name => exact absurd unanswered (reference_ends name)
  | attributeOf logicalId name => exact ⟨logicalId, name, ⟨budget, asks⟩, unanswered⟩
  | exportedValue name => exact absurd unanswered (exportedValue_ends name)

/-- What stands at a place of the level has no value within a budget. -/
def EndlessAt (scope : Scope) (budget : Nat) (place : Place) : Prop :=
  ∃ expression, scope.expressionAt? place = some expression ∧
    scope.evaluateWithin budget expression = .error .endless

/-- An attribute without a value opens a place of the level that has none, or it is an output
without a value of a nested stack. -/
theorem opens_of_endless {budget : Nat} {logicalId name : String}
    (endless : attributeOf (budget + 1) scope logicalId name = .error .endless) :
    (∃ place ∈ scope.places, scope.Opens logicalId name ⟨scope, place⟩ ∧
        scope.EndlessAt budget place) ∨
      ∃ stack outputName parameters, scope.meaning logicalId name = .inner stack outputName ∧
        stack.isDeployed = true ∧
        scope.nestedParameters (scope.resolverWithin budget) logicalId = .ok parameters ∧
        attributeOf budget (scope.inside stack parameters) outputsId outputName =
          .error .endless := by
  rw [attributeOf_succ] at endless
  cases leads : scope.meaning logicalId name with
  | settled answer =>
    rw [leads] at endless
    rcases meaning_eq_settled leads with ⟨text, rfl⟩ | ⟨error, rfl, ends⟩
    · cases endless
    · exact absurd (Except.error.inj endless) ends
  | output expression =>
    rw [leads] at endless
    obtain ⟨_, output, declared, rfl⟩ := meaning_eq_output leads
    have found : scope.expressionAt? (.output name) = some output.value := by
      simp [expressionAt?, declared]
    exact .inl ⟨.output name, output_mem_places declared, .output leads, output.value, found, endless⟩
  | inner stack outputName =>
    rw [leads] at endless
    rcases bind_eq_error_iff.mp endless with failed | ⟨parameters, passed, inner⟩
    · obtain ⟨expression, given, here⟩ := nestedParameters_eq_endless.mp failed
      have isPlace := parameters_mem_places (meaning_eq_inner leads)
      exact .inl ⟨.parameters logicalId, isPlace, .parameters leads, expression, given, here⟩
    · split at inner
      · rename_i deployed
        exact .inr ⟨stack, outputName, parameters, rfl, deployed, passed, inner⟩
      · cases inner

/-- Within the budget of the level, only attributes that lead to a loop have no value. -/
def LoopsWhenEndless (scope : Scope) : Prop :=
  ∀ budget, scope.stack.referenceBudget ≤ budget → ∀ logicalId name,
    attributeOf budget scope logicalId name = .error .endless →
      ∃ site, scope.Opens logicalId name site ∧ site.Loops

/-- Places of a level from which references lead to whatever an attribute opens, each once. -/
structure Trail (scope : Scope) (logicalId name : String) (trail : List Place) : Prop where
  distinct : trail.Nodup
  inside : trail ⊆ scope.places
  leads : ∀ site, scope.Opens logicalId name site → ∀ place ∈ trail,
    Relation.TransGen Site.Refers ⟨scope, place⟩ site

namespace Trail

variable {logicalId name : String} {trail : List Place}

theorem nil (scope : Scope) (logicalId name : String) : Trail scope logicalId name [] :=
  ⟨List.nodup_nil, List.nil_subset _, fun _ _ _ member => absurd member List.not_mem_nil⟩

theorem length_le (known : Trail scope logicalId name trail) :
    trail.length ≤ scope.places.length :=
  (known.distinct.subperm known.inside).length_le

/-- A place that the attribute opens goes to the front, before what it asks for in turn. -/
theorem cons (known : Trail scope logicalId name trail) {place : Place} {expression : Json}
    {nextId nextName : String} (isPlace : place ∈ scope.places)
    (opens : scope.Opens logicalId name ⟨scope, place⟩) (fresh : place ∉ trail)
    (found : scope.expressionAt? place = some expression)
    (asks : scope.AsksFor expression nextId nextName) :
    Trail scope nextId nextName (place :: trail) := by
  constructor
  · exact List.nodup_cons.mpr ⟨fresh, known.distinct⟩
  · exact List.cons_subset.mpr ⟨isPlace, known.inside⟩
  · intro site nextOpens other member
    have refers : Site.Refers ⟨scope, place⟩ site :=
      ⟨expression, nextId, nextName, found, asks, nextOpens⟩
    rcases List.mem_cons.mp member with rfl | before
    · exact .single refers
    · exact (known.leads _ opens other before).tail refers

end Trail

/-- The places of a trail and the budget that is left are together more than the level has. So a
chain without end meets one of them again, unless it goes into a nested stack. -/
theorem exists_loop_of_endless {budget : Nat} {logicalId name : String} {trail : List Place}
    (children : ∀ logicalId stack, scope.stack.nested? logicalId = some stack →
      ∀ parameters, (scope.inside stack parameters).LoopsWhenEndless)
    (known : Trail scope logicalId name trail)
    (enough : scope.stack.referenceBudget ≤ budget + trail.length)
    (endless : attributeOf budget scope logicalId name = .error .endless) :
    ∃ site, scope.Opens logicalId name site ∧ site.Loops := by
  have few := scope.length_places_lt
  induction budget generalizing logicalId name trail with
  | zero =>
    have bounded := known.length_le
    omega
  | succ budget ih =>
    rcases opens_of_endless endless with
      ⟨place, isPlace, opens, expression, found, unsettled⟩ |
      ⟨stack, outputName, parameters, leads, deployed, passed, inner⟩
    · by_cases met : place ∈ trail
      · -- the chain has come back to a place that leads here
        exact ⟨_, opens, _, .refl, known.leads _ opens place met⟩
      · obtain ⟨nextId, nextName, asks, unanswered⟩ := exists_asks_of_endless unsettled
        have longer := known.cons isPlace opens met found asks
        have left : scope.stack.referenceBudget ≤ budget + (place :: trail).length := by
          rw [List.length_cons]
          omega
        obtain ⟨site, nextOpens, loops⟩ := ih longer left unanswered
        have refers : Site.Refers ⟨scope, place⟩ site :=
          ⟨expression, nextId, nextName, found, asks, nextOpens⟩
        exact ⟨_, opens, .of_refers refers loops⟩
    · have loaded := meaning_eq_inner leads
      have inTree := referenceBudget_nested loaded
      have bounded := known.length_le
      have left : stack.referenceBudget ≤ budget := by omega
      obtain ⟨site, innerOpens, loops⟩ :=
        children logicalId stack loaded parameters budget left outputsId outputName inner
      rw [innerOpens.of_outputs] at loops
      exact ⟨_, .inside leads deployed passed, loops⟩

theorem loopsWhenEndless (stack : Stack) : ∀ scope : Scope, scope.stack = stack →
    scope.LoopsWhenEndless := by
  induction stack using Stack.nesting_induction with
  | level stack ih =>
    rintro scope rfl budget enough logicalId name endless
    refine exists_loop_of_endless ?_ (Trail.nil scope logicalId name) enough endless
    intro innerId child loaded parameters
    exact ih _ (Entries.mem_of_find? loaded) _ rfl

/-- An expression without a value within the budget of its tree leads back to itself. -/
theorem circular_of_endless {budget : Nat} (enough : scope.stack.referenceBudget ≤ budget)
    {expression : Json} (endless : scope.evaluateWithin budget expression = .error .endless) :
    scope.Circular expression := by
  obtain ⟨logicalId, name, asks, unanswered⟩ := exists_asks_of_endless endless
  obtain ⟨site, opens, loops⟩ :=
    loopsWhenEndless scope.stack scope rfl budget enough logicalId name unanswered
  exact ⟨logicalId, name, site, asks, opens, loops⟩

theorem evaluateWithin_of_enough {budget : Nat} (enough : scope.stack.referenceBudget ≤ budget)
    (expression : Json) : scope.evaluateWithin budget expression = scope.evaluate expression := by
  have more : scope.stack.referenceBudget ≤ scope.stack.referenceBudget + 1 := Nat.le_succ _
  rw [scope.evaluate_eq_within expression]
  by_cases circular : scope.Circular expression
  · rw [circular.evaluateWithin, circular.evaluateWithin]
  · apply eq_of_ends (Json.consults_evaluate expression) scope
    · exact fun endless => circular (circular_of_endless enough endless)
    · exact fun endless => circular (circular_of_endless more endless)

/-- Evaluation has no end exactly if it comes to an output, or to parameters of a nested stack, whose
evaluation leads back to itself, and then no budget is enough. Otherwise it has a value, or an error
of the template's, and no chain of references in it is longer than the budget of the tree. -/
theorem evaluate_ends_iff (scope : Scope) (expression : Json) :
    (scope.evaluate expression ≠ .error .endless ↔ ¬ scope.Circular expression) ∧
      (scope.Circular expression →
        ∀ budget, scope.evaluateWithin budget expression = .error .endless) ∧
      (¬ scope.Circular expression → ∀ budget, scope.stack.referenceBudget ≤ budget →
        scope.evaluateWithin budget expression = scope.evaluate expression) := by
  have ends {budget : Nat} (enough : scope.stack.referenceBudget ≤ budget)
      (straight : ¬ scope.Circular expression) :
      scope.evaluateWithin budget expression ≠ .error .endless := by
    intro endless
    exact straight (circular_of_endless enough endless)
  have more : scope.stack.referenceBudget ≤ scope.stack.referenceBudget + 1 := Nat.le_succ _
  rw [scope.evaluate_eq_within expression]
  refine ⟨⟨?_, ?_⟩, ?_, ?_⟩
  · intro ended circular
    exact ended (circular.evaluateWithin _)
  · intro straight
    exact ends more straight
  · intro circular budget
    exact circular.evaluateWithin budget
  · intro straight budget enough
    apply eq_of_ends (Json.consults_evaluate expression) scope
    · exact ends enough straight
    · exact ends more straight

/-- A reference to an output of a nested stack. -/
def innerLabel : Json := .obj [("Fn::GetAtt", .arr [.str "Inner", .str "Outputs.Label"])]

/-- A stack around another one with a label, which gets the region passed down. -/
def labelled : Scope :=
  passing (.obj [("Region", .obj [("Ref", .str "AWS::Region")])]) labelTemplate

/-- A reference to an output of the same stack. -/
def ownLabel : Json := .obj [("Fn::GetAtt", .arr [.str "Outputs", .str "Label"])]

/-- A stack with a label that refers to itself. -/
def selfReferring : Scope where
  stack := {
    name := some "outer"
    deployed := {}
    generated := { outputs := .ofList [("Label", { value := ownLabel })] }
    listing := .empty
    nested := [] }
  parameters := .empty
  environment := .inPartition "123456789012" "eu-west-1" "aws"
  exports := .empty

/-- One label is settled within the budget of its tree, and the same within any larger one; the other
leads back to itself. -/
theorem evaluate_ends_iff_label :
    labelled.evaluate innerLabel = .ok (.str "eu-west-1-small") ∧
      ¬ labelled.Circular innerLabel ∧
      (∀ budget, 4 ≤ budget →
        labelled.evaluateWithin budget innerLabel = .ok (.str "eu-west-1-small")) ∧
      selfReferring.evaluate ownLabel = .error .endless ∧ selfReferring.Circular ownLabel := by
  have evaluated : labelled.evaluate innerLabel = .ok (.str "eu-west-1-small") := rfl
  have endless : selfReferring.evaluate ownLabel = .error .endless := rfl
  obtain ⟨ends_iff, _, stays⟩ := evaluate_ends_iff labelled innerLabel
  have straight : ¬ labelled.Circular innerLabel := by
    apply ends_iff.mp
    rw [evaluated]
    nofun
  have circular : selfReferring.Circular ownLabel := by
    by_contra straight
    exact (evaluate_ends_iff selfReferring ownLabel).1.mpr straight endless
  refine ⟨evaluated, straight, fun budget enough => ?_, endless, circular⟩
  have enough : labelled.stack.referenceBudget ≤ budget := enough
  exact (stays straight budget enough).trans evaluated

/-- A stack that passes to its nested stack what is one of the outputs of that. -/
def feedingBack : Scope := passing (.obj [("Region", innerLabel)]) labelTemplate

/-- Neither the label that refers to itself nor the one that is fed back has a value within any
budget. -/
theorem evaluate_without_end :
    (∀ budget, selfReferring.evaluateWithin budget ownLabel = .error .endless) ∧
      ∀ budget, feedingBack.evaluateWithin budget innerLabel = .error .endless := by
  constructor
  · intro budget
    induction budget with
    | zero => rfl
    | succ budget ih => exact ih
  · intro budget
    induction budget with
    | zero => rfl
    | succ budget ih =>
      have inner : innerLabel.evaluate (feedingBack.resolverWithin budget) = .error .endless := ih
      have passed : Json.evaluate (feedingBack.resolverWithin budget)
          (.obj [("Region", innerLabel)]) = .error .endless := by
        rw [Json.evaluate, inner]
        rfl
      have failed : feedingBack.nestedParameters (feedingBack.resolverWithin budget) "Inner" =
          .error .endless := nestedParameters_eq_endless.mpr ⟨_, rfl, passed⟩
      have asked : feedingBack.evaluateWithin (budget + 1) innerLabel =
          attributeOf (budget + 1) feedingBack "Inner" "Outputs.Label" := rfl
      have leads : feedingBack.meaning "Inner" "Outputs.Label" =
          .inner ⟨some "inner", labelTemplate, labelTemplate, .empty, []⟩ "Label" := rfl
      rw [asked, attributeOf_succ, leads]
      dsimp only
      rw [failed]
      rfl

end Scope

end StackSwap
