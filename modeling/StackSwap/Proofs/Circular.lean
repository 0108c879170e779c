import StackSwap.Proofs.Attributes
import StackSwap.Proofs.Consultation
import StackSwap.Proofs.Loops
import StackSwap.Proofs.Nesting

/-! References that lead back to themselves. A larger budget settles more references and changes none
that was settled; one that leads back to itself is settled by no budget. -/

namespace StackSwap

/-- A place of a template that references lead to. -/
inductive Place where
  /-- the value of an output -/
  | output (name : String)
  /-- the parameters for a nested stack -/
  | parameters (logicalId : String)
deriving DecidableEq

/-- A place in the template of a scope. -/
structure Site where
  scope : Scope
  place : Place

namespace Scope

/-- What stands at a place. -/
def expressionAt? (scope : Scope) : Place → Option Json
  | .output name => (scope.template.outputs.find? name).map Output.value
  | .parameters logicalId => scope.template.property? logicalId "Parameters"

/-- Within some budget the evaluation of an expression asks for an attribute. -/
def AsksFor (scope : Scope) (expression : Json) (logicalId name : String) : Prop :=
  ∃ budget, Asks (fun resolver => expression.evaluate resolver) (scope.resolverWithin budget)
    (.attributeOf logicalId name)

/-- An attribute stands for what is at a site, or needs it. -/
inductive Opens (scope : Scope) (logicalId name : String) : Site → Prop where
  /-- an output of the same level -/
  | output {expression : Json} (leads : scope.meaning logicalId name = .output expression) :
    Opens scope logicalId name ⟨scope, .output name⟩
  /-- the parameters for the nested stack of which it is an output -/
  | parameters {stack : Stack} {outputName : String}
    (leads : scope.meaning logicalId name = .inner stack outputName) :
    Opens scope logicalId name ⟨scope, .parameters logicalId⟩
  /-- an output of a nested stack that gets some parameter values -/
  | inside {stack : Stack} {outputName : String} {parameters : Table Json} {budget : Nat}
    (leads : scope.meaning logicalId name = .inner stack outputName)
    (deployed : stack.isDeployed = true)
    (passed : scope.nestedParameters (scope.resolverWithin budget) logicalId = .ok parameters) :
    Opens scope logicalId name ⟨scope.inside stack parameters, .output outputName⟩

end Scope

namespace Site

def expression? (site : Site) : Option Json := site.scope.expressionAt? site.place

/-- The evaluation of what is at a site leads to another one. -/
def Refers (site next : Site) : Prop :=
  ∃ expression logicalId name, site.expression? = some expression ∧
    site.scope.AsksFor expression logicalId name ∧ site.scope.Opens logicalId name next

/-- References lead from the site to one that leads back to itself. -/
def Loops (site : Site) : Prop :=
  ∃ loop, Relation.ReflTransGen Refers site loop ∧ Relation.TransGen Refers loop loop

theorem Loops.of_refers {site next : Site} (refers : site.Refers next) (loops : next.Loops) :
    site.Loops := by
  obtain ⟨loop, path, back⟩ := loops
  exact ⟨loop, .head refers path, back⟩

theorem Loops.exists_refers {site : Site} (loops : site.Loops) :
    ∃ next, site.Refers next ∧ next.Loops :=
  LoopsFrom.exists_step loops

end Site

namespace Scope

/-- Evaluation of the expression comes to a site that leads back to itself. -/
def Circular (scope : Scope) (expression : Json) : Prop :=
  ∃ logicalId name site, scope.AsksFor expression logicalId name ∧
    scope.Opens logicalId name site ∧ site.Loops

variable {scope : Scope} {logicalId name : String}

theorem circular_of_loops {site : Site} (loops : site.Loops) :
    ∃ expression, site.expression? = some expression ∧ site.scope.Circular expression := by
  obtain ⟨next, ⟨expression, logicalId, name, found, asks, opens⟩, later⟩ := loops.exists_refers
  exact ⟨expression, found, logicalId, name, next, asks, opens, later⟩

theorem meaning_of_output {output : Output} (found : scope.template.outputs.find? name = some output) :
    scope.meaning outputsId name = .output output.value := by
  simp [meaning, found]

/-- The attributes of `Outputs` lead to outputs of the level only. -/
theorem Opens.of_outputs {site : Site} (opens : scope.Opens outputsId name site) :
    site = ⟨scope, .output name⟩ := by
  have own {stack : Stack} {outputName : String} :
      scope.meaning outputsId name ≠ .inner stack outputName := by
    intro leads
    simp only [meaning, ↓reduceIte] at leads
    split at leads <;> cases leads
  cases opens with
  | output _ => rfl
  | parameters leads => exact absurd leads own
  | inside leads _ _ => exact absurd leads own

/-! Budgets -/

theorem consults_nestedParameters (scope : Scope) (logicalId : String) :
    Consults (fun resolver => scope.nestedParameters resolver logicalId) := by
  unfold nestedParameters
  cases scope.template.property? logicalId "Parameters" with
  | none => exact .ok _
  | some expression =>
    apply (Json.consults_evaluate expression).bind
    intro value
    cases value with
    | obj fields => exact .ok _
    | null | bool | num | str | arr => exact .constant nofun

theorem nestedParameters_eq_endless {resolver : Resolver} :
    scope.nestedParameters resolver logicalId = .error .endless ↔
      ∃ expression, scope.template.property? logicalId "Parameters" = some expression ∧
        expression.evaluate resolver = .error .endless := by
  constructor
  · intro failed
    unfold nestedParameters at failed
    split at failed
    · cases failed
    · rename_i expression given
      rcases bind_eq_error_iff.mp failed with here | ⟨value, _, decided⟩
      · exact ⟨expression, given, here⟩
      · split at decided <;> cases decided
  · rintro ⟨expression, given, endless⟩
    simp only [nestedParameters, given, endless]
    rfl

private theorem resolverWithin_approximates_of {smaller larger : Nat} {scope : Scope}
    (attributes : ∀ logicalId name, Approximates (attributeOf smaller scope logicalId name)
      (attributeOf larger scope logicalId name)) :
    (scope.resolverWithin smaller).Approximates (scope.resolverWithin larger) := by
  intro question
  cases question with
  | reference name => exact .refl _
  | attributeOf logicalId name => exact attributes logicalId name
  | exportedValue name => exact .refl _

/-- A larger budget settles more attributes, and changes none that was settled. -/
theorem attributeOf_approximates {smaller larger : Nat} (le : smaller ≤ larger) (scope : Scope)
    (logicalId name : String) :
    Approximates (attributeOf smaller scope logicalId name) (attributeOf larger scope logicalId name) := by
  induction smaller generalizing larger scope logicalId name with
  | zero => exact .inl rfl
  | succ smaller ih =>
    obtain ⟨larger, rfl⟩ := Nat.exists_eq_add_of_lt le
    have below : smaller ≤ smaller + larger := Nat.le_add_right ..
    have resolvers := resolverWithin_approximates_of (ih below scope)
    rw [attributeOf_succ, attributeOf_succ]
    cases scope.meaning logicalId name with
    | settled answer => exact .refl _
    | output expression => exact (Json.consults_evaluate expression).approximates resolvers
    | inner stack outputName =>
      refine ((consults_nestedParameters scope logicalId).approximates resolvers).bind ?_
      intro parameters
      split
      · exact ih below _ _ _
      · exact .refl _

theorem resolverWithin_approximates {smaller larger : Nat} (le : smaller ≤ larger) (scope : Scope) :
    (scope.resolverWithin smaller).Approximates (scope.resolverWithin larger) :=
  resolverWithin_approximates_of (attributeOf_approximates le scope)

/-- Steps that have ended within two budgets have ended alike. -/
theorem eq_of_ends {α : Type} {step : Resolver → Evaluated α} (consults : Consults step)
    (scope : Scope) (first second : Nat) (ends : step (scope.resolverWithin first) ≠ .error .endless)
    (ends' : step (scope.resolverWithin second) ≠ .error .endless) :
    step (scope.resolverWithin first) = step (scope.resolverWithin second) := by
  rcases Nat.le_total first second with le | le
  · exact (consults.approximates (resolverWithin_approximates le scope)).eq_of_ends ends
  · exact ((consults.approximates (resolverWithin_approximates le scope)).eq_of_ends ends').symm

/-- An expression asks for an attribute within every budget, unless it has no value within it. -/
theorem AsksFor.within {expression : Json} (asks : scope.AsksFor expression logicalId name)
    (budget : Nat) :
    Asks (fun resolver => expression.evaluate resolver) (scope.resolverWithin budget)
        (.attributeOf logicalId name) ∨
      scope.evaluateWithin budget expression = .error .endless := by
  obtain ⟨other, asks⟩ := asks
  have consults := Json.consults_evaluate expression
  rcases Nat.le_total other budget with le | le
  · exact .inl (consults.asks_of_smaller (resolverWithin_approximates le scope) asks)
  · exact consults.asks_of_larger (resolverWithin_approximates le scope) asks

/-! From a loop to a chain without end -/

theorem attributeOf_of_loops {budget : Nat} {site : Site}
    (ih : ∀ less < budget, ∀ (scope : Scope) (expression : Json), scope.Circular expression →
      scope.evaluateWithin less expression = .error .endless)
    (opens : scope.Opens logicalId name site) (loops : site.Loops) :
    attributeOf budget scope logicalId name = .error .endless := by
  cases budget with
  | zero => rfl
  | succ budget =>
    obtain ⟨expression, found, circular⟩ := circular_of_loops loops
    rw [attributeOf_succ]
    cases opens with
    | output leads =>
      obtain ⟨_, output, declared, rfl⟩ := meaning_eq_output leads
      have same : some output.value = some expression := by
        rw [← found]
        simp [Site.expression?, expressionAt?, declared]
      cases same
      rw [leads]
      exact ih budget (Nat.lt_succ_self _) scope _ circular
    | parameters leads =>
      have endless := ih budget (Nat.lt_succ_self _) scope expression circular
      have failed : scope.nestedParameters (scope.resolverWithin budget) logicalId =
          .error .endless := nestedParameters_eq_endless.mpr ⟨expression, found, endless⟩
      rw [leads]
      simp only [failed]
      rfl
    | @inside stack outputName parameters other leads deployed passed =>
      rw [leads]
      dsimp only
      by_cases failed : scope.nestedParameters (scope.resolverWithin budget) logicalId =
          .error .endless
      · rw [failed]
        rfl
      · have succeeds : scope.nestedParameters (scope.resolverWithin other) logicalId ≠
            .error .endless := by
          rw [passed]
          nofun
        have same := eq_of_ends (consults_nestedParameters scope logicalId) scope budget other failed
          succeeds
        rw [same, passed, ok_bind, if_pos deployed]
        cases budget with
        | zero => rfl
        | succ budget =>
          obtain ⟨output, declared, rfl⟩ := Option.map_eq_some_iff.mp found
          rw [attributeOf_succ, meaning_of_output declared]
          exact ih budget (by omega) _ _ circular

/-- What leads back to itself has no value within any budget. -/
theorem Circular.evaluateWithin (budget : Nat) {expression : Json}
    (circular : scope.Circular expression) :
    scope.evaluateWithin budget expression = .error .endless := by
  induction budget using Nat.strongRecOn generalizing scope expression with
  | _ budget ih =>
    obtain ⟨logicalId, name, site, asks, opens, loops⟩ := circular
    rcases asks.within budget with asks | endless
    · have unanswered : (scope.resolverWithin budget).answer (.attributeOf logicalId name) =
          .error .endless :=
        attributeOf_of_loops (fun less below scope expression => ih less below) opens loops
      have same := asks .endless
      rwa [Resolver.failing_eq_self unanswered] at same
    · exact endless

end Scope

end StackSwap
