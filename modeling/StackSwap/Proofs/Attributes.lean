import StackSwap.Proofs.Entries
import StackSwap.Stack.Scope

namespace StackSwap

/-- What an attribute leads to. -/
inductive Meaning where
  /-- an answer without any evaluation -/
  | settled (answer : Evaluated Json)
  /-- the expression of an output of the same level -/
  | output (expression : Json)
  /-- an output of a nested stack that is loaded -/
  | inner (stack : Stack) (outputName : String)

namespace Scope

/-- What names mean if each chain of references has a number of steps at most. -/
def resolverWithin (budget : Nat) (scope : Scope) : Resolver :=
  scope.resolverWith (attributeOf budget scope)

def evaluateWithin (budget : Nat) (scope : Scope) (expression : Json) : Evaluated Json :=
  expression.evaluate (scope.resolverWithin budget)

theorem evaluate_eq_within (scope : Scope) (expression : Json) :
    scope.evaluate expression =
      scope.evaluateWithin (scope.stack.referenceBudget + 1) expression := rfl

/-- The scope of a nested stack, for the parameter values that it gets. -/
def inside (scope : Scope) (stack : Stack) (parameters : Table Json) : Scope :=
  { scope with stack, parameters }

/-- What an attribute of a scope leads to. -/
def meaning (scope : Scope) (logicalId name : String) : Meaning :=
  if logicalId = outputsId then
    match scope.template.outputs.find? name with
    | none => .settled (.error (.attributeNotFound logicalId name))
    | some output => .output output.value
  else
    match scope.listing.find? logicalId with
    | none => .settled (.error (.attributeNotFound logicalId name))
    | some resource =>
      match Text.dropBeginning? "Outputs." name, ResourceKind.ofType resource.type with
      | some outputName, .nestedStack =>
        match scope.stack.nested? logicalId with
        | none => .settled (.error (.attributeNotFound logicalId name))
        | some stack => .inner stack outputName
      | _, _ => .settled (do return .str (← resource.attributeText scope.environment name))

variable {scope : Scope} {logicalId name : String}

/-- With some budget left an attribute is what it leads to, for one less. -/
theorem attributeOf_succ (budget : Nat) (scope : Scope) (logicalId name : String) :
    attributeOf (budget + 1) scope logicalId name =
      match scope.meaning logicalId name with
      | .settled answer => answer
      | .output expression => scope.evaluateWithin budget expression
      | .inner stack outputName =>
        scope.nestedParameters (scope.resolverWithin budget) logicalId >>= fun parameters =>
          if stack.isDeployed then
            attributeOf budget (scope.inside stack parameters) outputsId outputName
          else .error (.attributeNotFound logicalId name) := by
  unfold meaning
  rw [attributeOf]
  by_cases own : logicalId = outputsId
  · simp only [own, ↓reduceIte]
    cases scope.template.outputs.find? name <;> rfl
  · simp only [own, ↓reduceIte]
    cases scope.listing.find? logicalId with
    | none => rfl
    | some resource =>
      dsimp only
      cases Text.dropBeginning? "Outputs." name with
      | none => rfl
      | some outputName =>
        cases ResourceKind.ofType resource.type with
        | nestedStack =>
          simp only [nestedWith?]
          cases scope.stack.nested? logicalId with
          | none => rfl
          | some stack =>
            simp only [bind_assoc, pure_bind]
            rfl
        | _ => rfl

theorem nestedParameters_congr {first second : Scope} {here there : Resolver}
    (sameProperty : first.template.property? logicalId "Parameters" =
      second.template.property? logicalId "Parameters")
    (sameValue : ∀ expression, first.template.property? logicalId "Parameters" = some expression →
      expression.evaluate here = expression.evaluate there) :
    first.nestedParameters here logicalId = second.nestedParameters there logicalId := by
  simp only [nestedParameters, ← sameProperty]
  cases given : first.template.property? logicalId "Parameters" with
  | none => rfl
  | some expression => simp only [sameValue expression given]

/-- A nested stack that is the same up to an edit, with the same parameters, has the same scope up to
the edit. -/
theorem nested?_map {first second : Scope} {ofStack : Stack → Stack} {ofScope : Scope → Scope}
    (sameStack : first.stack.nested? logicalId = (second.stack.nested? logicalId).map ofStack)
    (sameParameters : first.nestedParameters first.resolver logicalId =
      second.nestedParameters second.resolver logicalId)
    (sameInside : ∀ stack parameters,
      first.inside (ofStack stack) parameters = ofScope (second.inside stack parameters)) :
    first.nested? logicalId = Option.map ofScope <$> second.nested? logicalId := by
  simp only [nested?, nestedWith?, sameStack, sameParameters]
  cases second.stack.nested? logicalId with
  | none => rfl
  | some stack =>
    simp only [Option.map_some]
    cases second.nestedParameters second.resolver logicalId with
    | error error => rfl
    | ok parameters =>
      exact congrArg (fun child => Except.ok (some child)) (sameInside stack parameters)

theorem nested?_congr {first second : Scope}
    (sameStack : first.stack.nested? logicalId = second.stack.nested? logicalId)
    (sameParameters : first.nestedParameters first.resolver logicalId =
      second.nestedParameters second.resolver logicalId)
    (sameInside : first.inside = second.inside) :
    first.nested? logicalId = second.nested? logicalId := by
  have mapped : first.nested? logicalId = Option.map id <$> second.nested? logicalId := by
    have unedited : first.stack.nested? logicalId = (second.stack.nested? logicalId).map id := by
      rw [sameStack, Option.map_id_apply]
    apply nested?_map unedited sameParameters
    intro stack parameters
    rw [sameInside]
    rfl
  rwa [Option.map_id, id_map] at mapped

/-- An attribute that leads to the same in two scopes is the same if all that it leads to is. -/
theorem attributeOf_succ_congr {budget : Nat} {first second : Scope}
    (sameMeaning : first.meaning logicalId name = second.meaning logicalId name)
    (output : ∀ expression, first.meaning logicalId name = .output expression →
      first.evaluateWithin budget expression = second.evaluateWithin budget expression)
    (inner : ∀ stack outputName, first.meaning logicalId name = .inner stack outputName →
      first.nestedParameters (first.resolverWithin budget) logicalId =
          second.nestedParameters (second.resolverWithin budget) logicalId ∧
        ∀ parameters, attributeOf budget (first.inside stack parameters) outputsId outputName =
          attributeOf budget (second.inside stack parameters) outputsId outputName) :
    attributeOf (budget + 1) first logicalId name =
      attributeOf (budget + 1) second logicalId name := by
  rw [attributeOf_succ, attributeOf_succ, ← sameMeaning]
  cases leads : first.meaning logicalId name with
  | settled answer => rfl
  | output expression => exact output expression leads
  | inner stack outputName =>
    obtain ⟨sameParameters, sameInside⟩ := inner stack outputName leads
    simp only [sameParameters, sameInside]

theorem meaning_eq_output {expression : Json} (leads : scope.meaning logicalId name = .output expression) :
    logicalId = outputsId ∧ ∃ output, scope.template.outputs.find? name = some output ∧
      output.value = expression := by
  unfold meaning at leads
  split at leads
  · rename_i own
    split at leads
    · cases leads
    · rename_i output found
      cases leads
      exact ⟨own, output, found, rfl⟩
  · split at leads
    · cases leads
    · split at leads
      · split at leads <;> cases leads
      · cases leads

theorem meaning_eq_inner {stack : Stack} {outputName : String}
    (leads : scope.meaning logicalId name = .inner stack outputName) :
    scope.stack.nested? logicalId = some stack := by
  unfold meaning at leads
  split at leads
  · split at leads <;> cases leads
  · split at leads
    · cases leads
    · split at leads
      · split at leads
        · cases leads
        · rename_i found
          cases leads
          exact found
      · cases leads

theorem meaning_eq_settled {answer : Evaluated Json}
    (leads : scope.meaning logicalId name = .settled answer) :
    (∃ text, answer = .ok (.str text)) ∨ ∃ error, answer = .error error ∧ error ≠ .endless := by
  have missing : ∀ {answer : Evaluated Json},
      Meaning.settled (.error (.attributeNotFound logicalId name)) = .settled answer →
        ∃ error, answer = .error error ∧ error ≠ .endless := by
    rintro _ ⟨⟩
    exact ⟨_, rfl, nofun⟩
  unfold meaning at leads
  split at leads
  · split at leads
    · exact .inr (missing leads)
    · cases leads
  · split at leads
    · exact .inr (missing leads)
    · split at leads
      · split at leads
        · exact .inr (missing leads)
        · cases leads
      · cases leads
        rename_i resource _ _ _ _
        unfold ListedResource.attributeText
        split
        · exact .inr ⟨_, rfl, nofun⟩
        · split
          · exact .inr ⟨_, rfl, nofun⟩
          · exact .inl ⟨_, rfl⟩

end Scope

end StackSwap
