import StackSwap.Proofs.Attributes
import StackSwap.Proofs.Evaluation
import StackSwap.Proofs.Nesting

namespace StackSwap

namespace Json

/-- The import function does not occur in the value. -/
def ImportFree (value : Json) : Prop := value.hasKey "Fn::ImportValue" = false

theorem itemsHaveKey_eq_false {key : String} {items : List Json} :
    itemsHaveKey key items = false ↔ ∀ item ∈ items, item.hasKey key = false := by
  induction items with
  | nil => simp [itemsHaveKey]
  | cons item rest ih => simp [itemsHaveKey, ih]

theorem fieldsHaveKey_eq_false {key : String} {fields : List (String × Json)} :
    fieldsHaveKey key fields = false ↔
      ∀ field ∈ fields, field.1 ≠ key ∧ field.2.hasKey key = false := by
  induction fields with
  | nil => simp [fieldsHaveKey]
  | cons field rest ih => simp [fieldsHaveKey, ih]

namespace ImportFree

theorem arr_iff {items : List Json} :
    (Json.arr items).ImportFree ↔ ∀ item ∈ items, item.ImportFree := by
  simp only [ImportFree, hasKey, itemsHaveKey_eq_false]

theorem obj_iff {fields : List (String × Json)} :
    (Json.obj fields).ImportFree ↔
      ∀ field ∈ fields, field.1 ≠ "Fn::ImportValue" ∧ field.2.ImportFree := by
  simp only [ImportFree, hasKey, fieldsHaveKey_eq_false]

end ImportFree

end Json

/-- The same meaning of names, but for exports. -/
def Resolver.importing (resolver : Resolver) (exportedValue : String → Evaluated Json) : Resolver :=
  { resolver with exportedValue }

section Evaluation

variable {resolver : Resolver} {exportedValue : String → Evaluated Json}

theorem Intrinsic.apply_importing {name : String} (other : name ≠ "Fn::ImportValue")
    (argument : Json) :
    apply (resolver.importing exportedValue) name argument = apply resolver name argument := by
  unfold apply
  split
  case h_7 => exact absurd rfl other
  all_goals rfl

theorem Intrinsic.settle_importing {fields : List (String × Json)}
    (others : ∀ field ∈ fields, field.1 ≠ "Fn::ImportValue") :
    settle (resolver.importing exportedValue) fields = settle resolver fields := by
  rcases Json.isIntrinsic_cases fields with noFunction | ⟨name, argument, rfl, isFunction⟩
  · rw [settle_of_not_intrinsic noFunction, settle_of_not_intrinsic noFunction]
  · have other : name ≠ "Fn::ImportValue" := others _ (List.mem_singleton_self _)
    rw [settle_function isFunction, settle_function isFunction, apply_importing other]

/-- Without an import in it an expression stands for the same, whatever the exports are. -/
theorem Json.ImportFree.evaluate_importing {expression : Json} :
    expression.ImportFree →
      expression.evaluate (resolver.importing exportedValue) = expression.evaluate resolver := by
  induction expression using Json.induction with
  | null | bool | num | str => exact fun _ => rfl
  | arr items ih =>
    intro free
    have each := arr_iff.mp free
    rw [evaluate_arr, evaluate_arr, mapM_congr (fun item member => ih item member (each item member))]
  | obj fields ih =>
    intro free
    have each := obj_iff.mp free
    have sameFields : ∀ field ∈ fields,
        evaluateField (resolver.importing exportedValue) field = evaluateField resolver field := by
      intro field member
      rw [evaluateField, evaluateField, ih field member (each field member).2]
    rw [evaluate_obj, evaluate_obj, mapM_congr sameFields]
    apply bind_congr_ok
    intro values made
    apply Intrinsic.settle_importing
    intro value member
    obtain ⟨field, inFields, evaluated⟩ := exists_of_mem_right (mapM_eq_ok_iff.mp made) member
    obtain ⟨inner, _, same⟩ := bind_eq_ok_iff.mp evaluated
    cases same
    exact (each field inFields).1

end Evaluation

theorem Template.usesFunction_eq_false {template : Template} {function : String} :
    template.usesFunction function = false ↔
      (∀ resource ∈ template.resources.entries, ∀ property ∈ resource.2.properties.entries,
        property.2.hasKey function = false) ∧
      ∀ output ∈ template.outputs.entries, output.2.value.hasKey function = false := by
  simp only [usesFunction, Table.values, Entries.values, Bool.or_eq_false_iff, List.any_eq_false,
    List.mem_map, forall_exists_index, and_imp, forall_apply_eq_imp_iff₂, Bool.not_eq_true]

namespace Stack

theorem nestedUse_eq_false {function : String} {nested : List (String × Stack)} :
    nestedUse function nested = false ↔
      ∀ entry ∈ nested, entry.2.usesFunction function = false := by
  induction nested with
  | nil => simp [nestedUse]
  | cons first rest ih => simp [nestedUse, ih]

theorem usesFunction_eq_false {function : String} {stack : Stack} :
    stack.usesFunction function = false ↔
      stack.Everywhere (fun level => level.generated.usesFunction function = false) := by
  have parts (stack : Stack) : stack.usesFunction function = false ↔
      stack.generated.usesFunction function = false ∧
        ∀ entry ∈ stack.nested, entry.2.usesFunction function = false := by
    obtain ⟨name, deployed, generated, listing, nested⟩ := stack
    rw [usesFunction, Bool.or_eq_false_iff, nestedUse_eq_false]
  constructor
  · induction stack using nesting_induction with
    | level stack ih =>
      intro unused
      obtain ⟨here, inside⟩ := (parts stack).mp unused
      exact .intro here (fun entry member => ih entry member (inside entry member))
  · intro everywhere
    induction everywhere with
    | intro here _ ih => exact (parts _).mpr ⟨here, ih⟩

/-- The import function occurs in no generated template of the tree. -/
def ImportFree (stack : Stack) : Prop := stack.usesFunction "Fn::ImportValue" = false

namespace ImportFree

variable {stack : Stack}

theorem inside (free : stack.ImportFree) {logicalId : String} {child : Stack}
    (loaded : stack.nested? logicalId = some child) : child.ImportFree :=
  usesFunction_eq_false.mpr ((usesFunction_eq_false.mp free).inside loaded)

theorem property (free : stack.ImportFree) {logicalId : String} {resource : Resource}
    (found : stack.generated.resource? logicalId = some resource) {name : String} {value : Json}
    (given : resource.property? name = some value) : value.ImportFree := by
  obtain ⟨properties, _⟩ := Template.usesFunction_eq_false.mp (usesFunction_eq_false.mp free).here
  exact properties _ (Entries.mem_of_find? found) _ (Entries.mem_of_find? given)

theorem output (free : stack.ImportFree) {name : String} {output : Output}
    (found : stack.generated.outputs.find? name = some output) : output.value.ImportFree := by
  obtain ⟨_, outputs⟩ := Template.usesFunction_eq_false.mp (usesFunction_eq_false.mp free).here
  exact outputs _ (Entries.mem_of_find? found)

end ImportFree

end Stack

namespace Scope

/-- The scope with other exports. -/
def withExports (scope : Scope) (exports : Table String) : Scope := { scope with exports }

variable {scope : Scope} {exports : Table String}

theorem evaluateWithin_withExports {budget : Nat}
    (same : attributeOf budget (scope.withExports exports) = attributeOf budget scope)
    {expression : Json} (free : expression.ImportFree) :
    (scope.withExports exports).evaluateWithin budget expression =
      scope.evaluateWithin budget expression := by
  have resolvers : (scope.withExports exports).resolverWithin budget =
      (scope.resolverWithin budget).importing (scope.withExports exports).exportedValue := by
    simp only [resolverWithin, same]
    rfl
  rw [evaluateWithin, resolvers, free.evaluate_importing]
  rfl

theorem nestedParameters_withExports (free : scope.stack.ImportFree) {budget : Nat}
    (same : attributeOf budget (scope.withExports exports) = attributeOf budget scope)
    (logicalId : String) :
    (scope.withExports exports).nestedParameters
        ((scope.withExports exports).resolverWithin budget) logicalId =
      scope.nestedParameters (scope.resolverWithin budget) logicalId := by
  have sameProperty : (scope.withExports exports).template.property? logicalId "Parameters" =
      scope.template.property? logicalId "Parameters" := rfl
  apply nestedParameters_congr sameProperty
  intro expression given
  obtain ⟨resource, found, isProperty⟩ := Option.bind_eq_some_iff.mp given
  exact evaluateWithin_withExports same (free.property found isProperty)

theorem attributeOf_withExports (budget : Nat) {scope : Scope} (free : scope.stack.ImportFree) :
    attributeOf budget (scope.withExports exports) = attributeOf budget scope := by
  induction budget generalizing scope with
  | zero => rfl
  | succ budget ih =>
    funext logicalId name
    have sameMeaning : (scope.withExports exports).meaning logicalId name =
        scope.meaning logicalId name := rfl
    apply attributeOf_succ_congr sameMeaning
    · intro expression leads
      obtain ⟨_, output, found, rfl⟩ := meaning_eq_output leads
      exact evaluateWithin_withExports (ih free) (free.output found)
    · intro stack outputName leads
      have loaded : scope.stack.nested? logicalId = some stack := meaning_eq_inner leads
      have inside (parameters : Table Json) :
          attributeOf budget ((scope.inside stack parameters).withExports exports) =
            attributeOf budget (scope.inside stack parameters) := ih (free.inside loaded)
      refine ⟨nestedParameters_withExports free (ih free) logicalId, fun parameters => ?_⟩
      rw [← inside parameters]
      rfl

/-- The exports make no difference to any expression without an import in it. -/
def Indifferent (scope : Scope) (exports : Table String) : Prop :=
  ∀ expression : Json, expression.ImportFree →
    (scope.withExports exports).evaluate expression = scope.evaluate expression

theorem indifferent (free : scope.stack.ImportFree) (exports : Table String) :
    scope.Indifferent exports := by
  intro expression expressionFree
  have sameAttributes : attributeOf (scope.stack.referenceBudget + 1) (scope.withExports exports) =
      attributeOf (scope.stack.referenceBudget + 1) scope := attributeOf_withExports _ free
  rw [evaluate_eq_within, evaluate_eq_within]
  exact evaluateWithin_withExports sameAttributes expressionFree

end Scope

end StackSwap
