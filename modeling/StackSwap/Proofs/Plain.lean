import StackSwap.Proofs.Attributes
import StackSwap.Proofs.Evaluation
import StackSwap.Proofs.Nesting

/-! Values without intrinsic functions stand for themselves in every scope. So evaluation leaves
nothing to evaluate, and a part of an expression may be evaluated beforehand. -/

namespace StackSwap

namespace Json

/-- No object inside the value is an intrinsic function. -/
inductive Plain : Json → Prop where
  | null : Plain .null
  | bool (value : Bool) : Plain (.bool value)
  | num (number : Number) : Plain (.num number)
  | str (text : String) : Plain (.str text)
  | arr {items : List Json} (all : ∀ item ∈ items, Plain item) : Plain (.arr items)
  | obj {fields : List (String × Json)} (noFunction : isIntrinsic fields = false)
    (all : ∀ field ∈ fields, Plain field.2) : Plain (.obj fields)

namespace Plain

theorem of_mem_arr {items : List Json} (plain : (Json.arr items).Plain) {item : Json}
    (member : item ∈ items) : item.Plain := by
  cases plain with
  | arr all => exact all item member

theorem of_mem_obj {fields : List (String × Json)} (plain : (Json.obj fields).Plain)
    {field : String × Json} (member : field ∈ fields) : field.2.Plain := by
  cases plain with
  | obj _ all => exact all field member

theorem ofList {fields : List (String × Json)} (plain : (Json.obj fields).Plain) :
    ∀ entry ∈ (Table.ofList fields).entries, entry.2.Plain :=
  fun _ member => plain.of_mem_obj (Entries.mem_of_mem_ofList member)

end Plain

/-- A plain value stands for itself. -/
theorem evaluate_of_plain {value : Json} (plain : value.Plain) (resolver : Resolver) :
    value.evaluate resolver = .ok value := by
  induction plain with
  | null | bool | num | str => rfl
  | @arr items _ ih =>
    have same : items.mapM (evaluate resolver) = .ok items :=
      mapM_eq_ok_iff.mpr (List.forall₂_same.mpr ih)
    rw [evaluate_arr, same]
    rfl
  | @obj fields noFunction _ ih =>
    have same : fields.mapM (evaluateField resolver) = .ok fields := by
      apply mapM_eq_ok_iff.mpr
      apply List.forall₂_same.mpr
      intro field member
      rw [evaluateField, ih field member]
      rfl
    rw [evaluate_obj, same]
    exact Intrinsic.settle_of_not_intrinsic noFunction

end Json

/-- Whatever a name means is plain. -/
structure Resolver.GivesPlain (resolver : Resolver) : Prop where
  reference : ∀ name value, resolver.reference name = .ok value → value.Plain
  attributeOf : ∀ logicalId name value, resolver.attributeOf logicalId name = .ok value → value.Plain
  exportedValue : ∀ name value, resolver.exportedValue name = .ok value → value.Plain

namespace Intrinsic

variable {resolver : Resolver}

theorem join_eq_ok {argument result : Json} (made : join argument = .ok result) :
    ∃ text, result = .str text := by
  unfold join at made
  split at made
  · obtain ⟨_, _, made⟩ := bind_eq_ok_iff.mp made
    obtain ⟨texts, _, same⟩ := bind_eq_ok_iff.mp made
    cases same
    exact ⟨_, rfl⟩
  · cases made

theorem substitute_eq_ok {argument result : Json} (made : substitute resolver argument = .ok result) :
    ∃ text, result = .str text := by
  rw [substitute_eq] at made
  obtain ⟨⟨body, values⟩, _, made⟩ := bind_eq_ok_iff.mp made
  obtain ⟨texts, _, same⟩ := bind_eq_ok_iff.mp made
  cases same
  exact ⟨_, rfl⟩

theorem split_plain {argument result : Json} (made : split argument = .ok result) :
    result.Plain := by
  unfold split at made
  split at made
  · cases made
    apply Json.Plain.arr
    intro item member
    obtain ⟨text, _, rfl⟩ := List.mem_map.mp member
    exact .str text
  · cases made

theorem select_plain {argument result : Json} (plain : argument.Plain)
    (made : select argument = .ok result) : result.Plain := by
  unfold select at made
  split at made
  · rename_i index values
    obtain ⟨position, _, chosen⟩ := bind_eq_ok_iff.mp made
    have values_plain : (Json.arr values).Plain := plain.of_mem_arr (by simp)
    cases found : values[position]? with
    | none =>
      rw [found] at chosen
      cases chosen
    | some value =>
      rw [found] at chosen
      cases chosen
      exact values_plain.of_mem_arr (List.mem_of_getElem? found)
  · cases made

theorem apply_plain (gives : resolver.GivesPlain) {name : String} {argument result : Json}
    (plain : argument.Plain) (made : apply resolver name argument = .ok result) : result.Plain := by
  unfold apply at made
  split at made
  · obtain ⟨_, _, found⟩ := bind_eq_ok_iff.mp made
    exact gives.reference _ _ found
  · obtain ⟨⟨logicalId, name⟩, _, found⟩ := bind_eq_ok_iff.mp made
    exact gives.attributeOf _ _ _ found
  · obtain ⟨text, rfl⟩ := join_eq_ok made
    exact .str text
  · exact split_plain made
  · exact select_plain plain made
  · obtain ⟨text, rfl⟩ := substitute_eq_ok made
    exact .str text
  · obtain ⟨_, _, found⟩ := bind_eq_ok_iff.mp made
    exact gives.exportedValue _ _ found
  · cases made

theorem settle_plain (gives : resolver.GivesPlain) {fields : List (String × Json)} {result : Json}
    (plain : ∀ field ∈ fields, field.2.Plain) (made : settle resolver fields = .ok result) :
    result.Plain := by
  rcases Json.isIntrinsic_cases fields with noFunction | ⟨name, argument, rfl, isFunction⟩
  · rw [settle_of_not_intrinsic noFunction] at made
    cases made
    exact .obj noFunction plain
  · rw [settle_function isFunction] at made
    exact apply_plain gives (plain _ (List.mem_singleton_self _)) made

end Intrinsic

/-- An expression stands for a plain value if every name in it does. -/
theorem Json.evaluate_plain {resolver : Resolver} (gives : resolver.GivesPlain) {expression : Json} :
    ∀ {value}, expression.evaluate resolver = .ok value → value.Plain := by
  induction expression using Json.induction with
  | null | bool | num | str =>
    rintro _ ⟨⟩
    constructor
  | arr items ih =>
    intro value made
    rw [evaluate_arr] at made
    obtain ⟨values, each, same⟩ := bind_eq_ok_iff.mp made
    cases same
    apply Plain.arr
    intro item member
    obtain ⟨source, inItems, evaluated⟩ := exists_of_mem_right (mapM_eq_ok_iff.mp each) member
    exact ih source inItems evaluated
  | obj fields ih =>
    intro value made
    rw [evaluate_obj] at made
    obtain ⟨values, each, settled⟩ := bind_eq_ok_iff.mp made
    refine Intrinsic.settle_plain gives (fun field member => ?_) settled
    obtain ⟨source, inFields, evaluated⟩ := exists_of_mem_right (mapM_eq_ok_iff.mp each) member
    obtain ⟨inner, found, same⟩ := bind_eq_ok_iff.mp evaluated
    cases same
    exact ih source inFields found

/-- Every declared default is plain. -/
def Template.LiteralDefaults (template : Template) : Prop :=
  ∀ entry ∈ template.parameters.entries, ∀ value ∈ entry.2.default, value.Plain

namespace Scope

/-- The parameter values of a scope are plain, and so are the defaults that its generated template
and those of all nested stacks declare. -/
structure Literal (scope : Scope) : Prop where
  parameters : ∀ entry ∈ scope.parameters.entries, entry.2.Plain
  defaults : scope.stack.Everywhere (fun stack => stack.generated.LiteralDefaults)

namespace Literal

variable {scope : Scope}

theorem inside (literal : scope.Literal) {logicalId : String} {stack : Stack}
    (loaded : scope.stack.nested? logicalId = some stack) {parameters : Table Json}
    (plain : ∀ entry ∈ parameters.entries, entry.2.Plain) :
    (scope.inside stack parameters).Literal :=
  ⟨plain, literal.defaults.inside loaded⟩

theorem reference_plain (literal : scope.Literal) {name : String} {value : Json}
    (found : scope.reference name = .ok value) : value.Plain := by
  unfold reference at found
  split at found
  · cases found
    exact .str _
  · split at found
    · rename_i given
      cases found
      exact literal.parameters _ (Entries.mem_of_find? given)
    · split at found
      · rename_i declared
        cases found
        obtain ⟨parameter, inTemplate, isDefault⟩ := Option.bind_eq_some_iff.mp declared
        exact literal.defaults.here _ (Entries.mem_of_find? inTemplate) _ isDefault
      · split at found
        · cases found
          exact .str _
        · cases found

theorem exportedValue_plain {name : String} {value : Json}
    (found : scope.exportedValue name = .ok value) : value.Plain := by
  unfold exportedValue at found
  split at found
  · cases found
    exact .str _
  · cases found

theorem givesPlain (literal : scope.Literal) {attributeOf : String → String → Evaluated Json}
    (attributes : ∀ logicalId name value, attributeOf logicalId name = .ok value → value.Plain) :
    (scope.resolverWith attributeOf).GivesPlain :=
  ⟨fun _ _ => literal.reference_plain, attributes, fun _ _ => exportedValue_plain⟩

theorem nestedParameters_plain {resolver : Resolver} (gives : resolver.GivesPlain)
    {logicalId : String} {parameters : Table Json}
    (passed : scope.nestedParameters resolver logicalId = .ok parameters) :
    ∀ entry ∈ parameters.entries, entry.2.Plain := by
  unfold nestedParameters at passed
  split at passed
  · cases passed
    exact fun entry member => absurd member List.not_mem_nil
  · obtain ⟨value, evaluated, decided⟩ := bind_eq_ok_iff.mp passed
    split at decided
    · cases decided
      exact (Json.evaluate_plain gives evaluated).ofList
    · cases decided

/-- However long the chain of references, it ends in a plain value. -/
theorem attributeOf_plain (budget : Nat) {scope : Scope} (literal : scope.Literal)
    {logicalId name : String} {value : Json}
    (found : attributeOf budget scope logicalId name = .ok value) : value.Plain := by
  induction budget generalizing scope logicalId name value with
  | zero => cases found
  | succ budget ih =>
    have gives : (scope.resolverWithin budget).GivesPlain :=
      literal.givesPlain (fun _ _ _ found => ih literal found)
    rw [attributeOf_succ] at found
    split at found
    · rename_i answer leads
      rcases meaning_eq_settled leads with ⟨text, rfl⟩ | ⟨error, rfl, _⟩
      · cases found
        exact .str text
      · cases found
    · exact Json.evaluate_plain gives found
    · rename_i stack outputName leads
      obtain ⟨parameters, passed, decided⟩ := bind_eq_ok_iff.mp found
      split at decided
      · have plain := nestedParameters_plain gives passed
        exact ih (literal.inside (meaning_eq_inner leads) plain) decided
      · cases decided

theorem evaluate_plain (literal : scope.Literal) {expression value : Json}
    (evaluated : scope.evaluate expression = .ok value) : value.Plain :=
  Json.evaluate_plain (literal.givesPlain fun _ _ _ => attributeOf_plain _ literal) evaluated

end Literal

/-- With literal parameter values and defaults, evaluation leaves no intrinsic function at any depth,
so its result stands for itself in every scope. Then any part of an expression that has a value may
be replaced by it: the whole stands for the same, or has no value for the same error. -/
theorem evaluate_closed (scope : Scope) (literal : scope.Literal) :
    (∀ expression value, scope.evaluate expression = .ok value →
      value.Plain ∧ ∀ other : Scope, other.evaluate value = .ok value) ∧
    ∀ path part value, scope.evaluate part = .ok value →
      scope.evaluate (Json.fill path value) = scope.evaluate (Json.fill path part) := by
  constructor
  · intro expression value evaluated
    have plain := literal.evaluate_plain evaluated
    exact ⟨plain, fun other => Json.evaluate_of_plain plain other.resolver⟩
  · intro path part value evaluated
    have plain := literal.evaluate_plain evaluated
    have same : scope.evaluate value = scope.evaluate part :=
      (Json.evaluate_of_plain plain scope.resolver).trans evaluated.symm
    exact Json.evaluate_fill_congr path same

/-- A template whose output joins a parameter value to a default. -/
def labelTemplate : Template where
  parameters := .ofList [("Region", {}), ("Tier", { default := some (.str "small") })]
  outputs := .ofList [("Label", {
    value := .obj [("Fn::Join", .arr [.str "-", .arr [
      .obj [("Ref", .str "Region")], .obj [("Ref", .str "Tier")]]])] })]

/-- An output of a nested stack may stand in a substitution as the text that it is. -/
theorem evaluate_closed_label :
    let scope := passing (.obj [("Region", .obj [("Ref", .str "AWS::Region")])]) labelTemplate
    let label := Json.obj [("Fn::GetAtt", .arr [.str "Inner", .str "Outputs.Label"])]
    let path : List Json.Frame := [.field [] "Fn::Sub" [], .item [.str "on $\x7bName\x7d"] [],
      .field [] "Name" []]
    scope.Literal ∧ scope.evaluate label = .ok (.str "eu-west-1-small") ∧
      (Json.str "eu-west-1-small").Plain ∧
      scope.evaluate (Json.fill path (.str "eu-west-1-small")) =
        scope.evaluate (Json.fill path label) := by
  intro scope label path
  have literal : scope.Literal := by
    refine ⟨fun _ member => absurd member List.not_mem_nil, .intro ?_ ?_⟩
    · exact fun _ member => absurd member List.not_mem_nil
    · intro entry member
      rw [List.mem_singleton.mp member]
      refine .intro ?_ (fun _ member => absurd member List.not_mem_nil)
      intro parameter declared value isDefault
      rcases List.mem_cons.mp declared with rfl | declared
      · cases isDefault
      · rw [List.mem_singleton.mp declared] at isDefault
        cases isDefault
        exact .str _
  have evaluated : scope.evaluate label = .ok (.str "eu-west-1-small") := rfl
  obtain ⟨closed, replaced⟩ := evaluate_closed scope literal
  exact ⟨literal, evaluated, (closed label _ evaluated).1, replaced path label _ evaluated⟩

end Scope

end StackSwap
