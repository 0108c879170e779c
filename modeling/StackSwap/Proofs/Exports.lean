import StackSwap.Proofs.Agreement
import StackSwap.Proofs.Attempt
import StackSwap.Proofs.Imports

namespace StackSwap

theorem Json.hereditary_importFree : Json.Hereditary Json.ImportFree where
  field free field member := (Json.ImportFree.obj_iff.mp free field member).2
  arn {name} free := by
    have isFree : name.hasKey "Fn::ImportValue" = false := free
    simp [Json.ImportFree, Verdict.Machine.arnExpression, Json.hasKey, Json.fieldsHaveKey,
      Json.itemsHaveKey, isFree]

/-- For other exports a scope agrees with itself on the expressions without imports. -/
theorem Scope.Indifferent.agreeOn {scope : Scope} {exports : Table String}
    (indifferent : scope.Indifferent exports) :
    (scope.withExports exports).AgreeOn Json.ImportFree scope :=
  ⟨Json.hereditary_importFree, indifferent, fun _ => rfl⟩

namespace Scope

variable {scope : Scope} {exports : Table String}

theorem nested?_withExports (free : scope.stack.ImportFree) (logicalId : String) :
    (scope.withExports exports).nested? logicalId =
      Option.map (fun child => child.withExports exports) <$> scope.nested? logicalId := by
  have sameAttributes : attributeOf (scope.stack.referenceBudget + 1) (scope.withExports exports) =
      attributeOf (scope.stack.referenceBudget + 1) scope := attributeOf_withExports _ free
  have sameStack : (scope.withExports exports).stack.nested? logicalId =
      (scope.stack.nested? logicalId).map id := Option.map_id_apply.symm
  apply nested?_map sameStack
  · exact nestedParameters_withExports free sameAttributes logicalId
  · exact fun _ _ => rfl

/-- The assessment of an import-free tree is the same for all exports. -/
theorem assess_withExports (stack : Stack) (free : stack.ImportFree) :
    ∀ scope : Scope, scope.stack = stack → ∀ exports,
      (scope.withExports exports).assess = scope.assess := by
  induction stack using Stack.nesting_induction with
  | level stack ih =>
    rintro scope rfl exports
    have known := indifferent free exports
    have keeps : scope.stack.generated.Keeps Json.ImportFree :=
      fun found given => free.property found given
    have sameResources :
        Stack.assessResources (scope.withExports exports) = Stack.assessResources scope := by
      unfold Stack.assessResources
      congr 1
      apply mapM_congr
      intro change member
      exact Verdict.ofChange_congr_of_mem known.agreeOn rfl keeps (List.mem_filter.mp member).1
    have sameChild : (scope.withExports exports).assessChild = scope.assessChild := by
      funext logicalId parameters
      have sameStack : (scope.withExports exports).stack = scope.stack := rfl
      simp only [assessChild, sameStack]
      cases loaded : scope.stack.nested? logicalId with
      | none => rfl
      | some child =>
        have member := Entries.mem_of_find? loaded
        exact ih _ member (free.inside loaded) (scope.inside child parameters) rfl exports
    have sameNested (modified : List String) (logicalId : String) :
        Stack.assessNested (scope.withExports exports) scope.assessChild modified logicalId =
          Stack.assessNested scope scope.assessChild modified logicalId := by
      simp only [Stack.assessNested, nested?_withExports free]
      cases scope.nested? logicalId with
      | error error => rfl
      | ok loaded => cases loaded <;> rfl
    rw [assess_eq, assess_eq, sameChild]
    simp only [Stack.assessLevel, sameResources]
    apply bind_congr_ok
    intro resources _
    congr 1
    exact mapM_congr (fun logicalId _ => sameNested _ logicalId)

end Scope

namespace Deployer

variable {deployer : Deployer} {levels : Nat} {request : Request}

/-- Planning, given how the exports for a tree are found. -/
def planGiven (deployer : Deployer) (levels : Nat) (request : Request)
    (exportsOf : Stack → Timed (Table String)) : Timed (Option Plan) :=
  if deployer.configured .cloudFormation then
    (deployer.loaded levels request).andThen fun
      | none => .now (.ok none)
      | some stack =>
        (Timed.both (deployer.lookups.parameters request.stackName) (exportsOf stack)).andThen
          fun (current, exports) => .now (some <$> Plan.ofScope
            (deployer.rootScope request stack current exports) (deployer.modeOf request))
  else .now (.error (.clientNotConfigured .cloudFormation))

/-- Planning that lists the exports for every tree. -/
def planListing (deployer : Deployer) (levels : Nat) (request : Request) : Timed (Option Plan) :=
  deployer.planGiven levels request (fun _ => deployer.lookups.exports)

theorem plan_eq_planGiven :
    (deployer.plan levels request).plan =
      deployer.planGiven levels request deployer.exportsFor := by
  by_cases client : deployer.configured .cloudFormation = true
  · rw [plan_eq client, planGiven, if_pos client]
    rfl
  · simp only [plan, planGiven, client, Bool.false_eq_true, ↓reduceIte]

/-- The plan for an import-free tree does not depend on the exports. -/
theorem ofScope_rootScope (deployer : Deployer) (request : Request) {stack : Stack}
    (free : stack.ImportFree) (current first second : Table String) (mode : Mode) :
    Plan.ofScope (deployer.rootScope request stack current first) mode =
      Plan.ofScope (deployer.rootScope request stack current second) mode := by
  have same := Scope.assess_withExports stack free
    (deployer.rootScope request stack current second) rfl first
  have sameAssessment : (deployer.rootScope request stack current first).assess =
      (deployer.rootScope request stack current second).assess := same
  simp only [Plan.ofScope, sameAssessment]
  rfl

/-- A tree that imports nothing is assessed alike for any two sets of exports: with the same changes
in the same order, or with the same error. So the exports may be listed only for trees that import
something: whenever the listing succeeds, planning has the outcome that it has if they are listed
for every tree. -/
theorem plan_without_listing :
    (∀ stack : Stack, stack.usesFunction "Fn::ImportValue" = false →
      ∀ environment parameters first second,
        stack.assess environment first parameters = stack.assess environment second parameters) ∧
    ∀ (deployer : Deployer) (levels : Nat) (request : Request) (duration : Nat)
      (exports : Table String), deployer.lookups.exports = .ends duration (.ok exports) →
        (deployer.plan levels request).plan.result? =
          (deployer.planListing levels request).result? := by
  constructor
  · intro stack free environment parameters first second
    exact Scope.assess_withExports stack free ⟨stack, parameters, environment, second⟩ rfl first
  · intro deployer levels request duration exports listed
    rw [plan_eq_planGiven, planListing]
    by_cases client : deployer.configured .cloudFormation = true
    · rw [planGiven, planGiven, if_pos client, if_pos client]
      apply Timed.result?_andThen_congr rfl
      intro loaded _
      cases loaded with
      | none => rfl
      | some stack =>
        dsimp only
        by_cases imports : stack.usesFunction "Fn::ImportValue" = true
        · rw [exportsFor, if_pos imports]
        · have free : stack.ImportFree := Bool.eq_false_iff.mpr imports
          rw [exportsFor, if_neg imports, listed]
          -- the two differ in the exports, so they agree only after the plan is made
          cases deployer.lookups.parameters request.stackName with
          | never => rfl
          | ends early result =>
            cases result with
            | error failure => rfl
            | ok current =>
              have same := ofScope_rootScope deployer request free current .empty exports
                (deployer.modeOf request)
              simp only [Timed.both, Timed.andThen, Timed.now, Timed.result?, same]
    · rw [planGiven, planGiven, if_neg client, if_neg client]

/-- A deployer that finds an export after a while. -/
def exportingDeployer : Deployer :=
  { nestingDeployer with
    lookups := { nestingDeployer.lookups with
      exports := .ends 5 (.ok (.ofList [("Bucket", "shared")])) } }

/-- A changed function in a nested stack is assessed and planned without that export. -/
theorem plan_without_listing_nested :
    let stack := (Scope.nesting (Scope.nestingTemplate "same") (Scope.nestingTemplate "same")
      (Verdict.functionTemplate (.str "archive") 3)
      (Verdict.functionTemplate (.str "archive") 30)).stack
    let environment := Environment.inPartition "123456789012" "eu-west-1" "aws"
    stack.usesFunction "Fn::ImportValue" = false ∧
      stack.assess environment .empty .empty =
        stack.assess environment (.ofList [("Bucket", "shared")]) .empty ∧
      (exportingDeployer.plan 2 nestingRequest).plan.result? =
        (exportingDeployer.planListing 2 nestingRequest).result? ∧
      (exportingDeployer.plan 2 nestingRequest).exportListings = 0 := by
  intro stack environment
  have unused : stack.usesFunction "Fn::ImportValue" = false := rfl
  obtain ⟨alike, planned⟩ := plan_without_listing
  exact ⟨unused, alike stack unused environment .empty .empty _,
    planned exportingDeployer 2 nestingRequest 5 _ rfl, rfl⟩

end Deployer

end StackSwap
