import Mathlib.Data.Set.Card
import StackSwap.Proofs.Execution.Attempts
import StackSwap.Proofs.Swaps

namespace StackSwap

namespace Execution

variable {site : Site} {changes : List Swap}

/-- The function, the alias and the version of an update of an alias. -/
def Event.aliasUpdate? : Event → Option (String × String × String)
  | .called ⟨_, .updateAlias functionName aliasName version⟩ _ =>
    some (functionName, aliasName, version)
  | _ => none

/-- The updates of aliases among some events. -/
def aliasUpdates (events : List Event) : List (String × String × String) :=
  events.filterMap Event.aliasUpdate?

theorem aliasUpdates_append (first second : List Event) :
    aliasUpdates (first ++ second) = aliasUpdates first ++ aliasUpdates second :=
  List.filterMap_append

theorem aliasUpdates_moved {functionName version : String} {aliases : List String}
    {moves : List Event} (moved : List.Forall₂ (Moved functionName version) aliases moves) :
    aliasUpdates moves = aliases.map (fun aliasName => (functionName, aliasName, version)) := by
  induction moved with
  | nil => rfl
  | cons first _ ih =>
    cases first with
    | started time answer => simpa [aliasUpdates, Event.aliasUpdate?] using ih

theorem Polling.aliasUpdates {functionName : String} {schedule : Schedule} {polls : List Event}
    {waiter : Waiter} {next : Option Nat}
    (polling : Polling functionName schedule polls waiter next) :
    aliasUpdates polls = [] := by
  induction polling with
  | start now => rfl
  | pause _ _ _ _ _ _ ih => rw [aliasUpdates_append, ih]; rfl

theorem Awaiting.aliasUpdates {operation : Operation} {functionName : String} {events : List Event}
    {waiter : Waiter} {next : Option Nat}
    (awaiting : Awaiting site operation functionName events waiter next) :
    aliasUpdates events = [] := by
  cases awaiting with
  | since updates scheduled polling =>
    rw [aliasUpdates_append, polling.aliasUpdates]
    cases updates with
    | code | configuration => rfl

/-- Only publications update aliases. -/
theorem Applied.aliasUpdates_of_other {operation : Operation} {events : List Event}
    (applied : Applied site operation events)
    (other : ∀ request, operation ≠ .publishVersion request) : aliasUpdates events = [] := by
  cases applied with
  | update equipped awaiting notBefore updated =>
    rw [aliasUpdates_append, aliasUpdates_append, awaiting.aliasUpdates]
    rfl
  | publish => exact absurd rfl (other _)
  | single equipped sends direct =>
    cases sends with
    | publication request => exact absurd rfl (other request)
    | code | configuration | project | machine => rfl

/-- A publication updates its aliases in their order, all to one version. -/
theorem Applied.aliasUpdates_of_publish {request : VersionPublish} {events : List Event}
    (applied : Applied site (.publishVersion request) events) :
    ∃ version, aliasUpdates events =
      request.aliases.map (fun aliasName => (request.functionName, aliasName, version)) := by
  cases applied with
  | update equipped awaiting notBefore updated =>
    cases awaiting with
    | since updates => cases updates
  | @publish _ time answer moves equipped moved accepted =>
    refine ⟨answer.version, ?_⟩
    rw [aliasUpdates_append, aliasUpdates_append, aliasUpdates_moved moved]
    exact List.append_nil _
  | single equipped sends direct =>
    cases sends with
    | publication => exact absurd rfl direct

theorem aliasUpdates_of_last {operations : List Operation} {request : VersionPublish}
    {segments : List (List Event)}
    (applied : List.Forall₂ (Applied site) (operations ++ [.publishVersion request]) segments)
    (others : ∀ operation ∈ operations, ∀ other, operation ≠ .publishVersion other) :
    ∃ version, aliasUpdates segments.flatten =
      request.aliases.map (fun aliasName => (request.functionName, aliasName, version)) := by
  induction operations generalizing segments with
  | nil =>
    cases applied with
    | cons published rest =>
      cases rest
      simpa using published.aliasUpdates_of_publish
  | cons operation rest ih =>
    cases applied with
    | cons first later =>
      obtain ⟨here, others⟩ := List.forall_mem_cons.mp others
      obtain ⟨version, moved⟩ := ih later others
      refine ⟨version, ?_⟩
      rw [List.flatten_cons, aliasUpdates_append, first.aliasUpdates_of_other here, moved]
      exact List.nil_append _

/-- An execution that has succeeded has updated the aliases of each change whose last operation is
its only publication. -/
theorem run_aliasUpdates (steps now : Nat) {place : Nat} {change : Swap}
    (found : changes[place]? = some change) {operations : List Operation}
    {request : VersionPublish}
    (publishes : change.operations = operations ++ [.publishVersion request])
    (others : ∀ operation ∈ operations, ∀ other, operation ≠ .publishVersion other)
    (isOver : (run site none steps now changes).isOver = true)
    (succeeds : (run site none steps now changes).result = .ok ()) :
    ∃ version,
      aliasUpdates (eventsOf (run site none steps now changes).ledger.journal ⟨place, change⟩) =
        request.aliases.map (fun aliasName => (request.functionName, aliasName, version)) := by
  have among : Job.Among changes ⟨place, change⟩ := ⟨found, by simp [publishes]⟩
  obtain ⟨segments, applied, same⟩ :=
    (run_holds site none steps now changes).applied_of_ok isOver succeeds among
  obtain ⟨version, moved⟩ := aliasUpdates_of_last (publishes ▸ applied) others
  refine ⟨version, ?_⟩
  rw [same, aliasUpdates_append, ← List.singleton_append, aliasUpdates_append, moved]
  exact List.append_nil _

end Execution

namespace Verdict.Function

theorem sorted_resourcesMentioning (template : Template) (target : String) :
    (template.resourcesMentioning target).Sorted :=
  template.resources.sorted.filter _

/-- The versions come in ascending order, and so do the aliases of each. -/
theorem followers_ordered (template : Template) (logicalId : String) :
    (followers template logicalId).Pairwise (fun earlier later =>
      earlier.1 < later.1 ∨ earlier.1 = later.1 ∧ earlier.2 < later.2) := by
  have versions : (versionsOf template logicalId).Pairwise (· < ·) :=
    ((sorted_resourcesMentioning template logicalId).filter _).keys_pairwise
  rw [followers, List.pairwise_flatMap]
  constructor
  · intro version _
    have aliases : (aliasesOf template version).keys.Pairwise (· < ·) :=
      ((sorted_resourcesMentioning template version).filter _).keys_pairwise
    exact List.pairwise_map.mpr (aliases.imp (fun before => .inr ⟨rfl, before⟩))
  · refine versions.imp (fun before => ?_)
    simp only [List.mem_map]
    rintro _ ⟨_, _, rfl⟩ _ ⟨_, _, rfl⟩
    exact .inl before

theorem followers_nodup (template : Template) (logicalId : String) :
    (followers template logicalId).Nodup := by
  refine (followers_ordered template logicalId).imp ?_
  rintro earlier _ (before | ⟨_, before⟩) rfl
  · exact String.lt_irrefl _ before
  · exact String.lt_irrefl _ before

/-- An alias comes as often as it refers to versions of the function. -/
theorem count_followers (template : Template) (logicalId aliasId : String) :
    ((followers template logicalId).map Prod.snd).count aliasId =
      {version | template.Refers "AWS::Lambda::Version" version logicalId ∧
        template.Refers "AWS::Lambda::Alias" aliasId version}.ncard := by
  -- the pairs with this alias have different versions, since no pair comes twice
  let own := (followers template logicalId).filter (fun follower => follower.2 == aliasId)
  have distinct : (own.map Prod.fst).Nodup := by
    apply List.Nodup.map_on _ ((followers_nodup template logicalId).filter _)
    rintro ⟨version, first⟩ isFirst ⟨_, second⟩ isSecond rfl
    have ofFirst : first = aliasId := beq_iff_eq.mp (List.mem_filter.mp isFirst).2
    have ofSecond : second = aliasId := beq_iff_eq.mp (List.mem_filter.mp isSecond).2
    rw [ofFirst, ofSecond]
  have versions : {version | template.Refers "AWS::Lambda::Version" version logicalId ∧
      template.Refers "AWS::Lambda::Alias" aliasId version} = (own.map Prod.fst).toFinset := by
    ext version
    simp [own, mem_followers_iff]
  rw [versions, Set.ncard_coe_finset, List.toFinset_card_of_nodup distinct, List.length_map,
    ← List.countP_eq_length_filter, List.count, List.countP_map]
  rfl

/-- What a publication moves, by version and alias: every alias of the generated template that
follows the function, under the name that it is given there, and as often as it refers to versions
of the function. -/
structure MovesAll (scope : Scope) (logicalId : String) (moves : List (String × String))
    (aliases : List String) : Prop where
  follows : ∀ version aliasId, (version, aliasId) ∈ moves ↔
    scope.template.Refers "AWS::Lambda::Version" version logicalId ∧
      scope.template.Refers "AWS::Lambda::Alias" aliasId version
  ordered : moves.Pairwise (fun earlier later =>
    earlier.1 < later.1 ∨ earlier.1 = later.1 ∧ earlier.2 < later.2)
  count : ∀ aliasId, (moves.map Prod.snd).count aliasId =
    {version | scope.template.Refers "AWS::Lambda::Version" version logicalId ∧
      scope.template.Refers "AWS::Lambda::Alias" aliasId version}.ncard
  named : List.Forall₂ (fun move name => ∃ expression,
    scope.template.property? move.2 "Name" = some expression ∧
      scope.evaluateText expression = .ok name) moves aliases

theorem movesAll_followers {scope : Scope} {logicalId : String} {names : List String}
    (named : aliasNames scope (versionsOf scope.template logicalId) = .ok names) :
    MovesAll scope logicalId (followers scope.template logicalId) names where
  follows _ _ := mem_followers_iff
  ordered := followers_ordered scope.template logicalId
  count := count_followers scope.template logicalId
  named := aliasNames_eq_ok named

end Verdict.Function

namespace Verdict

/-- A publication in a swap lists every alias that follows its function, as often as the alias
refers to versions of the function. The same names are reported, and an execution that succeeds
updates the aliases in this order, all to one version. -/
theorem ofChange_moves_aliases (scope : Scope) {change : ResourceChange} {swap : Swap}
    (swapped : ofChange scope change = .ok (.swap swap)) {request : VersionPublish}
    (publishes : .publishVersion request ∈ swap.operations) :
    (∃ moves, Function.MovesAll scope change.logicalId moves request.aliases) ∧
      swap.resourceNames = Function.label request.functionName ::
        ("Lambda Version for Function '" ++ request.functionName ++ "'") ::
        request.aliases.map (fun name =>
          "Lambda Alias '" ++ name ++ "' for Function '" ++ request.functionName ++ "'") ∧
      ∀ (site : Execution.Site) (steps now : Nat) (changes : List Swap) (place : Nat),
        changes[place]? = some swap →
        (Execution.run site none steps now changes).isOver = true →
        (Execution.run site none steps now changes).result = .ok () →
        ∃ version, Execution.aliasUpdates (Execution.eventsOf
            (Execution.run site none steps now changes).ledger.journal ⟨place, swap⟩) =
          request.aliases.map (fun name => (request.functionName, name, version)) := by
  obtain ⟨functionName, _, names, _, _, updated, published, operations, reported⟩ :=
    ofFunction_eq_swap (ofFunction_of_lambda swapped publishes rfl)
  obtain ⟨code, configuration, rfl, _⟩ := Function.updates_eq_ok updated
  obtain ⟨publish, rfl, _, requested⟩ := Function.publication_eq_ok published
  have isPublish : publish = some request := by simpa [operations] using publishes
  obtain ⟨sameName, named, sameNames⟩ := requested request isPublish
  subst isPublish sameName sameNames
  refine ⟨⟨_, Function.movesAll_followers named⟩, reported, ?_⟩
  intro site steps now changes place found isOver succeeds
  apply Execution.run_aliasUpdates steps now found operations _ isOver succeeds
  rintro _ member other rfl
  simp at member

end Verdict

/-- A site with services that accept every call after a while. -/
def Execution.accepting : Site where
  configured := fun _ => true
  backend := {
    delay := fun _ _ => 5
    failure? := fun _ _ => none
    report := fun _ _ => { status := some .successful }
    version := fun _ _ => "3" }
  settings := {}

/-- A function with new code, and with an alias of its first version that may also send traffic
elsewhere. -/
def Template.rerouted (key : String) (routing : List (String × Json)) : Template :=
  .releasing [("Code", .obj [("S3Key", .str key)])] routing

/-- The function gets its new code, and then a new version to which these aliases move. -/
def Verdict.releasedSwap (aliases : List String) : Swap where
  logicalId := "Handler"
  type := "AWS::Lambda::Function"
  service := .lambda
  resourceNames := ["Lambda Function 'handler'", "Lambda Version for Function 'handler'"] ++
    aliases.map (fun name => "Lambda Alias '" ++ name ++ "' for Function 'handler'")
  changedProperties := ["Code"]
  operations := [.updateCode { functionName := "handler", s3Key := some "new" },
    .publishVersion ⟨"handler", aliases⟩]

/-- An alias of one version is listed and updated once. -/
theorem Verdict.ofChange_moves_aliases_live :
    let deployed := Template.rerouted "old" []
    let generated := Template.rerouted "new" []
    ∃ change, deployed.resourceChanges generated = [change] ∧
      ofChange (.ofTemplate generated) change = .ok (.swap (releasedSwap ["live"])) ∧
      (∃ moves, Function.MovesAll (.ofTemplate generated) "Handler" moves ["live"]) ∧
      ∃ version, Execution.aliasUpdates (Execution.eventsOf
        (Execution.run Execution.accepting none 9 0 [releasedSwap ["live"]]).ledger.journal
          ⟨0, releasedSwap ["live"]⟩) = [("handler", "live", version)] := by
  intro deployed generated
  have changed : ∃ change, deployed.resourceChanges generated = [change] ∧
      change.logicalId = "Handler" ∧
      ofChange (.ofTemplate generated) change = .ok (.swap (releasedSwap ["live"])) :=
    ⟨_, rfl, rfl, rfl⟩
  obtain ⟨change, only, named, swapped⟩ := changed
  have publishes : .publishVersion ⟨"handler", ["live"]⟩ ∈ (releasedSwap ["live"]).operations := by
    simp [releasedSwap]
  have isOver : (Execution.run Execution.accepting none 9 0
      [releasedSwap ["live"]]).isOver = true := by
    decide +kernel
  have succeeds : (Execution.run Execution.accepting none 9 0
      [releasedSwap ["live"]]).result = .ok () := by
    have isOk : (Execution.run Execution.accepting none 9 0
        [releasedSwap ["live"]]).result.isOk = true := by
      decide +kernel
    cases result : (Execution.run Execution.accepting none 9 0 [releasedSwap ["live"]]).result with
    | ok _ => rfl
    | error failure =>
      rw [result] at isOk
      cases isOk
  obtain ⟨moves, _, runs⟩ := ofChange_moves_aliases (.ofTemplate generated) swapped publishes
  exact ⟨change, only, swapped, named ▸ moves,
    runs Execution.accepting 9 0 [releasedSwap ["live"]] 0 rfl isOver succeeds⟩

/-- The alias sends some of the traffic to the second version. -/
def Template.sharing : List (String × Json) :=
  [("RoutingConfig", .obj [("AdditionalVersionWeights", .arr [.obj [
    ("FunctionVersion", .obj [("Fn::GetAtt", .str "Second.Version")]),
    ("FunctionWeight", .str "0.5")]])])]

/-- The only alias refers to both versions of the function, so it is listed and updated twice. -/
theorem Verdict.ofChange_moves_alias_twice :
    let deployed := Template.rerouted "old" Template.sharing
    let generated := Template.rerouted "new" Template.sharing
    ∃ change, deployed.resourceChanges generated = [change] ∧
      ofChange (.ofTemplate generated) change = .ok (.swap (releasedSwap ["live", "live"])) ∧
      (generated.resources.entries.filter
        (fun entry => entry.2.type == "AWS::Lambda::Alias")).map Prod.fst = ["Live"] ∧
      Execution.aliasUpdates (Execution.eventsOf (Execution.run Execution.accepting none 9 0
        [releasedSwap ["live", "live"]]).ledger.journal ⟨0, releasedSwap ["live", "live"]⟩) =
          [("handler", "live", "3"), ("handler", "live", "3")] := by
  refine ⟨_, rfl, rfl, rfl, ?_⟩
  decide +kernel

end StackSwap
