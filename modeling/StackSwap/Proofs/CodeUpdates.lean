import StackSwap.Proofs.Swaps

namespace StackSwap

/-- The entries of the code property, of which there are none if it is no object. -/
def Resource.codeFields (resource : Resource) : Entries Json :=
  ((resource.property? "Code").bind Json.fields?).getD []

/-- A field of an update carries a key of the code property: it is set exactly if the key is there,
to what an expression under the key stands for. -/
structure Resource.Carries {α : Type} (resource : Resource) (key : String)
    (step : Json → Evaluated α) (field : Option α) : Prop where
  isSome : field.isSome = true ↔ key ∈ resource.codeFields.keys
  value : ∀ found ∈ field, ∃ expression, (key, expression) ∈ resource.codeFields ∧
    step expression = .ok found

theorem Resource.Carries.eq_none_iff {α : Type} {resource : Resource} {key : String}
    {step : Json → Evaluated α} {field : Option α} (carries : resource.Carries key step field) :
    field = none ↔ key ∉ resource.codeFields.keys := by
  rw [← carries.isSome, Option.not_isSome_iff_eq_none]

/-- The update has the code that a definition gives. -/
structure CodeUpdate.Follows (update : CodeUpdate) (scope : Scope) (resource : Resource) :
    Prop where
  bucket : resource.Carries "S3Bucket" scope.evaluateText update.s3Bucket
  object : resource.Carries "S3Key" scope.evaluateText update.s3Key
  objectVersion : resource.Carries "S3ObjectVersion" scope.evaluateText update.s3ObjectVersion
  image : resource.Carries "ImageUri" scope.evaluateText update.imageUri
  inline : resource.Carries "ZipFile"
    (fun expression => scope.evaluateText expression >>=
      Verdict.Function.archive scope (resource.property? "Runtime")) update.zipFile

/-- The update has no code at all. -/
structure CodeUpdate.SetsNothing (update : CodeUpdate) : Prop where
  bucket : update.s3Bucket = none
  object : update.s3Key = none
  objectVersion : update.s3ObjectVersion = none
  image : update.imageUri = none
  inline : update.zipFile = none

/-- An update has no code exactly if its definition has none of the keys that it takes. -/
theorem CodeUpdate.Follows.setsNothing_iff {update : CodeUpdate} {scope : Scope}
    {resource : Resource} (follows : update.Follows scope resource) :
    update.SetsNothing ↔
      ∀ key ∈ Verdict.Function.codeKeys, key ∉ resource.codeFields.keys := by
  simp only [Verdict.Function.codeKeys, List.forall_mem_cons, ← follows.bucket.eq_none_iff,
    ← follows.object.eq_none_iff, ← follows.objectVersion.eq_none_iff,
    ← follows.image.eq_none_iff, ← follows.inline.eq_none_iff]
  constructor
  · rintro ⟨bucket, object, objectVersion, image, inline⟩
    exact ⟨bucket, object, objectVersion, image, inline, by simp⟩
  · rintro ⟨bucket, object, objectVersion, image, inline, _⟩
    exact ⟨bucket, object, objectVersion, image, inline⟩

namespace Verdict

variable {scope : Scope} {change : ResourceChange} {new : Resource}

namespace Function

/-- A field that exactly one key sets carries this key. -/
theorem carries_of_folded {α : Type} {name : String} {runtime : Option Json}
    {step : Json → Evaluated α} {field : CodeUpdate → Option α} {first last : CodeUpdate}
    (fresh : field first = none)
    (takes : ∀ key expression update later, TakesKey scope runtime expression update key later →
      (key = name ∧ ∃ value, step expression = .ok value ∧ field later = some value) ∨
        (key ≠ name ∧ field later = field update))
    (folded : new.codeFields.foldlM
      (fun update (key, expression) => addCodeKey scope runtime update key expression) first =
        .ok last) :
    new.Carries name step (field last) := by
  have result := foldlM_field field (·.1 = name)
    (fun (entry : String × Json) value => step entry.2 = .ok value)
    (fun _ _ _ _ added => takes _ _ _ _ (addCodeKey_takes added)) folded
  rcases result with ⟨unset, same⟩ | ⟨⟨_, expression⟩, member, rfl, value, means, set⟩
  · have absent : name ∉ new.codeFields.keys := by
      intro inKeys
      obtain ⟨entry, member, isName⟩ := List.mem_map.mp inKeys
      exact unset entry member isName
    constructor
    · simp [same, fresh, absent]
    · simp [same, fresh]
  · constructor
    · rw [set]
      exact iff_of_true rfl (List.mem_map_of_mem (f := Prod.fst) member)
    · intro found isFound
      rw [set] at isFound
      cases isFound
      exact ⟨expression, member, means⟩

theorem codeUpdate_follows {functionName : String} {update : CodeUpdate}
    (given : ∀ name, change.newProperty? name = new.property? name)
    (updated : codeUpdate scope change functionName = .ok update) : update.Follows scope new := by
  rw [codeUpdate, given, given] at updated
  -- a step sets the field of its own key and keeps the others, and one of another key keeps all
  have unlike {key name : String} (unknown : key ∉ codeKeys) (known : name ∈ codeKeys) :
      key ≠ name := fun same => unknown (same ▸ known)
  exact {
    bucket := by
      refine carries_of_folded rfl ?_ updated
      intro key expression update later takes
      cases takes with
      | bucket means => exact .inl ⟨rfl, _, means, rfl⟩
      | object | objectVersion | image | inline => exact .inr ⟨by decide, rfl⟩
      | other unknown => exact .inr ⟨unlike unknown (by decide), rfl⟩
    object := by
      refine carries_of_folded rfl ?_ updated
      intro key expression update later takes
      cases takes with
      | object means => exact .inl ⟨rfl, _, means, rfl⟩
      | bucket | objectVersion | image | inline => exact .inr ⟨by decide, rfl⟩
      | other unknown => exact .inr ⟨unlike unknown (by decide), rfl⟩
    objectVersion := by
      refine carries_of_folded rfl ?_ updated
      intro key expression update later takes
      cases takes with
      | objectVersion means => exact .inl ⟨rfl, _, means, rfl⟩
      | bucket | object | image | inline => exact .inr ⟨by decide, rfl⟩
      | other unknown => exact .inr ⟨unlike unknown (by decide), rfl⟩
    image := by
      refine carries_of_folded rfl ?_ updated
      intro key expression update later takes
      cases takes with
      | image means => exact .inl ⟨rfl, _, means, rfl⟩
      | bucket | object | objectVersion | inline => exact .inr ⟨by decide, rfl⟩
      | other unknown => exact .inr ⟨unlike unknown (by decide), rfl⟩
    inline := by
      refine carries_of_folded rfl ?_ updated
      intro key expression update later takes
      cases takes with
      | inline means packed => exact .inl ⟨rfl, _, bind_eq_ok_iff.mpr ⟨_, means, packed⟩, rfl⟩
      | bucket | object | objectVersion | image => exact .inr ⟨by decide, rfl⟩
      | other unknown => exact .inr ⟨unlike unknown (by decide), rfl⟩ }

end Function

/-- An update of code in a swap has the code of the generated template: each of its fields is set
exactly if its key is among those of the code property, so it sets nothing exactly if there is none
of them. The property may also be missing, or be no object. -/
theorem ofChange_code_follows {deployed generated : Template} (scope : Scope)
    {change : ResourceChange} (member : change ∈ deployed.resourceChanges generated) {swap : Swap}
    (swapped : ofChange scope change = .ok (.swap swap)) {update : CodeUpdate}
    (updates : .updateCode update ∈ swap.operations) :
    ∃ new, generated.resource? change.logicalId = some new ∧ update.Follows scope new ∧
      (update.SetsNothing ↔ ∀ key ∈ Function.codeKeys, key ∉ new.codeFields.keys) := by
  obtain ⟨old, new, modifies⟩ :=
    ResourceChange.modifies_of_mem member (counts_of_swap swapped).modified
  have given (name : String) : change.newProperty? name = new.property? name := by
    rw [ResourceChange.newProperty?, modifies.newGiven, Option.bind_some]
  obtain ⟨functionName, _, _, _, _, made, published, operations, _⟩ :=
    ofFunction_eq_swap (ofFunction_of_lambda swapped updates rfl)
  obtain ⟨code, configuration, rfl, _, codeMade, _⟩ := Function.updates_eq_ok made
  obtain ⟨publish, rfl, _⟩ := Function.publication_eq_ok published
  have isCode : code = some update := by simpa [operations] using updates
  have follows : update.Follows scope new :=
    Function.codeUpdate_follows given (codeMade update isCode)
  exact ⟨new, modifies.generated, follows, follows.setsNothing_iff⟩

end Verdict

/-- A function with some code property, or with none. -/
def Template.coded (code : Option Json) : Template :=
  .ofResource "Handler" "AWS::Lambda::Function"
    (("FunctionName", .str "handler") :: code.toList.map (("Code", ·)))

/-- A function gets another object of the bucket that it has. -/
theorem Verdict.ofChange_code_follows_object :
    let deployed := Template.coded (some (.obj [("S3Key", .str "old")]))
    let generated := Template.coded (some (.obj [("S3Key", .str "new")]))
    ∃ change ∈ deployed.resourceChanges generated, ∃ swap update new,
      ofChange (.ofTemplate generated) change = .ok (.swap swap) ∧
        swap.operations = [.updateCode update] ∧ update.s3Key = some "new" ∧
        update.Follows (.ofTemplate generated) new ∧ ¬ update.SetsNothing := by
  intro deployed generated
  have changed : ∃ change swap update, deployed.resourceChanges generated = [change] ∧
      ofChange (.ofTemplate generated) change = .ok (.swap swap) ∧
      swap.operations = [.updateCode update] ∧ update.s3Key = some "new" :=
    ⟨_, _, _, rfl, rfl, rfl, rfl⟩
  obtain ⟨change, swap, update, only, swapped, operations, set⟩ := changed
  have member : change ∈ deployed.resourceChanges generated :=
    only ▸ List.mem_singleton_self change
  obtain ⟨new, _, follows, _⟩ := ofChange_code_follows (.ofTemplate generated) member swapped
    (operations ▸ List.mem_singleton_self (Operation.updateCode update))
  refine ⟨change, member, swap, update, new, swapped, operations, set, follows, ?_⟩
  intro nothing
  cases set.symm.trans nothing.object

/-- A function whose code is replaced by this is swapped by one update, which sets nothing. -/
def Template.SetsNothing (code : Option Json) : Prop :=
  let deployed := Template.coded (some (.obj [("S3Key", .str "old")]))
  ∃ change swap update, deployed.resourceChanges (Template.coded code) = [change] ∧
    Verdict.ofChange (.ofTemplate (Template.coded code)) change = .ok (.swap swap) ∧
    swap.operations = [.updateCode update] ∧ update.SetsNothing

/-- The new code is missing, is no object, has only keys that no update takes, or is chosen by a
condition. -/
theorem Verdict.ofChange_code_empty :
    Template.SetsNothing none ∧ Template.SetsNothing (some .null) ∧
      Template.SetsNothing (some (.obj [("SourceKMSKeyArn", .str "key")])) ∧
      Template.SetsNothing
        (some (.obj [("Fn::If", .arr [.str "Inline", .obj [("ZipFile", .str "")], .obj []])])) := by
  have nothing (functionName : String) : CodeUpdate.SetsNothing { functionName } :=
    ⟨rfl, rfl, rfl, rfl, rfl⟩
  exact ⟨⟨_, _, _, rfl, rfl, rfl, nothing _⟩, ⟨_, _, _, rfl, rfl, rfl, nothing _⟩,
    ⟨_, _, _, rfl, rfl, rfl, nothing _⟩, ⟨_, _, _, rfl, rfl, rfl, nothing _⟩⟩

end StackSwap
