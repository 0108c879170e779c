import Mathlib.Data.List.Infix
import StackSwap.Proofs.Attributes
import StackSwap.Proofs.Lookup
import StackSwap.Template.References

/-! The search for mentions reads shapes and texts. If all targets and substitution bodies stand there
as literal texts, it misses nothing that evaluation looks up. -/

namespace StackSwap

theorem Text.splitOnce_eq_some {separator : Char} {text before after : List Char}
    (cut : splitOnce separator text = some (before, after)) :
    text = before ++ separator :: after ∧ text.takeWhile (· ≠ separator) = before := by
  induction text generalizing before with
  | nil => cases cut
  | cons char rest ih =>
    rw [splitOnce] at cut
    by_cases here : char = separator
    · rw [if_pos here] at cut
      cases cut
      simp [here]
    · rw [if_neg here] at cut
      obtain ⟨⟨first, last⟩, found, same⟩ := Option.map_eq_some_iff.mp cut
      cases same
      obtain ⟨whole, beginning⟩ := ih found
      constructor
      · rw [whole]
        rfl
      · rw [List.takeWhile_cons_of_pos (by simpa using here), beginning]

namespace Segment

/-- What has been read of a placeholder that is still open. -/
def pending : Option (List Char) → List Char
  | none => []
  | some token => '$' :: '\x7b' :: token.reverse

theorem ofToken_eq_placeholder {text : List Char} {token : String}
    (same : ofToken text = .placeholder token) : token.toList = text := by
  unfold ofToken at same
  split at same
  · cases same
  · cases same
    exact String.toList_ofList

/-- What is read as a placeholder stands in the text between braces. -/
theorem infix_of_mem_scan {token : String} (literal : List Char) (opened : Option (List Char))
    (text : List Char) (found : .placeholder token ∈ scan literal opened text) :
    '$' :: '\x7b' :: (token.toList ++ ['\x7d']) <:+: pending opened ++ text := by
  induction literal, opened, text using scan.induct with
  | case1 literal => simp [scan] at found
  | case2 literal begun => simp [scan] at found
  | case3 literal rest ih => exact ih found
  | case4 literal char rest noOpening ih =>
    rw [scan] at found
    · exact (ih found).trans (List.suffix_cons char rest).isInfix
    · exact noOpening
  | case5 literal begun rest ih =>
    rw [scan, if_pos rfl] at found
    rcases List.mem_cons.mp found with impossible | found
    · cases impossible
    · rcases List.mem_cons.mp found with here | later
      · rw [ofToken_eq_placeholder here.symm]
        exact ⟨[], rest, by simp [pending]⟩
      · have inRest := ih later
        exact inRest.trans ⟨pending (some begun) ++ ['\x7d'], [], by simp [pending]⟩
  | case6 literal begun char rest noClosing ih =>
    rw [scan, if_neg noClosing] at found
    have further := ih found
    simpa [pending] using further

theorem infix_of_mem_ofBody {body token : String} (found : .placeholder token ∈ ofBody body) :
    '$' :: '\x7b' :: (token.toList ++ ['\x7d']) <:+: body.toList :=
  infix_of_mem_scan [] none body.toList found

end Segment

namespace Json

theorem occursIn_iff {pattern text : List Char} : occursIn pattern text = true ↔ pattern <:+: text := by
  induction text with
  | nil => simp [occursIn]
  | cons char rest ih => simp [occursIn, ih, List.infix_cons_iff]

theorem itemsMention_eq_false {logicalId : String} {items : List Json} :
    itemsMention logicalId items = false ↔ ∀ item ∈ items, item.mentions logicalId = false := by
  induction items with
  | nil => simp [itemsMention]
  | cons item rest ih => simp [itemsMention, ih]

theorem fieldsMention_eq_false {logicalId : String} {fields : List (String × Json)} :
    fieldsMention logicalId fields = false ↔
      ∀ field ∈ fields, field.2.mentions logicalId = false := by
  induction fields with
  | nil => simp [fieldsMention]
  | cons field rest ih => simp [fieldsMention, ih]

/-- The names that a function looks up stand in its argument as texts. -/
structure NamesLiterally (function : String) (arguments : Json) : Prop where
  reference : function = "Ref" → ∃ target, arguments = .str target
  attributeOf : function = "Fn::GetAtt" → ∃ target, arguments.leadingText? = some target
  substitution : function = "Fn::Sub" → ∃ body, arguments.leadingText? = some body

/-- All functions inside the value name literally what they look up. -/
inductive Literal : Json → Prop where
  | null : Literal .null
  | bool (value : Bool) : Literal (.bool value)
  | num (number : Number) : Literal (.num number)
  | str (text : String) : Literal (.str text)
  | arr {items : List Json} (all : ∀ item ∈ items, Literal item) : Literal (.arr items)
  | obj {fields : List (String × Json)}
    (named : ∀ function arguments, fields = [(function, arguments)] →
      NamesLiterally function arguments)
    (all : ∀ field ∈ fields, Literal field.2) : Literal (.obj fields)

namespace Literal

theorem of_mem_arr {items : List Json} (literal : (Json.arr items).Literal) {item : Json}
    (member : item ∈ items) : item.Literal := by
  cases literal with
  | arr all => exact all item member

theorem of_mem_obj {fields : List (String × Json)} (literal : (Json.obj fields).Literal)
    {field : String × Json} (member : field ∈ fields) : field.2.Literal := by
  cases literal with
  | obj _ all => exact all field member

end Literal

variable {resolver : Resolver} {arguments argument : Json}

theorem evaluate_of_leadingText? {text : String} (begins : arguments.leadingText? = some text)
    (evaluated : arguments.evaluate resolver = .ok argument) :
    argument.leadingText? = some text ∧ argument.attributeTarget? = arguments.attributeTarget? := by
  cases arguments with
  | str own =>
    cases evaluated
    exact ⟨begins, rfl⟩
  | arr items =>
    match items, begins with
    | .str own :: rest, begins =>
      rw [evaluate_arr, List.mapM_cons] at evaluated
      obtain ⟨values, made, same⟩ := bind_eq_ok_iff.mp evaluated
      cases same
      obtain ⟨first, here, made⟩ := bind_eq_ok_iff.mp made
      obtain ⟨others, _, same⟩ := bind_eq_ok_iff.mp made
      cases here
      cases same
      exact ⟨begins, rfl⟩
  | null | bool | num | obj => cases begins

theorem attributeTarget?_of_attributeArguments {logicalId name : String}
    (named : Intrinsic.attributeArguments argument = .ok (logicalId, name)) :
    argument.attributeTarget? = some logicalId := by
  unfold Intrinsic.attributeArguments at named
  split at named
  · rename_i target name
    cases text : name.scalarText? with
    | none =>
      rw [text] at named
      cases named
    | some text =>
      rw [text] at named
      cases named
      rfl
  · rename_i dotted
    cases cut : Text.splitOnce '.' dotted.toList with
    | none =>
      rw [cut] at named
      cases named
    | some parts =>
      rw [cut] at named
      cases named
      rw [attributeTarget?, (Text.splitOnce_eq_some cut).2]
  · cases named

theorem leadingText?_of_substitutionArguments {body : String} {values : Entries Json}
    (opened : Intrinsic.substitutionArguments argument = .ok (body, values)) :
    argument.leadingText? = some body := by
  unfold Intrinsic.substitutionArguments at opened
  split at opened <;> cases opened <;> rfl

end Json

/-- The question is about a resource or about one of its attributes. -/
def Question.Targets (logicalId : String) : Question → Prop
  | .reference name => name = logicalId
  | .attributeOf target _ => target = logicalId
  | .exportedValue _ => False

namespace Json

variable {resolver : Resolver} {logicalId : String} {question : Question}

/-- A placeholder for a resource, or for one of its attributes, is found in the body. -/
theorem hasPlaceholder_of_mem {body token : String} (inBody : .placeholder token ∈ Segment.ofBody body)
    (targets : (Question.ofToken token).Targets logicalId) : hasPlaceholder body logicalId = true := by
  have stands := Segment.infix_of_mem_ofBody inBody
  unfold Question.ofToken at targets
  unfold hasPlaceholder
  apply Bool.or_eq_true_iff.mpr
  cases cut : Text.splitOnce '.' token.toList with
  | none =>
    rw [cut] at targets
    have same : token = logicalId := targets
    left
    apply occursIn_iff.mpr
    rw [← same]
    exact stands
  | some parts =>
    rw [cut] at targets
    have same : String.ofList parts.1 = logicalId := targets
    right
    apply occursIn_iff.mpr
    rw [← same, String.toList_ofList]
    rw [(Text.splitOnce_eq_some cut).1] at stands
    refine List.IsInfix.trans ⟨[], parts.2 ++ ['\x7d'], ?_⟩ stands
    simp

theorem NamesLiterally.mentions {function : String} {arguments argument : Json}
    (named : NamesLiterally function arguments) (evaluated : arguments.evaluate resolver = .ok argument)
    (looksUp : Intrinsic.LooksUp function argument question) (targets : question.Targets logicalId) :
    mentionAsFunction? logicalId function arguments = some true := by
  cases looksUp with
  | reference name =>
    obtain ⟨target, rfl⟩ := named.reference rfl
    cases evaluated
    have same : name = logicalId := targets
    simp [mentionAsFunction?, str?, same]
  | attributeOf attributed =>
    obtain ⟨target, begins⟩ := named.attributeOf rfl
    obtain ⟨_, sameTarget⟩ := evaluate_of_leadingText? begins evaluated
    rw [attributeTarget?_of_attributeArguments attributed] at sameTarget
    have same : _ = logicalId := targets
    simp [mentionAsFunction?, ← sameTarget, same]
  | placeholder opened inBody unbound =>
    obtain ⟨body, begins⟩ := named.substitution rfl
    obtain ⟨sameBody, _⟩ := evaluate_of_leadingText? begins evaluated
    rw [leadingText?_of_substitutionArguments opened] at sameBody
    cases sameBody
    simp [mentionAsFunction?, begins, hasPlaceholder_of_mem inBody targets]
  | exportedValue name => exact targets.elim

/-- Only a reference settles the question without a look at the values inside. -/
theorem eq_ref_of_mentionAsFunction? {function : String} {arguments : Json}
    (other : mentionAsFunction? logicalId function arguments = some false) : function = "Ref" := by
  unfold mentionAsFunction? at other
  split at other
  · assumption
  · split at other
    · split at other <;> cases other
    · split at other
      · split at other
        · split at other <;> cases other
        · cases other
      · cases other

theorem Literal.mentions_of_field {fields : List (String × Json)} (literal : (Json.obj fields).Literal)
    {field : String × Json} (member : field ∈ fields) (inside : field.2.mentions logicalId = true) :
    (Json.obj fields).mentions logicalId = true := by
  cases literal with
  | obj named all =>
    match fields, member with
    | [(function, arguments)], member =>
      cases List.mem_singleton.mp member
      rw [Json.mentions]
      cases settled : mentionAsFunction? logicalId function arguments with
      | none => exact inside
      | some answer =>
        cases answer with
        | true => rfl
        | false =>
          obtain ⟨target, rfl⟩ := (named _ _ rfl).reference (eq_ref_of_mentionAsFunction? settled)
          cases inside
    | first :: second :: rest, member =>
      by_contra unmentioned
      rw [Json.mentions, Bool.not_eq_true, fieldsMention_eq_false] at unmentioned
      · rw [unmentioned _ member] at inside
        cases inside
      · simp

/-- A literal value that looks up a resource mentions it. -/
theorem Literal.mentions_of_looksUp {value : Json} (literal : value.Literal)
    (looksUp : value.LooksUp resolver question) (targets : question.Targets logicalId) :
    value.mentions logicalId = true := by
  induction looksUp with
  | function evaluated looksUp =>
    cases literal with
    | obj named all =>
      rw [Json.mentions, (named _ _ rfl).mentions evaluated looksUp targets]
  | item member inside ih =>
    have here := ih (literal.of_mem_arr member) targets
    by_contra unmentioned
    rw [Json.mentions, Bool.not_eq_true, itemsMention_eq_false] at unmentioned
    rw [unmentioned _ member] at here
    cases here
  | field member inside ih =>
    have here := literal.of_mem_obj member
    exact literal.mentions_of_field member (ih here targets)

end Json

namespace Scope

/-- The scope with other deployed resources. -/
def withListing (scope : Scope) (listing : Listing) : Scope :=
  { scope with stack := { scope.stack with listing } }

/-- The attribute is an output, of the stack itself or of a nested stack. -/
def IsOutput (scope : Scope) (logicalId name : String) : Prop :=
  logicalId = outputsId ∨
    ∃ resource outputName, scope.listing.find? logicalId = some resource ∧
      ResourceKind.ofType resource.type = .nestedStack ∧
      Text.dropBeginning? "Outputs." name = some outputName

variable {scope : Scope} {listing : Listing} {logicalId name : String}

theorem meaning_of_not_output (noOutput : ¬ scope.IsOutput logicalId name) :
    ∃ answer, scope.meaning logicalId name = .settled answer := by
  cases leads : scope.meaning logicalId name with
  | settled answer => exact ⟨answer, rfl⟩
  | output expression => exact absurd (.inl (meaning_eq_output leads).1) noOutput
  | inner stack outputName =>
    refine absurd (.inr ?_) noOutput
    unfold meaning at leads
    split at leads
    · split at leads <;> cases leads
    · split at leads
      · cases leads
      · rename_i resource found
        split at leads
        · rename_i outputName isOutput isNested
          exact ⟨resource, outputName, found, isNested, isOutput⟩
        · cases leads

theorem attributeOf_of_settled {answer : Evaluated Json}
    (settled : scope.meaning logicalId name = .settled answer) :
    scope.resolver.attributeOf logicalId name = answer := by
  have unfolded := attributeOf_succ scope.stack.referenceBudget scope logicalId name
  rwa [settled] at unfolded

/-- What an attribute leads to depends on the listing of its own resource only. -/
theorem meaning_withListing (same : listing.find? logicalId = scope.listing.find? logicalId) :
    (scope.withListing listing).meaning logicalId name = scope.meaning logicalId name := by
  have listed : (scope.withListing listing).listing.find? logicalId =
      scope.listing.find? logicalId := same
  unfold meaning
  rw [listed]
  rfl

theorem reference_withListing (same : listing.find? name = scope.listing.find? name) :
    (scope.withListing listing).reference name = scope.reference name := by
  have listed : (scope.withListing listing).listing.physicalId? name =
      scope.listing.physicalId? name := congrArg (Option.map ListedResource.physicalId) same
  unfold reference
  rw [listed]
  rfl

/-- A literal value that neither mentions a resource nor looks up outputs has the same evaluation,
value or error, however that resource is listed. -/
theorem evaluate_of_unmentioned
    (others : ∀ other, other ≠ logicalId → listing.find? other = scope.listing.find? other)
    {value : Json} (literal : value.Literal)
    (noOutput : ∀ target name, value.LooksUp scope.resolver (.attributeOf target name) →
      ¬ scope.IsOutput target name)
    (unmentioned : value.mentions logicalId = false) :
    (scope.withListing listing).evaluate value = scope.evaluate value := by
  symm
  apply Json.evaluate_congr
  intro question looksUp
  have different : ¬ question.Targets logicalId := by
    intro targets
    rw [literal.mentions_of_looksUp looksUp targets] at unmentioned
    cases unmentioned
  cases question with
  | reference target => exact (reference_withListing (others target different)).symm
  | exportedValue target => rfl
  | attributeOf target name =>
    have sameMeaning : (scope.withListing listing).meaning target name =
        scope.meaning target name := meaning_withListing (others target different)
    obtain ⟨answer, settled⟩ := meaning_of_not_output (noOutput target name looksUp)
    have first := attributeOf_of_settled settled
    have second := attributeOf_of_settled (sameMeaning.trans settled)
    exact first.trans second.symm

/-- A scope with a deployed bucket and a deployed role. -/
def withBucket : Scope where
  stack := {
    name := some "outer"
    deployed := {}
    generated := {}
    listing := .ofResources
      [⟨"Bucket", "AWS::S3::Bucket", "files"⟩, ⟨"Role", "AWS::IAM::Role", "reader"⟩]
    nested := [] }
  parameters := .empty
  environment := .inPartition "123456789012" "eu-west-1" "aws"
  exports := .empty

/-- The bucket in a text, between a reference and a placeholder that is written out. -/
def bucketText : Json :=
  .obj [("Fn::Sub", .str "${AWS::Region} ${Bucket.Arn} ${!Role}")]

theorem literal_bucketText : bucketText.Literal := by
  apply Json.Literal.obj
  · rintro function arguments same
    cases same
    exact ⟨nofun, nofun, fun _ => ⟨_, rfl⟩⟩
  · intro field member
    cases List.mem_singleton.mp member
    exact .str _

/-- The text is the same without the role in the listing. -/
theorem evaluate_of_unmentioned_bucket :
    let others : Listing := .ofResources [⟨"Bucket", "AWS::S3::Bucket", "files"⟩]
    bucketText.mentions "Role" = false ∧
      withBucket.evaluate bucketText = .ok (.str "eu-west-1 arn:aws:s3:::files ${Role}") ∧
      (withBucket.withListing others).evaluate bucketText = withBucket.evaluate bucketText := by
  intro others
  have unmentioned : bucketText.mentions "Role" = false := by decide
  refine ⟨unmentioned, rfl, evaluate_of_unmentioned ?_ literal_bucketText ?_ unmentioned⟩
  · intro other different
    have withRole : withBucket.listing =
        others.insert "Role" ⟨"Role", "AWS::IAM::Role", "reader"⟩ := rfl
    rw [withRole, Table.find?_insert_ne others different.symm]
  · intro target name looksUp isOutput
    rcases isOutput with rfl | ⟨resource, outputName, found, nested, _⟩
    · have mentioned := literal_bucketText.mentions_of_looksUp looksUp rfl
      exact absurd mentioned (by decide)
    · have listed : withBucket.listing.entries =
          [("Bucket", ⟨"Bucket", "AWS::S3::Bucket", "files"⟩),
            ("Role", ⟨"Role", "AWS::IAM::Role", "reader"⟩)] := rfl
      have member := Entries.mem_of_find? found
      rw [listed] at member
      rcases List.mem_pair.mp member with same | same
      · cases same
        cases nested
      · cases same
        cases nested

end Scope

end StackSwap
