import StackSwap.Proofs.Json
import StackSwap.Proofs.Renames

/-! Among the twins of a resource, which have its type and properties, the first addition goes with
the first removal, and so on until one of the two runs out. -/

namespace StackSwap

namespace Resource

/-- The two definitions have one type and equal properties. -/
def isTwinOf (resource other : Resource) : Bool :=
  resource.type == other.type && resource.properties == other.properties

theorem isTwinOf_iff {resource other : Resource} :
    resource.isTwinOf other = true ↔ resource.type = other.type ∧
      (Json.obj resource.properties.entries).same (.obj other.properties.entries) = true := by
  have properties : (resource.properties == other.properties) =
      (Json.obj resource.properties.entries).same (.obj other.properties.entries) :=
    Json.beq_fields ..
  rw [isTwinOf, Bool.and_eq_true, beq_iff_eq, properties]

theorem isTwinOf_refl (resource : Resource) : resource.isTwinOf resource = true :=
  isTwinOf_iff.mpr ⟨rfl, Json.same_refl _⟩

theorem isTwinOf_of_common {common left right : Resource} (toLeft : common.isTwinOf left = true)
    (toRight : common.isTwinOf right = true) : left.isTwinOf right = true := by
  obtain ⟨leftType, leftProperties⟩ := isTwinOf_iff.mp toLeft
  obtain ⟨rightType, rightProperties⟩ := isTwinOf_iff.mp toRight
  exact isTwinOf_iff.mpr ⟨leftType.symm.trans rightType,
    Json.same_of_same leftProperties rightProperties⟩

theorem isTwinOf_symm {resource other : Resource} (twins : resource.isTwinOf other = true) :
    other.isTwinOf resource = true :=
  isTwinOf_of_common twins resource.isTwinOf_refl

end Resource

namespace ResourceChange

/-- The definition that an addition adds, or that a removal removes. -/
def definition? (change : ResourceChange) : Option Resource :=
  match change.kind with
  | .added => change.new
  | .removed => change.old
  | .modified => none

/-- The change adds, or removes, a twin of the resource. -/
def concerns (kind : ChangeKind) (resource : Resource) (change : ResourceChange) : Bool :=
  change.kind == kind && change.definition?.any (·.isTwinOf resource)

/-- A change with its position among all changes. -/
abbrev Place := ResourceChange × Nat

theorem concerns_iff {kind : ChangeKind} {resource : Resource} {change : ResourceChange} :
    change.concerns kind resource = true ↔
      change.kind = kind ∧ ∃ found, change.definition? = some found ∧
        found.isTwinOf resource = true := by
  rw [concerns, Bool.and_eq_true, beq_iff_eq, Option.any_eq_true]

theorem isRenamedTo_iff {removed added : ResourceChange} (isRemoved : removed.kind = .removed)
    (isAdded : added.kind = .added) :
    removed.isRenamedTo added = true ↔ ∃ old new, removed.definition? = some old ∧
      added.definition? = some new ∧ old.isTwinOf new = true := by
  unfold isRenamedTo definition?
  rw [isRemoved, isAdded]
  cases removed.old <;> cases added.new <;> simp [Resource.isTwinOf]

section Twins

variable {removed added : ResourceChange} {resource : Resource}

theorem isRenamedTo_of_concerns (ofRemoved : removed.concerns .removed resource = true)
    (ofAdded : added.concerns .added resource = true) : removed.isRenamedTo added = true := by
  obtain ⟨isRemoved, old, oldFound, oldTwin⟩ := concerns_iff.mp ofRemoved
  obtain ⟨isAdded, new, newFound, newTwin⟩ := concerns_iff.mp ofAdded
  exact (isRenamedTo_iff isRemoved isAdded).mpr ⟨old, new, oldFound, newFound,
    Resource.isTwinOf_of_common (Resource.isTwinOf_symm oldTwin) (Resource.isTwinOf_symm newTwin)⟩

theorem concerns_of_isRenamedTo (resource : Resource) (isRemoved : removed.kind = .removed)
    (isAdded : added.kind = .added) (renamed : removed.isRenamedTo added = true) :
    removed.concerns .removed resource = added.concerns .added resource := by
  obtain ⟨old, new, oldFound, newFound, twins⟩ := (isRenamedTo_iff isRemoved isAdded).mp renamed
  rw [Bool.eq_iff_iff, concerns_iff, concerns_iff]
  simp only [isRemoved, isAdded, oldFound, newFound, Option.some.injEq, exists_eq_left', true_and]
  constructor
  · exact fun oldTwin => Resource.isTwinOf_of_common twins oldTwin
  · exact fun newTwin => Resource.isTwinOf_of_common (Resource.isTwinOf_symm twins) newTwin

end Twins

/-! The pairs -/

/-- The additions that find a partner, in order, each with the first removal that is still free. -/
def partners : (added free : List Place) → List (Place × Place)
  | [], _ => []
  | first :: rest, free =>
    match free.find? (fun removed => removed.1.isRenamedTo first.1) with
    | none => partners rest free
    | some partner =>
      (first, partner) :: partners rest (free.filter (fun other => other.2 ≠ partner.2))

theorem renamedPairs_eq (added free : List Place) :
    renamedPairs added free =
      (partners added free).flatMap (fun pair => [pair.1.2, pair.2.2]) := by
  induction added generalizing free with
  | nil => rfl
  | cons first rest ih =>
    rw [renamedPairs, partners]
    cases free.find? (fun removed => removed.1.isRenamedTo first.1) with
    | none => exact ih free
    | some partner => simp [ih]

/-- The first addition has no partner, or takes the first removal that is renamed to it. -/
theorem partners_cons_cases (first : Place) (rest free : List Place)
    (apart : (free.map Prod.snd).Nodup) :
    ((∀ removed ∈ free, removed.1.isRenamedTo first.1 = false) ∧
        partners (first :: rest) free = partners rest free) ∨
      ∃ before partner after, free = before ++ partner :: after ∧
        (∀ removed ∈ before, removed.1.isRenamedTo first.1 = false) ∧
        partner.1.isRenamedTo first.1 = true ∧
        partners (first :: rest) free = (first, partner) :: partners rest (before ++ after) := by
  rw [partners]
  cases found : free.find? (fun removed => removed.1.isRenamedTo first.1) with
  | none =>
    refine .inl ⟨?_, rfl⟩
    intro removed member
    exact Bool.eq_false_iff.mpr (List.find?_eq_none.mp found removed member)
  | some partner =>
    obtain ⟨renamed, before, after, rfl, passed⟩ := List.find?_eq_some_iff_append.mp found
    refine .inr ⟨before, partner, after, rfl, ?_, renamed, ?_⟩
    · intro removed member
      simpa using passed removed member
    · rw [List.map_append, List.map_cons, List.nodup_middle] at apart
      have fresh : partner.2 ∉ (before ++ after).map Prod.snd := by
        rw [List.map_append]
        exact (List.nodup_cons.mp apart).1
      have others : (before ++ partner :: after).filter (fun other => other.2 ≠ partner.2) =
          before ++ after := by
        rw [List.filter_append, List.filter_cons_of_neg (by simp), ← List.filter_append]
        apply List.filter_eq_self.mpr
        intro other member
        have different : other.2 ≠ partner.2 := fun same =>
          fresh (same ▸ List.mem_map_of_mem member)
        simpa using different
      exact congrArg (fun free => (first, partner) :: partners rest free) others

theorem apart_append {before after : List Place} {partner : Place}
    (apart : ((before ++ partner :: after).map Prod.snd).Nodup) :
    ((before ++ after).map Prod.snd).Nodup :=
  apart.sublist (((List.sublist_cons_self partner after).append_left before).map Prod.snd)

variable {added free : List Place}

/-- Every pair is of an addition and a free removal that is renamed to it. -/
theorem of_mem_partners (apart : (free.map Prod.snd).Nodup) {pair : Place × Place}
    (member : pair ∈ partners added free) :
    pair.1 ∈ added ∧ pair.2 ∈ free ∧ pair.2.1.isRenamedTo pair.1.1 = true := by
  induction added generalizing free with
  | nil => cases member
  | cons first rest ih =>
    rcases partners_cons_cases first rest free apart with
      ⟨_, same⟩ | ⟨before, partner, after, rfl, _, renamed, same⟩
    · rw [same] at member
      obtain ⟨inRest, isFree, renamed⟩ := ih apart member
      exact ⟨List.mem_cons_of_mem _ inRest, isFree, renamed⟩
    · rw [same] at member
      rcases List.mem_cons.mp member with rfl | later
      · exact ⟨List.mem_cons_self .., by simp, renamed⟩
      · obtain ⟨inRest, isFree, renamed⟩ := ih (apart_append apart) later
        have stillFree : pair.2 ∈ before ++ partner :: after :=
          ((List.sublist_cons_self partner after).append_left before).subset isFree
        exact ⟨List.mem_cons_of_mem _ inRest, stillFree, renamed⟩

theorem partners_fst_sublist (apart : (free.map Prod.snd).Nodup) :
    ((partners added free).map Prod.fst).Sublist added := by
  induction added generalizing free with
  | nil => exact List.Sublist.slnil
  | cons first rest ih =>
    rcases partners_cons_cases first rest free apart with
      ⟨_, same⟩ | ⟨before, partner, after, rfl, _, _, same⟩
    · rw [same]
      exact (ih apart).cons first
    · rw [same, List.map_cons]
      exact (ih (apart_append apart)).cons_cons first

/-- No removal is the partner of two additions. -/
theorem partners_snd_nodup (apart : (free.map Prod.snd).Nodup) :
    ((partners added free).map Prod.snd).Nodup := by
  induction added generalizing free with
  | nil => exact List.nodup_nil
  | cons first rest ih =>
    rcases partners_cons_cases first rest free apart with
      ⟨_, same⟩ | ⟨before, partner, after, rfl, _, _, same⟩
    · rw [same]
      exact ih apart
    · rw [same, List.map_cons]
      refine List.nodup_cons.mpr ⟨?_, ih (apart_append apart)⟩
      intro again
      obtain ⟨pair, member, samePartner⟩ := List.mem_map.mp again
      have isFree := (of_mem_partners (apart_append apart) member).2.1
      rw [samePartner] at isFree
      exact (List.nodup_cons.mp (List.nodup_middle.mp apart.of_map)).1 isFree

/-- Among the twins of a resource the first addition goes with the first removal, the second one
with the second one, and so on. -/
theorem partners_filter (apart : (free.map Prod.snd).Nodup)
    (areAdded : ∀ place ∈ added, place.1.kind = .added)
    (areRemoved : ∀ place ∈ free, place.1.kind = .removed) (resource : Resource) :
    (partners added free).filter (fun pair => pair.1.1.concerns .added resource) =
      (added.filter (fun place => place.1.concerns .added resource)).zip
        (free.filter (fun place => place.1.concerns .removed resource)) := by
  induction added generalizing free with
  | nil => rfl
  | cons first rest ih =>
    obtain ⟨firstAdded, restAdded⟩ := List.forall_mem_cons.mp areAdded
    rcases partners_cons_cases first rest free apart with
      ⟨alone, same⟩ | ⟨before, partner, after, rfl, passed, renamed, same⟩
    · rw [same, ih apart restAdded areRemoved]
      by_cases concerned : first.1.concerns .added resource = true
      · -- a removal of the class would be renamed to the first addition
        have noneFree : free.filter (fun place => place.1.concerns .removed resource) = [] := by
          apply List.filter_eq_nil_iff.mpr
          intro removed member ofRemoved
          have renamed := isRenamedTo_of_concerns ofRemoved concerned
          rw [alone removed member] at renamed
          cases renamed
        rw [noneFree, List.zip_nil_right, List.zip_nil_right]
      · simp only [List.filter_cons, concerned, Bool.false_eq_true, ↓reduceIte]
    · have partnerRemoved := areRemoved partner (by simp)
      have alike := concerns_of_isRenamedTo resource partnerRemoved firstAdded renamed
      have stillRemoved : ∀ place ∈ before ++ after, place.1.kind = .removed := by
        intro place member
        exact areRemoved place
          (((List.sublist_cons_self partner after).append_left before).subset member)
      have later := ih (apart_append apart) restAdded stillRemoved
      rw [same]
      by_cases concerned : first.1.concerns .added resource = true
      · have noneBefore :
            before.filter (fun place => place.1.concerns .removed resource) = [] := by
          apply List.filter_eq_nil_iff.mpr
          intro removed member ofRemoved
          have renamed := isRenamedTo_of_concerns ofRemoved concerned
          rw [passed removed member] at renamed
          cases renamed
        rw [List.filter_append, noneBefore, List.nil_append] at later
        rw [List.filter_append, noneBefore, List.nil_append]
        simp only [List.filter_cons, alike, concerned, ↓reduceIte, later, List.zip_cons_cons]
      · rw [List.filter_append] at later
        simp only [List.filter_append, List.filter_cons, alike, concerned, Bool.false_eq_true,
          ↓reduceIte, later]

/-! What is kept -/

/-- The places at which a twin of the resource is added, or removed. -/
def placesOf (changes : List ResourceChange) (kind : ChangeKind) (resource : Resource) :
    List Place :=
  changes.zipIdx.filter (fun place => place.1.concerns kind resource)

/-- Additions are paired with removals that are renamed to them, each of them once and twins in
order, and exactly the places outside all pairs are kept. -/
structure Pairing (changes : List ResourceChange) (pairs : List (Place × Place))
    (keep : Place → Bool) : Prop where
  added : ∀ pair ∈ pairs, pair.1 ∈ changes.zipIdx ∧ pair.1.1.kind = .added
  removed : ∀ pair ∈ pairs, pair.2 ∈ changes.zipIdx ∧ pair.2.1.kind = .removed
  renamed : ∀ pair ∈ pairs, pair.2.1.isRenamedTo pair.1.1 = true
  addedOnce : (pairs.map Prod.fst).Nodup
  removedOnce : (pairs.map Prod.snd).Nodup
  inOrder : ∀ resource, pairs.filter (fun pair => pair.1.1.concerns .added resource) =
    (placesOf changes .added resource).zip (placesOf changes .removed resource)
  keep_iff : ∀ place ∈ changes.zipIdx,
    keep place = true ↔ ∀ pair ∈ pairs, place ≠ pair.1 ∧ place ≠ pair.2

theorem nodup_positions (changes : List ResourceChange) :
    (changes.zipIdx.map Prod.snd).Nodup := by
  rw [List.zipIdx_map_snd]
  exact List.nodup_range'

theorem eq_of_position {changes : List ResourceChange} {place other : Place}
    (member : place ∈ changes.zipIdx) (member' : other ∈ changes.zipIdx)
    (same : place.2 = other.2) : place = other := by
  have found := List.mem_zipIdx_iff_getElem?.mp member
  have found' := List.mem_zipIdx_iff_getElem?.mp member'
  rw [← same, found] at found'
  exact Prod.ext (Option.some.inj found') same

theorem filter_kind (changes : List ResourceChange) (kind : ChangeKind) (resource : Resource) :
    (changes.zipIdx.filter (fun place => place.1.kind == kind)).filter
      (fun place => place.1.concerns kind resource) = placesOf changes kind resource := by
  rw [List.filter_filter, placesOf]
  apply List.filter_congr
  intro place _
  simpa [concerns] using fun same _ => same

theorem mem_filter_kind {changes : List ResourceChange} {kind : ChangeKind} {place : Place}
    (member : place ∈ changes.zipIdx.filter (fun place => place.1.kind == kind)) :
    place ∈ changes.zipIdx ∧ place.1.kind = kind := by
  simpa using List.mem_filter.mp member

/-- Dropping the renamed resources leaves the places outside all pairs. -/
theorem exists_pairing (changes : List ResourceChange) :
    ∃ pairs keep, Pairing changes pairs keep ∧
      withoutRenames changes = (changes.zipIdx.filter keep).map Prod.fst := by
  let added := changes.zipIdx.filter (fun place => place.1.kind == .added)
  let free := changes.zipIdx.filter (fun place => place.1.kind == .removed)
  have apart : (free.map Prod.snd).Nodup :=
    (nodup_positions changes).sublist (List.filter_sublist.map Prod.snd)
  have isAdded : ∀ pair ∈ partners added free, pair.1 ∈ changes.zipIdx ∧ pair.1.1.kind = .added :=
    fun pair member => mem_filter_kind (of_mem_partners apart member).1
  have isRemoved : ∀ pair ∈ partners added free,
      pair.2 ∈ changes.zipIdx ∧ pair.2.1.kind = .removed :=
    fun pair member => mem_filter_kind (of_mem_partners apart member).2.1
  refine ⟨partners added free, fun place => !(renamedPairs added free).contains place.2, ?_, rfl⟩
  exact {
    added := isAdded
    removed := isRemoved
    renamed := fun pair member => (of_mem_partners apart member).2.2
    addedOnce := ((nodup_positions changes).of_map.sublist List.filter_sublist).sublist
      (partners_fst_sublist apart)
    removedOnce := partners_snd_nodup apart
    inOrder := by
      intro resource
      rw [← filter_kind changes .added resource, ← filter_kind changes .removed resource]
      exact partners_filter apart (fun place member => (mem_filter_kind member).2)
        (fun place member => (mem_filter_kind member).2) resource
    keep_iff := by
      intro place member
      rw [renamedPairs_eq, Bool.not_eq_true', ← Bool.not_eq_true, List.contains_iff_mem,
        List.mem_flatMap]
      constructor
      · intro unpaired pair isPair
        refine ⟨fun same => unpaired ⟨pair, isPair, ?_⟩, fun same => unpaired ⟨pair, isPair, ?_⟩⟩
        · simp [same]
        · simp [same]
      · intro outside paired
        obtain ⟨pair, isPair, inPair⟩ := paired
        rcases List.mem_pair.mp inPair with same | same
        · exact (outside pair isPair).1 (eq_of_position member (isAdded pair isPair).1 same)
        · exact (outside pair isPair).2 (eq_of_position member (isRemoved pair isPair).1 same) }

theorem filter_eq_drop {α : Type} {items : List α} (distinct : items.Nodup) {keep : α → Bool}
    {count : Nat} (kept : ∀ item ∈ items, keep item = true ↔ item ∉ items.take count) :
    items.filter keep = items.drop count := by
  have noneTaken : (items.take count).filter keep = [] := by
    apply List.filter_eq_nil_iff.mpr
    intro item taken keeps
    exact (kept item (List.mem_of_mem_take taken)).mp keeps taken
  have allLeft : (items.drop count).filter keep = items.drop count := by
    apply List.filter_eq_self.mpr
    intro item left
    refine (kept item (List.mem_of_mem_drop left)).mpr ?_
    intro taken
    exact List.disjoint_take_drop distinct (Nat.le_refl count) taken left
  rw [← List.take_append_drop count items, List.filter_append, noneTaken, List.nil_append, allLeft,
    List.take_append_drop]

theorem nodup_placesOf (changes : List ResourceChange) (kind : ChangeKind) (resource : Resource) :
    (placesOf changes kind resource).Nodup :=
  (nodup_positions changes).of_map.sublist List.filter_sublist

theorem mem_placesOf {changes : List ResourceChange} {kind : ChangeKind} {resource : Resource}
    {place : Place} : place ∈ placesOf changes kind resource ↔
      place ∈ changes.zipIdx ∧ place.1.concerns kind resource = true :=
  List.mem_filter

theorem map_fst_zip_eq_take {α β : Type} (lefts : List α) (rights : List β) :
    (lefts.zip rights).map Prod.fst = lefts.take (min lefts.length rights.length) := by
  rw [List.zip_eq_zip_take_min, List.map_fst_zip]
  simp

theorem map_snd_zip_eq_take {α β : Type} (lefts : List α) (rights : List β) :
    (lefts.zip rights).map Prod.snd = rights.take (min lefts.length rights.length) := by
  rw [List.zip_eq_zip_take_min, List.map_snd_zip]
  simp

namespace Pairing

variable {changes : List ResourceChange} {pairs : List (Place × Place)} {keep : Place → Bool}
  (pairing : Pairing changes pairs keep)
include pairing

/-- An addition is kept if no removal is its partner. -/
theorem keep_added_iff {place : Place} (member : place ∈ changes.zipIdx)
    (isAdded : place.1.kind = .added) : keep place = true ↔ place ∉ pairs.map Prod.fst := by
  rw [pairing.keep_iff place member, List.mem_map]
  constructor
  · intro outside paired
    obtain ⟨pair, isPair, same⟩ := paired
    exact (outside pair isPair).1 same.symm
  · intro unpaired pair isPair
    refine ⟨fun same => unpaired ⟨pair, isPair, same.symm⟩, ?_⟩
    intro same
    rw [same] at isAdded
    cases isAdded.symm.trans (pairing.removed pair isPair).2

theorem keep_removed_iff {place : Place} (member : place ∈ changes.zipIdx)
    (isRemoved : place.1.kind = .removed) : keep place = true ↔ place ∉ pairs.map Prod.snd := by
  rw [pairing.keep_iff place member, List.mem_map]
  constructor
  · intro outside paired
    obtain ⟨pair, isPair, same⟩ := paired
    exact (outside pair isPair).2 same.symm
  · intro unpaired pair isPair
    refine ⟨?_, fun same => unpaired ⟨pair, isPair, same.symm⟩⟩
    intro same
    rw [same] at isRemoved
    cases isRemoved.symm.trans (pairing.added pair isPair).2

theorem keep_modified {place : Place} (member : place ∈ changes.zipIdx)
    (isModified : place.1.kind = .modified) : keep place = true := by
  rw [pairing.keep_iff place member]
  intro pair isPair
  constructor
  · intro same
    rw [same] at isModified
    cases isModified.symm.trans (pairing.added pair isPair).2
  · intro same
    rw [same] at isModified
    cases isModified.symm.trans (pairing.removed pair isPair).2

/-- Of the additions of twins the first ones are dropped, as many as there are removals for. -/
theorem filter_added (resource : Resource) :
    (placesOf changes .added resource).filter keep = (placesOf changes .added resource).drop
      (min (placesOf changes .added resource).length
        (placesOf changes .removed resource).length) := by
  apply filter_eq_drop (nodup_placesOf changes .added resource)
  intro place isPlace
  obtain ⟨member, concerned⟩ := mem_placesOf.mp isPlace
  rw [pairing.keep_added_iff member (concerns_iff.mp concerned).1, ← map_fst_zip_eq_take,
    ← pairing.inOrder, not_iff_not]
  simp only [List.mem_map, List.mem_filter]
  constructor
  · intro paired
    obtain ⟨pair, isPair, rfl⟩ := paired
    exact ⟨pair, ⟨isPair, concerned⟩, rfl⟩
  · intro paired
    obtain ⟨pair, ⟨isPair, _⟩, same⟩ := paired
    exact ⟨pair, isPair, same⟩

theorem filter_removed (resource : Resource) :
    (placesOf changes .removed resource).filter keep = (placesOf changes .removed resource).drop
      (min (placesOf changes .added resource).length
        (placesOf changes .removed resource).length) := by
  apply filter_eq_drop (nodup_placesOf changes .removed resource)
  intro place isPlace
  obtain ⟨member, concerned⟩ := mem_placesOf.mp isPlace
  rw [pairing.keep_removed_iff member (concerns_iff.mp concerned).1, ← map_snd_zip_eq_take,
    ← pairing.inOrder, not_iff_not]
  simp only [List.mem_map, List.mem_filter]
  constructor
  · intro paired
    obtain ⟨pair, isPair, rfl⟩ := paired
    have alike := concerns_of_isRenamedTo resource (pairing.removed pair isPair).2
      (pairing.added pair isPair).2 (pairing.renamed pair isPair)
    exact ⟨pair, ⟨isPair, alike.symm.trans concerned⟩, rfl⟩
  · intro paired
    obtain ⟨pair, ⟨isPair, _⟩, same⟩ := paired
    exact ⟨pair, isPair, same⟩

/-- No two places that are kept could be paired as well. -/
theorem not_renamed {added removed : Place} (inChanges : added ∈ changes.zipIdx)
    (inChanges' : removed ∈ changes.zipIdx) (keepsAdded : keep added = true)
    (keepsRemoved : keep removed = true) (isAdded : added.1.kind = .added)
    (isRemoved : removed.1.kind = .removed) : removed.1.isRenamedTo added.1 = false := by
  by_contra renamed
  have renamed := Bool.not_eq_false _ ▸ renamed
  obtain ⟨old, new, _, newFound, _⟩ := (isRenamedTo_iff isRemoved isAdded).mp renamed
  have ofAdded : added.1.concerns .added new = true :=
    concerns_iff.mpr ⟨isAdded, new, newFound, new.isTwinOf_refl⟩
  have ofRemoved : removed.1.concerns .removed new = true :=
    (concerns_of_isRenamedTo new isRemoved isAdded renamed).trans ofAdded
  have addedLeft := List.mem_filter.mpr ⟨mem_placesOf.mpr ⟨inChanges, ofAdded⟩, keepsAdded⟩
  have removedLeft := List.mem_filter.mpr ⟨mem_placesOf.mpr ⟨inChanges', ofRemoved⟩, keepsRemoved⟩
  rw [pairing.filter_added new] at addedLeft
  rw [pairing.filter_removed new] at removedLeft
  -- one of the two kinds has run out
  have fewerRemoved := List.length_pos_of_mem addedLeft
  have fewerAdded := List.length_pos_of_mem removedLeft
  rw [List.length_drop] at fewerRemoved fewerAdded
  omega

end Pairing

/-- Dropping the renamed resources keeps the order of the changes and every modification. Of the
additions and removals of twins it drops the first ones, of each kind as many as there are of the
rarer kind, in pairs of twins in which no change occurs twice; and no further pair is left. -/
theorem withoutRenames_pairs (changes : List ResourceChange) :
    ∃ pairs keep, Pairing changes pairs keep ∧
      withoutRenames changes = (changes.zipIdx.filter keep).map Prod.fst ∧
      (withoutRenames changes).Sublist changes ∧
      (∀ place ∈ changes.zipIdx, place.1.kind = .modified → keep place = true) ∧
      (∀ resource,
        let added := placesOf changes .added resource
        let removed := placesOf changes .removed resource
        let dropped := min added.length removed.length
        added.filter keep = added.drop dropped ∧ removed.filter keep = removed.drop dropped) ∧
      ∀ added ∈ withoutRenames changes, ∀ removed ∈ withoutRenames changes,
        added.kind = .added → removed.kind = .removed → removed.isRenamedTo added = false := by
  obtain ⟨pairs, keep, pairing, kept⟩ := exists_pairing changes
  refine ⟨pairs, keep, pairing, kept, ?_, fun place => pairing.keep_modified,
    fun resource => ⟨pairing.filter_added resource, pairing.filter_removed resource⟩, ?_⟩
  · rw [kept]
    have unplaced : changes.zipIdx.map Prod.fst = changes := List.zipIdx_map_fst 0 changes
    conv_rhs => rw [← unplaced]
    exact List.filter_sublist.map Prod.fst
  · intro added inKept removed inKept' isAdded isRemoved
    rw [kept] at inKept inKept'
    obtain ⟨place, member, rfl⟩ := List.mem_map.mp inKept
    obtain ⟨other, member', rfl⟩ := List.mem_map.mp inKept'
    obtain ⟨inChanges, keepsAdded⟩ := List.mem_filter.mp member
    obtain ⟨inChanges', keepsRemoved⟩ := List.mem_filter.mp member'
    exact pairing.not_renamed inChanges inChanges' keepsAdded keepsRemoved isAdded isRemoved

example :
    let topic : Resource := { type := "AWS::SNS::Topic" }
    withoutRenames [.added "First" topic, .removed "Gone" topic, .added "Second" topic] =
      [.added "Second" topic] := rfl

end ResourceChange

end StackSwap
