import StackSwap.Json
import StackSwap.Proofs.Entries

namespace StackSwap

universe u

/-- Entries with equal keys and related values stand at the same places exactly if all lookups are
related. -/
theorem Entries.forall₂_iff_find? {α : Type u} {R : α → α → Prop} {left right : Entries α}
    (leftSorted : Sorted left) (rightSorted : Sorted right) :
    List.Forall₂ (fun first second => first.1 = second.1 ∧ R first.2 second.2) left right ↔
      ∀ key, Option.Rel R (left.find? key) (right.find? key) := by
  constructor
  · intro pairs key
    induction pairs with
    | nil => exact .none
    | @cons first second lefts rights related pairs ih =>
      have later := ih (List.pairwise_cons.mp leftSorted).2 (List.pairwise_cons.mp rightSorted).2
      obtain ⟨name, value⟩ := first
      obtain ⟨_, other⟩ := second
      obtain ⟨rfl, related⟩ := related
      by_cases here : name = key
      · simpa [find?, here] using related
      · simpa [find?, here] using later
  · intro related
    induction left generalizing right with
    | nil =>
      cases right with
      | nil => exact .nil
      | cons second rights => simpa [find?] using related second.1
    | cons first lefts ih =>
      obtain ⟨name, value⟩ := first
      cases right with
      | nil => simpa [find?] using related name
      | cons second rights =>
        obtain ⟨other, found⟩ := second
        obtain ⟨leftBelow, leftRest⟩ := List.pairwise_cons.mp leftSorted
        obtain ⟨rightBelow, rightRest⟩ := List.pairwise_cons.mp rightSorted
        have leftFresh : find? lefts name = none :=
          find?_eq_none_iff.mpr
            (fun entry member => (String.ne_of_lt (leftBelow entry member)).symm)
        have rightFresh : find? rights other = none :=
          find?_eq_none_iff.mpr
            (fun entry member => (String.ne_of_lt (rightBelow entry member)).symm)
        have same : name = other := by
          by_contra different
          have inRights := related name
          have inLefts := related other
          simp only [find?, ↓reduceIte, different, Ne.symm different] at inRights inLefts
          cases foundRight : find? rights name with
          | none => rw [foundRight] at inRights; cases inRights
          | some _ =>
            cases foundLeft : find? lefts other with
            | none => rw [foundLeft] at inLefts; cases inLefts
            | some _ =>
              have below := leftBelow _ (mem_of_find? foundLeft)
              have above := rightBelow _ (mem_of_find? foundRight)
              exact String.lt_irrefl _ (String.lt_trans below above)
        subst same
        have head := related name
        simp only [find?, ↓reduceIte] at head
        cases head with
        | some head =>
          refine .cons ⟨rfl, head⟩ (ih leftRest rightRest ?_)
          intro key
          by_cases here : name = key
          · subst here
            rw [leftFresh, rightFresh]
            exact .none
          · simpa [find?, here] using related key

theorem Entries.forall₂_of_beq {α : Type} [BEq α] {left right : Entries α}
    (same : (left == right) = true) :
    List.Forall₂ (fun first second => first.1 = second.1 ∧ (first.2 == second.2) = true)
      left right := by
  induction left generalizing right with
  | nil =>
    cases right with
    | nil => exact .nil
    | cons _ _ => cases same
  | cons first lefts ih =>
    cases right with
    | nil => cases same
    | cons second rights =>
      obtain ⟨here, later⟩ := Bool.and_eq_true_iff.mp same
      obtain ⟨sameKey, sameValue⟩ := Bool.and_eq_true_iff.mp here
      exact .cons ⟨beq_iff_eq.mp sameKey, sameValue⟩ (ih later)

theorem Entries.beq_of_forall₂ {α : Type} [BEq α] {left right : Entries α}
    (related : List.Forall₂ (fun first second => first.1 = second.1 ∧ (first.2 == second.2) = true)
      left right) : (left == right) = true := by
  induction related with
  | nil => rfl
  | @cons first second lefts rights here _ ih =>
    have same : (first == second) = true :=
      Bool.and_eq_true_iff.mpr ⟨beq_iff_eq.mpr here.1, here.2⟩
    rw [List.cons_beq_cons, same, ih, Bool.and_self]

theorem optional_beq_iff {α : Type} [BEq α] {left right : Option α} :
    (left == right) = true ↔
      Option.Rel (fun first second => (first == second) = true) left right := by
  cases left <;> cases right <;> simp

theorem Table.beq_iff {α : Type} [BEq α] {left right : Table α} :
    (left == right) = true ↔ ∀ key,
      Option.Rel (fun first second => (first == second) = true) (left.find? key)
        (right.find? key) := by
  constructor
  · intro same
    exact (Entries.forall₂_iff_find? left.sorted right.sorted).mp (Entries.forall₂_of_beq same)
  · intro alike
    exact Entries.beq_of_forall₂
      ((Entries.forall₂_iff_find? left.sorted right.sorted).mpr alike)

theorem Table.find?_of_beq {α : Type} [BEq α] {left right : Table α}
    (same : (left == right) = true) (key : String) :
    Option.Rel (fun first second => (first == second) = true) (left.find? key) (right.find? key) :=
  Table.beq_iff.mp same key

namespace Json

/-- Induction over a value, with the statement for all items of an array and all fields of an
object. -/
@[elab_as_elim]
theorem induction {P : Json → Prop} (null : P .null) (bool : ∀ value, P (.bool value))
    (num : ∀ value, P (.num value)) (str : ∀ value, P (.str value))
    (arr : ∀ items, (∀ item ∈ items, P item) → P (.arr items))
    (obj : ∀ fields : List (String × Json), (∀ field ∈ fields, P field.2) → P (.obj fields))
    (value : Json) : P value := by
  refine @Json.rec P (fun items => ∀ item ∈ items, P item)
    (fun fields => ∀ field ∈ fields, P field.2) (fun field => P field.2)
    null bool num str arr obj ?_ ?_ ?_ ?_ ?_ value
  · exact fun _ member => absurd member List.not_mem_nil
  · intro head tail first rest item member
    rcases List.mem_cons.mp member with rfl | later
    · exact first
    · exact rest item later
  · exact fun _ member => absurd member List.not_mem_nil
  · intro head tail first rest field member
    rcases List.mem_cons.mp member with rfl | later
    · exact first
    · exact rest field later
  · exact fun _ _ holds => holds

theorem wellFormedItems_iff {items : List Json} :
    WellFormedItems items ↔ ∀ item ∈ items, item.WellFormed := by
  induction items with
  | nil => simp [WellFormedItems]
  | cons item rest ih => simp [WellFormedItems, ih]

theorem wellFormedFields_iff {fields : List (String × Json)} :
    WellFormedFields fields ↔ ∀ field ∈ fields, field.2.WellFormed := by
  induction fields with
  | nil => simp [WellFormedFields]
  | cons field rest ih => simp [WellFormedFields, ih]

theorem wellFormed_arr {items : List Json} :
    (Json.arr items).WellFormed ↔ ∀ item ∈ items, item.WellFormed := by
  rw [WellFormed, wellFormedItems_iff]

theorem wellFormed_obj {fields : List (String × Json)} :
    (Json.obj fields).WellFormed ↔
      Entries.Sorted fields ∧ ∀ field ∈ fields, field.2.WellFormed := by
  rw [WellFormed, wellFormedFields_iff]

mutual

/-- Whether a given value is well formed can be computed. -/
instance decidableWellFormed : (value : Json) → Decidable value.WellFormed
  | .arr items => decidableWellFormedItems items
  | .obj fields =>
    have := decidableWellFormedFields fields
    inferInstanceAs (Decidable (List.Pairwise _ fields ∧ WellFormedFields fields))
  | .null | .bool _ | .num _ | .str _ => isTrue trivial
termination_by structural value => value

instance decidableWellFormedItems : (items : List Json) → Decidable (WellFormedItems items)
  | [] => isTrue trivial
  | item :: rest =>
    have := decidableWellFormed item
    have := decidableWellFormedItems rest
    inferInstanceAs (Decidable (item.WellFormed ∧ WellFormedItems rest))
termination_by structural items => items

instance decidableWellFormedFields : (fields : List (String × Json)) →
    Decidable (WellFormedFields fields)
  | [] => isTrue trivial
  | (_, value) :: rest =>
    have := decidableWellFormed value
    have := decidableWellFormedFields rest
    inferInstanceAs (Decidable (value.WellFormed ∧ WellFormedFields rest))
termination_by structural fields => fields

end

theorem sameItems_iff {left right : List Json} :
    sameItems left right = true ↔
      List.Forall₂ (fun first second => first.same second) left right := by
  induction left generalizing right with
  | nil => cases right <;> simp [sameItems]
  | cons first lefts ih => cases right <;> simp [sameItems, ih]

theorem sameFields_iff {left right : List (String × Json)} :
    sameFields left right = true ↔
      List.Forall₂ (fun first second => first.1 = second.1 ∧ first.2.same second.2) left right := by
  induction left generalizing right with
  | nil => cases right <;> simp [sameFields]
  | cons first lefts ih => cases right <;> simp [sameFields, ih]

@[simp] theorem same_obj {left right : List (String × Json)} :
    same (.obj left) (.obj right) = sameFields left right := rfl

@[simp] theorem same_arr {left right : List Json} :
    same (.arr left) (.arr right) = sameItems left right := rfl

theorem Number.same_refl (number : Number) : number.same number = true := by
  cases number <;> simp [Number.same, Binary64.same]

theorem same_refl (value : Json) : value.same value = true := by
  induction value using induction with
  | null => rfl
  | bool value => simp [same]
  | num value => exact Number.same_refl value
  | str value => simp [same]
  | arr items ih => exact sameItems_iff.mpr (List.forall₂_same.mpr ih)
  | obj fields ih =>
    exact sameFields_iff.mpr (List.forall₂_same.mpr (fun field member => ⟨rfl, ih field member⟩))

/-- Two lists that are related to a third one, item by item, are related to each other if their
items are. -/
theorem forall₂_of_common {α β γ : Type} {R : α → β → Prop} {S : α → γ → Prop} {T : β → γ → Prop}
    {common : List α} {left : List β} {right : List γ}
    (related : ∀ item ∈ common, ∀ first second, R item first → S item second → T first second)
    (toLeft : List.Forall₂ R common left) (toRight : List.Forall₂ S common right) :
    List.Forall₂ T left right := by
  induction toLeft generalizing right with
  | nil =>
    cases toRight
    exact .nil
  | cons here _ ih =>
    cases toRight with
    | cons here' later' =>
      exact .cons (related _ (List.mem_cons_self ..) _ _ here here')
        (ih (fun item member => related item (List.mem_cons_of_mem _ member)) later')

theorem Binary64.same_of_same {common left right : Binary64} (toLeft : common.same left = true)
    (toRight : common.same right = true) : left.same right = true := by
  simp only [Binary64.same, Bool.or_eq_true, beq_iff_eq, Bool.and_eq_true] at *
  rcases toLeft with rfl | ⟨zero, leftZero⟩
  · exact toRight
  · rcases toRight with rfl | ⟨_, rightZero⟩
    · exact .inr ⟨leftZero, zero⟩
    · exact .inr ⟨leftZero, rightZero⟩

theorem Number.same_of_same {common left right : Number} (toLeft : common.same left = true)
    (toRight : common.same right = true) : left.same right = true := by
  cases common with
  | int value =>
    cases left with
    | int other =>
      obtain rfl : value = other := by simpa [Number.same] using toLeft
      exact toRight
    | float => cases toLeft
  | float value =>
    cases left with
    | int => cases toLeft
    | float first =>
      cases right with
      | int => cases toRight
      | float second => exact Binary64.same_of_same toLeft toRight

theorem same_of_same {common left right : Json} (toLeft : common.same left = true)
    (toRight : common.same right = true) : left.same right = true := by
  induction common using induction generalizing left right with
  | null =>
    cases left <;> cases toLeft
    exact toRight
  | bool value =>
    cases left with
    | bool other =>
      obtain rfl : value = other := by simpa [same] using toLeft
      exact toRight
    | _ => cases toLeft
  | num value =>
    cases left with
    | num first =>
      cases right with
      | num second => exact Number.same_of_same toLeft toRight
      | _ => cases toRight
    | _ => cases toLeft
  | str value =>
    cases left with
    | str other =>
      obtain rfl : value = other := by simpa [same] using toLeft
      exact toRight
    | _ => cases toLeft
  | arr items ih =>
    cases left with
    | arr firsts =>
      cases right with
      | arr seconds =>
        exact sameItems_iff.mpr (forall₂_of_common
          (fun item member _ _ here there => ih item member here there)
          (sameItems_iff.mp toLeft) (sameItems_iff.mp toRight))
      | _ => cases toRight
    | _ => cases toLeft
  | obj fields ih =>
    cases left with
    | obj firsts =>
      cases right with
      | obj seconds =>
        refine sameFields_iff.mpr (forall₂_of_common ?_
          (sameFields_iff.mp toLeft) (sameFields_iff.mp toRight))
        rintro field member first second ⟨sameKey, here⟩ ⟨sameKey', there⟩
        exact ⟨sameKey.symm.trans sameKey', ih field member here there⟩
      | _ => cases toRight
    | _ => cases toLeft

theorem beq_eq_same (left right : Json) : (left == right) = left.same right := rfl

theorem beq_fields (left right : List (String × Json)) :
    (left == right) = sameFields left right := by
  induction left generalizing right with
  | nil => cases right <;> rfl
  | cons first lefts ih =>
    cases right with
    | nil => rfl
    | cons second rights =>
      rw [List.cons_beq_cons, ih]
      rfl

/-- Two values, either of which may be missing, are the same if both are missing or both are there
and the same. -/
theorem beq_optional_iff {left right : Option Json} :
    (left == right) = true ↔
      Option.Rel (fun first second => first.same second = true) left right :=
  optional_beq_iff

end Json

instance : ReflBEq Json := ⟨Json.same_refl _⟩

instance {α : Type} [BEq α] [ReflBEq α] : ReflBEq (Table α) :=
  ⟨fun {table} => beq_self_eq_true table.entries⟩

end StackSwap
