/-! Association lists in ascending order of their keys. They are lists, and not trees, so that they
may be nested in an inductive type; `Table` adds the proof that the keys ascend strictly. -/

namespace StackSwap

universe u v

abbrev Entries (α : Type u) := List (String × α)

namespace Entries

variable {α : Type u} {β : Type v}

/-- The keys ascend strictly, so none occurs twice. -/
def Sorted (entries : Entries α) : Prop :=
  entries.Pairwise (fun earlier later => earlier.1 < later.1)

/-- The value of the first entry with this key. -/
def find? : Entries α → String → Option α
  | [], _ => none
  | (name, value) :: rest, key => if name = key then some value else find? rest key

def contains (entries : Entries α) (key : String) : Bool :=
  (entries.find? key).isSome

/-- Puts an entry at its place in the order; an entry with the same key is replaced. -/
def insert (key : String) (value : α) : Entries α → Entries α
  | [] => [(key, value)]
  | (name, old) :: rest =>
    if key < name then (key, value) :: (name, old) :: rest
    else if key = name then (key, value) :: rest
    else (name, old) :: insert key value rest

/-- The pairs in key order; of several pairs with one key the last stays. -/
def ofList (pairs : List (String × α)) : Entries α :=
  pairs.foldl (fun entries pair => entries.insert pair.1 pair.2) []

def erase (entries : Entries α) (key : String) : Entries α :=
  entries.filter (fun entry => entry.1 ≠ key)

def keys (entries : Entries α) : List String :=
  entries.map Prod.fst

def values (entries : Entries α) : List α :=
  entries.map Prod.snd

def mapValues (f : α → β) (entries : Entries α) : Entries β :=
  entries.map (fun entry => (entry.1, f entry.2))

theorem sorted_nil : Sorted ([] : Entries α) := List.Pairwise.nil

theorem find?_insert_self (key : String) (value : α) (entries : Entries α) :
    (entries.insert key value).find? key = some value := by
  induction entries with
  | nil => simp [insert, find?]
  | cons entry rest ih =>
    obtain ⟨name, old⟩ := entry
    simp only [insert]
    split
    · simp [find?]
    · split
      · simp [find?]
      · rename_i different
        simp [find?, Ne.symm different, ih]

theorem find?_insert_ne {key other : String} (different : key ≠ other) (value : α)
    (entries : Entries α) : (entries.insert key value).find? other = entries.find? other := by
  induction entries with
  | nil => simp [insert, find?, different]
  | cons entry rest ih =>
    obtain ⟨name, old⟩ := entry
    simp only [insert]
    split
    · simp [find?, different]
    · split
      · rename_i same
        subst same
        simp [find?, different]
      · by_cases here : name = other <;> simp [find?, here, ih]

theorem mem_insert {key : String} {value : α} {entries : Entries α} {entry : String × α}
    (member : entry ∈ entries.insert key value) : entry = (key, value) ∨ entry ∈ entries := by
  induction entries with
  | nil => simpa [insert] using member
  | cons head rest ih =>
    obtain ⟨name, old⟩ := head
    simp only [insert] at member
    split at member
    · simpa using member
    · split at member
      · rcases List.mem_cons.mp member with same | later
        · exact .inl same
        · exact .inr (List.mem_cons_of_mem _ later)
      · rcases List.mem_cons.mp member with same | later
        · exact .inr (by simp [same])
        · rcases ih later with same | old
          · exact .inl same
          · exact .inr (List.mem_cons_of_mem _ old)

theorem Sorted.insert {entries : Entries α} (sorted : Sorted entries) (key : String) (value : α) :
    Sorted (entries.insert key value) := by
  induction entries with
  | nil => simp [Sorted, Entries.insert]
  | cons head rest ih =>
    obtain ⟨name, old⟩ := head
    obtain ⟨below, ascending⟩ := List.pairwise_cons.mp sorted
    simp only [Entries.insert]
    split
    · rename_i before
      refine List.pairwise_cons.mpr ⟨?_, sorted⟩
      intro entry member
      rcases List.mem_cons.mp member with same | later
      · simpa [same] using before
      · exact String.lt_trans before (below entry later)
    · split
      · rename_i same
        subst same
        exact List.pairwise_cons.mpr ⟨below, ascending⟩
      · rename_i notBefore different
        refine List.pairwise_cons.mpr ⟨?_, ih ascending⟩
        intro entry member
        rcases mem_insert member with same | later
        · subst same
          exact Std.lt_of_le_of_ne (String.not_lt.mp notBefore) (Ne.symm different)
        · exact below entry later

theorem sorted_ofList (pairs : List (String × α)) : Sorted (ofList pairs) := by
  suffices grows : ∀ entries : Entries α, Sorted entries →
      Sorted (pairs.foldl (fun entries pair => entries.insert pair.1 pair.2) entries) from
    grows [] sorted_nil
  induction pairs with
  | nil => exact fun _ sorted => sorted
  | cons pair rest ih => exact fun _ sorted => ih _ (sorted.insert pair.1 pair.2)

theorem Sorted.filter {entries : Entries α} (sorted : Sorted entries)
    (keep : String × α → Bool) : Sorted (entries.filter keep) :=
  List.Pairwise.sublist List.filter_sublist sorted

theorem Sorted.mapValues {entries : Entries α} (sorted : Sorted entries) (f : α → β) :
    Sorted (entries.mapValues f) :=
  List.pairwise_map.mpr sorted

end Entries

/-- Entries with strictly ascending keys. -/
structure Table (α : Type u) where
  entries : Entries α
  sorted : Entries.Sorted entries

namespace Table

variable {α : Type u} {β : Type v}

def empty : Table α := ⟨[], Entries.sorted_nil⟩

instance : Inhabited (Table α) := ⟨empty⟩

instance [BEq α] : BEq (Table α) := ⟨fun left right => left.entries == right.entries⟩

/-- The pairs in key order; of several pairs with one key the last stays. -/
def ofList (pairs : List (String × α)) : Table α :=
  ⟨Entries.ofList pairs, Entries.sorted_ofList pairs⟩

def find? (table : Table α) (key : String) : Option α := table.entries.find? key

def insert (table : Table α) (key : String) (value : α) : Table α :=
  ⟨table.entries.insert key value, table.sorted.insert key value⟩

def erase (table : Table α) (key : String) : Table α :=
  ⟨table.entries.erase key, table.sorted.filter _⟩

def map (f : α → β) (table : Table α) : Table β :=
  ⟨table.entries.mapValues f, table.sorted.mapValues f⟩

/-- Sets every entry of `above`, which replaces entries with the same keys. -/
def overlay (table above : Table α) : Table α :=
  above.entries.foldl (fun result entry => result.insert entry.1 entry.2) table

def keys (table : Table α) : List String := table.entries.keys

def values (table : Table α) : List α := table.entries.values

def size (table : Table α) : Nat := table.entries.length

def isEmpty (table : Table α) : Bool := table.entries.isEmpty

@[simp] theorem find?_empty (key : String) : (empty : Table α).find? key = none := rfl

@[simp] theorem find?_insert_self (table : Table α) (key : String) (value : α) :
    (table.insert key value).find? key = some value :=
  Entries.find?_insert_self key value table.entries

theorem find?_insert_ne (table : Table α) {key other : String} (different : key ≠ other)
    (value : α) : (table.insert key value).find? other = table.find? other :=
  Entries.find?_insert_ne different value table.entries

end Table

/-- The keys of two tables together, in order and each once. -/
def Table.keysOfBoth {α : Type u} {β : Type v} (left : Table α) (right : Table β) : List String :=
  (Table.ofList ((left.keys ++ right.keys).map (fun key => (key, ())))).keys

end StackSwap
