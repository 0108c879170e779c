import StackSwap.Json
import StackSwap.Number.Double
import StackSwap.Text.Lowercase

namespace StackSwap

inductive SettingValue where
  | null
  | bool (value : Bool)
  | integer (value : Int)
  | float (value : Double)
  | text (value : String)
  | list (items : List SettingValue)
  | table (entries : List (String × SettingValue))
deriving Repr, Inhabited

namespace SettingValue

/-- An integer; one from the limit on becomes the nearest float. -/
def ofInteger (limit : Nat) (value : Int) : SettingValue :=
  if value < limit then .integer value
  else .float (Double.ofDecimal false value.toNat 0)

mutual

/-- A JSON value as a setting, with a limit for integers. -/
def ofJson (limit : Nat) : Json → SettingValue
  | .null => .null
  | .bool value => .bool value
  | .num (.int value) => ofInteger limit value
  | .num (.float value) => .float (.finite value)
  | .str value => .text value
  | .arr items => .list (listOfJson limit items)
  | .obj fields => .table (tableOfJson limit fields)
termination_by structural value => value

def listOfJson (limit : Nat) : List Json → List SettingValue
  | [] => []
  | item :: rest => ofJson limit item :: listOfJson limit rest
termination_by structural items => items

def tableOfJson (limit : Nat) : List (String × Json) → List (String × SettingValue)
  | [] => []
  | (key, value) :: rest => (key, ofJson limit value) :: tableOfJson limit rest
termination_by structural fields => fields

end

mutual

/-- A setting as a JSON value. What is not finite becomes null. -/
def toJson : SettingValue → Json
  | .null => .null
  | .bool value => .bool value
  | .integer value => .num (.int value)
  | .float (.finite value) => .num (.float value)
  | .float _ => .null
  | .text value => .str value
  | .list items => .arr (listToJson items)
  | .table entries => .ofPairs (tableToJson entries)
termination_by structural value => value

def listToJson : List SettingValue → List Json
  | [] => []
  | item :: rest => toJson item :: listToJson rest
termination_by structural items => items

def tableToJson : List (String × SettingValue) → List (String × Json)
  | [] => []
  | (key, value) :: rest => (key, toJson value) :: tableToJson rest
termination_by structural entries => entries

end

/-- The entries of a table; every other value has none. -/
def entries : Option SettingValue → List (String × SettingValue)
  | some (.table entries) => entries
  | _ => []

/-- The items of a list; every other value has none. -/
def items : Option SettingValue → List SettingValue
  | some (.list items) => items
  | _ => []

/-- A key in lower case, as all keys are kept. -/
def lowerKey (key : String) : String := String.ofList (key.toList.flatMap Text.lowercase)

mutual

/-- Merges a value over what is there: tables are merged key by key, every other value replaces. An
empty table takes nothing away. -/
def mergeOver (existing : Option SettingValue) : SettingValue → SettingValue
  | .table [] => existing.getD (.table [])
  | .table incoming => .table (mergeEntries (entries existing) incoming)
  | value => value
termination_by structural value => value

def mergeEntries (existing : List (String × SettingValue)) :
    List (String × SettingValue) → List (String × SettingValue)
  | [] => existing
  | (key, value) :: rest =>
    let key := lowerKey key
    mergeEntries (Entries.insert key (mergeOver (Entries.find? existing key) value) existing) rest
termination_by structural incoming => incoming

end

mutual

/-- The values that are no tables, and the empty tables, with the keys that lead to them. -/
def leaves : SettingValue → List (List String × SettingValue)
  | .table [] => [([], .table [])]
  | .table entries => leavesOfEntries entries
  | value => [([], value)]
termination_by structural value => value

def leavesOfEntries : List (String × SettingValue) → List (List String × SettingValue)
  | [] => []
  | (key, value) :: rest =>
    (leaves value).map (fun (keys, leaf) => (key :: keys, leaf)) ++ leavesOfEntries rest
termination_by structural entries => entries

end

end SettingValue

end StackSwap
