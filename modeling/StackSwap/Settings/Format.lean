import StackSwap.Json.Document
import StackSwap.Settings.Node
import StackSwap.Settings.Value
import StackSwap.Toml.Document
import StackSwap.Yaml12.Document

namespace StackSwap

inductive SettingFormat where
  | json
  | toml
  | yaml
deriving DecidableEq, Repr, Inhabited

/-- One more than the largest signed 64-bit integer. -/
def SettingValue.integerLimit : Nat := Nat.pow 2 63

namespace SettingValue

mutual

def ofToml : Toml.Value → SettingValue
  | .text content => .text content
  | .integer value => .integer value
  | .float value => .float value
  | .bool value => .bool value
  | .moment content => .text content
  | .array items => .list (listOfToml items)
  | .table _ entries => .table (tableOfToml entries)
  | .tables all => .list (tablesOfToml all)
termination_by structural value => value

def listOfToml : List Toml.Value → List SettingValue
  | [] => []
  | item :: rest => ofToml item :: listOfToml rest
termination_by structural items => items

def tableOfToml : List (String × Toml.Value) → List (String × SettingValue)
  | [] => []
  | (key, value) :: rest => (key, ofToml value) :: tableOfToml rest
termination_by structural entries => entries

def tablesOfToml : List (List (String × Toml.Value)) → List SettingValue
  | [] => []
  | entries :: rest => .table (tableOfToml entries) :: tablesOfToml rest
termination_by structural tables => tables

end

/-- The entries of a value that has to be a table. -/
def tableEntries? : SettingValue → Option (List (String × SettingValue))
  | .table entries => some entries
  | _ => none

end SettingValue

namespace SettingFormat

/-- The format that belongs to an extension of file names. -/
def ofExtension? : String → Option SettingFormat
  | "yaml" | "yml" => some .yaml
  | "toml" => some .toml
  | "json" => some .json
  | _ => none

def read? (format : SettingFormat) (text : String) : Option (List (String × SettingValue)) :=
  match format with
  | .json => do
    let value ← Json.parse text
    (SettingValue.ofJson SettingValue.integerLimit value).tableEntries?
  | .toml => (Toml.parse? text).map SettingValue.tableOfToml
  | .yaml => do
    match ← Yaml12.document? text with
    | none => return []
    | some node => (← SettingValue.ofNode? node).tableEntries?

end SettingFormat

end StackSwap
