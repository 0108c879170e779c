import StackSwap.Settings
import StackSwap.Settings.Value

/-! Settings from merged values, which seldom have the exact type: numbers and booleans pass for
strings, and booleans, floats and strings for counts. -/

namespace StackSwap

namespace SettingValue

/-- The text of a float without an exponent. -/
def textOfFloat : Double → String
  | .finite value => value.plainText
  | .infinite negative => if negative then "-inf" else "inf"
  | .undefined => "NaN"

def toText? : SettingValue → Option String
  | .text value => some value
  | .bool value => some (if value then "true" else "false")
  | .integer value => some (toString value)
  | .float value => some (textOfFloat value)
  | _ => none

def maxCount : Nat := Nat.pow 2 64 - 1

/-- A float as a count: the nearest integer in range, a half away from zero. -/
def countOfFloat : Double → Nat
  | .finite value =>
    let (numerator, denominator) := value.toRatio
    if value.negative then 0 else min maxCount (Binary64.roundHalfUp numerator denominator)
  | .infinite negative => if negative then 0 else maxCount
  | .undefined => 0

/-- A text as a count: digits, or a word for one or for zero in letters of either case. -/
def countOfText? (content : String) : Option Nat :=
  let word := lowerKey content
  if ["true", "on", "yes"].contains word then some 1
  else if ["false", "off", "no"].contains word then some 0
  else Text.unsigned? content

def toCount? : SettingValue → Option Nat
  | .bool value => some (if value then 1 else 0)
  | .integer value => if 0 ≤ value then some value.toNat else none
  | .float value => some (countOfFloat value)
  | .text value => countOfText? value
  | _ => none

/-- Looks up a field of a structure that is given as a table or as the list of its fields. -/
def structure? (names : List String) : SettingValue → Option (String → Option SettingValue)
  | .table entries => some (Entries.find? entries)
  | .list items =>
    some (fun name => ((names.zip items).find? (fun field => field.1 == name)).map Prod.snd)
  | _ => none

/-- A field that has a default when it is missing. -/
def fieldOr? {α : Type} (decode : SettingValue → Option α) (default : α) :
    Option SettingValue → Option α
  | none => some default
  | some value => decode value

end SettingValue

namespace Mode

/-- The mode with a name in letters of either case. -/
def ofAnyCase? (name : String) : Option Mode := ofName? (SettingValue.lowerKey name)

/-- Decodes a mode: its name, or a table with its name as the only key. -/
def ofSetting? : SettingValue → Option Mode
  | .text name => ofAnyCase? name
  | .table [(name, _)] => ofAnyCase? name
  | _ => none

end Mode

namespace TargetSettings

/-- Decodes a target. Null leaves the URL suffix to the partition. -/
def ofSetting? (value : SettingValue) : Option TargetSettings := do
  let field ← value.structure? ["account", "region", "partition", "url_suffix"]
  let default : TargetSettings := {}
  let text (name standard : String) : Option String :=
    SettingValue.fieldOr? SettingValue.toText? standard (field name)
  return {
    account := ← text "account" default.account
    region := ← text "region" default.region
    partition := ← text "partition" default.partition
    urlSuffix := ← match field "url_suffix" with
      | none | some .null => some none
      | some value => value.toText?.map some }

end TargetSettings

namespace WaiterSettings

/-- Decodes a schedule, of which no field has a default. -/
def ofSetting? (value : SettingValue) : Option WaiterSettings := do
  let field ← value.structure? ["min_delay_secs", "max_delay_secs", "max_wait_secs"]
  return {
    minDelay := ← (field "min_delay_secs").bind SettingValue.toCount?
    maxDelay := ← (field "max_delay_secs").bind SettingValue.toCount?
    maxWait := ← (field "max_wait_secs").bind SettingValue.toCount? }

end WaiterSettings

namespace Settings

def perServiceOfSetting? (value : SettingValue) : Option Nat := do
  let field ← value.structure? ["per_service"]
  SettingValue.fieldOr? SettingValue.toCount? ({} : Settings).perService (field "per_service")

def schedulesOfSetting? (value : SettingValue) : Option (WaiterSettings × WaiterSettings) := do
  let field ← value.structure? ["standard", "slow"]
  let default : Settings := {}
  let standard ← SettingValue.fieldOr? WaiterSettings.ofSetting? default.standard (field "standard")
  let slow ← SettingValue.fieldOr? WaiterSettings.ofSetting? default.slow (field "slow")
  return (standard, slow)

def ofSetting? (value : SettingValue) : Option Settings := do
  let field ← value.structure? ["mode", "environment", "concurrency", "lambda_waiter"]
  let default : Settings := {}
  let (standard, slow) ←
    SettingValue.fieldOr? schedulesOfSetting? (default.standard, default.slow) (field "lambda_waiter")
  return {
    mode := ← SettingValue.fieldOr? Mode.ofSetting? default.mode (field "mode")
    target := ← SettingValue.fieldOr? TargetSettings.ofSetting? default.target (field "environment")
    perService := ←
      SettingValue.fieldOr? perServiceOfSetting? default.perService (field "concurrency")
    standard
    slow }

end Settings

end StackSwap
