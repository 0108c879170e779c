import StackSwap.Settings
import StackSwap.Template.Codec

/-! Settings as JSON values of exact types. Fields that are missing have their defaults, except in a
schedule, which needs all three. -/

namespace StackSwap

namespace Mode

/-- Decodes a mode: its name, or an object with the name as its only key and null under it. -/
def ofJson? : Json → Option Mode
  | .str name => ofName? name
  | .obj [(name, .null)] => ofName? name
  | _ => none

end Mode

/-- A field that has a default when it is missing. -/
def Json.fieldOr? {α : Type} (decode : Json → Option α) (default : α) : Option Json → Option α
  | none => some default
  | some value => decode value

/-- An integer that is not negative. -/
def Json.natural? : Json → Option Nat
  | .num number => number.toNat?
  | _ => none

namespace TargetSettings

def ofJson? (value : Json) : Option TargetSettings := do
  let field ← value.structure? ["account", "region", "partition", "url_suffix"]
  let default : TargetSettings := {}
  return {
    account := ← Json.fieldOr? Json.str? default.account (field "account")
    region := ← Json.fieldOr? Json.str? default.region (field "region")
    partition := ← Json.fieldOr? Json.str? default.partition (field "partition")
    urlSuffix := ← Json.optional? Json.str? (field "url_suffix") }

end TargetSettings

namespace WaiterSettings

def ofJson? (value : Json) : Option WaiterSettings := do
  let field ← value.structure? ["min_delay_secs", "max_delay_secs", "max_wait_secs"]
  return {
    minDelay := ← (field "min_delay_secs").bind Json.natural?
    maxDelay := ← (field "max_delay_secs").bind Json.natural?
    maxWait := ← (field "max_wait_secs").bind Json.natural? }

end WaiterSettings

namespace Settings

def perServiceOfJson? (value : Json) : Option Nat := do
  let field ← value.structure? ["per_service"]
  Json.fieldOr? Json.natural? ({} : Settings).perService (field "per_service")

def schedulesOfJson? (value : Json) : Option (WaiterSettings × WaiterSettings) := do
  let field ← value.structure? ["standard", "slow"]
  let default : Settings := {}
  let standard ← Json.fieldOr? WaiterSettings.ofJson? default.standard (field "standard")
  let slow ← Json.fieldOr? WaiterSettings.ofJson? default.slow (field "slow")
  return (standard, slow)

def ofJson? (value : Json) : Option Settings := do
  let field ← value.structure? ["mode", "environment", "concurrency", "lambda_waiter"]
  let default : Settings := {}
  let (standard, slow) ←
    Json.fieldOr? schedulesOfJson? (default.standard, default.slow) (field "lambda_waiter")
  return {
    mode := ← Json.fieldOr? Mode.ofJson? default.mode (field "mode")
    target := ← Json.fieldOr? TargetSettings.ofJson? default.target (field "environment")
    perService := ← Json.fieldOr? perServiceOfJson? default.perService (field "concurrency")
    standard
    slow }

end Settings

end StackSwap
