import StackSwap.Entries
import StackSwap.Settings.Value
import StackSwap.Text.Natural
import StackSwap.Yaml.Node

/-! Nodes of YAML as settings. A node without a value is null as an item or as the value of an entry;
as a key it is passed over, so that the value behind it becomes the key. -/

namespace StackSwap

/-- What a node holds: nothing, something that cannot be a setting, or a setting. -/
inductive NodeContent where
  | absent
  | unreadable
  | setting (value : SettingValue)
deriving Inhabited

/-- A key of a mapping that settings can have. -/
inductive NodeKey where
  | integer (value : Int)
  | text (value : String)
deriving DecidableEq, Repr, Inhabited

namespace NodeKey

def name : NodeKey → String
  | .integer value => toString value
  | .text value => value

end NodeKey

namespace NodeContent

/-- The setting, where nothing is null, unless it is unreadable. -/
def value? : NodeContent → Option SettingValue
  | .absent => some .null
  | .unreadable => none
  | .setting value => some value

/-- The content as a key: a text or an integer. -/
def key? : NodeContent → Option NodeKey
  | .setting (.integer value) => some (.integer value)
  | .setting (.text value) => some (.text value)
  | _ => none

def ofItems (items : List NodeContent) : NodeContent :=
  match items.mapM value? with
  | some values => .setting (.list values)
  | none => .unreadable

/-- The entries of a mapping from its keys and values in turn, of which those without content are
passed over where a key is expected. A key without a value does not count. -/
def pairs : (key : Option NodeContent) → List NodeContent → List (NodeContent × NodeContent)
  | _, [] => []
  | none, .absent :: rest => pairs none rest
  | none, key :: rest => pairs (some key) rest
  | some key, value :: rest => (key, value) :: pairs none rest

/-- The keys that can be keys of settings. -/
def keys (entries : List (NodeContent × NodeContent)) : List NodeKey :=
  entries.filterMap (fun entry => entry.1.key?)

/-- The table with these keys and values in turn, unless a key is repeated. -/
def ofEntries? (contents : List NodeContent) : Option NodeContent :=
  let entries := pairs none contents
  if (keys entries).Nodup then
    match entries.mapM (fun (key, value) => do return ((← key.key?).name, ← value.value?)) with
    | some fields => some (.setting (.table (Entries.ofList fields)))
    | none => some .unreadable
  else none

end NodeContent

namespace SettingScalar

/-- An integer with perhaps a sign, in digits of a base. -/
def radix? (base : Nat) (chars : List Char) : Option Int := do
  let (negative, digits) := match chars with
    | '+' :: rest => (false, rest)
    | '-' :: rest => (true, rest)
    | chars => (false, chars)
  if digits.isEmpty then none
  let value ← digits.foldlM (fun value char => do
    let digit ← Text.hexValue? char
    if digit < base then some (value * base + digit) else none) 0
  if negative then (if value ≤ Nat.pow 2 63 then return -(value : Int) else none)
  else if value < Nat.pow 2 63 then return (value : Int)
  else none

/-- The integer that a plain scalar writes. Leading zeros do not matter, and a plus sign may stand in
front of another sign. -/
def integer? (content : String) : Option Int :=
  match content.toList with
  | '0' :: 'x' :: digits => radix? 16 digits
  | '0' :: 'o' :: digits => radix? 8 digits
  | '+' :: digits => radix? 10 digits
  | chars => radix? 10 chars

/-- Spellings of infinities and of what is not a number that stand for a float, but for none that
can be read. -/
def isUnreadableFloat (content : String) : Bool :=
  [".inf", ".Inf", ".INF", "+.inf", "+.Inf", "+.INF", "-.inf", "-.Inf", "-.INF",
    ".nan", ".NAN"].contains content

/-- The float that a plain scalar writes. -/
def float? (content : String) : Option NodeContent :=
  if isUnreadableFloat content then some .unreadable
  else (Double.ofText? content).map (fun value => .setting (.float value))

/-- A plain scalar without a tag. -/
def plain (content : String) : NodeContent :=
  if content = "~" ∨ content = "null" then .setting .null
  else if content = "true" then .setting (.bool true)
  else if content = "false" then .setting (.bool false)
  else match integer? content with
    | some value => .setting (.integer value)
    | none => (float? content).getD (.setting (.text content))

/-- A plain scalar with a tag of a core type that does not fit it holds nothing. -/
def tagged (tag : Yaml.NodeTag) (content : String) : NodeContent :=
  match tag with
  | .core "bool" =>
    if content = "true" then .setting (.bool true)
    else if content = "false" then .setting (.bool false)
    else .absent
  | .core "int" => (Text.signed? content).elim .absent (fun value => .setting (.integer value))
  | .core "float" => (float? content).getD .absent
  | .core "null" => if content = "~" ∨ content = "null" then .setting .null else .absent
  | _ => .setting (.text content)

/-- The content of a scalar. A scalar that is not plain is a text. -/
def content (tag : Option Yaml.NodeTag) (isPlain : Bool) (text : String) : NodeContent :=
  if !isPlain then .setting (.text text)
  else match tag with
    | none => plain text
    | some tag => tagged tag text

end SettingScalar

namespace NodeContent

mutual

def ofNode? : Yaml.Node → Option NodeContent
  | .missing => some (.setting .null)
  | .scalar tag plain text => some (SettingScalar.content tag plain text)
  | .sequence _ items => (ofNodes? items).map ofItems
  | .mapping _ entries => (ofPairs? entries).bind ofEntries?
  | .alias (some target) => ofNode? target
  | .alias none => some .absent
termination_by structural node => node

def ofNodes? : List Yaml.Node → Option (List NodeContent)
  | [] => some []
  | node :: rest => do
    let content ← ofNode? node
    return content :: (← ofNodes? rest)
termination_by structural nodes => nodes

/-- The contents of keys and values in turn. -/
def ofPairs? : List (Yaml.Node × Yaml.Node) → Option (List NodeContent)
  | [] => some []
  | (key, value) :: rest => do
    let key ← ofNode? key
    let value ← ofNode? value
    return key :: value :: (← ofPairs? rest)
termination_by structural entries => entries

end

end NodeContent

namespace SettingValue

def ofNode? (node : Yaml.Node) : Option SettingValue := do
  (← NodeContent.ofNode? node).value?

end SettingValue

end StackSwap
