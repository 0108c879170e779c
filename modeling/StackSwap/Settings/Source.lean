import StackSwap.Failure
import StackSwap.FileTree
import StackSwap.Settings.Format
import StackSwap.Settings.KeyPath

namespace StackSwap

inductive SettingOrigin where
  /-- values in code, or why there are none -/
  | inCode (name : String) (found : Except String (List (String × SettingValue)))
  /-- a file, in the format of its extension -/
  | file (path : String)
  /-- variables with a name that starts like this; the separator divides the names of nested keys -/
  | environment (beginning separator : String)
deriving Inhabited

/-- A source of settings. A higher priority counts more. -/
structure SettingSource where
  origin : SettingOrigin
  priority : Int
deriving Inhabited

structure Surroundings where
  files : FileTree := ⟨[]⟩
  environment : Table String := .empty
deriving Inhabited

namespace SettingOrigin

def name : SettingOrigin → String
  | .inCode name _ => name
  | .file path => "file:" ++ path
  | .environment beginning _ => "env:" ++ beginning ++ "*"

/-- The extension of the last part of a path. A point at the start of the part begins none. -/
def extension? (path : String) : Option String := do
  let part ← ((FileTree.parts path).filter (fun part => part ≠ "" && part ≠ ".")).getLast?
  if part = ".." then none
  let (last, before) ← Text.splitOnce '.' part.toList.reverse
  if before.isEmpty then none else return String.ofList last.reverse

def readFile (files : FileTree) (path : String) : Except LoadFault (List (String × SettingValue)) :=
  match (extension? path).bind SettingFormat.ofExtension? with
  | none => .error (.extension path)
  | some format =>
    match files.lookup path with
    | .found text =>
      match format.read? text with
      | some values => .ok (SettingValue.gather values)
      | none => .error (.unreadable path)
    | _ => .error (.missing path)

/-- The value of a variable: a boolean, an integer or a float, if it is spelled like one. -/
def valueOfVariable (text : String) : SettingValue :=
  let lower := SettingValue.lowerKey text
  if lower = "true" then .bool true
  else if lower = "false" then .bool false
  else match Text.signed? text with
    | some value => .integer value
    | none =>
      match Double.ofText? text with
      | some value => .float value
      | none => .text text

/-- The key of a variable, unless its name starts otherwise. Case does not matter in the name, but
the separator has to stand in it in lower case. -/
def keyOfVariable? (beginning separator name : String) : Option String := do
  let key ← Text.dropBeginning? (SettingValue.lowerKey (beginning ++ "_")) (SettingValue.lowerKey name)
  if separator.isEmpty then return key
  return String.intercalate "." (Text.split separator key)

def readVariables (environment : Table String) (beginning separator : String) :
    List (String × SettingValue) :=
  SettingValue.gather (Entries.ofList (environment.entries.filterMap (fun (name, text) =>
    (keyOfVariable? beginning separator name).map (fun key => (key, valueOfVariable text)))))

def read (surroundings : Surroundings) :
    SettingOrigin → Except LoadFault (List (String × SettingValue))
  | .inCode _ (.ok values) => .ok values
  | .inCode _ (.error reason) => .error (.refused reason)
  | .file path => readFile surroundings.files path
  | .environment beginning separator => .ok (readVariables surroundings.environment beginning separator)

end SettingOrigin

end StackSwap
