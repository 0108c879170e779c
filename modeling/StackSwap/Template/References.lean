import StackSwap.Template

/-! Searches in templates by shape and text, without evaluation. Arguments that only an evaluation
would turn into a name are not followed. -/

namespace StackSwap

namespace Json

def occursIn (pattern : List Char) : List Char → Bool
  | [] => pattern.isEmpty
  | char :: rest => pattern.isPrefixOf (char :: rest) || occursIn pattern rest

/-- The first item of an array as a string, or a string itself. -/
def leadingText? : Json → Option String
  | .arr (.str text :: _) => some text
  | .str text => some text
  | _ => none

/-- The resource that an attribute reference names: the first item, or the text up to a dot. -/
def attributeTarget? : Json → Option String
  | .arr (.str text :: _) => some text
  | .str text => some (String.ofList (text.toList.takeWhile (· ≠ '.')))
  | _ => none

/-- Whether a substitution body has a placeholder for a resource or for one of its attributes. -/
def hasPlaceholder (body logicalId : String) : Bool :=
  let opening := '$' :: '\x7b' :: logicalId.toList
  occursIn (opening ++ ['\x7d']) body.toList || occursIn (opening ++ ['.']) body.toList

/-- What a single field of an object says about a resource: `some answer` settles the question
for the object, `none` leaves it to the values inside. -/
def mentionAsFunction? (logicalId name : String) (arguments : Json) : Option Bool :=
  if name = "Ref" then some (arguments.str? == some logicalId)
  else if name = "Fn::GetAtt" then
    if arguments.attributeTarget? == some logicalId then some true else none
  else if name = "Fn::Sub" then
    match arguments.leadingText? with
    | some body => if hasPlaceholder body logicalId then some true else none
    | none => none
  else none

mutual

def mentions (logicalId : String) : Json → Bool
  | .arr items => itemsMention logicalId items
  | .obj [(name, arguments)] =>
    match mentionAsFunction? logicalId name arguments with
    | some answer => answer
    | none => mentions logicalId arguments
  | .obj fields => fieldsMention logicalId fields
  | _ => false
termination_by structural value => value

def itemsMention (logicalId : String) : List Json → Bool
  | [] => false
  | item :: rest => mentions logicalId item || itemsMention logicalId rest
termination_by structural items => items

def fieldsMention (logicalId : String) : List (String × Json) → Bool
  | [] => false
  | (_, value) :: rest => mentions logicalId value || fieldsMention logicalId rest
termination_by structural fields => fields

end

mutual

/-- Whether a key occurs in some object inside the value. -/
def hasKey (key : String) : Json → Bool
  | .arr items => itemsHaveKey key items
  | .obj fields => fieldsHaveKey key fields
  | _ => false
termination_by structural value => value

def itemsHaveKey (key : String) : List Json → Bool
  | [] => false
  | item :: rest => hasKey key item || itemsHaveKey key rest
termination_by structural items => items

/-- Whether a key is one of the fields' or occurs inside some field's value. -/
def fieldsHaveKey (key : String) : List (String × Json) → Bool
  | [] => false
  | (name, value) :: rest => name = key || hasKey key value || fieldsHaveKey key rest
termination_by structural fields => fields

end

end Json

namespace Template

/-- The resources with a property that mentions a resource, in order of their logical IDs. -/
def resourcesMentioning (template : Template) (logicalId : String) : Entries Resource :=
  template.resources.entries.filter
    (fun entry => entry.2.properties.values.any (Json.mentions logicalId))

/-- Whether a property or an output uses an intrinsic function. -/
def usesFunction (template : Template) (function : String) : Bool :=
  template.resources.values.any (fun resource => resource.properties.values.any (Json.hasKey function)) ||
    template.outputs.values.any (fun output => output.value.hasKey function)

end Template

end StackSwap
