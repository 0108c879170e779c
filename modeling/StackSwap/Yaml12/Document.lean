import StackSwap.Yaml.Node
import StackSwap.Yaml12.Layout

namespace StackSwap.Yaml12

open StackSwap.Yaml

/-- Reads the directives in front of a document, which have to be followed by its marker. Every
directive takes the place of the handles that are declared before it. Any version will do, but only
once. -/
def declared? : (versions : Nat) → (handles : List (String × String)) → List Token →
    Option (List (String × String) × List Token)
  | versions, _, .directive (.version _ _) :: rest =>
    if versions > 0 then none else declared? (versions + 1) [] rest
  | versions, _, .directive (.handle name standsFor) :: rest =>
    declared? versions [(name, standsFor)] rest
  | versions, _, .directive .other :: rest => declared? versions [] rest
  | _, handles, .documentStart :: rest => some (handles ++ Tag.defaultHandles, rest)
  | _, _, _ => none

/-- The only document of a text, if there is one. -/
def document? (text : String) : Option (Option Node) := do
  let tokens := (← tokens? text).dropWhile (· == .documentEnd)
  let (handles, tokens) ← match tokens with
    | [] => return none
    | .directive _ :: _ | .documentStart :: _ => declared? 0 [] tokens
    | _ => some (Tag.defaultHandles, tokens)
  let (node, rest) ← Read.runOn? .v12 handles tokens Read.content
  if rest.all (· == .documentEnd) then return some node else none

end StackSwap.Yaml12
