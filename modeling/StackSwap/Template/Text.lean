import StackSwap.Json.Shaped
import StackSwap.Template.Codec
import StackSwap.Text.Blank
import StackSwap.Yaml.Shaped

namespace StackSwap.Template

def ofJsonText? (body : String) : Option Template :=
  ((Json.Document.parse body).bind
    (fun document => document.read? Json.Document.depthLimit shape)).bind ofJson?

def ofYamlText? (body : String) : Option Template :=
  (Yaml.Node.parse? shape body).bind (decode? .omission)

/-- Reads a template from a text in either notation. -/
def parse? (body : String) : Option Template :=
  match Text.trimStart body.toList with
  | [] => some {}
  | '\x7b' :: _ => ofJsonText? body
  | _ => ofYamlText? body

end StackSwap.Template
