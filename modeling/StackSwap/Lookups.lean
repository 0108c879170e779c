import StackSwap.Stack
import StackSwap.Timed

namespace StackSwap

/-- The lookups about deployed stacks. A stack that does not exist has no template. -/
structure Lookups where
  template : (stackName : String) → Timed (Option Template)
  resources : (stackName : String) → Timed (List ListedResource)
  parameters : (stackName : String) → Timed (Table String)
  exports : Timed (Table String)

/-- Where the generated templates of nested stacks come from. An unknown location has none. -/
abbrev TemplateSource := TemplateLocation → Timed (Option Template)

namespace TemplateSource

def none : TemplateSource := fun _ => .now (.ok Option.none)

/-- The source with these templates, by path or URL. -/
def ofTable (templates : Table Template) : TemplateSource := fun location =>
  .now (.ok (location.key?.bind templates.find?))

end TemplateSource

end StackSwap
