namespace StackSwap

/-- In fall-back mode a change that cannot be swapped stops the hotswap, and a full deployment has
to follow. In hotswap-only mode such changes are left alone and the others are applied. -/
inductive Mode where
  | fallBack
  | hotswapOnly
deriving DecidableEq, Repr, Inhabited

namespace Mode

def name : Mode → String
  | .fallBack => "fall-back"
  | .hotswapOnly => "hotswap-only"

def ofName? (name : String) : Option Mode :=
  [fallBack, hotswapOnly].find? (fun mode => mode.name == name)

end Mode

end StackSwap
