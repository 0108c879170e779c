/-! The bodies of `Fn::Sub`: a dollar sign and an opening brace begin a placeholder, which the next
closing brace ends; with an exclamation mark it stands for itself. One that is never closed is text.
-/

namespace StackSwap

inductive Segment where
  /-- text that stands for itself -/
  | literal (text : String)
  /-- a placeholder that is written out and not resolved -/
  | escaped (text : String)
  /-- a placeholder to resolve -/
  | placeholder (token : String)
deriving DecidableEq, Repr, Inhabited

namespace Segment

/-- The segment between an opening and a closing brace. -/
def ofToken : List Char → Segment
  | '!' :: text => .escaped (String.ofList text)
  | token => .placeholder (String.ofList token)

/-- Reads the segments of a body. `literal` holds the literal text read so far and `token` that
of the placeholder that is open, both in reverse. -/
def scan (literal : List Char) : (token : Option (List Char)) → List Char → List Segment
  | none, [] => [.literal (String.ofList literal.reverse)]
  | some token, [] =>
    [.literal (String.ofList (literal.reverse ++ '$' :: '\x7b' :: token.reverse))]
  | none, '$' :: '\x7b' :: rest => scan literal (some []) rest
  | none, char :: rest => scan (char :: literal) none rest
  | some token, char :: rest =>
    if char = '\x7d' then
      .literal (String.ofList literal.reverse) :: ofToken token.reverse :: scan [] none rest
    else scan literal (some (char :: token)) rest

def ofBody (body : String) : List Segment := scan [] none body.toList

/-- The text of an escaped placeholder in the result. -/
def unescaped (text : String) : String := "$\x7b" ++ text ++ "\x7d"

end Segment

end StackSwap
