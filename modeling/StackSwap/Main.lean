import StackSwap.Example

/-!
The command line: prints the example.
-/

/-- Prints the lines of the example, or why it fails. -/
def main : IO UInt32 := do
  match StackSwap.Example.lines with
  | .ok lines =>
    for line in lines do
      IO.println line
    return 0
  | .error failure =>
    IO.eprintln ("Error: " ++ failure.message)
    return 1
