import StackSwap.Entries
import StackSwap.Number.Double

/-! Values of TOML. A table knows how it came about, because that decides what may still be added to
it: only implied tables may be completed, and an inline table is complete. -/

namespace StackSwap.Toml

/-- How a table came about. -/
inductive Origin where
  /-- its own header -/
  | header
  /-- a header of a table inside of it -/
  | implied
  /-- a dotted key -/
  | dotted
  /-- braces -/
  | inline
deriving DecidableEq, Repr, Inhabited

/-- A value. A point in time is kept as its normal text; `tables` is an array of tables that
headers extend. -/
inductive Value where
  | text (text : String)
  | integer (value : Int)
  | float (value : Double)
  | bool (value : Bool)
  | moment (text : String)
  | array (items : List Value)
  | table (origin : Origin) (entries : List (String × Value))
  | tables (all : List (List (String × Value)))
deriving Inhabited

structure Draft where
  origin : Origin
  entries : List (String × Value)
deriving Inhabited

namespace Draft

/-- Changes the table at a path, with tables on the way that do not exist yet. A path of a dotted
key does not lead through tables with a header, and no path through an inline table or a value that
is no table. Of an array of tables the last one is meant. -/
def change? (dotted : Bool) (update : Draft → Option Draft) :
    (path : List String) → Draft → Option Draft
  | [], table => update table
  | key :: path, table => do
    let value ← match Entries.find? table.entries key with
      | none => do
        let inner ← change? dotted update path ⟨if dotted then .dotted else .implied, []⟩
        pure (.table inner.origin inner.entries)
      | some (.table origin entries) =>
        if origin = .inline ∨ dotted ∧ origin = .header then none
        else do
          let inner ← change? dotted update path ⟨origin, entries⟩
          pure (.table inner.origin inner.entries)
      | some (.tables all) =>
        match all.reverse with
        | last :: earlier => do
          let inner ← change? dotted update path ⟨.header, last⟩
          pure (.tables (inner.entries :: earlier).reverse)
        | [] => none
      | some _ => none
    return { table with entries := Entries.insert key value table.entries }

/-- Defines a key, which must not be defined yet. A dotted key must end in a table that dotted keys
began. -/
def define? (path : List String) (key : String) (value : Value) (table : Draft) : Option Draft :=
  change? true
    (fun table =>
      if (table.origin = .dotted) = path.isEmpty then none
      else if Entries.contains table.entries key then none
      else some { table with entries := Entries.insert key value table.entries })
    path table

/-- Begins a table with a header. -/
def begin? (path : List String) (key : String) (table : Draft) : Option Draft :=
  change? false
    (fun table => do
      let entries ← match Entries.find? table.entries key with
        | none => some []
        | some (.table .implied entries) => some entries
        | some _ => none
      return { table with entries := Entries.insert key (.table .header entries) table.entries })
    path table

/-- Begins the next table of an array of tables. -/
def beginNext? (path : List String) (key : String) (table : Draft) : Option Draft :=
  change? false
    (fun table => do
      let all ← match Entries.find? table.entries key with
        | none => some []
        | some (.tables all) => some all
        | some _ => none
      return { table with entries := Entries.insert key (.tables (all ++ [[]])) table.entries })
    path table

end Draft

end StackSwap.Toml
