import StackSwap.Entries
import StackSwap.Text.Pieces

namespace StackSwap

/-- The files below a root, by the parts of their paths; a directory has no text. -/
structure FileTree where
  nodes : List (List String × Option String)
deriving Inhabited

inductive FileLookup where
  | found (text : String)
  | absent
  | isDirectory
  | notDirectory
  | nameTooLong
  | badName
deriving DecidableEq, Repr, Inhabited

namespace FileTree

def parts (path : String) : List String := Text.split "/" path

/-- The tree with these files; a path without a text is a directory. -/
def ofList (files : List (String × Option String)) : FileTree :=
  ⟨files.map (fun (path, text) =>
    ((parts path).filter (fun part => part ≠ "" && part ≠ "."), text))⟩

def file? (tree : FileTree) (location : List String) : Option String :=
  (tree.nodes.find? (fun node => node.1 == location && node.2.isSome)).bind Prod.snd

/-- Whether a directory is at a location: the root, one that is given, or one above a node. -/
def isDirectory (tree : FileTree) (location : List String) : Bool :=
  location.isEmpty || tree.nodes.any (fun (parts, text) =>
    location.isPrefixOf parts && (parts ≠ location || text.isNone))

/-- Follows the parts of a path; `outside` counts the levels above the root. -/
def follow (tree : FileTree) (outside : Nat) (location : List String) : List String → FileLookup
  | [] =>
    if outside > 0 || tree.isDirectory location then .isDirectory
    else match tree.file? location with
      | some text => .found text
      | none => .absent
  | part :: rest =>
    if outside = 0 ∧ ¬ tree.isDirectory location then
      if (tree.file? location).isSome then .notDirectory else .absent
    else if part = "" ∨ part = "." then follow tree outside location rest
    else if part = ".." then
      if outside = 0 ∧ ¬ location.isEmpty then follow tree 0 location.dropLast rest
      else follow tree (outside + 1) [] rest
    else if part.utf8ByteSize > 255 then .nameTooLong
    else if outside > 0 then .absent
    else follow tree 0 (location ++ [part]) rest

def lookup (tree : FileTree) (path : String) : FileLookup :=
  if path.toList.contains '\x00' then .badName
  else if "/".toList.isPrefixOf path.toList then follow tree 1 [] (parts path)
  else follow tree 0 [] (parts path)

end FileTree

end StackSwap
