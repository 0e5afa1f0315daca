import QueryChain.Fault

/-!
# Directories of files

A directory as a list of files by path. Directories within it are those that paths go through.

* `Files.read`: the text of the file at a path, or why there is none.
-/

namespace QueryChain.CommandLine

/-- The files below a directory, each with its path and text. -/
structure Files where
  entries : List (List String × String)

namespace Files

/-- The parts of a path; a path that ends in a slash has an empty last part. -/
def split (path : String) : List String :=
  (path.toList.splitOn '/').map String.ofList

/-- The files of a list of paths and texts. -/
def ofList (files : List (String × String)) : Files :=
  ⟨files.map fun (path, text) => (split path, text)⟩

/-- The text of the file with these parts. -/
def text (f : Files) (parts : List String) : Option String :=
  f.entries.lookup parts

/-- Whether there is a directory with these parts. -/
def isDirectory (f : Files) (parts : List String) : Bool :=
  parts.isEmpty || f.entries.any fun (path, _) => parts.isPrefixOf path && parts != path

/-- The greatest length of a part of a path in bytes. -/
def longestPart : Nat := 255

/-- Follows the parts of a path from a directory. -/
def follow (f : Files) : List String → List String → Except FileFault String
  | _, [] => .error .isDirectory
  | here, part :: rest =>
    if part = "" ∨ part = "." then follow f here rest
    else if part = ".." then follow f here.dropLast rest
    else if longestPart < part.utf8ByteSize then .error .nameTooLong
    else
      let next := here ++ [part]
      match f.text next with
      | some text => if rest.isEmpty then .ok text else .error .notDirectory
      | none => if f.isDirectory next then follow f next rest else .error .missing

/-- The greatest length of a path in bytes. -/
def longestPath : Nat := 4095

/-- The text of the file at a path, which starts from the directory. -/
def read (f : Files) (path : String) : Except FileFault String :=
  if path.toList.contains (Char.ofNat 0) then .error .nullInPath
  else if longestPath < path.utf8ByteSize then .error .nameTooLong
  else if path = "" ∨ path.toList.head? = some '/' then .error .missing
  else f.follow [] (split path)

end Files

end QueryChain.CommandLine
