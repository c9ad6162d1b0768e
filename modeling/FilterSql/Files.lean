/-!
# Files

What a program finds under the paths it opens.
-/

set_option autoImplicit false

namespace FilterSql

inductive FileEntry where
  | text (content : String)
  | directory
  | missing
  /-- The path goes on after a file. -/
  | beyondFile
  | forbidden
  /-- A file that holds no text. -/
  | binary
  deriving DecidableEq, Repr

namespace FileEntry

def exists? : FileEntry → Bool
  | text _ => true
  | directory => true
  | missing => false
  | beyondFile => false
  | forbidden => true
  | binary => true

end FileEntry

inductive FileError where
  | missing
  | beyondFile
  | isDirectory
  | forbidden
  | notText
  deriving DecidableEq, Repr

def FileError.message : FileError → String
  | missing => "No such file or directory (os error 2)"
  | beyondFile => "Not a directory (os error 20)"
  | isDirectory => "Is a directory (os error 21)"
  | forbidden => "Permission denied (os error 13)"
  | notText => "stream did not contain valid UTF-8"

/-- The content of what is found under a path, if it is a text. -/
def FileEntry.read : FileEntry → Except FileError String
  | text content => .ok content
  | directory => .error .isDirectory
  | missing => .error .missing
  | beyondFile => .error .beyondFile
  | forbidden => .error .forbidden
  | binary => .error .notText

abbrev Files := String → FileEntry

namespace Files

/-- The steps of a path, without the steps that lead nowhere. -/
def steps (path : String) : List String :=
  (path.splitOn "/").filter fun step => step ≠ "" ∧ step ≠ "."

/-- A directory with the given files, whose names are relative paths, and nothing around it but further
directories. -/
def ofList (files : List (String × String)) : Files := fun path =>
  let wanted := steps path
  let asDirectory := path.endsWith "/" || path.endsWith "/."
  if path = "" then .missing
  else if wanted.all (· = "..") then .directory
  else if path.startsWith "/" then .missing
  else
    match files.find? fun file => steps file.1 == wanted with
    | some file => if asDirectory then .beyondFile else .text file.2
    | none =>
      if files.any fun file => wanted.isPrefixOf (steps file.1) then .directory
      else if files.any fun file => (steps file.1).isPrefixOf wanted then .beyondFile
      else .missing

end Files

end FilterSql
