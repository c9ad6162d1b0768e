import FilterSql.Program

/-!
# Command line program

The outer layer of the program: it looks up what a run needs, runs it, and prints what it leaves behind.
-/

set_option autoImplicit false

namespace FilterSql.Main

def findEntry (path : String) : IO FileEntry := do
  try
    let bytes ← IO.FS.readBinFile path
    match String.fromUTF8? bytes with
    | some content => return .text content
    | none => return .binary
  catch error =>
    match error with
    | .inappropriateType _ 21 _ => return .directory
    | .inappropriateType _ _ _ => return .beyondFile
    | .permissionDenied _ _ _ => return .forbidden
    | _ => return .missing

def findEnvironment : IO CommandLine.Environment := do
  let values ← Program.environmentNames.mapM fun name => do return (name, ← IO.getEnv name)
  return fun name => (values.lookup name).join

def findFiles (paths : List String) : IO Files := do
  let entries ← paths.mapM fun path => do return (path, ← findEntry path)
  return fun path => (entries.lookup path).getD .missing

def run (arguments : List String) : IO UInt32 := do
  let environment ← findEnvironment
  let files ← findFiles (Program.paths environment arguments)
  let standardInput ←
    if Program.readsInput environment files arguments then (← IO.getStdin).readToEnd else pure ""
  let outcome := Program.run environment files standardInput arguments
  for warning in outcome.warnings do
    IO.eprintln (" WARN " ++ warning)
  match outcome.failure with
  | some failure => IO.eprintln ("\nError: " ++ failure ++ "\n")
  | none => IO.print outcome.output
  if outcome.status = 2 then IO.eprint Program.usage
  return outcome.status.toUInt32

end FilterSql.Main

def main (arguments : List String) : IO UInt32 :=
  FilterSql.Main.run arguments
