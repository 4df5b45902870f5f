import PathRouting.Command.Run

/-!
# The program

The command line with the files and the variables of the machine.
-/
namespace PathRouting.Command

/-- The files of the machine. What cannot be looked at is not there. -/
def machine : FileView IO where
  kind? path := do
    try
      let place ← IO.FS.realPath path
      return some (if ← place.isDir then .directory else .file)
    catch _ => return none
  names path := do
    try
      let place ← IO.FS.realPath path
      return (← place.readDir).toList.map fun entry => entry.fileName
    catch _ => return []
  content path := IO.FS.readFile path

def environmentFile : String := "/proc/self/environ"

def variablesIn (text : String) : List (String × String) :=
  (Text.splitAll (Char.ofNat 0) text.toList).filterMap fun entry =>
    (Text.splitFirst? '=' entry).map fun (name, value) =>
      (String.ofList name, String.ofList value)

/-- The variables of the machine; none if they are not shown. -/
def machineVariables : IO (List (String × String)) := do
  try
    return variablesIn (← IO.FS.readFile environmentFile)
  catch _ => return []

def Outcome.report (o : Outcome) : IO UInt32 := do
  IO.print o.stdout
  IO.eprint o.stderr
  return o.exit.toUInt32

end PathRouting.Command

open PathRouting in
/-- Run a command line. A failure that is no error of the command ends the program. -/
def main (words : List String) : IO UInt32 := do
  let environment ← Command.machineVariables
  match ← Command.run Command.machine environment words with
  | .ok outcome => outcome.report
  | .error failure =>
    IO.eprintln failure.text
    return 1
