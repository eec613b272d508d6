import RadioModem.CommandLine

/-!
# The program

Sets a node up from the command line and reports why it could not be. Serving the console of a
node that is ready is left to its host.
-/
namespace RadioModem.CommandLine

def readFile? (name : String) : IO (Option String) := do
  try
    return some (← IO.FS.readFile name)
  catch _ =>
    return none

/-- The text of the configuration file that the arguments name. -/
def configurationText (arguments : List String) : IO (Option String) :=
  match parse arguments with
  | .options ⟨some name, _, _, _, _⟩ => readFile? name
  | _ => return none

def run (arguments : List String) : IO UInt32 := do
  let text ← configurationText arguments
  let started := start (fun _ => text) arguments
  IO.print started.output
  match started.report? with
  | some report => IO.eprintln ("Error: " ++ report)
  | none => pure ()
  return started.status

end RadioModem.CommandLine

def main (arguments : List String) : IO UInt32 := RadioModem.CommandLine.run arguments
