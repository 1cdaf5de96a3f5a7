import OData.CommandLine.Basic

/-!
# The program

Reads the files that the arguments name, runs, and prints.
-/

set_option autoImplicit false

namespace OData.CommandLine

def readKnown (names : List String) : IO (List (String × String)) := do
  let mut known := []
  for name in names do
    try
      known := (name, ← IO.FS.readFile name) :: known
    catch _ => pure ()
  return known

def Files.ofList (known : List (String × String)) : Files := fun name =>
  (known.find? (·.1 == name)).map (·.2)

/-- Reads the files in two rounds, since the configuration may name one more. -/
def readFiles (arguments : List String) : IO Files := do
  let named ← readKnown (filesOf (fun _ => none) arguments)
  let known ← readKnown (filesOf (Files.ofList named) arguments)
  return Files.ofList known

def failureText : Failure → String
  | .misused reason => "error: " ++ reason ++ "\n"
  | failure => "Error: " ++ failure.message ++ "\n"

end OData.CommandLine

open OData OData.CommandLine

def main (arguments : List String) : IO UInt32 := do
  let drawn : Guid := ⟨BitVec.ofNat 128 (← IO.rand 0 (2 ^ 128 - 1))⟩
  let outcome := run Libraries.standard drawn (← readFiles arguments) arguments
  IO.print outcome.output
  IO.eprint (outcome.note ++ (outcome.failure.map failureText).getD "")
  return outcome.exitCode.toUInt32
