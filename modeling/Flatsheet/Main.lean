import Flatsheet.Demo

/-!
Prints the demonstration.
-/

def main : IO UInt32 := do
  match Flatsheet.Demo.output with
  | .ok text =>
      IO.print (String.ofList text)
      return 0
  | .error fault =>
      IO.eprintln (String.ofList fault.message)
      return 1
