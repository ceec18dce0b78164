import AttributeLint.Command.Run

/-!
# The program

The arguments name paths; what is at these and at the directories on the way is read, and the run is
a function of that.
-/

namespace AttributeLint

open Files (Item Path Place Tree)

/-- What is at a place of the file system. -/
def probe (place : Place) : IO (Option Item) := do
  try
    let bytes ← IO.FS.readBinFile ("/" ++ "/".intercalate place)
    return some (.file bytes.toList)
  catch
    | .inappropriateType .. => return some .directory
    | _ => return none

/-- What is at each place on the way from a place along some parts. -/
def probeAlong (place : Place) : List String → IO (List (Place × Item))
  | [] => return []
  | part :: rest => do
    let next := Tree.step place part
    let items ← probeAlong next rest
    match ← probe next with
    | some item => return (next, item) :: items
    | none => return items

/-- The files that some paths lead to. -/
def gather (texts : List String) : IO Tree := do
  let workdir := (Path.ofText (← IO.currentDir).toString).parts
  let mut items := []
  for text in texts do
    let path := Path.ofText text
    items := items ++ (← probeAlong (if path.root.isEmpty then workdir else []) path.parts)
  return { workdir, items }

end AttributeLint

/-- Runs the program on its arguments. -/
def main (arguments : List String) : IO UInt32 := do
  let tree ← AttributeLint.gather (AttributeLint.Command.paths arguments)
  let outcome := AttributeLint.Command.run tree arguments
  (← IO.getStdout).putStr outcome.stdout
  (← IO.getStderr).putStr outcome.stderr
  match outcome.code with
  | .ok code => return code.toUInt32
  | .error fault =>
    (← IO.getStderr).putStrLn fault.message
    return 1
