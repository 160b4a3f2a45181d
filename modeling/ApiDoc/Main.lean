import ApiDoc.Command

/-! # The program

Runs the command line on the files of the working directory.
-/

namespace ApiDoc

/-- Whether an action works, its failure taken as a no. -/
def attempt (action : IO Unit) : IO Bool := do
  try
    action
    return true
  catch _ => return false

def systemFiles : FileAccess IO where
  present path := do
    try
      discard (IO.FS.readBinFile path)
      return true
    catch
      | .noFileOrDirectory .. => return false
      | _ => return true
  read? path := do
    try return some (← IO.FS.readBinFile path)
    catch _ => return none
  makeDirectory path := attempt (IO.FS.createDirAll path)
  write path content := attempt (IO.FS.writeBinFile path content)

end ApiDoc

def main (arguments : List String) : IO UInt32 := do
  let answer ← ApiDoc.Command.respond ApiDoc.systemFiles arguments
  (← IO.getStdout).putStr answer.stdout
  (← IO.getStderr).putStr answer.stderr
  return answer.code.toUInt32
