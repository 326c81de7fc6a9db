/-
# The program

Reads the command line, the environment and the files that are named, and does what the command
line asks for.
-/
import HookPool.CommandLine.Run

namespace HookPool

/-- The code of the operating system in an error of the outer layer. -/
def osCode : IO.Error → Int
  | .noFileOrDirectory _ code _ | .permissionDenied _ code _ | .inappropriateType _ code _ =>
    code.toNat
  | .invalidArgument _ code _ | .alreadyExists _ code _ | .resourceExhausted _ code _ =>
    code.toNat
  | .otherError code _ | .interrupted _ code _ | .resourceBusy code _ => code.toNat
  | _ => 5

/-- What reading a file gives. -/
def readFile (path : String) : IO (Except IoError ByteArray) := do
  try
    return .ok (← IO.FS.readBinFile path)
  catch e =>
    return .error (.os (osCode e))

/-- The paths that a command line names. -/
def pathsOf : CommandLine.Command → List String
  | .check script _ => [script]
  | .stress script given => script :: given.config.toList

/-- What the files under some paths hold. -/
def readFiles : List String → IO Files
  | [] => return fun _ => .error (.os 2)
  | path :: paths => do
    let contents ← readFile path
    let others ← readFiles paths
    return fun p => if p = path then contents else others p

/-- The values of the variables that give sizes. -/
def readVariables : List String → IO (String → Option ByteArray)
  | [] => return fun _ => none
  | name :: names => do
    let value ← IO.getEnv name
    let others ← readVariables names
    return fun n => if n = name then value.map String.toUTF8 else others n

/-- Carries a command line out, and gives the exit code. -/
def runProgram (words : List String) : IO UInt32 := do
  let lookup ← readVariables (CommandLine.sizeVariables.map (·.2))
  let paths := match CommandLine.read lookup words with
    | .ok command => pathsOf command
    | .error _ => []
  let files ← readFiles paths
  let stdout ← IO.getStdout
  let stderr ← IO.getStderr
  let start ← IO.monoNanosNow
  let completion := CommandLine.run files lookup words
  for line in completion.printed do
    stdout.write (line ++ "\n".toUTF8)
  let stop ← IO.monoNanosNow
  for event in completion.events do
    stderr.putStr (event.line ++ "\n")
  let output := completion.output (Duration.ofNanos (stop - start)).renderRounded
  for line in output.lines do
    stdout.putStr (line ++ "\n")
  stderr.putStr output.errors
  return output.code.toUInt32

end HookPool

def main (words : List String) : IO UInt32 :=
  HookPool.runProgram words
