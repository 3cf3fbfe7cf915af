import RoutingPolicy.CommandLine.Run

/-!
# The program

Reads the file that the arguments name, runs the analysis and writes what it says. There is no
transport to a registry: every request fails.
-/

namespace RoutingPolicy

namespace CommandLine

/-- What the system says about a failure, with its number for it. Some calls report the number with
its sign turned, and the words without a capital. -/
def systemMessage (code : UInt32) (details : String) : Text :=
  let number := code.toInt32.toInt.natAbs
  details.capitalize.toList ++ " (os error ".toList ++ Nat.toDigits 10 number ++ [')']

def failureMessage : IO.Error → Text
  | .noFileOrDirectory _ code details | .inappropriateType _ code details
  | .invalidArgument _ code details | .permissionDenied _ code details
  | .resourceExhausted _ code details | .noSuchThing _ code details
  | .hardwareFault code details | .otherError code details => systemMessage code details
  | other => other.toString.toList

/-- The text of a file, or why it cannot be read. There is nothing behind a protocol. -/
def readFile (name : Text) : IO (Except Text Text) := do
  if (protocol? name).isSome then return .error "no network".toList
  try
    let bytes ← IO.FS.readBinFile (String.ofList name)
    match String.fromUTF8? bytes with
    | some text => return .ok text.toList
    | none => return .error "IO error: stream did not contain valid UTF-8".toList
  catch failure => return .error ("IO error: ".toList ++ failureMessage failure)

/-- The surroundings of a run: the file that it may want is read beforehand. -/
def surroundings (arguments : List Text) : IO Surroundings := do
  let content ← match readArguments arguments with
    | .ok ⟨some name, _, _⟩ => readFile name
    | _ => pure (.error [])
  return ⟨fun _ => content, .refusing "no network".toList⟩

/-- Runs the program on its arguments and gives its exit code. -/
def program (arguments : List Text) : IO UInt32 := do
  let ending := run (← surroundings arguments) arguments
  IO.print (String.ofList ending.output)
  IO.eprint (String.ofList ending.errors)
  return ending.code

end CommandLine

end RoutingPolicy

def main (arguments : List String) : IO UInt32 :=
  RoutingPolicy.CommandLine.program (arguments.map String.toList)
