import DocStore.Command.Run

/-!
# The program

Reads arguments, files and standard input, and hands everything else to the
pure commands. No network is linked in, so every request is answered with a
failure, and no wording, so JSON is refused without a reason and help is empty.
-/

set_option autoImplicit false

namespace DocStore

def FileError.ofFailure : IO.Error → FileError
  | .noFileOrDirectory .. => .missing
  | .noSuchThing .. => .missing
  | .inappropriateType .. => .directory
  | e => .other (toString e)

def readFileContent (path : String) : IO FileContent := do
  try
    let bytes ← IO.FS.readBinFile path
    return .ok bytes.toList
  catch e => return .error (.ofFailure e)

partial def readAll (input : IO.FS.Stream) (taken : ByteArray) : IO ByteArray := do
  let bytes ← input.read 65536
  if bytes.isEmpty then return taken
  readAll input (taken ++ bytes)

def wantedFiles : CommandLine → List String
  | .invoke ⟨_, .compile config query⟩ => config :: query.toList
  | .invoke ⟨_, .run config query⟩ => config :: query.toList
  | .invoke ⟨_, .get config _⟩ => [config]
  | _ => []

def wantsInput : CommandLine → Bool
  | .invoke ⟨_, .compile _ none⟩ => true
  | .invoke ⟨_, .run _ none⟩ => true
  | _ => false

def disconnected : Network := fun request => .error (.request request.endpoint "no network")

end DocStore

open DocStore in
def main (args : List String) : IO UInt32 := do
  let line := CommandLine.read args
  let files ← (wantedFiles line).mapM fun path => return (path, ← readFileContent path)
  let stdin ← if wantsInput line then readAll (← IO.getStdin) .empty else pure .empty
  let inputs : Inputs := {
    file := fun path => (files.lookup path).getD (.error .missing)
    stdin := .ok stdin.toList }
  let outcome := Command.execute .silent inputs disconnected args
  for l in outcome.trace.lines do IO.eprint l.render
  IO.print outcome.stdout
  return outcome.exitCode.toUInt32
