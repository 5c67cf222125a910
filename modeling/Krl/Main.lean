import Krl.Cli

/-!
# The program

Reads files from disk and prints. It starts no other programs, so a configured parser or compiler
counts as one that cannot be started.
-/

set_option autoImplicit false

namespace Krl

/-- A host that starts no programs. -/
def idleHost : Tool.Host where
  run command _ := .error ⟨command.program, "Operation not supported (os error 95)"⟩

/-- What the operating system says on a failed read. -/
def readFailure : IO.Error → Cli.ReadFailure
  | .noFileOrDirectory .. => .noSuchFile
  | .inappropriateType .. => .isADirectory
  | e => toString e

/-- Read a file as text. -/
def readFile (path : String) : IO (Except Cli.ReadFailure String) := do
  try
    let bytes ← IO.FS.readBinFile path
    return Cli.decode bytes.data.toList
  catch e => return .error (readFailure e)

/-- The settings that the environment names. -/
def environmentSettings : IO Settings := do
  return .ofLines (← IO.getEnv "KRL_PARSER_COMMAND") (← IO.getEnv "KRL_COMPILER_COMMAND")

end Krl

/-- Print the report that the arguments ask for, or how to ask for one. -/
def main (args : List String) : IO UInt32 := do
  let settings ← Krl.environmentSettings
  let content ← match Krl.Cli.fileToRead? args with
    | some path => Krl.readFile path
    | none => pure (.error .noSuchFile)
  match Krl.Cli.run Krl.idleHost settings (fun _ => content) args with
  | some outcome =>
    IO.print outcome.stdout
    IO.eprint outcome.stderr
    return UInt32.ofNat outcome.exit
  | none =>
    IO.eprintln Krl.Cli.usage
    return 2
