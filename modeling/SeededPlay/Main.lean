/-
# `SeededPlay.Main` — the command line

Reads the settings from the environment and a few random bytes, carries out the
command, and prints what it says.
-/
import SeededPlay.CommandLine.Command

namespace SeededPlay.CommandLine

/-- The names of the settings in the environment. -/
def settingNames : List String :=
  ["SEEDFORGE_STRICT_EXPRESSIONS", "SEEDFORGE_SHARE_URL_PREFIX", "SEEDFORGE_DIFFICULTY_POINTS",
   "SEEDFORGE_LOG_LEVEL"]

/-- The settings that the environment asks for. -/
def readEnvironment : IO (Fields String) := do
  let mut env : Fields String := []
  for name in settingNames do
    match ← IO.getEnv name with
    | some value => env := env.set name value
    | none => pure ()
  return env

/-- Thirty-two random bits. -/
def randomWord : IO UInt32 := do
  let bytes ← IO.getRandomBytes 4
  return bytes.toList.foldl (fun n b => n * 256 + b.toUInt32) 0

def write (output : Output) : IO Unit :=
  match output with
  | .nothing => pure ()
  | .text s => IO.print s
  | .report blocks => (blocks.flatMap Block.lines).forM fun line => IO.println line

end SeededPlay.CommandLine

open SeededPlay CommandLine in
def main (args : List String) : IO UInt32 := do
  let entropy ← randomWord
  let settings := Settings.ofEnvironment (← readEnvironment)
  match settings.bind fun settings => CommandLine.run settings entropy args with
  | .ok answer =>
    write answer.output
    return UInt32.ofNat answer.code
  | .error e =>
    IO.eprintln ((e.message?).getD "The command failed.")
    return 1
