import InputChords.Command

/-! The command as a program: environment and words in, lines and files out. -/

namespace InputChords.Main

def settingNames : List String :=
  ["CHORDBIND_PARSE_TRACE", "CHORDBIND_INPUT_TRACE", "CHORDBIND_DOUBLE_CLICK_MS",
    "CHORDBIND_MOVEMENT_THRESHOLD", "CHORDBIND_LOG_LEVEL", "LOG_LEVEL"]

def environment : IO Environment :=
  settingNames.filterMapM fun name => do
    return (← IO.getEnv name).map fun text => (name, .text text)

def stamp : IO Log.Stamp := do
  let now := toString (← IO.monoMsNow)
  return ⟨now, now⟩

def usage : String :=
  "usage: chordbind [-h] [--log-level LEVEL] [--log-file PATH] [--log-format json|text] "
    ++ "check EXPR ... | eval EXPR [--active NAME ...] | aliases [--category NAME] | ambiguities\n"

def parentOf (file : String) : Option String :=
  match (file.toList.reverse.dropWhile (· != '/')).drop 1 with
  | [] => none
  | reversed => some (String.ofList reversed.reverse)

def appendLines (file : String) (lines : List String) : IO Unit := do
  match parentOf file with
  | some parent => IO.FS.createDirAll parent
  | none => pure ()
  let handle ← IO.FS.Handle.mk file .append
  handle.putStr (String.join (lines.map (· ++ "\n")))

def deliver (r : Command.Result) : IO Unit := do
  IO.print r.output
  for line in r.log.console do IO.eprintln line
  for (file, lines) in r.log.files do appendLines file lines

end InputChords.Main

def main (words : List String) : IO UInt32 := do
  let env ← InputChords.Main.environment
  let stamp ← InputChords.Main.stamp
  match InputChords.Command.run env stamp .ready .start words with
  | .ok r =>
    InputChords.Main.deliver r
    return r.status.toUInt32
  | .error (.stop .help) =>
    IO.print InputChords.Main.usage
    return 0
  | .error (.stop .usage) =>
    IO.eprint InputChords.Main.usage
    return 2
  | .error (.settings fault) =>
    IO.eprintln fault.message
    return 1
  | .error (.log fault) =>
    IO.eprintln fault.message
    return 1
