/-
  HandleBridge.Main — the program, with its files and streams.
-/
import HandleBridge.CommandLine

open HandleBridge

/-- What is found at a path of the file system. -/
def lookUp (path : String) : IO Found := do
  try
    let bytes ← IO.FS.readBinFile path
    match String.fromUTF8? bytes with
    | some s => return .text s
    | none => return .unreadable
  catch e =>
    match e with
    | .noFileOrDirectory .. => return .nothing
    | _ => return .unreadable

def main (words : List String) : IO UInt32 := do
  let dir := (← IO.currentDir).toString
  let found ← match CommandLine.configPath? dir words with
    | some path => lookUp path
    | none => pure .nothing
  let outcome := CommandLine.run (fun _ => found) dir words
  IO.print (CommandLine.logText words outcome)
  IO.print outcome.out
  IO.eprint outcome.err
  return outcome.code.toUInt32
