/-
  HandleBridge.CommandLine — the program: what it prints, and how it ends.

  The `features` command says which features are supported, the `simulate` command runs
  the simulation and prints its report. Both start from the configuration. The program
  ends with 0 when all went well, with 1 when something could not be done, and with 2
  when the command line is wrong.
-/
import HandleBridge.CommandLine.Arguments
import HandleBridge.Config.Load
import HandleBridge.Simulation

namespace HandleBridge.CommandLine

/-- How a run ends: with a code, log records, and the texts printed. -/
structure Outcome where
  code : UInt8
  log : List Record
  out : String
  err : String

def printed (text : String) : Outcome := ⟨0, [], text, ""⟩

def failed (message : String) : Outcome := ⟨1, [], "", "Error: " ++ message ++ "\n"⟩

def misused : Outcome := ⟨2, [], "", "error: wrong arguments\n\nFor more information, try '--help'.\n"⟩

def lines (ls : List String) : String := String.join (ls.map (· ++ "\n"))

def padded (width : Nat) (s : String) : String := s ++ String.ofList (List.replicate (width - s.length) ' ')

def version : String := "tether 0.1.0\n"

def commonHelp : List String :=
  [ "  -v, --verbose          Enable verbose output",
    "  -c, --config <CONFIG>  Config file (defaults to ./tether.toml when present)" ]

def helpLine : String := "  -h, --help             Print help"

def help : Topic → String
  | .program => lines <|
    [ "Tether native bridge tools",
      "",
      "Usage: tether [OPTIONS] <COMMAND>",
      "",
      "Commands:",
      "  features  Report whether feature keys are supported",
      "  simulate  Run a headless item lifecycle simulation",
      "  help      Print this message or the help of the given subcommand(s)",
      "",
      "Options:" ] ++ commonHelp ++ [helpLine, "  -V, --version          Print version"]
  | .features => lines <|
    [ "Report whether feature keys are supported",
      "",
      "Usage: tether features [OPTIONS] [KEYS]...",
      "",
      "Arguments:",
      "  [KEYS]...  Feature keys to query (defaults to the known multimedia keys)",
      "",
      "Options:" ] ++ commonHelp ++ [helpLine]
  | .simulate => lines <|
    [ "Run a headless item lifecycle simulation",
      "",
      "Usage: tether simulate [OPTIONS]",
      "",
      "Options:",
      "  -i, --items <ITEMS>    Number of grid items (overrides config)" ] ++ commonHelp ++
    [ "      --deferred         Queue native deletes until the end of the run",
      helpLine ]
  | .help => lines
    [ "Print this message or the help of the given subcommand(s)",
      "",
      "Usage: tether help [COMMAND]...",
      "",
      "Arguments:",
      "  [COMMAND]...  Print help for the subcommand(s)" ]

/-! ## The commands -/

def featureLine (features : Features) (key : String) : String :=
  padded 13 (if features.isSupported key then "supported" else "unsupported") ++ " " ++ key

/-- Without keys, the known ones are asked for. -/
def runFeatures (c : Config) (keys : List String) : Outcome :=
  let keys := if keys.isEmpty then Features.known else keys
  ⟨0, keys.map c.features.query, lines (keys.map (featureLine c.features)), ""⟩

def reportLine (label : String) (n : Nat) : String := padded 20 label ++ " " ++ toString n

def reportText (r : Report) : String :=
  lines
    [ reportLine "created" r.created,
      reportLine "selections" r.selections,
      reportLine "deleted (explicit)" r.deletedExplicitly,
      reportLine "destroyed (native)" r.destroyedNatively,
      reportLine "deleted events" r.deletedNotifications,
      reportLine "remaining items" r.remainingItems,
      reportLine "remaining signals" r.remainingRegistrations ]

/-- A simulation that leaves something behind has failed. -/
def runSimulation (c : Config) (items : Option Nat) (deferred : Bool) : Outcome :=
  let mode := if deferred then .deferred else c.mode
  match Simulation.run (items.getD c.items) mode with
  | .error e => failed e.message
  | .ok (r, log) =>
    if r.remainingItems ≠ 0 ∨ r.remainingRegistrations ≠ 0 then
      { failed "simulation left live bookkeeping behind" with log, out := reportText r }
    else ⟨0, log, reportText r, ""⟩

/-! ## The program -/

/-- Runs the program in the directory `dir`, with the files that `look` finds. -/
def run (look : String → Found) (dir : String) (words : List String) : Outcome :=
  match Request.ofWords words with
  | .misuse => misused
  | .version => printed version
  | .help topic => printed (help topic)
  | .run i =>
    match Config.load look i.config dir with
    | .error e => failed e.message
    | .ok c =>
      match i.command with
      | .features keys => runFeatures c keys
      | .simulate items deferred => runSimulation c items deferred

/-- Whether a record is shown by a program that was asked to be verbose. -/
def isShown (r : Record) : Bool := r.level != .trace

def recordLine (r : Record) : String :=
  padded 5 r.level.name ++ " " ++ String.intercalate " " (r.message :: r.fields.map fun (k, v) => k ++ "=" ++ v)

/-- The log lines of a run, for a program that was asked to be verbose. -/
def logText (words : List String) (o : Outcome) : String :=
  match Request.ofWords words with
  | .run i => if i.verbose then lines ((o.log.filter isShown).map recordLine) else ""
  | _ => ""

/-- The file that a run reads, if it comes to that. -/
def configPath? (dir : String) (words : List String) : Option String :=
  match Request.ofWords words with
  | .run i => some (i.config.getD (Config.join dir Config.fileName))
  | _ => none

end HandleBridge.CommandLine
