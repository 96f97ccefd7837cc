/-
  HandleBridge.Config.Load — finding a configuration among files.

  A configuration file is the one that is named, or else the one of the default name in
  a directory. A named file has to be there; without the default file the configuration
  is the default one.
-/
import HandleBridge.Config

namespace HandleBridge

/-- What is found at a path. -/
inductive Found where
  | nothing
  /-- A directory, or a file that is no text. -/
  | unreadable
  | text (s : String)
  deriving DecidableEq, Repr

inductive ConfigError where
  | notWritable
  | unreadable (path : String)
  | malformed (path : String)
  deriving DecidableEq, Repr

def ConfigError.message : ConfigError → String
  | .notWritable => "Failed to serialize config"
  | .unreadable path => "Failed to read " ++ path
  | .malformed path => "Failed to parse " ++ path

namespace Config

def fileName : String := "tether.toml"

/-- The path of a file in a directory. -/
def join (dir file : String) : String :=
  if dir.isEmpty || dir.endsWith "/" then dir ++ file else dir ++ "/" ++ file

/-- The configuration in the file at a path, which has to be there. -/
def ofFile (look : String → Found) (path : String) : Except ConfigError Config :=
  match look path with
  | .text s =>
    match parse? s with
    | some c => .ok c
    | none => .error (.malformed path)
  | _ => .error (.unreadable path)

/-- The configuration in the named file, or else in the default file of a directory. -/
def load (look : String → Found) (named : Option String) (dir : String) : Except ConfigError Config :=
  match named with
  | some path => ofFile look path
  | none =>
    let path := join dir fileName
    if look path = .nothing then .ok default else ofFile look path

def write (c : Config) : Except ConfigError String :=
  match c.toText? with
  | some s => .ok s
  | none => .error .notWritable

end Config

end HandleBridge
