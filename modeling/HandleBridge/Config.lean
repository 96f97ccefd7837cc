/-
  HandleBridge.Config — the configuration, and its text.

  A configuration is a feature table and the defaults of the simulation. It is written
  as two TOML tables, the features in ascending order of their keys; that is possible
  exactly when the number of items is one of 63 bits. Read back, a text may leave out
  anything: what it does not say is as in the default configuration, and keys that are
  not known are ignored.
-/
import HandleBridge.Features
import HandleBridge.Toolkit
import HandleBridge.Toml.Document

namespace HandleBridge

structure Config where
  features : Features
  /-- How many items a simulation makes, and when their deletes are carried out. -/
  items : Nat
  mode : DeleteMode

namespace Config

def default : Config := ⟨∅, 3, .synchronous⟩

/-! ## Reading -/

open Toml (Value)

def modeText : DeleteMode → String
  | .synchronous => "synchronous"
  | .deferred => "deferred"

def modeOfText? (s : String) : Option DeleteMode :=
  if s = modeText .synchronous then some .synchronous
  else if s = modeText .deferred then some .deferred
  else none

def isEmptyCollection : Value → Bool
  | .array [] | .table _ [] | .tables [] => true
  | _ => false

/-- A mode is given by its name, or by a table whose one key is the name, with nothing in it. -/
def mode? : Value → Option DeleteMode
  | .string s => modeOfText? s
  | .table _ [(k, v)] => if isEmptyCollection v then modeOfText? k else none
  | _ => none

def items? : Value → Option Nat
  | .integer (.ofNat n) => some n
  | _ => none

/-- Reads a value that may be left out. -/
def orDefault {α : Type} (default : α) (read : Value → Option α) : Option Value → Option α
  | some v => read v
  | none => some default

/-- The simulation's defaults from the two values, where they are given. -/
def simulation? (items mode : Option Value) : Option (Nat × DeleteMode) := do
  return (← orDefault default.items items? items, ← orDefault default.mode mode? mode)

/-- The simulation's defaults: under their names, or as a list in order. A date says
    nothing about them. -/
def simulate? : Value → Option (Nat × DeleteMode)
  | .table _ es => simulation? (es.lookup "items") (es.lookup "delete_mode")
  | .array vs => simulation? vs[0]? vs[1]?
  | .tables rows =>
    let vs := rows.map (Value.table .header)
    simulation? vs[0]? vs[1]?
  | .moment _ => simulation? none none
  | _ => none

def feature? : String × Value → Option (String × Bool)
  | (k, .boolean b) => some (k, b)
  | _ => none

def features? : Value → Option Features
  | .table _ es => (es.mapM feature?).map Table.ofList
  | _ => none

def ofEntries? (es : Toml.Entries) : Option Config := do
  let features ← orDefault default.features features? (es.lookup "features")
  let (items, mode) ← orDefault (default.items, default.mode) simulate? (es.lookup "simulate")
  return ⟨features, items, mode⟩

/-- The configuration that a text gives. -/
def parse? (text : String) : Option Config := (Toml.parse? text.toList).bind ofEntries?

/-! ## Writing -/

def rowText (row : String × Bool) : List Char :=
  Toml.keyText row.1.toList ++ [' ', '=', ' '] ++ (toString row.2).toList ++ ['\n']

def text (c : Config) : List Char :=
  "[features]\n".toList ++ c.features.rows.flatMap rowText ++ "\n[simulate]\nitems = ".toList ++
    (toString c.items).toList ++ "\ndelete_mode = ".toList ++ Toml.basicOf (modeText c.mode).toList ++ ['\n']

/-- The greatest number that a configuration's text can hold. -/
def maxItems : Nat := Int64.maxValue.toInt.toNat

/-- The configuration as a text, if it can be written. -/
def toText? (c : Config) : Option String :=
  if c.items ≤ maxItems then some (String.ofList c.text) else none

end Config

end HandleBridge
