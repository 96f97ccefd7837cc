/-
  HandleBridge.Script — a program that drives the bridge, and the rows that it shows.

  A script has steps of its own and handlers, which are steps too: they run when the
  bridge or the toolkit calls the handler of that name. Each of the script's own steps
  gives one row: what it came to, what is held afterwards, and what happened meanwhile.
-/
import HandleBridge.Script.Step

namespace HandleBridge

structure Script where
  mode : DeleteMode
  /-- Whether rows show the calls across the boundary, and the log records. -/
  showsCalls : Bool
  showsLog : Bool
  handlers : Table String (List Step)
  steps : List Step

/-- Entries by id, entries by handle, and the next id of a registry. -/
abbrev Stats := Nat × Nat × Nat

structure Row where
  answer : Answer
  /-- Nothing for a registry that the program has let go of. -/
  itemStats : Option Stats
  bareStats : Option Stats
  /-- Calls across the boundary, and signal registrations, so far. -/
  calls : Nat
  registrations : Nat
  events : List Event

namespace Script

/-- How many calls of handlers may be in progress at once. -/
def nesting : Nat := 4

/-- What a handler does: its steps, each of which reports what it came to. -/
def body (s : Script) (c : Call) : List (World → Op) :=
  ((s.handlers.get? c.handler).getD []).flatMap fun step => [step.op, fun _ => .report step.verb]

def program (s : Script) : Program := ⟨nesting, s.body⟩

def shows (s : Script) : Event → Bool
  | .native _ => s.showsCalls
  | .log _ => s.showsLog
  | _ => true

/-- Runs one of the script's own steps, with a history of its own. -/
def perform (s : Script) (w : World) (step : Step) : World :=
  s.program.perform step.op { w with history := [] }

/-- What is shown after a step. -/
def row (s : Script) (w : World) : Row where
  answer := w.answer
  itemStats := w.stats .items
  bareStats := w.stats .bare
  calls := w.toolkit.calls
  registrations := w.toolkit.registrations.length
  events := w.history.reverse.filter s.shows

def rowsFrom (s : Script) (w : World) : List Step → List Row
  | [] => []
  | step :: steps =>
    let w := s.perform w step
    s.row w :: s.rowsFrom w steps

def rows (s : Script) : List Row := s.rowsFrom (.start s.mode) s.steps

end Script

end HandleBridge
