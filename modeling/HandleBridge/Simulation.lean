/-
  HandleBridge.Simulation — a grid whose rows are selected and deleted.

  Rows are made, each bound to an item of its own and watched for its deletion; every
  row is selected once. Then rows of even number are deleted by us and rows of odd
  number are destroyed by the toolkit, and the first row's handle is selected once more:
  with deferred deletes its row is still found, otherwise nothing is. The report counts
  what happened and what is left, which should be nothing.
-/
import HandleBridge.Machine

namespace HandleBridge.Simulation

def gridName : String := "grid"

def signalName : String := "selected"

def rowName (i : Nat) : String := "row " ++ toString i

/-! ## The handlers -/

/-- The row's number, where a wrapper is a row that still has it. -/
def rowOf (w : World) (item : Ref) : Option Nat :=
  match (w.wrappers.get? item).bind (·.data) with
  | some (.row n) => some n
  | _ => none

/-- A row that is selected is marked so; a selection of anything else is noted. -/
def selected (sender : Sender) (handle : Handle) : Option Ref → List (World → Op)
  | some item =>
    [ fun w => .note (.rowSelected sender.name (w.idOf item) handle (rowOf w item)),
      fun _ => .setSelected item true,
      fun w => match w.answer with
        | .failed (.bind e) => .note (.rowNotMarked (w.idOf item) e)
        | a => .give a ]
  | none => [fun _ => .note (.unknownSelected sender.name handle)]

def body : Call → List (World → Op)
  | .itemSignal _ sender handle item => selected sender handle item
  | .deleted _ item => [fun w => .note (.rowDeleted (w.idOf item))]
  | _ => []

/-- No handler of the simulation makes another one due. -/
def program : Program := ⟨1, body⟩

/-! ## The run -/

/-- Performs operations one after the other, up to the first that is refused. -/
def attempt : List (World → Op) → World → Except BindError World
  | [], w => .ok w
  | choose :: rest, w =>
    let w := program.perform choose w
    match w.answer with
    | .failed (.bind e) => .error e
    | _ => attempt rest w

/-- Does something with the wrapper that has a name. -/
def withItem (name : String) (f : World → Ref → Op) (w : World) : Op :=
  match w.itemNames.get? name with
  | some ref => f w ref
  | none => .give .none

/-- Makes the grid and the bridge that listens to its selections. -/
def opening : List (World → Op) :=
  [ fun _ => .createObject,
    fun _ => .newSender gridName,
    fun w => match w.senders.get? gridName with
      | some s => .newBridge signalName (.fresh s ⟨Toolkit.firstHandle⟩ signalName .item)
      | none => .give .none,
    fun w => match w.bridges.get? signalName with
      | some b => .subscribe signalName b "on selected"
      | none => .give .none ]

/-- Makes a row, on the item that is made for it. -/
def makeRow (i : Nat) : List (World → Op) :=
  [ fun _ => .createItem,
    fun w => match w.answer with
      | .handle h => .newGrid h (.row i) (some (rowName i))
      | a => .give a,
    withItem (rowName i) fun _ ref => .setText ref (some "elm.text") ("Row " ++ toString i),
    withItem (rowName i) fun _ ref => .onDeleted ref "on deleted" ]

def note (r : Record) : World → Op := fun _ => .note r

/-- The toolkit says that the item with a handle has been selected in the grid. -/
def select (h : Handle) : World → Op := fun _ => .fire ⟨Toolkit.firstHandle⟩ signalName ⟨h.raw⟩

def handleOfRow (w : World) (i : Nat) : Handle := ((w.itemNames.get? (rowName i)).map w.handleOf).getD .null

/-- The world while rows are torn down, and how many went which way. -/
structure TearDown where
  world : World
  deleted : Nat
  destroyed : Nat

/-- Tears one row down: deletes it, or has the toolkit destroy it. -/
def tearDownRow (s : TearDown) (i : Nat) : Except BindError TearDown := do
  if i % 2 = 0 then
    let w ← attempt [withItem (rowName i) fun _ ref => .delete ref] s.world
    return { s with world := w, deleted := s.deleted + 1 }
  else
    let w ← attempt [withItem (rowName i) fun w ref => .destroy (w.handleOf ref)] s.world
    return { s with world := w, destroyed := s.destroyed + (if w.answer = .flag true then 1 else 0) }

/-- Flushes the queue, if deletes are queued, and says how many were carried out. -/
def flush (mode : DeleteMode) : List (World → Op) :=
  match mode with
  | .synchronous => []
  | .deferred =>
    [ fun _ => .flush,
      fun w => match w.answer with
        | .count n => .note (.deletesFlushed n)
        | a => .give a ]

def closing : List (World → Op) :=
  [ fun w => match w.bridges.get? signalName with
      | some b => .shutdown signalName b
      | none => .give .none ]

/-- The log records of a history, oldest first. -/
def records (w : World) : List Record :=
  w.history.reverse.filterMap fun
    | .log r => some r
    | _ => none

def isSelection : Record → Bool
  | .rowSelected .. => true
  | _ => false

def isDeletion : Record → Bool
  | .rowDeleted _ => true
  | _ => false

/-- What the run came to. -/
def report (n : Nat) (s : TearDown) (w : World) : Report where
  created := n
  selections := (records w).countP isSelection
  deletedNotifications := (records w).countP isDeletion
  deletedExplicitly := s.deleted
  destroyedNatively := s.destroyed
  remainingItems := w.itemRegistry.byId.size
  remainingRegistrations := w.toolkit.registrations.length

/-- Runs the simulation with `n` rows, and gives its report and its log records. -/
def run (n : Nat) (mode : DeleteMode) : Except BindError (Report × List Record) := do
  let rows := List.range n
  let w ← attempt (opening ++ rows.flatMap makeRow ++ [note (.itemsCreated n)]) (.start mode)
  let handles := rows.map (handleOfRow w)
  let w ← attempt (handles.map select) w
  let s ← rows.foldlM tearDownRow ⟨w, 0, 0⟩
  let w ← attempt ((handles.take 1).map select ++ flush mode ++ closing) s.world
  let report := report n s w
  let w ← attempt [note (.simulationFinished report)] w
  return (report, records w)

end HandleBridge.Simulation
