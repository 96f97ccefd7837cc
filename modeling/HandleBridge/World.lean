/-
  HandleBridge.World — the whole state, and the steps it takes at once.

  A world is one toolkit, the item registry and the bare registry over it, the wrappers
  that are still there, the program's names for them, senders and bridges, and the
  history of what happened. A wrapper is there as long as something holds it: one of the
  program's names, or an operation in progress (a pin). The item registry is there as
  long as the program holds its context, an item is there, or an operation holds it.

  The functions here are the changes during which no code of the program runs. Where
  such code is due, `Machine` says what comes next.
-/
import HandleBridge.History

namespace HandleBridge

/-- What an operation in progress holds. -/
inductive Pin where
  | wrapper (ref : Ref)
  | registry (space : Space)
  | sender (s : Sender)
  deriving DecidableEq, Repr

structure World where
  toolkit : Toolkit
  itemRegistry : Registry
  bareRegistry : Registry
  wrappers : Table Ref Wrapper
  nextRef : Nat
  itemNames : Table String Ref
  probeNames : Table String Ref
  /-- Whether the program still holds the items' context, and the bare registry. -/
  holdsContext : Bool
  holdsBare : Bool
  senders : Table String Sender
  nextSender : Nat
  bridges : Table String Bridge
  nextTrampoline : Nat
  pins : List Pin
  /-- The calls of program code in progress, innermost first. -/
  running : List Call
  /-- For each flush in progress, innermost first, how many items it has destroyed. -/
  flushing : List Nat
  /-- What happened, newest first. -/
  history : List Event
  /-- What the operation that ended last came to. -/
  answer : Answer

namespace World

def start (mode : DeleteMode) : World where
  toolkit := .start mode
  itemRegistry := .empty
  bareRegistry := .empty
  wrappers := ∅
  nextRef := 0
  itemNames := ∅
  probeNames := ∅
  holdsContext := true
  holdsBare := true
  senders := ∅
  nextSender := 0
  bridges := ∅
  nextTrampoline := 0
  pins := []
  running := []
  flushing := []
  history := []
  answer := .none

/-! ## History, answer, registries -/

def emit (w : World) (e : Event) : World := { w with history := e :: w.history }

def log (w : World) (r : Record) : World := w.emit (.log r)

def answering (w : World) (a : Answer) : World := { w with answer := a }

def failing (w : World) (f : Failure) : World := w.answering (.failed f)

def registry (w : World) : Space → Registry
  | .items => w.itemRegistry
  | .bare => w.bareRegistry

def setRegistry (w : World) (space : Space) (r : Registry) : World :=
  match space with
  | .items => { w with itemRegistry := r }
  | .bare => { w with bareRegistry := r }

/-- Whether the program can still reach the registry itself. -/
def holds (w : World) : Space → Bool
  | .items => w.holdsContext
  | .bare => w.holdsBare

/-! ## Wrappers -/

def isLive (w : World) (ref : Ref) : Bool := w.wrappers.contains ref

def idOf (w : World) (ref : Ref) : ItemId := ((w.wrappers.get? ref).map (·.id)).getD ⟨0⟩

def handleOf (w : World) (ref : Ref) : Handle := ((w.wrappers.get? ref).map (·.handle)).getD .null

def spaceOf (w : World) (ref : Ref) : Space := ((w.wrappers.get? ref).map (·.space)).getD .items

def modifyWrapper (w : World) (ref : Ref) (f : Wrapper → Wrapper) : World :=
  { w with wrappers := w.wrappers.modify ref f }

def setHandle (w : World) (ref : Ref) (h : Handle) : World := w.modifyWrapper ref ({ · with handle := h })

/-- The reference that the next wrapper gets. -/
def freshRef (w : World) : Ref := ⟨w.nextRef⟩

def addWrapper (w : World) (x : Wrapper) : World :=
  { w with wrappers := w.wrappers.insert w.freshRef x, nextRef := w.nextRef + 1 }

def lookupId (w : World) (space : Space) (id : ItemId) : Option Ref :=
  (w.registry space).lookupId w.isLive id

def lookupHandle (w : World) (space : Space) (h : Handle) : Option Ref :=
  (w.registry space).lookupHandle w.isLive h

def describe (w : World) (ref : Ref) : Option Description :=
  (w.wrappers.get? ref).map fun x => ⟨x.id, x.handle, x.isGrid⟩

/-- The handle for a toolkit call, or the refusal of one. -/
def liveHandle (w : World) (ref : Ref) : Except BindError Handle :=
  if (w.handleOf ref).isNull then .error (.itemDeleted (w.idOf ref)) else .ok (w.handleOf ref)

/-! ## The toolkit -/

/-- A call as the toolkit carries it out, with the record that it leaves. -/
def callToolkit (w : World) (c : NativeCall) : World :=
  let w := match w.toolkit.complaint c with
    | some r => w.log r
    | none => w
  { w with toolkit := w.toolkit.apply c }

/-- A call across the boundary: noted, then carried out. -/
def native (w : World) (c : NativeCall) : World := (w.emit (.native c)).callToolkit c

/-! ## Binding -/

/-- Binds the wrapper to `h` in its registry and moves the registry's delete callback
    there. Refused, with nothing changed, while another wrapper owns `h`. -/
def register (w : World) (ref : Ref) (h : Handle) : World × Option BindError :=
  let space := w.spaceOf ref
  let id := w.idOf ref
  let r := w.registry space
  match r.conflict? w.isLive id h with
  | some owner => (w.log (.alreadyOwned h owner id), some (.ownershipConflict h owner id))
  | none =>
    if r.isBoundTo id h then (w.log (.alreadyBound id h), none)
    else
      let previous := r.handleOf id
      let w := if previous.isNull then w else w.native (.itemDelCbSet previous none)
      let w := w.setRegistry space ((w.registry space).bind id ref h)
      let w := if h.isNull then w else w.native (.itemDelCbSet h (some (.registry space)))
      (w.log (.registered id h previous), none)

/-- Registers the wrapper and, if that succeeds, gives it the handle. -/
def bind (w : World) (ref : Ref) (h : Handle) : World × Option BindError :=
  match w.register ref h with
  | (w, none) => (w.setHandle ref h, none)
  | refused => refused

/-- Drops what the registry holds for `id`, without a call to the toolkit. -/
def forget (w : World) (space : Space) (id : ItemId) : World :=
  -- It need not give up because the tables are in use: entries do not keep their wrappers, so no wrapper
  -- is freed, and no code of the program runs, while a registry reads or writes its tables.
  match (w.registry space).byId.get? id with
  | some e => (w.setRegistry space ((w.registry space).forget id)).log (.forgotten id e.handle)
  | none => w

/-! ## Holding and letting go -/

def isNamed (w : World) (ref : Ref) : Bool :=
  w.itemNames.values.contains ref || w.probeNames.values.contains ref

def isHeld (w : World) (ref : Ref) : Bool := w.isNamed ref || w.pins.contains (.wrapper ref)

/-- Frees the wrapper if nothing holds it any more; an item leaves the registry then. -/
def release (w : World) (ref : Ref) : World :=
  if w.isHeld ref then w
  else match w.wrappers.get? ref with
    | none => w
    | some x =>
      let w := { w with wrappers := w.wrappers.erase ref }
      match x.space with
      | .items => w.forget .items x.id
      | .bare => w

def pin (w : World) (p : Pin) : World := { w with pins := p :: w.pins }

def unpin (w : World) (p : Pin) : World :=
  let w := { w with pins := w.pins.erase p }
  match p with
  | .wrapper ref => w.release ref
  | _ => w

/-- Whether a registry is still there for the toolkit's callbacks to find. -/
def isThere (w : World) (space : Space) : Bool :=
  w.holds space || w.pins.contains (.registry space) ||
    match space with
    | .items => w.wrappers.values.any (·.space = .items)
    | .bare => false

def isSenderLive (w : World) (s : Sender) : Bool :=
  decide (w.senders.get? s.name = some s) || w.pins.contains (.sender s)

/-- Drops a name of an item. -/
def dropItemName (w : World) (name : String) : World :=
  match w.itemNames.get? name with
  | some ref => { w with itemNames := w.itemNames.erase name }.release ref
  | none => w

def dropProbeName (w : World) (name : String) : World :=
  match w.probeNames.get? name with
  | some ref => { w with probeNames := w.probeNames.erase name }.release ref
  | none => w

/-- Gives an item a name, and lets go of what had it. -/
def nameItem (w : World) (name : String) (ref : Ref) : World :=
  let old := w.itemNames.get? name
  let w := { w with itemNames := w.itemNames.insert name ref }
  match old with
  | some old => w.release old
  | none => w

def nameProbe (w : World) (name : String) (ref : Ref) : World :=
  let old := w.probeNames.get? name
  let w := { w with probeNames := w.probeNames.insert name ref }
  match old with
  | some old => w.release old
  | none => w

/-! ## Bridges -/

def setBridge (w : World) (name : String) (b : Bridge) : World :=
  { w with bridges := w.bridges.insert name b }

/-- Takes each of the trampolines back from the toolkit. -/
def unregister (w : World) (b : Bridge) (ts : List Trampoline) : World :=
  ts.foldl (fun w t => w.native (.callbackDel b.handle b.event (.trampoline t))) w

def subscribe (w : World) (name : String) (b : Bridge) (handler : String) : World :=
  match b.refusal? with
  | some e => w.failing (.bind e)
  | none =>
    let t := b.trampoline w.nextTrampoline handler
    let w := { w.setBridge name (b.addListener t) with nextTrampoline := w.nextTrampoline + 1 }
    let w := w.native (.callbackAdd b.handle b.event (.trampoline t))
    (w.log (.subscribed b.handle b.event)).answering .none

def unsubscribe (w : World) (name : String) (b : Bridge) (handler : String) : World :=
  let removed := b.listenersOf handler
  let w := (w.setBridge name (b.removeListeners handler)).unregister b removed
  (w.log (.unsubscribed b.handle b.event removed.length)).answering (.count removed.length)

/-- Takes back all that a bridge has registered, unless it was shut down before. -/
def closeBridge (w : World) (b : Bridge) : World :=
  if b.isShutDown then w
  else (w.unregister b b.listeners).log (.shutDown b.handle b.event b.listeners.length)

def shutdown (w : World) (name : String) (b : Bridge) : World :=
  (w.setBridge name b.closed).closeBridge b

/-- Forgets the listeners without a call to the toolkit. -/
def detach (w : World) (name : String) (b : Bridge) : World :=
  (w.setBridge name b.closed).log (.detached b.handle b.event b.listeners.length)

/-- Puts a new bridge under a name; the one that had it is closed. -/
def addBridge (w : World) (name : String) (b : Bridge) : World :=
  let old := w.bridges.get? name
  let w := w.setBridge name b
  match old with
  | some old => w.closeBridge old
  | none => w

def dropBridge (w : World) (name : String) : World :=
  match w.bridges.get? name with
  | some b => { w with bridges := w.bridges.erase name }.closeBridge b
  | none => w

/-! ## What is shown -/

/-- Entries by id, entries by handle and the next id of a registry that the program holds. -/
def stats (w : World) (space : Space) : Option (Nat × Nat × Nat) :=
  if w.holds space then
    let r := w.registry space
    some (r.byId.size, r.byHandle.size, r.nextId)
  else none

def argsOf (w : World) : Call → Args
  | .deleted _ item => .item (w.idOf item) (w.handleOf item)
  | .unitSignal _ s => .sender s.name
  | .rawSignal _ s object info => .raw s.name object info
  | .itemSignal _ s h item => .found s.name h (item.bind w.describe)
  | .toolkitSignal _ object info => .signal object info
  | .toolkitDelete _ h => .handle h
  | .probeDeleted _ p | .probeInvalidated _ p => .probe (w.idOf p) (w.handleOf p)

end World

end HandleBridge
