/-
  HandleBridge.Toolkit — the widget toolkit on the other side of the boundary.

  The toolkit owns items and plain objects, both named by handles. Each item has one
  delete slot, whose callback is due once, when the item is destroyed; destroying an
  object drops its signal registrations. In `synchronous` mode a delete is carried out
  inside the call, in `deferred` mode it is queued until the queue is flushed.

  Here are the state changes that run no callback. Where a callback is due, the
  function says which (`destroy?`, `listeners`); running it is the caller's part.
  `NativeCall` lists the calls that cross the boundary from our side; `apply` is the
  effect of one, `complaint` the log record that it leaves.
-/
import HandleBridge.Table
import HandleBridge.Callback
import HandleBridge.Record

namespace HandleBridge

inductive DeleteMode where
  | synchronous
  | deferred
  deriving DecidableEq, Repr

def DeleteMode.name : DeleteMode → String
  | .synchronous => "Synchronous"
  | .deferred => "Deferred"

/-- A part of an item: named, or the one without a name. -/
abbrev Part := Option String

/-- The toolkit knows the part without a name by the empty name. -/
def partKey (part : Part) : String := part.getD ""

structure NativeItem where
  disabled : Bool
  selected : Bool
  updates : UInt32
  texts : Table String String
  contents : Table String Handle
  deleteSlot : Option DeleteCallback

/-- A new item: enabled, not selected, with no text and no content. -/
def NativeItem.fresh : NativeItem := ⟨false, false, 0, ∅, ∅, none⟩

structure Registration where
  object : Handle
  event : String
  callback : SignalCallback
  deriving DecidableEq, Repr

structure Toolkit where
  mode : DeleteMode
  nextHandle : UInt64
  items : Table Handle NativeItem
  objects : List Handle
  destroyed : List Handle
  registrations : List Registration
  pending : List Handle
  calls : Nat

/-- A call across the boundary; the first argument is the object it is about. -/
inductive NativeCall where
  | itemDel (item : Handle)
  | itemDelCbSet (item : Handle) (callback : Option DeleteCallback)
  | disabledGet (item : Handle)
  | disabledSet (item : Handle) (disabled : Bool)
  | partTextSet (item : Handle) (part : Part) (text : String)
  | partTextGet (item : Handle) (part : Part)
  | partContentSet (item : Handle) (part : Part) (content : Handle)
  | partContentUnset (item : Handle) (part : Part)
  | objectDel (object : Handle)
  | selectedGet (item : Handle)
  | selectedSet (item : Handle) (selected : Bool)
  | update (item : Handle)
  | callbackAdd (object : Handle) (event : String) (callback : SignalCallback)
  | callbackDel (object : Handle) (event : String) (callback : SignalCallback)
  deriving DecidableEq, Repr

namespace Toolkit

def firstHandle : UInt64 := 0x1000

def handleStride : UInt64 := 0x10

def start (mode : DeleteMode) : Toolkit := ⟨mode, firstHandle, ∅, [], [], [], [], 0⟩

/-! ## Objects coming and going -/

/-- The handle that the next object made gets. -/
def freshHandle (t : Toolkit) : Handle := ⟨t.nextHandle⟩

def advance (t : Toolkit) : Toolkit := { t with nextHandle := t.nextHandle + handleStride }

/-- Makes `h` an item, new unless it is one already. -/
def adopt (t : Toolkit) (h : Handle) : Toolkit :=
  { t with
    destroyed := t.destroyed.filter (· ≠ h)
    items := if t.items.contains h then t.items else t.items.insert h .fresh }

def createItem (t : Toolkit) : Toolkit := t.advance.adopt t.freshHandle

def addHandle (h : Handle) (hs : List Handle) : List Handle := if h ∈ hs then hs else h :: hs

def createObject (t : Toolkit) : Toolkit :=
  { t.advance with objects := addHandle t.freshHandle t.objects }

def dropRegistrations (t : Toolkit) (object : Handle) : Toolkit :=
  { t with registrations := t.registrations.filter (·.object ≠ object) }

/-- Destroys the item `h` and gives the content of its delete slot, which is due to
    run. The item is gone from the items, the registrations and the queue by then.
    Nothing is given for a handle that is no item. -/
def destroy? (t : Toolkit) (h : Handle) : Option (Toolkit × Option DeleteCallback) :=
  match t.items.get? h with
  | none => none
  | some item =>
    some ({ t.dropRegistrations h with
            items := t.items.erase h
            destroyed := addHandle h t.destroyed
            pending := t.pending.filter (· ≠ h) },
          item.deleteSlot)

/-- Takes the whole queue of pending deletes out of the toolkit. -/
def takePending (t : Toolkit) : Toolkit := { t with pending := [] }

/-! ## What can be seen -/

def isAlive (t : Toolkit) (h : Handle) : Bool := t.items.contains h || decide (h ∈ t.objects)

def wasDestroyed (t : Toolkit) (h : Handle) : Bool := decide (h ∈ t.destroyed)

def deleteSlot (t : Toolkit) (h : Handle) : Option DeleteCallback := (t.items.get? h).bind (·.deleteSlot)

def updateCount (t : Toolkit) (h : Handle) : Nat := ((t.items.get? h).map (·.updates.toNat)).getD 0

/-- The callbacks registered for a signal, in order of registration. -/
def listeners (t : Toolkit) (object : Handle) (event : String) : List SignalCallback :=
  (t.registrations.filter fun r => r.object = object ∧ r.event = event).map (·.callback)

def disabled (t : Toolkit) (h : Handle) : Bool := ((t.items.get? h).map (·.disabled)).getD false

def selected (t : Toolkit) (h : Handle) : Bool := ((t.items.get? h).map (·.selected)).getD false

def partText (t : Toolkit) (h : Handle) (part : Part) : Option String :=
  (t.items.get? h).bind (·.texts.get? (partKey part))

/-- The content of a part, null when there is none. -/
def partContent (t : Toolkit) (h : Handle) (part : Part) : Handle :=
  ((t.items.get? h).bind (·.contents.get? (partKey part))).getD .null

/-! ## Calls across the boundary -/

def modifyItem (t : Toolkit) (h : Handle) (f : NativeItem → NativeItem) : Toolkit :=
  { t with items := t.items.modify h f }

/-- Drops the first element that satisfies `p`. -/
def dropFirst {α : Type} (p : α → Bool) : List α → List α
  | [] => []
  | a :: as => if p a then as else a :: dropFirst p as

/-- The effect of a call, without the callbacks that it makes due: in synchronous mode
    `itemDel` leaves the destruction to the caller. -/
def effect (t : Toolkit) : NativeCall → Toolkit
  | .itemDel h =>
    match t.mode with
    | .synchronous => t
    | .deferred =>
      if t.items.contains h ∧ h ∉ t.pending then { t with pending := t.pending ++ [h] } else t
  | .itemDelCbSet h cb => t.modifyItem h ({ · with deleteSlot := cb })
  | .disabledSet h v => t.modifyItem h ({ · with disabled := v })
  | .partTextSet h part text =>
    t.modifyItem h fun i => { i with texts := i.texts.insert (partKey part) text }
  | .partContentSet h part content =>
    t.modifyItem h fun i => { i with contents := i.contents.insert (partKey part) content }
  | .partContentUnset h part =>
    t.modifyItem h fun i => { i with contents := i.contents.erase (partKey part) }
  | .objectDel h =>
    if h ∈ t.objects then
      { t.dropRegistrations h with
        objects := t.objects.filter (· ≠ h)
        destroyed := addHandle h t.destroyed }
    else t
  | .selectedSet h v => t.modifyItem h ({ · with selected := v })
  | .update h => t.modifyItem h fun i => { i with updates := i.updates + 1 }
  | .callbackAdd object event cb => { t with registrations := t.registrations ++ [⟨object, event, cb⟩] }
  | .callbackDel object event cb =>
    { t with registrations := dropFirst (fun r => decide (r = ⟨object, event, cb⟩)) t.registrations }
  | .disabledGet _ | .partTextGet .. | .selectedGet _ => t

/-- The effect of a call, which is counted as well. -/
def apply (t : Toolkit) (c : NativeCall) : Toolkit := { t.effect c with calls := t.calls + 1 }

def unknownItem? (t : Toolkit) (h : Handle) : Option Record :=
  if t.items.contains h then none else some (.unknownItem h)

/-- The record that a call leaves because what it names is not there. -/
def complaint (t : Toolkit) : NativeCall → Option Record
  | .itemDel _ | .callbackAdd .. => none
  | .objectDel h => if h ∈ t.objects then none else some (.unknownObject h)
  | .callbackDel object event cb =>
    if ⟨object, event, cb⟩ ∈ t.registrations then none else some (.noRegistration object event)
  | .itemDelCbSet h _ | .disabledGet h | .disabledSet h _ | .partTextSet h _ _ | .partTextGet h _
  | .partContentSet h _ _ | .partContentUnset h _ | .selectedGet h | .selectedSet h _
  | .update h => t.unknownItem? h

end Toolkit

end HandleBridge
