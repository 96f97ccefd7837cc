/-
  HandleBridge.Registry — from handles and ids back to wrappers.

  A registry holds two tables: by id, the wrapper and the handle it is bound to (null
  when it is reachable by id only), and by handle, the id. It also holds the handles
  whose deletion is being reported, so that a report for one of them in the meantime
  is ignored. It refers to wrappers without keeping them; whether a wrapper is still
  there is the caller's to know (`live`).

  Here are the changes to the tables. The calls to the toolkit that go with them, and
  the wrapper code that runs during a deletion, are in `World` and `Machine`.
-/
import HandleBridge.Table
import HandleBridge.Handle

namespace HandleBridge

/-- A wrapper, by the serial number of the object itself. -/
structure Ref where
  serial : Nat
  deriving DecidableEq, Repr, Inhabited

structure Entry where
  wrapper : Ref
  handle : Handle
  deriving DecidableEq, Repr

structure Registry where
  byId : Table ItemId Entry
  byHandle : Table Handle ItemId
  dying : List Handle
  nextId : Nat

namespace Registry

def empty : Registry := ⟨∅, ∅, [], 0⟩

/-- The next id, or nothing when all have been given out. -/
def allocate? (r : Registry) : Option (ItemId × Registry) :=
  if r.nextId < ItemId.bound then some (⟨r.nextId⟩, { r with nextId := r.nextId + 1 }) else none

/-- The handle that `id` is bound to, null when it has no entry. -/
def handleOf (r : Registry) (id : ItemId) : Handle := ((r.byId.get? id).map (·.handle)).getD .null

/-- The wrapper that the entry of `id` refers to, if it is still there. -/
def lookupId (live : Ref → Bool) (r : Registry) (id : ItemId) : Option Ref :=
  match r.byId.get? id with
  | some e => if live e.wrapper then some e.wrapper else none
  | none => none

/-- The wrapper that owns `h`, if it is still there. -/
def lookupHandle (live : Ref → Bool) (r : Registry) (h : Handle) : Option Ref :=
  match r.byHandle.get? h with
  | some id => r.lookupId live id
  | none => none

/-- The id of another wrapper, still there, that owns `h`: what keeps `id` from having it. -/
def conflict? (live : Ref → Bool) (r : Registry) (id : ItemId) (h : Handle) : Option ItemId :=
  if h.isNull then none
  else match r.byHandle.get? h with
    | some owner => if owner ≠ id ∧ (r.lookupId live owner).isSome then some owner else none
    | none => none

/-- Whether the entry of `id` is there and holds `h` already. -/
def isBoundTo (r : Registry) (id : ItemId) (h : Handle) : Bool :=
  match r.byId.get? id with
  | some e => decide (e.handle = h)
  | none => false

/-- Drops the entry for `h` by handle if it is the one of `id`. -/
def unmap (r : Registry) (h : Handle) (id : ItemId) : Registry :=
  if r.byHandle.get? h = some id then { r with byHandle := r.byHandle.erase h } else r

/-- Moves `id` from the handle it has to `h`. An owner of `h` that is no longer there
    leaves the tables. -/
def bind (r : Registry) (id : ItemId) (wrapper : Ref) (h : Handle) : Registry :=
  let previous := r.handleOf id
  let r := if previous.isNull then r else r.unmap previous id
  let r := { r with byId := r.byId.insert id ⟨wrapper, h⟩ }
  if h.isNull then r
  else
    let r' := { r with byHandle := r.byHandle.insert h id }
    match r.byHandle.get? h with
    | some stale => if stale ≠ id then { r' with byId := r'.byId.erase stale } else r'
    | none => r'

/-- Drops what is held for `id`. -/
def forget (r : Registry) (id : ItemId) : Registry :=
  match r.byId.get? id with
  | some e => { r with byId := r.byId.erase id }.unmap e.handle id
  | none => r

def startDying (r : Registry) (h : Handle) : Registry := { r with dying := h :: r.dying }

/-- Whether `id` has an entry that holds a handle other than `h`. -/
def isElsewhere (r : Registry) (id : ItemId) (h : Handle) : Bool :=
  match r.byId.get? id with
  | some e => decide (e.handle ≠ h)
  | none => false

/-- The end of the deletion of `h`, which belonged to `id` when it began: the pair leaves
    the tables, and so does `id` unless it has been bound elsewhere meanwhile. -/
def endDying (r : Registry) (h : Handle) (id : ItemId) : Registry :=
  let r := { r with dying := r.dying.filter (· ≠ h) }.unmap h id
  if r.isElsewhere id h then r else { r with byId := r.byId.erase id }

end Registry

end HandleBridge
