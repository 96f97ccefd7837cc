/-
  HandleBridge.Handle — the tokens that cross the toolkit boundary.

  A `Handle` names an object that the toolkit owns; holding one keeps nothing alive.
  An `EventInfo` is the payload word of a signal. An `ItemId` names a wrapper on our
  side of the boundary and is never reused.
-/
import HandleBridge.Text.Hex

namespace HandleBridge

/-- A toolkit object, by its 64-bit token. -/
structure Handle where
  raw : UInt64
  deriving DecidableEq, Repr, Inhabited

namespace Handle

/-- The handle of no object. -/
def null : Handle := ⟨0⟩

def isNull (h : Handle) : Bool := h.raw == 0

/-- Through an address and back: the word is unchanged. -/
def ofAddress (a : UInt64) : Handle := ⟨a⟩

def toAddress (h : Handle) : UInt64 := h.raw

def display (h : Handle) : String := "0x" ++ Hex.render h.raw.toNat

def debug (h : Handle) : String := "NativeHandle(" ++ h.display ++ ")"

/-- Reads `0x` and one or more hexadecimal digits of a 64-bit number. -/
def ofText? (s : String) : Option Handle :=
  match s.toList with
  | '0' :: 'x' :: digits =>
    match Hex.value? digits with
    | some n => if n < UInt64.size then some ⟨n.toUInt64⟩ else none
    | none => none
  | _ => none

/-- Handles in ascending numeric order; equal ones keep their number. -/
def sort (hs : List Handle) : List Handle := hs.mergeSort fun a b => decide (a.raw ≤ b.raw)

end Handle

/-- The payload word of a signal. -/
structure EventInfo where
  raw : UInt64
  deriving DecidableEq, Repr, Inhabited

namespace EventInfo

/-- The payload of a signal that carries none. -/
def none : EventInfo := ⟨0⟩

def isNone (i : EventInfo) : Bool := i.raw == 0

def ofAddress (a : UInt64) : EventInfo := ⟨a⟩

def toAddress (i : EventInfo) : UInt64 := i.raw

/-- The payload read as an object's token. -/
def toHandle (i : EventInfo) : Handle := ⟨i.raw⟩

def display (i : EventInfo) : String := "0x" ++ Hex.render i.raw.toNat

def debug (i : EventInfo) : String := "EventInfo(" ++ i.display ++ ")"

end EventInfo

/-- A wrapper, by the number it was given when it was made. -/
structure ItemId where
  val : Nat
  deriving DecidableEq, Repr, Inhabited

namespace ItemId

/-- Ids are below this number. -/
def bound : Nat := UInt32.size - 1

def display (i : ItemId) : String := "#" ++ toString i.val

def debug (i : ItemId) : String := "ItemId(" ++ toString i.val ++ ")"

end ItemId

/-- Why an operation of the bridge is refused. -/
inductive BindError where
  | ownershipConflict (handle : Handle) (owner claimant : ItemId)
  | itemDeleted (id : ItemId)
  | nullHandle
  | eventShutDown (event : String)
  | idsExhausted
  deriving DecidableEq, Repr

namespace BindError

def message : BindError → String
  | .ownershipConflict h owner claimant =>
    "Native handle " ++ h.display ++ " is already owned by item " ++ owner.display ++
      ", cannot bind it to item " ++ claimant.display
  | .itemDeleted id => "Item " ++ id.display ++ " is deleted"
  | .nullHandle => "Operation requires a non-null native handle"
  | .eventShutDown event => "Event '" ++ event ++ "' has been shut down and accepts no new listeners"
  | .idsExhausted => "Item ids exhausted"

end BindError

end HandleBridge
