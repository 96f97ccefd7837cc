/-
  HandleBridge.Wrapper — the objects that stand for toolkit objects on our side.

  An item is plain or a grid cell; a grid cell carries its row's data until it is
  invalidated. A probe is the least that a registry can track: it has an id and a
  handle, and tells the program when it is notified and (unless it is `bare`)
  invalidated.
-/
import HandleBridge.Toolkit
import HandleBridge.Registry

namespace HandleBridge

/-- The data that a grid cell may carry. -/
inductive RowData where
  | number (n : UInt32)
  | text (s : String)
  | row (n : Nat)
  | unit
  deriving DecidableEq, Repr

inductive WrapperKind where
  | plain
  | grid (data : Option RowData)
  | probe (name : String) (bare : Bool)
  deriving DecidableEq, Repr

structure Wrapper where
  id : ItemId
  /-- Null while unbound and once deleted. -/
  handle : Handle
  kind : WrapperKind
  /-- The handlers of the item's deletion, in the order in which they were added. -/
  deleted : List String
  /-- The content last set into each part through this wrapper. -/
  contents : Table String Handle

namespace Wrapper

def fresh (id : ItemId) (kind : WrapperKind) : Wrapper := ⟨id, .null, kind, [], ∅⟩

/-- The registry that tracks wrappers of this kind. -/
def space (w : Wrapper) : Space :=
  match w.kind with
  | .probe .. => .bare
  | _ => .items

def isGrid (w : Wrapper) : Bool :=
  match w.kind with
  | .grid _ => true
  | _ => false

def data (w : Wrapper) : Option RowData :=
  match w.kind with
  | .grid data => data
  | _ => none

/-- The part cache knows the part without a name by this name. -/
def defaultPart : String := "__default__"

def cacheKey (part : Part) : String := part.getD defaultPart

def partContent (w : Wrapper) (part : Part) : Option Handle := w.contents.get? (cacheKey part)

/-- What invalidation clears: a grid cell's data and the part cache. -/
def cleared (w : Wrapper) : Wrapper :=
  { w with
    kind := match w.kind with
      | .grid _ => .grid none
      | k => k
    contents := ∅ }

def debug (w : Wrapper) : String :=
  "ItemObject \x7b id: " ++ w.id.debug ++ ", handle: " ++ w.handle.debug ++ " \x7d"

end Wrapper

end HandleBridge
