/-
  HandleBridge.History — what operations answer, and what is seen to happen meanwhile.

  An `Event` is one thing that happened: a call across the toolkit boundary, a log
  record, or a turn of the program's own code (`Call`). The history of a world keeps
  them all, in order; what is shown of it is chosen later.
-/
import HandleBridge.Wrapper
import HandleBridge.Bridge

namespace HandleBridge

/-! ## Calls of the program's code -/

/-- A handler of the program being called, with what it is given. -/
inductive Call where
  | deleted (handler : String) (item : Ref)
  | unitSignal (handler : String) (sender : Sender)
  | rawSignal (handler : String) (sender : Sender) (object : Handle) (info : EventInfo)
  | itemSignal (handler : String) (sender : Sender) (handle : Handle) (item : Option Ref)
  | toolkitSignal (handler : String) (object : Handle) (info : EventInfo)
  | toolkitDelete (handler : String) (handle : Handle)
  | probeDeleted (handler : String) (probe : Ref)
  | probeInvalidated (handler : String) (probe : Ref)
  deriving DecidableEq, Repr

def Call.handler : Call → String
  | .deleted n _ | .unitSignal n _ | .rawSignal n .. | .itemSignal n .. | .toolkitSignal n ..
  | .toolkitDelete n _ | .probeDeleted n _ | .probeInvalidated n _ => n

/-- What is shown of an item that was looked up. -/
structure Description where
  id : ItemId
  handle : Handle
  isGrid : Bool
  deriving DecidableEq, Repr

/-- What is shown of the arguments of a call. -/
inductive Args where
  | item (id : ItemId) (handle : Handle)
  | sender (name : String)
  | raw (sender : String) (object : Handle) (info : EventInfo)
  | found (sender : String) (handle : Handle) (item : Option Description)
  | signal (object : Handle) (info : EventInfo)
  | handle (handle : Handle)
  | probe (id : ItemId) (handle : Handle)
  deriving DecidableEq, Repr

/-! ## Answers -/

/-- Why a step comes to nothing. -/
inductive Failure where
  | bind (cause : BindError)
  | noSuch (what : String)
  | notGrid
  | badField (name : String)
  | unknownStep (name : String)
  | unknownKind (name : String)
  deriving DecidableEq, Repr

inductive Answer where
  | none
  | flag (b : Bool)
  | count (n : Nat)
  | handle (h : Handle)
  | maybeHandle (h : Option Handle)
  | text (s : Option String)
  | mode (m : DeleteMode)
  | id (i : ItemId)
  | size (n : Nat)
  | item (id : ItemId) (handle : Handle)
  | found (d : Option Description)
  | probe (p : Option (ItemId × Handle))
  | data (d : Option RowData)
  | kind (isGrid : Bool)
  | bridge (b : Bridge) (sender : Option String)
  | failed (f : Failure)
  deriving DecidableEq, Repr

/-! ## Events -/

/-- The verb of a step as it is written. -/
inductive Verb where
  | word (name : String)
  /-- What stands in the place of a verb and is none, or that nothing does. -/
  | other (written : String)
  deriving DecidableEq, Repr

inductive Event where
  /-- A call across the boundary, noted before it is carried out. -/
  | native (c : NativeCall)
  | log (r : Record)
  | called (handler : String) (args : Args)
  /-- A handler was due while as many as allowed were in progress. -/
  | limited (handler : String)
  | ended (handler : String)
  /-- A step of a handler, and what it came to. -/
  | did (verb : Verb) (answer : Answer)
  | parsed (object : Handle) (info : EventInfo)
  | released (probe : String)
  deriving DecidableEq, Repr

end HandleBridge
