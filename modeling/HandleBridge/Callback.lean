/-
  HandleBridge.Callback — what the toolkit may be asked to call.

  A delete slot holds one callback: a registry's, or one of the program's. A signal
  registration holds a trampoline, made for one subscription of a bridge, or a callback
  of the program. Two callbacks are the same exactly when they are equal as values:
  trampolines carry a serial number that is given out once, and the program's callbacks
  are one per name.
-/
import HandleBridge.Handle

namespace HandleBridge

/-- The two registries of a world: the one of the items, and a bare one. -/
inductive Space where
  | items
  | bare
  deriving DecidableEq, Repr

inductive DeleteCallback where
  | registry (space : Space)
  | program (name : String)
  deriving DecidableEq, Repr

/-- How a bridge turns a signal's payload into its handlers' arguments: into nothing,
    into the object and the payload, or into the item that the payload names. -/
inductive Parser where
  | unit
  | raw
  | item
  deriving DecidableEq, Repr

/-- The object on whose behalf a bridge delivers; `serial` tells apart senders of one name. -/
structure Sender where
  serial : Nat
  name : String
  deriving DecidableEq, Repr

/-- One subscription of a bridge, as the toolkit sees it. -/
structure Trampoline where
  serial : Nat
  sender : Sender
  parser : Parser
  handler : String
  deriving DecidableEq, Repr

inductive SignalCallback where
  | trampoline (t : Trampoline)
  | program (name : String)
  deriving DecidableEq, Repr

end HandleBridge
