/-
  HandleBridge.Bridge — typed listeners over one named signal of one object.

  Each subscription makes a trampoline of its own and registers it with the toolkit, so
  that an addition here is one registration there. Handlers are told apart by name:
  unsubscribing one removes every trampoline that was made for it. A bridge that has
  been shut down or detached has no listener and takes none.
-/
import HandleBridge.Callback
import HandleBridge.Text.Quoted

namespace HandleBridge

structure Bridge where
  sender : Sender
  handle : Handle
  event : String
  parser : Parser
  listeners : List Trampoline
  isShutDown : Bool
  deriving DecidableEq, Repr

namespace Bridge

def fresh (sender : Sender) (handle : Handle) (event : String) (parser : Parser) : Bridge :=
  ⟨sender, handle, event, parser, [], false⟩

/-- Why the bridge takes no listener, if it does not. -/
def refusal? (b : Bridge) : Option BindError :=
  if b.isShutDown then some (.eventShutDown b.event)
  else if b.handle.isNull then some .nullHandle
  else none

/-- The trampoline that the next subscription of `handler` registers. -/
def trampoline (b : Bridge) (serial : Nat) (handler : String) : Trampoline :=
  ⟨serial, b.sender, b.parser, handler⟩

def addListener (b : Bridge) (t : Trampoline) : Bridge := { b with listeners := b.listeners ++ [t] }

/-- The trampolines that were made for `handler`. -/
def listenersOf (b : Bridge) (handler : String) : List Trampoline :=
  b.listeners.filter (·.handler = handler)

def removeListeners (b : Bridge) (handler : String) : Bridge :=
  { b with listeners := b.listeners.filter (·.handler ≠ handler) }

/-- With no listener left and none to come. -/
def closed (b : Bridge) : Bridge := { b with listeners := [], isShutDown := true }

def debug (b : Bridge) : String :=
  "SmartEvent \x7b handle: " ++ b.handle.debug ++ ", event_name: " ++ Quoted.quote b.event ++
    ", listeners: " ++ toString b.listeners.length ++ ", shut_down: " ++ toString b.isShutDown ++ " \x7d"

end Bridge

end HandleBridge
