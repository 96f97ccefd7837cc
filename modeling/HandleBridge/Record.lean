/-
  HandleBridge.Record — the log records of the bridge, the toolkit and the simulation.

  A record is kept as what happened. Its level, its text and its fields, in the order
  in which they are shown, are functions of it.
-/
import HandleBridge.Handle

namespace HandleBridge

inductive Level where
  | error
  | warn
  | info
  | debug
  | trace
  deriving DecidableEq, Repr

def Level.name : Level → String
  | .error => "ERROR"
  | .warn => "WARN"
  | .info => "INFO"
  | .debug => "DEBUG"
  | .trace => "TRACE"

/-- What a simulation run comes to. -/
structure Report where
  created : Nat
  selections : Nat
  deletedNotifications : Nat
  deletedExplicitly : Nat
  destroyedNatively : Nat
  remainingItems : Nat
  remainingRegistrations : Nat
  deriving DecidableEq, Repr

def Report.debug (r : Report) : String :=
  "SimulationReport \x7b " ++ String.intercalate ", "
    [ "created: " ++ toString r.created,
      "selections: " ++ toString r.selections,
      "deleted_notifications: " ++ toString r.deletedNotifications,
      "deleted_explicitly: " ++ toString r.deletedExplicitly,
      "destroyed_natively: " ++ toString r.destroyedNatively,
      "remaining_items: " ++ toString r.remainingItems,
      "remaining_registrations: " ++ toString r.remainingRegistrations ] ++ " \x7d"

inductive Record where
  -- registry
  | idsExhausted
  | alreadyOwned (handle : Handle) (owner claimant : ItemId)
  | alreadyBound (id : ItemId) (handle : Handle)
  | registered (id : ItemId) (handle previous : Handle)
  | unboundDelete (handle : Handle)
  | nativeDelete (id : ItemId) (handle : Handle)
  | rebound (id : ItemId) (handle : Handle)
  | deleteRequested (id : ItemId) (handle : Handle)
  | forgotten (id : ItemId) (handle : Handle)
  -- items
  | contentReplaced (id : ItemId) (old : Handle)
  | gridInvalidated (id : ItemId)
  -- bridges
  | subscribed (handle : Handle) (event : String)
  | unsubscribed (handle : Handle) (event : String) (removed : Nat)
  | shutDown (handle : Handle) (event : String) (released : Nat)
  | detached (handle : Handle) (event : String) (dropped : Nat)
  | senderGone (object : Handle)
  -- toolkit
  | destroyUnknown (handle : Handle)
  | destroyed (handle : Handle)
  | fired (object : Handle) (event : String) (listeners : Nat)
  | unknownItem (item : Handle)
  | unknownObject (object : Handle)
  | noRegistration (object : Handle) (event : String)
  -- features
  | featureQuery (key : String) (supported : Bool)
  -- simulation
  | itemsCreated (count : Nat)
  | rowSelected (grid : String) (id : ItemId) (handle : Handle) (row : Option Nat)
  | rowNotMarked (id : ItemId) (cause : BindError)
  | unknownSelected (grid : String) (handle : Handle)
  | rowDeleted (id : ItemId)
  | deletesFlushed (flushed : Nat)
  | simulationFinished (report : Report)
  deriving DecidableEq, Repr

namespace Record

def level : Record → Level
  | idsExhausted | alreadyOwned .. => .error
  | destroyUnknown _ | unknownItem _ | unknownObject _ | rowNotMarked .. => .warn
  | itemsCreated _ | rowSelected .. | unknownSelected .. | rowDeleted _ | deletesFlushed _
  | simulationFinished _ => .info
  | registered .. | nativeDelete .. | rebound .. | deleteRequested .. | gridInvalidated _
  | shutDown .. => .debug
  | alreadyBound .. | unboundDelete _ | forgotten .. | contentReplaced .. | subscribed ..
  | unsubscribed .. | detached .. | senderGone _ | destroyed _ | fired .. | noRegistration ..
  | featureQuery .. => .trace

def message : Record → String
  | idsExhausted => "item id space exhausted"
  | alreadyOwned .. => "handle already owned"
  | alreadyBound .. => "already bound"
  | registered .. => "registered"
  | unboundDelete _ => "delete for unbound handle ignored"
  | nativeDelete .. => "native delete"
  | rebound .. => "item rebound during delete, keeping new binding"
  | deleteRequested .. => "delete requested"
  | forgotten .. => "forgotten"
  | contentReplaced .. => "destroying replaced part content"
  | gridInvalidated _ => "grid item invalidated"
  | subscribed .. => "subscribed"
  | unsubscribed .. => "unsubscribed"
  | shutDown .. => "shut down"
  | detached .. => "detached"
  | senderGone _ => "sender dropped, signal ignored"
  | destroyUnknown _ => "destroy on unknown item"
  | destroyed _ => "item destroyed"
  | fired .. => "fire"
  | unknownItem _ => "call on unknown item"
  | unknownObject _ => "object_del on unknown object"
  | noRegistration .. => "callback_del found no registration"
  | featureQuery .. => "feature query"
  | itemsCreated _ => "items created"
  | rowSelected .. => "selected"
  | rowNotMarked .. => "could not mark item selected"
  | unknownSelected .. => "selected unknown item"
  | rowDeleted _ => "deleted"
  | deletesFlushed _ => "deferred deletes flushed"
  | simulationFinished _ => "simulation finished"

/-- A row number as the log shows it. -/
def showRow : Option Nat → String
  | some n => "Some(" ++ toString n ++ ")"
  | none => "None"

/-- The fields as pairs of a name and a text. -/
def fields : Record → List (String × String)
  | idsExhausted => []
  | alreadyOwned h owner claimant =>
    [("handle", h.display), ("owner", owner.display), ("claimant", claimant.display)]
  | registered id h previous =>
    [("id", id.display), ("handle", h.display), ("previous", previous.display)]
  | alreadyBound id h | nativeDelete id h | rebound id h | deleteRequested id h | forgotten id h =>
    [("id", id.display), ("handle", h.display)]
  | unboundDelete h | destroyUnknown h | destroyed h => [("handle", h.display)]
  | contentReplaced id old => [("id", id.display), ("old", old.display)]
  | gridInvalidated id | rowDeleted id => [("id", id.display)]
  | subscribed h event =>
    [("handle", h.display), ("event", event), ("handler", "EventHandler(_)")]
  | unsubscribed h event n => [("handle", h.display), ("event", event), ("removed", toString n)]
  | shutDown h event n => [("handle", h.display), ("event", event), ("released", toString n)]
  | detached h event n => [("handle", h.display), ("event", event), ("dropped", toString n)]
  | senderGone object | unknownObject object => [("object", object.display)]
  | fired object event n =>
    [("object", object.display), ("event", event), ("listeners", toString n)]
  | unknownItem item => [("item", item.display)]
  | noRegistration object event => [("object", object.display), ("event", event)]
  | featureQuery key supported => [("key", key), ("supported", toString supported)]
  | itemsCreated n => [("count", toString n)]
  | rowSelected grid id h row =>
    [("grid", grid), ("id", id.display), ("handle", h.display), ("row", showRow row)]
  | rowNotMarked id cause => [("id", id.display), ("err", cause.message)]
  | unknownSelected grid h => [("grid", grid), ("handle", h.display)]
  | deletesFlushed n => [("flushed", toString n)]
  | simulationFinished report => [("report", report.debug)]

end Record

end HandleBridge
