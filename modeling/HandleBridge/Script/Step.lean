/-
  HandleBridge.Script.Step — steps as they are written, and what they come to.

  A written step is a verb and fields. What it comes to depends on the world in which
  its turn comes: names are looked up then, and a step that asks for something is
  answered from what is there. `Step.op` gives the operation; a step that names what is
  not there, or lacks a field, comes to the failure of the first such fault. Faults are
  looked for in the order of the verb's lines below.
-/
import HandleBridge.Machine

namespace HandleBridge

/-- A step as it is written: any field may be missing. -/
structure Step where
  verb : Verb
  name : Option String
  /-- The second name that an item gets. -/
  secondName : Option String
  handle : Option Handle
  info : Option EventInfo
  event : Option String
  callback : Option String
  part : Part
  text : Option String
  content : Option Handle
  value : Option Bool
  preserve : Option Bool
  data : RowData
  handler : Option String
  id : Option Nat
  sender : Option String
  kind : Option String
  /-- The probe whose id a new probe gets. -/
  sameId : Option String

namespace World

/-- The item of the innermost deletion handler in progress. -/
def deletedItem? (w : World) : Option Ref :=
  w.running.findSome? fun
    | .deleted _ item => some item
    | _ => none

/-- The name under which a handler finds the item whose deletion it was called for. -/
def selfName : String := "$self"

def itemNamed? (w : World) (name : String) : Option Ref :=
  if name = selfName then w.deletedItem?.filter w.itemNames.values.contains
  else w.itemNames.get? name

end World

namespace Step

/-- Ids in a script are at most this. -/
def maxId : Nat := 10000

def noSuch {α : Type} (what name : String) : Except Failure α := .error (.noSuch (what ++ " " ++ name))

/-! ## Fields -/

def need {α : Type} (field : String) : Option α → Except Failure α
  | some a => .ok a
  | none => .error (.badField field)

def needName (s : Step) : Except Failure String := need "name" s.name

def needHandle (s : Step) : Except Failure Handle := need "h" s.handle

def needEvent (s : Step) : Except Failure String := need "ev" s.event

def needHandler (s : Step) : Except Failure String := need "fn" s.handler

def needCallback (s : Step) : Except Failure SignalCallback := (need "cb" s.callback).map .program

def needValue (s : Step) : Except Failure Bool := need "v" s.value

def needId (s : Step) : Except Failure ItemId :=
  (need "id" (s.id.filter (· ≤ maxId))).map ItemId.mk

/-! ## What a step names -/

def needRegistry (w : World) (space : Space) : Except Failure Registry :=
  if w.holds space then .ok (w.registry space)
  else .error <| .noSuch <| match space with
    | .items => "ctx"
    | .bare => "reg"

def item (s : Step) (w : World) : Except Failure Ref := do
  let name ← s.needName
  match w.itemNamed? name with
  | some ref => .ok ref
  | none => noSuch "item" name

/-- The item that a step names, which has to be a grid cell. -/
def gridItem (s : Step) (w : World) : Except Failure Ref := do
  let ref ← s.item w
  if ((w.wrappers.get? ref).map (·.isGrid)).getD false then .ok ref else .error .notGrid

def probe (s : Step) (w : World) : Except Failure Ref := do
  let name ← s.needName
  match w.probeNames.get? name with
  | some ref => .ok ref
  | none => noSuch "probe" name

def bridge (s : Step) (w : World) : Except Failure (String × Bridge) := do
  let name ← s.needName
  match w.bridges.get? name with
  | some b => .ok (name, b)
  | none => noSuch "event" name

def senderNamed (w : World) (name : String) : Except Failure Sender :=
  match w.senders.get? name with
  | some s => .ok s
  | none => noSuch "sender" name

/-! ## Verbs -/

/-- How a step is read in a world. -/
abbrev Reading := Step → World → Except Failure Op

def give (a : Answer) : Except Failure Op := .ok (.give a)

def onHandle (f : Handle → Op) : Reading := fun s _ => do
  return f (← s.needHandle)

def askHandle (f : Toolkit → Handle → Answer) : Reading := fun s w => do
  give (f w.toolkit (← s.needHandle))

def onItem (f : Ref → Op) : Reading := fun s w => do
  return f (← s.item w)

def askItem (f : World → Ref → Answer) : Reading := fun s w => do
  give (f w (← s.item w))

/-- The toolkit, spoken to directly. -/
def toolkitVerbs : List (String × Reading) :=
  [ ("create_item", fun _ _ => .ok .createItem),
    ("create_object", fun _ _ => .ok .createObject),
    ("adopt", onHandle .adopt),
    ("destroy", onHandle .destroy),
    ("flush", fun _ _ => .ok .flush),
    ("fire", fun s _ => do return .fire (← s.needHandle) (← s.needEvent) (← need "info" s.info)),
    ("reg_count", fun s w => do
      let h ← s.needHandle
      let event ← s.needEvent
      give (.count (w.toolkit.listeners h event).length)),
    ("alive", askHandle fun t h => .flag (t.isAlive h)),
    ("was_destroyed", askHandle fun t h => .flag (t.wasDestroyed h)),
    ("has_cb", askHandle fun t h => .flag (t.deleteSlot h).isSome),
    ("update_count", askHandle fun t h => .count (t.updateCount h)),
    ("delete_mode", fun _ w => give (.mode w.toolkit.mode)),
    ("n_item_del", onHandle (.native <| .itemDel ·)),
    ("n_cb_set", fun s _ => do
      return .native (.itemDelCbSet (← s.needHandle) (s.callback.map .program))),
    ("n_disabled", onHandle (.native <| .disabledGet ·)),
    ("n_set_disabled", fun s _ => do
      return .native (.disabledSet (← s.needHandle) (← s.needValue))),
    ("n_text", fun s _ => do return .native (.partTextGet (← s.needHandle) s.part)),
    ("n_set_text", fun s _ => do
      return .native (.partTextSet (← s.needHandle) s.part (← need "text" s.text))),
    ("n_set_content", fun s _ => do
      return .native (.partContentSet (← s.needHandle) s.part (← need "content" s.content))),
    ("n_unset_content", fun s _ => do return .native (.partContentUnset (← s.needHandle) s.part)),
    ("n_object_del", onHandle (.native <| .objectDel ·)),
    ("n_selected", onHandle (.native <| .selectedGet ·)),
    ("n_set_selected", fun s _ => do
      return .native (.selectedSet (← s.needHandle) (← s.needValue))),
    ("n_update", onHandle (.native <| .update ·)),
    ("n_cb_add", fun s _ => do
      return .native (.callbackAdd (← s.needHandle) (← s.needEvent) (← s.needCallback))),
    ("n_cb_del", fun s _ => do
      return .native (.callbackDel (← s.needHandle) (← s.needEvent) (← s.needCallback))) ]

/-- A grid cell's name is asked for only once the cell is made. A name that is dropped is
taken as it stands, also the one that has a meaning in handlers. -/
def itemVerbs : List (String × Reading) :=
  [ ("grid_new", fun s w => do
      let _ ← needRegistry w .items
      return .newGrid (← s.needHandle) s.data s.name),
    ("item_new", fun s w => do
      let _ ← needRegistry w .items
      return .newItem (← s.needName)),
    ("bind", fun s w => do return .bind (← s.item w) (← s.needHandle)),
    ("alias", fun s w => do
      let ref ← s.item w
      return .nameItem (← need "as" s.secondName) ref),
    ("drop", fun s w => do
      let name ← s.needName
      match w.itemNames.get? name with
      | some _ => return .dropItem name
      | none => noSuch "item" name),
    ("info", askItem fun w ref => .item (w.idOf ref) (w.handleOf ref)),
    ("live_handle", askItem fun w ref =>
      match w.liveHandle ref with
      | .ok h => .handle h
      | .error e => .failed (.bind e)),
    ("enabled", onItem .isEnabled),
    ("set_enabled", fun s w => do return .setEnabled (← s.item w) (← s.needValue)),
    ("text", fun s w => do return .text (← s.item w) s.part),
    ("set_text", fun s w => do return .setText (← s.item w) s.part (← need "text" s.text)),
    ("content", fun s w => do
      let ref ← s.item w
      give (.maybeHandle ((w.wrappers.get? ref).bind (·.partContent s.part)))),
    ("set_content", fun s w => do
      let content ← need "content" s.content
      return .setContent (← s.item w) s.part content (s.preserve.getD false)),
    ("on_deleted", fun s w => do return .onDeleted (← s.item w) (← s.needHandler)),
    ("remove_deleted", fun s w => do return .removeDeleted (← s.item w) (← s.needHandler)),
    ("delete", onItem .delete),
    ("selected", fun s w => do return .isSelected (← s.gridItem w)),
    ("set_selected", fun s w => do return .setSelected (← s.gridItem w) (← s.needValue)),
    ("update", fun s w => do return .update (← s.gridItem w)),
    ("data", fun s w => do
      let ref ← s.gridItem w
      give (.data ((w.wrappers.get? ref).bind (·.data)))),
    ("as_any", askItem fun w ref => .kind (((w.wrappers.get? ref).map (·.isGrid)).getD false)),
    ("ctx_same", fun s w => do
      let _ ← s.item w
      let _ ← needRegistry w .items
      give (.flag true)) ]

def lookups (space : Space) (byId byHandle : String) (answer : World → Option Ref → Answer) :
    List (String × Reading) :=
  [ (byId, fun s w => do
      let _ ← needRegistry w space
      give (answer w (w.lookupId space (← s.needId)))),
    (byHandle, fun s w => do
      let _ ← needRegistry w space
      give (answer w (w.lookupHandle space (← s.needHandle)))) ]

/-- The verbs on a registry, which both registries have. -/
def registryVerbs (space : Space) (forget nativeDelete nextId len drop : String) :
    List (String × Reading) :=
  [ (forget, fun s w => do
      let _ ← needRegistry w space
      return .forget space (← s.needId)),
    (nativeDelete, fun s w => do
      let _ ← needRegistry w space
      return .nativeDelete space (← s.needHandle)),
    (nextId, fun _ w => do
      let _ ← needRegistry w space
      return .nextId space),
    (len, fun _ w => do
      let r ← needRegistry w space
      give (.size r.byId.size)),
    (drop, fun _ _ => .ok (.letGo space)) ]

def parserNamed : String → Except Failure Parser
  | "unit" => .ok .unit
  | "raw" => .ok .raw
  | "item" => .ok .item
  | kind => .error (.unknownKind kind)

def bridgeVerbs : List (String × Reading) :=
  [ ("sender_new", fun s _ => do return .newSender (← s.needName)),
    ("sender_drop", fun s w => do
      let name ← s.needName
      let _ ← senderNamed w name
      return .dropSender name),
    ("event_new", fun s w => do
      let sender ← senderNamed w (← need "sender" s.sender)
      let h ← s.needHandle
      let event ← s.needEvent
      let _ ← needRegistry w .items
      let parser ← parserNamed (← need "kind" s.kind)
      return .newBridge (← s.needName) (.fresh sender h event parser)),
    ("event_drop", fun s w => do return .dropBridge (← s.bridge w).1),
    ("event_info", fun s w => do
      let (_, b) ← s.bridge w
      give (.bridge b (if w.isSenderLive b.sender then some b.sender.name else none))),
    ("subscribe", fun s w => do
      let handler ← s.needHandler
      let (name, b) ← s.bridge w
      return .subscribe name b handler),
    ("unsubscribe", fun s w => do
      let handler ← s.needHandler
      let (name, b) ← s.bridge w
      return .unsubscribe name b handler),
    ("shutdown", fun s w => do
      let (name, b) ← s.bridge w
      return .shutdown name b),
    ("detach", fun s w => do
      let (name, b) ← s.bridge w
      return .detach name b) ]

/-- A new probe needs the registry only where it gets an id of its own. -/
def probeVerbs : List (String × Reading) :=
  [ ("p_new", fun s w => do
      let name ← s.needName
      let id ← match s.sameId with
        | none => (needRegistry w .bare).map fun _ => none
        | some other =>
          match w.probeNames.get? other with
          | some ref => .ok (some (w.idOf ref))
          | none => noSuch "probe" other
      return .newProbe name (decide (s.kind = some "bare")) id),
    ("p_register", fun s w => do
      let _ ← needRegistry w .bare
      return .register (← s.probe w) (← s.needHandle)),
    ("p_bind", fun s w => do
      let _ ← needRegistry w .bare
      return .bind (← s.probe w) (← s.needHandle)),
    ("p_set_handle", fun s w => do return .setHandle (← s.probe w) (← s.needHandle)),
    ("p_handle", fun s w => do give (.handle (w.handleOf (← s.probe w)))),
    ("p_delete", fun s w => do
      let _ ← needRegistry w .bare
      return .delete (← s.probe w)),
    ("p_drop", fun s w => do
      let _ ← s.probe w
      return .dropProbe (← s.needName)) ]

def verbs : List (String × Reading) :=
  toolkitVerbs ++ itemVerbs
    ++ lookups .items "by_id" "by_handle" (fun w ref => .found (ref.bind w.describe))
    ++ registryVerbs .items "forget" "native_delete" "next_id" "len" "drop_ctx"
    ++ bridgeVerbs ++ probeVerbs
    ++ lookups .bare "p_by_id" "p_by_handle"
        (fun w ref => .probe (ref.map fun p => (w.idOf p, w.handleOf p)))
    ++ registryVerbs .bare "p_forget" "p_native_delete" "p_next_id" "p_len" "drop_reg"

/-! ## Reading -/

def resolve (s : Step) (w : World) : Except Failure Op :=
  match s.verb with
  | .other _ => .error (.badField "do")
  | .word verb =>
    match verbs.lookup verb with
    | some reading => reading s w
    | none => .error (.unknownStep verb)

/-- The operation that a step comes to. One that comes to nothing answers why. -/
def op (s : Step) (w : World) : Op :=
  match s.resolve w with
  | .ok op => op
  | .error f => .give (.failed f)

end Step

end HandleBridge
