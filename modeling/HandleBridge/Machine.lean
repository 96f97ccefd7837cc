/-
  HandleBridge.Machine — operations, and the order in which callbacks run inside them.

  Destroying an item, flushing the queue, firing a signal and deleting an item may call
  the program back, and the program may do anything then, the same things included. So
  what remains to be done is a list of jobs: the first job is taken, changes the world,
  and is replaced by the jobs that it makes due (`Task.expand`). The list is the call
  stack: an unfinished deletion waits in it as a `settle` job, an unfinished call of the
  program as a `leave` job.

  Each task carries how many more calls of the program may nest below it. A call that
  may not nest is noted and left out. With every job a task gives way to tasks of
  smaller rank (`rank_expand`), so a run ends, and running a task is the same as
  expanding it and running what it is replaced by, in order (`run_eq`).
-/
import HandleBridge.World

namespace HandleBridge

/-- What program code may do, once every name in it is resolved. -/
inductive Op where
  -- of the program itself
  | give (a : Answer)
  | report (verb : Verb)
  | note (r : Record)
  -- toolkit
  | createItem
  | createObject
  | adopt (h : Handle)
  | destroy (h : Handle)
  | flush
  | fire (object : Handle) (event : String) (info : EventInfo)
  | native (c : NativeCall)
  -- items
  | newGrid (h : Handle) (data : RowData) (name : Option String)
  | newItem (name : String)
  | nameItem (name : String) (ref : Ref)
  | dropItem (name : String)
  | setEnabled (ref : Ref) (v : Bool)
  | isEnabled (ref : Ref)
  | setText (ref : Ref) (part : Part) (text : String)
  | text (ref : Ref) (part : Part)
  | setContent (ref : Ref) (part : Part) (content : Handle) (preserve : Bool)
  | setSelected (ref : Ref) (v : Bool)
  | isSelected (ref : Ref)
  | update (ref : Ref)
  | onDeleted (ref : Ref) (handler : String)
  | removeDeleted (ref : Ref) (handler : String)
  -- items and probes
  | bind (ref : Ref) (h : Handle)
  | delete (ref : Ref)
  -- registries
  | nextId (space : Space)
  | forget (space : Space) (id : ItemId)
  | nativeDelete (space : Space) (h : Handle)
  | letGo (space : Space)
  -- probes
  | newProbe (name : String) (bare : Bool) (id : Option ItemId)
  | register (ref : Ref) (h : Handle)
  | setHandle (ref : Ref) (h : Handle)
  | dropProbe (name : String)
  -- bridges
  | newSender (name : String)
  | dropSender (name : String)
  | newBridge (name : String) (b : Bridge)
  | dropBridge (name : String)
  | subscribe (name : String) (b : Bridge) (handler : String)
  | unsubscribe (name : String) (b : Bridge) (handler : String)
  | shutdown (name : String) (b : Bridge)
  | detach (name : String) (b : Bridge)

/-- One piece of what remains to be done. -/
inductive Job where
  /-- Program code takes its next step, chosen when its turn comes. -/
  | act (choose : World → Op)
  | enter (c : Call)
  | leave (c : Call)
  /-- The toolkit runs what was in the delete slot of `h`. -/
  | slot (callback : DeleteCallback) (h : Handle)
  /-- A registry is told that `h` has been destroyed. -/
  | nativeDelete (space : Space) (h : Handle)
  | invalidate (ref : Ref)
  /-- The end of a deletion, with the wrapper that it was reported to. -/
  | settle (space : Space) (h : Handle) (id : ItemId) (wrapper : Option Ref)
  | signal (callback : SignalCallback) (object : Handle) (info : EventInfo)
  /-- A flush comes to one of the handles that it took from the queue. -/
  | destroyQueued (h : Handle)
  | endFlush
  | releaseHandle (ref : Ref)
  | unpin (p : Pin)
  | answer (a : Answer)

/-- Jobs give way to jobs of smaller rank; a call starts over, one level further in. -/
def Job.rank : Job → Nat
  | .act _ => 5
  | .destroyQueued _ => 4
  | .slot .. => 3
  | .nativeDelete .. => 2
  | .invalidate _ | .signal .. => 1
  | .enter _ | .leave _ | .settle .. | .endFlush | .releaseHandle _ | .unpin _ | .answer _ => 0

/-- A job, and how many more calls of the program may nest below it. -/
structure Task where
  level : Nat
  job : Job

def Task.rank (t : Task) : Nat := t.level * 6 + t.job.rank

/-- The program's code: how deep its calls may nest, and what each handler does, step by
    step, each step chosen from the world as it is then. -/
structure Program where
  limit : Nat
  body : Call → List (World → Op)

namespace World

/-! ## Destruction -/

/-- The toolkit destroys `h`, which makes the content of its delete slot due. -/
def destroy (w : World) (h : Handle) : World × List Job :=
  match w.toolkit.destroy? h with
  | none => (w.log (.destroyUnknown h), [])
  | some (t, slot) =>
    ({ w with toolkit := t }.log (.destroyed h),
      match slot with
      | some cb => [.slot cb h]
      | none => [])

/-- What is due after `itemDel h`: the destruction, in synchronous mode. -/
def carryOut (w : World) (h : Handle) : World × List Job :=
  match w.toolkit.mode with
  | .synchronous => w.destroy h
  | .deferred => (w, [])

def runSlot (w : World) (cb : DeleteCallback) (h : Handle) : World × List Job :=
  match cb with
  | .program name => (w, [.enter (.toolkitDelete name h)])
  | .registry space =>
    if w.isThere space then
      (w.pin (.registry space), [.nativeDelete space h, .unpin (.registry space)])
    else (w, [])

/-- The calls that notify a wrapper's observers of its deletion. -/
def notifications (w : World) (ref : Ref) : List Job :=
  match w.wrappers.get? ref with
  | some x =>
    match x.kind with
    | .probe name _ => [.enter (.probeDeleted (name ++ ".deleted") ref)]
    | _ => x.deleted.map fun handler => .enter (.deleted handler ref)
  | none => []

/-- A registry is told that `h` has been destroyed. Nothing happens when `h` is bound to
    nothing or is being reported already. Otherwise the wrapper, if it is still there, is
    notified and invalidated, and then the pair leaves the tables. -/
def nativeDelete (w : World) (space : Space) (h : Handle) : World × List Job :=
  let r := w.registry space
  if h ∈ r.dying then (w.log (.unboundDelete h), [])
  else match r.byHandle.get? h with
    | none => (w.log (.unboundDelete h), [])
    | some id =>
      let wrapper := w.lookupId space id
      let w := (w.setRegistry space (r.startDying h)).log (.nativeDelete id h)
      match wrapper with
      | none => (w, [.settle space h id none])
      | some ref =>
        (w.pin (.wrapper ref), w.notifications ref ++ [.invalidate ref, .settle space h id (some ref)])

def invalidate (w : World) (ref : Ref) : World × List Job :=
  match w.wrappers.get? ref with
  | none => (w, [])
  | some x =>
    match x.kind with
    | .plain => (w.modifyWrapper ref (·.cleared), [])
    | .grid _ => ((w.log (.gridInvalidated x.id)).modifyWrapper ref (·.cleared), [])
    | .probe name bare =>
      (w, if bare then [] else [.enter (.probeInvalidated (name ++ ".invalidate") ref)])

/-- Sets the wrapper's handle to null; a probe says so. -/
def releaseHandle (w : World) (ref : Ref) : World :=
  let w := match (w.wrappers.get? ref).map (·.kind) with
    | some (.probe name _) => w.emit (.released name)
    | _ => w
  w.setHandle ref .null

/-- The end of a deletion: the tables, the wrapper's handle if it is still `h`, and the
    reference that the deletion held. A wrapper bound elsewhere meanwhile keeps its new
    binding. -/
def settle (w : World) (space : Space) (h : Handle) (id : ItemId) (wrapper : Option Ref) : World :=
  let w := w.setRegistry space ((w.registry space).endDying h id)
  let w :=
    if (w.registry space).isElsewhere id h then w.log (.rebound id h)
    else match wrapper with
      | some ref => if w.handleOf ref = h then w.releaseHandle ref else w
      | none => w
  match wrapper with
  | some ref => w.unpin (.wrapper ref)
  | none => w

/-- Asks the toolkit to destroy the wrapper's object. The handle is null afterwards. -/
def delete (w : World) (ref : Ref) : World × List Job :=
  let h := w.handleOf ref
  if h.isNull then (w.failing (.bind (.itemDeleted (w.idOf ref))), [])
  else
    let space := w.spaceOf ref
    let w := (w.pin (.registry space)).pin (.wrapper ref)
    let w := (w.log (.deleteRequested (w.idOf ref) h)).native (.itemDel h)
    let (w, jobs) := w.carryOut h
    (w, jobs ++ [.releaseHandle ref, .unpin (.wrapper ref), .unpin (.registry space), .answer .none])

/-! ## Signals -/

/-- The toolkit runs a callback of a signal. A trampoline whose sender is gone does
    nothing; otherwise it calls its handler once. -/
def signal (w : World) (cb : SignalCallback) (object : Handle) (info : EventInfo) : World × List Job :=
  match cb with
  | .program name => (w, [.enter (.toolkitSignal name object info)])
  | .trampoline t =>
    if w.isSenderLive t.sender then
      let w := w.pin (.sender t.sender)
      match t.parser with
      | .unit => (w, [.enter (.unitSignal t.handler t.sender), .unpin (.sender t.sender)])
      | .raw =>
        (w.emit (.parsed object info),
          [.enter (.rawSignal t.handler t.sender object info), .unpin (.sender t.sender)])
      | .item =>
        let item := if w.isThere .items then w.lookupHandle .items info.toHandle else none
        let call := Call.itemSignal t.handler t.sender info.toHandle item
        match item with
        | some ref =>
          (w.pin (.wrapper ref), [.enter call, .unpin (.wrapper ref), .unpin (.sender t.sender)])
        | none => (w, [.enter call, .unpin (.sender t.sender)])
    else (w.log (.senderGone object), [])

/-- Runs the callbacks that are registered now, in order. -/
def fire (w : World) (object : Handle) (event : String) (info : EventInfo) : World × List Job :=
  let callbacks := w.toolkit.listeners object event
  (w.log (.fired object event callbacks.length),
    callbacks.map (.signal · object info) ++ [.answer (.count callbacks.length)])

/-! ## The queue of deletes -/

/-- Takes the queue and destroys what is in it, in order. -/
def flush (w : World) : World × List Job :=
  ({ w with toolkit := w.toolkit.takePending, flushing := 0 :: w.flushing },
    w.toolkit.pending.map .destroyQueued ++ [.endFlush])

/-- Counts one more item for the innermost flush. -/
def countFlushed (w : World) : World :=
  match w.flushing with
  | n :: ns => { w with flushing := (n + 1) :: ns }
  | [] => w

def destroyQueued (w : World) (h : Handle) : World × List Job :=
  (if w.toolkit.items.contains h then w.countFlushed else w).destroy h

def endFlush (w : World) : World :=
  match w.flushing with
  | n :: ns => { w with flushing := ns }.answering (.count n)
  | [] => w

/-! ## Operations that run no code of the program -/

def ofResult (r : World × Option BindError) : World :=
  match r with
  | (w, some e) => w.failing (.bind e)
  | (w, none) => w.answering .none

/-- Does `f` with the wrapper's handle, or refuses when there is none. -/
def withHandle (w : World) (ref : Ref) (f : Handle → World) : World :=
  match w.liveHandle ref with
  | .ok h => f h
  | .error e => w.failing (.bind e)

/-- What a call across the boundary gives back. -/
def replyTo (w : World) : NativeCall → Answer
  | .disabledGet h => .flag (w.toolkit.disabled h)
  | .partTextGet h part => .text (w.toolkit.partText h part)
  | .partContentUnset h part => .handle (w.toolkit.partContent h part)
  | .selectedGet h => .flag (w.toolkit.selected h)
  | _ => .none

/-- Takes the next id of a registry and does `f` with it. -/
def withFreshId (w : World) (space : Space) (f : World → ItemId → World) : World :=
  match (w.registry space).allocate? with
  | some (id, r) => f (w.setRegistry space r) id
  | none => (w.log .idsExhausted).failing (.bind .idsExhausted)

/-- Makes a grid cell bound to `h`. When that is refused, or no name is given for it,
    the cell is dropped again; its id stays used. -/
def newGrid (w : World) (h : Handle) (data : RowData) (name : Option String) : World :=
  w.withFreshId .items fun w id =>
    let ref := w.freshRef
    match (w.addWrapper (.fresh id (.grid (some data)))).bind ref h with
    | (w, some e) => (w.release ref).failing (.bind e)
    | (w, none) =>
      match name with
      | some name => (w.nameItem name ref).answering (.id id)
      | none => (w.release ref).failing (.badField "name")

def newItem (w : World) (name : String) : World :=
  w.withFreshId .items fun w id =>
    ((w.addWrapper (.fresh id .plain)).nameItem name w.freshRef).answering (.id id)

/-- Makes a probe, with an id of its own unless one is given. -/
def newProbe (w : World) (name : String) (bare : Bool) (id : Option ItemId) : World :=
  let add (w : World) (id : ItemId) : World :=
    ((w.addWrapper (.fresh id (.probe name bare))).nameProbe name w.freshRef).answering (.id id)
  match id with
  | some id => add w id
  | none => w.withFreshId .bare add

/-- Puts `content` into a part. What was there is destroyed unless it is to be kept. -/
def setContent (w : World) (ref : Ref) (part : Part) (content : Handle) (preserve : Bool) : World :=
  w.withHandle ref fun h =>
    let old := w.toolkit.partContent h part
    let w := w.native (.partContentUnset h part)
    let w :=
      if old.isNull || preserve then w
      else (w.log (.contentReplaced (w.idOf ref) old)).native (.objectDel old)
    let w := w.native (.partContentSet h part content)
    (w.modifyWrapper ref fun x =>
      { x with contents := x.contents.insert (Wrapper.cacheKey part) content }).answering .none

def onDeleted (w : World) (ref : Ref) (handler : String) : World :=
  (w.modifyWrapper ref fun x => { x with deleted := x.deleted ++ [handler] }).answering .none

/-- Removes a handler however often it was added, and tells how often that was. -/
def removeDeleted (w : World) (ref : Ref) (handler : String) : World :=
  let n := ((w.wrappers.get? ref).map (·.deleted.count handler)).getD 0
  (w.modifyWrapper ref fun x => { x with deleted := x.deleted.filter (· ≠ handler) }).answering (.count n)

def letGo (w : World) : Space → World
  | .items => { w with holdsContext := false }
  | .bare => { w with holdsBare := false }

def newSender (w : World) (name : String) : World :=
  { w with senders := w.senders.insert name ⟨w.nextSender, name⟩, nextSender := w.nextSender + 1 }

/-! ## One operation -/

/-- Performs an operation as far as no code of the program has to run; the jobs are what
    is due then. -/
def perform (w : World) : Op → World × List Job
  | .give a => (w.answering a, [])
  | .report verb => (w.emit (.did verb w.answer), [])
  | .note r => (w.log r, [])
  | .createItem => ({ w with toolkit := w.toolkit.createItem }.answering (.handle w.toolkit.freshHandle), [])
  | .createObject => ({ w with toolkit := w.toolkit.createObject }.answering (.handle w.toolkit.freshHandle), [])
  | .adopt h => ({ w with toolkit := w.toolkit.adopt h }.answering .none, [])
  | .destroy h =>
    let (w', jobs) := w.destroy h
    (w', jobs ++ [.answer (.flag (w.toolkit.items.contains h))])
  | .flush => w.flush
  | .fire object event info => w.fire object event info
  | .native c =>
    match c with
    | .itemDel h =>
      let (w, jobs) := (w.callToolkit c).carryOut h
      (w, jobs ++ [.answer .none])
    | _ => ((w.callToolkit c).answering (w.replyTo c), [])
  | .newGrid h data name => (w.newGrid h data name, [])
  | .newItem name => (w.newItem name, [])
  | .nameItem name ref => ((w.nameItem name ref).answering .none, [])
  | .dropItem name => ((w.dropItemName name).answering .none, [])
  | .setEnabled ref v =>
    (w.withHandle ref fun h => (w.native (.disabledSet h (!v))).answering .none, [])
  | .isEnabled ref =>
    (w.withHandle ref fun h => (w.native (.disabledGet h)).answering (.flag (!w.toolkit.disabled h)), [])
  | .setText ref part text =>
    (w.withHandle ref fun h => (w.native (.partTextSet h part text)).answering .none, [])
  | .text ref part =>
    (w.withHandle ref fun h =>
      (w.native (.partTextGet h part)).answering (.text (w.toolkit.partText h part)), [])
  | .setContent ref part content preserve => (w.setContent ref part content preserve, [])
  | .setSelected ref v =>
    (w.withHandle ref fun h => (w.native (.selectedSet h v)).answering .none, [])
  | .isSelected ref =>
    (w.withHandle ref fun h => (w.native (.selectedGet h)).answering (.flag (w.toolkit.selected h)), [])
  | .update ref => (w.withHandle ref fun h => (w.native (.update h)).answering .none, [])
  | .onDeleted ref handler => (w.onDeleted ref handler, [])
  | .removeDeleted ref handler => (w.removeDeleted ref handler, [])
  | .bind ref h => (ofResult (w.bind ref h), [])
  | .delete ref => w.delete ref
  | .nextId space => (w.withFreshId space fun w id => w.answering (.id id), [])
  | .forget space id => ((w.forget space id).answering .none, [])
  | .nativeDelete space h =>
    (w.pin (.registry space), [.nativeDelete space h, .unpin (.registry space), .answer .none])
  | .letGo space => ((w.letGo space).answering .none, [])
  | .newProbe name bare id => (w.newProbe name bare id, [])
  | .register ref h => (ofResult (w.register ref h), [])
  | .setHandle ref h => ((w.setHandle ref h).answering .none, [])
  | .dropProbe name => ((w.dropProbeName name).answering .none, [])
  | .newSender name => ((w.newSender name).answering .none, [])
  | .dropSender name => ({ w with senders := w.senders.erase name }.answering .none, [])
  | .newBridge name b => ((w.addBridge name b).answering .none, [])
  | .dropBridge name => ((w.dropBridge name).answering .none, [])
  | .subscribe name b handler => (w.subscribe name b handler, [])
  | .unsubscribe name b handler => (w.unsubscribe name b handler, [])
  | .shutdown name b => ((w.shutdown name b).answering .none, [])
  | .detach name b => ((w.detach name b).answering .none, [])

end World

/-! ## Running -/

/-- What a job other than a call does, and the jobs that it makes due. -/
def Job.expand (w : World) : Job → World × List Job
  | .act choose => w.perform (choose w)
  | .enter _ => (w, [])
  | .leave c => ({ w.emit (.ended c.handler) with running := w.running.tail }, [])
  | .slot cb h => w.runSlot cb h
  | .nativeDelete space h => w.nativeDelete space h
  | .invalidate ref => w.invalidate ref
  | .settle space h id wrapper => (w.settle space h id wrapper, [])
  | .signal cb object info => w.signal cb object info
  | .destroyQueued h => w.destroyQueued h
  | .endFlush => (w.endFlush, [])
  | .releaseHandle ref => (w.releaseHandle ref, [])
  | .unpin p => (w.unpin p, [])
  | .answer a => (w.answering a, [])

/-- The program's code is entered. -/
def World.enter (w : World) (c : Call) : World :=
  { w.emit (.called c.handler (w.argsOf c)) with running := c :: w.running }

namespace Program

/-- A task changes the world and gives way to other tasks. A call that would nest deeper than the
    program's limit, on level 0, is noted and does not run. -/
def expand (p : Program) (t : Task) (w : World) : World × List Task :=
  match t.job, t.level with
  | .enter c, 0 => (w.emit (.limited c.handler), [])
  | .enter c, level + 1 =>
    (w.enter c, (p.body c).map (⟨level, .act ·⟩) ++ [⟨level, .leave c⟩])
  | job, level =>
    let (w, jobs) := job.expand w
    (w, jobs.map (⟨level, ·⟩))

/-- Runs a task and all that it gives way to, for tasks of rank below the bound. -/
def runWithin (p : Program) : Nat → Task → World → World
  | 0, _, w => w
  | n + 1, t, w =>
    let (w, ts) := p.expand t w
    ts.foldl (fun w t => p.runWithin n t w) w

/-- Runs a task to its end. -/
def run (p : Program) (t : Task) (w : World) : World := p.runWithin (t.rank + 1) t w

/-- Performs one operation of the program, outside every handler, to its end. -/
def perform (p : Program) (choose : World → Op) (w : World) : World := p.run ⟨p.limit, .act choose⟩ w

end Program

end HandleBridge
