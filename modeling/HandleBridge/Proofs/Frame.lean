/-
  HandleBridge.Proofs.Frame — what most operations leave alone, said once.

  Most of what a program does is bookkeeping: names, holds, wrappers, tables, the log. None of that
  touches the toolkit, the calls made across the boundary, the flushes in progress, the items'
  context or how many ids have been given out (`World.steady`). What operations do to these, beyond
  bookkeeping, is to make calls of a few kinds and to take ids, apart from some that act on the
  toolkit itself. So a view of these is left alone by an operation as soon as it is by calls of those
  kinds (`Frame`).
  - `Job.steady_expand`: a job that performs no operation and destroys nothing is bookkeeping.
  - `Op.Plain`: the kinds of call that an operation makes, and the registries that it takes ids from.
  - `Frame.perform`: an operation leaves alone what its calls, and the taking of its ids, do.
-/
import HandleBridge.Proofs.Registering

namespace HandleBridge

namespace World

/-- The toolkit, the calls across the boundary, the flushes in progress, whether the program holds the
    items' context, and how many ids of items have been given out. -/
def steady (w : World) : Toolkit × List NativeCall × List Nat × Bool × Nat :=
  (w.toolkit, w.crossings, w.flushing, w.holdsContext, w.itemRegistry.nextId)

/-! ## Bookkeeping -/

theorem steady_setRegistry (w : World) {space : Space} {r : Registry} (hr : r.nextId = (w.registry space).nextId) :
    (w.setRegistry space r).steady = w.steady := by
  cases space
  · exact congrArg (fun n => (w.toolkit, w.crossings, w.flushing, w.holdsContext, n)) hr
  · rfl

theorem steady_forget (w : World) (space : Space) (id : ItemId) : (w.forget space id).steady = w.steady := by
  unfold forget
  split
  · exact w.steady_setRegistry (Registry.nextId_forget _ id)
  · rfl

theorem steady_release (w : World) (ref : Ref) : (w.release ref).steady = w.steady := by
  unfold release
  split
  · rfl
  · split
    · rfl
    · split
      · exact steady_forget _ _ _
      · rfl

theorem steady_unpin (w : World) (p : Pin) : (w.unpin p).steady = w.steady := by
  cases p with
  | wrapper ref => exact steady_release _ ref
  | _ => rfl

theorem steady_nameItem (w : World) (name : String) (ref : Ref) : (w.nameItem name ref).steady = w.steady := by
  simp only [nameItem]
  split
  · exact steady_release _ _
  · rfl

theorem steady_nameProbe (w : World) (name : String) (ref : Ref) : (w.nameProbe name ref).steady = w.steady := by
  simp only [nameProbe]
  split
  · exact steady_release _ _
  · rfl

theorem steady_dropItemName (w : World) (name : String) : (w.dropItemName name).steady = w.steady := by
  unfold dropItemName
  split
  · exact steady_release _ _
  · rfl

theorem steady_dropProbeName (w : World) (name : String) : (w.dropProbeName name).steady = w.steady := by
  unfold dropProbeName
  split
  · exact steady_release _ _
  · rfl

theorem steady_ofResult (r : World × Option BindError) : (ofResult r).steady = r.1.steady := by
  rcases r with ⟨w, _ | e⟩ <;> rfl

theorem steady_releaseHandle (w : World) (ref : Ref) : (w.releaseHandle ref).steady = w.steady := by
  simp only [releaseHandle]
  split <;> rfl

theorem steady_settle (w : World) (space : Space) (h : Handle) (id : ItemId) (wrapper : Option Ref) :
    (w.settle space h id wrapper).steady = w.steady := by
  have ended : (w.reportEnd space h id wrapper).steady = w.steady := by
    have tables := w.steady_setRegistry (Registry.nextId_endDying (w.registry space) h id)
    simp only [reportEnd]
    split
    · exact tables
    · split
      · split
        · exact (steady_releaseHandle _ _).trans tables
        · exact tables
      · exact tables
  rw [settle_eq]
  cases wrapper with
  | none => exact ended
  | some ref => exact (steady_unpin _ _).trans ended

theorem steady_nativeDelete (w : World) (space : Space) (h : Handle) : (w.nativeDelete space h).1.steady = w.steady := by
  have marked : (w.setRegistry space ((w.registry space).startDying h)).steady = w.steady := w.steady_setRegistry rfl
  simp only [nativeDelete]
  split
  · rfl
  · split
    · rfl
    · split
      · exact marked
      · exact marked

theorem steady_invalidate (w : World) (ref : Ref) : (w.invalidate ref).1.steady = w.steady := by
  unfold invalidate
  split
  · rfl
  · split <;> rfl

theorem steady_runSlot (w : World) (cb : DeleteCallback) (h : Handle) : (w.runSlot cb h).1.steady = w.steady := by
  unfold runSlot
  split
  · rfl
  · split <;> rfl

theorem steady_signal (w : World) (cb : SignalCallback) (object : Handle) (info : EventInfo) :
    (w.signal cb object info).1.steady = w.steady := by
  simp only [signal]
  split
  · rfl
  · split
    · split
      · rfl
      · rfl
      · split <;> rfl
    · rfl

end World

/-- The job performs no operation, and is no part of a flush. -/
def Job.KeepsBooks : Job → Prop
  | .act _ | .destroyQueued _ | .endFlush => False
  | _ => True

theorem Job.steady_expand (w : World) {j : Job} (hj : j.KeepsBooks) : (j.expand w).1.steady = w.steady := by
  cases j with
  | act | destroyQueued | endFlush => exact hj.elim
  | slot cb h => exact w.steady_runSlot cb h
  | nativeDelete space h => exact w.steady_nativeDelete space h
  | invalidate ref => exact w.steady_invalidate ref
  | settle space h id wrapper => exact w.steady_settle space h id wrapper
  | signal cb object info => exact w.steady_signal cb object info
  | releaseHandle ref => exact w.steady_releaseHandle ref
  | unpin p => exact w.steady_unpin p
  | enter | leave | answer => rfl

/-! ## Views -/

/-- A view of what bookkeeping leaves alone, which calls that satisfy `P` and the taking of ids from
    the registries that satisfy `A` leave alone as well. -/
structure Frame {α : Type} (f : World → α) (P : NativeCall → Prop) (A : Space → Prop) : Prop where
  steady : ∀ {w w' : World}, w'.steady = w.steady → f w' = f w
  native : ∀ (w : World) {c : NativeCall}, P c → f (w.native c) = f w
  ids : ∀ (w : World) {space : Space} {id : ItemId} {r : Registry}, A space → (w.registry space).allocate? = some (id, r) →
    f (w.setRegistry space r) = f w

/-- What operations do beyond bookkeeping: the calls satisfy `P`, and the registries from which ids are
    taken satisfy `A`. An operation that acts on the toolkit itself, or lets go of a registry, is not
    plain. -/
def Op.Plain (P : NativeCall → Prop) (A : Space → Prop) : Op → Prop
  | .createItem | .createObject | .adopt _ | .destroy _ | .flush | .native _ | .delete _ | .letGo _ => False
  | .newGrid .. => A .items ∧ ∀ h cb, P (.itemDelCbSet h cb)
  | .newItem _ => A .items
  | .newProbe .. => A .bare
  | .nextId space => A space
  | .bind .. | .register .. => ∀ h cb, P (.itemDelCbSet h cb)
  | .setEnabled _ v => ∀ h, P (.disabledSet h (!v))
  | .isEnabled _ => ∀ h, P (.disabledGet h)
  | .setText _ part s => ∀ h, P (.partTextSet h part s)
  | .text _ part => ∀ h, P (.partTextGet h part)
  | .setContent _ part content _ => ∀ h, P (.partContentUnset h part) ∧ P (.objectDel h) ∧ P (.partContentSet h part content)
  | .setSelected _ v => ∀ h, P (.selectedSet h v)
  | .isSelected _ => ∀ h, P (.selectedGet h)
  | .update _ => ∀ h, P (.update h)
  | .subscribe .. => ∀ object event cb, P (.callbackAdd object event cb)
  | .newBridge .. | .dropBridge _ | .unsubscribe .. | .shutdown .. => ∀ object event cb, P (.callbackDel object event cb)
  | _ => True

namespace Frame

variable {α : Type} {f : World → α} {P : NativeCall → Prop} {A : Space → Prop} (F : Frame f P A)

theorem carryOut (felled : ∀ w h, f (w.destroy h).1 = f w) (w : World) (h : Handle) : f (w.carryOut h).1 = f w := by
  unfold World.carryOut
  split
  · exact felled w h
  · rfl

include F

theorem log (w : World) (r : Record) : f (w.log r) = f w := F.steady rfl

theorem answering (w : World) (a : Answer) : f (w.answering a) = f w := F.steady rfl

theorem register (slot : ∀ h cb, P (.itemDelCbSet h cb)) (w : World) (ref : Ref) (h : Handle) :
    f (w.register ref h).1 = f w := by
  have moved (v : World) (null : Bool) (a : Handle) (cb : Option DeleteCallback) :
      f (if null then v else v.native (.itemDelCbSet a cb)) = f v := by
    split
    · rfl
    · exact F.native v (slot a cb)
  have bound (v : World) (space : Space) (id : ItemId) :
      f (v.setRegistry space ((v.registry space).bind id ref h)) = f v :=
    F.steady (v.steady_setRegistry (Registry.nextId_bind ..))
  simp only [World.register]
  split
  · exact F.log w _
  · split
    · exact F.log w _
    · -- the callback leaves the old handle, the tables change, and it comes to the new one
      exact (F.log _ _).trans ((moved _ _ _ _).trans ((bound _ _ _).trans (moved w _ _ _)))

theorem bind (slot : ∀ h cb, P (.itemDelCbSet h cb)) (w : World) (ref : Ref) (h : Handle) : f (w.bind ref h).1 = f w := by
  rcases hr : (w.register ref h).2 with _ | e
  · rw [World.bind_accepted hr]
    have given : f ((w.register ref h).1.setHandle ref h) = f (w.register ref h).1 := F.steady rfl
    exact given.trans (F.register slot w ref h)
  · rw [World.bind_refused hr]
    exact F.register slot w ref h

theorem withHandle (w : World) (ref : Ref) {g : Handle → World} (h : ∀ a, f (g a) = f w) : f (w.withHandle ref g) = f w := by
  unfold World.withHandle
  split
  · exact h _
  · exact F.steady rfl

theorem withFreshId (w : World) {space : Space} (hs : A space) {g : World → ItemId → World} (h : ∀ v id, f (g v id) = f v) :
    f (w.withFreshId space g) = f w := by
  unfold World.withFreshId
  split
  · rename_i id r hr
    exact (h _ _).trans (F.ids w hs hr)
  · exact F.steady rfl

theorem newGrid (hs : A .items) (slot : ∀ h cb, P (.itemDelCbSet h cb)) (w : World) (h : Handle) (data : RowData)
    (name : Option String) : f (w.newGrid h data name) = f w := by
  refine F.withFreshId w hs fun v id => ?_
  have added : f (v.addWrapper (.fresh id (.grid (some data)))) = f v := F.steady rfl
  have made := (F.bind slot (v.addWrapper (.fresh id (.grid (some data)))) v.freshRef h).trans added
  have given (u : World) (ref : Ref) (a : Answer) : f ((u.release ref).answering a) = f u :=
    (F.answering _ a).trans (F.steady (u.steady_release ref))
  simp only
  split
  · rename_i u e hb
    rw [hb] at made
    exact (given u v.freshRef _).trans made
  · rename_i u hb
    rw [hb] at made
    split
    · exact (F.answering _ _).trans ((F.steady (u.steady_nameItem _ v.freshRef)).trans made)
    · exact (given u v.freshRef _).trans made

theorem newItem (hs : A .items) (w : World) (name : String) : f (w.newItem name) = f w :=
  F.withFreshId w hs fun _ _ => (F.answering _ _).trans (F.steady (World.steady_nameItem _ name _))

theorem newProbe (hs : A .bare) (w : World) (name : String) (bare : Bool) (id : Option ItemId) :
    f (w.newProbe name bare id) = f w := by
  have made (v : World) (id : ItemId) :
      f (((v.addWrapper (.fresh id (.probe name bare))).nameProbe name v.freshRef).answering (.id id)) = f v :=
    F.steady (World.steady_nameProbe _ name _)
  cases id with
  | some id => exact made w id
  | none => exact F.withFreshId w hs made

theorem setContent {part : Part} {content : Handle}
    (puts : ∀ h, P (.partContentUnset h part) ∧ P (.objectDel h) ∧ P (.partContentSet h part content)) (w : World)
    (ref : Ref) (preserve : Bool) : f (w.setContent ref part content preserve) = f w := by
  refine F.withHandle w ref fun h => ?_
  have emptied : f (w.native (.partContentUnset h part)) = f w := F.native w (puts h).1
  have put (v : World) (g : Wrapper → Wrapper) :
      f (((v.native (.partContentSet h part content)).modifyWrapper ref g).answering .none) = f v := by
    have noted : f (((v.native (.partContentSet h part content)).modifyWrapper ref g).answering .none) =
        f (v.native (.partContentSet h part content)) := F.steady rfl
    exact noted.trans (F.native v (puts h).2.2)
  refine (put _ _).trans ?_
  split
  · exact emptied
  · exact (F.native _ (puts _).2.1).trans ((F.log _ _).trans emptied)

theorem unregister (taken : ∀ object event cb, P (.callbackDel object event cb)) (b : Bridge) (ts : List Trampoline)
    (w : World) : f (w.unregister b ts) = f w := by
  induction ts generalizing w with
  | nil => rfl
  | cons t ts ih => exact (ih _).trans (F.native w (taken _ _ _))

theorem closeBridge (taken : ∀ object event cb, P (.callbackDel object event cb)) (w : World) (b : Bridge) :
    f (w.closeBridge b) = f w := by
  unfold World.closeBridge
  split
  · rfl
  · exact (F.log _ _).trans (F.unregister taken b b.listeners w)

theorem subscribe (added : ∀ object event cb, P (.callbackAdd object event cb)) (w : World) (name : String) (b : Bridge)
    (handler : String) : f (w.subscribe name b handler) = f w := by
  have kept (t : Trampoline) : f { w.setBridge name (b.addListener t) with nextTrampoline := w.nextTrampoline + 1 } = f w :=
    F.steady rfl
  simp only [World.subscribe]
  split
  · exact F.answering w _
  · exact (F.answering _ _).trans ((F.log _ _).trans ((F.native _ (added _ _ _)).trans (kept _)))

theorem delete (asked : ∀ h, P (.itemDel h)) (felled : ∀ w h, f (w.destroy h).1 = f w) (w : World) (ref : Ref) :
    f (w.delete ref).1 = f w := by
  have pinned (p p' : Pin) (r : Record) : f (((w.pin p).pin p').log r) = f w := F.steady rfl
  simp only [World.delete]
  split
  · exact F.answering w _
  · exact (carryOut felled _ _).trans ((F.native _ (asked _)).trans (pinned _ _ _))

/-- An operation leaves the view alone when its calls do, and the taking of its ids. -/
theorem perform (w : World) {op : Op} (ho : op.Plain P A) : f (w.perform op).1 = f w := by
  have through (ref : Ref) {c : Handle → NativeCall} (a : Handle → Answer) (hc : ∀ h, P (c h)) :
      f (w.withHandle ref fun h => (w.native (c h)).answering (a h)) = f w :=
    F.withHandle w ref fun h => (F.answering _ _).trans (F.native w (hc h))
  have bookkept (name : String) (b : Bridge) : f (w.setBridge name b) = f w := F.steady rfl
  cases op with
  | createItem | createObject | adopt | destroy | flush | native | delete | letGo => exact ho.elim
  | newGrid h data name => exact F.newGrid ho.1 ho.2 w h data name
  | newItem name => exact F.newItem ho w name
  | newProbe name bare id => exact F.newProbe ho w name bare id
  | nextId space => exact F.withFreshId w ho fun v id => F.answering v (.id id)
  | nameItem name ref => exact F.steady (w.steady_nameItem name ref)
  | dropItem name => exact F.steady (w.steady_dropItemName name)
  | dropProbe name => exact F.steady (w.steady_dropProbeName name)
  | forget space id => exact F.steady (w.steady_forget space id)
  | bind ref h => exact (F.steady (World.steady_ofResult _)).trans (F.bind ho w ref h)
  | register ref h => exact (F.steady (World.steady_ofResult _)).trans (F.register ho w ref h)
  | setEnabled ref v => exact through ref (fun _ => .none) ho
  | isEnabled ref => exact through ref (fun h => .flag (!w.toolkit.disabled h)) ho
  | setText ref part s => exact through ref (fun _ => .none) ho
  | text ref part => exact through ref (fun h => .text (w.toolkit.partText h part)) ho
  | setContent ref part content preserve => exact F.setContent ho w ref preserve
  | setSelected ref v => exact through ref (fun _ => .none) ho
  | isSelected ref => exact through ref (fun h => .flag (w.toolkit.selected h)) ho
  | update ref => exact through ref (fun _ => .none) ho
  | newBridge name b =>
    refine (F.answering _ _).trans ?_
    simp only [World.addBridge]
    split
    · exact (F.closeBridge ho _ _).trans (bookkept name b)
    · exact bookkept name b
  | dropBridge name =>
    have dropped : f { w with bridges := w.bridges.erase name } = f w := F.steady rfl
    refine (F.answering _ _).trans ?_
    unfold World.dropBridge
    split
    · exact (F.closeBridge ho _ _).trans dropped
    · rfl
  | subscribe name b handler => exact F.subscribe ho w name b handler
  | unsubscribe name b handler =>
    refine (F.answering _ _).trans ((F.log _ _).trans ?_)
    exact (F.unregister ho b (b.listenersOf handler) _).trans (bookkept name _)
  | shutdown name b => exact (F.answering _ _).trans ((F.closeBridge ho _ b).trans (bookkept name _))
  | _ => exact F.steady rfl

end Frame

end HandleBridge
