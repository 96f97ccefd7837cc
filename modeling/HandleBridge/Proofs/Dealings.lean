/-
  HandleBridge.Proofs.Dealings — what the toolkit is told about a trampoline.

  The history keeps every call across the boundary. Those that name one trampoline, newest
  first, are its dealings (`World.dealings`): it is registered by one call and taken back by another.
  Calls across the boundary are made by many operations and by the ends of reports, but only operations
  about a bridge name a trampoline in one, and each such call is a deed (`Deed.telling`).
  - `World.deals_perform`, `Job.deals_expand`, `Turn.deals`: what an operation, a job and a step add to the
    dealings are the deeds about the trampoline, and nothing else.
  - `Course.dealings_succ`: the same from one state of a run to the next.
-/
import HandleBridge.Proofs.Frame
import HandleBridge.Proofs.Trampolines

namespace HandleBridge

/-- The trampoline that a call registers or takes back. -/
def NativeCall.trampoline? : NativeCall → Option Trampoline
  | .callbackAdd _ _ cb | .callbackDel _ _ cb => cb.trampoline?
  | _ => none

/-- The calls that registered the trampoline or took it back, newest first. -/
def World.dealings (w : World) (t : Trampoline) : List NativeCall := w.crossings.filter (·.trampoline? = some t)

/-- The call by which the deed tells the toolkit about the trampoline, if it does. -/
def Deed.telling (t : Trampoline) : Deed → Option NativeCall
  | added ⟨object, event, .trampoline a⟩ => if a = t then some (.callbackAdd object event (.trampoline a)) else none
  | removed ⟨object, event, .trampoline a⟩ => if a = t then some (.callbackDel object event (.trampoline a)) else none
  | _ => none

theorem Deed.telling_foreign {d : Deed} (hd : d.Foreign) (t : Trampoline) : d.telling t = none := by
  cases d with
  | added r | removed r =>
    obtain ⟨object, event, cb⟩ := r
    cases cb with
    | trampoline a => cases hd
    | program name => rfl
  | _ => rfl

/-! ## Changes that tell nothing -/

namespace World

variable (t : Trampoline)

theorem dealings_steady {w w' : World} (h : w'.steady = w.steady) : w'.dealings t = w.dealings t := by
  simp only [steady, Prod.mk.injEq] at h
  simp only [dealings, h.2.1]

theorem dealings_callToolkit (w : World) (c : NativeCall) : (w.callToolkit c).dealings t = w.dealings t := by
  unfold callToolkit
  cases w.toolkit.complaint c <;> rfl

/-- A call that is about no trampoline. -/
theorem dealings_native (w : World) {c : NativeCall} (hc : c.trampoline? = none) :
    (w.native c).dealings t = w.dealings t := by
  unfold dealings
  rw [crossings_native, List.filter_cons_of_neg (by simp [hc])]

theorem frame_dealings : Frame (·.dealings t) (·.trampoline? = none) fun _ => True where
  steady := dealings_steady t
  native w _ hc := w.dealings_native t hc
  ids w space _ _ _ _ := by cases space <;> rfl

theorem dealings_destroy (w : World) (h : Handle) : (w.destroy h).1.dealings t = w.dealings t := by
  unfold destroy
  split <;> rfl

theorem dealings_destroyQueued (w : World) (h : Handle) : (w.destroyQueued h).1.dealings t = w.dealings t := by
  refine (dealings_destroy t _ h).trans ?_
  unfold countFlushed
  split
  · split <;> rfl
  · rfl

theorem dealings_endFlush (w : World) : w.endFlush.dealings t = w.dealings t := by
  unfold endFlush
  split <;> rfl

/-! ## Bridges -/

/-- What deeds add to the dealings, newest first. -/
def Deals (w : World) (ds : List Deed) (w' : World) : Prop :=
  w'.dealings t = (ds.filterMap (Deed.telling t)).reverse ++ w.dealings t

variable {t}

theorem Deals.trans {w w' w'' : World} {ds ds' : List Deed} (h : w.Deals t ds w') (h' : w'.Deals t ds' w'') :
    w.Deals t (ds ++ ds') w'' := by
  unfold Deals at *
  rw [h', h, List.filterMap_append, List.reverse_append, List.append_assoc]

theorem Deals.of_same {w w' : World} {ds : List Deed} (h : w'.dealings t = w.dealings t)
    (hd : ∀ d ∈ ds, d.telling t = none) : w.Deals t ds w' := by
  unfold Deals
  rw [h, List.filterMap_eq_nil_iff.mpr hd, List.reverse_nil, List.nil_append]

variable (t)

theorem deals_added (w : World) (b : Bridge) (a : Trampoline) :
    w.Deals t [.added (b.registration a)] (w.native (.callbackAdd b.handle b.event (.trampoline a))) := by
  unfold Deals dealings
  rw [crossings_native]
  by_cases ha : a = t <;> simp [Deed.telling, Bridge.registration, NativeCall.trampoline?, SignalCallback.trampoline?, ha]

theorem deals_removed (w : World) (b : Bridge) (a : Trampoline) :
    w.Deals t [.removed (b.registration a)] (w.native (.callbackDel b.handle b.event (.trampoline a))) := by
  unfold Deals dealings
  rw [crossings_native]
  by_cases ha : a = t <;> simp [Deed.telling, Bridge.registration, NativeCall.trampoline?, SignalCallback.trampoline?, ha]

theorem deals_unregister (b : Bridge) (ts : List Trampoline) (w : World) :
    w.Deals t (b.withdrawing ts) (w.unregister b ts) := by
  induction ts generalizing w with
  | nil => exact .of_same rfl nofun
  | cons a ts ih => exact (w.deals_removed t b a).trans (ih _)

theorem deals_closeBridge (w : World) (b : Bridge) : w.Deals t b.closing (w.closeBridge b) := by
  unfold closeBridge Bridge.closing
  split
  · exact .of_same rfl nofun
  · exact deals_unregister t b b.listeners w

theorem deals_bridged {w w' : World} {ds : List Deed} {name : String} {b : Option Bridge} (h : w.Deals t ds w') :
    w.Deals t (.bridged name b :: ds) w' := h

/-- Closing the bridge of a name once something else stands under it. -/
theorem deals_closingOf {w v : World} {name : String} (same : v.dealings t = w.dealings t) :
    w.Deals t (w.closingOf name) (match w.bridges.get? name with
      | some b => v.closeBridge b
      | none => v) := by
  unfold closingOf
  cases w.bridges.get? name with
  | none => exact .of_same same nofun
  | some b =>
    have closed := v.deals_closeBridge t b
    unfold Deals at *
    rwa [same] at closed

theorem deals_subscribe (w : World) (name : String) (b : Bridge) (handler : String) :
    w.Deals t ((Op.subscribe name b handler).deeds w) (w.subscribe name b handler) := by
  rcases hr : b.refusal? with _ | e
  · simp only [subscribe, Op.deeds, hr]
    exact deals_added t { w.setBridge name (b.addListener (b.trampoline w.nextTrampoline handler)) with
      nextTrampoline := w.nextTrampoline + 1 } b (b.trampoline w.nextTrampoline handler)
  · simp only [subscribe, Op.deeds, hr]
    exact .of_same rfl (List.forall_mem_nil _)

/-! ## Operations and jobs -/

/-- An operation tells the toolkit about a trampoline what its deeds say. -/
theorem deals_perform (w : World) {op : Op} (ht : op.Typed w) : w.Deals t (op.deeds w) (w.perform op).1 := by
  by_cases about : op.bridge? = none
  · -- no deed is about a trampoline, so the dealings have to be the same
    refine .of_same ?_ fun d hd => Deed.telling_foreign (foreign_op ht about d hd) t
    cases op with
    | destroy h => exact w.dealings_destroy t h
    | native c =>
      cases c with
      | itemDel h => exact (Frame.carryOut (f := (·.dealings t)) (dealings_destroy t) _ h).trans (w.dealings_callToolkit t _)
      | _ => exact ((frame_dealings t).answering _ _).trans (w.dealings_callToolkit t _)
    | delete ref => exact (frame_dealings t).delete (fun _ => rfl) (dealings_destroy t) w ref
    | letGo space => cases space <;> rfl
    | newBridge | dropBridge | subscribe | unsubscribe | shutdown | detach => cases about
    | createItem | createObject | adopt | flush => rfl
    | _ => exact (frame_dealings t).perform w (by simp [Op.Plain, NativeCall.trampoline?])
  · cases op with
    | newBridge name b => exact w.deals_closingOf t rfl
    | dropBridge name =>
      have closed : w.Deals t (w.closingOf name) _ :=
        w.deals_closingOf t (v := { w with bridges := w.bridges.erase name }) rfl
      refine deals_bridged t ?_
      show w.Deals t (w.closingOf name) (w.dropBridge name)
      unfold dropBridge
      cases hb : w.bridges.get? name with
      | none => exact .of_same rfl (by simp [closingOf, hb])
      | some b => rwa [hb] at closed
    | subscribe name b handler => exact w.deals_subscribe t name b handler
    | unsubscribe name b handler => exact deals_unregister t b (b.listenersOf handler) _
    | shutdown name b => exact deals_closeBridge t _ b
    | detach name b => exact .of_same rfl (by simp [Op.deeds, Deed.telling])
    | _ => exact absurd rfl about

end World

/-- So does a job. -/
theorem Job.deals_expand (t : Trampoline) (w : World) {j : Job} (ht : ∀ choose, j = .act choose → (choose w).Typed w) :
    w.Deals t (j.deeds w) (j.expand w).1 := by
  have quiet {w' : World} (h : w'.dealings t = w.dealings t) (ds : List Deed)
      (hd : ∀ d ∈ ds, (∃ a, d = .felled a) ∨ ∃ ref, d = .cleared ref) : w.Deals t ds w' := by
    refine .of_same h fun d hm => ?_
    obtain ⟨a, rfl⟩ | ⟨ref, rfl⟩ := hd d hm <;> rfl
  have books (hj : j.KeepsBooks) : (j.expand w).1.dealings t = w.dealings t := World.dealings_steady t (j.steady_expand w hj)
  cases j with
  | act choose => exact w.deals_perform t (ht choose rfl)
  | invalidate ref => exact quiet (books trivial) _ fun d hd => Or.inr ⟨ref, World.mem_clears hd⟩
  | destroyQueued h => exact quiet (w.dealings_destroyQueued t h) _ fun d hd => Or.inl ⟨h, Toolkit.mem_fells hd⟩
  | endFlush => exact quiet (w.dealings_endFlush t) [] nofun
  | _ => exact quiet (books trivial) [] nofun

/-- And a step. -/
theorem Turn.deals {k : Conduct} {s s' : State} (h : Turn k s s') (t : Trampoline) : s.world.Deals t s.deeds s'.world := by
  obtain ⟨p, w, task, ts, ok⟩ := h
  show w.Deals t (task.job.deeds w) (p.expand task w).1
  by_cases he : ∃ c, task.job = .enter c
  · obtain ⟨level, job⟩ := task
    obtain ⟨c, rfl⟩ := he
    cases level <;> exact .of_same rfl nofun
  · rw [p.expand_eq task w fun c h => he ⟨c, h⟩]
    exact Job.deals_expand t w fun choose hj => (ok choose hj).1

namespace Course

variable {k : Conduct} (c : Course k) {n : Nat}

theorem dealings_succ (hn : n < c.length) (t : Trampoline) :
    (c.state (n + 1)).world.dealings t =
      ((c.state n).deeds.filterMap (Deed.telling t)).reverse ++ (c.state n).world.dealings t := by
  have h := c.next n hn
  generalize c.state (n + 1) = s' at h
  generalize c.state n = s at h
  cases h with
  | call w level choose => rfl
  | turn ht => exact ht.deals t

end Course

end HandleBridge
