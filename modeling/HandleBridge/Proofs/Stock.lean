/-
  HandleBridge.Proofs.Stock — which items are alive, and which of them wait to be destroyed.

  The `stock` of a world is what the toolkit's queue of deletes is about: the items that are
  alive, the queue, what the flushes in progress have counted, and the mode. Few tasks
  change it. For each of them it is said once what it does, from the world in which its turn
  comes: which item it makes (`Job.Makes`), which request it queues (`Job.Queues`), which item
  it destroys (the `felled` of `Job.deeds`), what it does to the counts (`Job.onFlushing`).

  - `Program.alive_expand`, `Program.mem_pending_expand`, `Program.flushing_expand`: the stock after
    a task.
  - `Program.queued_expand`: the queue has no handle twice and holds only what is alive.
  - `slots_expand`: a delete callback comes due from the destruction of its item, in front of
    everything else that the task makes due.
-/
import HandleBridge.Proofs.Frame
import HandleBridge.Proofs.Teardown
import HandleBridge.Proofs.Trampolines

namespace HandleBridge

namespace World

def stock (w : World) : (Handle → Bool) × List Handle × List Nat × DeleteMode :=
  (w.toolkit.items.contains, w.toolkit.pending, w.flushing, w.toolkit.mode)

theorem stock_eq {w w' : World} (h : w'.stock = w.stock) :
    (∀ a, w'.toolkit.items.contains a = w.toolkit.items.contains a) ∧ w'.toolkit.pending = w.toolkit.pending ∧
      w'.flushing = w.flushing ∧ w'.toolkit.mode = w.toolkit.mode := by
  simp only [stock, Prod.mk.injEq] at h
  exact ⟨fun a => congrFun h.1 a, h.2⟩

/-! ## Changes that leave it alone -/

/-- A call other than a request to destroy. -/
theorem stock_apply (t : Toolkit) {c : NativeCall} (hc : ∀ h, c ≠ .itemDel h) :
    (t.apply c).items.contains = t.items.contains ∧ (t.apply c).pending = t.pending ∧ (t.apply c).mode = t.mode := by
  refine ⟨funext fun a => t.contains_apply c a, ?_⟩
  cases c with
  | itemDel h => exact absurd rfl (hc h)
  | objectDel h =>
    simp only [Toolkit.apply, Toolkit.effect]
    split <;> exact ⟨rfl, rfl⟩
  | _ => exact ⟨rfl, rfl⟩

theorem stock_callToolkit (w : World) {c : NativeCall} (hc : ∀ h, c ≠ .itemDel h) : (w.callToolkit c).stock = w.stock := by
  obtain ⟨ha, hp, hm⟩ := stock_apply w.toolkit hc
  have ht : (w.callToolkit c).toolkit = w.toolkit.apply c := congrArg (·.1) (w.core_callToolkit c)
  have hf : (w.callToolkit c).flushing = w.flushing := by
    unfold callToolkit
    cases w.toolkit.complaint c <;> rfl
  simp only [stock, ht, hf, ha, hp, hm]

theorem stock_steady {w w' : World} (h : w'.steady = w.steady) : w'.stock = w.stock := by
  simp only [steady, Prod.mk.injEq] at h
  simp only [stock, h.1, h.2.2.1]

/-- Nothing but requests to destroy is about the stock. -/
theorem frame_stock : Frame stock (fun c => ∀ h, c ≠ .itemDel h) fun _ => True where
  steady := stock_steady
  native w c hc := stock_callToolkit (w.emit (.native c)) hc
  ids w space _ _ _ _ := by cases space <;> rfl

end World

/-! ## What is about to be done to it -/

/-- The item whose destruction the operation asks the toolkit for. -/
def Op.requested? (w : World) : Op → Option Handle
  | .native (.itemDel h) => some h
  | .delete ref => if (w.handleOf ref).isNull then none else some (w.handleOf ref)
  | _ => none

/-- The operation makes `a` an item. -/
def Op.Makes (w : World) (a : Handle) : Op → Prop
  | .createItem => w.toolkit.freshHandle = a
  | .adopt h => h = a
  | _ => False

/-- The request that the operation adds to the queue. -/
def Op.queues (w : World) (op : Op) : List Handle :=
  match op.requested? w, w.toolkit.mode with
  | some h, .deferred => if w.toolkit.items.contains h ∧ h ∉ w.toolkit.pending then [h] else []
  | _, _ => []

namespace Job

def Makes (w : World) (a : Handle) : Job → Prop
  | .act choose => (choose w).Makes w a
  | _ => False

def queues (w : World) : Job → List Handle
  | .act choose => (choose w).queues w
  | _ => []

/-- Whether the job takes the whole queue. -/
def takes (w : World) : Job → Bool
  | .act choose => match choose w with
    | .flush => true
    | _ => false
  | _ => false

/-- What is left in the queue of the requests that were there. -/
def spares (w : World) (j : Job) : List Handle :=
  if j.takes w then [] else w.toolkit.pending.filter (.felled · ∉ j.deeds w)

/-- What becomes of the counts of the flushes in progress. -/
def onFlushing (w : World) (ns : List Nat) : Job → List Nat
  | .destroyQueued h => if w.toolkit.items.contains h then ns.modifyHead (· + 1) else ns
  | .endFlush => ns.tail
  | j => if j.takes w then 0 :: ns else ns

end Job

namespace Toolkit

theorem felled_mem_fells {t : Toolkit} {h a : Handle} : .felled a ∈ t.fells h ↔ t.items.contains a = true ∧ h = a := by
  unfold fells
  split
  · rename_i hc
    simp only [List.mem_singleton, Deed.felled.injEq]
    exact ⟨fun e => ⟨e ▸ hc, e.symm⟩, fun e => e.2.symm⟩
  · rename_i hc
    simp only [List.not_mem_nil, false_iff, not_and]
    rintro ha rfl
    exact hc ha

theorem felled_mem_fellsNow {t : Toolkit} {h a : Handle} :
    .felled a ∈ t.fellsNow h ↔ t.items.contains a = true ∧ t.mode = .synchronous ∧ h = a := by
  unfold fellsNow
  split
  · rename_i hm
    simp [felled_mem_fells, hm]
  · rename_i hm
    simp [hm]

end Toolkit

theorem NativeCall.felled_not_mem {t : Toolkit} {c : NativeCall} {a : Handle} : .felled a ∉ c.deeds t := by
  cases c with
  | objectDel | partContentSet =>
    simp only [deeds]
    split <;> simp
  | _ => simp [deeds]

/-- An operation destroys an item when it is told to, or when it asks for it and the toolkit does
    it at once. -/
theorem Op.felled_mem {w : World} {op : Op} {a : Handle} :
    .felled a ∈ op.deeds w ↔ w.toolkit.items.contains a = true ∧
      (op = .destroy a ∨ (w.toolkit.mode = .synchronous ∧ op.requested? w = some a)) := by
  have bridged {b : Bridge} : .felled a ∉ b.closing := fun hm => by
    obtain ⟨t, -, e⟩ := Bridge.mem_closing hm
    cases e
  cases op with
  | destroy h => simp [deeds, requested?, Toolkit.felled_mem_fells]
  | native c =>
    cases c with
    | itemDel h => simp [deeds, requested?, Toolkit.felled_mem_fellsNow]
    | _ => simp [deeds, requested?, NativeCall.felled_not_mem]
  | delete ref =>
    simp only [deeds, requested?]
    split
    · simp
    · simp [Toolkit.felled_mem_fellsNow]
  | setContent ref part content preserve =>
    simp only [deeds, requested?, World.puts]
    split
    · simp
    · split <;> simp [NativeCall.felled_not_mem]
  | newBridge name b | dropBridge name =>
    simp only [deeds, requested?, List.mem_cons, reduceCtorEq, and_false, or_false, false_or, iff_false]
    intro hm
    obtain ⟨b, -, t, -, e⟩ := World.mem_closingOf hm
    cases e
  | subscribe name b handler =>
    simp only [deeds, requested?]
    split <;> simp
  | unsubscribe name b handler => simp [deeds, requested?, Bridge.mem_withdrawing]
  | shutdown name b => simp [deeds, requested?, bridged]
  | _ => simp [deeds, requested?]

theorem Job.felled_mem {w : World} {j : Job} {a : Handle} (h : .felled a ∈ j.deeds w) :
    w.toolkit.items.contains a = true ∧ (j = .destroyQueued a ∨ ∃ choose, j = .act choose ∧
      (choose w = .destroy a ∨ (w.toolkit.mode = .synchronous ∧ (choose w).requested? w = some a))) := by
  cases j with
  | act choose =>
    obtain ⟨alive, h⟩ := Op.felled_mem.mp h
    exact ⟨alive, Or.inr ⟨choose, rfl, h⟩⟩
  | destroyQueued b =>
    obtain ⟨alive, rfl⟩ := Toolkit.felled_mem_fells.mp h
    exact ⟨alive, Or.inl rfl⟩
  | invalidate ref => cases World.mem_clears h
  | _ => cases h

/-! ## The destruction of an item -/

namespace Toolkit

theorem contains_without (t : Toolkit) (h a : Handle) :
    (t.without h).items.contains a = true ↔ t.items.contains a = true ∧ h ≠ a := by
  simp only [without, Table.contains, Table.get?_erase]
  by_cases ha : a = h
  · simp [ha]
  · simp [ha, Ne.symm ha]

theorem contains_adopt_iff (t : Toolkit) (h a : Handle) :
    (t.adopt h).items.contains a = true ↔ h = a ∨ t.items.contains a = true := by
  simp only [adopt]
  by_cases hc : t.items.contains h = true
  · rw [if_pos hc]
    exact ⟨Or.inr, fun e => e.elim (fun e => e ▸ hc) id⟩
  · rw [if_neg hc, Table.contains, Table.get?_insert]
    by_cases ha : a = h
    · simp [ha]
    · simp [ha, Ne.symm ha, Table.contains]

/-- Nothing of `h` is left, and it counts as destroyed. -/
theorem without_gone (t : Toolkit) (h : Handle) :
    (t.without h).items.contains h = false ∧ h ∉ (t.without h).pending ∧
      (∀ r ∈ (t.without h).registrations, r.object ≠ h) ∧ h ∈ (t.without h).destroyed := by
  refine ⟨?_, ?_, ?_, ?_⟩
  · simp [without, Table.contains]
  · simp [without]
  · intro r hr
    exact of_decide_eq_true (List.mem_filter.mp hr).2
  · exact (mem_addHandle h h _).mpr (Or.inl rfl)

end Toolkit

namespace World

theorem destroy_of_alive {w : World} {h : Handle} (hc : w.toolkit.items.contains h = true) :
    w.destroy h = ({ w with toolkit := w.toolkit.without h }.log (.destroyed h),
      (w.toolkit.deleteSlot h).toList.map (.slot · h)) := by
  obtain ⟨i, hi⟩ := Option.isSome_iff_exists.mp hc
  have slot : w.toolkit.deleteSlot h = i.deleteSlot := by simp [Toolkit.deleteSlot, hi]
  simp only [destroy, Toolkit.destroy?_alive hi, slot]
  cases i.deleteSlot <;> rfl

/-- The stock after the turn of a job. -/
structure Restocked (w : World) (j : Job) (w' : World) : Prop where
  alive : ∀ a, w'.toolkit.items.contains a = true ↔
    j.Makes w a ∨ (w.toolkit.items.contains a = true ∧ .felled a ∉ j.deeds w)
  pending : w'.toolkit.pending = j.spares w ++ j.queues w
  flushing : w'.flushing = j.onFlushing w w.flushing
  mode : w'.toolkit.mode = w.toolkit.mode

variable {w w' : World} {j : Job}

theorem spares_eq (ht : j.takes w = false) (hd : ∀ a, .felled a ∉ j.deeds w) : j.spares w = w.toolkit.pending := by
  simp [Job.spares, ht, hd]

/-- A job that has nothing to do with the stock. -/
theorem Restocked.of_same (h : w'.stock = w.stock) (hm : ∀ a, ¬ j.Makes w a) (hd : ∀ a, .felled a ∉ j.deeds w)
    (hq : j.queues w = []) (ht : j.takes w = false) (hf : j.onFlushing w w.flushing = w.flushing) : w.Restocked j w' := by
  obtain ⟨ha, hp, hn, hmode⟩ := stock_eq h
  refine ⟨fun a => ?_, ?_, hn.trans hf.symm, hmode⟩
  · simp [ha, hm, hd]
  · rw [hp, spares_eq ht hd, hq, List.append_nil]

@[simp] theorem toolkit_countFlushed (w : World) : w.countFlushed.toolkit = w.toolkit := by
  unfold countFlushed
  split <;> rfl

/-- A job that destroys `h` if it is alive. -/
theorem Restocked.of_destroy {h : Handle} {v : World}
    (hv : v.stock = (w.toolkit.items.contains, w.toolkit.pending, j.onFlushing w w.flushing, w.toolkit.mode))
    (hm : ∀ a, ¬ j.Makes w a) (hd : ∀ a, .felled a ∈ j.deeds w ↔ w.toolkit.items.contains a = true ∧ h = a)
    (hq : j.queues w = []) (ht : j.takes w = false) : w.Restocked j (v.destroy h).1 := by
  simp only [stock, Prod.mk.injEq] at hv
  obtain ⟨halive, hpending, hflushing, hmode⟩ := hv
  cases hc : w.toolkit.items.contains h
  · have none (a : Handle) : .felled a ∉ j.deeds w := fun e => by
      obtain ⟨ha, rfl⟩ := (hd a).mp e
      rw [hc] at ha
      cases ha
    rw [destroy_unknown (by rw [halive]; exact hc)]
    refine ⟨fun a => ?_, ?_, hflushing, hmode⟩
    · simp [log, emit, halive, hm, none]
    · rw [spares_eq ht none, hq, List.append_nil]
      exact hpending
  · rw [destroy_of_alive (by rw [halive]; exact hc)]
    refine ⟨fun a => ?_, ?_, hflushing, hmode⟩
    · simp only [log, emit, hm, hd, false_or, Toolkit.contains_without, halive]
      exact ⟨fun e => ⟨e.1, fun f => e.2 f.2⟩, fun e => ⟨e.1, fun f => e.2 ⟨e.1, f⟩⟩⟩
    · simp only [Job.spares, ht, hd, hq, log, emit, Toolkit.without, Bool.false_eq_true, if_false, List.append_nil, hpending]
      refine List.filter_congr fun a _ => ?_
      by_cases ha : a = h
      · simp [ha, hc]
      · simp [ha, Ne.symm ha]

/-- A job that makes `h` an item and does nothing else to the stock. -/
theorem Restocked.of_made {h : Handle}
    (ha : ∀ a, w'.toolkit.items.contains a = true ↔ h = a ∨ w.toolkit.items.contains a = true)
    (hs : w'.toolkit.pending = w.toolkit.pending ∧ w'.flushing = w.flushing ∧ w'.toolkit.mode = w.toolkit.mode)
    (hm : ∀ a, j.Makes w a ↔ h = a) (hd : ∀ a, .felled a ∉ j.deeds w) (hq : j.queues w = []) (ht : j.takes w = false)
    (hf : j.onFlushing w w.flushing = w.flushing) : w.Restocked j w' := by
  refine ⟨fun a => ?_, ?_, hs.2.1.trans hf.symm, hs.2.2⟩
  · simp [ha, hm, hd]
  · rw [hs.1, spares_eq ht hd, hq, List.append_nil]

/-- A request of the program, which the toolkit carries out or queues. -/
theorem Restocked.of_request {op : Op} {h : Handle} {v : World} (hr : op.requested? w = some h)
    (hv : v.toolkit = w.toolkit.apply (.itemDel h)) (hf : v.flushing = w.flushing) :
    w.Restocked (.act fun _ => op) (v.carryOut h).1 := by
  have makes (a : Handle) : ¬ op.Makes w a := by cases op <;> first | exact id | cases hr
  have takes : (Job.act fun _ => op).takes w = false := by cases op <;> first | rfl | cases hr
  have counts : (Job.act fun _ => op).onFlushing w w.flushing = w.flushing := by simp [Job.onFlushing, takes]
  have felled (a : Handle) : .felled a ∈ op.deeds w ↔
      w.toolkit.items.contains a = true ∧ w.toolkit.mode = .synchronous ∧ h = a := by
    have told : op ≠ .destroy a := fun e => by
      rw [e] at hr
      cases hr
    simp [Op.felled_mem, told, hr]
  cases hmode : w.toolkit.mode
  · have still : v.toolkit = { w.toolkit with calls := w.toolkit.calls + 1 } := by
      simp only [hv, Toolkit.apply, Toolkit.effect, hmode]
    have carried : v.carryOut h = v.destroy h := by simp only [carryOut, still, hmode]
    rw [carried]
    refine .of_destroy ?_ makes (fun a => by simp [Job.deeds, felled, hmode]) ?_ takes
    · simp only [stock, still, hf, counts]
    · simp only [Job.queues, Op.queues, hr, hmode]
  · have queued : v.toolkit.pending = w.toolkit.pending ++ op.queues w ∧ v.toolkit.mode = .deferred := by
      simp only [hv, Toolkit.apply, Toolkit.effect, Op.queues, hr, hmode]
      split <;> simp [hmode]
    have kept : v.carryOut h = (v, []) := by simp only [carryOut, queued.2]
    have none (a : Handle) : .felled a ∉ (Job.act fun _ => op).deeds w := by simp [Job.deeds, felled, hmode]
    have alive (a : Handle) : v.toolkit.items.contains a = w.toolkit.items.contains a := by
      rw [hv]
      exact Toolkit.contains_apply _ _ a
    rw [kept]
    refine ⟨fun a => ?_, ?_, hf.trans counts.symm, queued.2.trans hmode.symm⟩
    · simp [alive, none, Job.Makes, makes]
    · rw [spares_eq takes none]
      exact queued.1

/-- What an operation does to the stock. -/
theorem restocked_perform (w : World) (op : Op) : w.Restocked (.act fun _ => op) (w.perform op).1 := by
  have quiet (h : (w.perform op).1.stock = w.stock) (hm : ∀ a, ¬ op.Makes w a) (hr : op.requested? w = none)
      (hd : ∀ a, op ≠ .destroy a) (ht : (Job.act fun _ => op).takes w = false) :
      w.Restocked (.act fun _ => op) (w.perform op).1 :=
    .of_same h hm (fun a => by simp [Job.deeds, Op.felled_mem, hr, hd]) (by simp [Job.queues, Op.queues, hr]) ht
      (by simp [Job.onFlushing, ht])
  cases op with
  | createItem =>
    exact .of_made (fun a => Toolkit.contains_adopt_iff _ _ a) ⟨rfl, rfl, rfl⟩ (fun a => Iff.rfl)
      (fun a => by simp [Job.deeds, Op.deeds]) rfl rfl rfl
  | adopt h =>
    exact .of_made (fun a => Toolkit.contains_adopt_iff _ h a) ⟨rfl, rfl, rfl⟩ (fun a => Iff.rfl)
      (fun a => by simp [Job.deeds, Op.deeds]) rfl rfl rfl
  | destroy h =>
    exact .of_destroy rfl (fun _ => id) (fun a => Toolkit.felled_mem_fells) rfl rfl
  | flush =>
    refine ⟨fun a => ?_, rfl, rfl, rfl⟩
    simp [perform, flush, Toolkit.takePending, Job.Makes, Op.Makes, Job.deeds, Op.deeds]
  | native c =>
    have called : (∀ h, c ≠ .itemDel h) → ((w.callToolkit c).answering (w.replyTo c)).stock = w.stock := w.stock_callToolkit
    cases c with
    | itemDel h => exact .of_request rfl (congrArg (·.1) (w.core_callToolkit (.itemDel h))) rfl
    | _ => exact quiet (called (by simp)) (fun _ => id) rfl (by simp) rfl
  | delete ref =>
    simp only [perform, delete]
    cases hn : (w.handleOf ref).isNull
    · exact .of_request (by simp [Op.requested?, hn]) (toolkit_native _ _) rfl
    · exact .of_same rfl (fun _ => id) (fun a => by simp [Job.deeds, Op.deeds, hn])
        (by simp [Job.queues, Op.queues, Op.requested?, hn]) rfl rfl
  | createObject => exact quiet rfl (fun _ => id) rfl (by simp) rfl
  | letGo space => exact quiet (by cases space <;> rfl) (fun _ => id) rfl (by simp) rfl
  | _ => exact quiet (frame_stock.perform w (by simp [Op.Plain])) (fun _ => id) rfl (by simp) rfl

end World

/-! ## The stock after a task -/

theorem Job.restocked (w : World) (j : Job) : w.Restocked j (j.expand w).1 := by
  have quiet (hj : j.KeepsBooks) (hm : ∀ a, ¬ j.Makes w a) (hd : ∀ a, .felled a ∉ j.deeds w) (hq : j.queues w = [])
      (ht : j.takes w = false) (hf : j.onFlushing w w.flushing = w.flushing) : w.Restocked j (j.expand w).1 :=
    .of_same (World.stock_steady (j.steady_expand w hj)) hm hd hq ht hf
  have done : ∀ a, .felled a ∉ ([] : List Deed) := by simp
  cases j with
  | act choose =>
    obtain ⟨alive, pending, flushing, mode⟩ := w.restocked_perform (choose w)
    exact ⟨alive, pending, flushing, mode⟩
  | destroyQueued h =>
    refine .of_destroy ?_ (fun _ => id) (fun a => Toolkit.felled_mem_fells) rfl rfl
    simp only [onFlushing, World.countFlushed]
    split
    · split <;> simp [World.stock, *]
    · rfl
  | endFlush =>
    have popped : w.endFlush.toolkit = w.toolkit ∧ w.endFlush.flushing = w.flushing.tail := by
      unfold World.endFlush
      split <;> simp [World.answering, *]
    obtain ⟨ht, hf⟩ := popped
    refine ⟨fun a => ?_, ?_, hf, congrArg (·.mode) ht⟩
    · simp [expand, ht, Makes, deeds]
    · simp [expand, ht, spares, takes, deeds, queues]
  | invalidate ref => exact quiet trivial (fun _ => id) (fun a hm => by cases World.mem_clears hm) rfl rfl rfl
  | _ => exact quiet trivial (fun _ => id) done rfl rfl rfl

theorem Program.restocked (p : Program) (t : Task) (w : World) : w.Restocked t.job (p.expand t w).1 := by
  by_cases he : ∃ c, t.job = .enter c
  · obtain ⟨level, job⟩ := t
    obtain ⟨c, rfl⟩ := he
    cases level <;> exact .of_same rfl (fun _ => id) (fun a => by simp [Job.deeds]) rfl rfl rfl
  · rw [p.expand_eq t w fun c h => he ⟨c, h⟩]
    exact t.job.restocked w

namespace World

/-- What waits to be destroyed waits once, and is alive. -/
structure Queued (w : World) : Prop where
  once : w.toolkit.pending.Nodup
  alive : ∀ a ∈ w.toolkit.pending, w.toolkit.items.contains a = true

variable {w w' : World} {j : Job} {a : Handle}

theorem mem_spares : a ∈ j.spares w ↔ a ∈ w.toolkit.pending ∧ j.takes w = false ∧ .felled a ∉ j.deeds w := by
  unfold Job.spares
  split <;> simp [*]

theorem mem_queues (h : a ∈ j.queues w) :
    w.toolkit.items.contains a = true ∧ a ∉ w.toolkit.pending ∧ w.toolkit.mode = .deferred ∧
      (∃ choose, j = .act choose ∧ (choose w).requested? w = some a) := by
  cases j with
  | act choose =>
    simp only [Job.queues, Op.queues] at h
    split at h
    · rename_i hr hm
      split at h
      · rename_i hc
        cases List.mem_singleton.mp h
        exact ⟨hc.1, hc.2, hm, choose, rfl, hr⟩
      · cases h
    · cases h
  | _ => cases h

theorem nodup_queues (w : World) (j : Job) : (j.queues w).Nodup := by
  cases j with
  | act choose =>
    simp only [Job.queues, Op.queues]
    split
    · split <;> simp
    · simp
  | _ => exact List.nodup_nil

/-- In the mode in which requests are queued, what is requested is not destroyed. -/
theorem not_felled_of_queues (h : a ∈ j.queues w) : .felled a ∉ j.deeds w := by
  obtain ⟨-, -, hm, choose, rfl, hr⟩ := mem_queues h
  intro hd
  rcases (Op.felled_mem.mp hd).2 with e | ⟨e, -⟩
  · rw [e] at hr
    cases hr
  · rw [hm] at e
    cases e

theorem Restocked.queued (h : w.Restocked j w') (hq : w.Queued) : w'.Queued := by
  refine ⟨?_, fun a ha => ?_⟩
  · rw [h.pending, List.nodup_append]
    refine ⟨?_, w.nodup_queues j, fun a ha b hb e => ?_⟩
    · unfold Job.spares
      split
      · exact List.nodup_nil
      · exact hq.once.filter _
    · exact (mem_queues hb).2.1 (e ▸ (mem_spares.mp ha).1)
  · rw [h.pending, List.mem_append] at ha
    rw [h.alive]
    rcases ha with ha | ha
    · obtain ⟨hp, -, hd⟩ := mem_spares.mp ha
      exact Or.inr ⟨hq.alive a hp, hd⟩
    · exact Or.inr ⟨(mem_queues ha).1, not_felled_of_queues ha⟩

end World

theorem Reach.queued {k : Conduct} {c : State} (h : Reach k c) : c.world.Queued := by
  refine h.invariant (I := fun c => c.world.Queued) (fun mode => ⟨List.nodup_nil, nofun⟩) (fun _ _ _ h => h) ?_
  rintro c c' hc ⟨p, w, t, ts, ok⟩
  exact (p.restocked t w).queued hc

/-! ## Delete callbacks -/

namespace World

variable {w : World} {h a : Handle} {cb : DeleteCallback}

theorem slot_mem_destroy (hm : .slot cb a ∈ (w.destroy h).2) : w.toolkit.items.contains a = true ∧ h = a := by
  cases hc : w.toolkit.items.contains h
  · rw [destroy_unknown hc] at hm
    cases hm
  · rw [destroy_of_alive hc] at hm
    obtain ⟨cb', -, e⟩ := List.mem_map.mp hm
    cases e
    exact ⟨hc, rfl⟩

theorem slot_mem_carryOut (hm : .slot cb a ∈ (w.carryOut h).2) :
    w.toolkit.items.contains a = true ∧ w.toolkit.mode = .synchronous ∧ h = a := by
  cases hmode : w.toolkit.mode
  · simp only [carryOut, hmode] at hm
    obtain ⟨hc, e⟩ := slot_mem_destroy hm
    exact ⟨hc, rfl, e⟩
  · simp only [carryOut, hmode] at hm
    cases hm

/-- A request to destroy `h`, made in world `w`, is carried out in the same world but for the count
    of calls, or it is queued. -/
theorem felled_of_request {v : World} (hv : v.toolkit = w.toolkit.apply (.itemDel h)) (hm : .slot cb a ∈ (v.carryOut h).2) :
    .felled a ∈ w.toolkit.fellsNow h := by
  obtain ⟨hc, hmode, rfl⟩ := slot_mem_carryOut hm
  have mode : w.toolkit.mode = .synchronous := by
    cases hw : w.toolkit.mode
    · rfl
    · rw [hv] at hmode
      simp only [Toolkit.apply, Toolkit.effect, hw] at hmode
      split at hmode <;> simp [hw] at hmode
  rw [hv, Toolkit.contains_apply] at hc
  exact Toolkit.felled_mem_fellsNow.mpr ⟨hc, mode, rfl⟩

theorem felled_of_slot_perform {op : Op} (hm : .slot cb a ∈ (w.perform op).2) : .felled a ∈ op.deeds w := by
  cases op with
  | destroy h =>
    simp only [perform, List.mem_append, List.mem_singleton, reduceCtorEq, or_false] at hm
    exact Toolkit.felled_mem_fells.mpr (slot_mem_destroy hm)
  | native c =>
    cases c with
    | itemDel h =>
      simp only [perform, List.mem_append, List.mem_singleton, reduceCtorEq, or_false] at hm
      have same : (w.callToolkit (.itemDel h)).toolkit = w.toolkit.apply (.itemDel h) :=
        congrArg (·.1) (w.core_callToolkit (.itemDel h))
      exact felled_of_request same hm
    | _ => simp [perform] at hm
  | delete ref =>
    simp only [perform, delete] at hm
    simp only [Op.deeds]
    split at hm
    · cases hm
    · rename_i hn
      rw [if_neg hn]
      simp only [List.mem_append, List.mem_cons, List.not_mem_nil, reduceCtorEq, or_false] at hm
      have asked : ((((w.pin (.registry (w.spaceOf ref))).pin (.wrapper ref)).log (.deleteRequested (w.idOf ref)
          (w.handleOf ref))).native (.itemDel (w.handleOf ref))).toolkit = w.toolkit.apply (.itemDel (w.handleOf ref)) :=
        toolkit_native _ _
      exact felled_of_request asked hm
  | flush => simp [perform, flush] at hm
  | fire object event info => simp [perform, fire] at hm
  | nativeDelete space h => simp [perform] at hm
  | _ => cases hm

end World

/-- A delete callback comes due where its item is destroyed. -/
theorem felled_of_slot {p : Program} {t : Task} {w : World} {cb : DeleteCallback} {a : Handle}
    (hm : .slot cb a ∈ jobs (p.expand t w).2) : .felled a ∈ t.job.deeds w := by
  obtain ⟨level, job⟩ := t
  by_cases he : ∃ c, job = .enter c
  · obtain ⟨c, rfl⟩ := he
    rcases mem_jobs_enter hm with ⟨choose, e⟩ | e <;> cases e
  · rw [jobs_expand p _ w fun c h => he ⟨c, h⟩] at hm
    have low {n : Nat} (hn : n < 3) (hr : ∀ j ∈ (job.expand w).2, j.rank ≤ n) : .felled a ∈ job.deeds w :=
      absurd hm (World.noneDue_of_rank hn hr cb a)
    cases job with
    | act choose => exact World.felled_of_slot_perform hm
    | destroyQueued h =>
      obtain ⟨hc, e⟩ := World.slot_mem_destroy hm
      have same : (if w.toolkit.items.contains h then w.countFlushed else w).toolkit = w.toolkit := by split <;> simp
      rw [same] at hc
      exact Toolkit.felled_mem_fells.mpr ⟨hc, e⟩
    | slot cb' h => exact low (by decide : 2 < 3) (w.rank_runSlot cb' h)
    | nativeDelete space h => exact low (by decide : 1 < 3) (w.rank_nativeDelete space h)
    | invalidate ref => exact low (by decide : 0 < 3) fun j hj => Nat.le_of_eq (w.rank_invalidate ref j hj)
    | signal cb' object info =>
      exact low (by decide : 0 < 3) fun j hj => Nat.le_of_eq (w.rank_signal cb' object info j hj)
    | enter c => exact absurd ⟨c, rfl⟩ he
    | _ => cases hm

/-- What the destruction of an item leaves, and what it makes due: first the callback that was in
    the item's delete slot. -/
structure Felled (w : World) (a : Handle) (w' : World) (js : List Job) : Prop where
  gone : w'.toolkit.items.contains a = false
  unqueued : a ∉ w'.toolkit.pending
  unheard : ∀ r ∈ w'.toolkit.registrations, r.object ≠ a
  noted : a ∈ w'.toolkit.destroyed
  due : ∃ rest, js = (w.toolkit.deleteSlot a).toList.map (.slot · a) ++ rest ∧ World.NoneDue rest

theorem Felled.of_destroy {w v : World} {a : Handle} (hv : v.toolkit.items = w.toolkit.items)
    (hc : w.toolkit.items.contains a = true) {ks : List Job} (hk : World.NoneDue ks) :
    Felled w a (v.destroy a).1 ((v.destroy a).2 ++ ks) := by
  have slot : v.toolkit.deleteSlot a = w.toolkit.deleteSlot a := by simp only [Toolkit.deleteSlot, hv]
  rw [World.destroy_of_alive (by rw [hv]; exact hc), slot]
  obtain ⟨gone, unqueued, unheard, noted⟩ := v.toolkit.without_gone a
  exact ⟨gone, unqueued, unheard, noted, ks, rfl, hk⟩

theorem felled_expand {p : Program} {t : Task} {w : World} {a : Handle} (hd : .felled a ∈ t.job.deeds w) :
    Felled w a (p.expand t w).1 (jobs (p.expand t w).2) := by
  obtain ⟨level, job⟩ := t
  obtain ⟨hc, h⟩ := Job.felled_mem hd
  have carried {v : World} {ks : List Job} (hm : w.toolkit.mode = .synchronous)
      (hv : v.toolkit = w.toolkit.apply (.itemDel a)) (hk : World.NoneDue ks) :
      Felled w a (v.carryOut a).1 ((v.carryOut a).2 ++ ks) := by
    have still : v.toolkit = { w.toolkit with calls := w.toolkit.calls + 1 } := by
      simp only [hv, Toolkit.apply, Toolkit.effect, hm]
    have same : v.carryOut a = v.destroy a := by simp only [World.carryOut, still, hm]
    rw [same]
    exact .of_destroy (by rw [still]) hc hk
  rcases h with rfl | ⟨choose, rfl, h⟩
  · rw [jobs_expand p _ w (by simp), p.expand_eq _ w (by simp)]
    have counted : (if w.toolkit.items.contains a then w.countFlushed else w).toolkit = w.toolkit := by split <;> simp
    have none : World.NoneDue [] := by simp [World.NoneDue]
    have done := Felled.of_destroy (congrArg (·.items) counted) hc none
    rwa [List.append_nil] at done
  · rw [jobs_expand p _ w (by simp), p.expand_eq _ w (by simp)]
    show Felled w a (w.perform (choose w)).1 (w.perform (choose w)).2
    rcases h with ho | ⟨hm, hr⟩
    · rw [ho]
      exact .of_destroy rfl hc (by simp [World.NoneDue])
    · generalize choose w = op at hr
      cases op with
      | native c =>
        cases c with
        | itemDel b =>
          cases hr
          exact carried hm (congrArg (·.1) (w.core_callToolkit (.itemDel a))) (by simp [World.NoneDue])
        | _ => cases hr
      | delete ref =>
        simp only [Op.requested?] at hr
        split at hr
        · cases hr
        · rename_i hn
          cases hr
          simp only [World.perform, World.delete, hn, Bool.false_eq_true, if_false]
          exact carried hm (World.toolkit_native _ _) (by simp [World.NoneDue])
      | _ => cases hr

end HandleBridge
