/-
  HandleBridge.Proofs.DeleteModes — deleting now, deleting later, destroying.

  An item goes when we delete it, which the toolkit carries out at once or with the next
  flush, or when the toolkit destroys its object, which may overtake a queued delete of the
  same item. Where the observers leave everything alone, none of this shows in the end. Between two
  removals the world is `Swept`: some items are gone, and some wait in the queue.

  - `Swept.removal`: a removal takes an item from those that stand, or from the queue, and tells
    it so when its object goes. Of an item that is gone or waits, only a destruction is more
    than refused.
  - `Swept.flush`: a flush lets go of those that wait.
  - `delete_modes_agree`: where a sequence of removals and a flush lead depends only on which
    items were removed.
-/
import HandleBridge.Proofs.Cascade
import HandleBridge.Simulation

namespace HandleBridge

/-! ## What the program writes -/

/-- Neither the bridge nor the toolkit leaves such a record. -/
def Record.isNote : Record → Bool
  | .itemsCreated _ | .rowSelected .. | .rowNotMarked .. | .unknownSelected .. | .rowDeleted _ | .deletesFlushed _
  | .simulationFinished _ => true
  | _ => false

theorem Toolkit.isNote_complaint {t : Toolkit} {call : NativeCall} {r : Record}
    (h : t.complaint call = some r) : r.isNote = false := by
  have left (p : Prop) [Decidable p] {r' : Record} (hr : r'.isNote = false)
      (h : (if p then none else some r') = some r) : r.isNote = false := by
    split at h
    · cases h
    · cases h
      exact hr
  cases call with
  | itemDel | callbackAdd => cases h
  | _ => exact left _ rfl h

namespace World

/-- How many of the program's own records `c` counts. -/
def noted (c : Record → Bool) (w : World) : Nat :=
  w.history.countP fun
    | .log r => r.isNote && c r
    | _ => false

theorem noted_log (c : Record → Bool) (w : World) (r : Record) :
    (w.log r).noted c = w.noted c + if r.isNote && c r then 1 else 0 := List.countP_cons

theorem stage_native (w : World) (call : NativeCall) :
    (w.native call).stage = { w with toolkit := w.toolkit.apply call }.stage := by
  unfold native callToolkit
  split <;> rfl

theorem noted_native (c : Record → Bool) (w : World) (call : NativeCall) : (w.native call).noted c = w.noted c := by
  unfold native callToolkit
  split
  · rename_i r hr
    have complaint : r.isNote = false := Toolkit.isNote_complaint hr
    refine (noted_log c (w.emit (.native call)) r).trans ?_
    simp only [complaint, Bool.false_and, Bool.false_eq_true, if_false]
    rfl
  · rfl

/-- The toolkit's queue, the flushes in progress, and what the program has written. -/
def ledger (c : Record → Bool) (w : World) : List Handle × List Nat × Nat :=
  (w.toolkit.pending, w.flushing, w.noted c)

variable (c : Record → Bool)

theorem ledger_setRegistry (w : World) (space : Space) (r : Registry) :
    (w.setRegistry space r).ledger c = w.ledger c := by
  cases space <;> rfl

theorem ledger_forget (w : World) (space : Space) (id : ItemId) : (w.forget space id).ledger c = w.ledger c := by
  unfold forget
  split
  · exact w.ledger_setRegistry c _ _
  · rfl

theorem ledger_release (w : World) (ref : Ref) : (w.release ref).ledger c = w.ledger c := by
  unfold release
  split
  · rfl
  · split
    · rfl
    · split
      · exact ledger_forget c _ _ _
      · rfl

theorem ledger_unpin (w : World) (p : Pin) : (w.unpin p).ledger c = w.ledger c := by
  cases p with
  | wrapper ref => exact ledger_release c _ _
  | _ => rfl

theorem ledger_invalidate (w : World) (ref : Ref) : (w.invalidate ref).1.ledger c = w.ledger c := by
  unfold invalidate
  split
  · rfl
  · split <;> rfl

theorem ledger_releaseHandle (w : World) (ref : Ref) : (w.releaseHandle ref).ledger c = w.ledger c := by
  unfold releaseHandle
  split <;> rfl

theorem ledger_settle (w : World) (space : Space) (h : Handle) (id : ItemId) (wrapper : Option Ref) :
    (w.settle space h id wrapper).ledger c = w.ledger c := by
  have dropped := w.ledger_setRegistry c space ((w.registry space).endDying h id)
  rcases wrapper with _ | ref
  · simp only [settle]
    split <;> exact dropped
  · simp only [settle, ledger_unpin]
    split
    · exact dropped
    · split
      · rw [ledger_releaseHandle, dropped]
      · exact dropped

theorem ledger_closed (w : World) (ref : Ref) (id : ItemId) (h : Handle) :
    (w.closed ref id h).ledger c = w.ledger c := by
  rw [closed, ledger_unpin, ledger_settle, ledger_invalidate]

theorem ledger_finished (w : World) (ref : Ref) (space : Space) : (w.finished ref space).ledger c = w.ledger c := by
  show (((w.releaseHandle ref).unpin (.wrapper ref)).unpin (.registry space)).ledger c = _
  rw [ledger_unpin, ledger_unpin, ledger_releaseHandle]

end World

/-! ## Observers that leave everything alone -/

/-- The observers are called and leave bridge and toolkit alone. For each `(c, k)` of `counts` they
    write `k` of the records that `c` counts. -/
def Program.Heeds (p : Program) (counts : List ((Record → Bool) × Nat)) (level : Nat)
    (handlers : List String) (ref : Ref) : Prop :=
  ∀ w, ∃ w', p.Yields (handlers.map fun handler => ⟨level, .enter (.deleted handler ref)⟩) w w'
      (fun a => if a = ref then handlers.map .heard else []) ∧
    w'.silent = w.silent ∧ ∀ q ∈ counts, w'.noted q.1 = w.noted q.1 + q.2

namespace Program

variable {p : Program} {level : Nat}

theorem yields_quiet_body (p : Program) (level : Nat) {body : List (World → Op)}
    (hb : ∀ choose ∈ body, ∀ v, (choose v).Quiet) (w : World) :
    ∃ w', p.Yields (body.map (⟨level, .act ·⟩)) w w' untold ∧ w'.silent = w.silent := by
  induction body generalizing w with
  | nil => exact ⟨w, .done w, rfl⟩
  | cons choose body ih =>
    obtain ⟨hj, hs⟩ := hb choose (List.mem_cons_self ..) w w
    obtain ⟨w', hy, hs'⟩ := ih (fun c hc => hb c (List.mem_cons_of_mem _ hc)) (w.perform (choose w)).1
    have act : p.Yields [⟨level, .act choose⟩] w (w.perform (choose w)).1 untold := .quiet trivial (Prod.ext rfl hj)
    exact ⟨w', act.before hy, hs'.trans hs⟩

theorem heeds_quiet {ref : Ref} {handlers : List String}
    (hb : ∀ handler ∈ handlers, ∀ choose ∈ p.body (.deleted handler ref), ∀ v, (choose v).Quiet) :
    p.Heeds [] (level + 1) handlers ref := by
  induction handlers with
  | nil =>
    refine fun w => ⟨w, (Yields.done w).congr fun a => ?_, rfl, by simp⟩
    simp [untold]
  | cons handler handlers ih =>
    intro w
    obtain ⟨w₁, hy, hs⟩ := p.yields_quiet_body level (hb handler (List.mem_cons_self ..))
      (w.enter (.deleted handler ref))
    obtain ⟨w₂, hy', hs', -⟩ := ih (fun a ha => hb a (List.mem_cons_of_mem _ ha))
      { w₁.emit (.ended handler) with running := w₁.running.tail }
    refine ⟨w₂, (hy.call.cons hy').congr fun a => ?_, hs'.trans ?_, by simp⟩
    · by_cases ha : a = ref
      · subst ha
        simp [notice?, untold]
      · simp [notice?, untold, ha, Ne.symm ha]
    · -- the call that was entered is the one that is left
      show { w₁.silent with running := w₁.silent.running.tail } = w.silent
      rw [hs]
      rfl

end Program

namespace World

variable {p : Program} {counts : List ((Record → Bool) × Nat)} {level : Nat} {w₀ w w' w'' : World}
  {gone gone' gone'' falling queued : List Ref} {ref : Ref}

/-- The toolkit destroys the object of an item that stands, and the observers of the item leave
    everything alone. -/
theorem Torn.falls (h : Torn w₀ gone falling queued w) (ho : w₀.Ordered) (hk : w₀.Kept ref)
    (hg : ref ∉ gone) (hf : ref ∉ falling) (heeds : p.Heeds counts level (w₀.handlersOf ref) ref) :
    ∃ w', p.Yields ((w.destroy (w₀.handleOf ref)).2.map (⟨level, ·⟩)) (w.destroy (w₀.handleOf ref)).1 w'
        (w₀.reports gone (ref :: gone)) ∧
      Torn w₀ (ref :: gone) falling queued w' ∧
      w'.toolkit.pending = w.toolkit.pending.filter (· ≠ w₀.handleOf ref) ∧
      w'.flushing = w.flushing ∧ ∀ q ∈ counts, w'.noted q.1 = w.noted q.1 + q.2 := by
  obtain ⟨w₄, calls, hs, hn⟩ := heeds ((w.destroy (w₀.handleOf ref)).1.opened ref (w₀.idOf ref) (w₀.handleOf ref))
  have h₄ := (h.opened ho hk hg hf).congr (stage_of_silent hs)
  obtain ⟨hy, ht⟩ := h.destroys ho hk hg hf calls h₄ hg
  have closed (c : Record → Bool) : (w₄.closed ref (w₀.idOf ref) (w₀.handleOf ref)).ledger c =
      (w₄.silent.toolkit.pending, w₄.silent.flushing, w₄.noted c) := w₄.ledger_closed c ref _ _
  rw [h.destroy_eq ho hk hg hf] at hs hn
  simp only [hs, ledger, Prod.mk.injEq] at closed
  exact ⟨_, hy.congr (inReport_eq w₀ hg), ht, (closed default).1, (closed default).2.1,
    fun q hq => (closed q.1).2.2.trans (hn q hq)⟩

/-! ## Between two removals -/

/-- While the deletions of `gone` become those of `gone'`, the observers write what they write. -/
def Counted (counts : List ((Record → Bool) × Nat)) (gone gone' : List Ref) (w w' : World) : Prop :=
  ∀ q ∈ counts, w'.noted q.1 + q.2 * gone.length = w.noted q.1 + q.2 * gone'.length

theorem counted_same (h : ∀ c, w'.noted c = w.noted c) : Counted counts gone gone w w' := fun q _ => by rw [h]

theorem counted_one (h : ∀ q ∈ counts, w'.noted q.1 = w.noted q.1 + q.2) :
    Counted counts gone (ref :: gone) w w' := by
  intro q hq
  rw [h q hq, List.length_cons, Nat.mul_succ]
  omega

theorem Counted.trans (h : Counted counts gone gone' w w') (h' : Counted counts gone' gone'' w' w'') :
    Counted counts gone gone'' w w'' := by
  intro q hq
  have := h q hq
  have := h' q hq
  omega

/-- The deletions of the items in `gone` have ended, and those of the items in `queued` wait in
    the toolkit's queue, which holds no others. -/
structure Swept (w₀ : World) (gone queued : List Ref) (w : World) : Prop extends Torn w₀ gone [] queued w where
  pending : w.toolkit.pending = queued.map w₀.handleOf
  once : gone.Nodup
  waiting : ∀ ref ∈ queued, ref ∉ gone
  now : w₀.toolkit.mode = .synchronous → queued = []

theorem swept_start (hd : w.itemRegistry.dying = []) (hp : w.toolkit.pending = []) : Swept w [] [] w where
  toTorn := torn_start hd
  pending := hp
  once := .nil
  waiting := by simp
  now _ := rfl

namespace Swept

theorem congr (h : Swept w₀ gone queued w) (hs : w'.stage = w.stage) (hp : w'.toolkit.pending = w.toolkit.pending) :
    Swept w₀ gone queued w' where
  toTorn := h.toTorn.congr hs
  pending := hp.trans h.pending
  once := h.once
  waiting := h.waiting
  now := h.now

/-- An item has its handle as long as it has not been removed. -/
theorem null_iff (h : Swept w₀ gone queued w) (hk : w₀.Kept ref) :
    w.handleOf ref = .null ↔ ref ∈ gone ++ queued := by
  refine ⟨fun e => ?_, h.nulled ref⟩
  rcases h.handle ref with h' | h'
  · exact absurd (h'.symm.trans e) hk.real
  · simpa using h'.2

end Swept

/-- What is said of the queue counts only together with what is gone. -/
theorem Torn.requeue {queued' : List Ref} (h : Torn w₀ gone falling queued w)
    (hq : ∀ ref, ref ∈ gone ++ queued' ↔ ref ∈ gone ++ queued) : Torn w₀ gone falling queued' w := by
  have all (ref : Ref) : ref ∈ gone ++ falling ++ queued' ↔ ref ∈ gone ++ falling ++ queued := by
    have := hq ref
    simp only [List.mem_append] at this ⊢
    tauto
  exact
    { h with
      kept := fun ref hm => h.kept ref ((all ref).mp hm)
      handle := fun ref => (h.handle ref).imp id (And.imp id (all ref).mpr)
      nulled := fun ref hm => h.nulled ref ((hq ref).mp hm) }

/-- An item waits whose handle has been set to null. -/
theorem Torn.enqueue (h : Torn w₀ gone falling queued w) (hk : w₀.Kept ref) :
    Torn w₀ gone falling (queued ++ [ref]) (w.setHandle ref .null) :=
  { h with
    kept := fun a ha => by
      by_cases e : a = ref
      · exact e ▸ hk
      · exact h.kept a (by simpa [e] using ha)
    frame := fun a => (frameOf_setHandle w ref .null a).trans (h.frame a)
    handle := fun a => by
      rw [handleOf_setNull]
      split
      · rename_i e
        exact Or.inr ⟨rfl, by simp [e]⟩
      · refine (h.handle a).imp id (And.imp id fun ha => ?_)
        rw [← List.append_assoc]
        exact List.mem_append_left _ ha
    nulled := fun a ha => by
      rw [handleOf_setNull]
      split
      · rfl
      · rename_i e
        exact h.nulled a (by simpa [e] using ha) }

end World

/-! ## One removal -/

/-- An item is deleted by us, or its object is destroyed by the toolkit. -/
inductive Removal where
  | delete (ref : Ref)
  | destroy (ref : Ref)
  deriving DecidableEq, Repr

namespace Removal

def item : Removal → Ref
  | delete ref | destroy ref => ref

/-- The operation, on the object that the item was bound to in `w₀`. -/
def op (w₀ : World) : Removal → Op
  | delete ref => .delete ref
  | destroy ref => .destroy (w₀.handleOf ref)

/-- What the operation comes to in `w`. -/
def answer (w₀ w : World) : Removal → Answer
  | delete ref => if w.handleOf ref = .null then .failed (.bind (.itemDeleted (w₀.idOf ref))) else .none
  | destroy ref => .flag (w.toolkit.items.contains (w₀.handleOf ref))

/-- Which items are gone then, and which wait. -/
def after (mode : DeleteMode) (gone queued : List Ref) : Removal → List Ref × List Ref
  | delete ref =>
    if ref ∈ gone ++ queued then (gone, queued)
    else match mode with
      | .synchronous => (ref :: gone, queued.filter (· ≠ ref))
      | .deferred => (gone, queued ++ [ref])
  | destroy ref => if ref ∈ gone then (gone, queued) else (ref :: gone, queued.filter (· ≠ ref))

theorem mem_fall (a ref : Ref) (gone queued : List Ref) :
    a ∈ ref :: gone ++ queued.filter (· ≠ ref) ↔ a = ref ∨ a ∈ gone ++ queued := by
  simp only [List.cons_append, List.mem_cons, List.mem_append, List.mem_filter, decide_eq_true_eq]
  tauto

/-- Either way, in either mode, one more item has been removed. -/
theorem mem_after (mode : DeleteMode) (gone queued : List Ref) (r : Removal) (a : Ref) :
    a ∈ (r.after mode gone queued).1 ++ (r.after mode gone queued).2 ↔ a = r.item ∨ a ∈ gone ++ queued := by
  have same {ref : Ref} (hm : ref ∈ gone ++ queued) : a ∈ gone ++ queued ↔ a = ref ∨ a ∈ gone ++ queued :=
    ⟨Or.inr, fun ha => ha.elim (fun e => e ▸ hm) id⟩
  cases r with
  | delete ref =>
    simp only [after, item]
    split
    · rename_i hm
      exact same hm
    · cases mode with
      | synchronous => exact mem_fall a ref gone queued
      | deferred =>
        simp only [List.mem_append, List.mem_singleton]
        tauto
  | destroy ref =>
    simp only [after, item]
    split
    · rename_i hm
      exact same (List.mem_append_left _ hm)
    · exact mem_fall a ref gone queued

theorem subset_after (mode : DeleteMode) (gone queued : List Ref) (r : Removal) :
    gone ⊆ (r.after mode gone queued).1 := by
  cases r with
  | delete ref =>
    simp only [after]
    split
    · exact List.Subset.refl _
    · cases mode with
      | synchronous => exact List.subset_cons_self ..
      | deferred => exact List.Subset.refl _
  | destroy ref =>
    simp only [after]
    split
    · exact List.Subset.refl _
    · exact List.subset_cons_self ..

end Removal

namespace World

variable {p : Program} {counts : List ((Record → Bool) × Nat)} {w₀ w w' : World} {gone queued : List Ref}
  {ref : Ref} {choose : World → Op}

/-- A task comes to the answer, and what has gone on the way was told so. -/
def Removes (p : Program) (w₀ : World) (counts : List ((Record → Bool) × Nat)) (gone gone' queued' : List Ref)
    (choose : World → Op) (w : World) (answer : Answer) : Prop :=
  ∃ w', p.Yields [⟨p.limit, .act choose⟩] w w' (w₀.reports gone gone') ∧ Swept w₀ gone' queued' w' ∧
    Counted counts gone gone' w w' ∧ w'.answer = answer

namespace Swept

/-- An item that has been removed is not deleted again. -/
theorem delete_again (h : Swept w₀ gone queued w) (hm : ref ∈ gone ++ queued) (choose : World → Op)
    (hc : choose w = .delete ref) :
    Removes p w₀ counts gone gone queued choose w (.failed (.bind (.itemDeleted (w₀.idOf ref)))) := by
  rw [← h.idOf ref]
  refine ⟨w.failing (.bind (.itemDeleted (w.idOf ref))), ?_, h.congr rfl rfl, counted_same fun _ => rfl, rfl⟩
  rw [reports_self]
  exact Program.yields_delete_refused hc (h.nulled ref hm)

/-- In deferred mode an item that is deleted waits. -/
theorem delete_later (h : Swept w₀ gone queued w) (ho : w₀.Ordered) (later : w₀.toolkit.mode = .deferred)
    (hk : w₀.Kept ref) (hg : ref ∉ gone ++ queued) (hc : choose w = .delete ref) :
    Removes p w₀ counts gone gone (queued ++ [ref]) choose w .none := by
  have hn : w.handleOf ref ≠ .null := fun e => hg ((h.null_iff hk).mp e)
  have handle : w.handleOf ref = w₀.handleOf ref := (h.handle ref).resolve_right fun e => hn e.1
  simp only [List.mem_append, not_or] at hg
  have alive : w.toolkit.items.contains (w₀.handleOf ref) = true := (h.alive ho hk).mpr ⟨hg.1, by simp⟩
  have fresh : w₀.handleOf ref ∉ w.toolkit.pending := by
    rw [h.pending, List.mem_map]
    rintro ⟨a, ha, e⟩
    exact hg.2 ((h.kept a (by simp [ha])).handleOf_inj ho hk.toBound e ▸ ha)
  have mode : w.toolkit.mode = .deferred := h.mode.trans later
  have requested : Torn w₀ gone [] queued (w.requested ref) := h.toTorn.congr (w.stage_requested ref)
  have asked (c : Record → Bool) :
      (w.requested ref).ledger c = (w.toolkit.pending ++ [w₀.handleOf ref], w.flushing, w.noted c) := by
    simp only [World.requested, native, callToolkit, Toolkit.complaint, handle]
    simp [ledger, noted, Toolkit.apply, Toolkit.effect, pin, log, emit, mode, alive, fresh, Record.isNote]
  have ledger (c : Record → Bool) := ((w.requested ref).ledger_finished c ref (w.spaceOf ref)).trans (asked c)
  simp only [World.ledger, Prod.mk.injEq] at ledger
  have carried : (w.requested ref).carryOut (w.handleOf ref) = (w.requested ref, []) := by
    simp only [carryOut, requested.mode, later]
  have torn : Torn w₀ gone [] (queued ++ [ref]) ((w.requested ref).finished ref (w.spaceOf ref)) :=
    (requested.enqueue hk).congr
      (stage_finished ((requested.hasItem ref).mpr hk.item) ((requested.isNamed ref).trans hk.named) _)
  refine ⟨_, ?_, ⟨torn, ?_, h.once, fun a ha => ?_, fun now => ?_⟩, counted_same fun c => (ledger c).2.2, rfl⟩
  · rw [reports_self]
    refine Program.yields_delete hc hn ?_
    rw [carried]
    exact .done _
  · rw [(ledger default).1, List.map_append, h.pending]
    rfl
  · rcases List.mem_append.mp ha with ha | ha
    · exact h.waiting a ha
    · exact List.mem_singleton.mp ha ▸ hg.1
  · rw [later] at now
    cases now

/-- The object of an item goes, whether the item waits or not. -/
theorem fallen (h : Swept w₀ gone queued w) (ho : w₀.Ordered) (hk : w₀.Kept ref) (hg : ref ∉ gone)
    (ht : Torn w₀ (ref :: gone) [] queued w')
    (hp : w'.toolkit.pending = w.toolkit.pending.filter (· ≠ w₀.handleOf ref)) :
    Swept w₀ (ref :: gone) (queued.filter (· ≠ ref)) w' := by
  refine ⟨ht.requeue fun a => ?_, ?_, h.once.cons hg, fun a ha => ?_, fun now => ?_⟩
  · simp only [List.cons_append, List.mem_cons, List.mem_append, List.mem_filter, decide_eq_true_eq]
    tauto
  · rw [hp, h.pending, List.filter_map]
    refine congrArg _ (List.filter_congr fun a ha => ?_)
    rw [Function.comp_apply, decide_eq_decide]
    exact not_congr ⟨(h.kept a (by simp [ha])).handleOf_inj ho hk.toBound, fun e => e ▸ rfl⟩
  · rw [List.mem_filter, decide_eq_true_eq] at ha
    rw [List.mem_cons, not_or]
    exact ⟨ha.2, h.waiting a ha.1⟩
  · rw [h.now now]
    rfl

/-- In synchronous mode an item that is deleted goes. -/
theorem delete_now (h : Swept w₀ gone queued w) (ho : w₀.Ordered) (now : w₀.toolkit.mode = .synchronous)
    (hk : w₀.Kept ref) (heeds : p.Heeds counts p.limit (w₀.handlersOf ref) ref) (hg : ref ∉ gone ++ queued)
    (hc : choose w = .delete ref) :
    Removes p w₀ counts gone (ref :: gone) (queued.filter (· ≠ ref)) choose w .none := by
  have hn : w.handleOf ref ≠ .null := fun e => hg ((h.null_iff hk).mp e)
  have hg' : ref ∉ gone := fun hm => hg (List.mem_append_left _ hm)
  have mode : w.toolkit.mode = .synchronous := h.mode.trans now
  have requested : Torn w₀ gone [] queued (w.requested ref) := h.toTorn.congr (w.stage_requested ref)
  have asked (c : Record → Bool) : (w.requested ref).ledger c = w.ledger c := by
    simp only [World.requested, native, callToolkit, Toolkit.complaint]
    simp [ledger, noted, Toolkit.apply, Toolkit.effect, pin, log, emit, mode, Record.isNote]
  have carried : (w.requested ref).carryOut (w.handleOf ref) = (w.requested ref).destroy (w₀.handleOf ref) := by
    simp only [carryOut, requested.mode, now, (h.handle ref).resolve_right fun e => hn e.1]
  obtain ⟨w', hy, ht, hp, -, hn'⟩ := requested.falls ho hk hg' (by simp) heeds
  have finished (c : Record → Bool) := w'.ledger_finished c ref (w.spaceOf ref)
  simp only [ledger, Prod.mk.injEq] at asked finished
  refine ⟨w'.finished ref (w.spaceOf ref), Program.yields_delete hc hn ?_, ?_, counted_one fun q hq => ?_, rfl⟩
  · rw [carried]
    exact hy
  · refine h.fallen ho hk hg' (ht.finished (by simp) _) ?_
    rw [(finished default).1, hp, (asked default).1]
  · rw [(finished q.1).2.2, hn' q hq, (asked q.1).2.2]

/-- The toolkit destroys the object of an item that is not gone. -/
theorem destroy_now (h : Swept w₀ gone queued w) (ho : w₀.Ordered) (hk : w₀.Kept ref)
    (heeds : p.Heeds counts p.limit (w₀.handlersOf ref) ref) (hg : ref ∉ gone)
    (hc : choose w = .destroy (w₀.handleOf ref)) :
    Removes p w₀ counts gone (ref :: gone) (queued.filter (· ≠ ref)) choose w
      (.flag (w.toolkit.items.contains (w₀.handleOf ref))) := by
  obtain ⟨w', hy, ht, hp, -, hn⟩ := h.toTorn.falls ho hk hg (by simp) heeds
  exact ⟨_, Program.yields_destroy hc hy, (h.fallen ho hk hg ht hp).congr rfl rfl, counted_one hn, rfl⟩

theorem destroy_again (h : Swept w₀ gone queued w) (ho : w₀.Ordered) (hg : ref ∈ gone)
    (hc : choose w = .destroy (w₀.handleOf ref)) :
    Removes p w₀ counts gone gone queued choose w (.flag (w.toolkit.items.contains (w₀.handleOf ref))) := by
  have unknown : w.toolkit.items.contains (w₀.handleOf ref) = false := by
    rw [← Bool.not_eq_true, h.alive ho (h.kept ref (by simp [hg]))]
    exact fun hs => hs.1 hg
  have ignored : p.Yields ((w.destroy (w₀.handleOf ref)).2.map (⟨p.limit, ·⟩)) (w.destroy (w₀.handleOf ref)).1
      (w.log (.destroyUnknown (w₀.handleOf ref))) untold := by
    rw [destroy_unknown unknown]
    exact .done _
  refine ⟨(w.log (.destroyUnknown (w₀.handleOf ref))).answering
    (.flag (w.toolkit.items.contains (w₀.handleOf ref))), ?_, h.congr rfl rfl, counted_same fun _ => rfl, rfl⟩
  rw [reports_self]
  exact Program.yields_destroy hc ignored

/-- What one removal does. -/
theorem removal (h : Swept w₀ gone queued w) (ho : w₀.Ordered) {r : Removal} (hk : w₀.Kept r.item)
    (heeds : p.Heeds counts p.limit (w₀.handlersOf r.item) r.item) (choose : World → Op) (hc : choose w = r.op w₀) :
    Removes p w₀ counts gone (r.after w₀.toolkit.mode gone queued).1
      (r.after w₀.toolkit.mode gone queued).2 choose w
      (r.answer w₀ w) := by
  cases r with
  | delete ref =>
    have null : w.handleOf ref = .null ↔ ref ∈ gone ++ queued := h.null_iff hk
    by_cases hm : ref ∈ gone ++ queued
    · simp only [Removal.after, Removal.answer, if_pos hm, if_pos (null.mpr hm)]
      exact h.delete_again hm choose hc
    · simp only [Removal.after, Removal.answer, if_neg hm, if_neg (mt null.mp hm)]
      cases mode : w₀.toolkit.mode with
      | synchronous => exact h.delete_now ho mode hk heeds hm hc
      | deferred => exact h.delete_later ho mode hk hm hc
  | destroy ref =>
    by_cases hg : ref ∈ gone
    · simp only [Removal.after, if_pos hg]
      exact h.destroy_again ho hg hc
    · simp only [Removal.after, if_neg hg]
      exact h.destroy_now ho hk heeds hg hc

end Swept

/-! ## A flush -/

/-- A flush comes to the items that wait, one after the other; some of them may be gone. -/
theorem Torn.flushes {rest : List Ref} {n : Nat} {ns : List Nat} (h : Torn w₀ gone [] queued w)
    (ho : w₀.Ordered) (once : gone.Nodup) (hr : ∀ a ∈ rest, a ∈ gone ++ queued)
    (heeds : ∀ a ∈ rest, p.Heeds counts p.limit (w₀.handlersOf a) a)
    (hp : w.toolkit.pending = []) (hf : w.flushing = n :: ns) :
    ∃ w' gone' n', p.Yields (rest.map fun a => ⟨p.limit, .destroyQueued (w₀.handleOf a)⟩) w w'
        (w₀.reports gone gone') ∧
      Torn w₀ gone' [] queued w' ∧ gone'.Nodup ∧ w'.toolkit.pending = [] ∧ w'.flushing = n' :: ns ∧
      Counted counts gone gone' w w' ∧ gone ⊆ gone' ∧ ∀ a, a ∈ gone' ↔ a ∈ rest ∨ a ∈ gone := by
  induction rest generalizing w gone n with
  | nil =>
    refine ⟨w, gone, n, ?_, h, once, hp, hf, counted_same fun _ => rfl, List.Subset.refl _, by simp⟩
    rw [reports_self]
    exact .done w
  | cons ref rest ih =>
    have hk : w₀.Kept ref := h.kept ref (by simpa using hr ref (List.mem_cons_self ..))
    have hr' (a : Ref) (ha : a ∈ rest) : a ∈ gone ++ queued := hr a (List.mem_cons_of_mem _ ha)
    have heeds' (a : Ref) (ha : a ∈ rest) := heeds a (List.mem_cons_of_mem _ ha)
    by_cases hg : ref ∈ gone
    · -- its object went before, and nobody is told
      have unknown : w.toolkit.items.contains (w₀.handleOf ref) = false := by
        rw [← Bool.not_eq_true, h.alive ho hk]
        exact fun hs => hs.1 hg
      have first : p.Yields [⟨p.limit, .destroyQueued (w₀.handleOf ref)⟩] w
          (w.log (.destroyUnknown (w₀.handleOf ref))) untold := by
        refine Program.yields_queued (v := w) (by rw [unknown]; rfl) ?_
        rw [destroy_unknown unknown]
        exact .done _
      have logged := h.congr (stage_log w (.destroyUnknown (w₀.handleOf ref)))
      obtain ⟨w', gone', n', hy, ht, once', hp', hf', hn, hs, hm⟩ := ih logged once hr' heeds' hp hf
      refine ⟨w', gone', n', first.before hy, ht, once', hp', hf', (counted_same fun _ => rfl).trans hn,
        hs, fun a => ?_⟩
      rw [hm, List.mem_cons, or_assoc]
      exact ⟨Or.inr, fun ha => ha.elim (fun e => Or.inr (e ▸ hg)) id⟩
    · have alive : w.toolkit.items.contains (w₀.handleOf ref) = true := (h.alive ho hk).mpr ⟨hg, by simp⟩
      have one : w.countFlushed = { w with flushing := (n + 1) :: ns } := by rw [countFlushed, hf]
      have counted : Torn w₀ gone [] queued w.countFlushed := h.congr (by rw [one]; rfl)
      obtain ⟨w₁, hy, ht, hp₁, hf₁, hn₁⟩ := counted.falls ho hk hg (by simp) (heeds ref (List.mem_cons_self ..))
      have first : p.Yields [⟨p.limit, .destroyQueued (w₀.handleOf ref)⟩] w w₁ (w₀.reports gone (ref :: gone)) :=
        Program.yields_queued (by rw [alive]; rfl) hy
      rw [one] at hp₁ hf₁ hn₁
      have hr'' (a : Ref) (ha : a ∈ rest) : a ∈ ref :: gone ++ queued := List.mem_cons_of_mem _ (hr' a ha)
      have hp₂ : w₁.toolkit.pending = [] := by
        rw [hp₁, hp]
        rfl
      obtain ⟨w', gone', n', hy', ht', once', hp', hf', hn, hs, hm⟩ := ih ht (once.cons hg) hr'' heeds' hp₂ hf₁
      have told := (first.cons hy').congr fun a => reports_trans w₀ (List.subset_cons_self ..) hs a
      refine ⟨w', gone', n', told, ht', once', hp', hf', (counted_one hn₁).trans hn,
        List.Subset.trans (List.subset_cons_self ..) hs, fun a => ?_⟩
      rw [hm, List.mem_cons, List.mem_cons]
      tauto

theorem Swept.flush (h : Swept w₀ gone queued w) (ho : w₀.Ordered)
    (heeds : ∀ a ∈ queued, p.Heeds counts p.limit (w₀.handlersOf a) a) (choose : World → Op)
    (hc : choose w = .flush) :
    ∃ w' gone' n, p.Yields [⟨p.limit, .act choose⟩] w w' (w₀.reports gone gone') ∧ Swept w₀ gone' [] w' ∧
      Counted counts gone gone' w w' ∧ gone ⊆ gone' ∧ (∀ a, a ∈ gone' ↔ a ∈ gone ++ queued) ∧
      w'.answer = .count n := by
  have taken : Torn w₀ gone [] queued { w with toolkit := w.toolkit.takePending, flushing := 0 :: w.flushing } :=
    h.toTorn.congr rfl
  obtain ⟨w₁, gone', n, hy, ht, once, hp, hf, hn, hs, hm⟩ :=
    taken.flushes ho h.once (fun a ha => List.mem_append_right _ ha) heeds rfl rfl
  have ended : w₁.endFlush = { w₁ with flushing := w.flushing }.answering (.count n) := by
    rw [endFlush, hf]
  have torn : Torn w₀ gone' [] [] w₁.endFlush := by
    refine (ht.congr ?_).requeue fun a => ?_
    · rw [ended]
      rfl
    · simp only [List.append_nil, List.mem_append, hm]
      tauto
  have jobs : p.Yields ((w.flush.2).map (⟨p.limit, ·⟩)) w.flush.1 w₁.endFlush (w₀.reports gone gone') := by
    simp only [World.flush, h.pending, List.map_append, List.map_map]
    exact hy.thenQuiet (.quiet trivial rfl)
  have same (c : Record → Bool) : w₁.endFlush.noted c = w₁.noted c := by
    rw [ended]
    rfl
  refine ⟨w₁.endFlush, gone', n, .job trivial ?_, ⟨torn, ?_, once, by simp, fun _ => rfl⟩, ?_, hs, fun a => ?_, ?_⟩
  · simp only [Job.expand, hc, perform]
    exact jobs
  · rw [ended]
    exact hp
  · exact hn.trans (counted_same same)
  · rw [hm, List.mem_append, or_comm]
  · rw [ended]
    rfl

end World

/-! ## A sequence of removals -/

/-- The removals, one after the other. -/
def Program.removals (p : Program) (w₀ : World) (rs : List Removal) : List Task :=
  rs.map fun r => ⟨p.limit, .act fun _ => r.op w₀⟩

namespace World

variable {p : Program} {w₀ w : World} {gone queued : List Ref}

theorem Swept.removals {rs : List Removal} (h : Swept w₀ gone queued w) (ho : w₀.Ordered)
    (hk : ∀ r ∈ rs, w₀.Kept r.item) (heeds : ∀ r ∈ rs, p.Heeds [] p.limit (w₀.handlersOf r.item) r.item) :
    ∃ w' gone' queued', p.Yields (p.removals w₀ rs) w w' (w₀.reports gone gone') ∧ Swept w₀ gone' queued' w' ∧
      gone ⊆ gone' ∧ ∀ a, a ∈ gone' ++ queued' ↔ a ∈ rs.map Removal.item ∨ a ∈ gone ++ queued := by
  induction rs generalizing w gone queued with
  | nil =>
    refine ⟨w, gone, queued, ?_, h, List.Subset.refl _, by simp⟩
    rw [reports_self]
    exact .done w
  | cons r rs ih =>
    obtain ⟨w₁, hy, h₁, -⟩ := h.removal ho (hk r (List.mem_cons_self ..))
      (heeds r (List.mem_cons_self ..)) (fun _ => r.op w₀) rfl
    obtain ⟨w₂, gone₂, queued₂, hy', h₂, hs, hm⟩ :=
      ih h₁ (fun r hr => hk r (List.mem_cons_of_mem _ hr)) (fun r hr => heeds r (List.mem_cons_of_mem _ hr))
    have hs' := List.Subset.trans (r.subset_after w₀.toolkit.mode gone queued) hs
    refine ⟨w₂, gone₂, queued₂, (hy.cons hy').congr fun a => ?_, h₂, hs', fun a => ?_⟩
    · exact reports_trans w₀ (r.subset_after ..) hs a
    · rw [hm, Removal.mem_after, List.map_cons, List.mem_cons, or_assoc, or_left_comm]

/-! ## Whatever the mode, whatever the order -/

/-- `w`, with a toolkit that deletes in the given mode. -/
def inMode (w : World) (mode : DeleteMode) : World := { w with toolkit := { w.toolkit with mode := mode } }

/-- `w'` is what the deletions of these items leave of `w`, none of them waiting. -/
structure Without (w : World) (refs : List Ref) (w' : World) : Prop where
  byId : ∀ id, w'.itemRegistry.byId.get? id = if id ∈ refs.map w.idOf then none else w.itemRegistry.byId.get? id
  byHandle : ∀ h, w'.itemRegistry.byHandle.get? h =
    if h ∈ refs.map w.handleOf then none else w.itemRegistry.byHandle.get? h
  dying : ∀ space, (w'.registry space).dying = []
  items : ∀ h, w'.toolkit.items.get? h = if h ∈ refs.map w.handleOf then none else w.toolkit.items.get? h
  objects : w'.toolkit.objects = w.toolkit.objects
  destroyed : ∀ h, h ∈ w'.toolkit.destroyed ↔ h ∈ w.toolkit.destroyed ∨ h ∈ refs.map w.handleOf
  registrations : w'.toolkit.registrations = w.toolkit.registrations.filter (·.object ∉ refs.map w.handleOf)
  pending : w'.toolkit.pending = []
  handleOf : ∀ ref, w'.handleOf ref = if ref ∈ refs then .null else w.handleOf ref

/-- The same in the tables, in the toolkit and in the handles of the wrappers. -/
structure Agree (w w' : World) : Prop where
  byId : ∀ id, w.itemRegistry.byId.get? id = w'.itemRegistry.byId.get? id
  byHandle : ∀ h, w.itemRegistry.byHandle.get? h = w'.itemRegistry.byHandle.get? h
  dying : ∀ space, (w.registry space).dying = (w'.registry space).dying
  isAlive : ∀ h, w.toolkit.isAlive h = w'.toolkit.isAlive h
  wasDestroyed : ∀ h, w.toolkit.wasDestroyed h = w'.toolkit.wasDestroyed h
  registrations : w.toolkit.registrations = w'.toolkit.registrations
  pending : w.toolkit.pending = w'.toolkit.pending
  handleOf : ∀ ref, w.handleOf ref = w'.handleOf ref

/-- In which order the items are listed, and how often, does not show. -/
theorem Without.congr {w v : World} {refs refs' : List Ref} (h : w.Without refs v)
    (same : ∀ ref, ref ∈ refs ↔ ref ∈ refs') : w.Without refs' v := by
  have mapped {α : Type} (f : Ref → α) (a : α) : a ∈ refs'.map f ↔ a ∈ refs.map f := by
    simp only [List.mem_map, same]
  refine ⟨fun id => ?_, fun a => ?_, h.dying, fun a => ?_, h.objects, fun a => ?_, ?_, h.pending, fun ref => ?_⟩
  · simp only [h.byId, mapped]
  · simp only [h.byHandle, mapped]
  · simp only [h.items, mapped]
  · rw [h.destroyed, mapped]
  · simp only [h.registrations, mapped]
  · simp only [h.handleOf, same]

theorem Without.agree {w v v' : World} {refs : List Ref} (h : w.Without refs v)
    (h' : w.Without refs v') : v.Agree v' where
  byId id := by rw [h.byId, h'.byId]
  byHandle a := by rw [h.byHandle, h'.byHandle]
  dying space := by rw [h.dying, h'.dying]
  isAlive a := by simp only [Toolkit.isAlive, Table.contains, h.items, h'.items, h.objects, h'.objects]
  wasDestroyed a := by simp only [Toolkit.wasDestroyed, h.destroyed, h'.destroyed]
  registrations := by rw [h.registrations, h'.registrations]
  pending := by rw [h.pending, h'.pending]
  handleOf ref := by rw [h.handleOf, h'.handleOf]

theorem Swept.without {mode : DeleteMode} (h : Swept (w₀.inMode mode) gone [] w)
    (bare : w₀.bareRegistry.dying = []) : w₀.Without gone w := by
  have fallen : gone ++ [] = gone := List.append_nil gone
  refine ⟨h.byId, h.byHandle, fun space => ?_, fun a => ?_, h.objects, fun a => ?_, ?_, h.pending, fun ref => ?_⟩
  · cases space with
    | items => exact List.eq_nil_iff_forall_not_mem.mpr fun a ha => by simpa using (h.dying a).mp ha
    | bare => exact (congrArg (fun v : World => v.bareRegistry.dying) h.aloof).trans bare
  · have := h.items a
    rwa [fallen] at this
  · have := h.destroyed a
    rwa [fallen] at this
  · have := h.registrations
    rwa [fallen] at this
  · split
    · rename_i hg
      exact h.nulled ref (by simp [hg])
    · rename_i hg
      exact (h.handle ref).resolve_right fun e => hg (by simpa using e.2)

end World

/-- The removals, one after the other, and a flush. -/
def Program.sweep (p : Program) (w : World) (rs : List Removal) : List Task :=
  p.removals w rs ++ [⟨p.limit, .act fun _ => .flush⟩]

namespace World

section

variable {p : Program} {w : World} {rs : List Removal} (rest : Reach .free ⟨w, []⟩) (idle : w.toolkit.pending = [])
  (room : 0 < p.limit) (bound : ∀ r ∈ rs, w.Bound r.item)
  (quiet : ∀ r ∈ rs, ∀ handler ∈ w.handlersOf r.item, ∀ choose ∈ p.body (.deleted handler r.item), ∀ v, (choose v).Quiet)

include rest

theorem ordered_inMode (mode : DeleteMode) : (w.inMode mode).Ordered :=
  ordered_toolkit rest.ordered { w.toolkit with mode := mode }

theorem kept_inMode {ref : Ref} (b : w.Bound ref) (mode : DeleteMode) : (w.inMode mode).Kept ref :=
  have named := rest.at_rest.2.2
  ⟨⟨b.item, b.real, b.entry, b.slot⟩, named ref ((w.hasItem_iff ref).mp b.item).1⟩

include idle room bound quiet

/-- From rest, in either mode, the removals come to their end. -/
theorem removals_inMode (mode : DeleteMode) :
    ∃ w' gone queued, p.Yields (p.removals w rs) (w.inMode mode) w' (w.reports [] gone) ∧
      Swept (w.inMode mode) gone queued w' ∧
      (∀ a ∈ queued, p.Heeds [] p.limit (w.handlersOf a) a) ∧ ∀ a, a ∈ gone ++ queued ↔ a ∈ rs.map Removal.item := by
  have heeds (r : Removal) (hr : r ∈ rs) : p.Heeds [] p.limit (w.handlersOf r.item) r.item := by
    obtain ⟨level, hl⟩ : ∃ level, p.limit = level + 1 := Nat.exists_eq_add_one.mpr room
    rw [hl]
    exact Program.heeds_quiet (quiet r hr)
  have start : Swept (w.inMode mode) [] [] (w.inMode mode) := swept_start (rest.at_rest.2.1 .items) idle
  obtain ⟨w', gone, queued, hy, hw, -, hm⟩ :=
    start.removals (p := p) (ordered_inMode rest mode) (fun r hr => kept_inMode rest (bound r hr) mode) heeds
  refine ⟨w', gone, queued, hy, hw, fun a ha => ?_, fun a => by simpa using hm a⟩
  obtain ⟨r, hr, rfl⟩ : ∃ r ∈ rs, r.item = a := by
    simpa [ha] using hm a
  exact heeds r hr

/-- And then a flush leaves none of them waiting. -/
theorem sweep_inMode (mode : DeleteMode) :
    ∃ vs w', p.Carries (p.sweep w rs) (w.inMode mode) vs w' ∧ Roomy vs ∧ w.Without (rs.map Removal.item) w' ∧
      ∀ ref, notices ref vs = if ref ∈ rs.map Removal.item then w.wholeReport ref else [] := by
  obtain ⟨w₁, gone, queued, hy, h₁, heeds, hm⟩ := removals_inMode rest idle room bound quiet mode
  obtain ⟨w₂, gone', -, hy', h₂, -, hs, hm', -⟩ :=
    h₁.flush (ordered_inMode rest mode) heeds (fun _ => .flush) rfl
  obtain ⟨vs, hc, hn, roomy⟩ := hy.append hy'
  have all (a : Ref) : a ∈ gone' ↔ a ∈ rs.map Removal.item := (hm' a).trans (hm a)
  refine ⟨vs, w₂, hc, roomy, (h₂.without (rest.at_rest.2.1 .bare)).congr all, fun a => (hn a).trans ?_⟩
  refine (reports_trans w (List.nil_subset _) hs a).trans ?_
  simp [reports, all]

/-- A delete of an item that has been removed is refused. -/
theorem delete_again_inMode (mode : DeleteMode) {ref : Ref} (hm : ref ∈ rs.map Removal.item) :
    ∃ vs w', p.Carries (p.removals w (rs ++ [.delete ref])) (w.inMode mode) vs w' ∧
      w'.answer = .failed (.bind (.itemDeleted (w.idOf ref))) := by
  obtain ⟨w₁, gone, queued, ⟨vs, hc, -⟩, h₁, -, hm₁⟩ := removals_inMode rest idle room bound quiet mode
  have again : Removes p (w.inMode mode) [] gone gone queued (fun _ => .delete ref) w₁ _ :=
    h₁.delete_again ((hm₁ ref).mpr hm) _ rfl
  obtain ⟨w₂, ⟨vs', hc', -⟩, -, -, answer⟩ := again
  refine ⟨vs ++ vs', w₂, ?_, answer⟩
  rw [Program.removals, List.map_append]
  exact hc.append hc'

end

end World

open World in
/-- Take a world at rest with no delete queued, and items in it that are bound to objects of
    their own and whose observers leave bridge and toolkit alone. Any sequence of removals of these
    items and then a flush come to an end, in either mode, where exactly the items that were
    removed are gone, each told so once. A delete of an item that has been removed before is refused. So
    two sequences that remove the same items lead to the same tables, the same toolkit, the same handles
    and the same notices, whatever the modes, the orders and the ways in which the items are removed. -/
theorem delete_modes_agree {p : Program} {w : World} {items : List Ref} (rest : Reach .free ⟨w, []⟩)
    (idle : w.toolkit.pending = []) (room : 0 < p.limit) (bound : ∀ ref ∈ items, w.Bound ref)
    (quiet : ∀ ref ∈ items, ∀ handler ∈ w.handlersOf ref, ∀ choose ∈ p.body (.deleted handler ref), ∀ v,
      (choose v).Quiet) :
    (∀ mode (rs : List Removal), (∀ r ∈ rs, r.item ∈ items) →
      ∃ vs w', p.Carries (p.sweep w rs) (w.inMode mode) vs w' ∧ Roomy vs ∧ w.Without (rs.map Removal.item) w' ∧
        ∀ ref, notices ref vs = if ref ∈ rs.map Removal.item then w.wholeReport ref else []) ∧
    (∀ mode (rs : List Removal) ref, (∀ r ∈ rs, r.item ∈ items) → ref ∈ rs.map Removal.item →
      ∃ vs w', p.Carries (p.removals w (rs ++ [.delete ref])) (w.inMode mode) vs w' ∧
        w'.answer = .failed (.bind (.itemDeleted (w.idOf ref)))) ∧
    ∀ mode mode' (rs rs' : List Removal) vs vs' v v', (∀ r ∈ rs, r.item ∈ items) →
      (∀ ref, ref ∈ rs.map Removal.item ↔ ref ∈ rs'.map Removal.item) →
      p.Carries (p.sweep w rs) (w.inMode mode) vs v → p.Carries (p.sweep w rs') (w.inMode mode') vs' v' →
      v.Agree v' ∧ ∀ ref, notices ref vs = notices ref vs' := by
  have swept (mode : DeleteMode) (rs : List Removal) (hr : ∀ r ∈ rs, r.item ∈ items) :=
    sweep_inMode rest idle room (fun r h => bound r.item (hr r h)) (fun r h => quiet r.item (hr r h)) mode
  refine ⟨swept, fun mode rs ref hr hm => ?_, fun mode mode' rs rs' vs vs' v v' hr same hc hc' => ?_⟩
  · exact delete_again_inMode rest idle room (fun r h => bound r.item (hr r h)) (fun r h => quiet r.item (hr r h)) mode hm
  · have hr' (r : Removal) (h : r ∈ rs') : r.item ∈ items := by
      obtain ⟨a, ha, e⟩ := List.mem_map.mp ((same r.item).mpr (List.mem_map_of_mem h))
      exact e ▸ hr a ha
    obtain ⟨us, u, hu, -, left, told⟩ := swept mode rs hr
    obtain ⟨us', u', hu', -, left', told'⟩ := swept mode' rs' hr'
    obtain ⟨rfl, rfl⟩ := hc.unique hu
    obtain ⟨rfl, rfl⟩ := hc'.unique hu'
    refine ⟨(left.congr same).agree left', fun ref => ?_⟩
    simp only [told, told', same]

/-- The first two items are deleted, destroyed, or both. -/
theorem sooner_or_later_the_same :
    ∃ vs v vs' v', Simulation.program.Carries
        (Simulation.program.sweep threeItems [.delete ⟨0⟩, .destroy ⟨1⟩, .delete ⟨1⟩])
          (threeItems.inMode .synchronous) vs v ∧
      Simulation.program.Carries
        (Simulation.program.sweep threeItems [.destroy ⟨1⟩, .delete ⟨0⟩, .destroy ⟨0⟩])
          (threeItems.inMode .deferred) vs' v' ∧
      v.Agree v' ∧ notices ⟨0⟩ vs' = [.notified, .heard "move", .invalidated] ∧ notices ⟨2⟩ vs' = [] := by
  have quiet (ref : Ref) (handler : String) :
      ∀ choose ∈ Simulation.program.body (.deleted handler ref), ∀ v, (choose v).Quiet := by
    intro choose hc v
    simp only [Simulation.program, Simulation.body, List.mem_singleton] at hc
    subst hc
    exact quiet_note _
  obtain ⟨carried, -, same⟩ := delete_modes_agree (reach_threeItems.mono (Conduct.within_free _)) (by decide)
    (show 0 < Simulation.program.limit by decide) bound_threeItems (fun ref _ handler _ => quiet ref handler)
  obtain ⟨vs, v, hc, -⟩ := carried .synchronous [.delete ⟨0⟩, .destroy ⟨1⟩, .delete ⟨1⟩] (by decide)
  obtain ⟨vs', v', hc', -, -, told⟩ := carried .deferred [.destroy ⟨1⟩, .delete ⟨0⟩, .destroy ⟨0⟩] (by decide)
  have mentioned (ref : Ref) : ref ∈ [Removal.delete ⟨0⟩, .destroy ⟨1⟩, .delete ⟨1⟩].map Removal.item ↔
      ref ∈ [Removal.destroy ⟨1⟩, .delete ⟨0⟩, .destroy ⟨0⟩].map Removal.item := by
    simp only [List.map_cons, List.map_nil, Removal.item, List.mem_cons]
    tauto
  obtain ⟨agree, -⟩ := same _ _ _ _ _ _ _ _ (by decide) mentioned hc hc'
  exact ⟨vs, v, vs', v', hc, hc', agree, (told ⟨0⟩).trans (by decide), (told ⟨2⟩).trans (by decide)⟩

end HandleBridge
