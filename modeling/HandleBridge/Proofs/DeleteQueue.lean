/-
  HandleBridge.Proofs.DeleteQueue — every item is destroyed once, and every request waits its turn.

  In deferred mode a request to destroy an item only queues it. A flush takes the whole queue
  and comes to one handle after the other; delete callbacks run in between, which may queue
  further requests, destroy items that the flush has still to come to, or flush themselves.

  - `Course.fells_once`, `Course.slot_from`: a delete callback runs right after the destruction of its
    item, and for no other reason.
  - `Course.dead_until_made`: a destroyed item is not destroyed again before it is made again.
  - `Runs.waits`: who waits to be destroyed goes on waiting or is destroyed, whatever runs: what a
    flush has taken out of the queue waits on the call stack.
  - `Runs.turns`: a flush has one turn for each handle that it took, in order, and counts those that
    are alive; what nested flushes count is taken off again with their end (`Runs.flushing`).
-/
import HandleBridge.Proofs.SignalDelivery
import HandleBridge.Proofs.Stock

namespace HandleBridge

variable {k : Conduct}

/-! ## One destruction -/

namespace State

/-- An item with the handle `a` is about to be made. -/
def Makes (c : State) (a : Handle) : Prop :=
  match c.tasks with
  | t :: _ => t.job.Makes c.world a
  | [] => False

end State

/-- Behind the first task that remains there is no delete callback. -/
theorem Reach.slots_first {c : State} (h : Reach k c) : World.NoneDue (jobs c.tasks).tail := by
  refine h.invariant (I := fun c => World.NoneDue (jobs c.tasks).tail) (fun _ cb a => List.not_mem_nil)
    (fun _ _ _ _ cb a => List.not_mem_nil) ?_
  rintro c c' hc ⟨p, w, t, ts, ok⟩
  intro cb a hm
  have later : .slot cb a ∉ jobs ts := hc cb a
  rw [jobs_append] at hm
  by_cases hs : .slot cb a ∈ jobs (p.expand t w).2
  · obtain ⟨rest, due, none⟩ := (felled_expand (felled_of_slot hs)).due
    rw [due] at hm
    cases hd : w.toolkit.deleteSlot a with
    | none =>
      rw [due, hd] at hs
      exact none cb a hs
    | some cb' =>
      rw [hd] at hm
      rcases List.mem_append.mp hm with hm | hm
      · exact none cb a hm
      · exact later hm
  · rcases List.mem_append.mp (List.mem_of_mem_tail hm) with hm | hm
    · exact hs hm
    · exact later hm

namespace Course

variable (c : Course k) {i n : Nat} {a : Handle} {cb : DeleteCallback}

/-- The first task that remains, and the state after its turn. -/
theorem step_cases (hn : n < c.length) :
    ((c.state n).tasks = [] ∧ (c.state (n + 1)).world = (c.state n).world ∧
      ∃ level choose, (c.state (n + 1)).tasks = [⟨level, .act choose⟩]) ∨
    ∃ (p : Program) (t : Task) (ts : List Task), (c.state n).tasks = t :: ts ∧
      (c.state (n + 1)).world = (p.expand t (c.state n).world).1 ∧
      (c.state (n + 1)).tasks = (p.expand t (c.state n).world).2 ++ ts := by
  have h := c.next n hn
  generalize c.state (n + 1) = s' at h ⊢
  generalize c.state n = s at h ⊢
  cases h with
  | call w level choose => exact Or.inl ⟨rfl, rfl, level, choose, rfl⟩
  | turn ht =>
    obtain ⟨p, w, t, ts, ok⟩ := ht
    exact Or.inr ⟨p, t, ts, rfl, rfl, rfl⟩

/-- An item is alive that has just been made, or was alive and has not just been destroyed. -/
theorem alive_next (hn : n < c.length) (a : Handle) :
    (c.state (n + 1)).world.toolkit.items.contains a = true ↔
      (c.state n).Makes a ∨ ((c.state n).world.toolkit.items.contains a = true ∧ .felled a ∉ (c.state n).deeds) := by
  rcases c.step_cases hn with ⟨ht, hw, -⟩ | ⟨p, t, ts, ht, hw, -⟩
  · simp [hw, State.Makes, State.deeds, ht]
  · simp only [hw, State.Makes, State.deeds, ht]
    exact (p.restocked t _).alive a

/-- Who is destroyed leaves items, queue and registrations, and its delete callback comes next. -/
theorem felled_next (hn : n < c.length) (hd : .felled a ∈ (c.state n).deeds) :
    Felled (c.state n).world a (c.state (n + 1)).world (jobs (c.state (n + 1)).tasks) := by
  rcases c.step_cases hn with ⟨ht, -, -⟩ | ⟨p, t, ts, ht, hw, hnext⟩
  · simp [State.deeds, ht] at hd
  · simp only [State.deeds, ht] at hd
    obtain ⟨gone, unqueued, unheard, noted, rest, due, none⟩ := felled_expand (p := p) hd
    have later : World.NoneDue (jobs ts) := by
      have first := (c.reach (Nat.le_of_lt hn)).slots_first
      rwa [ht] at first
    rw [hw, hnext, jobs_append, due, List.append_assoc]
    refine ⟨gone, unqueued, unheard, noted, rest ++ jobs ts, rfl, ?_⟩
    intro cb b hm
    rcases List.mem_append.mp hm with hm | hm
    · exact none cb b hm
    · exact later cb b hm

/-- A delete callback that has its turn was in the slot of the item that has just been
    destroyed. -/
theorem slot_from (hn : n ≤ c.length) {js : List Job} (hj : jobs (c.state n).tasks = .slot cb a :: js) :
    ∃ i, n = i + 1 ∧ .felled a ∈ (c.state i).deeds ∧ (c.state i).world.toolkit.deleteSlot a = some cb := by
  cases n with
  | zero =>
    obtain ⟨mode, e⟩ := c.start
    rw [e] at hj
    cases hj
  | succ i =>
    rcases c.step_cases hn with ⟨-, -, level, choose, hnext⟩ | ⟨p, t, ts, ht, -, hnext⟩
    · rw [hnext] at hj
      cases hj
    · rw [hnext, jobs_append] at hj
      have later : World.NoneDue (jobs ts) := by
        have first := (c.reach (Nat.le_of_lt hn)).slots_first
        rwa [ht] at first
      have here : .slot cb a ∈ jobs (p.expand t (c.state i).world).2 := by
        rcases hd : jobs (p.expand t (c.state i).world).2 with _ | ⟨j, due⟩
        · rw [hd, List.nil_append] at hj
          exact absurd (hj ▸ List.mem_cons_self ..) (later cb a)
        · rw [hd, List.cons_append] at hj
          rw [(List.cons.inj hj).1]
          exact List.mem_cons_self ..
      have felled := felled_of_slot here
      refine ⟨i, rfl, by simpa only [State.deeds, ht] using felled, ?_⟩
      obtain ⟨rest, due, none⟩ := (felled_expand (p := p) felled).due
      rw [due] at hj here
      rcases hs : (c.state i).world.toolkit.deleteSlot a with _ | cb'
      · rw [hs] at here
        exact absurd here (none cb a)
      · rw [hs] at hj
        cases (List.cons.inj hj).1
        rfl

/-- What a destroyed item had in its delete slot is what has its turn next, and nothing else is a
    delete callback of this item. -/
theorem fells_once (hn : n < c.length) (hd : .felled a ∈ (c.state n).deeds) (cb : DeleteCallback) :
    (c.state n).world.toolkit.deleteSlot a = some cb ↔ ∃ js, jobs (c.state (n + 1)).tasks = .slot cb a :: js := by
  constructor
  · intro hs
    obtain ⟨rest, due, -⟩ := (c.felled_next hn hd).due
    rw [hs] at due
    exact ⟨rest, due⟩
  · rintro ⟨js, hj⟩
    obtain ⟨i, e, -, hs⟩ := c.slot_from hn hj
    cases e
    exact hs

/-- A destroyed item stays destroyed as long as none is made with its handle. -/
theorem dead_until_made (hi : i < n) (hn : n ≤ c.length) (hd : .felled a ∈ (c.state i).deeds)
    (hm : ∀ m, i < m → m < n → ¬ (c.state m).Makes a) : (c.state n).world.toolkit.items.contains a = false := by
  induction hi with
  | refl => exact (c.felled_next hn hd).gone
  | @step n hi ih =>
    have before := ih (Nat.le_of_lt hn) fun m hm' hlt => hm m hm' (Nat.lt_succ_of_lt hlt)
    have next := c.alive_next hn a
    simp only [before, hm n hi (Nat.lt_succ_self n), Bool.false_eq_true, false_and, or_self, iff_false,
      Bool.not_eq_true] at next
    exact next

end Course

/-! ## What a flush has to come to -/

/-- The flush that took the queue comes to one of the handles, or it ends. -/
def Job.Flushes : Job → Prop
  | .destroyQueued _ | .endFlush => True
  | _ => False

theorem takes_expand {p : Program} {t : Task} {w : World} (ht : t.job.takes w = true) :
    jobs (p.expand t w).2 = w.toolkit.pending.map .destroyQueued ++ [.endFlush] := by
  obtain ⟨level, job⟩ := t
  cases job with
  | act choose =>
    simp only [Job.takes] at ht
    split at ht
    · rename_i ho
      rw [jobs_expand p _ w (by simp)]
      simp only [Job.expand, World.perform, ho, World.flush]
    · cases ht
  | _ => cases ht

/-- Only a flush has these due. -/
theorem takes_of_flushes {p : Program} {t : Task} {w : World} {j : Job} (hj : j ∈ jobs (p.expand t w).2) (hf : j.Flushes) :
    t.job.takes w = true := by
  have asked : j.Asked := by
    cases j with
    | destroyQueued | endFlush => trivial
    | _ => exact hf.elim
  obtain ⟨choose, ht, hm⟩ := asked_of_mem_expand hj asked
  rcases World.op_of_asked hm asked with ⟨ho, -⟩ | ⟨ref, -, rfl⟩
  · simp only [ht, Job.takes, ho]
  · exact hf.elim

/-! ## Requests that wait -/

namespace Runs

variable {ts : List Task} {w w' : World} {vs : List (Task × World)} {a : Handle}

/-- Who waits to be destroyed, in the queue or on the call stack, goes on waiting in the queue or is
    destroyed on the way. -/
theorem waits (h : Runs ts w vs w') (hq : w.Queued)
    (ha : a ∈ w.toolkit.pending ∨ (.destroyQueued a ∈ jobs ts ∧ w.toolkit.items.contains a = true)) :
    a ∈ w'.toolkit.pending ∨ ∃ v ∈ vs, .felled a ∈ v.1.job.deeds v.2 := by
  induction h with
  | done w =>
    rcases ha with ha | ⟨hm, -⟩
    · exact Or.inl ha
    · cases hm
  | @task p t ts w w' vs _ ih =>
    by_cases hd : .felled a ∈ t.job.deeds w
    · exact Or.inr ⟨(t, w), List.mem_cons_self .., hd⟩
    · have step := p.restocked t w
      have next : a ∈ (p.expand t w).1.toolkit.pending ∨
          (.destroyQueued a ∈ jobs ((p.expand t w).2 ++ ts) ∧ (p.expand t w).1.toolkit.items.contains a = true) := by
        rw [jobs_append, List.mem_append, step.alive a]
        rcases ha with ha | ⟨hm, alive⟩
        · cases ht : t.job.takes w
          · left
            rw [step.pending]
            exact List.mem_append_left _ (World.mem_spares.mpr ⟨ha, ht, hd⟩)
          · right
            rw [takes_expand ht]
            exact ⟨Or.inl (List.mem_append_left _ (List.mem_map_of_mem ha)), Or.inr ⟨hq.alive a ha, hd⟩⟩
        · right
          refine ⟨Or.inr ?_, Or.inr ⟨alive, hd⟩⟩
          rcases List.mem_cons.mp hm with hm | hm
          · -- its turn has come, and it is alive
            change .destroyQueued a = t.job at hm
            rw [← hm] at hd
            exact absurd (Toolkit.felled_mem_fells.mpr ⟨alive, rfl⟩) hd
          · exact hm
      rcases ih (step.queued hq) next with still | ⟨v, hv, hd'⟩
      · exact Or.inl still
      · exact Or.inr ⟨v, List.mem_cons_of_mem _ hv, hd'⟩

end Runs

/-! ## What a flush counts -/

/-- How many flushes end on the call stack. -/
def ends : List Job → Nat
  | [] => 0
  | .endFlush :: js => ends js + 1
  | _ :: js => ends js

/-- Every handle that a flush has to come to lies before the end of a flush. -/
def Closed : List Job → Prop
  | [] => True
  | .destroyQueued _ :: js => 0 < ends js ∧ Closed js
  | _ :: js => Closed js

theorem closed_plain {js : List Job} (hp : ∀ j ∈ js, ¬ j.Flushes) (ks : List Job) :
    (Closed (js ++ ks) ↔ Closed ks) ∧ ends (js ++ ks) = ends ks := by
  induction js with
  | nil => exact ⟨Iff.rfl, rfl⟩
  | cons j js ih =>
    obtain ⟨hc, he⟩ := ih fun j' hj => hp j' (List.mem_cons_of_mem _ hj)
    have here := hp j (List.mem_cons_self ..)
    cases j with
    | destroyQueued h => exact absurd trivial here
    | endFlush => exact absurd trivial here
    | _ => exact ⟨hc, he⟩

theorem closed_flush (hs : List Handle) {ks : List Job} (hc : Closed ks) :
    Closed (hs.map .destroyQueued ++ [.endFlush] ++ ks) ∧
      ends (hs.map .destroyQueued ++ [.endFlush] ++ ks) = ends ks + 1 := by
  induction hs with
  | nil => exact ⟨hc, rfl⟩
  | cons h hs ih =>
    obtain ⟨closed, count⟩ := ih
    refine ⟨⟨?_, closed⟩, count⟩
    show 0 < ends (hs.map .destroyQueued ++ [.endFlush] ++ ks)
    omega

namespace Runs

variable {w w' : World} {vs : List (Task × World)} {level : Nat}

/-- Flushes that begin on the way have ended; what they counted is gone. -/
theorem flushing {ts : List Task} (h : Runs ts w vs w') (hc : Closed (jobs ts)) :
    w'.flushing = w.flushing.drop (ends (jobs ts)) := by
  induction h with
  | done w => rfl
  | @task p t ts w w' vs _ ih =>
    have step := (p.restocked t w).flushing
    rw [jobs_append] at ih
    rw [jobs_cons] at hc ⊢
    cases ht : t.job.takes w
    · have plain : ∀ j ∈ jobs (p.expand t w).2, ¬ j.Flushes := by
        intro j hj hf
        rw [takes_of_flushes hj hf] at ht
        cases ht
      obtain ⟨closed, count⟩ := closed_plain plain (jobs ts)
      rw [closed, count, step] at ih
      generalize t.job = j at hc ht ih
      cases j with
      | destroyQueued a =>
        obtain ⟨pos, hc⟩ := hc
        rw [ih hc]
        show _ = w.flushing.drop (ends (jobs ts))
        obtain ⟨n, hn⟩ := Nat.exists_eq_add_one_of_ne_zero (Nat.ne_of_gt pos)
        rw [hn]
        simp only [Job.onFlushing]
        split
        · cases w.flushing <;> rfl
        · rfl
      | endFlush =>
        rw [ih hc]
        show w.flushing.tail.drop (ends (jobs ts)) = w.flushing.drop (ends (jobs ts) + 1)
        rw [List.drop_tail, Nat.add_comm]
      | _ =>
        rw [ih hc]
        simp only [Job.onFlushing, ht, Bool.false_eq_true, if_false, ends]
    · rw [takes_expand ht] at ih
      generalize t.job = j at hc ht step
      cases j with
      | act choose =>
        have later : Closed (jobs ts) := hc
        obtain ⟨closed, count⟩ := closed_flush w.toolkit.pending later
        rw [ih closed, count, step]
        simp only [Job.onFlushing, ht, if_true, List.drop_succ_cons, ends]
      | _ => cases ht

end Runs

/-! ## The turns of a flush -/

/-- A flush on this level comes to one of its handles. -/
def isTurn (level : Nat) (v : Task × World) : Bool :=
  match v.1 with
  | ⟨l, .destroyQueued _⟩ => l = level
  | _ => false

/-- The turn of a handle, with the world in which it comes. -/
def flushTurn (level : Nat) (turn : Handle × World) : Task × World := (⟨level, .destroyQueued turn.1⟩, turn.2)

/-- How many of the turns find an item. -/
def found (turns : List (Handle × World)) : Nat := turns.countP fun turn => turn.2.toolkit.items.contains turn.1

namespace Runs

variable {w w' : World} {vs : List (Task × World)} {level : Nat}

/-- What a delete callback does is no turn of the flush that calls it. -/
theorem turn {h : Handle} (hr : Runs [⟨level, .destroyQueued h⟩] w vs w') :
    vs.filter (isTurn level) = [flushTurn level (h, w)] ∧
      w'.flushing = (Job.destroyQueued h).onFlushing w w.flushing := by
  cases hr with
  | task p hr =>
    rw [List.append_nil] at hr
    constructor
    · rw [List.filter_cons_of_pos (by simp [isTurn])]
      refine congrArg _ (List.filter_eq_nil_iff.mpr ?_)
      intro v hv ht
      have below := hr.rank_lt (p.rank_expand ⟨level, .destroyQueued h⟩ w) v hv
      obtain ⟨⟨l, job⟩, u⟩ := v
      cases job with
      | destroyQueued a =>
        simp only [isTurn, decide_eq_true_eq] at ht
        simp only [Task.rank, Job.rank] at below
        omega
      | _ => cases ht
    · have plain : ∀ j ∈ jobs (p.expand ⟨level, .destroyQueued h⟩ w).2, ¬ j.Flushes := by
        intro j hj hf
        cases takes_of_flushes hj hf
      obtain ⟨closed, count⟩ := closed_plain plain []
      rw [List.append_nil] at closed count
      rw [hr.flushing (closed.mpr trivial), count]
      exact (p.restocked _ w).flushing

/-- A flush comes to its handles in order, and counts those that it finds. -/
theorem turns {hs : List Handle} {n : Nat} {ns : List Nat} (hr : Runs (hs.map fun h => ⟨level, .destroyQueued h⟩) w vs w')
    (hn : w.flushing = n :: ns) :
    ∃ turns : List (Handle × World), turns.map (·.1) = hs ∧ vs.filter (isTurn level) = turns.map (flushTurn level) ∧
      w'.flushing = (n + found turns) :: ns := by
  induction hs generalizing w vs n with
  | nil =>
    cases hr
    exact ⟨[], rfl, rfl, hn⟩
  | cons h hs ih =>
    obtain ⟨vs₁, w₁, vs₂, h₁, h₂, rfl⟩ := split [⟨level, .destroyQueued h⟩] _ hr
    obtain ⟨one, counted⟩ := h₁.turn
    have hn₁ : w₁.flushing = (n + found [(h, w)]) :: ns := by
      rw [counted, hn]
      simp only [Job.onFlushing, found, List.countP_cons, List.countP_nil]
      split <;> simp
    obtain ⟨turns, ht, hv, hc⟩ := ih h₂ hn₁
    refine ⟨(h, w) :: turns, by rw [List.map_cons, ht], ?_, ?_⟩
    · rw [List.filter_append, one, hv]
      rfl
    · rw [hc, Nat.add_assoc]
      simp only [found, List.countP_cons, List.countP_nil]
      congr 2
      omega

/-- A flush, from its call to its answer. -/
theorem flush {choose : World → Op} (hf : choose w = .flush) (hr : Runs [⟨level, .act choose⟩] w vs w') :
    ∃ turns : List (Handle × World), turns.map (·.1) = w.toolkit.pending ∧
      vs.filter (isTurn level) = turns.map (flushTurn level) ∧ w'.answer = .count (found turns) := by
  cases hr with
  | task p hr =>
    rw [List.append_nil, p.expand_eq _ w (by simp)] at hr
    change Runs ((w.perform (choose w)).2.map (⟨level, ·⟩)) (w.perform (choose w)).1 _ w' at hr
    rw [hf] at hr
    change Runs ((w.toolkit.pending.map Job.destroyQueued ++ [Job.endFlush]).map (⟨level, ·⟩)) _ _ w' at hr
    rw [List.map_append, List.map_map] at hr
    obtain ⟨vs₁, w₁, vs₂, h₁, h₂, rfl⟩ := hr.split
    obtain ⟨turns, ht, hv, hc⟩ := turns h₁ rfl
    cases h₂ with
    | task q h₂ =>
      cases h₂
      refine ⟨turns, ht, ?_, ?_⟩
      · rw [List.filter_cons_of_neg (by simp [isTurn]), List.filter_append, hv]
        rw [List.filter_cons_of_neg (by simp [isTurn]), List.filter_nil, List.append_nil]
      · show w₁.endFlush.answer = _
        simp only [World.endFlush, hc, World.answering, Nat.zero_add]

end Runs

/-! ## What becomes of requests -/

/-- The queue after a request to destroy `a`: what is alive is queued, once. -/
def Toolkit.lineUp (t : Toolkit) (a : Handle) : List Handle :=
  if t.items.contains a ∧ a ∉ t.pending then t.pending ++ [a] else t.pending

/-- In deferred mode a request does nothing but queue what it names, and what is due after it calls
    nothing. -/
theorem requested_perform {w : World} {op : Op} {a : Handle} (hr : op.requested? w = some a)
    (hm : w.toolkit.mode = .deferred) :
    (w.perform op).1.toolkit = { w.toolkit with pending := w.toolkit.lineUp a, calls := w.toolkit.calls + 1 } ∧
      ∀ j ∈ (w.perform op).2, (∀ call, j ≠ .enter call) ∧ ∀ u, (j.expand u).2 = [] := by
  have queued : w.toolkit.apply (.itemDel a) =
      { w.toolkit with pending := w.toolkit.lineUp a, calls := w.toolkit.calls + 1 } := by
    simp only [Toolkit.apply, Toolkit.effect, Toolkit.lineUp, hm]
    split <;> simp [hm]
  have kept {v : World} (hv : v.toolkit = w.toolkit.apply (.itemDel a)) : v.carryOut a = (v, []) := by
    simp only [World.carryOut, hv, queued, hm]
  cases op with
  | native c =>
    cases c with
    | itemDel b =>
      cases hr
      have called : (w.callToolkit (.itemDel a)).toolkit = w.toolkit.apply (.itemDel a) :=
        congrArg (·.1) (w.core_callToolkit (.itemDel a))
      simp only [World.perform, kept called, List.nil_append]
      refine ⟨called.trans queued, ?_⟩
      intro j hj
      cases List.mem_singleton.mp hj
      exact ⟨by simp, fun _ => rfl⟩
    | _ => cases hr
  | delete ref =>
    simp only [Op.requested?] at hr
    split at hr
    · cases hr
    · rename_i hn
      cases hr
      have called : (w.requested ref).toolkit = w.toolkit.apply (.itemDel (w.handleOf ref)) := World.toolkit_native _ _
      simp only [World.perform, World.delete_eq ((w.handleOf ref).isNull_iff.not.mp hn), kept called, List.nil_append]
      refine ⟨called.trans queued, ?_⟩
      intro j hj
      simp only [List.mem_cons, List.not_mem_nil, or_false] at hj
      rcases hj with rfl | rfl | rfl | rfl <;> exact ⟨by simp, fun _ => rfl⟩
  | _ => cases hr

/-- How a flush, called in world `w` and ended in `w'`, has served the queue: it has come to each
    handle that was queued, in order, has destroyed those that it found alive, and has answered
    their number. Who was queued at any time on the way still is, unless destroyed since. -/
structure Drained (w : World) (level : Nat) (vs : List (Task × World)) (w' : World) : Prop where
  turns : ∃ turns : List (Handle × World), turns.map (·.1) = w.toolkit.pending ∧
    vs.filter (isTurn level) = turns.map (flushTurn level) ∧ w'.answer = .count (found turns) ∧
    ∀ a u, (a, u) ∈ turns →
      (u.toolkit.items.contains a = true → .felled a ∈ (Job.destroyQueued a).deeds u ∧
        Felled u a (u.destroyQueued a).1 (u.destroyQueued a).2) ∧
      (u.toolkit.items.contains a = false → u.destroyQueued a = (u.log (.destroyUnknown a), []))
  kept : ∀ before v after, vs = before ++ v :: after → ∀ a ∈ v.2.toolkit.pending,
    a ∈ w'.toolkit.pending ∨ ∃ v' ∈ v :: after, .felled a ∈ v'.1.job.deeds v'.2

theorem Runs.drained {w w' : World} {vs : List (Task × World)} {level : Nat} {choose : World → Op} (hq : w.Queued)
    (hf : choose w = .flush) (hr : Runs [⟨level, .act choose⟩] w vs w') : Drained w level vs w' := by
  obtain ⟨turns, ht, hv, answered⟩ := hr.flush hf
  refine ⟨⟨turns, ht, hv, answered, ?_⟩, ?_⟩
  · intro a u _
    constructor
    · intro alive
      have felled : .felled a ∈ (Job.destroyQueued a).deeds u := Toolkit.felled_mem_fells.mpr ⟨alive, rfl⟩
      have left := felled_expand (p := mover) (t := ⟨level, .destroyQueued a⟩) felled
      rw [jobs_expand _ _ u (by simp), Program.expand_eq _ _ u (by simp)] at left
      exact ⟨felled, left⟩
    · intro dead
      simp only [World.destroyQueued, dead, Bool.false_eq_true, if_false, World.destroy_unknown dead]
  · rintro before v after rfl a ha
    have each : ∀ (p : Program) t u, World.Queued u → (p.expand t u).1.Queued := fun p t u => (p.restocked t u).queued
    obtain ⟨queued, rest, later⟩ := hr.since each hq
    exact later.waits queued (Or.inl ha)

/-- In every run, whatever delete callbacks do:
    - the queue of deletes has no handle twice and holds only items that are alive;
    - in deferred mode a request destroys nothing and calls nothing; it adds what it names at the
      end of the queue, unless that is queued already or is not alive;
    - exactly what was alive before a step and is not afterwards has been destroyed in it;
    - who is destroyed has left items, registrations and queue when its delete callback comes, which
      is the one that was stored then, and comes next; no delete callback comes for another reason
      or at another time;
    - destroying it again fails until an item is made with its handle;
    - a flush comes to its end, given that calls nest no deeper than the program's limit, and has
      served the queue (`Drained`). -/
theorem items_are_destroyed_once (c : Course .free) :
    (∀ n ≤ c.length, (c.state n).world.Queued) ∧
    (∀ n op a, n < c.length → (c.state n).op? = some op → op.requested? (c.state n).world = some a →
      (c.state n).world.toolkit.mode = .deferred →
      (c.state (n + 1)).world.toolkit = { (c.state n).world.toolkit with
        pending := (c.state n).world.toolkit.lineUp a, calls := (c.state n).world.toolkit.calls + 1 } ∧
      ∃ due, jobs (c.state (n + 1)).tasks = due ++ (jobs (c.state n).tasks).tail ∧
        ∀ j ∈ due, (∀ call, j ≠ .enter call) ∧ ∀ u, (j.expand u).2 = []) ∧
    (∀ n a, n < c.length → (.felled a ∈ (c.state n).deeds ↔
      (c.state n).world.toolkit.items.contains a = true ∧ (c.state (n + 1)).world.toolkit.items.contains a = false)) ∧
    (∀ n a, n < c.length → .felled a ∈ (c.state n).deeds →
      Felled (c.state n).world a (c.state (n + 1)).world (jobs (c.state (n + 1)).tasks) ∧
      ∀ cb, (c.state n).world.toolkit.deleteSlot a = some cb ↔ ∃ js, jobs (c.state (n + 1)).tasks = .slot cb a :: js) ∧
    (∀ n cb a, n ≤ c.length → .slot cb a ∈ jobs (c.state n).tasks → (∃ js, jobs (c.state n).tasks = .slot cb a :: js) ∧
      ∃ i, n = i + 1 ∧ .felled a ∈ (c.state i).deeds ∧ (c.state i).world.toolkit.deleteSlot a = some cb) ∧
    (∀ i n a, i < n → n ≤ c.length → .felled a ∈ (c.state i).deeds → (∀ m, i < m → m < n → ¬ (c.state m).Makes a) →
      (c.state n).world.destroy a = ((c.state n).world.log (.destroyUnknown a), []) ∧ .felled a ∉ (c.state n).deeds) ∧
    ∀ n level choose ts, n ≤ c.length → (c.state n).tasks = ⟨level, .act choose⟩ :: ts → choose (c.state n).world = .flush →
      (∀ p : Program, ∃ vs, Runs [⟨level, .act choose⟩] (c.state n).world vs (p.run ⟨level, .act choose⟩ (c.state n).world)) ∧
      ∀ vs w', Runs [⟨level, .act choose⟩] (c.state n).world vs w' → Drained (c.state n).world level vs w' := by
  have alive_of_felled {n : Nat} {a : Handle} (hd : .felled a ∈ (c.state n).deeds) :
      (c.state n).world.toolkit.items.contains a = true := by
    simp only [State.deeds] at hd
    split at hd
    · exact (Job.felled_mem hd).1
    · cases hd
  refine ⟨fun n hn => (c.reach hn).queued, ?_, ?_, ?_, ?_, ?_, ?_⟩
  · intro n op a hn ho hr hm
    rcases c.step_cases hn with ⟨ht, -, -⟩ | ⟨p, t, ts, ht, hw, hnext⟩
    · simp [State.op?, ht] at ho
    · obtain ⟨level, job⟩ := t
      cases job with
      | act choose =>
        simp only [State.op?, ht, Option.some.injEq] at ho
        subst ho
        obtain ⟨toolkit, plain⟩ := requested_perform hr hm
        rw [p.expand_eq _ _ (by simp)] at hw hnext
        rw [hw, hnext, ht, jobs_append]
        refine ⟨toolkit, _, rfl, ?_⟩
        simp only [jobs, List.map_map, Function.comp_def, List.map_id']
        exact plain
      | _ => simp [State.op?, ht] at ho
  · intro n a hn
    have next := c.alive_next hn a
    constructor
    · intro hd
      exact ⟨alive_of_felled hd, (c.felled_next hn hd).gone⟩
    · rintro ⟨alive, dead⟩
      by_contra hd
      rw [next.mpr (Or.inr ⟨alive, hd⟩)] at dead
      cases dead
  · intro n a hn hd
    exact ⟨c.felled_next hn hd, c.fells_once hn hd⟩
  · intro n cb a hn hm
    rcases hj : jobs (c.state n).tasks with _ | ⟨j, js⟩
    · rw [hj] at hm
      cases hm
    · have first := (c.reach hn).slots_first
      rw [hj] at hm first
      rcases List.mem_cons.mp hm with rfl | hm
      · exact ⟨⟨js, rfl⟩, c.slot_from hn hj⟩
      · exact absurd hm (first cb a)
  · intro i n a hi hn hd hm
    have dead := c.dead_until_made hi hn hd hm
    refine ⟨World.destroy_unknown dead, ?_⟩
    intro again
    rw [alive_of_felled again] at dead
    cases dead
  · intro n level choose ts hn _ hf
    exact ⟨fun p => p.runs_run _ _, fun vs w' hr => hr.drained (c.reach hn).queued hf⟩

/-- A program that, when an item of the toolkit is gone, has a second one destroyed and asks for a
    third to be. -/
def follower : Program where
  limit := 4
  body
    | .toolkitDelete .. => [fun _ => .destroy ⟨0x1010⟩, fun _ => .native (.itemDel ⟨0x1020⟩)]
    | _ => []

/-- Three items; the first two are queued, and the first has the program's callback. -/
def twoQueued : World :=
  [Op.createItem, .createItem, .createItem, .native (.itemDelCbSet ⟨0x1000⟩ (some (.program "next"))),
    .native (.itemDel ⟨0x1000⟩), .native (.itemDel ⟨0x1010⟩)].foldl (fun w op => (w.perform op).1) (.start .deferred)

theorem reach_twoQueued : Reach .free ⟨twoQueued, [⟨4, .act fun _ => .flush⟩]⟩ := by
  have start : Reach .free ⟨.start .deferred, []⟩ := .start _
  have one := (start.call 4 (fun _ => .createItem)).perform follower ⟨trivial, Or.inl trivial⟩
  have two := (one.call 4 (fun _ => .createItem)).perform follower ⟨trivial, Or.inl trivial⟩
  have three := (two.call 4 (fun _ => .createItem)).perform follower ⟨trivial, Or.inl trivial⟩
  have slotted := (three.call 4 (fun _ => .native (.itemDelCbSet ⟨0x1000⟩ (some (.program "next"))))).perform follower
    ⟨by simp [Op.Typed, NativeCall.Own], trivial⟩
  have first := ((slotted.call 4 (fun _ => .native (.itemDel ⟨0x1000⟩))).perform follower ⟨trivial, trivial⟩).quiet follower
    (by simp)
  have second := ((first.call 4 (fun _ => .native (.itemDel ⟨0x1010⟩))).perform follower ⟨trivial, trivial⟩).quiet follower
    (by simp)
  have queued : Reach .free ⟨twoQueued, []⟩ := second
  exact queued.call 4 (fun _ => .flush)

/-- The flush destroys the first item itself, finds the second destroyed, and leaves the third in
    the queue. -/
theorem the_third_is_left_to_a_later_flush : ∃ (c : Course .free) (vs : List (Task × World)) (w' : World),
    (c.state c.length).world.toolkit.pending = [⟨0x1000⟩, ⟨0x1010⟩] ∧ Drained (c.state c.length).world 4 vs w' ∧
    w'.answer = .count 1 ∧ w'.toolkit.pending = [⟨0x1020⟩] ∧ w'.toolkit.destroyed = [⟨0x1010⟩, ⟨0x1000⟩] ∧
    w'.history.count (.called "next" (.handle ⟨0x1000⟩)) = 1 := by
  obtain ⟨c, hc⟩ := reach_twoQueued.course
  have tasks : (c.state c.length).tasks = [⟨4, .act fun _ => .flush⟩] := by rw [hc]
  obtain ⟨ends, drained⟩ := (items_are_destroyed_once c).2.2.2.2.2.2 c.length 4 _ [] (Nat.le_refl _) tasks rfl
  obtain ⟨vs, hr⟩ := ends follower
  refine ⟨c, vs, _, ?_, drained vs _ hr, ?_⟩
  · rw [hc]
    decide
  · rw [hc]
    decide

end HandleBridge
