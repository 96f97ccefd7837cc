/-
  HandleBridge.Proofs.StaleRequests — whose destruction a flush carries out.

  A request to destroy names a handle, and the item that has the handle may be destroyed and another
  made with it before a flush comes to it. The queue forgets the request with the item. A flush in
  progress has taken its handles out of the queue, though, and what it took it does not forget.

  - `Course.requested`: whoever waits in the queue is the item whose destruction was asked for.
  - `Course.asked_or_made`: whom a flush destroys is that item, or one that was made while this flush,
    or one around it, had still to come to its handle.
  - `flush_destroys_what_was_asked_for`: so without such an item no request reaches another than the
    one for which it was made.
-/
import HandleBridge.Proofs.DeleteQueue
import Mathlib.Tactic.IntervalCases

namespace HandleBridge

namespace Course

variable {k : Conduct} (c : Course k) {b i m n : Nat} {a : Handle}

def Alive (n : Nat) (a : Handle) : Prop := (c.state n).world.toolkit.items.contains a = true

instance : Decidable (c.Alive n a) := inferInstanceAs (Decidable (_ = true))

/-- In state `i` the destruction of the item was asked for that has the handle in state `n`, and has had
    it all the time. -/
structure AskedFor (i n : Nat) (a : Handle) : Prop where
  before : i < n
  asked : ∃ op, (c.state i).op? = some op ∧ op.requested? (c.state i).world = some a
  same : ∀ m, i ≤ m → m ≤ n → c.Alive m a

/-- The item that has the handle in state `n` was made in state `b`, where a flush in progress had still
    to come to the handle. -/
structure MadeUnderFlush (b n : Nat) (a : Handle) : Prop where
  before : b < n
  coming : .destroyQueued a ∈ jobs (c.state b).tasks
  made : (c.state b).Makes a
  absent : ¬ c.Alive b a
  same : ∀ m, b < m → m ≤ n → c.Alive m a

variable {c}

theorem AskedFor.next (h : c.AskedFor i n a) (alive : c.Alive (n + 1) a) : c.AskedFor i (n + 1) a := by
  refine ⟨Nat.lt_succ_of_lt h.before, h.asked, fun m him hm => ?_⟩
  rcases Nat.lt_or_eq_of_le hm with hlt | rfl
  · exact h.same m him (Nat.le_of_lt_succ hlt)
  · exact alive

theorem MadeUnderFlush.next (h : c.MadeUnderFlush b n a) (alive : c.Alive (n + 1) a) : c.MadeUnderFlush b (n + 1) a := by
  refine ⟨Nat.lt_succ_of_lt h.before, h.coming, h.made, h.absent, fun m hbm hm => ?_⟩
  rcases Nat.lt_or_eq_of_le hm with hlt | rfl
  · exact h.same m hbm (Nat.le_of_lt_succ hlt)
  · exact alive

variable (c)

/-- Whoever waits in the queue has been alive since its destruction was asked for. -/
theorem requested (hn : n ≤ c.length) (hp : a ∈ (c.state n).world.toolkit.pending) : ∃ i, c.AskedFor i n a := by
  induction n with
  | zero =>
    obtain ⟨mode, e⟩ := c.start
    rw [e] at hp
    cases hp
  | succ n ih =>
    have alive : c.Alive (n + 1) a := (c.reach hn).queued.alive a hp
    have before := ih (Nat.le_of_lt hn)
    rcases c.step_cases hn with ⟨-, hw, -⟩ | ⟨p, t, ts, ht, hw, -⟩
    · rw [hw] at hp
      obtain ⟨i, asked⟩ := before hp
      exact ⟨i, asked.next alive⟩
    · rw [hw, (p.restocked t _).pending, List.mem_append] at hp
      rcases hp with hp | hp
      · obtain ⟨i, asked⟩ := before (World.mem_spares.mp hp).1
        exact ⟨i, asked.next alive⟩
      · -- the request of this step
        obtain ⟨now, -, -, choose, job, asked⟩ := World.mem_queues hp
        refine ⟨n, Nat.lt_succ_self n, ⟨choose (c.state n).world, ?_, asked⟩, fun m hnm hm => ?_⟩
        · obtain ⟨level, job'⟩ := t
          cases job
          simp only [State.op?, ht]
        · rcases Nat.lt_or_eq_of_le hm with hlt | rfl
          · obtain rfl : m = n := by omega
            exact now
          · exact alive

/-- An item to which a flush in progress has still to come is the one whose destruction was asked
    for, or was made in the meantime. -/
theorem asked_or_made (hn : n ≤ c.length) (hj : .destroyQueued a ∈ jobs (c.state n).tasks) (alive : c.Alive n a) :
    (∃ i, c.AskedFor i n a) ∨ ∃ b, c.MadeUnderFlush b n a := by
  induction n with
  | zero =>
    obtain ⟨mode, e⟩ := c.start
    rw [e] at hj
    cases hj
  | succ n ih =>
    rcases c.step_cases hn with ⟨-, -, level, choose, hnext⟩ | ⟨p, t, ts, ht, -, hnext⟩
    · simp [hnext, jobs] at hj
    · rw [hnext, jobs_append, List.mem_append] at hj
      rcases hj with hj | hj
      · -- a flush has just taken the queue
        have flush : t.job.takes (c.state n).world = true := takes_of_flushes hj trivial
        rw [takes_expand flush] at hj
        have waiting : a ∈ (c.state n).world.toolkit.pending := by simpa using hj
        obtain ⟨i, asked⟩ := c.requested (Nat.le_of_lt hn) waiting
        exact Or.inl ⟨i, asked.next alive⟩
      · have coming : .destroyQueued a ∈ jobs (c.state n).tasks := by
          rw [ht]
          exact List.mem_cons_of_mem _ hj
        by_cases now : c.Alive n a
        · rcases ih (Nat.le_of_lt hn) coming now with ⟨i, asked⟩ | ⟨b, made⟩
          · exact Or.inl ⟨i, asked.next alive⟩
          · exact Or.inr ⟨b, made.next alive⟩
        · have makes : (c.state n).Makes a := ((c.alive_next hn a).mp alive).resolve_right fun h => now h.1
          refine Or.inr ⟨n, Nat.lt_succ_self n, coming, makes, now, fun m hnm hm => ?_⟩
          obtain rfl : m = n + 1 := by omega
          exact alive

end Course

/-- In every run:
    - whoever waits in the queue of deletes has been alive since its destruction was asked for;
    - when a flush comes to a handle it destroys the item that has it, if there is one;
    - the destruction of this item was asked for after it came into being, or it was made while a flush
      in progress had still to come to its handle.
    So a request reaches another item than the one for which it was made only in the second case: such
    an item is destroyed though nobody may have asked for it. -/
theorem flush_destroys_what_was_asked_for (c : Course .free) :
    (∀ n a, n ≤ c.length → a ∈ (c.state n).world.toolkit.pending → ∃ i, c.AskedFor i n a) ∧
    ∀ n level a ts, n < c.length → (c.state n).tasks = ⟨level, .destroyQueued a⟩ :: ts →
      (.felled a ∈ (c.state n).deeds ↔ c.Alive n a) ∧
      (c.Alive n a → ¬ c.Alive (n + 1) a ∧ ((∃ i, c.AskedFor i n a) ∨ ∃ b, c.MadeUnderFlush b n a)) := by
  refine ⟨fun n a hn => c.requested hn, fun n level a ts hn ht => ?_⟩
  have felled : .felled a ∈ (c.state n).deeds ↔ c.Alive n a := by
    simp only [State.deeds, ht]
    exact Toolkit.felled_mem_fells.trans (and_iff_left rfl)
  have coming : .destroyQueued a ∈ jobs (c.state n).tasks := by
    rw [ht]
    exact List.mem_cons_self ..
  refine ⟨felled, fun alive => ⟨fun still => ?_, c.asked_or_made (Nat.le_of_lt hn) coming alive⟩⟩
  rw [Course.Alive, (c.felled_next hn (felled.mpr alive)).gone] at still
  cases still

/-! ## Runs of one program -/

namespace Program

/-- The first of the tasks that remain takes its turn; when there is none, the next of the operations
    is due. -/
def proceed (p : Program) : State × List Op → State × List Op
  | (⟨w, t :: ts⟩, ops) => (⟨(p.expand t w).1, (p.expand t w).2 ++ ts⟩, ops)
  | (⟨w, []⟩, op :: ops) => (⟨w, [⟨p.limit, .act fun _ => op⟩]⟩, ops)
  | (⟨w, []⟩, []) => (⟨w, []⟩, [])

/-- The program performs the operations in order, each outside every handler and to its end. -/
def session (p : Program) (mode : DeleteMode) (ops : List Op) : Nat → State × List Op
  | 0 => (⟨.start mode, []⟩, ops)
  | n + 1 => p.proceed (p.session mode ops n)

def CanProceed (k : Conduct) : State × List Op → Prop
  | (⟨w, t :: _⟩, _) => ∀ choose, t.job = .act choose → k.Allows w (choose w)
  | (⟨_, []⟩, ops) => ops ≠ []

theorem next_proceed {k : Conduct} (p : Program) {s : State × List Op} (h : CanProceed k s) : Next k s.1 (p.proceed s).1 := by
  obtain ⟨⟨w, ts⟩, ops⟩ := s
  rcases ts with _ | ⟨t, ts⟩
  · rcases ops with _ | ⟨op, ops⟩
    · exact absurd rfl h
    · exact .call w _ _
  · exact .turn (.mk p w t ts h)

end Program

def Course.ofSession {k : Conduct} (p : Program) (mode : DeleteMode) (ops : List Op) (n : Nat)
    (h : ∀ i < n, Program.CanProceed k (p.session mode ops i)) : Course k where
  length := n
  state i := (p.session mode ops i).1
  start := ⟨mode, rfl⟩
  next i hi := p.next_proceed (h i hi)

/-- A program that, when an item of the toolkit is gone, has another one destroyed and takes its
    handle for a new one. -/
def renewer : Program where
  limit := 4
  body
    | .toolkitDelete .. => [fun _ => .destroy ⟨0x1010⟩, fun _ => .adopt ⟨0x1010⟩]
    | _ => []

/-- Two items are queued, and the first has the program's callback. -/
def renewing : List Op :=
  [.createItem, .createItem, .native (.itemDelCbSet ⟨0x1000⟩ (some (.program "next"))), .native (.itemDel ⟨0x1000⟩),
    .native (.itemDel ⟨0x1010⟩), .flush]

theorem can_proceed_renewing : ∀ i < 22, Program.CanProceed .free (renewer.session .deferred renewing i) := by
  intro i hi
  interval_cases i
  all_goals first
    | exact List.cons_ne_nil _ _
    | (intro choose e; cases e) <;> first
      | exact ⟨trivial, trivial⟩
      | exact ⟨trivial, Or.inl trivial⟩
      | exact ⟨fun _ e => (by cases e), trivial⟩

/-- The destruction of the first item was asked for. The second, made while the flush had still to come
    to its handle, is destroyed too, and nobody has asked for that. -/
theorem renewed_item_destroyed_unasked :
    let c := Course.ofSession renewer .deferred renewing 22 can_proceed_renewing
    (∃ i, c.AskedFor i 13 ⟨0x1000⟩) ∧
    (∀ i, ¬ c.AskedFor i 21 ⟨0x1010⟩) ∧ (∃ b, c.MadeUnderFlush b 21 ⟨0x1010⟩) ∧ ¬ c.Alive 22 ⟨0x1010⟩ := by
  intro c
  obtain ⟨waits, comes⟩ := flush_destroys_what_was_asked_for c
  have unasked (i : Nat) : ¬ c.AskedFor i 21 ⟨0x1010⟩ := by
    rintro ⟨before, ⟨op, ho, -⟩, same⟩
    by_cases hi : i ≤ 19
    · exact absurd (same 19 hi (by decide)) (by decide)
    · obtain rfl : i = 20 := by omega
      cases ho
  obtain ⟨gone, found⟩ := (comes 21 4 ⟨0x1010⟩ _ (by decide) rfl).2 (by decide)
  exact ⟨waits 13 ⟨0x1000⟩ (by decide) (by decide), unasked, found.resolve_left fun ⟨i, asked⟩ => unasked i asked, gone⟩

end HandleBridge
