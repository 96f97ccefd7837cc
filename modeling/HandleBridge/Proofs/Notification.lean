/-
  HandleBridge.Proofs.Notification — a wrapper is notified once for each binding.

  A `Course` is a run written down state by state, so that what happens at different times
  can be compared. A binding is the time from when a handle is mapped to an id until the
  pair leaves the table. A report that finds the binding calls `notify_deleted` on the
  wrapper when it begins (`State.Notifies`); the calls of the wrapper's observers
  (`State.Hears`), its invalidation (`State.Invalidates`) and the end of the report then lie
  on the call stack in this order, one behind the other (`Shaped`).

  - `Course.pair_left`: a report that has ended has taken the pair out of the table.
  - `Course.started`: the end of a report lies on the stack from its beginning on.
  - `Course.fewer_left`: of the calls that a report makes, fewer are left each time that one
    has its turn, whatever handlers do in between.
  - `notified_once_per_binding`: two calls of `notify_deleted` for one pair are for two bindings;
    every call of an observer and every invalidation happens while exactly one report
    serves it; that report makes one invalidation at most, after all calls of observers.
-/
import HandleBridge.Proofs.Delivery

namespace HandleBridge

variable {k : Conduct}

/-! ## A run, state by state -/

/-- The program performs an operation, or the first task is carried out. -/
inductive Next (k : Conduct) : State → State → Prop
  | call (w : World) (level : Nat) (choose : World → Op) : Next k ⟨w, []⟩ ⟨w, [⟨level, .act choose⟩]⟩
  | turn {c c' : State} : Turn k c c' → Next k c c'

theorem Next.reach {s s' : State} (hn : Next k s s') (hr : Reach k s) : Reach k s' := by
  cases hn with
  | call w level choose => exact .call level choose hr
  | turn ht => exact hr.step ht

structure Course (k : Conduct) where
  length : Nat
  state : Nat → State
  start : ∃ mode, state 0 = ⟨.start mode, []⟩
  next : ∀ i < length, Next k (state i) (state (i + 1))

namespace Course

theorem reach (c : Course k) {i : Nat} (hi : i ≤ c.length) : Reach k (c.state i) := by
  induction i with
  | zero =>
    obtain ⟨mode, h⟩ := c.start
    rw [h]
    exact .start mode
  | succ i ih => exact (c.next i hi).reach (ih (Nat.le_of_lt hi))

/-- The first task is carried out, or there is none and the world stays as it is. -/
theorem turn_or_call (c : Course k) {i : Nat} (hi : i < c.length) :
    Turn k (c.state i) (c.state (i + 1)) ∨ ((c.state i).tasks = [] ∧ (c.state (i + 1)).world = (c.state i).world) := by
  have h := c.next i hi
  generalize c.state (i + 1) = s' at h ⊢
  generalize c.state i = s at h ⊢
  cases h with
  | call w level choose => exact Or.inr ⟨rfl, rfl⟩
  | turn ht => exact Or.inl ht

def snoc (c : Course k) (s : State) (h : Next k (c.state c.length) s) : Course k where
  length := c.length + 1
  state i := if i ≤ c.length then c.state i else s
  start := by simpa using c.start
  next i hi := by
    rcases Nat.lt_or_eq_of_le (Nat.le_of_lt_succ hi) with hlt | rfl
    · rw [if_pos (Nat.le_of_lt hlt), if_pos (Nat.succ_le_of_lt hlt)]
      exact c.next i hlt
    · rw [if_pos (Nat.le_refl _), if_neg (Nat.not_succ_le_self _)]
      exact h

end Course

/-- What is reached is reached by a course. -/
theorem Reach.course {s : State} (h : Reach k s) : ∃ c : Course k, c.state c.length = s := by
  have further {s s' : State} (hn : Next k s s') : (∃ c : Course k, c.state c.length = s) →
      ∃ c : Course k, c.state c.length = s' := by
    rintro ⟨c, rfl⟩
    exact ⟨c.snoc s' hn, if_neg (Nat.not_succ_le_self _)⟩
  induction h with
  | start mode => exact ⟨⟨0, fun _ => ⟨.start mode, []⟩, ⟨mode, rfl⟩, nofun⟩, rfl⟩
  | call level choose _ ih => exact further (.call _ level choose) ih
  | step _ ht ih => exact further (.turn ht) ih

/-- A run goes on with an operation that makes nothing due. -/
theorem Course.perform {k : Conduct} (c : Course k) {w : World} (last : c.state c.length = ⟨w, []⟩) (op : Op)
    (ok : k.Allows w op) (quiet : (w.perform op).2 = []) :
    ∃ d : Course k, d.length = c.length + 2 ∧ (∀ i ≤ c.length, d.state i = c.state i) ∧
      d.state (c.length + 1) = ⟨w, [⟨0, .act fun _ => op⟩]⟩ ∧ d.state (c.length + 2) = ⟨(w.perform op).1, []⟩ := by
  have call : Next k (c.state c.length) ⟨w, [⟨0, .act fun _ => op⟩]⟩ := last ▸ .call w 0 fun _ => op
  let called := c.snoc _ call
  have due : called.state called.length = ⟨w, [⟨0, .act fun _ => op⟩]⟩ := if_neg (Nat.not_succ_le_self _)
  have turn : Turn k (called.state called.length) ⟨(w.perform op).1, []⟩ := by
    have step : Turn k ⟨w, [⟨0, .act fun _ => op⟩]⟩ _ := .mk mover w _ [] fun choose e => by cases e; exact ok
    rw [due]
    simpa only [Program.expand, Job.expand, quiet, List.map_nil, List.append_nil] using step
  refine ⟨called.snoc _ (.turn turn), rfl, fun i hi => ?_, ?_, if_neg (Nat.not_succ_le_self _)⟩
  · exact (if_pos (Nat.le_succ_of_le hi)).trans (if_pos hi)
  · exact (if_pos (Nat.le_refl _)).trans due

/-- The run goes on from one state to another, with no step from a state in which `P` holds. -/
def Avoids (k : Conduct) (P : State → Prop) : State → State → Prop :=
  Relation.ReflTransGen fun s s' => Next k s s' ∧ ¬ P s

/-- What each such step keeps holds as long as the run goes on. -/
theorem Avoids.keeps {P I : State → Prop} {s s' : State} (h : Avoids k P s s') (hr : Reach k s)
    (step : ∀ s s', Reach k s → Next k s s' → ¬ P s → I s → I s') (hi : I s) : Reach k s' ∧ I s' := by
  induction h with
  | refl => exact ⟨hr, hi⟩
  | tail _ hs ih => exact ⟨hs.1.reach ih.1, step _ _ ih.1 hs.1 hs.2 ih.2⟩

/-! ## The order on the call stack -/

/-- The report that began last of those that have not ended. -/
def innermost : List Job → Option (Space × Handle × ItemId × Option Ref)
  | [] => none
  | .settle space h id wrapper :: _ => some (space, h, id, wrapper)
  | _ :: js => innermost js

/-- How many jobs come before the end of the innermost report. -/
def left : List Job → Nat
  | [] => 0
  | .settle .. :: _ => 0
  | _ :: js => left js + 1

/-- Calls that notify `ref`, its invalidation, and the end of the report that makes them. -/
def Framed (ref : Ref) : List Job → Prop
  | .enter c :: js => Job.Code (.enter c) ref ∧ Framed ref js
  | .invalidate a :: .settle _ _ _ wrapper :: _ => a = ref ∧ wrapper = some ref
  | _ => False

/-- Every piece of wrapper code is followed by the rest of what its report calls. -/
def Shaped : List Job → Prop
  | [] => True
  | j :: js => (∀ ref, j.Code ref → Framed ref (j :: js)) ∧ Shaped js

theorem framed_append {ref : Ref} {js : List Job} (h : Framed ref js) (ks : List Job) : Framed ref (js ++ ks) := by
  fun_induction Framed ref js with
  | case1 c js ih => exact ⟨h.1, ih h.2⟩
  | case2 a space b id wrapper js => exact h
  | case3 => exact h.elim

theorem shaped_append {js ks : List Job} (h : Shaped js) (hk : Shaped ks) : Shaped (js ++ ks) := by
  induction js with
  | nil => exact hk
  | cons j js ih => exact ⟨fun ref hc => framed_append (h.1 ref hc) ks, ih h.2⟩

theorem shaped_of_outside {js : List Job} (h : ∀ j ∈ js, ∀ ref, ¬ j.Code ref) : Shaped js := by
  induction js with
  | nil => trivial
  | cons j js ih =>
    exact ⟨fun ref hc => absurd hc (h j (List.mem_cons_self ..) ref),
      ih fun j' hj => h j' (List.mem_cons_of_mem _ hj)⟩

/-- What a report calls is framed, up to the end of the report. -/
theorem framed_code {ref : Ref} {js : List Job} (h : ∀ j ∈ js, ∃ c, j = .enter c ∧ j.Code ref)
    (space : Space) (a : Handle) (id : ItemId) : Framed ref (js ++ [.invalidate ref, .settle space a id (some ref)]) := by
  induction js with
  | nil => exact ⟨rfl, rfl⟩
  | cons j js ih =>
    obtain ⟨c, rfl, hc⟩ := h j (List.mem_cons_self ..)
    exact ⟨hc, ih fun j' hj => h j' (List.mem_cons_of_mem _ hj)⟩

theorem code_inj {j : Job} {ref ref' : Ref} (h : j.Code ref) (h' : j.Code ref') : ref = ref' := by
  cases j with
  | enter c => cases c <;> first | exact h.symm.trans h' | exact h.elim
  | invalidate a => exact h.symm.trans h'
  | _ => exact h.elim

theorem code_notifications {w : World} {ref : Ref} {j : Job} (h : j ∈ w.notifications ref) :
    ∃ c, j = .enter c ∧ j.Code ref := by
  unfold World.notifications at h
  split at h
  · split at h
    · exact ⟨_, List.mem_singleton.mp h, by rw [List.mem_singleton.mp h]; rfl⟩
    · obtain ⟨handler, -, rfl⟩ := List.mem_map.mp h
      exact ⟨_, rfl, rfl⟩
  · cases h

theorem shaped_code {ref : Ref} {js : List Job} (h : ∀ j ∈ js, ∃ c, j = .enter c ∧ j.Code ref)
    (space : Space) (a : Handle) (id : ItemId) : Shaped (js ++ [.invalidate ref, .settle space a id (some ref)]) := by
  induction js with
  | nil => exact ⟨fun ref' hc => ⟨hc, by rw [show ref = ref' from hc]⟩, fun _ hc => hc.elim, trivial⟩
  | cons j js ih =>
    refine ⟨fun ref' hc => ?_, ih fun j' hj => h j' (List.mem_cons_of_mem _ hj)⟩
    obtain ⟨-, -, hj⟩ := h j (List.mem_cons_self ..)
    obtain rfl := code_inj hj hc
    exact framed_code h space a id

/-- What a task makes due is shaped by itself. -/
theorem shaped_expand (p : Program) (t : Task) (w : World) : Shaped (jobs (p.expand t w).2) := by
  by_cases hr : t.job.Reports
  · obtain ⟨level, job⟩ := t
    cases job with
    | nativeDelete space h =>
      rw [jobs_expand p _ w (by simp)]
      show Shaped (w.nativeDelete space h).2
      rcases w.nativeDelete_cases space h with hi | ⟨id, hd, hb⟩
      · rw [World.nativeDelete_ignored hi]
        trivial
      · rw [(World.nativeDelete_found hd hb).2, World.wrapperCode]
        rcases w.lookupId space id with _ | ref
        · exact ⟨fun _ hc => hc.elim, trivial⟩
        · simp only [List.append_assoc, List.cons_append, List.nil_append]
          exact shaped_code (fun j hj => code_notifications hj) space h id
    | settle => trivial
    | _ => exact hr.elim
  · refine shaped_of_outside fun j hj ref hc => ?_
    rcases due_of_mem_expand hj hr with ho | ⟨space, h, rfl, -⟩
    · exact ho.2 ref hc
    · exact hc

theorem Reach.shaped {c : State} (h : Reach k c) : Shaped (jobs c.tasks) := by
  refine h.invariant (I := fun c => Shaped (jobs c.tasks)) (fun _ => trivial)
    (fun w level choose _ => ⟨fun _ hc => hc.elim, trivial⟩)
    fun c c' hc hs => ?_
  obtain ⟨p, w, t, ts, ok⟩ := hs
  rw [jobs_append]
  exact shaped_append (shaped_expand p t w) hc.2

theorem code_of_framed {ref : Ref} {j : Job} {js : List Job} (h : Framed ref (j :: js)) : j.Code ref := by
  cases j with
  | enter c => exact h.1
  | invalidate a =>
    rcases js with _ | ⟨j, js⟩
    · exact h.elim
    · cases j <;> first | exact h.1 | exact h.elim
  | _ => exact h.elim

/-- The report that calls a piece of wrapper code is the innermost one. -/
theorem framed_split {ref : Ref} {js : List Job} (h : Framed ref js) :
    ∃ code space a id rest, js = code ++ .settle space a id (some ref) :: rest ∧ left js = code.length ∧
      innermost js = some (space, a, id, some ref) := by
  fun_induction Framed ref js with
  | case1 c js ih =>
    obtain ⟨code, space, a, id, rest, rfl, hl, hi⟩ := ih h.2
    exact ⟨.enter c :: code, space, a, id, rest, rfl, congrArg (· + 1) hl, hi⟩
  | case2 a space b id wrapper js =>
    obtain ⟨rfl, rfl⟩ := h
    exact ⟨[.invalidate a], space, b, id, js, rfl, rfl, rfl⟩
  | case3 => exact h.elim

theorem left_le (code : List Job) (space : Space) (h : Handle) (id : ItemId) (wrapper : Option Ref)
    (rest : List Job) :
    left (code ++ .settle space h id wrapper :: rest) ≤ code.length := by
  induction code with
  | nil => exact Nat.le_refl 0
  | cons j code ih =>
    have hj : left (j :: (code ++ .settle space h id wrapper :: rest)) ≤
        left (code ++ .settle space h id wrapper :: rest) + 1 := by
      cases j <;> simp [left]
    exact Nat.le_trans hj (Nat.succ_le_succ ih)

theorem mem_of_innermost {js : List Job} {space : Space} {h : Handle} {id : ItemId} {wrapper : Option Ref}
    (hi : innermost js = some (space, h, id, wrapper)) : .settle space h id wrapper ∈ js := by
  fun_induction innermost js with
  | case1 => cases hi
  | case2 s a i o js =>
    cases hi
    exact List.mem_cons_self ..
  | case3 j js hj ih => exact List.mem_cons_of_mem _ (ih hi)

theorem innermost_append {js ks : List Job} {r : Space × Handle × ItemId × Option Ref} (h : innermost js = some r) :
    innermost (js ++ ks) = some r := by
  induction js with
  | nil => cases h
  | cons j js ih => cases j <;> first | exact ih h | exact h

/-! ## What happens in a state -/

namespace State

/-- A registry is about to be told that `h` has been destroyed, finds it bound to `id`, and
    calls `notify_deleted` on the wrapper `ref` of that id. -/
def Notifies (c : State) (space : Space) (h : Handle) (id : ItemId) (ref : Ref) : Prop :=
  (∃ js, jobs c.tasks = .nativeDelete space h :: js) ∧ h ∉ (c.world.registry space).dying ∧
    (c.world.registry space).byHandle.get? h = some id ∧ c.world.lookupId space id = some ref

/-- An observer of `ref` is about to be called because of its deletion. -/
def Hears (c : State) (ref : Ref) : Prop := ∃ call js, jobs c.tasks = .enter call :: js ∧ Job.Code (.enter call) ref

/-- `invalidate` is about to be called on `ref`. -/
def Invalidates (c : State) (ref : Ref) : Prop := ∃ js, jobs c.tasks = .invalidate ref :: js

theorem Hears.framed {c : State} {ref : Ref} (h : c.Hears ref) (hs : Shaped (jobs c.tasks)) :
    Framed ref (jobs c.tasks) ∧ 2 ≤ left (jobs c.tasks) := by
  obtain ⟨call, js, hj, hc⟩ := h
  rw [hj] at hs ⊢
  have hf := hs.1 ref hc
  refine ⟨hf, ?_⟩
  obtain ⟨code, space, a, id, rest, rfl, hl, -⟩ := framed_split hf.2
  cases code with
  | nil => exact hf.2.elim
  | cons j code =>
    show 1 + 1 ≤ left _ + 1
    rw [hl]
    exact Nat.succ_le_succ (Nat.succ_le_succ (Nat.zero_le _))

theorem Invalidates.framed {c : State} {ref : Ref} (h : c.Invalidates ref) (hs : Shaped (jobs c.tasks)) :
    Framed ref (jobs c.tasks) ∧ left (jobs c.tasks) = 1 := by
  obtain ⟨js, hj⟩ := h
  rw [hj] at hs ⊢
  have hf := hs.1 ref rfl
  refine ⟨hf, ?_⟩
  rcases js with _ | ⟨j, js⟩
  · exact hf.elim
  · cases j <;> first | rfl | exact hf.elim

end State

namespace Course

variable {c : Course k} {space : Space} {h : Handle} {id : ItemId}

/-- A state and the next one, where something is left to be done. -/
theorem turn_of_mem (c : Course k) {i : Nat} (hi : i < c.length) {j : Job} {js : List Job}
    (hj : jobs (c.state i).tasks = j :: js) :
    ∃ (p : Program) (t : Task), t.job = j ∧ (c.state (i + 1)).world = (p.expand t (c.state i).world).1 ∧
      jobs (c.state (i + 1)).tasks = jobs (p.expand t (c.state i).world).2 ++ js := by
  have h := c.next i hi
  generalize c.state (i + 1) = s' at h
  generalize c.state i = s at h hj
  cases h with
  | call w level choose => cases hj
  | turn ht =>
    obtain ⟨p, w, t, ts, ok⟩ := ht
    obtain ⟨rfl, rfl⟩ := List.cons.inj hj
    exact ⟨p, t, rfl, rfl, jobs_append _ _⟩

/-- A handle whose report has not ended is marked, and its report lies on the stack once. -/
theorem marked (c : Course k) {i : Nat} (hi : i ≤ c.length) {wrapper : Option Ref} {us rest : List Job}
    (hj : jobs (c.state i).tasks = us ++ .settle space h id wrapper :: rest) :
    h ∈ ((c.state i).world.registry space).dying ∧
      ∀ id' wrapper', .settle space h id' wrapper' ∉ us ∧ .settle space h id' wrapper' ∉ rest := by
  obtain ⟨marks, once⟩ := marked_exactly (c.reach hi) space
  have here : reported space (.settle space h id wrapper :: rest) = h :: reported space rest := by simp [reported]
  rw [hj, reported_append, here] at marks once
  have other {js : List Job} {id' : ItemId} {wrapper' : Option Ref} (hm : .settle space h id' wrapper' ∈ js) :
      h ∈ reported space js := mem_reported.mpr ⟨id', wrapper', hm⟩
  refine ⟨?_, fun id' wrapper' => ⟨fun hm => ?_, fun hm => ?_⟩⟩
  · rw [marks]
    exact List.mem_append_right _ (List.mem_cons_self ..)
  · exact (List.nodup_append.mp once).2.2 h (other hm) h (List.mem_cons_self ..) rfl
  · exact (List.nodup_cons.mp (List.nodup_append.mp once).2.1).1 (other hm)

theorem dying_of_mem (c : Course k) {i : Nat} (hi : i ≤ c.length) {wrapper : Option Ref}
    (hm : .settle space h id wrapper ∈ jobs (c.state i).tasks) : h ∈ ((c.state i).world.registry space).dying := by
  obtain ⟨us, rest, hj⟩ := List.append_of_mem hm
  exact (c.marked hi hj).1

/-- The end of a report lies on the stack from the beginning of the report on. -/
theorem started (c : Course k) {ref : Ref} {m : Nat} (hm : m ≤ c.length)
    (hs : .settle space h id (some ref) ∈ jobs (c.state m).tasks) :
    ∃ i, i < m ∧ (c.state i).Notifies space h id ref ∧
      ∀ n, i < n → n ≤ m → .settle space h id (some ref) ∈ jobs (c.state n).tasks := by
  induction m with
  | zero =>
    obtain ⟨mode, e⟩ := c.start
    rw [e] at hs
    cases hs
  | succ m ih =>
    rcases hj : jobs (c.state m).tasks with _ | ⟨j, js⟩
    · -- the program has just performed an operation
      have hn := c.next m hm
      generalize c.state (m + 1) = s' at hn hs
      generalize c.state m = s at hn hj
      cases hn with
      | call w level choose => simp [jobs] at hs
      | turn ht =>
        obtain ⟨p, w, t, ts, ok⟩ := ht
        cases hj
    · obtain ⟨p, t, ht, hw, hnext⟩ := c.turn_of_mem hm hj
      rw [hnext, List.mem_append] at hs
      rcases hs with hs | hs
      · obtain ⟨hjob, hd, hb, hl⟩ := settle_of_mem_expand hs
        refine ⟨m, Nat.lt_succ_self m, ⟨⟨js, by rw [hj, ← ht, hjob]⟩, hd, hb, hl.symm⟩, fun n hn hn' => ?_⟩
        obtain rfl : n = m + 1 := by omega
        rw [hnext]
        exact List.mem_append_left _ hs
      · have here : .settle space h id (some ref) ∈ jobs (c.state m).tasks := by
          rw [hj]
          exact List.mem_cons_of_mem _ hs
        obtain ⟨i, hi, hno, hall⟩ := ih (Nat.le_of_succ_le hm) here
        refine ⟨i, by omega, hno, fun n hn hn' => ?_⟩
        rcases Nat.lt_or_eq_of_le hn' with hlt | rfl
        · exact hall n hn (by omega)
        · rw [hnext]
          exact List.mem_append_right _ hs

/-- The report that began with state `i` is the innermost one that has not ended at `m`, and
    has not ended in between. -/
structure Serves (c : Course k) (i m : Nat) (space : Space) (h : Handle) (id : ItemId) (ref : Ref) : Prop where
  before : i < m
  notifies : (c.state i).Notifies space h id ref
  underway : ∀ n, i < n → n ≤ m → .settle space h id (some ref) ∈ jobs (c.state n).tasks
  innermost : innermost (jobs (c.state m).tasks) = some (space, h, id, some ref)

theorem serves_of_framed (c : Course k) {ref : Ref} {m : Nat} (hm : m ≤ c.length)
    (hf : Framed ref (jobs (c.state m).tasks)) :
    ∃ space h id i, c.Serves i m space h id ref := by
  obtain ⟨code, space, h, id, rest, -, -, hi⟩ := framed_split hf
  obtain ⟨i, hlt, hno, hall⟩ := c.started hm (mem_of_innermost hi)
  exact ⟨space, h, id, i, hlt, hno, hall, hi⟩

/-- Two reports do not serve one call. -/
theorem Serves.unique {i i' m : Nat} {space' : Space} {h' : Handle} {id' : ItemId} {ref ref' : Ref}
    (hm : m ≤ c.length) (hs : c.Serves i m space h id ref) (hs' : c.Serves i' m space' h' id' ref') :
    space = space' ∧ h = h' ∧ id = id' ∧ ref = ref' ∧ i = i' := by
  have e := hs.innermost.symm.trans hs'.innermost
  simp only [Option.some.injEq, Prod.mk.injEq] at e
  obtain ⟨rfl, rfl, rfl, rfl⟩ := e
  refine ⟨rfl, rfl, rfl, rfl, ?_⟩
  -- a report that begins finds its handle not marked
  have later {a b : Nat} (ha : c.Serves a m space h id ref) (hb : c.Serves b m space h id ref) : ¬ a < b := fun hlt =>
    hb.notifies.2.1 (c.dying_of_mem (by have := hb.before; omega) (ha.underway b hlt (Nat.le_of_lt hb.before)))
  have := later hs hs'
  have := later hs' hs
  omega

/-! ## What is left of a report -/

/-- While a report is under way, what is left of its calls only gets shorter; what lies before
    them is shaped by itself. -/
theorem progress (c : Course k) {wrapper : Option Ref} {n m : Nat} (hn : n ≤ m) (hm : m ≤ c.length)
    (under : ∀ l, n ≤ l → l ≤ m → .settle space h id wrapper ∈ jobs (c.state l).tasks) {us vs rest : List Job}
    (hj : jobs (c.state n).tasks = us ++ vs ++ .settle space h id wrapper :: rest) (hs : Shaped us) :
    ∃ us' vs', jobs (c.state m).tasks = us' ++ vs' ++ .settle space h id wrapper :: rest ∧ Shaped us' ∧
      vs'.length ≤ vs.length := by
  induction hn with
  | refl => exact ⟨us, vs, hj, hs, Nat.le_refl _⟩
  | @step m hnm ih =>
    obtain ⟨us', vs', hj', hs', hle⟩ := ih (Nat.le_of_succ_le hm) fun l hl hl' => under l hl (Nat.le_succ_of_le hl')
    cases us' with
    | cons u us' =>
      obtain ⟨p, t, -, -, hnext⟩ := c.turn_of_mem hm
        (show _ = u :: (us' ++ vs' ++ .settle space h id wrapper :: rest) from hj')
      refine ⟨jobs (p.expand t (c.state m).world).2 ++ us', vs', ?_, shaped_append (shaped_expand p t _) hs'.2, hle⟩
      rw [hnext]
      simp only [List.append_assoc]
    | nil =>
      cases vs' with
      | cons v vs' =>
        obtain ⟨p, t, -, -, hnext⟩ := c.turn_of_mem hm
          (show _ = v :: (vs' ++ .settle space h id wrapper :: rest) from hj')
        refine ⟨jobs (p.expand t (c.state m).world).2, vs', ?_, shaped_expand p t _, Nat.le_of_succ_le hle⟩
        rw [hnext]
        simp only [List.append_assoc]
      | nil =>
        -- the report ends with this step, and lies on the stack only once
        obtain ⟨p, t, ht, -, hnext⟩ := c.turn_of_mem hm (show _ = .settle space h id wrapper :: rest from hj')
        have gone := under (m + 1) (Nat.le_succ_of_le hnm) (Nat.le_refl _)
        have none : jobs (p.expand t (c.state m).world).2 = [] := by
          rw [jobs_expand p t _ (by simp [ht]), ht]
          rfl
        rw [hnext, none] at gone
        have here := c.marked (Nat.le_of_succ_le hm) (show _ = [] ++ .settle space h id wrapper :: rest from hj')
        exact absurd gone (here.2 id wrapper).2

/-- Where a report serves the call that has its turn, what is left is what is left of its own
    calls: nothing lies before them. -/
theorem left_le_of_serves (c : Course k) {i n m : Nat} {ref : Ref} (hn : n ≤ m) (hm : m ≤ c.length) (hin : i < n)
    (hs : c.Serves i m space h id ref) (hf : Framed ref (jobs (c.state m).tasks)) {us vs rest : List Job}
    (hj : jobs (c.state n).tasks = us ++ vs ++ .settle space h id (some ref) :: rest) (shaped : Shaped us) :
    left (jobs (c.state m).tasks) ≤ vs.length := by
  obtain ⟨us', vs', hj', shaped', hle⟩ :=
    c.progress hn hm (fun l hl hl' => hs.underway l (Nat.lt_of_lt_of_le hin hl) hl') hj shaped
  cases us' with
  | nil =>
    rw [hj']
    exact Nat.le_trans (left_le vs' space h id (some ref) rest) hle
  | cons u us' =>
    -- the call that has its turn would be one of a report that began later
    have twice := ((c.marked hm hj').2 id (some ref)).1
    rw [hj'] at hf
    have inner := hs.innermost
    rw [hj', List.append_assoc] at inner
    obtain ⟨_, _, _, _, _, -, -, first⟩ := framed_split (shaped'.1 ref (code_of_framed hf))
    rw [innermost_append first] at inner
    rw [inner] at first
    exact absurd (List.mem_append_left _ (mem_of_innermost first)) twice

/-- Each time that one of the calls of a report has its turn, fewer of them are left. -/
theorem fewer_left {i m m' : Nat} {ref : Ref} (hm' : m' ≤ c.length) (hs : c.Serves i m space h id ref)
    (hs' : c.Serves i m' space h id ref) (hf : Framed ref (jobs (c.state m).tasks))
    (hf' : Framed ref (jobs (c.state m').tasks))
    (hlt : m < m') : left (jobs (c.state m').tasks) < left (jobs (c.state m).tasks) := by
  obtain ⟨code, s, a, b, rest, hj, hl, hi⟩ := framed_split hf
  have e := hs.innermost.symm.trans hi
  simp only [Option.some.injEq, Prod.mk.injEq, and_true] at e
  obtain ⟨rfl, rfl, rfl⟩ := e
  cases code with
  | nil =>
    rw [hj] at hf
    exact hf.elim
  | cons j code =>
    obtain ⟨p, t, -, -, hnext⟩ := c.turn_of_mem (Nat.lt_of_lt_of_le hlt hm')
      (show _ = j :: (code ++ .settle space h id (some ref) :: rest) from hj)
    have here : jobs (c.state (m + 1)).tasks =
        jobs (p.expand t (c.state m).world).2 ++ code ++ .settle space h id (some ref) :: rest := by
      rw [hnext, List.append_assoc]
    rw [hl]
    exact Nat.lt_succ_of_le
      (c.left_le_of_serves hlt hm' (Nat.lt_succ_of_lt hs.before) hs' hf' here (shaped_expand p t _))

/-- The stack when a report has just begun. -/
theorem report_due (c : Course k) {ref : Ref} {i : Nat} (hi : i < c.length)
    (hs : (c.state i).Notifies space h id ref) :
    ∃ rest, jobs (c.state (i + 1)).tasks =
      ((c.state i).world.notifications ref ++ [.invalidate ref]) ++ .settle space h id (some ref) :: rest := by
  obtain ⟨⟨js, hj⟩, hd, hb, hl⟩ := hs
  obtain ⟨p, t, ht, -, hnext⟩ := c.turn_of_mem hi hj
  refine ⟨js, ?_⟩
  rw [hnext, jobs_expand p t _ (by simp [ht]), ht]
  show ((c.state i).world.nativeDelete space h).2 ++ js = _
  rw [World.nativeDelete_due hd hb hl]
  simp only [List.append_assoc, List.cons_append, List.nil_append]

/-- A report has no more calls left than it had when it began. -/
theorem left_le_notifications {i m : Nat} {ref : Ref} (hm : m ≤ c.length) (hs : c.Serves i m space h id ref)
    (hf : Framed ref (jobs (c.state m).tasks)) :
    left (jobs (c.state m).tasks) ≤ ((c.state i).world.notifications ref).length + 1 := by
  obtain ⟨rest, hj⟩ := c.report_due (Nat.lt_of_lt_of_le hs.before hm) hs.notifies
  have here : jobs (c.state (i + 1)).tasks =
      [] ++ ((c.state i).world.notifications ref ++ [.invalidate ref]) ++ .settle space h id (some ref) :: rest := hj
  have := c.left_le_of_serves hs.before hm (Nat.lt_succ_self i) hs hf here trivial
  simpa using this

/-! ## Bindings -/

/-- With the end of a report the pair that it found leaves the table. -/
theorem unmapped (c : Course k) {ref : Ref} {i : Nat} (hi : i < c.length) (hn : h ≠ .null)
    (hs : .settle space h id (some ref) ∈ jobs (c.state i).tasks)
    (hgone : .settle space h id (some ref) ∉ jobs (c.state (i + 1)).tasks) :
    ((c.state (i + 1)).world.registry space).byHandle.get? h ≠ some id := by
  rcases hj : jobs (c.state i).tasks with _ | ⟨j, js⟩
  · rw [hj] at hs
    cases hs
  · obtain ⟨p, t, ht, hw, hnext⟩ := c.turn_of_mem hi hj
    rw [hj, List.mem_cons] at hs
    rw [hnext, List.mem_append] at hgone
    rcases hs with rfl | hs
    · rw [hw, p.expand_eq t _ (by simp [ht]), ht]
      exact (World.settle_unbinds _ space hn id ref).1
    · exact absurd (Or.inr hs) hgone

/-- A report that is under way at one time and over at another has taken the pair that it
    found out of the table in between. -/
theorem pair_left (c : Course k) {ref : Ref} {i j : Nat} (hlt : i ≤ j) (hj : j ≤ c.length) (hn : h ≠ .null)
    (hs : .settle space h id (some ref) ∈ jobs (c.state i).tasks)
    (hgone : .settle space h id (some ref) ∉ jobs (c.state j).tasks) :
    ∃ m, i < m ∧ m ≤ j ∧ ((c.state m).world.registry space).byHandle.get? h ≠ some id := by
  induction hlt with
  | refl => exact absurd hs hgone
  | @step j hlt ih =>
    by_cases hjm : .settle space h id (some ref) ∈ jobs (c.state j).tasks
    · exact ⟨j + 1, Nat.lt_succ_of_le hlt, Nat.le_refl _, c.unmapped hj hn hjm hgone⟩
    · obtain ⟨m, hm, hm', hb⟩ := ih (Nat.le_of_succ_le hj) hjm
      exact ⟨m, hm, Nat.le_succ_of_le hm', hb⟩

/-- Two reports that find the same pair find two bindings. -/
theorem rebound_between (c : Course k) {ref ref' : Ref} {i j : Nat} (hlt : i < j) (hj : j ≤ c.length)
    (hs : (c.state i).Notifies space h id ref) (hs' : (c.state j).Notifies space h id ref') :
    ∃ m, i < m ∧ m < j ∧ ((c.state m).world.registry space).byHandle.get? h ≠ some id := by
  obtain ⟨rest, hdue⟩ := c.report_due (Nat.lt_of_lt_of_le hlt hj) hs
  have due : .settle space h id (some ref) ∈ jobs (c.state (i + 1)).tasks := by
    rw [hdue]
    simp
  have ended : .settle space h id (some ref) ∉ jobs (c.state j).tasks := fun hm => hs'.2.1 (c.dying_of_mem hj hm)
  have hn : h ≠ .null := (((c.reach hj).ordered.coherent space).inverse h id |>.mp hs'.2.2.1).1
  obtain ⟨m, hm, hmj, hb⟩ := c.pair_left hlt hj hn due ended
  rcases Nat.lt_or_eq_of_le hmj with hlt' | rfl
  · exact ⟨m, Nat.lt_of_succ_lt hm, hlt', hb⟩
  · exact absurd hs'.2.2.1 hb

/-- A report that is under way has begun before any other of the same handle. -/
theorem Serves.le_start {i i' m m' : Nat} {ref : Ref} (hm' : m' ≤ c.length) (hs : c.Serves i m space h id ref)
    (hs' : c.Serves i' m' space h id ref) (hlt : m < m') : i ≤ i' := by
  refine Nat.le_of_not_lt fun hi => hs.notifies.2.1 (c.dying_of_mem ?_ (hs'.underway i hi ?_))
  · exact Nat.le_trans (Nat.le_of_lt (Nat.lt_trans hs.before hlt)) hm'
  · exact Nat.le_of_lt (Nat.lt_trans hs.before hlt)

end Course

/-- In every run, `notify_deleted` and `invalidate` are each called at most once on a wrapper
    for each binding, `notify_deleted` first, and both while the report of that binding's
    deletion is in progress:
    - between two calls of `notify_deleted` that find `h` mapped to `id`, the pair has been out of
      the table, so they are for two bindings;
    - every call of an observer, and every `invalidate`, is served by exactly one report, which
      called `notify_deleted` when it began and has not ended;
    - two `invalidate`s are served by reports of two bindings;
    - a report calls observers before `invalidate`, and each of them once: every time, fewer
      are left of those that were there when it began. -/
theorem notified_once_per_binding (c : Course .free) (ref : Ref) :
    (∀ i j space h id, i < j → j ≤ c.length → (c.state i).Notifies space h id ref →
      (c.state j).Notifies space h id ref →
      ∃ m, i < m ∧ m < j ∧ ((c.state m).world.registry space).byHandle.get? h ≠ some id) ∧
    (∀ m, m ≤ c.length → (c.state m).Hears ref ∨ (c.state m).Invalidates ref →
      ∃ space h id i, c.Serves i m space h id ref ∧
        ∀ space' h' id' ref' i', c.Serves i' m space' h' id' ref' → space = space' ∧ h = h' ∧ id = id' ∧
          ref = ref' ∧ i = i') ∧
    (∀ i i' m m' space h id, m < m' → m' ≤ c.length → c.Serves i m space h id ref → c.Serves i' m' space h id ref →
      (c.state m).Invalidates ref → (c.state m').Invalidates ref →
      ∃ n, i < n ∧ n < i' ∧ ((c.state n).world.registry space).byHandle.get? h ≠ some id) ∧
    (∀ i m m' space h id, m ≤ c.length → m' ≤ c.length → c.Serves i m space h id ref → c.Serves i m' space h id ref →
      (c.state m).Hears ref → (c.state m').Invalidates ref → m < m') ∧
    ∀ i m m' space h id, m < m' → m' ≤ c.length → c.Serves i m space h id ref → c.Serves i m' space h id ref →
      (c.state m).Hears ref → (c.state m').Hears ref →
      left (jobs (c.state m').tasks) < left (jobs (c.state m).tasks) ∧
        left (jobs (c.state m).tasks) ≤ ((c.state i).world.notifications ref).length + 1 := by
  have shaped {m : Nat} (hm : m ≤ c.length) : Shaped (jobs (c.state m).tasks) := (c.reach hm).shaped
  refine ⟨fun i j space h id hlt hj hs hs' => c.rebound_between hlt hj hs hs', fun m hm hc => ?_, ?_, ?_, ?_⟩
  · have hf : Framed ref (jobs (c.state m).tasks) :=
      hc.elim (fun hh => (hh.framed (shaped hm)).1) fun hh => (hh.framed (shaped hm)).1
    obtain ⟨space, h, id, i, hs⟩ := c.serves_of_framed hm hf
    exact ⟨space, h, id, i, hs, fun _ _ _ _ _ hs' => hs.unique hm hs'⟩
  · intro i i' m m' space h id hlt hm' hs hs' hi hi'
    obtain ⟨hf, hl⟩ := hi.framed (shaped (Nat.le_of_lt (Nat.lt_of_lt_of_le hlt hm')))
    obtain ⟨hf', hl'⟩ := hi'.framed (shaped hm')
    have hne : i ≠ i' := by
      rintro rfl
      have := Course.fewer_left hm' hs hs' hf hf' hlt
      omega
    have hle := hs.le_start hm' hs' hlt
    exact c.rebound_between (by omega) (Nat.le_trans (Nat.le_of_lt hs'.before) hm') hs.notifies hs'.notifies
  · intro i m m' space h id hm hm' hs hs' hh hi
    obtain ⟨hf, hl⟩ := hh.framed (shaped hm)
    obtain ⟨hf', hl'⟩ := hi.framed (shaped hm')
    refine Nat.lt_of_not_le fun hle => ?_
    rcases Nat.lt_or_eq_of_le hle with hlt | rfl
    · have := Course.fewer_left hm hs' hs hf' hf hlt
      omega
    · omega
  · intro i m m' space h id hlt hm' hs hs' hh hh'
    have hm := Nat.le_of_lt (Nat.lt_of_lt_of_le hlt hm')
    obtain ⟨hf, -⟩ := hh.framed (shaped hm)
    obtain ⟨hf', -⟩ := hh'.framed (shaped hm')
    exact ⟨Course.fewer_left hm' hs hs' hf hf' hlt, Course.left_le_notifications hm hs hf⟩

/-- Told of its deletion, the item moves to another object and has that destroyed too. -/
def restless : Program where
  limit := 4
  body
    | .deleted .. => [fun _ => .bind ⟨0⟩ ⟨0x1010⟩, fun _ => .destroy ⟨0x1010⟩]
    | _ => []

/-- Inside the report of the first object, the item is about to be invalidated because of the
    second. -/
def twiceDeleted : State := State.after restless 13 ⟨settledDown, [⟨4, .act fun _ => .destroy ⟨0x1000⟩⟩]⟩

theorem reach_twiceDeleted : Reach .free twiceDeleted := by
  have down : Reach .free ⟨settledDown, []⟩ := reach_settledDown.mono (Conduct.within_free _)
  have due := (down.call 4 (fun _ => .destroy ⟨0x1000⟩)).perform restless ⟨trivial, trivial⟩
  have inside := ((due.quiet restless (by simp)).quiet restless (by simp)).quiet restless (by simp)
  have moved := inside.perform restless ⟨⟨by decide, by decide⟩, trivial, trivial⟩
  have destroyed := moved.perform restless ⟨trivial, trivial⟩
  have again := ((destroyed.quiet restless (by simp)).quiet restless (by simp)).quiet restless (by simp)
  have stayed := again.perform restless ⟨⟨by decide, by decide⟩, trivial, trivial⟩
  have missed := stayed.perform restless ⟨trivial, trivial⟩
  exact (missed.quiet restless (by simp)).quiet restless (by simp)

/-- Two reports are under way then, and the second of them serves the call. -/
theorem invalidated_for_the_second_object :
    ∃ c : Course .free, (c.state c.length).Invalidates ⟨0⟩ ∧
      reported .items (jobs (c.state c.length).tasks) = [⟨0x1010⟩, ⟨0x1000⟩] ∧
      ∃ i, c.Serves i c.length .items ⟨0x1010⟩ ⟨0⟩ ⟨0⟩ := by
  obtain ⟨c, hc⟩ := reach_twiceDeleted.course
  have stack : jobs (c.state c.length).tasks =
      [.invalidate ⟨0⟩, .settle .items ⟨0x1010⟩ ⟨0⟩ (some ⟨0⟩), .unpin (.registry .items),
      .answer (.flag true), .leave (.deleted "move" ⟨0⟩), .invalidate ⟨0⟩, .settle .items ⟨0x1000⟩ ⟨0⟩ (some ⟨0⟩),
      .unpin (.registry .items), .answer (.flag true)] := by
    rw [hc]
    rfl
  have about : (c.state c.length).Invalidates ⟨0⟩ := ⟨_, stack⟩
  obtain ⟨space, h, id, i, hs, -⟩ := (notified_once_per_binding c ⟨0⟩).2.1 c.length (Nat.le_refl _) (Or.inr about)
  have inner := hs.innermost
  rw [stack] at inner
  cases inner
  exact ⟨c, about, by rw [stack]; rfl, i, hs⟩

end HandleBridge
