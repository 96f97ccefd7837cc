/-
  HandleBridge.Proofs.Run — runs of the bridge, task by task, and what program code
  may do in them.

  A `State` is a world and the list of tasks that remain: the call stack, innermost
  first. `Turn` carries out the first task. Each step may be taken by another program,
  so handlers may behave differently from call to call; nothing is assumed of them
  but that each operation they perform is allowed (`Conduct.Allows`):
  - it is one that the program's types let it write (`Op.Typed`): it names wrappers that
    are there, an id that was given out, the bridge that a name stands for;
  - it keeps to a `Conduct`, which says what else the program refrains from. `free` is
    the conduct that refrains from nothing.

  `Reach` holds of every state that a run comes through, also those in the
  middle of a call: what holds of them holds wherever program code can look.

  - `Reach.mono`: a run of a stricter conduct is one of a freer conduct.
  - `Runs`: a call from its beginning to its end, with what is carried out on the way;
    `Program.runs_run`: what `run` computes is such an end. That there is one rests on the
    limit that a program has for the nesting of its calls: a call that would be made deeper
    is noted, and does not run (`Program.expand`).
  - `Reach.finish`: the end of a call is reached, where every operation on the way keeps
    to the conduct.
  - `reach_moving`: a state inside a handler that moves its item to another object.
-/
import HandleBridge.Machine.Lemmas

namespace HandleBridge

/-! ## What program code can write -/

namespace World

def HasItem (w : World) (ref : Ref) : Prop := ∃ x, w.wrappers.get? ref = some x ∧ x.space = .items

def HasGrid (w : World) (ref : Ref) : Prop := ∃ x, w.wrappers.get? ref = some x ∧ x.isGrid = true

def HasProbe (w : World) (ref : Ref) : Prop := ∃ x, w.wrappers.get? ref = some x ∧ x.space = .bare

/-- The wrapper is there, and so is the registry that tracks it. -/
def HasTracked (w : World) (ref : Ref) : Prop := w.isLive ref = true ∧ w.isThere (w.spaceOf ref) = true

end World

/-- The program has no callbacks but its own: those of registries and bridges are made
    and kept by them. -/
def NativeCall.Own : NativeCall → Prop
  | .itemDelCbSet _ cb => ∀ space, cb ≠ some (.registry space)
  | .callbackAdd _ _ cb | .callbackDel _ _ cb => ∀ t, cb ≠ .trampoline t
  | _ => True

/-- An operation names what is there. The id that a probe is given, if one is given, has
    been given out before. -/
def Op.Typed (w : World) : Op → Prop
  | .native c => c.Own
  | .newGrid .. | .newItem _ => w.isThere .items = true
  | .nameItem _ ref | .setEnabled ref _ | .isEnabled ref | .setText ref _ _ | .text ref _
  | .setContent ref _ _ _ | .onDeleted ref _ | .removeDeleted ref _ => w.HasItem ref
  | .setSelected ref _ | .isSelected ref | .update ref => w.HasGrid ref
  | .bind ref _ | .register ref _ | .delete ref => w.HasTracked ref
  | .nextId space | .forget space _ | .nativeDelete space _ => w.isThere space = true
  | .newProbe _ _ none => w.isThere .bare = true
  | .newProbe _ _ (some id) => id.val < w.bareRegistry.nextId
  | .setHandle ref _ => w.HasProbe ref
  | .newBridge _ b => b.listeners = [] ∧ b.isShutDown = false
  | .subscribe name b _ | .unsubscribe name b _ | .shutdown name b | .detach name b =>
    w.bridges.get? name = some b
  | _ => True

/-! ## What it refrains from -/

/-- The next allocation does not run over the end of the handle counter, where the
    addition overflows. -/
def Toolkit.HasRoom (t : Toolkit) : Prop := t.nextHandle.toNat + handleStride.toNat < UInt64.size

/-- What a program does of the things that its types do not settle. -/
structure Conduct where
  /-- The registries in which it registers wrappers without giving them the handle. -/
  registers : Space → Prop
  /-- The registries in whose wrappers it binds, and to what it binds them. -/
  binds : Space → Prop
  target : Toolkit → Handle → Prop
  /-- The registries that it makes forget an id, beside those that a freed item leaves. -/
  forgets : Space → Prop
  /-- The registries that it tells itself of a deletion. -/
  reports : Space → Prop
  adopts : Prop
  setsSlots : Prop
  /-- Whether it goes on where the addition that advances the handle counter overflows,
      after the last of the handles. -/
  overflows : Prop

namespace Conduct

/-- Whatever can be written. -/
def free : Conduct where
  registers _ := True
  binds _ := True
  target _ _ := True
  forgets _ := True
  reports _ := True
  adopts := True
  setsSlots := True
  overflows := True

/-- Items are registered by being bound, and forgotten by being freed, in no other way. -/
def bound : Conduct where
  registers space := space = .bare
  binds _ := True
  target _ _ := True
  forgets space := space = .bare
  reports _ := True
  adopts := True
  setsSlots := True
  overflows := True

/-- One item registry has the toolkit to itself: every item of the toolkit was created
    there, only the registry sets delete slots, only the toolkit reports deletions, and
    items are bound to what is alive. -/
def sole : Conduct where
  registers _ := False
  binds space := space = .items
  target t h := h = .null ∨ t.items.contains h = true
  forgets _ := False
  reports _ := False
  adopts := False
  setsSlots := False
  overflows := False

def Permits (k : Conduct) (w : World) : Op → Prop
  | .register ref _ => k.registers (w.spaceOf ref)
  | .bind ref h => k.binds (w.spaceOf ref) ∧ k.target w.toolkit h
  | .newGrid h _ _ => k.binds .items ∧ k.target w.toolkit h
  | .forget space _ => k.forgets space
  | .nativeDelete space _ => k.reports space
  | .adopt _ => k.adopts
  | .native (.itemDelCbSet ..) => k.setsSlots
  | .createItem | .createObject => k.overflows ∨ w.toolkit.HasRoom
  | _ => True

def Allows (k : Conduct) (w : World) (op : Op) : Prop := op.Typed w ∧ k.Permits w op

/-- A conduct that allows no more than another. -/
structure Within (k k' : Conduct) : Prop where
  registers : ∀ space, k.registers space → k'.registers space
  binds : ∀ space, k.binds space → k'.binds space
  target : ∀ t h, k.target t h → k'.target t h
  forgets : ∀ space, k.forgets space → k'.forgets space
  reports : ∀ space, k.reports space → k'.reports space
  adopts : k.adopts → k'.adopts
  setsSlots : k.setsSlots → k'.setsSlots
  overflows : k.overflows → k'.overflows

theorem within_free (k : Conduct) : k.Within free :=
  ⟨fun _ _ => trivial, fun _ _ => trivial, fun _ _ _ => trivial, fun _ _ => trivial, fun _ _ => trivial,
    fun _ => trivial, fun _ => trivial, fun _ => trivial⟩

theorem sole_within_bound : sole.Within bound :=
  ⟨fun _ h => h.elim, fun _ _ => trivial, fun _ _ _ => trivial, fun _ h => h.elim, fun _ _ => trivial,
    fun _ => trivial, fun _ => trivial, fun _ => trivial⟩

theorem Within.allows {k k' : Conduct} (hk : k.Within k') {w : World} {op : Op} (h : k.Allows w op) :
    k'.Allows w op := by
  obtain ⟨ht, hp⟩ := h
  refine ⟨ht, ?_⟩
  cases op with
  | register ref h => exact hk.registers _ hp
  | bind ref h => exact ⟨hk.binds _ hp.1, hk.target _ _ hp.2⟩
  | newGrid h data name => exact ⟨hk.binds _ hp.1, hk.target _ _ hp.2⟩
  | forget space id => exact hk.forgets _ hp
  | nativeDelete space h => exact hk.reports _ hp
  | adopt h => exact hk.adopts hp
  | native c =>
    cases c with
    | itemDelCbSet h cb => exact hk.setsSlots hp
    | _ => trivial
  | createItem => exact hp.imp hk.overflows id
  | createObject => exact hp.imp hk.overflows id
  | _ => trivial

end Conduct

/-! ## Steps and runs -/

/-- A world, and what remains to be done in it, innermost first. -/
structure State where
  world : World
  tasks : List Task

/-- The first task is carried out, its operation, if it is one, being allowed. -/
inductive Turn (k : Conduct) : State → State → Prop
  | mk (p : Program) (w : World) (t : Task) (ts : List Task)
      (ok : ∀ choose, t.job = .act choose → k.Allows w (choose w)) :
      Turn k ⟨w, t :: ts⟩ ⟨(p.expand t w).1, (p.expand t w).2 ++ ts⟩

inductive Reach (k : Conduct) : State → Prop
  | start (mode : DeleteMode) : Reach k ⟨.start mode, []⟩
  /-- The program performs an operation outside every handler. -/
  | call {w : World} (level : Nat) (choose : World → Op) : Reach k ⟨w, []⟩ → Reach k ⟨w, [⟨level, .act choose⟩]⟩
  | step {c c' : State} : Reach k c → Turn k c c' → Reach k c'

theorem Turn.mono {k k' : Conduct} (hk : k.Within k') {c c' : State} (h : Turn k c c') : Turn k' c c' := by
  cases h with
  | mk p w t ts ok => exact .mk p w t ts fun choose hj => hk.allows (ok choose hj)

theorem Reach.mono {k k' : Conduct} (hk : k.Within k') {c : State} (h : Reach k c) : Reach k' c := by
  induction h with
  | start mode => exact .start mode
  | call level choose _ ih => exact .call level choose ih
  | step _ hs ih => exact .step ih (hs.mono hk)

/-- An invariant holds at the start, does not look at the operation that is about to be
    performed, and is kept by every step. -/
theorem Reach.invariant {k : Conduct} {I : State → Prop} (start : ∀ mode, I ⟨.start mode, []⟩)
    (call : ∀ w level choose, I ⟨w, []⟩ → I ⟨w, [⟨level, .act choose⟩]⟩)
    (step : ∀ c c', I c → Turn k c c' → I c') {c : State} (h : Reach k c) : I c := by
  induction h with
  | start mode => exact start mode
  | call level choose _ ih => exact call _ level choose ih
  | step _ hs ih => exact step _ _ ih hs

/-! ## Whole calls -/

/-- Tasks come to their end, with the tasks that are carried out on the way, each with
    the world in which its turn comes. -/
inductive Runs : List Task → World → List (Task × World) → World → Prop
  | done (w : World) : Runs [] w [] w
  | task (p : Program) {t : Task} {ts : List Task} {w w' : World} {vs : List (Task × World)} :
      Runs ((p.expand t w).2 ++ ts) (p.expand t w).1 vs w' → Runs (t :: ts) w ((t, w) :: vs) w'

namespace Runs

theorem append {ts us : List Task} {w w' w'' : World} {vs vs' : List (Task × World)} (h : Runs ts w vs w')
    (h' : Runs us w' vs' w'') : Runs (ts ++ us) w (vs ++ vs') w'' := by
  induction h with
  | done w => exact h'
  | @task p t ts w w' vs _ ih =>
    show Runs (t :: (ts ++ us)) w ((t, w) :: (vs ++ vs')) w''
    refine .task p ?_
    rw [← List.append_assoc]
    exact ih h'

theorem split (ts us : List Task) {w w'' : World} {vs : List (Task × World)} (h : Runs (ts ++ us) w vs w'') :
    ∃ vs₁ w' vs₂, Runs ts w vs₁ w' ∧ Runs us w' vs₂ w'' ∧ vs = vs₁ ++ vs₂ := by
  generalize he : ts ++ us = all at h
  induction h generalizing ts with
  | done w =>
    obtain ⟨rfl, rfl⟩ := List.append_eq_nil_iff.mp he
    exact ⟨[], w, [], .done w, .done w, rfl⟩
  | @task p t rest w w' vs h ih =>
    cases ts with
    | nil =>
      obtain rfl : us = t :: rest := he
      exact ⟨[], w, (t, w) :: vs, .done w, .task p h, rfl⟩
    | cons t' ts =>
      obtain ⟨rfl, rfl⟩ := List.cons.inj he
      obtain ⟨vs₁, w₁, vs₂, h1, h2, rfl⟩ := ih ((p.expand t' w).2 ++ ts) (List.append_assoc ..)
      exact ⟨(t', w) :: vs₁, w₁, vs₂, .task p h1, h2, rfl⟩

/-- Each task that was to be done has its turn, in order. -/
theorem sublist {ts : List Task} {w w' : World} {vs : List (Task × World)} (h : Runs ts w vs w') :
    ts.Sublist (vs.map (·.1)) := by
  induction h with
  | done w => exact .slnil
  | @task p t ts w w' vs _ ih => exact ((List.sublist_append_right _ _).trans ih).cons_cons t

/-- What has its turn on the way is of no higher rank than what was to be done. -/
theorem rank_lt {ts : List Task} {w w' : World} {vs : List (Task × World)} (h : Runs ts w vs w') {n : Nat}
    (hn : ∀ t ∈ ts, t.rank < n) : ∀ v ∈ vs, v.1.rank < n := by
  induction h with
  | done w =>
    intro v hv
    cases hv
  | @task p t ts w w' vs _ ih =>
    have ht := hn t (List.mem_cons_self ..)
    intro v hv
    rcases List.mem_cons.mp hv with rfl | hv
    · exact ht
    · refine ih (fun t' hm => ?_) v hv
      rcases List.mem_append.mp hm with hm | hm
      · exact Nat.lt_trans (p.rank_expand t w t' hm) ht
      · exact hn t' (List.mem_cons_of_mem _ hm)

/-- From each turn on, the tasks run on to the same end; what every task keeps holds there. -/
theorem since {ts : List Task} {w w' : World} {before after : List (Task × World)} {v : Task × World}
    (h : Runs ts w (before ++ v :: after) w') {I : World → Prop} (step : ∀ (p : Program) t u, I u → I (p.expand t u).1)
    (hi : I w) : I v.2 ∧ ∃ rest, Runs (v.1 :: rest) v.2 (v :: after) w' := by
  generalize hv : before ++ v :: after = vs at h
  induction h generalizing before with
  | done w => simp at hv
  | @task p t ts w w' vs h ih =>
    rcases before with _ | ⟨b, before⟩
    · obtain ⟨rfl, rfl⟩ := List.cons.inj hv
      exact ⟨hi, ts, .task p h⟩
    · exact ih (step p t w hi) (List.cons.inj hv).2

end Runs

namespace Program

theorem runs_foldl (p : Program) (n : Nat) (run : ∀ t w, t.rank < n → ∃ vs, Runs [t] w vs (p.run t w)) (ts : List Task) :
    ∀ w, (∀ t ∈ ts, t.rank < n) → ∃ vs, Runs ts w vs (ts.foldl (fun w t => p.run t w) w) := by
  induction ts with
  | nil => exact fun w _ => ⟨[], .done w⟩
  | cons t ts ih =>
    intro w h
    obtain ⟨vs, h1⟩ := run t w (h t (List.mem_cons_self ..))
    obtain ⟨vs', h2⟩ := ih (p.run t w) fun t' ht => h t' (List.mem_cons_of_mem _ ht)
    exact ⟨vs ++ vs', h1.append h2⟩

/-- The world that `run` computes is the one in which the steps of the task end. That they end is
    due to the limit on the nesting of calls, below which each step gives way to tasks of lower rank. -/
theorem runs_run (p : Program) (t : Task) (w : World) : ∃ vs, Runs [t] w vs (p.run t w) := by
  induction hn : t.rank using Nat.strongRecOn generalizing t w with
  | ind n ih =>
    obtain ⟨vs, h⟩ := p.runs_foldl n (fun t' w' ht => ih _ ht t' w' rfl) (p.expand t w).2 (p.expand t w).1
      fun t' ht => hn ▸ p.rank_expand t w t' ht
    rw [run_eq]
    refine ⟨(t, w) :: vs, .task p ?_⟩
    rw [List.append_nil]
    exact h

end Program

/-- The first task takes its turn, and what it gives way to comes before the others. -/
theorem Reach.next {k : Conduct} (p : Program) {w : World} {t : Task} {ts us : List Task} (h : Reach k ⟨w, t :: ts ++ us⟩)
    (ok : ∀ choose, t.job = .act choose → k.Allows w (choose w)) :
    Reach k ⟨(p.expand t w).1, (p.expand t w).2 ++ ts ++ us⟩ := by
  rw [List.append_assoc]
  exact h.step (.mk p w t (ts ++ us) ok)

/-- Where every operation on the way is allowed, the end of a call is reached, with what
    was to be done after it. -/
theorem Reach.finish {k : Conduct} {ts us : List Task} {w w' : World} {vs : List (Task × World)} (h : Runs ts w vs w')
    (hr : Reach k ⟨w, ts ++ us⟩) (ok : ∀ v ∈ vs, ∀ choose, v.1.job = .act choose → k.Allows v.2 (choose v.2)) :
    Reach k ⟨w', us⟩ := by
  induction h with
  | done w => exact hr
  | @task p t ts w w' vs _ ih =>
    exact ih (hr.next p (ok (t, w) (List.mem_cons_self ..))) fun v hv => ok v (List.mem_cons_of_mem _ hv)

/-! ## A run -/

instance (t : Toolkit) : Decidable t.HasRoom := Nat.decLt _ _

/-- A task that performs no operation takes its turn. -/
theorem Reach.quiet {k : Conduct} (p : Program) {w : World} {t : Task} {ts : List Task} (h : Reach k ⟨w, t :: ts⟩)
    (ht : ∀ choose, t.job ≠ .act choose) : Reach k ⟨(p.expand t w).1, (p.expand t w).2 ++ ts⟩ :=
  h.step (.mk p w t ts fun choose e => absurd e (ht choose))

theorem Reach.perform {k : Conduct} (p : Program) {w : World} {level : Nat} {choose : World → Op} {ts : List Task}
    (h : Reach k ⟨w, ⟨level, .act choose⟩ :: ts⟩) (ok : k.Allows w (choose w)) :
    Reach k ⟨(w.perform (choose w)).1, (w.perform (choose w)).2.map (⟨level, ·⟩) ++ ts⟩ :=
  h.step (.mk p w _ ts fun choose' e => by cases e; exact ok)

/-- The state after some turns of one program. -/
def State.after (p : Program) : Nat → State → State
  | 0, s => s
  | _ + 1, ⟨w, []⟩ => ⟨w, []⟩
  | n + 1, ⟨w, t :: ts⟩ => State.after p n ⟨(p.expand t w).1, (p.expand t w).2 ++ ts⟩

/-- The turns that one program takes, each with the world in which it comes. -/
def Program.trace (p : Program) : Nat → State → List (Task × World)
  | 0, _ => []
  | _ + 1, ⟨_, []⟩ => []
  | n + 1, ⟨w, t :: ts⟩ => (t, w) :: p.trace n ⟨(p.expand t w).1, (p.expand t w).2 ++ ts⟩

theorem Program.runs_trace (p : Program) {n : Nat} {ts : List Task} {w : World} (h : (State.after p n ⟨w, ts⟩).tasks = []) :
    Runs ts w (p.trace n ⟨w, ts⟩) (State.after p n ⟨w, ts⟩).world := by
  induction n generalizing ts w with
  | zero =>
    obtain rfl : ts = [] := h
    exact .done w
  | succ n ih =>
    cases ts with
    | nil => exact .done w
    | cons t ts => exact .task p (ih h)

/-- An item that, told of its deletion, moves to another object. -/
def mover : Program where
  limit := 4
  body
    | .deleted .. => [fun _ => .bind ⟨0⟩ ⟨0x1010⟩]
    | _ => []

/-- It is bound to the first of two objects. -/
def settledDown : World :=
  [Op.createItem, .createItem, .newGrid ⟨0x1000⟩ .unit (some "a"), .onDeleted ⟨0⟩ "move"].foldl
    (fun w op => (w.perform op).1) (.start .synchronous)

/-- The first object has been destroyed, and the handler has just moved the item. -/
def moving : State := State.after mover 5 ⟨settledDown, [⟨4, .act fun _ => .destroy ⟨0x1000⟩⟩]⟩

theorem reach_settledDown : Reach .sole ⟨settledDown, []⟩ := by
  have start : Reach .sole ⟨.start .synchronous, []⟩ := .start _
  have one := (start.call 4 (fun _ => .createItem)).perform mover ⟨trivial, Or.inr (by decide)⟩
  have two := (one.call 4 (fun _ => .createItem)).perform mover ⟨trivial, Or.inr (by decide)⟩
  have made := (two.call 4 (fun _ => .newGrid ⟨0x1000⟩ .unit (some "a"))).perform mover
    ⟨rfl, rfl, Or.inr (by decide)⟩
  exact (made.call 4 (fun _ => .onDeleted ⟨0⟩ "move")).perform mover ⟨⟨_, rfl, rfl⟩, trivial⟩

theorem reach_moving : Reach .sole moving := by
  have due := (reach_settledDown.call 4 (fun _ => .destroy ⟨0x1000⟩)).perform mover ⟨trivial, trivial⟩
  have told := (due.quiet mover (by simp)).quiet mover (by simp)
  have inside := told.quiet mover (by simp)
  exact inside.perform mover ⟨⟨by decide, by decide⟩, rfl, Or.inr (by decide)⟩

end HandleBridge
