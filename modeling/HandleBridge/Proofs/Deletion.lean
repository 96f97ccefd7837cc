/-
  HandleBridge.Proofs.Deletion — a deletion from its beginning to its end.

  `Program.Carries` says which tasks a program carries out on the way to the end of a call, and
  in which worlds. What a wrapper is told on the way are its `notices`: that it is
  notified, that one of its observers is called, that it is invalidated. `Program.Yields` keeps
  of a call where it ends, what each wrapper is told, and that no handler was left out
  because too many were in progress.

  There is one lemma for each thing that happens in a deletion, and the lemmas chain:
  - `Yields.call`: a handler is called,
  - `yields_slot`: the registry's delete callback runs, from the beginning of the report
    (`opened`) to its end (`closed`), given what the observers do,
  - `yields_destroy`, `yields_queued`: the toolkit is asked to destroy an item, by us or by a flush,
  - `yields_delete`, `yields_delete_refused`: an item is deleted by us, or has no handle any more.
-/
import HandleBridge.Proofs.Tables

namespace HandleBridge

/-! ## Calls of one program -/

/-- The tasks come to their end, all carried out by `p`, with the tasks on the way, each with
    the world in which its turn comes. -/
inductive Program.Carries (p : Program) : List Task → World → List (Task × World) → World → Prop
  | done (w : World) : p.Carries [] w [] w
  | task {t : Task} {ts : List Task} {w w' : World} {vs : List (Task × World)} :
      p.Carries ((p.expand t w).2 ++ ts) (p.expand t w).1 vs w' → p.Carries (t :: ts) w ((t, w) :: vs) w'

namespace Program.Carries

variable {p : Program} {ts us : List Task} {w w' w'' : World} {vs vs' : List (Task × World)}

theorem append (h : p.Carries ts w vs w') (h' : p.Carries us w' vs' w'') :
    p.Carries (ts ++ us) w (vs ++ vs') w'' := by
  induction h with
  | done w => exact h'
  | @task t ts w w' vs _ ih =>
    show p.Carries (t :: (ts ++ us)) w ((t, w) :: (vs ++ vs')) w''
    refine .task ?_
    rw [← List.append_assoc]
    exact ih h'

/-- There is one way to the end. -/
theorem unique (h : p.Carries ts w vs w') (h' : p.Carries ts w vs' w'') : vs = vs' ∧ w' = w'' := by
  induction h generalizing vs' w'' with
  | done w =>
    cases h'
    exact ⟨rfl, rfl⟩
  | task _ ih =>
    cases h' with
    | task h' =>
      obtain ⟨rfl, rfl⟩ := ih h'
      exact ⟨rfl, rfl⟩

/-- It ends in the world that running the tasks computes. -/
theorem run_eq (h : p.Carries ts w vs w') : ts.foldl (fun w t => p.run t w) w = w' := by
  induction h with
  | done w => rfl
  | task _ ih => rw [List.foldl_cons, Program.run_eq, ← List.foldl_append, ih]

end Program.Carries

/-! ## What a wrapper is told -/

inductive Notice where
  | notified
  /-- One of the observers of the wrapper's deletion is called. -/
  | heard (handler : String)
  | invalidated
  deriving DecidableEq, Repr

/-- What a task tells `ref`, in the world in which its turn comes. -/
def notice? (ref : Ref) : Task × World → Option Notice
  | (⟨_, .nativeDelete space h⟩, w) =>
    if h ∉ (w.registry space).dying ∧ w.lookupHandle space h = some ref then some .notified else none
  | (⟨_ + 1, .enter (.deleted handler a)⟩, _) => if a = ref then some (.heard handler) else none
  | (⟨_, .invalidate a⟩, _) => if a = ref then some .invalidated else none
  | _ => none

def notices (ref : Ref) (vs : List (Task × World)) : List Notice := vs.filterMap (notice? ref)

/-- Every handler that is due is called: none is left out because too many are in progress. -/
def Roomy (vs : List (Task × World)) : Prop := ∀ v ∈ vs, ∀ c, v.1 ≠ ⟨0, .enter c⟩

/-- The tasks come to their end in `w'`, every handler that is due is called, and `told` is what
    each wrapper is told on the way. -/
def Program.Yields (p : Program) (ts : List Task) (w w' : World) (told : Ref → List Notice) : Prop :=
  ∃ vs, p.Carries ts w vs w' ∧ (∀ ref, notices ref vs = told ref) ∧ Roomy vs

/-- Nobody is told anything. -/
def untold : Ref → List Notice := fun _ => []

/-- What is told in a report to `ref` whose calls tell `told`. -/
def inReport (ref : Ref) (told : Ref → List Notice) : Ref → List Notice :=
  fun a => if a = ref then .notified :: told a ++ [.invalidated] else told a

/-- A job that tells nobody anything by itself. -/
def Job.Silent : Job → Prop
  | .nativeDelete .. | .enter _ | .invalidate _ => False
  | _ => True

theorem Job.Silent.notice {j : Job} (h : j.Silent) (level : Nat) (w : World) (ref : Ref) :
    notice? ref (⟨level, j⟩, w) = none := by
  cases j with
  | nativeDelete | enter | invalidate => exact h.elim
  | _ => rfl

namespace Program

variable {p : Program} {ts us : List Task} {t : Task} {w w' w'' : World} {told told' : Ref → List Notice}
  {level : Nat}

theorem Yields.done (w : World) : p.Yields [] w w untold := ⟨[], .done w, fun _ => rfl, by simp [Roomy]⟩

theorem Yields.append (h : p.Yields ts w w' told) (h' : p.Yields us w' w'' told') :
    p.Yields (ts ++ us) w w'' fun ref => told ref ++ told' ref := by
  obtain ⟨vs, hc, hn, hr⟩ := h
  obtain ⟨vs', hc', hn', hr'⟩ := h'
  refine ⟨vs ++ vs', hc.append hc', fun ref => ?_, fun v hv => ?_⟩
  · show notices ref (vs ++ vs') = told ref ++ told' ref
    rw [← hn, ← hn', notices, notices, notices, List.filterMap_append]
  · rcases List.mem_append.mp hv with hv | hv
    · exact hr v hv
    · exact hr' v hv

theorem Yields.cons (h : p.Yields [t] w w' told) (h' : p.Yields ts w' w'' told') :
    p.Yields (t :: ts) w w'' fun ref => told ref ++ told' ref := h.append h'

theorem Yields.congr (h : p.Yields ts w w' told) (ht : ∀ ref, told ref = told' ref) : p.Yields ts w w' told' := by
  obtain rfl : told = told' := funext ht
  exact h

/-- After tasks that tell nobody anything. -/
theorem Yields.before (h : p.Yields [t] w w' untold) (h' : p.Yields ts w' w'' told) :
    p.Yields (t :: ts) w w'' told :=
  h.append h'

/-- Before tasks that tell nobody anything. -/
theorem Yields.thenQuiet (h : p.Yields ts w w' told) (h' : p.Yields us w' w'' untold) :
    p.Yields (ts ++ us) w w'' told := by
  obtain ⟨vs, hc, hn, hr⟩ := h.append h'
  exact ⟨vs, hc, fun ref => (hn ref).trans (List.append_nil _), hr⟩

/-- A task tells what it tells by itself, and what the tasks tell that it gives way to. -/
theorem Yields.expand {w₁ : World} (he : p.expand t w = (w₁, ts)) (ht : ∀ c, t ≠ ⟨0, .enter c⟩)
    (h : p.Yields ts w₁ w' told) :
    p.Yields [t] w w' fun ref => (notice? ref (t, w)).toList ++ told ref := by
  obtain ⟨vs, hc, hn, hr⟩ := h
  refine ⟨(t, w) :: vs, .task (by rw [he, List.append_nil]; exact hc), fun ref => ?_, fun v hv => ?_⟩
  · show notices ref ((t, w) :: vs) = (notice? ref (t, w)).toList ++ told ref
    rw [← hn, notices, List.filterMap_cons]
    cases notice? ref (t, w) <;> rfl
  · rcases List.mem_cons.mp hv with rfl | hv
    · exact ht
    · exact hr v hv

theorem Yields.job {j : Job} (hj : j.Silent)
    (h : p.Yields ((j.expand w).2.map (⟨level, ·⟩)) (j.expand w).1 w' told) :
    p.Yields [⟨level, j⟩] w w' told := by
  have hc (c : Call) : j ≠ .enter c := by rintro rfl; exact hj
  obtain ⟨vs, hc', hn, hr⟩ := Yields.expand (p.expand_eq ⟨level, j⟩ w hc) (fun c e => hc c (by cases e; rfl)) h
  refine ⟨vs, hc', fun ref => (hn ref).trans ?_, hr⟩
  simp only [hj.notice, Option.toList_none, List.nil_append]

/-- A job after which nothing is due. -/
theorem Yields.quiet {j : Job} (hj : j.Silent) (h : j.expand w = (w', [])) : p.Yields [⟨level, j⟩] w w' untold := by
  refine .job hj ?_
  rw [h]
  exact .done w'

/-- A call of the program comes to its end. -/
theorem Yields.call {c : Call} (h : p.Yields ((p.body c).map (⟨level, .act ·⟩)) (w.enter c) w' told) :
    p.Yields [⟨level + 1, .enter c⟩] w { w'.emit (.ended c.handler) with running := w'.running.tail }
      fun ref => (notice? ref (⟨level + 1, .enter c⟩, w)).toList ++ told ref :=
  .expand rfl (by simp) (h.thenQuiet (.quiet trivial rfl))

end Program

/-! ## A report -/

namespace World

/-- A registry has been told of the deletion of `h`, and begins to report it to `ref`. -/
def opened (w : World) (ref : Ref) (id : ItemId) (h : Handle) : World :=
  (((w.pin (.registry .items)).setRegistry .items (w.itemRegistry.startDying h)).log
    (.nativeDelete id h)).pin (.wrapper ref)

/-- The report ends, after the calls that it makes. -/
def closed (w : World) (ref : Ref) (id : ItemId) (h : Handle) : World :=
  ((w.invalidate ref).1.settle .items h id (some ref)).unpin (.registry .items)

/-- The handlers of the wrapper's deletion. -/
def handlersOf (w : World) (ref : Ref) : List String := ((w.wrappers.get? ref).map (·.deleted)).getD []

theorem notifications_item {w : World} {ref : Ref} (h : w.HasItem ref) :
    w.notifications ref = (w.handlersOf ref).map fun handler => .enter (.deleted handler ref) := by
  obtain ⟨x, hx, hs⟩ := h
  cases hk : x.kind <;> simp_all [notifications, handlersOf, Wrapper.space]

theorem invalidate_item {w : World} {ref : Ref} (h : w.HasItem ref) : (w.invalidate ref).2 = [] := by
  obtain ⟨x, hx, hs⟩ := h
  cases hk : x.kind <;> simp_all [invalidate, Wrapper.space]

end World

namespace Program

variable {p : Program} {w w' : World} {told : Ref → List Notice} {level : Nat}

theorem yields_invalidate {ref : Ref} (item : w.HasItem ref) :
    p.Yields [⟨level, .invalidate ref⟩] w (w.invalidate ref).1 fun a => if a = ref then [.invalidated] else [] := by
  have he : p.expand ⟨level, .invalidate ref⟩ w = ((w.invalidate ref).1, []) := by
    rw [p.expand_eq _ _ (by simp)]
    simp only [Job.expand, World.invalidate_item item, List.map_nil]
  obtain ⟨vs, hc, hn, hr⟩ := Yields.expand he (by simp) (.done _)
  refine ⟨vs, hc, fun a => (hn a).trans ?_, hr⟩
  by_cases ha : ref = a <;> simp [notice?, untold, ha, eq_comm]

/-- A registry that is told of a deletion notifies the wrapper and has its observers called,
    then invalidates it, and then settles the tables. -/
theorem yields_report {w₄ : World} {ref : Ref} {id : ItemId} {h : Handle} (fresh : h ∉ w.itemRegistry.dying)
    (mapped : w.itemRegistry.byHandle.get? h = some id) (found : w.lookupId .items id = some ref)
    (calls : p.Yields ((w.notifications ref).map (⟨level, ·⟩))
      (((w.setRegistry .items (w.itemRegistry.startDying h)).log (.nativeDelete id h)).pin (.wrapper ref)) w₄ told)
    (item : w₄.HasItem ref) :
    p.Yields [⟨level, .nativeDelete .items h⟩] w ((w₄.invalidate ref).1.settle .items h id (some ref))
      (inReport ref told) := by
  have fresh' : h ∉ (w.registry .items).dying := fresh
  have mapped' : (w.registry .items).byHandle.get? h = some id := mapped
  have he : p.expand ⟨level, .nativeDelete .items h⟩ w =
      (((w.setRegistry .items (w.itemRegistry.startDying h)).log (.nativeDelete id h)).pin (.wrapper ref),
        (w.notifications ref).map (⟨level, ·⟩) ++
          ([⟨level, .invalidate ref⟩] ++ [⟨level, .settle .items h id (some ref)⟩])) := by
    rw [p.expand_eq _ _ (by simp)]
    simp only [Job.expand, World.nativeDelete, fresh', if_false, mapped', found, List.map_append,
      List.map_cons, List.map_nil]
    rfl
  have settle : p.Yields [⟨level, .settle .items h id (some ref)⟩] (w₄.invalidate ref).1
      ((w₄.invalidate ref).1.settle .items h id (some ref)) untold := .quiet trivial rfl
  obtain ⟨vs, hc, hn, hr⟩ := Yields.expand he (by simp) (calls.append ((yields_invalidate item).append settle))
  have notified (a : Ref) : notice? a (⟨level, .nativeDelete .items h⟩, w) =
      if ref = a then some .notified else none := by
    have looked : w.lookupHandle .items h = some ref := by
      rw [World.lookupHandle, Registry.lookupHandle, mapped']
      exact found
    simp only [notice?, looked, fresh', not_false_eq_true, true_and, Option.some.injEq]
  refine ⟨vs, hc, fun a => (hn a).trans ?_, hr⟩
  by_cases ha : ref = a <;> simp [notified, inReport, untold, ha, eq_comm]

/-- The registry's delete callback runs, and reports the deletion. -/
theorem yields_slot {w₄ : World} {ref : Ref} {id : ItemId} {h : Handle} (there : w.isThere .items = true)
    (fresh : h ∉ w.itemRegistry.dying) (mapped : w.itemRegistry.byHandle.get? h = some id)
    (found : w.lookupId .items id = some ref)
    (calls : p.Yields ((w.notifications ref).map (⟨level, ·⟩)) (w.opened ref id h) w₄ told)
    (item : w₄.HasItem ref) :
    p.Yields [⟨level, .slot (.registry .items) h⟩] w (w₄.closed ref id h) (inReport ref told) := by
  have report : p.Yields [⟨level, .nativeDelete .items h⟩] (w.pin (.registry .items)) _ (inReport ref told) :=
    yields_report fresh mapped found calls item
  refine .job trivial ?_
  simp only [Job.expand, World.runSlot, there, if_true]
  exact report.thenQuiet (.quiet trivial rfl)

/-! ## Destroying and deleting -/

/-- What is due when the toolkit destroys an item that has the registry's callback. -/
theorem yields_destroy {choose : World → Op} {h : Handle} (hc : choose w = .destroy h)
    (rest : p.Yields ((w.destroy h).2.map (⟨level, ·⟩)) (w.destroy h).1 w' told) :
    p.Yields [⟨level, .act choose⟩] w (w'.answering (.flag (w.toolkit.items.contains h))) told := by
  refine .job trivial ?_
  simp only [Job.expand, hc, World.perform, List.map_append]
  exact rest.thenQuiet (.quiet trivial rfl)

/-- A flush comes to one of its handles. -/
theorem yields_queued {h : Handle} {v : World} (hv : v = if w.toolkit.items.contains h then w.countFlushed else w)
    (rest : p.Yields ((v.destroy h).2.map (⟨level, ·⟩)) (v.destroy h).1 w' told) :
    p.Yields [⟨level, .destroyQueued h⟩] w w' told := by
  subst hv
  exact .job trivial rest

end Program

namespace World

/-- The toolkit has been asked to delete the wrapper's object. -/
def requested (w : World) (ref : Ref) : World :=
  (((w.pin (.registry (w.spaceOf ref))).pin (.wrapper ref)).log
    (.deleteRequested (w.idOf ref) (w.handleOf ref))).native (.itemDel (w.handleOf ref))

/-- What is left to do of a delete once the toolkit has come back. -/
def finished (w : World) (ref : Ref) (space : Space) : World :=
  (((w.releaseHandle ref).unpin (.wrapper ref)).unpin (.registry space)).answering .none

theorem delete_eq {w : World} {ref : Ref} (hn : w.handleOf ref ≠ .null) :
    w.delete ref = (((w.requested ref).carryOut (w.handleOf ref)).1, ((w.requested ref).carryOut (w.handleOf ref)).2 ++
      [.releaseHandle ref, .unpin (.wrapper ref), .unpin (.registry (w.spaceOf ref)), .answer .none]) := by
  simp only [delete, (w.handleOf ref).isNull_eq_false_iff.mpr hn, Bool.false_eq_true, if_false]
  rfl

end World

namespace Program

variable {p : Program} {w w' : World} {told : Ref → List Notice} {level : Nat} {choose : World → Op} {ref : Ref}

theorem yields_delete (hc : choose w = .delete ref) (hn : w.handleOf ref ≠ .null)
    (rest : p.Yields (((w.requested ref).carryOut (w.handleOf ref)).2.map (⟨level, ·⟩))
      ((w.requested ref).carryOut (w.handleOf ref)).1 w' told) :
    p.Yields [⟨level, .act choose⟩] w (w'.finished ref (w.spaceOf ref)) told := by
  refine .job trivial ?_
  simp only [Job.expand, hc, World.perform, World.delete_eq hn, List.map_append]
  have released : p.Yields [⟨level, .releaseHandle ref⟩] w' (w'.releaseHandle ref) untold := .quiet trivial rfl
  have unpinned : p.Yields [⟨level, .unpin (.wrapper ref)⟩] (w'.releaseHandle ref)
      ((w'.releaseHandle ref).unpin (.wrapper ref)) untold := .quiet trivial rfl
  exact rest.thenQuiet (released.before (unpinned.before (Yields.before (.quiet trivial rfl) (.quiet trivial rfl))))

/-- An item that has no handle any more is not deleted again. -/
theorem yields_delete_refused (hc : choose w = .delete ref) (hn : w.handleOf ref = .null) :
    p.Yields [⟨level, .act choose⟩] w (w.failing (.bind (.itemDeleted (w.idOf ref)))) untold := by
  refine .quiet trivial ?_
  simp only [Job.expand, hc, World.perform, World.delete, hn, Handle.isNull, Handle.null, beq_self_eq_true, if_true]

end Program

end HandleBridge
