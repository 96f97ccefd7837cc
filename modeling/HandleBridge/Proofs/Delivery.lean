/-
  HandleBridge.Proofs.Delivery — which deletions reach the wrapper that owns the handle.

  A registry ignores a report of a handle that it is reporting already. The handles that
  it marks so are those of the unfinished reports on the call stack, innermost first,
  each once (`marked_exactly`). So whether a report is delivered can be read off the call
  stack, whatever the program does:
  - `deletion_reaches_the_owner_unless_reported`: with no report of the handle under way,
    the owner is notified and invalidated, and bound to the handle no more when the call
    returns. With one under way, the call does nothing.

  The mark is on the handle and not on the binding. In the handler of a deletion the
  handle may get a new owner, and its object may come back and be destroyed again; the
  new owner is not told then:
  - `a_deletion_inside_a_report_is_lost`: it stays bound, to an object that is gone, though
    it has not been told of any deletion since it was bound.
-/
import HandleBridge.Proofs.Tables

namespace HandleBridge

/-! ## The handles that are being reported -/

/-- The handles of the reports to a registry that have not ended, innermost first. -/
def reported (space : Space) (js : List Job) : List Handle :=
  js.filterMap fun
    | .settle s h _ _ => if s = space then some h else none
    | _ => none

theorem reported_append (space : Space) (js ks : List Job) :
    reported space (js ++ ks) = reported space js ++ reported space ks := List.filterMap_append

theorem mem_reported {space : Space} {js : List Job} {h : Handle} :
    h ∈ reported space js ↔ ∃ id wrapper, .settle space h id wrapper ∈ js := by
  unfold reported
  rw [List.mem_filterMap]
  constructor
  · rintro ⟨j, hj, e⟩
    split at e
    · split at e
      · rename_i s a id wrapper hs
        cases e
        exact ⟨id, wrapper, hs ▸ hj⟩
      · cases e
    · cases e
  · rintro ⟨id, wrapper, hj⟩
    exact ⟨_, hj, by simp⟩

theorem reported_quiet {space : Space} {js : List Job} (hq : ∀ h id wrapper, .settle space h id wrapper ∉ js) :
    reported space js = [] := by
  refine List.eq_nil_iff_forall_not_mem.mpr fun h hm => ?_
  obtain ⟨id, wrapper, hj⟩ := mem_reported.mp hm
  exact hq h id wrapper hj

namespace World

theorem dying_congr {w w' : World} (h : w'.core = w.core) (space : Space) :
    (w'.registry space).dying = (w.registry space).dying := by
  rw [(core_eq h).2.1]

theorem dying_setRegistry (w : World) (s space : Space) {r : Registry} (hr : r.dying = (w.registry s).dying) :
    ((w.setRegistry s r).registry space).dying = (w.registry space).dying := by
  rw [registry_setRegistry]
  split
  · rename_i e
    rw [e, hr]
  · rfl

theorem dying_forget (w : World) (s : Space) (id : ItemId) (space : Space) :
    ((w.forget s id).registry space).dying = (w.registry space).dying := by
  rw [registry_forget]
  split
  · rename_i e
    rw [e, Registry.dying_forget]
  · rfl

/-- No move marks a handle, or takes a mark away. -/
theorem dying_move {k : Conduct} {w w' : World} (h : Move k w w') (space : Space) :
    (w'.registry space).dying = (w.registry space).dying := by
  have attach (ref : Ref) (a : Handle) : ((w.attach ref a).registry space).dying = (w.registry space).dying := by
    rw [registry_attach]
    split
    · rw [Registry.dying_bind]
    · rfl
  cases h with
  | aside hc => exact dying_congr hc space
  | allocate s id r ha =>
    obtain ⟨rfl, rfl⟩ := Registry.allocate_eq ha
    exact w.dying_setRegistry s space rfl
  | create s id r kind ha _ =>
    obtain ⟨rfl, rfl⟩ := Registry.allocate_eq ha
    exact w.dying_setRegistry s space rfl
  | free ref x hx hh =>
    cases hs : x.space
    · rw [release_item hx hh hs]
      exact dying_forget { w with wrappers := w.wrappers.erase ref } .items x.id space
    · rw [release_probe hx hh hs]
      rfl
  | attach ref a => exact attach ref a
  | rebind ref a => exact attach ref a
  | forget s id => exact w.dying_forget s id space
  | _ => rfl

end World

/-- The marks are the unfinished reports on the call stack. -/
def Marked (c : State) : Prop :=
  ∀ space, (c.world.registry space).dying = reported space (jobs c.tasks) ∧ (reported space (jobs c.tasks)).Nodup

theorem marked_begin {w : World} {ts : List Task} {level : Nat} {space : Space} {h : Handle}
    (hc : Marked ⟨w, ⟨level, .nativeDelete space h⟩ :: ts⟩) (s : Space) :
    (((w.nativeDelete space h).1.registry s).dying = reported s ((w.nativeDelete space h).2 ++ jobs ts)) ∧
      (reported s ((w.nativeDelete space h).2 ++ jobs ts)).Nodup := by
  have hm : ∀ s, (w.registry s).dying = reported s (jobs ts) ∧ (reported s (jobs ts)).Nodup := hc
  rcases w.nativeDelete_cases space h with hi | ⟨id, hd, hb⟩
  · rw [World.nativeDelete_ignored hi]
    exact hm s
  · obtain ⟨core, due⟩ := World.nativeDelete_found hd hb
    have code : reported s (w.wrapperCode space id) = [] := reported_quiet fun a i o hj => by
      rcases World.mem_wrapperCode hj with ⟨c, e⟩ | ⟨ref, e⟩ <;> cases e
    have stack : reported s ((w.nativeDelete space h).2 ++ jobs ts) =
        (if space = s then [h] else []) ++ reported s (jobs ts) := by
      rw [due, reported_append, reported_append, code]
      by_cases hs : space = s <;> simp [reported, hs]
    rw [stack, World.dying_congr core, World.registry_setRegistry]
    by_cases hs : space = s
    · subst hs
      rw [if_pos rfl, if_pos rfl]
      refine ⟨congrArg (h :: ·) (hm space).1, List.nodup_cons.mpr ⟨?_, (hm space).2⟩⟩
      rw [← (hm space).1]
      exact hd
    · rw [if_neg (Ne.symm hs), if_neg hs]
      exact hm s

theorem marked_end {w : World} {ts : List Task} {level : Nat} {space : Space} {h : Handle} {id : ItemId} {wrapper : Option Ref}
    (hc : Marked ⟨w, ⟨level, .settle space h id wrapper⟩ :: ts⟩) : Marked ⟨w.settle space h id wrapper, ts⟩ := by
  intro s
  have hm := hc s
  have left : ((w.settle space h id wrapper).registry s).dying = ((w.settled space h id wrapper).registry s).dying :=
    (w.moves_settle (k := .free) space h id wrapper).keeps
      (I := fun u => (u.registry s).dying = ((w.settled space h id wrapper).registry s).dying)
      (fun u u' hu hmove => (World.dying_move hmove s).trans hu) rfl
  show ((w.settle space h id wrapper).registry s).dying = reported s (jobs ts) ∧ (reported s (jobs ts)).Nodup
  rw [left, World.registry_settled]
  by_cases hs : s = space
  · subst hs
    have stack : reported s (jobs (⟨level, .settle s h id wrapper⟩ :: ts)) = h :: reported s (jobs ts) := by
      simp [reported, jobs]
    rw [stack] at hm
    obtain ⟨hd, hn⟩ := hm
    obtain ⟨hmem, hn⟩ := List.nodup_cons.mp hn
    rw [if_pos rfl, Registry.dying_endDying, show (w.registry s).dying = _ from hd]
    refine ⟨?_, hn⟩
    rw [List.filter_cons_of_neg (by simp), List.filter_eq_self.mpr]
    intro a ha
    exact decide_eq_true fun e => hmem (e ▸ ha)
  · rw [if_neg hs]
    have stack : reported s (jobs (⟨level, .settle space h id wrapper⟩ :: ts)) = reported s (jobs ts) := by
      simp [reported, jobs, Ne.symm hs]
    rw [stack] at hm
    exact hm

theorem marked_turn {k : Conduct} {c c' : State} (hc : Marked c) (hs : Turn k c c') : Marked c' := by
  obtain ⟨p, w, t, ts, ok⟩ := hs
  by_cases hr : t.job.Reports
  · obtain ⟨level, job⟩ := t
    cases job with
    | nativeDelete space h =>
      intro s
      show _ = reported s (jobs ((p.expand _ w).2 ++ ts)) ∧ _
      rw [jobs_append, jobs_expand p _ w (by simp)]
      exact marked_begin hc s
    | settle space h id wrapper => exact marked_end hc
    | _ => exact hr.elim
  · intro s
    have hm := hc s
    have old : reported s (jobs (t :: ts)) = reported s (jobs ts) := by
      rw [jobs_cons, ← List.singleton_append, reported_append, reported_quiet, List.nil_append]
      intro h id wrapper hj
      rw [← List.mem_singleton.mp hj] at hr
      exact hr trivial
    have new : reported s (jobs ((p.expand t w).2 ++ ts)) = reported s (jobs ts) := by
      rw [jobs_append, reported_append, reported_quiet, List.nil_append]
      intro h id wrapper hj
      obtain ⟨space, a, e, -⟩ := reports_of_mem_expand hj trivial hr
      cases e
    rw [old] at hm
    rw [new]
    have keep {w' : World} (h : Moves k w w') : (w'.registry s).dying = (w.registry s).dying :=
      h.keeps (I := fun u => (u.registry s).dying = (w.registry s).dying)
        (fun u u' hu hmove => (World.dying_move hmove s).trans hu) rfl
    refine ⟨Eq.trans ?_ hm.1, hm.2⟩
    rcases p.outcome_expand t w ok hr with ⟨hmv, -⟩ | ⟨a, slot, ⟨w₁, t', hmv, hd, hcore⟩, -⟩
    · exact keep hmv
    · have same : ({ w₁ with toolkit := t' }.registry s).dying = (w₁.registry s).dying := rfl
      exact (World.dying_congr hcore s).trans (same.trans (keep hmv))

/-- The handles that a registry has marked are those of the reports on the call stack that
    have not ended, innermost first, and each of them once. -/
theorem marked_exactly {k : Conduct} {c : State} (h : Reach k c) : Marked c := by
  refine h.invariant (I := Marked) (fun mode space => ?_) (fun w level choose hw space => hw space) fun c c' hc hs =>
    marked_turn hc hs
  cases space <;> exact ⟨rfl, List.nodup_nil⟩

/-! ## A report from its beginning to its end -/

namespace World

theorem forget_sheds (w : World) (s : Space) (id : ItemId) (space : Space) :
    (∀ a i, ((w.forget s id).registry space).byHandle.get? a = some i → (w.registry space).byHandle.get? a = some i) ∧
    ∀ i a, ((w.forget s id).registry space).boundTo i = some a → (w.registry space).boundTo i = some a := by
  rw [registry_forget]
  split
  · rename_i e
    subst e
    refine ⟨fun a i hb => ?_, fun i a hb => ?_⟩
    · unfold Registry.forget at hb
      split at hb
      · rw [Registry.byHandle_unmap] at hb
        split at hb
        · cases hb
        · exact hb
      · exact hb
    · rw [Registry.boundTo, Registry.byId_forget] at hb
      split at hb
      · cases hb
      · exact hb
  · exact ⟨fun _ _ hb => hb, fun _ _ hb => hb⟩

/-- Letting go of a wrapper takes nothing into the tables, and frees it or does nothing. -/
theorem release_sheds (w : World) (ref : Ref) (space : Space) :
    (∀ a i, ((w.release ref).registry space).byHandle.get? a = some i → (w.registry space).byHandle.get? a = some i) ∧
    (∀ i a, ((w.release ref).registry space).boundTo i = some a → (w.registry space).boundTo i = some a) ∧
    ((w.release ref).handleOf ref = .null ∨ w.release ref = w) := by
  have still (h : w.release ref = w) :
      (∀ a i, ((w.release ref).registry space).byHandle.get? a = some i → (w.registry space).byHandle.get? a = some i) ∧
      (∀ i a, ((w.release ref).registry space).boundTo i = some a → (w.registry space).boundTo i = some a) ∧
      ((w.release ref).handleOf ref = .null ∨ w.release ref = w) := by
    rw [h]
    exact ⟨fun _ _ hb => hb, fun _ _ hb => hb, Or.inr rfl⟩
  cases hh : w.isHeld ref
  · rcases hx : w.wrappers.get? ref with _ | x
    · exact still (release_of_gone hx)
    · have null : { w with wrappers := w.wrappers.erase ref }.handleOf ref = .null := by simp [handleOf]
      cases hs : x.space
      · rw [release_item hx hh hs]
        obtain ⟨hb, hi⟩ := forget_sheds { w with wrappers := w.wrappers.erase ref } .items x.id space
        refine ⟨hb, hi, Or.inl ?_⟩
        rw [handleOf, wrappers_forget]
        exact null
      · rw [release_probe hx hh hs]
        exact ⟨fun _ _ hb => hb, fun _ _ hb => hb, Or.inl null⟩
  · exact still (release_of_held hh)

/-- After the end of a report, its id does not own the handle, and its wrapper does not
    hold it, unless that has been bound elsewhere without being given the new handle. -/
theorem settle_unbinds (w : World) (space : Space) {h : Handle} (hn : h ≠ .null) (id : ItemId) (ref : Ref) :
    ((w.settle space h id (some ref)).registry space).byHandle.get? h ≠ some id ∧
    ((w.settle space h id (some ref)).registry space).boundTo id ≠ some h ∧
    ((w.settle space h id (some ref)).handleOf ref ≠ h ∨
      ((w.settle space h id (some ref)).registry space).isElsewhere id h = true) := by
  let u := w.reportEnd space h id (some ref)
  obtain ⟨-, hreg, hwrap, -⟩ := core_eq (w.core_reportEnd space h id (some ref))
  let v : World := { u with pins := u.pins.erase (.wrapper ref) }
  have hv : w.settle space h id (some ref) = v.release ref := w.settle_eq space h id (some ref)
  obtain ⟨hbyHandle, hbound, hfreed⟩ := v.release_sheds ref space
  have registry : v.registry space = (w.registry space).endDying h id := by
    show u.registry space = _
    rw [hreg, registry_settled, if_pos rfl]
  rw [registry] at hbyHandle hbound
  rw [hv]
  refine ⟨fun hb => ?_, fun hb => ?_, ?_⟩
  · have hb := hbyHandle h id hb
    rw [Registry.byHandle_endDying] at hb
    split at hb
    · cases hb
    · rename_i hne
      exact hne ⟨rfl, hb⟩
  · have hb := hbound id h hb
    rw [Registry.boundTo, Registry.byId_endDying] at hb
    split at hb
    · cases hb
    · rename_i hne
      refine hne ⟨rfl, Bool.eq_false_iff.mpr fun away => ?_⟩
      obtain ⟨a, ha, hah⟩ := ((w.registry space).isElsewhere_eq id h).mp away
      rw [Registry.boundTo, hb] at ha
      exact hah (Option.some.inj ha).symm
  · rcases hfreed with hnull | hsame
    · rw [hnull]
      exact Or.inl (Ne.symm hn)
    · rw [hsame, registry, Registry.isElsewhere_endDying]
      cases he : (w.registry space).isElsewhere id h
      · refine Or.inl fun hh => ?_
        have held : v.handleOf ref = (w.settled space h id (some ref)).handleOf ref := by
          show ((u.wrappers.get? ref).map _).getD _ = _
          rw [hwrap]
          rfl
        rw [held, handleOf, wrapper_settled] at hh
        split at hh
        · rcases hx : w.wrappers.get? ref with _ | x
          · rw [hx] at hh
            exact hn hh.symm
          · rw [hx] at hh
            exact hn hh.symm
        · rename_i hne
          exact hne ⟨rfl, he, hh⟩
      · exact Or.inr rfl

end World

/-- A report that is not ignored: the wrapper's code has its turn, and then the report
    ends. -/
theorem Runs.report {w w' : World} {level : Nat} {space : Space} {h : Handle} {id : ItemId} {ref : Ref}
    {vs : List (Task × World)} (hr : Runs [⟨level, .nativeDelete space h⟩] w vs w') (hd : h ∉ (w.registry space).dying)
    (hb : (w.registry space).byHandle.get? h = some id) (hl : w.lookupId space id = some ref) :
    (w.notifications ref ++ [Job.invalidate ref]).Sublist (vs.map fun v => v.1.job) ∧
      ∃ u : World, w' = u.settle space h id (some ref) := by
  have due : (w.nativeDelete space h).2 = (w.notifications ref ++ [.invalidate ref]) ++ [.settle space h id (some ref)] := by
    rw [World.nativeDelete_due hd hb hl, List.append_assoc]
    rfl
  cases hr with
  | @task p _ _ _ _ vs hr =>
    change Runs ((w.nativeDelete space h).2.map (Task.mk level) ++ []) _ vs w' at hr
    rw [List.append_nil, due, List.map_append] at hr
    obtain ⟨vs₁, u, vs₂, code, last, rfl⟩ := hr.split _ _
    refine ⟨?_, u, ?_⟩
    · have turns := code.sublist.map (·.job)
      simp only [List.map_map, Function.comp_def, List.map_id'] at turns
      simp only [List.map_cons, List.map_append]
      exact (turns.trans (List.sublist_append_left ..)).trans (List.sublist_cons_self ..)
    · cases last with
      | @task p' _ _ _ _ vs' last =>
        cases last with
        | done => rfl

/-- A report of a handle that is bound to nothing, or is being reported, comes to nothing. -/
theorem Runs.unheeded {w w' : World} {level : Nat} {space : Space} {h : Handle} {vs : List (Task × World)}
    (hr : Runs [⟨level, .nativeDelete space h⟩] w vs w')
    (hn : h ∈ (w.registry space).dying ∨ (w.registry space).byHandle.get? h = none) :
    vs = [(⟨level, .nativeDelete space h⟩, w)] ∧ w' = w.log (.unboundDelete h) := by
  have ignored := World.nativeDelete_ignored hn
  cases hr with
  | @task p _ _ _ _ vs hr =>
    change Runs ((w.nativeDelete space h).2.map (Task.mk level) ++ []) (w.nativeDelete space h).1 vs w' at hr
    rw [ignored] at hr
    cases hr with
    | done => exact ⟨rfl, rfl⟩

theorem Runs.ignored {w w' : World} {level : Nat} {space : Space} {h : Handle} {vs : List (Task × World)}
    (hr : Runs [⟨level, .nativeDelete space h⟩] w vs w') (hd : h ∈ (w.registry space).dying) :
    vs = [(⟨level, .nativeDelete space h⟩, w)] ∧ w' = w.log (.unboundDelete h) := hr.unheeded (Or.inl hd)

/-- A registry is told that `h` has been destroyed while `h` leads to a live wrapper. With no report
    of `h` under way, what is due next is that the wrapper is notified and invalidated, and then the
    end of the report. In every run of the call, whichever handlers have their turns on the way, the
    wrapper is notified and invalidated, and when the call returns it is bound to `h` no more. With
    a report under way, nothing happens: the wrapper is not told, and stays bound. -/
theorem deletion_reaches_the_owner_unless_reported {w : World} {ts : List Task} {level : Nat} {space : Space} {h : Handle}
    {ref : Ref} (hr : Reach .free ⟨w, ⟨level, .nativeDelete space h⟩ :: ts⟩) (hl : w.lookupHandle space h = some ref) :
    ((∀ id wrapper, .settle space h id wrapper ∉ jobs ts) →
      (w.nativeDelete space h).2 = w.notifications ref ++ [.invalidate ref, .settle space h (w.idOf ref) (some ref)] ∧
      ∀ vs w', Runs [⟨level, .nativeDelete space h⟩] w vs w' →
        (w.notifications ref ++ [Job.invalidate ref]).Sublist (vs.map fun v => v.1.job) ∧
        (w'.registry space).byHandle.get? h ≠ some (w.idOf ref) ∧
        (w'.registry space).boundTo (w.idOf ref) ≠ some h ∧
        (w'.handleOf ref ≠ h ∨ (w'.registry space).isElsewhere (w.idOf ref) h = true)) ∧
    ((∃ id wrapper, .settle space h id wrapper ∈ jobs ts) →
      ∀ vs w', Runs [⟨level, .nativeDelete space h⟩] w vs w' →
        vs = [(⟨level, .nativeDelete space h⟩, w)] ∧ w' = w.log (.unboundDelete h)) := by
  have marks : (w.registry space).dying = reported space (jobs ts) := (marked_exactly hr space).1
  have ho : w.Ordered := hr.ordered
  obtain ⟨id, hb, hid⟩ : ∃ id, (w.registry space).byHandle.get? h = some id ∧ w.lookupId space id = some ref := by
    unfold World.lookupHandle Registry.lookupHandle at hl
    split at hl
    · exact ⟨_, ‹_›, hl⟩
    · cases hl
  obtain ⟨hn, e, he, -⟩ := ((ho.coherent space).mapped_iff h id).mp hb
  have own : w.idOf ref = id := by
    simp only [World.lookupId, Registry.lookupId, he] at hid
    split at hid
    · cases hid
      obtain ⟨x, hx⟩ := (w.isLive_iff _).mp ‹_›
      rw [World.idOf_eq hx]
      exact (ho.entryOwn space id e x he hx).1
    · cases hid
  rw [own]
  constructor
  · intro none
    have hd : h ∉ (w.registry space).dying := by
      rw [marks, mem_reported]
      rintro ⟨i, wrapper, hj⟩
      exact none i wrapper hj
    refine ⟨World.nativeDelete_due hd hb hid, fun vs w' hrun => ?_⟩
    obtain ⟨turns, u, rfl⟩ := hrun.report hd hb hid
    exact ⟨turns, u.settle_unbinds space hn id ref⟩
  · rintro ⟨i, wrapper, hj⟩ vs w' hrun
    refine hrun.ignored ?_
    rw [marks, mem_reported]
    exact ⟨i, wrapper, hj⟩

/-! ## An heir -/

/-- The first item, told of its deletion, moves to another object, leaves its handle to
    the second item, and has the object behind it destroyed once more. -/
def heir : Program where
  limit := 4
  body
    | .deleted _ ⟨0⟩ => [fun _ => .bind ⟨0⟩ ⟨0x1010⟩, fun _ => .adopt ⟨0x1000⟩, fun _ => .bind ⟨1⟩ ⟨0x1000⟩,
        fun _ => .destroy ⟨0x1000⟩]
    | _ => []

def beforeHandover : World :=
  [Op.createItem, .createItem, .newGrid ⟨0x1000⟩ .unit (some "a"), .newItem "b", .onDeleted ⟨0⟩ "move",
    .onDeleted ⟨1⟩ "note"].foldl (fun w op => (w.perform op).1) (.start .synchronous)

def destroying : State := ⟨beforeHandover, [⟨4, .act fun _ => .destroy ⟨0x1000⟩⟩]⟩

/-- The first deletion is about to be reported, to the first item. -/
def firstReport : State := State.after heir 2 destroying

/-- The second deletion is about to be reported, inside the report of the first. -/
def secondReport : State := State.after heir 7 firstReport

theorem reach_beforeHandover : Reach .free ⟨beforeHandover, []⟩ := by
  have start : Reach .free ⟨.start .synchronous, []⟩ := .start _
  have one := (start.call 4 (fun _ => .createItem)).perform heir ⟨trivial, Or.inl trivial⟩
  have two := (one.call 4 (fun _ => .createItem)).perform heir ⟨trivial, Or.inl trivial⟩
  have a := (two.call 4 (fun _ => .newGrid ⟨0x1000⟩ .unit (some "a"))).perform heir ⟨rfl, trivial, trivial⟩
  have b := (a.call 4 (fun _ => .newItem "b")).perform heir ⟨rfl, trivial⟩
  have move := (b.call 4 (fun _ => .onDeleted ⟨0⟩ "move")).perform heir ⟨⟨_, rfl, rfl⟩, trivial⟩
  exact (move.call 4 (fun _ => .onDeleted ⟨1⟩ "note")).perform heir ⟨⟨_, rfl, rfl⟩, trivial⟩

theorem reach_firstReport : Reach .free firstReport := by
  have due := (reach_beforeHandover.call 4 (fun _ => .destroy ⟨0x1000⟩)).perform heir ⟨trivial, trivial⟩
  exact due.quiet heir (by simp)

theorem reach_secondReport : Reach .free secondReport := by
  have entered := (reach_firstReport.quiet heir (by simp)).quiet heir (by simp)
  have moved := entered.perform heir ⟨⟨by decide, by decide⟩, trivial, trivial⟩
  have adopted := moved.perform heir ⟨trivial, trivial⟩
  have bound := adopted.perform heir ⟨⟨by decide, by decide⟩, trivial, trivial⟩
  have destroyed := bound.perform heir ⟨trivial, trivial⟩
  exact destroyed.quiet heir (by simp)

/-- The first report has a run in which no call is left out. In each of its runs the first item is
    told, and in the end the handle is not the item's; of the second deletion, which finds the
    second item under the handle, nobody is told. -/
theorem the_first_is_told_and_the_heir_is_not :
    firstReport.world.lookupHandle .items ⟨0x1000⟩ = some ⟨0⟩ ∧ secondReport.world.lookupHandle .items ⟨0x1000⟩ = some ⟨1⟩ ∧
    (∃ vs w', Runs [⟨4, .nativeDelete .items ⟨0x1000⟩⟩] firstReport.world vs w' ∧ ∀ v ∈ vs, v.1.level ≠ 0) ∧
    (∀ vs w', Runs [⟨4, .nativeDelete .items ⟨0x1000⟩⟩] firstReport.world vs w' →
      [Job.enter (.deleted "move" ⟨0⟩), .invalidate ⟨0⟩].Sublist (vs.map fun v => v.1.job) ∧
      (w'.registry .items).byHandle.get? ⟨0x1000⟩ ≠ some ⟨0⟩) ∧
    ∀ vs w', Runs [⟨3, .nativeDelete .items ⟨0x1000⟩⟩] secondReport.world vs w' →
      vs.map (fun v => v.1) = [⟨3, .nativeDelete .items ⟨0x1000⟩⟩] ∧ w'.handleOf ⟨1⟩ = ⟨0x1000⟩ := by
  have first : Reach .free ⟨firstReport.world, ⟨4, .nativeDelete .items ⟨0x1000⟩⟩ :: firstReport.tasks.tail⟩ := reach_firstReport
  have second : Reach .free ⟨secondReport.world, ⟨3, .nativeDelete .items ⟨0x1000⟩⟩ :: secondReport.tasks.tail⟩ :=
    reach_secondReport
  have owner : firstReport.world.lookupHandle .items ⟨0x1000⟩ = some ⟨0⟩ := by decide
  have owner' : secondReport.world.lookupHandle .items ⟨0x1000⟩ = some ⟨1⟩ := by decide
  have run : Runs [⟨4, .nativeDelete .items ⟨0x1000⟩⟩] firstReport.world _ _ := heir.runs_trace (n := 13) rfl
  refine ⟨owner, owner', ⟨_, _, run, by decide⟩, fun vs w' hrun => ?_, fun vs w' hrun => ?_⟩
  · have told := (deletion_reaches_the_owner_unless_reported first owner).1 fun id wrapper hj => by
      rcases hj with _ | ⟨_, _ | ⟨_, hj⟩⟩
      cases hj
    obtain ⟨turns, unmapped, -⟩ := told.2 vs w' hrun
    exact ⟨turns, unmapped⟩
  · obtain ⟨rfl, rfl⟩ := (deletion_reaches_the_owner_unless_reported second owner').2
      ⟨⟨0⟩, some ⟨0⟩, .tail _ (.tail _ (.tail _ (.tail _ (.head _))))⟩ vs w' hrun
    exact ⟨rfl, by decide⟩

/-- The second report is the first that the second item could have been told by: it has
    been bound since the first began, and its handler has not been called. Whichever
    handlers run, it is neither notified nor invalidated, and stays bound to an object
    that is gone. -/
theorem a_deletion_inside_a_report_is_lost :
    Reach .free ⟨secondReport.world, ⟨3, .nativeDelete .items ⟨0x1000⟩⟩ :: secondReport.tasks.tail⟩ ∧
    secondReport.world.lookupHandle .items ⟨0x1000⟩ = some ⟨1⟩ ∧
    secondReport.world.notifications ⟨1⟩ = [.enter (.deleted "note" ⟨1⟩)] ∧
    secondReport.world.history.all (fun e => match e with | .called name _ => name ≠ "note" | _ => true) = true ∧
    ∀ vs w', Runs [⟨3, .nativeDelete .items ⟨0x1000⟩⟩] secondReport.world vs w' →
      (∀ v ∈ vs, v.1.job ≠ .enter (.deleted "note" ⟨1⟩) ∧ v.1.job ≠ .invalidate ⟨1⟩) ∧
      (w'.registry .items).byHandle.get? ⟨0x1000⟩ = some ⟨1⟩ ∧ w'.handleOf ⟨1⟩ = ⟨0x1000⟩ ∧
      w'.toolkit.isAlive ⟨0x1000⟩ = false := by
  refine ⟨reach_secondReport, by decide, rfl, by decide, fun vs w' hrun => ?_⟩
  obtain ⟨rfl, rfl⟩ := hrun.ignored (by decide)
  refine ⟨fun v hv => ?_, by decide, by decide, by decide⟩
  rw [List.mem_singleton.mp hv]
  exact ⟨nofun, nofun⟩

end HandleBridge
