/-
  HandleBridge.Proofs.Pins — an operation in progress keeps what it holds.

  What an operation pins it takes away itself, with a job that it leaves on the call stack. The
  pins are a stack of their own, and it is the one that these jobs make (`Reach.pins_eq`):
  each task that pins something pushes what its jobs owe (`World.Pays`), and each job
  that owes a pin finds it on top. A wrapper that is pinned is not freed by anything that
  happens meanwhile (`World.Keeps`, `Turn.keeps_pinned`), dropping its last name included.
  - `Course.kept`: a report that is under way keeps the wrapper that it was made to.
-/
import HandleBridge.Proofs.Custody
import HandleBridge.Proofs.Notification

namespace HandleBridge

/-! ## The stack of pins -/

theorem owed_eq_nil {js : List Job} (h : ∀ j ∈ js, j.owes = none) : owed js = [] := List.filterMap_eq_nil_iff.mpr h

theorem owed_append_nil {js ks : List Job} (h : owed js = []) (hk : owed ks = []) : owed (js ++ ks) = [] := by
  rw [owed_append, h, hk]
  rfl

namespace World

/-- The task has pinned what its jobs owe. -/
def Pays (w : World) (r : World × List Job) : Prop := r.1.pins = owed r.2 ++ w.pins

theorem owed_destroy (w : World) (h : Handle) : owed (w.destroy h).2 = [] := by
  unfold destroy
  split
  · rfl
  · split <;> rfl

theorem owed_carryOut (w : World) (h : Handle) : owed (w.carryOut h).2 = [] := by
  unfold carryOut
  split
  · exact w.owed_destroy h
  · rfl

theorem owed_perform (w : World) {op : Op} (ho : ¬ op.MovesHolds) : owed (w.perform op).2 = [] := by
  cases op with
  | destroy h => exact owed_append_nil (w.owed_destroy h) rfl
  | flush =>
    refine owed_append_nil (owed_eq_nil fun j hj => ?_) rfl
    obtain ⟨a, -, rfl⟩ := List.mem_map.mp hj
    rfl
  | fire object event info =>
    refine owed_append_nil (owed_eq_nil fun j hj => ?_) rfl
    obtain ⟨cb, -, rfl⟩ := List.mem_map.mp hj
    rfl
  | native c =>
    cases c with
    | itemDel h => exact owed_append_nil (owed_carryOut _ h) rfl
    | _ => rfl
  | newGrid | newItem | nameItem | dropItem | newProbe | dropProbe | nextId | delete | nativeDelete =>
    exact absurd trivial ho
  | _ => rfl

theorem pays_delete (w : World) (ref : Ref) : w.Pays (w.delete ref) := by
  simp only [delete]
  split
  · rfl
  · let held := (w.pin (.registry (w.spaceOf ref))).pin (.wrapper ref)
    let asked := (held.log (.deleteRequested (w.idOf ref) (w.handleOf ref))).native (.itemDel (w.handleOf ref))
    have pins : (asked.carryOut (w.handleOf ref)).1.pins = held.pins := by
      have hc : (asked.carryOut (w.handleOf ref)).1.custody = held.custody := by
        simp only [asked, custody_carryOut, custody_native, custody_log]
      exact congrArg (·.2.2.2) hc
    refine pins.trans ?_
    rw [owed_append, owed_carryOut]
    rfl

theorem pays_perform (w : World) (op : Op) : w.Pays (w.perform op) := by
  by_cases ho : op.MovesHolds
  · cases op with
    | newGrid h data name => exact (w.careful_newGrid h data name).pins
    | newItem name => exact (w.careful_newItem name).pins
    | nameItem name ref => exact pins_nameItem w name ref
    | dropItem name => exact (w.careful_dropItemName name).pins
    | newProbe name bare id => exact (w.careful_newProbe name bare id).pins
    | dropProbe name => exact (w.careful_dropProbeName name).pins
    | nextId space => exact (w.careful_withFreshId space _ fun v id => (Careful.refl v).answering (.id id)).pins
    | delete ref => exact w.pays_delete ref
    | nativeDelete space h => rfl
    | _ => exact ho.elim
  · rw [Pays, w.owed_perform ho]
    exact congrArg (·.2.2.2) (w.custody_perform ho)

theorem owed_notifications (w : World) (ref : Ref) : owed (w.notifications ref) = [] := by
  refine owed_eq_nil fun j hj => ?_
  obtain ⟨c, rfl⟩ := mem_notifications hj
  rfl

theorem pays_nativeDelete (w : World) (space : Space) (h : Handle) : w.Pays (w.nativeDelete space h) := by
  simp only [nativeDelete]
  split
  · rfl
  · split
    · rfl
    · rename_i id _
      have pins : ((w.setRegistry space ((w.registry space).startDying h)).log (.nativeDelete id h)).pins = w.pins :=
        congrArg (·.2.2.2) (w.custody_setRegistry space _)
      split
      · exact pins
      · rw [Pays, owed_append, owed_notifications]
        exact congrArg (_ :: ·) pins

theorem pays_signal (w : World) (cb : SignalCallback) (object : Handle) (info : EventInfo) :
    w.Pays (w.signal cb object info) := by
  unfold signal
  split
  · rfl
  · split
    · split
      · rfl
      · rfl
      · simp only
        split <;> rfl
    · rfl

theorem pays_invalidate (w : World) (ref : Ref) : w.Pays (w.invalidate ref) := by
  unfold invalidate
  split
  · rfl
  · split
    · rfl
    · rfl
    · split <;> rfl

theorem pays_slot (w : World) (cb : DeleteCallback) (h : Handle) : w.Pays (w.runSlot cb h) := by
  unfold runSlot
  split
  · rfl
  · split <;> rfl

end World

theorem pays_expand (p : Program) (t : Task) (w : World) (ht : t.job.owes = none) :
    w.Pays ((p.expand t w).1, jobs (p.expand t w).2) := by
  by_cases he : ∃ c, t.job = .enter c
  · obtain ⟨level, job⟩ := t
    obtain ⟨c, rfl⟩ := he
    have none : owed (jobs (p.expand ⟨level, .enter c⟩ w).2) = [] := by
      refine owed_eq_nil fun j hj => ?_
      rcases mem_jobs_enter hj with ⟨choose, rfl⟩ | rfl <;> rfl
    rw [World.Pays, none]
    cases level <;> rfl
  · rw [jobs_expand p t w fun c h => he ⟨c, h⟩, p.expand_eq t w fun c h => he ⟨c, h⟩]
    obtain ⟨level, job⟩ := t
    have same {w' : World} (h : w'.custody = w.custody) : w'.pins = w.pins := congrArg (·.2.2.2) h
    cases job with
    | act choose => exact w.pays_perform (choose w)
    | enter c => exact absurd ⟨c, rfl⟩ he
    | slot cb h => exact w.pays_slot cb h
    | nativeDelete space h => exact w.pays_nativeDelete space h
    | invalidate ref => exact w.pays_invalidate ref
    | settle space h id wrapper =>
      cases wrapper with
      | none => exact same (w.custody_reportEnd space h id none)
      | some ref => cases ht
    | signal cb object info => exact w.pays_signal cb object info
    | destroyQueued h =>
      rw [World.Pays]
      refine (same ((World.custody_destroy _ h).trans ?_)).trans (by rw [Job.expand, World.destroyQueued, World.owed_destroy]; rfl)
      split
      · exact w.custody_countFlushed
      · rfl
    | endFlush => exact same w.custody_endFlush
    | releaseHandle ref => exact same (w.custody_releaseHandle ref)
    | unpin a => cases ht
    | leave | answer => rfl

/-- What is pinned is what the call stack owes, in order. -/
theorem Reach.pins_eq {k : Conduct} {c : State} (h : Reach k c) : c.world.pins = owed (jobs c.tasks) := by
  refine h.invariant (I := fun c => c.world.pins = owed (jobs c.tasks)) (fun mode => rfl) (fun w level choose hw => hw)
    fun c c' hc hs => ?_
  obtain ⟨p, w, t, ts, ok⟩ := hs
  change w.pins = owed (t.job :: jobs ts) at hc
  show (p.expand t w).1.pins = owed (jobs ((p.expand t w).2 ++ ts))
  rw [jobs_append, owed_append]
  rcases ho : t.job.owes with _ | a
  · rw [pays_expand p t w ho, hc, owed, owed, owed, List.filterMap_cons_none ho]
  · rw [owed, List.filterMap_cons_some ho] at hc
    have unpinned {u : World} (hu : u.custody = w.custody) : (u.unpin a).pins = owed (jobs ts) := by
      rw [World.pins_unpin, show u.pins = w.pins from congrArg (·.2.2.2) hu, hc, List.erase_cons_head]
      rfl
    obtain ⟨level, job⟩ := t
    cases job with
    | unpin b =>
      cases ho
      exact unpinned rfl
    | settle space h id wrapper =>
      cases wrapper with
      | none => cases ho
      | some ref =>
        cases ho
        exact unpinned (w.custody_reportEnd space h id (some ref))
    | _ => cases ho

/-! ## What is pinned is not freed -/

namespace World

variable {w w' w'' : World}

/-- Pins stay as they are, and what is pinned stays there. -/
structure Keeps (w w' : World) : Prop where
  pins : w'.pins = w.pins
  live : ∀ ref, .wrapper ref ∈ w.pins → w.isLive ref = true → w'.isLive ref = true

theorem Keeps.trans (h : w.Keeps w') (h' : w'.Keeps w'') : w.Keeps w'' :=
  ⟨h'.pins.trans h.pins, fun ref hp hl => h'.live ref (h.pins ▸ hp) (h.live ref hp hl)⟩

theorem Keeps.of_custody (h : w'.custody = w.custody) : w.Keeps w' := by
  simp only [custody, Prod.mk.injEq] at h
  exact ⟨h.2.2.2, fun ref _ hl => h.1 ▸ hl⟩

theorem keeps_release (w : World) (a : Ref) : w.Keeps (w.release a) := by
  refine ⟨w.pins_release a, fun ref hp hl => ?_⟩
  cases hh : w.isHeld a
  · have hne : ref ≠ a := by
      rintro rfl
      have held := (w.isHeld_iff ref).mpr (Or.inr (Or.inr hp))
      rw [hh] at held
      cases held
    have left : { w with wrappers := w.wrappers.erase a }.isLive ref = true := by
      simpa [isLive, Table.contains, hne] using hl
    rcases hx : w.wrappers.get? a with _ | x
    · rw [release_of_gone hx]
      exact hl
    · cases hs : x.space
      · rw [release_item hx hh hs, isLive, wrappers_forget]
        exact left
      · rw [release_probe hx hh hs]
        exact left
  · rw [release_of_held hh]
    exact hl

/-- What a name stood for is let go of. -/
theorem keeps_asideRelease (a : Ref) (hw : w'.wrappers = w.wrappers) (hp : w'.pins = w.pins) : w.Keeps (w'.release a) := by
  have aside : w.Keeps w' := ⟨hp, fun ref _ hl => by rw [isLive, hw]; exact hl⟩
  exact aside.trans (w'.keeps_release a)

theorem keeps_nameItem (w : World) (name : String) (ref : Ref) : w.Keeps (w.nameItem name ref) := by
  simp only [nameItem]
  split
  · exact keeps_asideRelease _ rfl rfl
  · exact ⟨rfl, fun _ _ hl => hl⟩

theorem keeps_nameProbe (w : World) (name : String) (ref : Ref) : w.Keeps (w.nameProbe name ref) := by
  simp only [nameProbe]
  split
  · exact keeps_asideRelease _ rfl rfl
  · exact ⟨rfl, fun _ _ hl => hl⟩

theorem keeps_dropItemName (w : World) (name : String) : w.Keeps (w.dropItemName name) := by
  unfold dropItemName
  split
  · exact keeps_asideRelease _ rfl rfl
  · exact .of_custody rfl

theorem keeps_dropProbeName (w : World) (name : String) : w.Keeps (w.dropProbeName name) := by
  unfold dropProbeName
  split
  · exact keeps_asideRelease _ rfl rfl
  · exact .of_custody rfl

theorem keeps_addWrapper (w : World) (x : Wrapper) : w.Keeps (w.addWrapper x) := by
  refine ⟨rfl, fun ref _ hl => ?_⟩
  simp only [isLive, Table.contains, addWrapper, Table.get?_insert] at hl ⊢
  split
  · rfl
  · exact hl

theorem keeps_withFreshId (w : World) (space : Space) (f : World → ItemId → World)
    (h : ∀ (v : World) id, v.Keeps (f v id)) : w.Keeps (w.withFreshId space f) := by
  unfold withFreshId
  split
  · exact (Keeps.of_custody (w.custody_setRegistry space _)).trans (h _ _)
  · exact .of_custody rfl

theorem keeps_newGrid (w : World) (h : Handle) (data : RowData) (name : Option String) :
    w.Keeps (w.newGrid h data name) := by
  refine w.keeps_withFreshId .items _ fun w' id => ?_
  have bound := (w'.keeps_addWrapper (.fresh id (.grid (some data)))).trans
    (.of_custody ((w'.addWrapper (.fresh id (.grid (some data)))).custody_bind w'.freshRef h))
  simp only
  rcases hb : (w'.addWrapper (.fresh id (.grid (some data)))).bind w'.freshRef h with ⟨w'', _ | e⟩
  · rw [hb] at bound
    cases name with
    | some name => exact (bound.trans (keeps_nameItem _ name _)).trans (.of_custody rfl)
    | none => exact (bound.trans (keeps_release _ _)).trans (.of_custody rfl)
  · rw [hb] at bound
    exact (bound.trans (keeps_release _ _)).trans (.of_custody rfl)

theorem keeps_newProbe (w : World) (name : String) (bare : Bool) (id : Option ItemId) :
    w.Keeps (w.newProbe name bare id) := by
  have added (w : World) (id : ItemId) :
      w.Keeps (((w.addWrapper (.fresh id (.probe name bare))).nameProbe name w.freshRef).answering (.id id)) :=
    ((w.keeps_addWrapper _).trans (keeps_nameProbe _ name _)).trans (.of_custody rfl)
  unfold newProbe
  cases id with
  | some id => exact added w id
  | none => exact w.keeps_withFreshId .bare _ added

theorem keeps_newItem (w : World) (name : String) : w.Keeps (w.newItem name) := by
  refine w.keeps_withFreshId .items _ fun w' id => ?_
  have added := (w'.keeps_addWrapper (.fresh id .plain)).trans (keeps_nameItem _ name w'.freshRef)
  exact added.trans (.of_custody rfl)

theorem isLive_delete (w : World) (a : Ref) : (w.delete a).1.isLive = w.isLive := by
  simp only [delete]
  split
  · rfl
  · exact congrArg Prod.fst (((custody_carryOut _ _).trans (custody_native _ _)).trans (custody_log _ _))

theorem live_perform (w : World) (op : Op) {ref : Ref} (hp : .wrapper ref ∈ w.pins) (hl : w.isLive ref = true) :
    (w.perform op).1.isLive ref = true := by
  by_cases ho : op.MovesHolds
  · cases op with
    | newGrid h data name => exact (w.keeps_newGrid h data name).live ref hp hl
    | newItem name => exact (w.keeps_newItem name).live ref hp hl
    | nameItem name a => exact (w.keeps_nameItem name a).live ref hp hl
    | dropItem name => exact (w.keeps_dropItemName name).live ref hp hl
    | newProbe name bare id => exact (w.keeps_newProbe name bare id).live ref hp hl
    | dropProbe name => exact (w.keeps_dropProbeName name).live ref hp hl
    | nextId space =>
      have kept : w.Keeps (w.withFreshId space fun w id => w.answering (.id id)) :=
        w.keeps_withFreshId space _ fun v id => .of_custody rfl
      exact kept.live ref hp hl
    | delete a =>
      show (w.delete a).1.isLive ref = true
      rw [isLive_delete]
      exact hl
    | nativeDelete space h => exact hl
    | _ => exact ho.elim
  · exact (Keeps.of_custody (w.custody_perform ho)).live ref hp hl

end World

/-- A wrapper that is pinned before and after a step is not freed by it. -/
theorem Turn.keeps_pinned {k : Conduct} {c c' : State} (hs : Turn k c c') {ref : Ref} (hp : .wrapper ref ∈ c.world.pins)
    (hp' : .wrapper ref ∈ c'.world.pins) (hl : c.world.isLive ref = true) : c'.world.isLive ref = true := by
  obtain ⟨p, w, t, ts, ok⟩ := hs
  change .wrapper ref ∈ (p.expand t w).1.pins at hp'
  show (p.expand t w).1.isLive ref = true
  by_cases he : ∃ c, t.job = .enter c
  · obtain ⟨level, job⟩ := t
    obtain ⟨c, rfl⟩ := he
    cases level <;> exact hl
  · rw [p.expand_eq t w fun c h => he ⟨c, h⟩] at hp' ⊢
    obtain ⟨level, job⟩ := t
    have same {w' : World} (h : w'.custody = w.custody) : w'.isLive ref = true :=
      (World.Keeps.of_custody h).live ref hp hl
    have unpinned {u : World} {a : Pin} (hu : u.custody = w.custody) (hp' : .wrapper ref ∈ (u.unpin a).pins) :
        (u.unpin a).isLive ref = true := by
      have here : u.isLive ref = true := same hu
      rw [World.pins_unpin] at hp'
      cases a with
      | wrapper b => exact (World.keeps_release _ b).live ref hp' here
      | _ => exact here
    cases job with
    | act choose => exact w.live_perform (choose w) hp hl
    | enter c => exact absurd ⟨c, rfl⟩ he
    | slot cb h =>
      simp only [Job.expand, World.runSlot]
      split
      · exact hl
      · split <;> exact hl
    | nativeDelete space h =>
      rcases w.nativeDelete_cases space h with hn | ⟨id, hd, hb⟩
      · simp only [Job.expand, World.nativeDelete_ignored hn]
        exact hl
      · obtain ⟨-, -, hw, -⟩ := World.core_eq (World.nativeDelete_found hd hb).1
        simp only [Job.expand]
        rw [World.isLive, hw, World.wrappers_setRegistry]
        exact hl
    | invalidate a => exact same (w.custody_invalidate a)
    | settle space h id wrapper =>
      have hu := w.custody_reportEnd space h id wrapper
      cases wrapper with
      | none => exact same hu
      | some a => exact unpinned hu hp'
    | signal cb object info =>
      simp only [Job.expand, World.signal]
      split
      · exact hl
      · split
        · split
          · exact hl
          · exact hl
          · split <;> exact hl
        · exact hl
    | destroyQueued h =>
      refine same ((World.custody_destroy _ h).trans ?_)
      split
      · exact w.custody_countFlushed
      · rfl
    | endFlush => exact same w.custody_endFlush
    | releaseHandle a => exact same (w.custody_releaseHandle a)
    | unpin a => exact unpinned rfl hp'
    | leave | answer => exact hl

namespace Course

variable {k : Conduct} (c : Course k)

theorem pinned {m : Nat} (hm : m ≤ c.length) {space : Space} {h : Handle} {id : ItemId} {ref : Ref}
    (hs : .settle space h id (some ref) ∈ jobs (c.state m).tasks) : .wrapper ref ∈ (c.state m).world.pins := by
  rw [(c.reach hm).pins_eq]
  exact List.mem_filterMap.mpr ⟨_, hs, rfl⟩

/-- A report that is under way keeps the wrapper that it was made to: it was there when the report
    began, and is there still. -/
theorem kept {m : Nat} (hm : m ≤ c.length) {space : Space} {h : Handle} {id : ItemId} {ref : Ref}
    (hs : .settle space h id (some ref) ∈ jobs (c.state m).tasks) :
    (c.state m).world.isLive ref = true ∧
      ∃ i, i < m ∧ (c.state i).world.lookupId space id = some ref ∧ (c.state i).world.isLive ref = true := by
  obtain ⟨i, him, ⟨⟨js, hj⟩, hd, hb, hl⟩, under⟩ := c.started hm hs
  have there : (c.state i).world.isLive ref = true := by
    simp only [World.lookupId, Registry.lookupId] at hl
    split at hl
    · split at hl
      · rename_i live
        exact Option.some.inj hl ▸ live
      · cases hl
    · cases hl
  refine ⟨?_, i, him, hl, there⟩
  -- the beginning of the report frees nothing, and from then on the wrapper is pinned
  have begun : (c.state (i + 1)).world.isLive ref = true := by
    obtain ⟨p, t, ht, hw, -⟩ := c.turn_of_mem (by omega) hj
    rw [hw, p.expand_eq t _ (by simp [ht]), ht]
    obtain ⟨-, -, same, -⟩ := World.core_eq (World.nativeDelete_found hd hb).1
    show ((c.state i).world.nativeDelete space h).1.isLive ref = true
    rw [World.isLive, same, World.wrappers_setRegistry]
    exact there
  have upto (l : Nat) (hil : i + 1 ≤ l) (hlm : l ≤ m) : (c.state l).world.isLive ref = true := by
    induction hil with
    | refl => exact begun
    | @step l hil ih =>
      have hil : i < l := hil
      have here := under l hil (by omega)
      have next := under (l + 1) (by omega) hlm
      have pinned := c.pinned (by omega) here
      have pinned' := c.pinned (by omega) next
      rcases c.turn_or_call (i := l) (by omega) with ht | ⟨idle, -⟩
      · exact ht.keeps_pinned pinned pinned' (ih (by omega))
      · rw [jobs, idle] at here
        cases here
  exact upto m him (Nat.le_refl m)

end Course

end HandleBridge
