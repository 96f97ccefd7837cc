/-
  HandleBridge.Proofs.Holders — names, pins and entries refer to wrappers that have been made.

  A reference is a serial number, and the next wrapper gets the next one. Names and pins, and the
  entries of the registries, are made of references to wrappers that were there at the time, so none
  of them can stand for the wrapper that comes next.

  - `Reach.made`: whatever is held has been made, so that nothing holds a new wrapper
    (`Reach.freshRef_loose`).
  - `Course.entry_from`: an entry refers to a wrapper with its id that its registry has tracked.
-/
import HandleBridge.Proofs.Pins
import HandleBridge.Proofs.Tracking

namespace HandleBridge

variable {k : Conduct}

namespace Table

variable {κ ν : Type} [DecidableEq κ] {t : Table κ ν} {k k' : κ} {u v : ν}

theorem eq_or_get?_of_insert (h : (t.insert k v).get? k' = some u) : u = v ∨ t.get? k' = some u := by
  rw [get?_insert] at h
  split at h
  · exact Or.inl (Option.some.inj h).symm
  · exact Or.inr h

theorem get?_of_erase (h : (t.erase k).get? k' = some u) : t.get? k' = some u := by
  rw [get?_erase] at h
  split at h
  · cases h
  · exact h

end Table

namespace World

variable {w w' w'' : World}

theorem isNamed_iff (w : World) (ref : Ref) :
    w.isNamed ref = true ↔ (∃ name, w.itemNames.get? name = some ref) ∨ ∃ name, w.probeNames.get? name = some ref := by
  have unpinned := { w with pins := [] }.isHeld_iff ref
  simp only [isHeld, List.contains_nil, Bool.or_false, List.not_mem_nil, or_false] at unpinned
  exact unpinned

/-! ## Names -/

/-- What has a name afterwards had one before, or has been made by then. -/
structure Names (w w' : World) : Prop where
  grows : w.nextRef ≤ w'.nextRef
  named : ∀ ref, w'.isNamed ref = true → w.isNamed ref = true ∨ ref.serial < w'.nextRef

namespace Names

theorem trans (h : w.Names w') (h' : w'.Names w'') : w.Names w'' := by
  refine ⟨Nat.le_trans h.grows h'.grows, fun ref hn => ?_⟩
  rcases h'.named ref hn with hn | hn
  · exact (h.named ref hn).imp_right fun made => Nat.lt_of_lt_of_le made h'.grows
  · exact Or.inr hn

theorem of_tables (hg : w.nextRef ≤ w'.nextRef)
    (hi : ∀ name ref, w'.itemNames.get? name = some ref → ref.serial < w'.nextRef ∨ w.itemNames.get? name = some ref)
    (hp : ∀ name ref, w'.probeNames.get? name = some ref → ref.serial < w'.nextRef ∨ w.probeNames.get? name = some ref) :
    w.Names w' := by
  refine ⟨hg, fun ref hn => ?_⟩
  rw [isNamed_iff] at hn ⊢
  rcases hn with ⟨name, hn⟩ | ⟨name, hn⟩
  · exact (hi name ref hn).symm.imp_left fun hn => Or.inl ⟨name, hn⟩
  · exact (hp name ref hn).symm.imp_left fun hn => Or.inr ⟨name, hn⟩

theorem of_same (hg : w.nextRef ≤ w'.nextRef) (hi : w'.itemNames = w.itemNames) (hp : w'.probeNames = w.probeNames) :
    w.Names w' :=
  of_tables hg (fun _ _ hn => Or.inr (hi ▸ hn)) fun _ _ hn => Or.inr (hp ▸ hn)

theorem refl (w : World) : w.Names w := of_same (Nat.le_refl _) rfl rfl

theorem of_custody (hg : w.nextRef ≤ w'.nextRef) (h : w'.custody = w.custody) : w.Names w' :=
  of_same hg (congrArg (·.2.1) h) (congrArg (·.2.2.1) h)

theorem answering (h : w.Names w') (a : Answer) : w.Names (w'.answering a) := ⟨h.grows, h.named⟩

end Names

theorem nextRef_release (w : World) (ref : Ref) : (w.release ref).nextRef = w.nextRef := by
  unfold release
  split
  · rfl
  · split
    · rfl
    · split
      · exact nextRef_forget _ _ _
      · rfl

theorem nextRef_register (w : World) (ref : Ref) (h : Handle) : (w.register ref h).1.nextRef = w.nextRef := by
  rcases w.register_cases ref h with ⟨-, hc⟩ | ⟨-, hc, -⟩ | ⟨-, -, hc⟩
  · exact (core_eq hc).2.2.2
  · exact (core_eq hc).2.2.2
  · exact (core_eq hc).2.2.2.trans (w.nextRef_attach ref h)

theorem nextRef_bind (w : World) (ref : Ref) (h : Handle) : (w.bind ref h).1.nextRef = w.nextRef := by
  rcases hr : (w.register ref h).2 with _ | e
  · rw [bind_accepted hr]
    exact w.nextRef_register ref h
  · rw [bind_refused hr]
    exact w.nextRef_register ref h

/-- Letting go of a wrapper leaves the names alone. -/
theorem names_release (w : World) (ref : Ref) : w.Names (w.release ref) := by
  have names : (w.release ref).itemNames = w.itemNames ∧ (w.release ref).probeNames = w.probeNames := by
    unfold release
    split
    · exact ⟨rfl, rfl⟩
    · split
      · exact ⟨rfl, rfl⟩
      · split
        · exact ⟨congrArg (·.2.1) (custody_forget _ _ _), congrArg (·.2.2.1) (custody_forget _ _ _)⟩
        · exact ⟨rfl, rfl⟩
  exact .of_same (Nat.le_of_eq (w.nextRef_release ref).symm) names.1 names.2

theorem names_unpin (w : World) (p : Pin) : w.Names (w.unpin p) := by
  have unpinned : w.Names { w with pins := w.pins.erase p } := .of_same (Nat.le_refl _) rfl rfl
  cases p with
  | wrapper ref => exact unpinned.trans (names_release _ ref)
  | registry | sender => exact unpinned

/-- What had the name before is let go of. -/
theorem names_asideRelease (h : w.Names w') (ref : Ref) : w.Names (w'.release ref) := h.trans (w'.names_release ref)

theorem names_nameItem {ref : Ref} (made : ref.serial < w.nextRef) (name : String) : w.Names (w.nameItem name ref) := by
  have named : w.Names { w with itemNames := w.itemNames.insert name ref } :=
    .of_tables (Nat.le_refl _)
      (fun _ a hn => (Table.eq_or_get?_of_insert hn).imp_left fun (e : a = ref) => e ▸ made) fun _ _ hn => Or.inr hn
  simp only [nameItem]
  split
  · exact names_asideRelease named _
  · exact named

theorem names_nameProbe {ref : Ref} (made : ref.serial < w.nextRef) (name : String) : w.Names (w.nameProbe name ref) := by
  have named : w.Names { w with probeNames := w.probeNames.insert name ref } :=
    .of_tables (Nat.le_refl _) (fun _ _ hn => Or.inr hn)
      fun _ a hn => (Table.eq_or_get?_of_insert hn).imp_left fun (e : a = ref) => e ▸ made
  simp only [nameProbe]
  split
  · exact names_asideRelease named _
  · exact named

theorem names_dropItemName (w : World) (name : String) : w.Names (w.dropItemName name) := by
  have dropped : w.Names { w with itemNames := w.itemNames.erase name } :=
    .of_tables (Nat.le_refl _) (fun _ _ hn => Or.inr (Table.get?_of_erase hn)) fun _ _ hn => Or.inr hn
  unfold dropItemName
  split
  · exact names_asideRelease dropped _
  · exact .of_same (Nat.le_refl _) rfl rfl

theorem names_dropProbeName (w : World) (name : String) : w.Names (w.dropProbeName name) := by
  have dropped : w.Names { w with probeNames := w.probeNames.erase name } :=
    .of_tables (Nat.le_refl _) (fun _ _ hn => Or.inr hn) fun _ _ hn => Or.inr (Table.get?_of_erase hn)
  unfold dropProbeName
  split
  · exact names_asideRelease dropped _
  · exact .of_same (Nat.le_refl _) rfl rfl

/-- A new wrapper that is given a name has been made by then. -/
theorem names_addWrapper (w : World) (x : Wrapper) :
    w.Names (w.addWrapper x) ∧ w.freshRef.serial < (w.addWrapper x).nextRef :=
  ⟨.of_same (Nat.le_succ _) rfl rfl, Nat.lt_succ_self _⟩

theorem names_withFreshId (w : World) (space : Space) (f : World → ItemId → World) (h : ∀ (v : World) id, v.Names (f v id)) :
    w.Names (w.withFreshId space f) := by
  unfold withFreshId
  split
  · have counted : ∀ r, w.Names (w.setRegistry space r) := fun r =>
      .of_custody (Nat.le_of_eq (w.nextRef_setRegistry space r).symm) (w.custody_setRegistry space r)
    exact (counted _).trans (h _ _)
  · exact .of_same (Nat.le_refl _) rfl rfl

theorem names_newGrid (w : World) (h : Handle) (data : RowData) (name : Option String) : w.Names (w.newGrid h data name) := by
  refine w.names_withFreshId .items _ fun v id => ?_
  obtain ⟨added, made⟩ := v.names_addWrapper (.fresh id (.grid (some data)))
  generalize v.addWrapper (.fresh id (.grid (some data))) = u at added made ⊢
  have counted := u.nextRef_bind v.freshRef h
  have bound : v.Names (u.bind v.freshRef h).1 := added.trans (.of_custody (Nat.le_of_eq counted.symm) (u.custody_bind _ h))
  simp only
  rcases hb : u.bind v.freshRef h with ⟨u', _ | e⟩
  · rw [hb] at bound counted
    cases name with
    | some name => exact (bound.trans (names_nameItem (Nat.lt_of_lt_of_eq made counted.symm) name)).answering _
    | none => exact (names_asideRelease bound v.freshRef).answering _
  · rw [hb] at bound
    exact (names_asideRelease bound v.freshRef).answering _

theorem names_newItem (w : World) (name : String) : w.Names (w.newItem name) := by
  refine w.names_withFreshId .items _ fun v id => ?_
  obtain ⟨added, made⟩ := v.names_addWrapper (.fresh id .plain)
  exact (added.trans (names_nameItem made name)).answering _

theorem names_newProbe (w : World) (name : String) (bare : Bool) (id : Option ItemId) : w.Names (w.newProbe name bare id) := by
  have added (v : World) (id : ItemId) :
      v.Names (((v.addWrapper (.fresh id (.probe name bare))).nameProbe name v.freshRef).answering (.id id)) := by
    obtain ⟨added, made⟩ := v.names_addWrapper (.fresh id (.probe name bare))
    exact (added.trans (names_nameProbe made name)).answering _
  unfold newProbe
  cases id with
  | some id => exact added w id
  | none => exact w.names_withFreshId .bare _ added

/-- An operation that names what is there gives names to nothing else. -/
theorem names_perform (ho : w.Ordered) {op : Op} (typed : op.Typed w) (hg : w.nextRef ≤ (w.perform op).1.nextRef) :
    w.Names (w.perform op).1 := by
  by_cases hm : op.MovesHolds
  · cases op with
    | newGrid h data name => exact w.names_newGrid h data name
    | newItem name => exact w.names_newItem name
    | nameItem name ref =>
      obtain ⟨x, hx, -⟩ := typed
      exact (names_nameItem (ho.refBelow ref x hx) name).answering _
    | dropItem name => exact (w.names_dropItemName name).answering _
    | newProbe name bare id => exact w.names_newProbe name bare id
    | dropProbe name => exact (w.names_dropProbeName name).answering _
    | nextId space =>
      exact w.names_withFreshId space (fun v id => v.answering (.id id)) fun v id => .of_same (Nat.le_refl _) rfl rfl
    | delete ref =>
      have names : (w.delete ref).1.itemNames = w.itemNames ∧ (w.delete ref).1.probeNames = w.probeNames := by
        simp only [delete]
        split
        · exact ⟨rfl, rfl⟩
        · exact ⟨congrArg (·.2.1) (((custody_carryOut _ _).trans (custody_native _ _)).trans (custody_log _ _)),
            congrArg (·.2.2.1) (((custody_carryOut _ _).trans (custody_native _ _)).trans (custody_log _ _))⟩
      exact .of_same hg names.1 names.2
    | nativeDelete space h => exact .of_same (Nat.le_refl _) rfl rfl
    | _ => exact hm.elim
  · exact .of_custody hg (w.custody_perform hm)

theorem names_runSlot (w : World) (cb : DeleteCallback) (h : Handle) : w.Names (w.runSlot cb h).1 := by
  unfold runSlot
  split
  · exact .refl w
  · split <;> exact .of_same (Nat.le_refl _) rfl rfl

theorem names_nativeDelete (w : World) (space : Space) (h : Handle) : w.Names (w.nativeDelete space h).1 := by
  have told (r : Registry) : w.Names (w.setRegistry space r) :=
    .of_custody (Nat.le_of_eq (w.nextRef_setRegistry space r).symm) (w.custody_setRegistry space r)
  simp only [nativeDelete]
  split
  · exact .of_same (Nat.le_refl _) rfl rfl
  · split
    · exact .of_same (Nat.le_refl _) rfl rfl
    · split
      · exact ⟨(told _).grows, (told _).named⟩
      · exact ⟨(told _).grows, (told _).named⟩

theorem names_settle (w : World) (space : Space) (h : Handle) (id : ItemId) (wrapper : Option Ref) :
    w.Names (w.settle space h id wrapper) := by
  have ended : w.Names (w.reportEnd space h id wrapper) := by
    have counted := (core_eq (w.core_reportEnd space h id wrapper)).2.2.2
    exact .of_custody (Nat.le_trans (w.passes_settled space h id wrapper).nextRef (Nat.le_of_eq counted.symm))
      (w.custody_reportEnd space h id wrapper)
  rw [settle_eq]
  split
  · exact ended.trans (names_unpin _ _)
  · exact ended

theorem names_signal (w : World) (cb : SignalCallback) (object : Handle) (info : EventInfo) :
    w.Names (w.signal cb object info).1 := by
  unfold signal
  split
  · exact .refl w
  · split
    · split
      · exact .of_same (Nat.le_refl _) rfl rfl
      · exact .of_same (Nat.le_refl _) rfl rfl
      · dsimp only
        split <;> exact .of_same (Nat.le_refl _) rfl rfl
    · exact .of_same (Nat.le_refl _) rfl rfl

end World

/-! ## Pins -/

namespace World

variable {w : World} {ref : Ref}

theorem live_of_lookupId {space : Space} {id : ItemId} (h : w.lookupId space id = some ref) : w.isLive ref = true := by
  simp only [lookupId, Registry.lookupId] at h
  split at h
  · split at h
    · rename_i live
      exact Option.some.inj h ▸ live
    · cases h
  · cases h

theorem live_of_lookupHandle {space : Space} {h : Handle} (hl : w.lookupHandle space h = some ref) : w.isLive ref = true := by
  simp only [lookupHandle, Registry.lookupHandle] at hl
  split at hl
  · exact live_of_lookupId hl
  · cases hl

theorem live_of_owed_perform {op : Op} (typed : op.Typed w) (hp : .wrapper ref ∈ owed (w.perform op).2) : w.isLive ref = true := by
  by_cases hm : op.MovesHolds
  · cases op with
    | delete a =>
      simp only [perform, delete] at hp
      split at hp
      · cases hp
      · rw [owed_append, owed_carryOut] at hp
        simp only [owed, Job.owes, List.filterMap_cons, List.filterMap_nil, List.nil_append, List.mem_cons, Pin.wrapper.injEq,
          reduceCtorEq, List.not_mem_nil, or_false] at hp
        exact hp ▸ typed.1
    | nativeDelete space h => simp [perform, owed, Job.owes] at hp
    | _ => first | exact hm.elim | cases hp
  · rw [owed_perform w hm] at hp
    cases hp

/-- A report pins the wrapper that it found. -/
theorem live_of_owed_nativeDelete {space : Space} {h : Handle} (hp : .wrapper ref ∈ owed (w.nativeDelete space h).2) :
    w.isLive ref = true := by
  rcases w.nativeDelete_cases space h with hn | ⟨id, hd, hb⟩
  · rw [nativeDelete_ignored hn] at hp
    cases hp
  · obtain ⟨j, hj, owes⟩ := List.mem_filterMap.mp hp
    rw [(nativeDelete_found hd hb).2, List.mem_append] at hj
    rcases hj with hj | hj
    · rcases mem_wrapperCode hj with ⟨c, rfl⟩ | ⟨a, rfl⟩ <;> cases owes
    · cases List.mem_singleton.mp hj
      rcases hl : w.lookupId space id with _ | a
      · rw [hl] at owes
        cases owes
      · rw [hl] at owes
        cases owes
        exact live_of_lookupId hl

/-- A signal pins the item that its handler is given. -/
theorem live_of_owed_signal {cb : SignalCallback} {object : Handle} {info : EventInfo}
    (hp : .wrapper ref ∈ owed (w.signal cb object info).2) : w.isLive ref = true := by
  simp only [signal] at hp
  split at hp
  · cases hp
  · split at hp
    · split at hp
      · simp [owed, Job.owes] at hp
      · simp [owed, Job.owes] at hp
      · split at hp
        · rename_i found
          split at found
          · simp only [owed, Job.owes, List.filterMap_cons, List.filterMap_nil, List.mem_cons, Pin.wrapper.injEq,
              reduceCtorEq, List.not_mem_nil, or_false] at hp
            subst hp
            exact live_of_lookupHandle (w := w.pin _) found
          · cases found
        · simp [owed, Job.owes] at hp
    · cases hp

theorem not_owed_runSlot (w : World) (cb : DeleteCallback) (h : Handle) : .wrapper ref ∉ owed (w.runSlot cb h).2 := by
  unfold runSlot
  split
  · exact List.not_mem_nil
  · split <;> simp [owed, Job.owes]

theorem not_owed_invalidate (w : World) (a : Ref) : .wrapper ref ∉ owed (w.invalidate a).2 := by
  unfold invalidate
  split
  · exact List.not_mem_nil
  · split
    · exact List.not_mem_nil
    · exact List.not_mem_nil
    · split <;> simp [owed, Job.owes]

end World

/-- What a task pins is there. -/
theorem live_of_owed {p : Program} {t : Task} {w : World} (typed : ∀ choose, t.job = .act choose → (choose w).Typed w) {ref : Ref}
    (hp : .wrapper ref ∈ owed (jobs (p.expand t w).2)) : w.isLive ref = true := by
  by_cases he : ∃ c, t.job = .enter c
  · obtain ⟨level, job⟩ := t
    obtain ⟨c, rfl⟩ := he
    obtain ⟨j, hj, owes⟩ := List.mem_filterMap.mp hp
    rcases mem_jobs_enter hj with ⟨choose, rfl⟩ | rfl <;> cases owes
  · rw [jobs_expand p t w fun c h => he ⟨c, h⟩] at hp
    obtain ⟨level, job⟩ := t
    cases job with
    | act choose => exact World.live_of_owed_perform (typed choose rfl) hp
    | enter c => exact absurd ⟨c, rfl⟩ he
    | slot cb h => exact absurd hp (w.not_owed_runSlot cb h)
    | nativeDelete space h => exact World.live_of_owed_nativeDelete hp
    | signal cb object info => exact World.live_of_owed_signal hp
    | invalidate a => exact absurd hp (w.not_owed_invalidate a)
    | destroyQueued h =>
      simp only [Job.expand, World.destroyQueued, World.owed_destroy] at hp
      cases hp
    | _ => cases hp

theorem Turn.names {c c' : State} (hs : Turn k c c') (ho : c.world.Ordered) (ht : c.world.Tracked) :
    c.world.Names c'.world := by
  have grows := (since_turn ho ht hs).ages.nextRef
  obtain ⟨p, w, t, ts, ok⟩ := hs
  change w.nextRef ≤ (p.expand t w).1.nextRef at grows
  show w.Names (p.expand t w).1
  by_cases he : ∃ c, t.job = .enter c
  · obtain ⟨level, job⟩ := t
    obtain ⟨c, rfl⟩ := he
    cases level <;> exact .of_same (Nat.le_refl _) rfl rfl
  · rw [p.expand_eq t w fun c h => he ⟨c, h⟩] at grows ⊢
    obtain ⟨level, job⟩ := t
    have same {w' : World} (hg : w.nextRef ≤ w'.nextRef) (h : w'.custody = w.custody) : w.Names w' := .of_custody hg h
    cases job with
    | act choose => exact World.names_perform ho (ok choose rfl).1 grows
    | enter c => exact absurd ⟨c, rfl⟩ he
    | slot cb h => exact w.names_runSlot cb h
    | nativeDelete space h => exact w.names_nativeDelete space h
    | invalidate a => exact same grows (w.custody_invalidate a)
    | settle space h id wrapper => exact w.names_settle space h id wrapper
    | signal cb object info => exact w.names_signal cb object info
    | destroyQueued h =>
      refine same grows ((World.custody_destroy _ h).trans ?_)
      split
      · exact w.custody_countFlushed
      · rfl
    | endFlush => exact same grows w.custody_endFlush
    | releaseHandle a => exact same grows (w.custody_releaseHandle a)
    | unpin a => exact w.names_unpin a
    | leave | answer => exact .of_same (Nat.le_refl _) rfl rfl

/-- Whatever is held has been made. -/
theorem Reach.made {c : State} (h : Reach k c) {ref : Ref} (hh : c.world.isHeld ref = true) : ref.serial < c.world.nextRef := by
  induction h generalizing ref with
  | start mode => cases hh
  | call level choose _ ih => exact ih hh
  | @step c c' hr hs ih =>
    have names := hs.names hr.ordered hr.tracked
    rw [World.isHeld, Bool.or_eq_true, List.contains_iff_mem] at hh
    rcases hh with hn | hp
    · rcases names.named ref hn with before | made
      · exact Nat.lt_of_lt_of_le (ih (by rw [World.isHeld, before, Bool.true_or])) names.grows
      · exact made
    · refine Nat.lt_of_lt_of_le ?_ names.grows
      rw [(hr.step hs).pins_eq] at hp
      obtain ⟨p, w, t, ts, ok⟩ := hs
      rw [jobs_append, owed_append, List.mem_append] at hp
      rcases hp with hp | hp
      · obtain ⟨x, hx⟩ := (w.isLive_iff ref).mp (live_of_owed (fun choose e => (ok choose e).1) hp)
        exact hr.ordered.refBelow ref x hx
      · refine ih ((w.isHeld_iff ref).mpr (Or.inr (Or.inr ?_)))
        have owed_pins : w.pins = owed (jobs (t :: ts)) := hr.pins_eq
        rw [owed_pins, jobs_cons, owed, List.filterMap_cons]
        split
        · exact hp
        · exact List.mem_cons_of_mem _ hp

theorem Reach.freshRef_loose {c : State} (h : Reach k c) : c.world.isHeld c.world.freshRef = false :=
  Bool.eq_false_iff.mpr fun hh => Nat.lt_irrefl _ (h.made hh)

/-! ## Entries -/

namespace World

/-- An entry after asking for a handle was there before, or is the wrapper's that asked. -/
theorem entry_register {w : World} (ho : w.Ordered) {ref : Ref} {h : Handle} {space : Space} {id : ItemId} {e : Entry}
    (he : ((w.register ref h).1.registry space).byId.get? id = some e) :
    (w.registry space).byId.get? id = some e ∨ space = w.spaceOf ref ∧ id = w.idOf ref ∧ e.wrapper = ref := by
  rcases w.register_cases ref h with ⟨-, hc⟩ | ⟨-, hc, -⟩ | ⟨-, can, hc⟩
  · rw [(core_eq hc).2.1] at he
    exact Or.inl he
  · rw [(core_eq hc).2.1] at he
    exact Or.inl he
  · rw [(core_eq hc).2.1] at he
    rcases entry_attach ho can he with ⟨hs, hi, rfl⟩ | he
    · exact Or.inr ⟨hs, hi, rfl⟩
    · exact Or.inl he

theorem registry_ofResult (r : World × Option BindError) (space : Space) : (ofResult r).registry space = r.1.registry space := by
  rcases r with ⟨w, _ | e⟩ <;> cases space <;> rfl

theorem registry_bind (w : World) (ref : Ref) (h : Handle) (space : Space) :
    (w.bind ref h).1.registry space = (w.register ref h).1.registry space := by
  rcases hr : (w.register ref h).2 with _ | e
  · rw [bind_accepted hr]
    cases space <;> rfl
  · rw [bind_refused hr]

end World

/-- Nothing is bound in the bare registry, and no item but a new one. -/
def Conduct.unbinding : Conduct := { Conduct.free with registers := fun _ => False, binds := (· = .items) }

/-- The operation that asks for a handle, and the wrapper that it asks for. -/
def Op.binds? : Op → Option Ref
  | .register ref _ | .bind ref _ => some ref
  | _ => none

theorem Conduct.permits_unbinding {w : World} {op : Op} (h : op.binds? = none) : Conduct.unbinding.Permits w op := by
  cases op with
  | register | bind => cases h
  | newGrid a data name => exact ⟨rfl, trivial⟩
  | native c => cases c <;> trivial
  | createItem | createObject => exact Or.inl trivial
  | _ => trivial

namespace Registry

variable {r : Registry} {i : ItemId} {e : Entry}

theorem entry_of_forget {id : ItemId} (he : (r.forget id).byId.get? i = some e) : r.byId.get? i = some e := by
  rw [byId_forget] at he
  split at he
  · cases he
  · exact he

theorem entry_of_endDying {h : Handle} {id : ItemId} (he : (r.endDying h id).byId.get? i = some e) : r.byId.get? i = some e := by
  rw [byId_endDying] at he
  split at he
  · cases he
  · exact he

end Registry

/-- A registry in which another has been put has no entries but those of that one. -/
theorem World.entry_of_put {w : World} {space space' : Space} {r : Registry} {i : ItemId} {e : Entry}
    (he : (if space' = space then r else w.registry space').byId.get? i = some e)
    (fewer : r.byId.get? i = some e → (w.registry space).byId.get? i = some e) :
    (w.registry space').byId.get? i = some e := by
  split at he
  · rename_i same
    exact same ▸ fewer he
  · exact he

/-- Bare entries come from nothing else. -/
theorem Turn.keeps_bare {c c' : State} (hs : Turn .unbinding c c') {j : ItemId} {e : Entry}
    (he : (c'.world.registry .bare).byId.get? j = some e) : (c.world.registry .bare).byId.get? j = some e := by
  refine hs.keeps (I := fun v => ∀ i e, (v.registry .bare).byId.get? i = some e →
    (c.world.registry .bare).byId.get? i = some e) (fun v v' hv hm i e he => hv i e ?_) (fun v h t slot hv _ => hv)
    (fun v space h hv i e he => hv i e ?_) (fun level space h a wrapper ts _ hv i e he => hv i e ?_) (fun _ _ he => he) j e he
  · cases hm with
    | aside hc => rwa [(World.core_eq hc).2.1] at he
    | allocate space a r ha =>
      obtain ⟨rfl, rfl⟩ := Registry.allocate_eq ha
      rw [World.registry_setRegistry] at he
      exact World.entry_of_put he id
    | create space a r kind ha _ =>
      obtain ⟨rfl, rfl⟩ := Registry.allocate_eq ha
      change ((v.setRegistry _ _).registry .bare).byId.get? i = _ at he
      rw [World.registry_setRegistry] at he
      exact World.entry_of_put he id
    | free ref x hx hh =>
      cases hsp : x.space
      · rw [World.release_item hx hh hsp, World.registry_forget, if_neg (by simp)] at he
        exact he
      · rw [World.release_probe hx hh hsp] at he
        exact he
    | attach ref h _ hk _ => exact hk.elim
    | rebind ref h _ hk _ _ =>
      change ((v.attach ref h).registry .bare).byId.get? i = _ at he
      have items : v.spaceOf ref = .items := hk
      rwa [World.registry_attach, if_neg (by simp [items])] at he
    | forget space a _ =>
      rw [World.registry_forget] at he
      exact World.entry_of_put he Registry.entry_of_forget
    | _ => exact he
  · rw [World.registry_setRegistry] at he
    exact World.entry_of_put he id
  · rw [World.registry_settled] at he
    exact World.entry_of_put he Registry.entry_of_endDying

/-- A bare entry was there before, or is the wrapper's whose operation asks for a handle. -/
theorem Turn.bare_entry {c c' : State} (hs : Turn .free c c') (ho : c.world.Ordered) {id : ItemId} {e : Entry}
    (he : (c'.world.registry .bare).byId.get? id = some e) :
    (c.world.registry .bare).byId.get? id = some e ∨
      ∃ x, c.world.wrappers.get? e.wrapper = some x ∧ x.id = id ∧ x.space = .bare := by
  obtain ⟨p, w, t, ts, ok⟩ := hs
  have asked {ref : Ref} {h : Handle} (tracked : w.HasTracked ref)
      (he : ((w.register ref h).1.registry .bare).byId.get? id = some e) :
      (w.registry .bare).byId.get? id = some e ∨ ∃ x, w.wrappers.get? e.wrapper = some x ∧ x.id = id ∧ x.space = .bare := by
    obtain ⟨x, hx⟩ := (w.isLive_iff ref).mp tracked.1
    refine (World.entry_register ho he).imp_right ?_
    rintro ⟨hs, hi, rfl⟩
    exact ⟨x, hx, (hi.trans (World.idOf_eq hx)).symm, (hs.trans (World.spaceOf_eq hx)).symm⟩
  by_cases hb : ∃ choose ref, t.job = .act choose ∧ (choose w).binds? = some ref
  · obtain ⟨level, job⟩ := t
    obtain ⟨choose, ref, rfl, hb⟩ := hb
    have typed := (ok choose rfl).1
    change ((w.perform (choose w)).1.registry .bare).byId.get? id = some e at he
    generalize choose w = op at hb typed he
    cases op with
    | register a h =>
      simp only [World.perform, World.registry_ofResult] at he
      exact asked typed he
    | bind a h =>
      simp only [World.perform, World.registry_ofResult, World.registry_bind] at he
      exact asked typed he
    | _ => cases hb
  · have turn : Turn .unbinding ⟨w, t :: ts⟩ ⟨(p.expand t w).1, (p.expand t w).2 ++ ts⟩ :=
      .mk p w t ts fun choose e => ⟨(ok choose e).1, Conduct.permits_unbinding (Option.eq_none_iff_forall_ne_some.mpr
        fun ref hr => hb ⟨choose, ref, e, hr⟩)⟩
    exact Or.inl (turn.keeps_bare he)

namespace Course

/-- An entry refers to a wrapper that has had its id and that its registry tracks. -/
theorem entry_from (c : Course .free) {n : Nat} (hn : n ≤ c.length) {space : Space} {id : ItemId} {e : Entry}
    (he : ((c.state n).world.registry space).byId.get? id = some e) :
    ∃ m ≤ n, ∃ x, (c.state m).world.wrappers.get? e.wrapper = some x ∧ x.id = id ∧ x.space = space := by
  cases space with
  | items =>
    have reached := c.reach hn
    obtain ⟨x, hx⟩ := ((c.state n).world.isLive_iff _).mp (reached.tracked.live id e he)
    exact ⟨n, Nat.le_refl n, x, hx, reached.ordered.entryOwn .items id e x he hx⟩
  | bare =>
    induction n with
    | zero =>
      obtain ⟨mode, start⟩ := c.start
      rw [start] at he
      cases he
    | succ n ih =>
      have before (he : ((c.state n).world.registry .bare).byId.get? id = some e) :
          ∃ m ≤ n + 1, ∃ x, (c.state m).world.wrappers.get? e.wrapper = some x ∧ x.id = id ∧ x.space = .bare := by
        obtain ⟨m, hm, found⟩ := ih (Nat.le_of_lt hn) he
        exact ⟨m, Nat.le_succ_of_le hm, found⟩
      rcases c.turn_or_call hn with ht | ⟨-, same⟩
      · rcases ht.bare_entry (c.reach (Nat.le_of_lt hn)).ordered he with he | found
        · exact before he
        · exact ⟨n, Nat.le_succ n, found⟩
      · rw [same] at he
        exact before he

end Course

end HandleBridge
