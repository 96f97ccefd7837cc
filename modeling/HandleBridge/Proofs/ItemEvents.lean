/-
  HandleBridge.Proofs.ItemEvents — what a handler is given for the item that a signal names.

  A fire takes its callbacks once, when it is called; what the handle in its payload leads to is
  asked for each of them anew, when its turn comes. Handlers that are called before can take the
  handle from an item (`Ousts`) or give it to one (`Gives`), and the registry can go. Turn by turn:
  - `Reach.leads_turn`: the handle leads to no item that it did not lead to before, unless that is
    new or the turn gives it the handle;
  - `Reach.ousted_turn`: it does not lead to an item that it has just been taken from;
  - `Reach.entry_turn`: it goes on leading to an item as long as nothing takes that back.
  From these follows what holds between any two turns of a run (`Runs.lost`, `Runs.kept`), and so
  - `item_events_resolve_freshly`: what an item handler is given is up to date (`Fresh`) with all
    that has been done since the fire began.
-/
import HandleBridge.Proofs.RegistryLife
import HandleBridge.Proofs.SignalDelivery
import HandleBridge.Proofs.StaleUse

namespace HandleBridge

variable {k : Conduct}

/-! ## What a handle leads to -/

namespace World

variable {w : World} {ref : Ref} {a : Handle}

/-- What the item registry gives for a handle: nothing, where it is gone. -/
def resolve (w : World) (h : Handle) : Option Ref := if w.isThere .items then w.lookupHandle .items h else none

/-- An item and its entry lead back to it. -/
theorem leads_of_entry (ho : w.Ordered) {x : Wrapper} (hx : w.IsItem ref x) (hn : a ≠ .null)
    (he : (w.registry .items).byId.get? x.id = some ⟨ref, a⟩) : w.lookupHandle .items a = some ref := by
  have mapped : (w.registry .items).byHandle.get? a = some x.id :=
    ((ho.coherent .items).mapped_iff a x.id).mpr ⟨hn, _, he, rfl⟩
  have live : w.isLive ref = true := (w.isLive_iff ref).mpr ⟨x, hx.1⟩
  simp only [lookupHandle, Registry.lookupHandle, mapped, Registry.lookupId, he, live, if_true]

/-- What a handle leads to is an item, and has the entry that holds the handle. -/
theorem entry_of_leads (ho : w.Ordered) (ht : w.Tracked) (hl : w.lookupHandle .items a = some ref) :
    a ≠ .null ∧ ∃ x, w.IsItem ref x ∧ (w.registry .items).byHandle.get? a = some x.id ∧
      (w.registry .items).byId.get? x.id = some ⟨ref, a⟩ := by
  obtain ⟨x, hx, hb, hid⟩ := found_item ho ht hl
  obtain ⟨hn, ⟨ref', a'⟩, he, rfl⟩ := ((ho.coherent .items).mapped_iff a x.id).mp hb
  obtain ⟨e, he', rfl⟩ := ht.lookupId_iff.mp hid
  obtain rfl := Option.some.inj (he.symm.trans he')
  exact ⟨hn, x, hx, hb, he⟩

theorem resolve_eq_some (ho : w.Ordered) (ht : w.Tracked) : w.resolve a = some ref ↔ w.lookupHandle .items a = some ref := by
  unfold resolve
  split
  · exact Iff.rfl
  · rename_i gone
    refine ⟨nofun, fun hl => ?_⟩
    obtain ⟨-, x, hx, -⟩ := entry_of_leads ho ht hl
    exact absurd (isThere_of_item hx) gone

theorem Retains.agrees {w' : World} (h : w.Retains w') (agrees : w.Agrees ref) : w'.Agrees ref := by
  intro y e hy he
  rcases h ref y e hy he with now | ⟨x, hx, hh, hxe⟩
  · exact now
  · exact hh ▸ agrees x e hx hxe

end World

/-! ## Turn by turn -/

/-- The item is bound to `a` or registered for it, and the registry does not refuse. -/
def Gives (v : Task × World) (ref : Ref) (a : Handle) : Prop :=
  Performs v (.bind ref a) ∧ (v.2.register ref a).2 = none ∨ Performs v (.register ref a) ∧ (v.2.register ref a).2 = none

section Turns

variable {w : World} {t : Task} {ts : List Task} {ref : Ref} {a : Handle} {x : Wrapper}

/-- The entry of an item that is bound or registered. -/
theorem entry_of_gives (ho : w.Ordered) (ht : w.Tracked) (hx : w.IsItem ref x) (given : Gives (t, w) ref a) (p : Program) :
    ((p.expand t w).1.registry .items).byId.get? x.id = some ⟨ref, a⟩ := by
  have entry (accepted : (w.register ref a).2 = none) : ((w.bind ref a).1.registry .items).byId.get? x.id = some ⟨ref, a⟩ :=
    (World.holds_bind ho ht hx accepted).entry
  obtain ⟨level, job⟩ := t
  rcases given with ⟨⟨choose, rfl, op⟩, accepted⟩ | ⟨⟨choose, rfl, op⟩, accepted⟩
  all_goals
    change ((w.perform (choose w)).1.registry .items).byId.get? x.id = _
    rw [show choose w = _ from op, World.perform, World.registry_ofResult]
  · exact entry accepted
  · rw [← World.registry_bind]
    exact entry accepted

/-- A turn that does not take back the item's entry leaves it, as long as the item is there. -/
theorem Reach.entry_turn (hr : Reach k ⟨w, t :: ts⟩) (ok : ∀ choose, t.job = .act choose → k.Allows w (choose w))
    (hx : w.IsItem ref x) (he : (w.registry .items).byId.get? x.id = some ⟨ref, a⟩)
    (lasts : ¬ TakesBack (t, w) ref x.id a) {p : Program} {y : Wrapper} (hy : (p.expand t w).1.IsItem ref y) :
    ((p.expand t w).1.registry .items).byId.get? x.id = some ⟨ref, a⟩ := by
  by_cases released : t.job = .releaseHandle ref
  · obtain ⟨level, job⟩ := t
    obtain rfl : job = .releaseHandle ref := released
    show ((w.releaseHandle ref).registry .items).byId.get? x.id = _
    rw [w.registry_releaseHandle]
    exact he
  · have spared : ¬ t.job.Unsettles w ref x.id := by
      intro hu
      refine lasts (takesBack_of_undoes (v := (t, w)) ?_ released)
      obtain ⟨level, job⟩ := t
      cases job with
      | settle space h i wrapper =>
        obtain ⟨hs, hi, away⟩ := hu
        refine ⟨hs, ?_, hi⟩
        simp only [Registry.isElsewhere, he, decide_eq_false_iff_not, not_not] at away
        exact away.symm
      | _ => exact hu
    obtain ⟨x', hx', hi, -, same⟩ :=
      (hr.spares (a := .null) hx (fun choose hj => (ok choose hj).1) spared (Or.inl rfl) p).item y hy
    obtain rfl := hx.unique hx'
    rw [hi, same, ← hi]
    exact he

theorem Reach.older_turn (hr : Reach k ⟨w, t :: ts⟩) (ok : ∀ choose, t.job = .act choose → k.Allows w (choose w))
    (old : ref.serial < w.nextRef) (p : Program) : ref.serial < (p.expand t w).1.nextRef :=
  Nat.lt_of_lt_of_le old (since_turn hr.ordered hr.tracked (.mk p w t ts ok)).ages.nextRef

/-- An item that is there after a turn, and is not new, was there before. -/
theorem Reach.item_before (hr : Reach k ⟨w, t :: ts⟩) (ok : ∀ choose, t.job = .act choose → k.Allows w (choose w))
    (old : ref.serial < w.nextRef) {p : Program} {y : Wrapper} (hy : (p.expand t w).1.IsItem ref y) :
    ∃ x, w.IsItem ref x ∧ x.id = y.id := by
  have since := since_turn hr.ordered hr.tracked (.mk p w t ts ok)
  rcases since.ages.wrappers ref y hy.1 with ⟨x, hx, hi, hs⟩ | ⟨new, -⟩
  · exact ⟨x, ⟨hx, hs.trans hy.2⟩, hi⟩
  · exact absurd old (Nat.not_lt_of_le new)

/-- What a handle leads to after a turn it led to before, unless the turn has given it to that item. -/
theorem Reach.leads_turn (hr : Reach k ⟨w, t :: ts⟩) (ok : ∀ choose, t.job = .act choose → k.Allows w (choose w))
    (old : ref.serial < w.nextRef) {p : Program} (leads : (p.expand t w).1.lookupHandle .items a = some ref) :
    w.lookupHandle .items a = some ref ∨ Gives (t, w) ref a := by
  have since := since_turn hr.ordered hr.tracked (.mk p w t ts ok)
  obtain ⟨hn, y, hy, -, he⟩ := World.entry_of_leads since.ordered since.tracked leads
  obtain ⟨x, hx, hi⟩ := hr.item_before ok old hy
  rw [← hi] at he
  have before (same : (w.registry .items).byId.get? x.id = some ⟨ref, a⟩) : w.lookupHandle .items a = some ref :=
    World.leads_of_entry hr.ordered hx hn same
  by_cases hu : t.job.Unsettles w ref x.id
  · obtain ⟨level, job⟩ := t
    cases job with
    | act choose =>
      change (choose w).Unsettles w ref x.id at hu
      generalize ho : choose w = op at hu
      -- the handle that the item is given is the one that its entry holds then
      have given {b : Handle} (hg : Gives (⟨level, .act choose⟩, w) ref b) : b = a := by
        have entry := entry_of_gives hr.ordered hr.tracked hx hg p
        rw [he] at entry
        cases entry
        rfl
      cases op with
      | bind c b =>
        obtain ⟨rfl, accepted⟩ := hu
        have bound : Gives (⟨level, .act choose⟩, w) c b := Or.inl ⟨⟨choose, rfl, ho⟩, accepted⟩
        exact Or.inr (given bound ▸ bound)
      | register c b =>
        obtain ⟨rfl, accepted⟩ := hu
        have registered : Gives (⟨level, .act choose⟩, w) c b := Or.inr ⟨⟨choose, rfl, ho⟩, accepted⟩
        exact Or.inr (given registered ▸ registered)
      | forget space i =>
        obtain ⟨rfl, rfl⟩ := hu
        change ((w.perform (choose w)).1.registry .items).byId.get? x.id = _ at he
        rw [ho] at he
        change ((w.forget .items x.id).registry .items).byId.get? x.id = _ at he
        rw [World.registry_forget, if_pos rfl, Registry.byId_forget, if_pos rfl] at he
        cases he
      | _ => exact hu.elim
    | settle space h i wrapper =>
      obtain ⟨rfl, rfl, away⟩ := hu
      have unbound := w.unbound_settle away wrapper
      change ((w.settle .items h x.id wrapper).registry .items).byId.get? x.id = _ at he
      rw [Registry.boundTo, he] at unbound
      cases unbound
    | releaseHandle b =>
      change ((w.releaseHandle b).registry .items).byId.get? x.id = _ at he
      rw [w.registry_releaseHandle] at he
      exact Or.inl (before he)
    | _ => exact hu.elim
  · obtain ⟨x', hx', hi', -, same⟩ :=
      (hr.spares (a := .null) hx (fun choose hj => (ok choose hj).1) hu (Or.inl rfl) p).item y hy
    obtain rfl := hx.unique hx'
    rw [← hi', he] at same
    exact Or.inl (before same.symm)

/-- The handle is taken from the item: the report of its deletion to the item ends; the item is not
    there; it is bound to another handle, or to none; or another item is bound to the handle. -/
inductive Ousts (ref : Ref) (a : Handle) (v : Task × World) : Prop
  | tornDown (id : ItemId) : v.1.job = .settle .items a id (some ref) → Ousts ref a v
  | dropped : v.2.isLive ref = false → Ousts ref a v
  | movedOff (b : Handle) : b ≠ a → Binds v ref b → Ousts ref a v
  | takenOver (other : Ref) : other ≠ ref → v.2.HasItem other → Binds v other a → Ousts ref a v

theorem Reach.ousted_turn (hr : Reach k ⟨w, t :: ts⟩) (ok : ∀ choose, t.job = .act choose → k.Allows w (choose w))
    (old : ref.serial < w.nextRef) (ousts : Ousts ref a (t, w)) (p : Program) :
    (p.expand t w).1.lookupHandle .items a ≠ some ref := by
  intro leads
  have since := since_turn hr.ordered hr.tracked (.mk p w t ts ok)
  obtain ⟨hn, y, hy, hb, he⟩ := World.entry_of_leads since.ordered since.tracked leads
  obtain ⟨x, hx, hi⟩ := hr.item_before ok old hy
  cases ousts with
  | tornDown id ended =>
    obtain ⟨level, job⟩ := t
    obtain rfl : job = .settle .items a id (some ref) := ended
    obtain ⟨z, hz, rfl, hs⟩ := hr.reported_wrapper (List.mem_cons_self ..)
    obtain rfl := hx.unique ⟨hz, hs⟩
    exact (w.settle_unbinds .items hn x.id ref).1 (hi ▸ hb)
  | dropped gone =>
    rw [show w.isLive ref = true from (w.isLive_iff ref).mpr ⟨x, hx.1⟩] at gone
    cases gone
  | movedOff b hne bound =>
    have entry := entry_of_gives hr.ordered hr.tracked hx (Or.inl bound) p
    rw [hi, he] at entry
    cases entry
    exact hne rfl
  | takenOver other hne item bound =>
    obtain ⟨z, hz⟩ := item
    have entry := entry_of_gives hr.ordered hr.tracked hz (Or.inl bound) p
    have mapped := ((since.ordered.coherent .items).mapped_iff a z.id).mpr ⟨hn, _, entry, rfl⟩
    rw [hb] at mapped
    rw [← Option.some.inj mapped, he] at entry
    cases entry
    exact hne rfl

/-- Nothing is registered past its binding; otherwise as `k` has it. -/
def Conduct.unregistering (k : Conduct) : Conduct := { k with registers := fun _ => False }

/-- Another wrapper is registered, or nothing is: the item and its entry are as they were. -/
theorem World.agrees_register (ho : w.Ordered) (ht : w.Tracked) {b : Ref} {h : Handle} (live : w.isLive b = true)
    (other : (w.register b h).2 = none → b ≠ ref) (agrees : w.Agrees ref) : (w.register b h).1.Agrees ref := by
  have same (hc : (w.register b h).1.core = w.core) : (w.register b h).1.Agrees ref := by
    obtain ⟨-, registry, wrappers, -⟩ := core_eq hc
    intro y e hy he
    rw [IsItem, wrappers] at hy
    rw [registry] at he
    exact agrees y e hy he
  rcases w.register_cases b h with ⟨-, hc⟩ | ⟨-, hc, -⟩ | ⟨accepted, can, hc⟩
  · exact same hc
  · exact same hc
  · obtain ⟨-, registry, wrappers, -⟩ := core_eq hc
    intro y e hy he
    rw [IsItem, wrappers, wrappers_attach] at hy
    rw [registry] at he
    rcases entry_attach ho can he with ⟨hs, hi, -⟩ | he
    · exact absurd hi (ht.other_id live hs.symm hy (other accepted))
    · exact agrees y e hy he

/-- An item that agrees with its entry does so after a turn that does not register it past its
    binding. -/
theorem Reach.agrees_turn (hr : Reach k ⟨w, t :: ts⟩) (ok : ∀ choose, t.job = .act choose → k.Allows w (choose w))
    (unregistered : ¬ Registers (t, w) ref) (agrees : w.Agrees ref) (p : Program) : (p.expand t w).1.Agrees ref := by
  by_cases registers : ∃ choose b h, t.job = .act choose ∧ choose w = .register b h
  · obtain ⟨level, job⟩ := t
    obtain ⟨choose, b, h, rfl, ho⟩ := registers
    have live : w.isLive b = true := (ho ▸ (ok choose rfl).1 : (Op.register b h).Typed w).1
    have registered := World.agrees_register (h := h) hr.ordered hr.tracked live (fun accepted => by
      rintro rfl
      exact unregistered ⟨h, ⟨choose, rfl, ho⟩, accepted⟩) agrees
    show (w.perform (choose w)).1.Agrees ref
    rw [ho, World.perform]
    intro y e hy he
    rw [World.registry_ofResult] at he
    refine registered y e ⟨?_, hy.2⟩ he
    have found := hy.1
    rcases hres : w.register b h with ⟨u, _ | _⟩ <;> rw [hres] at found <;> exact found
  · have turn : Turn k.unregistering ⟨w, t :: ts⟩ ⟨(p.expand t w).1, (p.expand t w).2 ++ ts⟩ := by
      refine .mk p w t ts fun choose hj => ⟨(ok choose hj).1, ?_⟩
      have permitted := (ok choose hj).2
      generalize ho : choose w = op at permitted
      cases op with
      | register b h => exact absurd ⟨choose, b, h, hj, ho⟩ registers
      | native c => cases c <;> exact permitted
      | _ => exact permitted
    refine turn.keeps_in_order (I := fun u => u.Agrees ref) hr.ordered hr.tracked (fun v v' ho ht hv hm => ?_)
      (fun v t hv => hv) (fun v space h hv => ?_) (fun v space h id wrapper hv => ?_) agrees
    · exact (World.retains_move id ho ht hm).agrees hv
    · cases space <;> exact hv
    · exact (World.retains_settled v space h id wrapper).agrees hv

end Turns

/-! ## Between two turns of a run -/

namespace Runs

variable {ts us : List Task} {w w' : World} {bs cs after : List (Task × World)} {v u : Task × World}

/-- What every turn keeps up to a turn holds when that turn comes. -/
theorem up_to (h : Runs ts w (cs ++ u :: after) w') (hr : Reach k ⟨w, ts ++ us⟩) (ok : AllAllowed k (cs ++ u :: after))
    {I : World → Prop}
    (step : ∀ (p : Program) t rest x, (t, x) ∈ cs → Reach k ⟨x, t :: rest⟩ → I x → I (p.expand t x).1) (hi : I w) :
    I u.2 := by
  generalize hvs : cs ++ u :: after = vs at h ok
  induction h generalizing cs with
  | done w => simp at hvs
  | @task p t ts w w' vs h ih =>
    rcases cs with _ | ⟨c, cs⟩
    · obtain ⟨rfl, rfl⟩ := List.cons.inj hvs
      exact hi
    · obtain ⟨rfl, rfl⟩ := List.cons.inj hvs
      refine ih (hr.next p (ok _ (List.mem_cons_self ..)))
        (fun p t rest x hx => step p t rest x (List.mem_cons_of_mem _ hx)) ?_ rfl
        fun x hx => ok x (List.mem_cons_of_mem _ hx)
      exact step p t (ts ++ us) w (List.mem_cons_self ..) hr hi

/-- What a turn brings about and the turns after it keep holds when a later turn comes. -/
theorem between (h : Runs ts w (bs ++ v :: (cs ++ u :: after)) w') (hr : Reach k ⟨w, ts ++ us⟩)
    (ok : AllAllowed k (bs ++ v :: (cs ++ u :: after))) {I : World → Prop}
    (first : ∀ (p : Program) rest, Reach k ⟨v.2, v.1 :: rest⟩ → I (p.expand v.1 v.2).1)
    (step : ∀ (p : Program) t rest x, (t, x) ∈ cs → Reach k ⟨x, t :: rest⟩ → I x → I (p.expand t x).1) : I u.2 := by
  obtain ⟨rest, run, reach⟩ := h.turn_at hr ok
  cases run with
  | task p run =>
    have later {x : Task × World} (hx : x ∈ cs ++ u :: after) : x ∈ bs ++ v :: (cs ++ u :: after) := by
      exact List.mem_append_right _ (List.mem_cons_of_mem _ hx)
    have next : Reach k ⟨(p.expand v.1 v.2).1, (p.expand v.1 v.2).2 ++ rest ++ us⟩ :=
      reach.next p (ok v (List.mem_append_right _ (List.mem_cons_self ..)))
    exact run.up_to next (fun x hx => ok x (later hx)) step (first p _ reach)

end Runs

section Between

variable {t : Task} {ts : List Task} {w w' : World} {bs cs after : List (Task × World)} {v u : Task × World} {ref : Ref}
  {a : Handle} {x : Wrapper}

/-- A handle that does not lead to the item after a turn does not until the item is given it again. -/
theorem Runs.lost (run : Runs [t] w (bs ++ v :: (cs ++ u :: after)) w') (hr : Reach k ⟨w, t :: ts⟩)
    (ok : AllAllowed k (bs ++ v :: (cs ++ u :: after))) (old : ref.serial < v.2.nextRef)
    (away : ∀ (p : Program) rest, Reach k ⟨v.2, v.1 :: rest⟩ → (p.expand v.1 v.2).1.lookupHandle .items a ≠ some ref)
    (ungiven : ∀ c ∈ cs, ¬ Gives c ref a) : u.2.lookupHandle .items a ≠ some ref := by
  have reach : Reach k ⟨w, [t] ++ ts⟩ := hr
  have allowed_v := ok v (List.mem_append_right _ (List.mem_cons_self ..))
  have allowed {c : Task × World} (hc : c ∈ cs) := ok c (by simp [hc])
  refine (run.between reach ok (I := fun z => ref.serial < z.nextRef ∧ z.lookupHandle .items a ≠ some ref)
    (fun p rest at_v => ⟨at_v.older_turn allowed_v old p, away p rest at_v⟩)
    fun p t rest z hz at_z hi => ⟨at_z.older_turn (allowed hz) hi.1 p, fun leads => ?_⟩).2
  exact (at_z.leads_turn (allowed hz) hi.1 leads).elim hi.2 (ungiven _ hz)

/-- A handle that leads to the item after a turn does so as long as nothing takes it back, and the item
    is there. -/
theorem Runs.kept (run : Runs [t] w (bs ++ v :: (cs ++ u :: after)) w') (hr : Reach k ⟨w, t :: ts⟩)
    (ok : AllAllowed k (bs ++ v :: (cs ++ u :: after))) (hx : v.2.IsItem ref x) (hn : a ≠ .null)
    (entry : ∀ (p : Program) rest, Reach k ⟨v.2, v.1 :: rest⟩ → (∃ y, (p.expand v.1 v.2).1.IsItem ref y) →
      ((p.expand v.1 v.2).1.registry .items).byId.get? x.id = some ⟨ref, a⟩)
    (lasts : ∀ c ∈ cs, ¬ TakesBack c ref x.id a) (live : u.2.isLive ref = true) : u.2.lookupHandle .items a = some ref := by
  have reach : Reach k ⟨w, [t] ++ ts⟩ := hr
  have allowed_v := ok v (List.mem_append_right _ (List.mem_cons_self ..))
  have allowed {c : Task × World} (hc : c ∈ cs) := ok c (by simp [hc])
  obtain ⟨rest, run_v, at_v⟩ := run.turn_at reach ok
  have old : ref.serial < v.2.nextRef := at_v.ordered.refBelow ref x hx.1
  obtain ⟨-, held⟩ : ref.serial < u.2.nextRef ∧ ∀ y, u.2.IsItem ref y →
      y.id = x.id ∧ (u.2.registry .items).byId.get? x.id = some ⟨ref, a⟩ := by
    refine run.between reach ok
      (I := fun z => ref.serial < z.nextRef ∧ ∀ y, z.IsItem ref y →
        y.id = x.id ∧ (z.registry .items).byId.get? x.id = some ⟨ref, a⟩)
      (fun p rest at_v => ⟨at_v.older_turn allowed_v old p, fun y hy => ?_⟩)
      fun p t rest z hz at_z hi => ⟨at_z.older_turn (allowed hz) hi.1 p, fun y hy => ?_⟩
    · obtain ⟨x', hx', hi⟩ := at_v.item_before allowed_v old hy
      obtain rfl := hx.unique hx'
      exact ⟨hi.symm, entry p rest at_v ⟨y, hy⟩⟩
    · obtain ⟨z', hz', same⟩ := at_z.item_before (allowed hz) hi.1 hy
      obtain ⟨hid, he⟩ := hi.2 z' hz'
      refine ⟨same.symm.trans hid, ?_⟩
      rw [← hid] at he ⊢
      exact at_z.entry_turn (allowed hz) hz' he (hid ▸ lasts _ hz) hy
  have reach_v : Reach k ⟨v.2, v.1 :: rest ++ ts⟩ := at_v
  have aged := (run_v.ages reach_v fun c hc => ok c (List.mem_append_right _ hc)).2 u (by simp)
  obtain ⟨y, hy⟩ := (World.isLive_iff _ ref).mp live
  obtain ⟨item, same⟩ := aged.item at_v.ordered hx hy
  have split : bs ++ v :: (cs ++ u :: after) = (bs ++ v :: cs) ++ u :: after := by simp
  rw [split] at run ok
  obtain ⟨_, -, at_u⟩ := run.turn_at reach ok
  exact World.leads_of_entry at_u.ordered item hn (same ▸ (held y item).2)

/-- Once the registry has gone, no handle leads to anything. -/
theorem Runs.stays_gone (run : Runs [t] w (bs ++ v :: (cs ++ u :: after)) w') (hr : Reach k ⟨w, t :: ts⟩)
    (ok : AllAllowed k (bs ++ v :: (cs ++ u :: after))) (gone : v.2.isThere .items = false) : u.2.isThere .items ≠ true := by
  have reach : Reach k ⟨w, [t] ++ ts⟩ := hr
  have allowed_v := ok v (List.mem_append_right _ (List.mem_cons_self ..))
  have allowed {c : Task × World} (hc : c ∈ cs) := ok c (by simp [hc])
  exact run.between reach ok (I := fun z => z.isThere .items ≠ true)
    (fun p rest at_v => at_v.gone_turn allowed_v (by simp [gone]) p)
    fun p t rest z hz at_z hi => at_z.gone_turn (allowed hz) hi p

/-- An item that the handle leads to and did not lead to before is new, or has been given it. -/
theorem Runs.gained (run : Runs [t] w (bs ++ v :: (cs ++ u :: after)) w') (hr : Reach k ⟨w, t :: ts⟩)
    (ok : AllAllowed k (bs ++ v :: (cs ++ u :: after))) (leads : u.2.lookupHandle .items a = some ref)
    (away : v.2.lookupHandle .items a ≠ some ref) : v.2.nextRef ≤ ref.serial ∨ ∃ c ∈ v :: cs, Gives c ref a := by
  by_contra ungained
  obtain ⟨old, ungiven⟩ := not_or.mp ungained
  have older : ref.serial < v.2.nextRef := Nat.lt_of_not_le old
  have allowed_v := ok v (List.mem_append_right _ (List.mem_cons_self ..))
  refine run.lost hr ok older (fun p rest at_v hl => ?_) (fun c hc hg => ungiven ⟨c, List.mem_cons_of_mem _ hc, hg⟩) leads
  rcases at_v.leads_turn allowed_v older hl with before | given
  · exact away before
  · exact ungiven ⟨v, List.mem_cons_self .., given⟩

/-- An item that is given the handle, or that it leads to, has the entry after the turn, unless that
    takes it back. -/
theorem Reach.held_after (hr : Reach k ⟨v.2, v.1 :: ts⟩) (ok : ∀ choose, v.1.job = .act choose → k.Allows v.2 (choose v.2))
    (hx : v.2.IsItem ref x)
    (held : Gives v ref a ∧ a ≠ .null ∨ v.2.lookupHandle .items a = some ref ∧ ¬ TakesBack v ref x.id a) :
    a ≠ .null ∧ ∀ p : Program, (∃ y, (p.expand v.1 v.2).1.IsItem ref y) →
      ((p.expand v.1 v.2).1.registry .items).byId.get? x.id = some ⟨ref, a⟩ := by
  rcases held with ⟨given, hn⟩ | ⟨leads, untaken⟩
  · exact ⟨hn, fun p _ => entry_of_gives hr.ordered hr.tracked hx given p⟩
  · obtain ⟨hn, x', hx', -, he⟩ := World.entry_of_leads hr.ordered hr.tracked leads
    obtain rfl := hx.unique hx'
    exact ⟨hn, fun p ⟨y, hy⟩ => hr.entry_turn ok hx he untaken hy⟩

end Between

/-! ## A handler's turn -/

namespace World

theorem resolve_pin (w : World) {p : Pin} (hp : p ≠ .registry .items) (a : Handle) : (w.pin p).resolve a = w.resolve a := by
  have there : (w.pin p).isThere .items = w.isThere .items := by
    simp [isThere, pin, holds, Ne.symm hp]
  rw [resolve, there]
  rfl

/-- A callback leaves what handles lead to as it is. -/
theorem resolve_signal (w : World) (cb : SignalCallback) (object : Handle) (info : EventInfo) (a : Handle) :
    (w.signal cb object info).1.resolve a = w.resolve a := by
  simp only [signal]
  split
  · rfl
  · split
    · split
      · exact w.resolve_pin (by simp) a
      · exact w.resolve_pin (by simp) a
      · split
        · exact (resolve_pin _ (by simp) a).trans (w.resolve_pin (by simp) a)
        · exact w.resolve_pin (by simp) a
    · rfl

/-- A callback lets go of no sender. -/
theorem isSenderLive_signal (w : World) (cb : SignalCallback) (object : Handle) (info : EventInfo) {s : Sender}
    (live : w.isSenderLive s = true) : (w.signal cb object info).1.isSenderLive s = true := by
  have pinned {u : World} (p : Pin) (h : u.isSenderLive s = true) : (u.pin p).isSenderLive s = true := by
    rw [isSenderLive, Bool.or_eq_true, List.contains_iff_mem] at h ⊢
    exact h.imp_right (List.mem_cons_of_mem p)
  simp only [signal]
  split
  · exact live
  · split
    · split
      · exact pinned _ live
      · exact pinned _ live
      · split
        · exact pinned _ (pinned _ live)
        · exact pinned _ live
    · exact live

/-- A trampoline of an item bridge gives its handler what the payload leads to now. -/
theorem response_item (w : World) {b : Bridge} (hb : b.parser = .item) (serial : Nat) (handler : String) (object : Handle)
    (info : EventInfo) :
    (w.response (.trampoline (b.trampoline serial handler)) object info).2 =
      if w.isSenderLive b.sender then some (.itemSignal handler b.sender info.toHandle (w.resolve info.toHandle))
      else none := by
  simp only [response, Bridge.trampoline, hb, resolve]
  split <;> rfl

/-- What an item handler is given comes from the payload, out of the world in which the callback has
    its turn. -/
theorem response_eq_item {w : World} {cb : SignalCallback} {object : Handle} {info : EventInfo} {f : String} {s : Sender}
    {a : Handle} {item : Option Ref} (h : (w.response cb object info).2 = some (.itemSignal f s a item)) :
    a = info.toHandle ∧ w.isSenderLive s = true ∧ item = w.resolve a := by
  cases cb with
  | program name => cases h
  | trampoline t =>
    simp only [response] at h
    split at h
    · rename_i live
      cases hp : t.parser with
      | unit | raw =>
        rw [hp] at h
        cases h
      | item =>
        rw [hp] at h
        cases h
        exact ⟨rfl, live, rfl⟩
    · cases h

end World

/-- An item handler that is called by a fire is called for the payload, with what that leads to. -/
theorem Runs.item_call {level : Nat} {choose : World → Op} {object : Handle} {event : String} {info : EventInfo}
    {w w' : World} {vs : List (Task × World)} (run : Runs [⟨level, .act choose⟩] w vs w')
    (hf : choose w = .fire object event info) {f : String} {s : Sender} {a : Handle} {item : Option Ref} {u : World}
    (hu : (⟨level, .enter (.itemSignal f s a item)⟩, u) ∈ vs) :
    u.isSenderLive s = true ∧ a = info.toHandle ∧ item = u.resolve a := by
  obtain ⟨-, turns, -, rounds⟩ := run.fire hf
  have called : (⟨level, .enter (.itemSignal f s a item)⟩, u) ∈ vs.filter (inRound level) :=
    List.mem_filter.mpr ⟨hu, by simp [inRound]⟩
  rw [rounds] at called
  obtain ⟨⟨cb, u₀⟩, turn, hm⟩ := List.mem_flatMap.mp called
  simp only [HandleBridge.round, List.mem_cons, List.mem_map, Option.mem_toList] at hm
  rcases hm with hm | ⟨call, response, hm⟩
  · cases hm
  · cases hm
    obtain ⟨payload, live, resolved⟩ := World.response_eq_item response
    exact ⟨u₀.isSenderLive_signal cb object info live, payload, resolved.trans (u₀.resolve_signal cb object info a).symm⟩

/-- How the item that a handler is given for `a` in world `u` stands to the turns that have come
    since the fire was called in `w`:
    - it is what the registry gives for the handle in `u`, and there is none once the registry has
      gone;
    - it is there, it is the one that the registry has for the handle, and it holds that handle, or
      null since its deletion has been asked for. An item that the program registers past its
      binding may hold another one;
    - it is none from which the handle has been taken (`Ousts`) and that has not been given it again;
    - an item that the handle did not lead to at one of those turns has been made or been given the
      handle since;
    - an item that was given the handle, or that the handle led to, at one of those turns is the one
      that is delivered, unless something has taken that back or it is not there any more. -/
structure Fresh (k : Conduct) (w : World) (before : List (Task × World)) (u : World) (a : Handle) (item : Option Ref) :
    Prop where
  resolved : item = u.resolve a
  gone : (u.isThere .items = false ∨ ∃ v ∈ before, v.2.isThere .items = false) → item = none
  owner : ∀ ref, item = some ref → ∃ x, u.IsItem ref x ∧ (u.registry .items).byHandle.get? a = some x.id ∧
    (u.registry .items).byId.get? x.id = some ⟨ref, a⟩ ∧
    ((k.registers .items → w.Agrees ref ∧ ∀ v ∈ before, ¬ Registers v ref) → x.handle = a ∨ x.handle = .null)
  ousted : ∀ bs v cs ref, before = bs ++ v :: cs → ref.serial < v.2.nextRef → Ousts ref a v →
    (∀ c ∈ cs, ¬ Gives c ref a) → item ≠ some ref
  given : ∀ bs v cs ref, before = bs ++ v :: cs → item = some ref → v.2.resolve a ≠ some ref →
    v.2.nextRef ≤ ref.serial ∨ ∃ c ∈ v :: cs, Gives c ref a
  kept : ∀ bs v cs ref x, before = bs ++ v :: cs → v.2.IsItem ref x →
    (Gives v ref a ∧ a ≠ .null ∨ v.2.resolve a = some ref ∧ ¬ TakesBack v ref x.id a) →
    (∀ c ∈ cs, ¬ TakesBack c ref x.id a) → u.isLive ref = true → item = some ref

theorem Runs.fresh {t : Task} {ts : List Task} {w w' : World} {before after : List (Task × World)} {u : Task × World}
    (run : Runs [t] w (before ++ u :: after) w') (hr : Reach k ⟨w, t :: ts⟩) (ok : AllAllowed k (before ++ u :: after))
    (a : Handle) : Fresh k w before u.2 a (u.2.resolve a) := by
  have reach : Reach k ⟨w, [t] ++ ts⟩ := hr
  obtain ⟨rest, -, at_u⟩ := run.turn_at reach ok
  have leads {ref : Ref} : u.2.resolve a = some ref ↔ u.2.lookupHandle .items a = some ref :=
    World.resolve_eq_some at_u.ordered at_u.tracked
  have allowed {c : Task × World} (hc : c ∈ before) := ok c (List.mem_append_left _ hc)
  -- the run, and what is allowed in it, cut at one of the turns
  have cut {bs cs : List (Task × World)} {v : Task × World} (e : before = bs ++ v :: cs) :
      before ++ u :: after = bs ++ v :: (cs ++ u :: after) := by
    rw [e, List.append_assoc, List.cons_append]
  have turn {bs cs : List (Task × World)} {v : Task × World} (e : before = bs ++ v :: cs) :
      ∃ rest, Reach k ⟨v.2, v.1 :: rest⟩ := by
    obtain ⟨rest, -, at_v⟩ := (cut e ▸ run).turn_at reach (cut e ▸ ok)
    exact ⟨rest ++ ts, at_v⟩
  refine ⟨rfl, ?_, fun ref hl => ?_, fun bs v cs ref e old ousts ungiven hl => ?_, fun bs v cs ref e hl away => ?_,
    fun bs v cs ref x e hx held lasts live => ?_⟩
  · rintro (gone | ⟨v, hv, gone⟩)
    · exact if_neg (by simp [gone])
    · obtain ⟨bs, cs, e⟩ := List.append_of_mem hv
      exact if_neg ((cut e ▸ run).stays_gone hr (cut e ▸ ok) gone)
  · obtain ⟨-, x, hx, hb, he⟩ := World.entry_of_leads at_u.ordered at_u.tracked (leads.mp hl)
    refine ⟨x, hx, hb, he, fun beside => ?_⟩
    have agrees : u.2.Agrees ref := by
      by_cases hk : k.registers .items
      · obtain ⟨agrees, unregistered⟩ := beside hk
        refine run.up_to reach ok (I := fun z => z.Agrees ref) (fun p t rest z hz at_z hi => ?_) agrees
        exact at_z.agrees_turn (allowed hz) (unregistered _ hz) hi p
      · exact at_u.concordant hk ref
    exact (agrees x _ hx he).symm
  · refine (cut e ▸ run).lost hr (cut e ▸ ok) old (fun p rest at_v => ?_) ungiven (leads.mp hl)
    exact at_v.ousted_turn (allowed (by simp [e])) old ousts p
  · obtain ⟨_, at_v⟩ := turn e
    refine (cut e ▸ run).gained hr (cut e ▸ ok) (leads.mp hl) fun before => away ?_
    exact (World.resolve_eq_some at_v.ordered at_v.tracked).mpr before
  · obtain ⟨_, at_v⟩ := turn e
    rw [World.resolve_eq_some at_v.ordered at_v.tracked] at held
    have allowed_v := allowed (c := v) (by simp [e])
    have real := (at_v.held_after allowed_v hx held).1
    exact leads.mpr ((cut e ▸ run).kept hr (cut e ▸ ok) hx real
      (fun p rest at_v there => (at_v.held_after allowed_v hx held).2 p there) lasts live)

/-- A signal is fired in any state of a run, with any payload, and the handlers do what they like.
    - The callbacks that are registered then have their turns in order. At the turn of an item
      bridge's trampoline its handler is called, if the sender is alive, with the payload as a handle
      and with what that handle leads to in the world of that turn; if not, it is not called.
    - Whatever item handler the fire calls is called on behalf of a sender that is alive, for that
      handle, and what it is given is up to date (`Fresh`) with all that has been done since the fire
      began, also by the handlers that were called before. -/
theorem item_events_resolve_freshly {level : Nat} {choose : World → Op} {ts : List Task} {object : Handle} {event : String}
    {info : EventInfo} {w w' : World} {vs : List (Task × World)} (hr : Reach k ⟨w, ⟨level, .act choose⟩ :: ts⟩)
    (hf : choose w = .fire object event info) (run : Runs [⟨level, .act choose⟩] w vs w') (ok : AllAllowed k vs) :
    (∃ turns : List (SignalCallback × World), turns.map (·.1) = w.toolkit.listeners object event ∧
      vs.filter (inRound level) = turns.flatMap (round level object info) ∧
      ∀ (b : Bridge) (serial : Nat) (handler : String) (u : World), b.parser = .item →
        (.trampoline (b.trampoline serial handler), u) ∈ turns →
        (u.response (.trampoline (b.trampoline serial handler)) object info).2 =
          if u.isSenderLive b.sender then some (.itemSignal handler b.sender info.toHandle (u.resolve info.toHandle))
          else none) ∧
    ∀ before after f s a item u, vs = before ++ (⟨level, .enter (.itemSignal f s a item)⟩, u) :: after →
      u.isSenderLive s = true ∧ a = info.toHandle ∧ Fresh k w before u a item := by
  constructor
  · obtain ⟨-, turns, callbacks, rounds⟩ := run.fire hf
    exact ⟨turns, callbacks, rounds, fun b serial handler u hb _ => u.response_item hb serial handler object info⟩
  · rintro before after f s a item u rfl
    have called : (⟨level, .enter (.itemSignal f s a item)⟩, u) ∈
        before ++ (⟨level, .enter (.itemSignal f s a item)⟩, u) :: after := by simp
    obtain ⟨live, payload, resolved⟩ := run.item_call hf called
    refine ⟨live, payload, ?_⟩
    have fresh := run.fresh hr ok a
    rw [← resolved] at fresh
    exact fresh

/-- The first handler moves the item to another object and leaves the handle to the second item,
    which the second handler deletes. -/
def relay : Program where
  limit := 4
  body
    | .itemSignal "pass" .. => [fun _ => .bind ⟨0⟩ ⟨0x1010⟩, fun _ => .bind ⟨1⟩ ⟨0x1000⟩]
    | .itemSignal "drop" .. => [fun _ => .delete ⟨1⟩]
    | _ => []

/-- Two items and three subscriptions of a bridge, with the first item bound to the object. -/
def watched : World :=
  [Op.newSender "s", .newBridge "a" (clicks .item), .subscribe "a" (clicks .item) "pass",
    .subscribe "a" ((clicks .item).addListener ((clicks .item).trampoline 0 "pass")) "drop",
    .subscribe "a" (((clicks .item).addListener ((clicks .item).trampoline 0 "pass")).addListener
      ((clicks .item).trampoline 1 "drop")) "look"].foldl (fun w op => (w.perform op).1) beforeHandover

theorem reach_watched : Reach .free ⟨watched, []⟩ := by
  have sender := (reach_beforeHandover.call 4 (fun _ => .newSender "s")).perform relay ⟨trivial, trivial⟩
  have bridge := (sender.call 4 (fun _ => .newBridge "a" (clicks .item))).perform relay ⟨⟨rfl, rfl⟩, trivial⟩
  have first := (bridge.call 4 (fun _ => .subscribe "a" (clicks .item) "pass")).perform relay ⟨rfl, trivial⟩
  have second := (first.call 4 (fun _ =>
    .subscribe "a" ((clicks .item).addListener ((clicks .item).trampoline 0 "pass")) "drop")).perform relay ⟨rfl, trivial⟩
  exact (second.call 4 (fun _ =>
    .subscribe "a" (((clicks .item).addListener ((clicks .item).trampoline 0 "pass")).addListener
      ((clicks .item).trampoline 1 "drop")) "look")).perform relay ⟨rfl, trivial⟩

/-- The signal is about to be fired, with the handle of the object for its payload. -/
def clicking : State := ⟨watched, [⟨4, .act fun _ => .fire ⟨0x1000⟩ "clicked" ⟨0x1000⟩⟩]⟩

/-- What the handlers of the signal are given, in order. -/
def givenItems (vs : List (Task × World)) : List (String × Option Ref) :=
  vs.filterMap fun v => match v.1.job with
    | .enter (.itemSignal handler _ _ item) => some (handler, item)
    | _ => none

theorem allowed_clicking : AllAllowed .free (relay.trace 60 clicking) := by
  intro v hv choose hc
  repeat' rcases hv with _ | ⟨_, hv⟩
  all_goals cases hc
  · exact ⟨trivial, trivial⟩
  · exact ⟨⟨by decide, by decide⟩, trivial, trivial⟩
  · exact ⟨⟨by decide, by decide⟩, trivial, trivial⟩
  · exact ⟨⟨by decide, by decide⟩, trivial⟩

/-- Each of the three is given what the handle leads to at its turn: the first item, the second, and
    then none. -/
theorem each_is_given_what_is_there : ∃ w', Runs clicking.tasks watched (relay.trace 60 clicking) w' ∧
    givenItems (relay.trace 60 clicking) = [("pass", some ⟨0⟩), ("drop", some ⟨1⟩), ("look", none)] ∧
    ∀ before after f s a item u, relay.trace 60 clicking = before ++ (⟨4, .enter (.itemSignal f s a item)⟩, u) :: after →
      u.isSenderLive s = true ∧ a = ⟨0x1000⟩ ∧ Fresh .free watched before u a item := by
  have run : Runs clicking.tasks watched (relay.trace 60 clicking) (State.after relay 60 clicking).world :=
    relay.runs_trace rfl
  have asked := reach_watched.call 4 (fun _ => .fire ⟨0x1000⟩ "clicked" ⟨0x1000⟩)
  obtain ⟨-, calls⟩ := item_events_resolve_freshly asked rfl run allowed_clicking
  exact ⟨_, run, by decide, calls⟩

end HandleBridge
