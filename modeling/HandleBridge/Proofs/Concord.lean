/-
  HandleBridge.Proofs.Concord — the handle of an item, turn by turn.

  Whatever the program does to the registries otherwise, an item's handle changes in few ways:
  - `Concordant`: as long as items are registered by being bound, an item that has an entry holds
    null or what the entry holds, also where the program makes the registry forget ids
    (`Reach.concordant`). `OwnHandle` has more, for programs that forget none.
  - `Reach.handle_turn`: a turn leaves an item its handle, takes it, or is the binding of the item
    to the handle that it has then.
-/
import HandleBridge.Proofs.Holders
import HandleBridge.Proofs.Rebinding

namespace HandleBridge

variable {k : Conduct}

namespace World

variable {w w' : World}

/-! ## An item and its entry -/

/-- The item holds null, or what its entry holds, if it has one. -/
def Agrees (w : World) (ref : Ref) : Prop :=
  ∀ x e, w.IsItem ref x → (w.registry .items).byId.get? x.id = some e → x.handle = .null ∨ x.handle = e.handle

def Concordant (w : World) : Prop := ∀ ref, w.Agrees ref

/-- An item with an entry has had the two before, unless it has lost its handle or agrees with the
    entry. -/
def Retains (w w' : World) : Prop :=
  ∀ ref y e, w'.IsItem ref y → (w'.registry .items).byId.get? y.id = some e →
    (y.handle = .null ∨ y.handle = e.handle) ∨
    ∃ x, w.IsItem ref x ∧ x.handle = y.handle ∧ (w.registry .items).byId.get? x.id = some e

theorem Retains.concordant (h : w.Retains w') (hc : w.Concordant) : w'.Concordant := by
  intro ref y e hy he
  rcases h ref y e hy he with now | ⟨x, hx, hh, hxe⟩
  · exact now
  · exact hh ▸ hc ref x e hx hxe

/-- Wrappers and entries have been there before. -/
theorem retains_fewer (hx : ∀ ref y, w'.IsItem ref y → w.IsItem ref y)
    (he : ∀ id e, (w'.registry .items).byId.get? id = some e → (w.registry .items).byId.get? id = some e) : w.Retains w' :=
  fun ref y e hy h => Or.inr ⟨y, hx ref y hy, rfl, he _ e h⟩

theorem retains_modifyWrapper (w : World) (ref : Ref) (f : Wrapper → Wrapper)
    (hf : ∀ x, (f x).id = x.id ∧ (f x).space = x.space)
    (hh : ∀ x e, w.IsItem ref x → (w.registry .items).byId.get? x.id = some e →
      ((f x).handle = .null ∨ (f x).handle = e.handle) ∨ (f x).handle = x.handle) : w.Retains (w.modifyWrapper ref f) := by
  intro a y e hy he
  change (w.registry .items).byId.get? y.id = some e at he
  rcases isItem_modifyWrapper (fun x => (hf x).2) hy with ⟨rfl, x, hx, rfl⟩ | ⟨-, hy⟩
  · rw [(hf x).1] at he
    exact (hh x e hx he).imp id fun same => ⟨x, hx, same.symm, he⟩
  · exact Or.inr ⟨y, hy, rfl, he⟩

theorem retains_addWrapper (w : World) {x : Wrapper} (hx : x.handle = .null) : w.Retains (w.addWrapper x) := by
  intro ref y e hy he
  rcases isItem_addWrapper hy with ⟨-, rfl⟩ | hy
  · exact Or.inl (Or.inl hx)
  · exact Or.inr ⟨y, hy, rfl, he⟩

/-- An item is bound; the entry of another item is the one that it was. -/
theorem retains_rebind (ho : w.Ordered) (ht : w.Tracked) {ref : Ref} {h : Handle} (hl : w.isLive ref = true)
    (hc : w.CanAttach ref h) : w.Retains ((w.attach ref h).setHandle ref h) := by
  intro a y e hy he
  change ((w.attach ref h).registry .items).byId.get? y.id = some e at he
  rcases isItem_rebind hy with ⟨rfl, x, hx, rfl⟩ | ⟨ha, hy⟩
  · have hs : Space.items = w.spaceOf a := ((spaceOf_eq hx.1).trans hx.2).symm
    have hb := hc.2
    rw [← hs] at hb
    rw [registry_attach, if_pos hs, (Registry.tables_bind (ho.coherent .items) hb a).1, if_pos (idOf_eq hx.1).symm] at he
    cases he
    exact Or.inl (Or.inr rfl)
  · rcases entry_attach ho hc he with ⟨hs, hi, -⟩ | he
    · obtain ⟨x, hx⟩ := (w.isLive_iff ref).mp hl
      have item : w.IsItem ref x := ⟨hx, (spaceOf_eq hx).symm.trans hs.symm⟩
      exact absurd (ht.unique a ref y x hy item (hi.trans (idOf_eq hx))) ha
    · exact Or.inr ⟨y, hy, rfl, he⟩

theorem retains_move (unregistered : ¬ k.registers .items) (ho : w.Ordered) (ht : w.Tracked) (hm : Move k w w') :
    w.Retains w' := by
  cases hm with
  | aside hc =>
    obtain ⟨-, hr, hx, -⟩ := core_eq hc
    exact retains_fewer (fun ref y hy => ⟨hx ▸ hy.1, hy.2⟩) fun id e he => hr .items ▸ he
  | createItem _ | createObject _ | adopt h _ | takePending | call c _ =>
    exact retains_fewer (fun _ _ hy => hy) fun _ _ he => he
  | allocate space id r ha =>
    obtain ⟨rfl, rfl⟩ := Registry.allocate_eq ha
    cases space <;> exact retains_fewer (fun _ _ hy => hy) fun _ _ he => he
  | create space id r kind ha hs =>
    obtain ⟨rfl, rfl⟩ := Registry.allocate_eq ha
    cases space <;> exact retains_addWrapper _ rfl
  | share id name bare _ => exact w.retains_addWrapper rfl
  | free ref x hx hh =>
    refine retains_fewer (fun a y hy => ?_) fun id e he => ?_
    · rw [IsItem, wrappers_released hx hh] at hy
      exact (isItem_erase hy).2
    · rw [registry_released hx hh] at he
      split at he
      · exact Registry.entry_of_forget he
      · exact he
  | attach ref h hl hk hc =>
    have hs : Space.items ≠ w.spaceOf ref := fun e => unregistered (e ▸ hk)
    refine retains_fewer (fun a y hy => ?_) fun id e he => ?_
    · rw [IsItem, wrappers_attach] at hy
      exact hy
    · rw [registry_attach, if_neg hs] at he
      exact he
  | rebind ref h hl _ _ hc => exact retains_rebind ho ht hl hc
  | confirm ref h hl _ hb =>
    refine w.retains_modifyWrapper ref _ (fun _ => ⟨rfl, rfl⟩) fun x e hx he => Or.inl (Or.inr ?_)
    rw [spaceOf_eq hx.1, hx.2, idOf_eq hx.1, Registry.isBoundTo_eq, Registry.boundTo, he] at hb
    exact (Option.some.inj hb).symm
  | setProbe ref h hp =>
    obtain ⟨x, hx, hs⟩ := hp
    refine w.retains_modifyWrapper ref _ (fun _ => ⟨rfl, rfl⟩) fun y e hy _ => ?_
    exact absurd hy (not_item_of_probe ((spaceOf_eq hx).trans hs))
  | setNull ref => exact w.retains_modifyWrapper ref _ (fun _ => ⟨rfl, rfl⟩) fun _ _ _ _ => Or.inl (Or.inl rfl)
  | edit ref f hf =>
    exact w.retains_modifyWrapper ref f (fun x => ⟨(hf x).1, (hf x).2.2⟩) fun x _ _ _ => Or.inr (hf x).2.1
  | forget space id _ =>
    refine retains_fewer (fun ref y hy => ?_) fun i e he => ?_
    · rw [IsItem, wrappers_forget] at hy
      exact hy
    · rw [registry_forget] at he
      split at he
      · rename_i hs
        exact hs ▸ Registry.entry_of_forget he
      · exact he

/-- A report that ends takes at most its entry, and the handle of its wrapper. -/
theorem retains_settled (w : World) (space : Space) (h : Handle) (id : ItemId) (wrapper : Option Ref) :
    w.Retains (w.settled space h id wrapper) := by
  intro ref y e hy he
  obtain ⟨x, hx, hi, null | ⟨rfl, -⟩⟩ := isItem_settled hy
  · exact Or.inl (Or.inl null)
  · refine Or.inr ⟨y, hx, rfl, ?_⟩
    rw [registry_settled] at he
    split at he
    · rename_i hs
      exact hs ▸ Registry.entry_of_endDying he
    · exact he

end World

/-- What is kept by moves between worlds whose tables are in order, and by the other parts of a turn,
    is kept by the turn. -/
theorem Turn.keeps_in_order {I : World → Prop} {c c' : State} (hs : Turn k c c') (ho : c.world.Ordered)
    (ht : c.world.Tracked) (move : ∀ w w', w.Ordered → w.Tracked → I w → Move k w w' → I w')
    (destroyed : ∀ w t, I w → I { w with toolkit := t })
    (startDying : ∀ w space h, I w → I (w.setRegistry space ((w.registry space).startDying h)))
    (settled : ∀ w space h id wrapper, I w → I (w.settled space h id wrapper)) (hi : I c.world) : I c'.world := by
  refine (hs.keeps (I := fun v => c.world.Since v ∧ I v) (fun v v' hv hm => ⟨?_, ?_⟩) (fun v h t slot hv _ => ⟨?_, ?_⟩)
    (fun v space h hv => ⟨?_, startDying v space h hv.2⟩)
    (fun level space h id wrapper ts _ hv => ⟨?_, settled _ space h id wrapper hv.2⟩) ⟨⟨ho, ht, .refl _⟩, hi⟩).2
  · exact hv.1.passes (World.ordered_move hv.1.ordered hm) (World.passes_move hv.1.ordered hm)
  · exact move v v' hv.1.ordered hv.1.tracked hv.2 hm
  · exact hv.1.passes (World.ordered_toolkit hv.1.ordered t) (World.passes_congr rfl rfl rfl)
  · exact destroyed v t hv.2
  · have marked := Registry.coherent_startDying (hv.1.ordered.coherent space) h
    exact hv.1.passes (World.ordered_setRegistry hv.1.ordered marked (Nat.le_refl _) fun _ _ he => he)
      (v.passes_setRegistry (Nat.le_refl _) fun _ _ he => he)
  · exact hv.1.passes (World.ordered_settled hv.1.ordered space h id wrapper) (World.passes_settled _ space h id wrapper)

theorem concordant_turn (unregistered : ¬ k.registers .items) {c c' : State} (hr : Reach k c) (hs : Turn k c c')
    (hc : c.world.Concordant) : c'.world.Concordant := by
  refine hs.keeps_in_order hr.ordered hr.tracked (fun v v' ho ht hv hm => ?_) (fun v t hv => hv) (fun v space h hv => ?_)
    (fun v space h id wrapper hv => ?_) hc
  · exact (World.retains_move unregistered ho ht hm).concordant hv
  · cases space <;> exact hv
  · exact (World.retains_settled v space h id wrapper).concordant hv

/-- As long as the program registers items by binding them, each item that has an entry holds null
    or what the entry holds. -/
theorem Reach.concordant (unregistered : ¬ k.registers .items) {c : State} (h : Reach k c) : c.world.Concordant := by
  induction h with
  | start mode =>
    intro ref x e hx
    simp [World.IsItem, World.start] at hx
  | call level choose _ ih => exact ih
  | step hr hs ih => exact concordant_turn unregistered hr hs ih

/-! ## What a turn does to a handle -/

namespace World

variable {w : World} {ref : Ref} {y : Wrapper}

/-- Letting go of a wrapper frees it or changes nothing. -/
theorem isItem_release {b : Ref} (hy : (w.release b).IsItem ref y) : w.IsItem ref y := by
  by_cases hh : w.isHeld b = true
  · rw [release_of_held hh] at hy
    exact hy
  · rcases hx : w.wrappers.get? b with _ | x
    · rw [release_of_gone hx] at hy
      exact hy
    · rw [IsItem, wrappers_released hx (Bool.eq_false_iff.mpr hh)] at hy
      exact (isItem_erase hy).2

theorem isItem_settle {space : Space} {h : Handle} {id : ItemId} {wrapper : Option Ref}
    (hy : (w.settle space h id wrapper).IsItem ref y) : (w.settled space h id wrapper).IsItem ref y := by
  obtain ⟨-, -, wrappers, -⟩ := core_eq (w.core_reportEnd space h id wrapper)
  have ended : (w.reportEnd space h id wrapper).IsItem ref y := by
    rw [settle_eq] at hy
    cases wrapper with
    | none => exact hy
    | some b =>
      let ended := w.reportEnd space h id (some b)
      have left : { ended with pins := ended.pins.erase (.wrapper b) }.IsItem ref y := isItem_release hy
      exact left
  exact ⟨wrappers ▸ ended.1, ended.2⟩

end World

/-- The item that is there after the turn was there before. It holds what the turn has bound it to,
    if it has; otherwise what it held, or nothing. -/
theorem Reach.handle_turn {w : World} {t : Task} {ts : List Task} (hr : Reach k ⟨w, t :: ts⟩)
    (ok : ∀ choose, t.job = .act choose → k.Allows w (choose w)) {ref : Ref} (old : ref.serial < w.nextRef) {p : Program}
    {y : Wrapper} (hy : (p.expand t w).1.IsItem ref y) :
    ∃ x, w.IsItem ref x ∧ x.id = y.id ∧ (Binds (t, w) ref y.handle ∨
      ((∀ a, ¬ Binds (t, w) ref a) ∧ (y.handle = .null ∨ y.handle = x.handle))) := by
  have turn : Turn k ⟨w, t :: ts⟩ ⟨(p.expand t w).1, (p.expand t w).2 ++ ts⟩ := .mk p w t ts ok
  obtain ⟨x, hx, hi⟩ : ∃ x, w.IsItem ref x ∧ x.id = y.id := by
    rcases (since_turn hr.ordered hr.tracked turn).ages.wrappers ref y hy.1 with ⟨x, hx, hi, hs⟩ | ⟨hn, -⟩
    · exact ⟨x, ⟨hx, hs.trans hy.2⟩, hi⟩
    · exact absurd old (Nat.not_lt_of_le hn)
  obtain ⟨level, job⟩ := t
  refine ⟨x, hx, hi, ?_⟩
  by_cases hb : ∃ a, Binds (⟨level, job⟩, w) ref a
  · obtain ⟨a, ⟨choose, rfl, ho⟩, accepted⟩ := hb
    change (w.perform (choose w)).1.IsItem ref y at hy
    rw [ho] at hy
    obtain ⟨z, hz, -, rfl⟩ := (World.holds_perform hr.ordered hr.tracked hx accepted).item
    obtain rfl := hy.unique hz
    exact Or.inl ⟨⟨choose, rfl, ho⟩, accepted⟩
  refine Or.inr ⟨fun a ha => hb ⟨a, ha⟩, ?_⟩
  by_cases hu : job.Unsettles w ref x.id
  · cases job with
    | act choose =>
      change (choose w).Unsettles w ref x.id at hu
      change (w.perform (choose w)).1.IsItem ref y at hy
      generalize ho : choose w = op at hu hy
      cases op with
      | bind b a =>
        obtain ⟨rfl, accepted⟩ := hu
        exact absurd ⟨a, ⟨choose, rfl, ho⟩, accepted⟩ hb
      | register b a =>
        have same : (World.ofResult (w.register b a)).wrappers = w.wrappers := by
          refine Eq.trans ?_ (w.wrappers_register b a)
          rcases w.register b a with ⟨w', _ | e⟩ <;> rfl
        exact Or.inr (congrArg Wrapper.handle (hx.unique ⟨same ▸ hy.1, hy.2⟩).symm)
      | forget space i =>
        have same : ((w.forget space i).answering .none).wrappers = w.wrappers := w.wrappers_forget space i
        exact Or.inr (congrArg Wrapper.handle (hx.unique ⟨same ▸ hy.1, hy.2⟩).symm)
      | _ => exact hu.elim
    | settle space a i wrapper =>
      obtain ⟨x', hx', -, null | ⟨rfl, -⟩⟩ := World.isItem_settled (World.isItem_settle hy)
      · exact Or.inl null
      · exact Or.inr (congrArg Wrapper.handle (hx.unique hx').symm)
    | releaseHandle b =>
      obtain rfl : b = ref := hu
      exact Or.inl (World.isItem_releaseHandle hy)
    | _ => exact hu.elim
  · obtain ⟨x', hx', -, hh, -⟩ := (hr.spares (a := .null) hx (fun choose hj => (ok choose hj).1) hu (Or.inl rfl) p).item y hy
    obtain rfl := hx.unique hx'
    exact Or.inr hh.symm

end HandleBridge
