/-
  HandleBridge.Proofs.Binding — how long an item keeps its binding.

  An item holds a handle when it has been bound to it: the item has the handle, and the entry of
  its id refers to the item and has the handle too (`World.Holds`). Few turns can change that for
  a given item: it is bound or registered anew, its id is forgotten, a report of the handle ends,
  or its handle is taken (`Job.Unsettles`). Whatever else a turn does, to other items, other
  handles or the registry itself, item and entry stay as they are as long as the item is there,
  and the registry does not set the delete slot of its handle (`World.Spares`).

  - `Reach.spares`: a turn that does not unsettle the item spares it.
  - `Runs.holds`: a binding that no turn unsettles is there at the end of the run.
  - `Runs.sprung`: what gets its turn was to be done, or was made due on the way.
-/
import HandleBridge.Proofs.Departure
import HandleBridge.Proofs.Teardown

namespace HandleBridge

namespace World

variable {w w' w'' : World} {ref : Ref} {id : ItemId} {a b : Handle}

/-! ## A binding -/

/-- The item and its entry have the handle. -/
structure Holds (w : World) (ref : Ref) (id : ItemId) (a : Handle) : Prop where
  item : ∃ x, w.IsItem ref x ∧ x.id = id ∧ x.handle = a
  entry : (w.registry .items).byId.get? id = some ⟨ref, a⟩

/-- How often the delete slot of `a` has been set by a call across the boundary. -/
def touched (w : World) (a : Handle) : Nat :=
  w.history.countP fun
    | .native (.itemDelCbSet h _) => decide (h = a)
    | _ => false

/-- From `w` to `w'` the delete slot of `a` is not set, and if the item is there still, item and
    entry are as they were. -/
structure Spares (w w' : World) (ref : Ref) (a : Handle) : Prop where
  nextRef : w.nextRef ≤ w'.nextRef
  touched : w'.touched a = w.touched a
  item : ∀ y, w'.IsItem ref y → ∃ x, w.IsItem ref x ∧ x.id = y.id ∧ x.handle = y.handle ∧
    (w'.registry .items).byId.get? y.id = (w.registry .items).byId.get? y.id

theorem Spares.refl (w : World) : w.Spares w ref a :=
  ⟨Nat.le_refl _, rfl, fun y hy => ⟨y, hy, rfl, rfl, rfl⟩⟩

theorem Spares.trans (h : w.Spares w' ref a) (h' : w'.Spares w'' ref a) : w.Spares w'' ref a := by
  refine ⟨Nat.le_trans h.nextRef h'.nextRef, h'.touched.trans h.touched, ?_⟩
  intro z hz
  obtain ⟨y, hy, hi, hh, he⟩ := h'.item z hz
  obtain ⟨x, hx, hi', hh', he'⟩ := h.item y hy
  refine ⟨x, hx, hi'.trans hi, hh'.trans hh, ?_⟩
  rw [he, ← hi, he']

/-- An item that is there still is the item that it was. -/
theorem Ages.item (h : w.Ages w') (ho : w.Ordered) {x y : Wrapper} (hx : w.IsItem ref x) (hy : w'.wrappers.get? ref = some y) :
    w'.IsItem ref y ∧ y.id = x.id := by
  rcases h.wrappers ref y hy with ⟨z, hz, hi, hs⟩ | ⟨hn, -⟩
  · obtain rfl : x = z := Option.some.inj (hx.1.symm.trans hz)
    exact ⟨⟨hy, hs.symm.trans hx.2⟩, hi.symm⟩
  · exact absurd (ho.refBelow ref x hx.1) (Nat.not_lt_of_le hn)

theorem Holds.spared (h : w.Holds ref id a) (hs : w.Spares w' ref b) {y : Wrapper} (hy : w'.IsItem ref y) :
    w'.Holds ref id a := by
  obtain ⟨x, hx, hi, hh, he⟩ := hs.item y hy
  obtain ⟨x', hx', hi', hh'⟩ := h.item
  obtain rfl := hx.unique hx'
  have hid : y.id = id := hi.symm.trans hi'
  rw [hid] at he
  exact ⟨⟨y, hy, hid, hh.symm.trans hh'⟩, he.trans h.entry⟩

/-! ## Changes that leave wrappers and entries alone -/

/-- The wrappers, the entries of the items, and how often the delete slot of `a` has been set. -/
def ties (w : World) (a : Handle) : Table Ref Wrapper × Nat × Table ItemId Entry × Nat :=
  (w.wrappers, w.nextRef, w.itemRegistry.byId, w.touched a)

theorem Spares.of_ties (h : w'.ties a = w.ties a) : w.Spares w' ref a := by
  simp only [ties, Prod.mk.injEq] at h
  obtain ⟨hx, hn, he, ht⟩ := h
  refine ⟨Nat.le_of_eq hn.symm, ht, ?_⟩
  intro y hy
  refine ⟨y, ⟨hx ▸ hy.1, hy.2⟩, rfl, rfl, ?_⟩
  show w'.itemRegistry.byId.get? y.id = w.itemRegistry.byId.get? y.id
  rw [he]

theorem touched_emit (w : World) {e : Event} (he : ∀ cb, e ≠ .native (.itemDelCbSet a cb)) :
    (w.emit e).touched a = w.touched a := by
  refine List.countP_cons_of_neg ?_
  split
  · rename_i h cb
    intro ha
    exact he cb (of_decide_eq_true ha ▸ rfl)
  · exact Bool.false_ne_true

theorem ties_emit (w : World) {e : Event} (he : ∀ cb, e ≠ .native (.itemDelCbSet a cb)) : (w.emit e).ties a = w.ties a := by
  simp only [ties, w.touched_emit he]
  rfl

@[simp] theorem ties_log (w : World) (r : Record) : (w.log r).ties a = w.ties a := w.ties_emit (by simp)

@[simp] theorem ties_answering (w : World) (x : Answer) : (w.answering x).ties a = w.ties a := rfl

@[simp] theorem ties_setBridge (w : World) (name : String) (b : Bridge) : (w.setBridge name b).ties a = w.ties a := rfl

@[simp] theorem ties_callToolkit (w : World) (c : NativeCall) : (w.callToolkit c).ties a = w.ties a := by
  unfold callToolkit
  cases w.toolkit.complaint c with
  | none => rfl
  | some r => exact w.ties_log r

theorem ties_native (w : World) {c : NativeCall} (hc : ∀ cb, c ≠ .itemDelCbSet a cb) : (w.native c).ties a = w.ties a := by
  unfold native
  rw [ties_callToolkit, ties_emit]
  intro cb e
  cases e
  exact hc cb rfl

theorem ties_withHandle (w : World) (ref : Ref) (f : Handle → World) (h : ∀ b, (f b).ties a = w.ties a) :
    (w.withHandle ref f).ties a = w.ties a := by
  unfold withHandle
  split
  · exact h _
  · rfl

@[simp] theorem ties_unregister (b : Bridge) (ts : List Trampoline) (w : World) : (w.unregister b ts).ties a = w.ties a := by
  induction ts generalizing w with
  | nil => rfl
  | cons t ts ih => exact (ih _).trans (w.ties_native (by simp))

@[simp] theorem ties_closeBridge (w : World) (b : Bridge) : (w.closeBridge b).ties a = w.ties a := by
  unfold closeBridge
  split
  · rfl
  · simp

theorem ties_addBridge (w : World) (name : String) (b : Bridge) : (w.addBridge name b).ties a = w.ties a := by
  simp only [addBridge]
  split <;> simp

theorem ties_dropBridge (w : World) (name : String) : (w.dropBridge name).ties a = w.ties a := by
  unfold dropBridge
  split
  · exact ties_closeBridge _ _
  · rfl

theorem ties_subscribe (w : World) (name : String) (b : Bridge) (handler : String) :
    (w.subscribe name b handler).ties a = w.ties a := by
  simp only [subscribe]
  split
  · rfl
  · simp only [ties_answering, ties_log]
    exact ties_native _ (by simp)

theorem ties_unsubscribe (w : World) (name : String) (b : Bridge) (handler : String) :
    (w.unsubscribe name b handler).ties a = w.ties a := by
  simp [unsubscribe]

@[simp] theorem ties_destroy (w : World) (h : Handle) : (w.destroy h).1.ties a = w.ties a := by
  unfold destroy
  split
  · exact w.ties_log _
  · exact ties_log _ _

@[simp] theorem ties_carryOut (w : World) (h : Handle) : (w.carryOut h).1.ties a = w.ties a := by
  unfold carryOut
  split
  · exact w.ties_destroy h
  · rfl

theorem ties_delete (w : World) (b : Ref) : (w.delete b).1.ties a = w.ties a := by
  by_cases hn : w.handleOf b = .null
  · simp only [delete, hn, Handle.isNull, Handle.null, beq_self_eq_true, if_true]
    rfl
  · rw [delete_eq hn, ties_carryOut, requested, ties_native _ (by simp), ties_log]
    rfl

theorem ties_countFlushed (w : World) : w.countFlushed.ties a = w.ties a := by
  unfold countFlushed
  split <;> rfl

theorem ties_endFlush (w : World) : w.endFlush.ties a = w.ties a := by
  unfold endFlush
  split <;> rfl

theorem ties_signal (w : World) (cb : SignalCallback) (object : Handle) (info : EventInfo) :
    (w.signal cb object info).1.ties a = w.ties a := by
  simp only [signal]
  split
  · rfl
  · split
    · split
      · rfl
      · exact (ties_emit _ (by simp)).trans rfl
      · split <;> rfl
    · exact w.ties_log _

theorem ties_nativeDelete (w : World) (space : Space) (h : Handle) : (w.nativeDelete space h).1.ties a = w.ties a := by
  have marked (v : World) (id : ItemId) :
      ((v.setRegistry space ((v.registry space).startDying h)).log (.nativeDelete id h)).ties a = v.ties a := by
    rw [ties_log]
    cases space <;> rfl
  simp only [nativeDelete]
  split
  · exact w.ties_log _
  · split
    · exact w.ties_log _
    · split
      · exact marked w _
      · exact marked w _

theorem ties_runSlot (w : World) (cb : DeleteCallback) (h : Handle) : (w.runSlot cb h).1.ties a = w.ties a := by
  unfold runSlot
  split
  · rfl
  · split <;> rfl

/-! ## Changes of other wrappers and entries -/

theorem spares_modifyWrapper (w : World) (b : Ref) {f : Wrapper → Wrapper}
    (hf : ∀ x, (f x).id = x.id ∧ (f x).space = x.space) (hh : b = ref → ∀ x, (f x).handle = x.handle) :
    w.Spares (w.modifyWrapper b f) ref a := by
  refine ⟨Nat.le_refl _, rfl, ?_⟩
  intro y hy
  rcases isItem_modifyWrapper (fun x => (hf x).2) hy with ⟨rfl, x, hx, rfl⟩ | ⟨-, hy⟩
  · exact ⟨x, hx, (hf x).1.symm, (hh rfl x).symm, rfl⟩
  · exact ⟨y, hy, rfl, rfl, rfl⟩

theorem spares_setHandle (w : World) {b : Ref} (hb : b ≠ ref) (h : Handle) : w.Spares (w.setHandle b h) ref a :=
  w.spares_modifyWrapper b (fun _ => ⟨rfl, rfl⟩) fun e => absurd e hb

theorem spares_addWrapper (w : World) (hr : ref.serial < w.nextRef) (x : Wrapper) : w.Spares (w.addWrapper x) ref a := by
  refine ⟨Nat.le_succ _, rfl, ?_⟩
  intro y hy
  rcases isItem_addWrapper hy with ⟨rfl, -⟩ | hy
  · exact absurd hr (Nat.lt_irrefl _)
  · exact ⟨y, hy, rfl, rfl, rfl⟩

/-- A registry may give out ids. -/
theorem spares_setRegistry (w : World) {space : Space} {r : Registry} (he : r.byId = (w.registry space).byId) :
    w.Spares (w.setRegistry space r) ref a := by
  refine .of_ties ?_
  cases space
  · show (w.wrappers, w.nextRef, r.byId, w.touched a) = w.ties a
    rw [he]
    rfl
  · rfl

theorem spares_forget (w : World) {space : Space} {id : ItemId}
    (hi : ∀ x, w.IsItem ref x → space = .items → x.id ≠ id) : w.Spares (w.forget space id) ref a := by
  have touched : (w.forget space id).touched a = w.touched a := by
    unfold forget
    split
    · rw [log, touched_emit _ (by simp)]
      cases space <;> rfl
    · rfl
  refine ⟨Nat.le_of_eq (w.nextRef_forget space id).symm, touched, ?_⟩
  intro y hy
  rw [IsItem, wrappers_forget] at hy
  refine ⟨y, hy, rfl, rfl, ?_⟩
  rw [registry_forget]
  split
  · rename_i hs
    subst hs
    rw [Registry.byId_forget, if_neg (hi y hy rfl)]
  · rfl

/-- Letting go of a wrapper: the item itself may be freed, and another takes its own entry only. -/
theorem spares_release (ht : w.Tracked) (b : Ref) : w.Spares (w.release b) ref a := by
  cases hh : w.isHeld b
  · rcases hx : w.wrappers.get? b with _ | x
    · rw [release_of_gone hx]
      exact .refl w
    · have erased : w.Spares { w with wrappers := w.wrappers.erase b } ref a :=
        ⟨Nat.le_refl _, rfl, fun y hy => ⟨y, (isItem_erase hy).2, rfl, rfl, rfl⟩⟩
      cases hs : x.space
      · rw [release_item hx hh hs]
        refine erased.trans (spares_forget _ ?_)
        intro y hy _ hi
        obtain ⟨hne, hy⟩ := isItem_erase hy
        exact hne (ht.unique ref b y x hy ⟨hx, hs⟩ hi)
      · rw [release_probe hx hh hs]
        exact erased
  · rw [release_of_held hh]
    exact .refl w

theorem spares_asideRelease (ht : w.Tracked) (b : Ref) (hw : w'.core = w.core) (hs : w'.ties a = w.ties a) :
    w.Spares (w'.release b) ref a := by
  obtain ⟨-, hr, hx, -⟩ := core_eq hw
  have tracked : w'.Tracked := by
    refine ⟨fun id e he => ?_, fun b b' x x' hb hb' => ht.unique b b' x x' ⟨hx ▸ hb.1, hb.2⟩ ⟨hx ▸ hb'.1, hb'.2⟩⟩
    rw [hr] at he
    rw [isLive, hx]
    exact ht.live id e he
  exact (Spares.of_ties hs).trans (spares_release tracked b)

theorem spares_unpin (ht : w.Tracked) (p : Pin) : w.Spares (w.unpin p) ref a := by
  cases p with
  | wrapper b => exact spares_asideRelease ht b rfl rfl
  | registry space => exact .of_ties rfl
  | sender s => exact .of_ties rfl

theorem spares_nameItem (ht : w.Tracked) (name : String) (b : Ref) : w.Spares (w.nameItem name b) ref a := by
  simp only [nameItem]
  split
  · exact spares_asideRelease ht _ rfl rfl
  · exact .of_ties rfl

theorem spares_nameProbe (ht : w.Tracked) (name : String) (b : Ref) : w.Spares (w.nameProbe name b) ref a := by
  simp only [nameProbe]
  split
  · exact spares_asideRelease ht _ rfl rfl
  · exact .of_ties rfl

theorem spares_dropItemName (ht : w.Tracked) (name : String) : w.Spares (w.dropItemName name) ref a := by
  unfold dropItemName
  split
  · exact spares_asideRelease ht _ rfl rfl
  · exact .refl w

theorem spares_dropProbeName (ht : w.Tracked) (name : String) : w.Spares (w.dropProbeName name) ref a := by
  unfold dropProbeName
  split
  · exact spares_asideRelease ht _ rfl rfl
  · exact .refl w

/-- The delete slot of `a` is set when a wrapper is moved from `a` or to it. -/
theorem touched_register (w : World) (b : Ref) {h : Handle} (hp : a ≠ (w.registry (w.spaceOf b)).handleOf (w.idOf b) ∨ a = .null)
    (hh : a ≠ h ∨ a = .null) : (w.register b h).1.touched a = w.touched a := by
  have set (v : World) {h : Handle} (cb : Option DeleteCallback) (hh : a ≠ h ∨ a = .null) :
      (if h.isNull then v else v.native (.itemDelCbSet h cb)).touched a = v.touched a := by
    split
    · rfl
    · rename_i hn
      refine congrArg (·.2.2.2) (v.ties_native (a := a) ?_)
      rintro cb ⟨⟩
      rcases hh with hh | rfl
      · exact hh rfl
      · exact hn rfl
  have logged (v : World) (r : Record) : (v.log r).touched a = v.touched a := v.touched_emit (by simp)
  simp only [register]
  split
  · exact logged _ _
  · split
    · exact logged _ _
    · rw [logged, set _ _ hh]
      refine Eq.trans ?_ (set w none hp)
      cases w.spaceOf b <;> rfl

/-- The entry of an item that is there is not the one that a wrapper takes over. -/
theorem Tracked.not_taken (ht : w.Tracked) (ho : w.Ordered) {other : ItemId} {h : Handle}
    (hc : (w.registry .items).conflict? w.isLive other h = none) (hne : id ≠ other) :
    (w.registry .items).byHandle.get? h ≠ some id := by
  intro hm
  obtain ⟨hn, e, he, -⟩ := ((ho.coherent .items).mapped_iff h id).mp hm
  have gone := Registry.owner_gone hc hn hm hne
  simp [Registry.lookupId, he, ht.live id e he] at gone

theorem Tracked.other_id (ht : w.Tracked) {b : Ref} {x : Wrapper} (hl : w.isLive b = true) (hs : w.spaceOf b = .items)
    (hx : w.IsItem ref x) (hb : b ≠ ref) : x.id ≠ w.idOf b := by
  obtain ⟨y, hy⟩ := (w.isLive_iff b).mp hl
  intro e
  rw [idOf_eq hy] at e
  exact hb (ht.unique b ref y x ⟨hy, (spaceOf_eq hy).symm.trans hs⟩ hx e.symm)

/-- Another item is registered: it was not at `a` before, and would be refused there. -/
theorem Holds.untouched (hold : w.Holds ref id a) (ho : w.Ordered) (ht : w.Tracked) {b : Ref} {h : Handle}
    (hl : w.isLive b = true) (hs : w.spaceOf b = .items) (hb : b ≠ ref)
    (hc : (w.registry .items).conflict? w.isLive (w.idOf b) h = none) (ha : a ≠ .null) :
    a ≠ (w.registry .items).handleOf (w.idOf b) ∧ a ≠ h := by
  obtain ⟨x, hx, hi, -⟩ := hold.item
  have other : id ≠ w.idOf b := hi ▸ ht.other_id hl hs hx hb
  constructor
  · intro e
    rcases he : (w.registry .items).byId.get? (w.idOf b) with _ | e'
    · simp only [Registry.handleOf, he, Option.map_none, Option.getD_none] at e
      exact ha e
    · simp only [Registry.handleOf, he, Option.map_some, Option.getD_some] at e
      exact other ((ho.coherent .items).id_inj hold.entry he ha e)
  · rintro rfl
    exact ht.not_taken ho hc other (((ho.coherent .items).mapped_iff a id).mpr ⟨ha, _, hold.entry, rfl⟩)

/-- Another wrapper is registered. If it is a probe, that is another registry's doing, and the delete
    slot of the item's handle may be set. -/
theorem spares_register (ho : w.Ordered) (ht : w.Tracked) {b : Ref} (hl : w.isLive b = true) (hb : b ≠ ref) (h : Handle)
    (ha : a = .null ∨ (w.spaceOf b = .items ∧ ∃ id, w.Holds ref id a)) : w.Spares (w.register b h).1 ref a := by
  rcases hr : (w.registry (w.spaceOf b)).conflict? w.isLive (w.idOf b) h with _ | owner
  · cases hbound : (w.registry (w.spaceOf b)).isBoundTo (w.idOf b) h
    · have hc : w.CanAttach b h := ⟨hr, hbound⟩
      obtain ⟨-, registry, wrappers, nextRef⟩ := core_eq (core_register hc).1
      refine ⟨Nat.le_of_eq (nextRef.trans (w.nextRef_attach b h)).symm, ?_, ?_⟩
      · rcases ha with rfl | ⟨hs, id, hold⟩
        · exact w.touched_register b (Or.inr rfl) (Or.inr rfl)
        · by_cases hn : a = .null
          · exact w.touched_register b (Or.inr hn) (Or.inr hn)
          · have away := hold.untouched ho ht hl hs hb (hs ▸ hr) hn
            exact w.touched_register b (Or.inl (hs ▸ away.1)) (Or.inl away.2)
      · intro y hy
        rw [IsItem, wrappers, wrappers_attach] at hy
        refine ⟨y, hy, rfl, rfl, ?_⟩
        rw [registry, registry_attach]
        split
        · rename_i hs
          have other : y.id ≠ w.idOf b := ht.other_id hl hs.symm hy hb
          obtain ⟨byId, -, -⟩ := Registry.tables_bind (ho.coherent .items) (hs ▸ hbound) b
          rw [byId, if_neg other, if_neg (ht.not_taken ho (hs ▸ hr) other)]
        · rfl
    · rw [register_again hr hbound]
      exact .of_ties (w.ties_log _)
  · rw [register_refused hr]
    exact .of_ties (w.ties_log _)

theorem spares_bind (ho : w.Ordered) (ht : w.Tracked) {b : Ref} (hl : w.isLive b = true) (hb : b ≠ ref) (h : Handle)
    (ha : a = .null ∨ (w.spaceOf b = .items ∧ ∃ id, w.Holds ref id a)) : w.Spares (w.bind b h).1 ref a := by
  have registered := spares_register ho ht hl hb h ha
  rcases hr : (w.register b h).2 with _ | e
  · rw [bind_accepted hr]
    exact registered.trans (spares_setHandle _ hb h)
  · rw [bind_refused hr]
    exact registered

theorem Spares.ofResult {r : World × Option BindError} (h : w.Spares r.1 ref a) : w.Spares (ofResult r) ref a := by
  rcases r with ⟨w', _ | e⟩
  · exact h.trans (.of_ties rfl)
  · exact h.trans (.of_ties rfl)

/-- What the registry refuses changes nothing. -/
theorem spares_refused {b : Ref} {h : Handle} (hr : (w.register b h).2 ≠ none) :
    w.Spares (w.register b h).1 ref a ∧ w.Spares (w.bind b h).1 ref a := by
  rcases hc : (w.registry (w.spaceOf b)).conflict? w.isLive (w.idOf b) h with _ | owner
  · cases hb : (w.registry (w.spaceOf b)).isBoundTo (w.idOf b) h
    · exact absurd (core_register ⟨hc, hb⟩).2 hr
    · rw [register_again hc hb] at hr
      exact absurd rfl hr
  · have same : w.Spares (w.register b h).1 ref a := by
      rw [register_refused hc]
      exact .of_ties (w.ties_log _)
    rw [bind_refused (by rw [register_refused hc])]
    exact ⟨same, same⟩

/-! ## Operations -/

theorem tidy_moves {k : Conduct} (ho : w.Ordered) (ht : w.Tracked) (h : Moves k w w') : w'.Ordered ∧ w'.Tracked :=
  h.keeps (I := fun v => v.Ordered ∧ v.Tracked)
    (fun _ _ hv hm => ⟨ordered_move hv.1 hm, (passes_move hv.1 hm).tracked hv.1 hv.2⟩) ⟨ho, ht⟩

theorem spares_withFreshId (w : World) (space : Space) (f : World → ItemId → World)
    (h : ∀ id r, (w.registry space).allocate? = some (id, r) → w.Spares (f (w.setRegistry space r) id) ref a) :
    w.Spares (w.withFreshId space f) ref a := by
  unfold withFreshId
  rcases ha : (w.registry space).allocate? with _ | ⟨id, r⟩
  · exact .of_ties (w.ties_log _)
  · exact h id r ha

theorem spares_allocate (w : World) {space : Space} {r : Registry} (ha : (w.registry space).allocate? = some (id, r)) :
    w.Spares (w.setRegistry space r) ref a := by
  obtain ⟨-, rfl⟩ := Registry.allocate_eq ha
  exact w.spares_setRegistry rfl

theorem spares_create (w : World) {space : Space} {r : Registry} (hr : ref.serial < w.nextRef)
    (ha : (w.registry space).allocate? = some (id, r)) (kind : WrapperKind) :
    w.Spares ((w.setRegistry space r).addWrapper (.fresh id kind)) ref a := by
  refine (w.spares_allocate ha).trans (spares_addWrapper _ ?_ _)
  rw [nextRef_setRegistry]
  exact hr

theorem spares_newItem (ho : w.Ordered) (ht : w.Tracked) (hr : ref.serial < w.nextRef) (name : String) :
    w.Spares (w.newItem name) ref a := by
  refine w.spares_withFreshId .items _ fun id r ha => ?_
  obtain ⟨-, tracked⟩ := tidy_moves (k := .free) ho ht (.of_move (.create w .items id r .plain ha rfl))
  exact (w.spares_create hr ha .plain).trans ((spares_nameItem tracked name _).trans (.of_ties rfl))

theorem spares_newProbe (ho : w.Ordered) (ht : w.Tracked) (hr : ref.serial < w.nextRef) (name : String) (bare : Bool)
    {id : Option ItemId} (hid : ∀ i, id = some i → i.val < w.bareRegistry.nextId) :
    w.Spares (w.newProbe name bare id) ref a := by
  unfold newProbe
  rcases id with _ | i
  · refine w.spares_withFreshId .bare _ fun i r ha => ?_
    obtain ⟨-, tracked⟩ := tidy_moves (k := .free) ho ht (.of_move (.create w .bare i r (.probe name bare) ha rfl))
    exact (w.spares_create hr ha (.probe name bare)).trans ((spares_nameProbe tracked name _).trans (.of_ties rfl))
  · obtain ⟨-, tracked⟩ := tidy_moves (k := .free) ho ht (.of_move (.share w i name bare (hid i rfl)))
    exact (w.spares_addWrapper hr (.fresh i (.probe name bare))).trans
      ((spares_nameProbe tracked name _).trans (.of_ties rfl))

theorem spares_newGrid (ho : w.Ordered) (ht : w.Tracked) {x : Wrapper} (hx : w.IsItem ref x) (h : Handle) (data : RowData)
    (name : Option String) (ha : a = .null ∨ ∃ id, w.Holds ref id a) : w.Spares (w.newGrid h data name) ref a := by
  have hr : ref.serial < w.nextRef := ho.refBelow ref x hx.1
  refine w.spares_withFreshId .items _ fun id r hall => ?_
  let fresh := (w.setRegistry .items r).freshRef
  let made := (w.setRegistry .items r).addWrapper (.fresh id (.grid (some data)))
  have create : Moves .free w made := .of_move (.create w .items id r _ hall rfl)
  obtain ⟨ordered, tracked⟩ := tidy_moves ho ht create
  have other : fresh ≠ ref := by
    rintro rfl
    exact absurd hr (Nat.lt_irrefl _)
  have still : made.IsItem ref x := by
    refine ⟨?_, hx.2⟩
    show ((w.wrappers.insert fresh _).get? ref) = some x
    rw [Table.get?_insert, if_neg other.symm]
    exact hx.1
  have spared {b : Handle} : w.Spares made ref b := w.spares_create hr hall _
  have live : made.isLive fresh = true := isLive_addWrapper _ _
  have space : made.spaceOf fresh = .items := spaceOf_addWrapper _ _
  have bound : w.Spares (made.bind fresh h).1 ref a := by
    refine spared.trans (spares_bind ordered tracked live other h (ha.imp_right fun ⟨i, hold⟩ => ⟨space, i, ?_⟩))
    exact hold.spared (spared (b := a)) still
  have binds : Moves .free made (made.bind fresh h).1 := made.moves_bind fresh h live trivial trivial
  obtain ⟨-, tracked'⟩ := tidy_moves ordered tracked binds
  simp only
  rcases hb : made.bind fresh h with ⟨w', _ | e⟩
  all_goals rw [hb] at bound tracked'
  · rcases name with _ | name
    · exact bound.trans ((spares_release tracked' fresh).trans (.of_ties rfl))
    · exact bound.trans ((spares_nameItem tracked' name fresh).trans (.of_ties rfl))
  · exact bound.trans ((spares_release tracked' fresh).trans (.of_ties rfl))

theorem spares_setContent (w : World) (b : Ref) (part : Part) (content : Handle) (preserve : Bool) :
    w.Spares (w.setContent b part content preserve) ref a := by
  unfold setContent withHandle
  split
  · rename_i h _
    have unset : w.Spares (w.native (.partContentUnset h part)) ref a := .of_ties (w.ties_native (by simp))
    have put (v : World) : v.Spares (((v.native (.partContentSet h part content)).modifyWrapper b fun x =>
        { x with contents := x.contents.insert (Wrapper.cacheKey part) content }).answering .none) ref a := by
      have filled : v.Spares (v.native (.partContentSet h part content)) ref a := .of_ties (v.ties_native (by simp))
      have cached (v : World) : v.Spares (v.modifyWrapper b fun x =>
          { x with contents := x.contents.insert (Wrapper.cacheKey part) content }) ref a :=
        v.spares_modifyWrapper b (fun _ => ⟨rfl, rfl⟩) fun _ _ => rfl
      exact filled.trans ((cached _).trans (.of_ties rfl))
    refine unset.trans (Spares.trans ?_ (put _))
    split
    · exact .refl _
    · exact .of_ties ((ties_native _ (by simp)).trans (ties_log _ _))
  · exact .of_ties rfl

end World

/-- The operation gives the item another binding, or takes the one that it has. -/
def Op.Unsettles (w : World) (ref : Ref) (id : ItemId) : Op → Prop
  | .bind b h | .register b h => b = ref ∧ (w.register b h).2 = none
  | .forget space i => space = .items ∧ i = id
  | _ => False

/-- The operation binds a probe, in the registry of its own. -/
def Op.MovesProbe (w : World) : Op → Prop
  | .bind b _ | .register b _ => w.spaceOf b = .bare
  | _ => False

theorem Space.eq_items {s : Space} (h : s ≠ .bare) : s = .items := by
  cases s
  · rfl
  · exact absurd rfl h

theorem World.spares_perform {w : World} {ref : Ref} {a : Handle} {x : Wrapper} (ho : w.Ordered) (ht : w.Tracked)
    (hx : w.IsItem ref x) {op : Op} (typed : op.Typed w) (hu : ¬ op.Unsettles w ref x.id)
    (ha : a = .null ∨ (¬ op.MovesProbe w ∧ ∃ id, w.Holds ref id a)) : w.Spares (w.perform op).1 ref a := by
  have hr : ref.serial < w.nextRef := ho.refBelow ref x hx.1
  have tied {w' : World} (h : w'.ties a = w.ties a) : w.Spares w' ref a := .of_ties h
  have answered {w' : World} {x : Answer} (h : w.Spares w' ref a) : w.Spares (w'.answering x) ref a :=
    h.trans (.of_ties rfl)
  have called (b : Ref) (c : Handle → NativeCall) (x : Handle → Answer) (hc : ∀ h cb, c h ≠ .itemDelCbSet a cb) :
      w.Spares (w.withHandle b fun h => (w.native (c h)).answering (x h)) ref a :=
    tied (w.ties_withHandle b _ fun h => w.ties_native (hc h))
  have items {b : Ref} (hp : a = .null ∨ (¬ w.spaceOf b = .bare ∧ ∃ id, w.Holds ref id a)) :
      a = .null ∨ (w.spaceOf b = .items ∧ ∃ id, w.Holds ref id a) :=
    hp.imp_right fun hp => ⟨Space.eq_items hp.1, hp.2⟩
  cases op with
  | report verb => exact tied (w.ties_emit (by simp))
  | note r => exact tied (w.ties_log r)
  | destroy h => exact answered (tied (w.ties_destroy h))
  | fire object event info => exact tied (w.ties_log _)
  | native c =>
    cases c with
    | itemDel h => exact tied ((World.ties_carryOut _ h).trans (w.ties_callToolkit _))
    | _ => exact answered (tied (w.ties_callToolkit _))
  | newGrid h data name => exact World.spares_newGrid ho ht hx h data name (ha.imp_right fun hp => hp.2)
  | newItem name => exact World.spares_newItem ho ht hr name
  | nameItem name b => exact answered (World.spares_nameItem ht name b)
  | dropItem name => exact answered (World.spares_dropItemName ht name)
  | setEnabled b v => exact called b (fun h => .disabledSet h (!v)) (fun _ => .none) (by simp)
  | isEnabled b => exact called b .disabledGet (fun h => .flag (!w.toolkit.disabled h)) (by simp)
  | setText b part text => exact called b (.partTextSet · part text) (fun _ => .none) (by simp)
  | text b part => exact called b (.partTextGet · part) (fun h => .text (w.toolkit.partText h part)) (by simp)
  | setContent b part content preserve => exact w.spares_setContent b part content preserve
  | setSelected b v => exact called b (.selectedSet · v) (fun _ => .none) (by simp)
  | isSelected b => exact called b .selectedGet (fun h => .flag (w.toolkit.selected h)) (by simp)
  | update b => exact called b .update (fun _ => .none) (by simp)
  | onDeleted b handler => exact answered (w.spares_modifyWrapper b (fun _ => ⟨rfl, rfl⟩) fun _ _ => rfl)
  | removeDeleted b handler => exact answered (w.spares_modifyWrapper b (fun _ => ⟨rfl, rfl⟩) fun _ _ => rfl)
  | bind b h =>
    by_cases hb : b = ref
    · exact (World.spares_refused fun e => hu ⟨hb, e⟩).2.ofResult
    · exact (World.spares_bind ho ht typed.1 hb h (items ha)).ofResult
  | register b h =>
    by_cases hb : b = ref
    · exact (World.spares_refused fun e => hu ⟨hb, e⟩).1.ofResult
    · exact (World.spares_register ho ht typed.1 hb h (items ha)).ofResult
  | delete b => exact tied (w.ties_delete b)
  | nextId space =>
    refine w.spares_withFreshId space (fun w id => w.answering (.id id)) fun id r hall => ?_
    exact answered (w.spares_allocate hall)
  | forget space i =>
    refine answered (w.spares_forget fun y hy hs hi => hu ⟨hs, ?_⟩)
    obtain rfl := hx.unique hy
    exact hi.symm
  | letGo space => cases space <;> exact tied rfl
  | newProbe name bare id =>
    refine World.spares_newProbe ho ht hr name bare fun i e => ?_
    subst e
    exact typed
  | setHandle b h =>
    refine answered (w.spares_setHandle ?_ h)
    rintro rfl
    obtain ⟨y, hy, hs⟩ := typed
    exact World.not_item_of_probe ((World.spaceOf_eq hy).trans hs) hx
  | dropProbe name => exact answered (World.spares_dropProbeName ht name)
  | newBridge name b => exact tied (w.ties_addBridge name b)
  | dropBridge name => exact tied (w.ties_dropBridge name)
  | subscribe name b handler => exact tied (w.ties_subscribe name b handler)
  | unsubscribe name b handler => exact tied (w.ties_unsubscribe name b handler)
  | shutdown name b => exact tied (World.ties_closeBridge _ b)
  | detach name b => exact answered (tied (World.ties_log _ _))
  | _ => exact tied rfl

/-! ## Turns -/

namespace World

variable {w : World} {ref : Ref} {a : Handle} {x : Wrapper}

theorem spares_invalidate (w : World) (b : Ref) : w.Spares (w.invalidate b).1 ref a := by
  have clear (v : World) : v.Spares (v.modifyWrapper b (·.cleared)) ref a :=
    v.spares_modifyWrapper b (fun x => ⟨rfl, x.space_cleared⟩) fun _ _ => rfl
  unfold invalidate
  split
  · exact .refl w
  · split
    · exact clear w
    · exact (Spares.of_ties (w.ties_log _)).trans (clear _)
    · exact .refl w

theorem spares_releaseHandle (w : World) {b : Ref} (hb : b ≠ ref) : w.Spares (w.releaseHandle b) ref a := by
  simp only [releaseHandle]
  split
  · exact (Spares.of_ties (w.ties_emit (by simp))).trans (spares_setHandle _ hb .null)
  · exact w.spares_setHandle hb .null

theorem touched_reportEnd (w : World) (space : Space) (h : Handle) (id : ItemId) (wrapper : Option Ref) :
    (w.reportEnd space h id wrapper).touched a = w.touched a := by
  have tables (r : Registry) : (w.setRegistry space r).touched a = w.touched a := by cases space <;> rfl
  have released (v : World) (b : Ref) : (v.releaseHandle b).touched a = v.touched a := by
    simp only [releaseHandle]
    split
    · exact v.touched_emit (by simp)
    · rfl
  simp only [reportEnd]
  split
  · exact (touched_emit _ (by simp)).trans (tables _)
  · split
    · split
      · exact (released _ _).trans (tables _)
      · exact tables _
    · exact tables _

/-- A report ends that is not one of the item's handle. -/
theorem spares_settle (ho : w.Ordered) (ht : w.Tracked) (hx : w.IsItem ref x) {space : Space} {h : Handle} {id : ItemId}
    {wrapper : Option Ref} (known : ∀ b, wrapper = some b → ∃ y, w.wrappers.get? b = some y ∧ y.id = id ∧ y.space = space)
    (hu : ¬ (space = .items ∧ id = x.id ∧ (w.registry .items).isElsewhere x.id h = false)) :
    w.Spares (w.settle space h id wrapper) ref a := by
  let ended := w.reportEnd space h id wrapper
  obtain ⟨-, registry, wrappers, nextRef⟩ := core_eq (w.core_reportEnd space h id wrapper)
  have passes : w.Passes (w.settled space h id wrapper) := w.passes_settled space h id wrapper
  have wrapper_kept : ended.wrappers.get? ref = w.wrappers.get? ref := by
    rw [wrappers, wrapper_settled, if_neg]
    rintro ⟨hw, he, -⟩
    obtain ⟨y, hy, rfl, rfl⟩ := known ref hw
    obtain rfl : x = y := Option.some.inj (hx.1.symm.trans hy)
    exact hu ⟨hx.2, rfl, hx.2 ▸ he⟩
  have spared : w.Spares ended ref a := by
    refine ⟨?_, w.touched_reportEnd space h id wrapper, ?_⟩
    · rw [nextRef]
      exact passes.nextRef
    · intro y hy
      rw [IsItem, wrapper_kept] at hy
      obtain rfl := hx.unique hy
      refine ⟨x, hy, rfl, rfl, ?_⟩
      rw [registry, registry_settled]
      split
      · rename_i hs
        subst hs
        rw [Registry.byId_endDying, if_neg]
        rintro ⟨rfl, he⟩
        exact hu ⟨rfl, rfl, he⟩
      · rfl
  have aside : Moves .free (w.settled space h id wrapper) ended := .aside (w.core_reportEnd space h id wrapper)
  obtain ⟨-, tracked⟩ := tidy_moves (ordered_settled ho space h id wrapper) (passes.tracked ho ht) aside
  rw [settle_eq]
  cases wrapper with
  | none => exact spared
  | some b => exact spared.trans (spares_unpin tracked (.wrapper b))

end World

/-- The turn gives the item another binding, or takes the one that it has. -/
def Job.Unsettles (w : World) (ref : Ref) (id : ItemId) : Job → Prop
  | .act choose => (choose w).Unsettles w ref id
  | .settle space h i _ => space = .items ∧ i = id ∧ (w.registry .items).isElsewhere id h = false
  | .releaseHandle b => b = ref
  | _ => False

def Job.MovesProbe (w : World) : Job → Prop
  | .act choose => (choose w).MovesProbe w
  | _ => False

/-- The wrapper that a report was made to is there, and has the id that the report is about. -/
theorem Reach.reported_wrapper {k : Conduct} {c : State} (h : Reach k c) {space : Space} {a : Handle} {id : ItemId} {b : Ref}
    (hs : .settle space a id (some b) ∈ jobs c.tasks) :
    ∃ y, c.world.wrappers.get? b = some y ∧ y.id = id ∧ y.space = space := by
  obtain ⟨course, rfl⟩ := h.course
  obtain ⟨live, i, hi, found, there⟩ := course.kept (Nat.le_refl _) hs
  obtain ⟨y, hy⟩ := (World.isLive_iff _ b).mp live
  obtain ⟨x, hx⟩ := (World.isLive_iff _ b).mp there
  obtain ⟨same, space_same⟩ := course.same_id (Nat.le_of_lt hi) (Nat.le_refl _) hx hy
  have ordered := (course.reach (Nat.le_of_lt hi)).ordered
  simp only [World.lookupId, Registry.lookupId] at found
  split at found
  · rename_i e he
    split at found
    · cases found
      obtain ⟨hid, hspace⟩ := ordered.entryOwn space id e x he hx
      exact ⟨y, hy, same.symm.trans hid, space_same.symm.trans hspace⟩
    · cases found
  · cases found

/-- A turn that does not unsettle an item spares it; in particular the delete slot of its handle is
    not set, unless another registry does it. -/
theorem Reach.spares {k : Conduct} {w : World} {t : Task} {ts : List Task} (hr : Reach k ⟨w, t :: ts⟩) {ref : Ref} {x : Wrapper}
    {a : Handle} (hx : w.IsItem ref x) (typed : ∀ choose, t.job = .act choose → (choose w).Typed w)
    (hu : ¬ t.job.Unsettles w ref x.id) (ha : a = .null ∨ (¬ t.job.MovesProbe w ∧ ∃ id, w.Holds ref id a)) (p : Program) :
    w.Spares (p.expand t w).1 ref a := by
  have ho : w.Ordered := hr.ordered
  have ht : w.Tracked := hr.tracked
  obtain ⟨level, job⟩ := t
  cases job with
  | enter c =>
    refine .of_ties ?_
    cases level with
    | zero => exact w.ties_emit (by simp)
    | succ level => exact (w.ties_emit (e := .called c.handler (w.argsOf c)) (by simp) :)
  | act choose => exact World.spares_perform ho ht hx (typed choose rfl) hu ha
  | leave c => exact .of_ties (w.ties_emit (e := .ended c.handler) (by simp) :)
  | slot cb h => exact .of_ties (w.ties_runSlot cb h)
  | nativeDelete space h => exact .of_ties (w.ties_nativeDelete space h)
  | invalidate b => exact w.spares_invalidate b
  | settle space h id wrapper =>
    refine World.spares_settle ho ht hx (fun b hb => ?_) hu
    subst hb
    exact hr.reported_wrapper (List.mem_cons_self ..)
  | signal cb object info => exact .of_ties (w.ties_signal cb object info)
  | destroyQueued h =>
    refine .of_ties ((World.ties_destroy _ h).trans ?_)
    split
    · exact w.ties_countFlushed
    · rfl
  | endFlush => exact .of_ties w.ties_endFlush
  | releaseHandle b => exact w.spares_releaseHandle hu
  | unpin pin => exact World.spares_unpin ht pin
  | answer x => exact .of_ties rfl

namespace World

variable {w : World} {ref : Ref} {x : Wrapper}

/-- What binding that is not refused comes to. -/
theorem holds_bind (ho : w.Ordered) (ht : w.Tracked) (hx : w.IsItem ref x) {h : Handle} (hr : (w.register ref h).2 = none) :
    (w.bind ref h).1.Holds ref x.id h := by
  have hs : w.spaceOf ref = .items := (spaceOf_eq hx.1).trans hx.2
  have hid : w.idOf ref = x.id := idOf_eq hx.1
  have given {v : World} (hv : v.wrappers = w.wrappers) :
      ∃ y, (v.setHandle ref h).IsItem ref y ∧ y.id = x.id ∧ y.handle = h := by
    refine ⟨{ x with handle := h }, ⟨?_, hx.2⟩, rfl, rfl⟩
    simp only [setHandle, modifyWrapper, Table.get?_modify, if_true, hv, hx.1, Option.map_some]
  rw [bind_accepted hr]
  rcases w.register_cases ref h with ⟨⟨e, he⟩, -⟩ | ⟨-, hc, hb⟩ | ⟨-, hc, core⟩
  · rw [hr] at he
    cases he
  · obtain ⟨-, registry, wrappers, -⟩ := core_eq hc
    refine ⟨given wrappers, ?_⟩
    rw [hs, hid, Registry.isBoundTo_eq] at hb
    obtain ⟨e, he, rfl⟩ := Option.map_eq_some_iff.mp hb
    obtain ⟨y, hy, hi⟩ := ht.item ho he
    obtain rfl : e.wrapper = ref := ht.unique _ _ y x hy hx hi
    show ((w.register e.wrapper e.handle).1.registry .items).byId.get? x.id = some e
    rw [registry, he]
  · obtain ⟨-, registry, wrappers, -⟩ := core_eq core
    refine ⟨given (wrappers.trans (w.wrappers_attach ref h)), ?_⟩
    have hb := hc.2
    rw [hs] at hb
    show ((w.register ref h).1.registry .items).byId.get? x.id = some ⟨ref, h⟩
    rw [registry, registry_attach, if_pos hs.symm, (Registry.tables_bind (ho.coherent .items) hb ref).1, if_pos hid.symm]

end World

/-! ## Runs -/

/-- The turn takes the binding to `a` from the item, or gives it another. -/
def Job.Undoes (w : World) (ref : Ref) (id : ItemId) (a : Handle) : Job → Prop
  | .act choose => (choose w).Unsettles w ref id
  | .settle space h i _ => space = .items ∧ h = a ∧ i = id
  | .releaseHandle b => b = ref
  | _ => False

theorem World.Holds.undoes {w : World} {ref : Ref} {id : ItemId} {a : Handle} (hold : w.Holds ref id a) {j : Job}
    (hu : j.Unsettles w ref id) : j.Undoes w ref id a := by
  cases j with
  | act choose => exact hu
  | settle space h i wrapper =>
    obtain ⟨hs, hi, he⟩ := hu
    refine ⟨hs, ?_, hi⟩
    simp only [Registry.isElsewhere, hold.entry, decide_eq_false_iff_not, not_not] at he
    exact he.symm
  | releaseHandle b => exact hu
  | _ => exact hu.elim

namespace Runs

variable {k : Conduct} {ts us : List Task} {w w' : World} {vs : List (Task × World)}

/-- Every turn on the way is reached, and what the turns keep holds at each of them. -/
theorem along (h : Runs ts w vs w') (hr : Reach k ⟨w, ts ++ us⟩)
    (ok : ∀ v ∈ vs, ∀ choose, v.1.job = .act choose → k.Allows v.2 (choose v.2)) {I : World → Prop}
    (step : ∀ (p : Program) t rest u, (t, u) ∈ vs → Reach k ⟨u, t :: rest⟩ → I u → I (p.expand t u).1) (hi : I w) :
    I w' ∧ ∀ v ∈ vs, I v.2 := by
  induction h with
  | done w => exact ⟨hi, fun v hv => by cases hv⟩
  | @task p t ts w w' vs _ ih =>
    have now : (t, w) ∈ (t, w) :: vs := List.mem_cons_self ..
    obtain ⟨last, each⟩ := ih (hr.next p (ok _ now)) (fun v hv => ok v (List.mem_cons_of_mem _ hv))
      (fun p t rest u hv => step p t rest u (List.mem_cons_of_mem _ hv)) (step p t (ts ++ us) w now hr hi)
    refine ⟨last, fun v hv => ?_⟩
    rcases List.mem_cons.mp hv with rfl | hv
    · exact hi
    · exact each v hv

/-- The run goes on from each of its turns. -/
theorem turn_at {before after : List (Task × World)} {v : Task × World} (h : Runs ts w (before ++ v :: after) w')
    (hr : Reach k ⟨w, ts ++ us⟩)
    (ok : ∀ u ∈ before ++ v :: after, ∀ choose, u.1.job = .act choose → k.Allows u.2 (choose u.2)) :
    ∃ rest, Runs (v.1 :: rest) v.2 (v :: after) w' ∧ Reach k ⟨v.2, v.1 :: (rest ++ us)⟩ := by
  generalize hv : before ++ v :: after = vs at h ok
  induction h generalizing before with
  | done w => simp at hv
  | @task p t ts w w' vs h ih =>
    rcases before with _ | ⟨b, before⟩
    · obtain ⟨rfl, rfl⟩ := List.cons.inj hv
      exact ⟨ts, .task p h, hr⟩
    · exact ih (hr.next p (ok (t, w) (List.mem_cons_self ..))) (List.cons.inj hv).2 fun u hu => ok u (List.mem_cons_of_mem _ hu)

theorem ages (h : Runs ts w vs w') (hr : Reach k ⟨w, ts ++ us⟩)
    (ok : ∀ v ∈ vs, ∀ choose, v.1.job = .act choose → k.Allows v.2 (choose v.2)) :
    w.Ages w' ∧ ∀ v ∈ vs, w.Ages v.2 := by
  refine h.along hr ok (fun p t rest u hv hu hages => ?_) (.refl w)
  exact hages.trans (since_turn hu.ordered hu.tracked (.mk p u t rest (ok _ hv))).ages

/-- What is there at the end and is not new has been there all the time. -/
theorem there (h : Runs ts w vs w') (hr : Reach k ⟨w, ts ++ us⟩)
    (ok : ∀ v ∈ vs, ∀ choose, v.1.job = .act choose → k.Allows v.2 (choose v.2)) {ref : Ref} (hs : ref.serial < w.nextRef)
    (hl : w'.isLive ref = true) : w.isLive ref = true := by
  obtain ⟨y, hy⟩ := (World.isLive_iff _ ref).mp hl
  rcases (h.ages hr ok).1.wrappers ref y hy with ⟨x, hx, -, -⟩ | ⟨hn, -⟩
  · exact (World.isLive_iff _ ref).mpr ⟨x, hx⟩
  · omega

/-- A binding that no turn undoes lasts, and the delete slot of its handle is not set, unless it is by
    another registry. -/
theorem holds (h : Runs ts w vs w') (hr : Reach k ⟨w, ts ++ us⟩)
    (ok : ∀ v ∈ vs, ∀ choose, v.1.job = .act choose → k.Allows v.2 (choose v.2)) {ref : Ref} {id : ItemId} {a : Handle}
    (hold : w.Holds ref id a) (hu : ∀ v ∈ vs, ¬ v.1.job.Undoes v.2 ref id a) (hl : w'.isLive ref = true) :
    w'.Holds ref id a ∧
      ∀ v ∈ vs, ¬ v.1.job.MovesProbe v.2 → ∀ p : Program, (p.expand v.1 v.2).1.touched a = v.2.touched a := by
  induction h with
  | done w => exact ⟨hold, fun v hv => by cases hv⟩
  | @task p t ts w w' vs h ih =>
    have now : (t, w) ∈ (t, w) :: vs := List.mem_cons_self ..
    obtain ⟨x, hx, rfl, -⟩ := hold.item
    have spares {b : Handle} := hr.spares (a := b) hx (fun choose hj => (ok _ now choose hj).1)
      fun hn => hu _ now (hold.undoes hn)
    have next := hr.next p (ok _ now)
    have later (v) (hv : v ∈ vs) := ok v (List.mem_cons_of_mem _ hv)
    have spared : w.Spares (p.expand t w).1 ref .null := spares (Or.inl rfl) p
    have old : ref.serial < (p.expand t w).1.nextRef :=
      Nat.lt_of_lt_of_le (hr.ordered.refBelow ref x hx.1) spared.nextRef
    obtain ⟨y, hy⟩ := (World.isLive_iff _ ref).mp (h.there next later old hl)
    obtain ⟨item, -⟩ :=
      (since_turn hr.ordered hr.tracked (.mk p w t (ts ++ us) (ok _ now))).ages.item hr.ordered hx hy
    obtain ⟨last, each⟩ := ih next later (hold.spared spared item) (fun v hv => hu v (List.mem_cons_of_mem _ hv)) hl
    refine ⟨last, fun v hv hp q => ?_⟩
    rcases List.mem_cons.mp hv with rfl | hv
    · exact (spares (Or.inr ⟨hp, _, hold⟩) q).touched
    · exact each v hv hp q

/-- What gets its turn was to be done, or a turn on the way has made it due. -/
theorem sprung (h : Runs ts w vs w') {P : Job → Prop} {Q : Task × World → Prop}
    (step : ∀ (p : Program) t w j, j ∈ jobs (p.expand t w).2 → P j → Q (t, w)) :
    ∀ v ∈ vs, P v.1.job → v.1 ∈ ts ∨ ∃ u ∈ vs, Q u := by
  induction h with
  | done w =>
    intro v hv
    cases hv
  | @task p t ts w w' vs _ ih =>
    intro v hv hp
    rcases List.mem_cons.mp hv with rfl | hv
    · exact Or.inl (List.mem_cons_self ..)
    · rcases ih v hv hp with hm | ⟨u, hm, hq⟩
      · rcases List.mem_append.mp hm with hm | hm
        · exact Or.inr ⟨(t, w), List.mem_cons_self .., step p t w _ (List.mem_map_of_mem hm) hp⟩
        · exact Or.inl (List.mem_cons_of_mem _ hm)
      · exact Or.inr ⟨u, List.mem_cons_of_mem _ hm, hq⟩

end Runs

end HandleBridge
