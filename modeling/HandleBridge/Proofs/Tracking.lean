/-
  HandleBridge.Proofs.Tracking — items and their entries through a run.

  Every entry of the item registry refers to an item that is there, and no two items have one
  id (`Tracked`). What one move does to wrappers and entries is said once (`Passes`): a
  wrapper keeps its id, one that is new has an id of its own if it is an item, and what is left of
  the entries refers to what is left of the items. So, whatever the program does:
  - `Reach.tracked`: `Tracked` holds in every state.
  - `Course.gone`: an item that has been freed is not there again, and its id is in no table again.
  - `Course.was_bound`: the handle that an item holds is one that has been mapped to it.

  The last is shown for `Conduct.bound`, where a handle is mapped when it is given (`Mapped`); the
  two operations that go beyond it give no item a handle (`Turn.bound_or_still`).
-/
import HandleBridge.Proofs.Custody
import HandleBridge.Proofs.Notification
import HandleBridge.Proofs.OwnHandle

namespace HandleBridge

variable {k : Conduct}

namespace World

variable {w w' w'' : World}

/-! ## Entries and their items -/

/-- Every entry of the item registry refers to a wrapper that is there, and no two items have one
    id. -/
structure Tracked (w : World) : Prop where
  live : ∀ id e, (w.registry .items).byId.get? id = some e → w.isLive e.wrapper = true
  unique : ∀ ref ref' x x', w.IsItem ref x → w.IsItem ref' x' → x.id = x'.id → ref = ref'

/-- A wrapper that is there afterwards was there before, or is new, with an id of its own if it is
    an item. -/
structure Ages (w w' : World) : Prop where
  nextRef : w.nextRef ≤ w'.nextRef
  nextId : (w.registry .items).nextId ≤ (w'.registry .items).nextId
  wrappers : ∀ ref y, w'.wrappers.get? ref = some y →
    (∃ x, w.wrappers.get? ref = some x ∧ x.id = y.id ∧ x.space = y.space) ∨
    (w.nextRef ≤ ref.serial ∧ (y.space = .items → (w.registry .items).nextId ≤ y.id.val))

theorem Ages.refl (w : World) : w.Ages w :=
  ⟨Nat.le_refl _, Nat.le_refl _, fun _ y hy => Or.inl ⟨y, hy, rfl, rfl⟩⟩

theorem Ages.trans (h : w.Ages w') (h' : w'.Ages w'') : w.Ages w'' := by
  refine ⟨Nat.le_trans h.nextRef h'.nextRef, Nat.le_trans h.nextId h'.nextId, fun ref z hz => ?_⟩
  rcases h'.wrappers ref z hz with ⟨y, hy, hi, hs⟩ | ⟨hr, hid⟩
  · rcases h.wrappers ref y hy with ⟨x, hx, hi', hs'⟩ | ⟨hr, hid⟩
    · exact Or.inl ⟨x, hx, hi'.trans hi, hs'.trans hs⟩
    · exact Or.inr ⟨hr, fun hz => hi ▸ hid (hs.trans hz)⟩
  · exact Or.inr ⟨Nat.le_trans h.nextRef hr, fun hz => Nat.le_trans h.nextId (hid hz)⟩

/-- What one move does: at most one wrapper is new, and entries go on referring to what is there. -/
structure Passes (w w' : World) : Prop where
  nextRef : w.nextRef ≤ w'.nextRef
  nextId : (w.registry .items).nextId ≤ (w'.registry .items).nextId
  wrappers : ∀ ref y, w'.wrappers.get? ref = some y →
    (∃ x, w.wrappers.get? ref = some x ∧ x.id = y.id ∧ x.space = y.space) ∨
    (ref = w.freshRef ∧ (y.space = .items → (w.registry .items).nextId ≤ y.id.val))
  live : w.Tracked → ∀ id e, (w'.registry .items).byId.get? id = some e → w'.isLive e.wrapper = true

theorem Passes.ages (h : w.Passes w') : w.Ages w' := by
  refine ⟨h.nextRef, h.nextId, fun ref y hy => (h.wrappers ref y hy).imp id ?_⟩
  rintro ⟨rfl, hid⟩
  exact ⟨Nat.le_refl _, hid⟩

theorem Passes.tracked (h : w.Passes w') (ho : w.Ordered) (ht : w.Tracked) : w'.Tracked := by
  refine ⟨h.live ht, fun ref ref' y y' hy hy' e => ?_⟩
  -- an item that was there has an id that was given out
  have below {ref : Ref} {x y : Wrapper} (hx : w.wrappers.get? ref = some x) (hi : x.id = y.id) (hs : x.space = y.space)
      (hy : y.space = .items) : y.id.val < (w.registry .items).nextId := by
    have := ho.idBelow ref x hx
    rw [hs, hy] at this
    exact hi ▸ this
  rcases h.wrappers ref y hy.1 with ⟨x, hx, hi, hs⟩ | ⟨hr, hid⟩
  · rcases h.wrappers ref' y' hy'.1 with ⟨x', hx', hi', hs'⟩ | ⟨-, hid'⟩
    · exact ht.unique ref ref' x x' ⟨hx, hs.trans hy.2⟩ ⟨hx', hs'.trans hy'.2⟩ (by rw [hi, hi', e])
    · have old := below hx hi hs hy.2
      have new := hid' hy'.2
      rw [e] at old
      omega
  · rcases h.wrappers ref' y' hy'.1 with ⟨x', hx', hi', hs'⟩ | ⟨hr', -⟩
    · have old := below hx' hi' hs' hy'.2
      have new := hid hy.2
      rw [e] at new
      omega
    · rw [hr, hr']

/-- No wrapper is new, no id is given out twice, and an entry was there before. -/
theorem passes_same (hn : w.nextRef ≤ w'.nextRef) (hi : (w.registry .items).nextId ≤ (w'.registry .items).nextId)
    (hx : ∀ ref y, w'.wrappers.get? ref = some y →
      ∃ x, w.wrappers.get? ref = some x ∧ x.id = y.id ∧ x.space = y.space)
    (hl : ∀ ref, w.isLive ref = true → w'.isLive ref = true)
    (he : ∀ id e, (w'.registry .items).byId.get? id = some e → (w.registry .items).byId.get? id = some e) :
    w.Passes w' :=
  ⟨hn, hi, fun ref y hy => Or.inl (hx ref y hy), fun ht id e h => hl _ (ht.live id e (he id e h))⟩

/-- The wrappers are the same, and entries were there before. -/
theorem passes_fewer (hx : w'.wrappers = w.wrappers) (hn : w'.nextRef = w.nextRef)
    (hi : (w.registry .items).nextId ≤ (w'.registry .items).nextId)
    (he : ∀ id e, (w'.registry .items).byId.get? id = some e → (w.registry .items).byId.get? id = some e) :
    w.Passes w' := by
  refine passes_same (Nat.le_of_eq hn.symm) hi (fun ref y hy => ⟨y, hx ▸ hy, rfl, rfl⟩) (fun ref hl => ?_) he
  rw [isLive, hx]
  exact hl

theorem passes_congr (hr : w'.registry .items = w.registry .items) (hx : w'.wrappers = w.wrappers)
    (hn : w'.nextRef = w.nextRef) : w.Passes w' :=
  passes_fewer hx hn (Nat.le_of_eq (by rw [hr])) fun _ _ he => hr ▸ he

/-- A registry loses entries and may have given out ids. -/
theorem passes_setRegistry (w : World) {space : Space} {r : Registry} (hi : (w.registry space).nextId ≤ r.nextId)
    (he : ∀ id e, r.byId.get? id = some e → (w.registry space).byId.get? id = some e) :
    w.Passes (w.setRegistry space r) := by
  refine passes_fewer (w.wrappers_setRegistry space r) (w.nextRef_setRegistry space r) ?_ fun id e h => ?_
  · rw [registry_setRegistry]
    split
    · rename_i hs; exact hs ▸ hi
    · exact Nat.le_refl _
  · rw [registry_setRegistry] at h
    split at h
    · rename_i hs; exact hs ▸ he id e h
    · exact h

/-- And then a wrapper changes. -/
theorem Passes.modifyWrapper (h : w.Passes w') (ref : Ref) {f : Wrapper → Wrapper}
    (hf : ∀ x, (f x).id = x.id ∧ (f x).space = x.space) : w.Passes (w'.modifyWrapper ref f) := by
  refine ⟨h.nextRef, h.nextId, ?_, ?_⟩
  · intro a y hy
    simp only [World.modifyWrapper, Table.get?_modify] at hy
    split at hy
    · obtain ⟨x, hx, rfl⟩ := Option.map_eq_some_iff.mp hy
      rw [(hf x).1, (hf x).2]
      exact h.wrappers a x hx
    · exact h.wrappers a y hy
  · intro ht id e he
    rw [isLive_modify]
    exact h.live ht id e he

theorem passes_setHandle (w : World) (ref : Ref) (h : Handle) : w.Passes (w.setHandle ref h) :=
  Passes.modifyWrapper (passes_congr rfl rfl rfl) ref fun _ => ⟨rfl, rfl⟩

/-- And then a wrapper comes, with an id of its own if it is an item. -/
theorem Passes.addWrapper (h : w.Passes w') (hx : w'.wrappers = w.wrappers) (hn : w'.nextRef = w.nextRef) {x : Wrapper}
    (hid : x.space = .items → (w.registry .items).nextId ≤ x.id.val) : w.Passes (w'.addWrapper x) := by
  have fresh : w'.freshRef = w.freshRef := congrArg Ref.mk hn
  refine ⟨Nat.le_succ_of_le h.nextRef, h.nextId, ?_, ?_⟩
  · intro a y hy
    simp only [World.addWrapper, Table.get?_insert, hx, fresh] at hy
    split at hy
    · rename_i ha
      cases hy
      exact Or.inr ⟨ha, hid⟩
    · exact Or.inl ⟨y, hy, rfl, rfl⟩
  · intro ht id e he
    have live := h.live ht id e he
    simp only [isLive, Table.contains, World.addWrapper, Table.get?_insert] at live ⊢
    split
    · rfl
    · exact live

theorem passes_create (w : World) {space : Space} {id : ItemId} {r : Registry} {kind : WrapperKind}
    (ha : (w.registry space).allocate? = some (id, r)) (hs : (Wrapper.fresh id kind).space = space) :
    w.Passes ((w.setRegistry space r).addWrapper (.fresh id kind)) := by
  obtain ⟨rfl, rfl⟩ := Registry.allocate_eq ha
  have given : w.Passes (w.setRegistry space { w.registry space with nextId := (w.registry space).nextId + 1 }) :=
    w.passes_setRegistry (Nat.le_succ _) fun _ _ he => he
  refine given.addWrapper (w.wrappers_setRegistry _ _) (w.nextRef_setRegistry _ _) fun h => ?_
  rw [hs] at h
  subst h
  exact Nat.le_refl _

section Release

variable {ref : Ref} {x : Wrapper}

theorem wrappers_released (hx : w.wrappers.get? ref = some x) (hh : w.isHeld ref = false) :
    (w.release ref).wrappers = w.wrappers.erase ref := by
  cases hs : x.space
  · rw [release_item hx hh hs, wrappers_forget]
  · rw [release_probe hx hh hs]

theorem nextRef_released (hx : w.wrappers.get? ref = some x) (hh : w.isHeld ref = false) :
    (w.release ref).nextRef = w.nextRef := by
  cases hs : x.space
  · rw [release_item hx hh hs]
    exact nextRef_forget _ _ _
  · rw [release_probe hx hh hs]

theorem registry_released (hx : w.wrappers.get? ref = some x) (hh : w.isHeld ref = false) :
    (w.release ref).registry .items =
      if x.space = .items then (w.registry .items).forget x.id else w.registry .items := by
  cases hs : x.space
  · rw [release_item hx hh hs, registry_forget, if_pos rfl, if_pos rfl]
    rfl
  · rw [release_probe hx hh hs, if_neg (by simp)]
    rfl

/-- A freed item takes its entry with it, so what is left refers to what is left. -/
theorem passes_release (ho : w.Ordered) (hx : w.wrappers.get? ref = some x) (hh : w.isHeld ref = false) :
    w.Passes (w.release ref) := by
  have left := wrappers_released hx hh
  have items := registry_released hx hh
  refine ⟨Nat.le_of_eq (nextRef_released hx hh).symm, ?_, fun a y hy => Or.inl ⟨y, ?_, rfl, rfl⟩, ?_⟩
  · rw [items]
    split
    · exact Nat.le_of_eq (Registry.nextId_forget _ x.id).symm
    · exact Nat.le_refl _
  · rw [left, Table.get?_erase] at hy
    split at hy
    · cases hy
    · exact hy
  · intro ht id e he
    -- an entry that is left was there before, and does not refer to what is freed
    have old : (w.registry .items).byId.get? id = some e ∧ e.wrapper ≠ ref := by
      have own (he : (w.registry .items).byId.get? id = some e) (er : e.wrapper = ref) : x.id = id ∧ x.space = .items :=
        ho.entryOwn .items id e x he (er ▸ hx)
      rw [items] at he
      split at he
      · rw [Registry.byId_forget] at he
        split at he
        · cases he
        · rename_i hne
          exact ⟨he, fun er => hne (own he er).1.symm⟩
      · rename_i hs
        exact ⟨he, fun er => hs (own he er).2⟩
    have live := ht.live id e old.1
    rw [isLive, left, Table.contains, Table.get?_erase, if_neg old.2]
    exact live

end Release

theorem passes_attach (ho : w.Ordered) {ref : Ref} {h : Handle} (hl : w.isLive ref = true) (hc : w.CanAttach ref h) :
    w.Passes (w.attach ref h) := by
  have hx := w.wrappers_attach ref h
  have live (a : Ref) (ha : w.isLive a = true) : (w.attach ref h).isLive a = true := by
    rw [isLive, hx]
    exact ha
  refine ⟨Nat.le_of_eq (w.nextRef_attach ref h).symm, ?_, fun a y hy => Or.inl ⟨y, hx ▸ hy, rfl, rfl⟩, ?_⟩
  · rw [registry_attach]
    split
    · rename_i hs
      have hb := hc.2
      rw [← hs] at hb
      exact Nat.le_of_eq (Registry.tables_bind (ho.coherent .items) hb ref).2.2.symm
    · exact Nat.le_refl _
  · intro ht id e he
    rcases entry_attach ho hc he with ⟨-, -, rfl⟩ | he
    · exact live ref hl
    · exact live _ (ht.live id e he)

theorem passes_settled (w : World) (space : Space) (h : Handle) (id : ItemId) (wrapper : Option Ref) :
    w.Passes (w.settled space h id wrapper) := by
  have ended : w.Passes (w.setRegistry space ((w.registry space).endDying h id)) := by
    refine w.passes_setRegistry (Nat.le_of_eq (Registry.nextId_endDying _ h id).symm) fun i e he => ?_
    rw [Registry.byId_endDying] at he
    split at he
    · cases he
    · exact he
  simp only [settled]
  split
  · split
    · exact ended.modifyWrapper _ fun _ => ⟨rfl, rfl⟩
    · exact ended
  · exact ended

theorem passes_move (ho : w.Ordered) (hm : Move k w w') : w.Passes w' := by
  cases hm with
  | aside hc =>
    obtain ⟨-, hr, hx, hn⟩ := core_eq hc
    exact passes_congr (hr .items) hx hn
  | createItem _ | createObject _ | adopt h _ | takePending | call c _ => exact passes_congr rfl rfl rfl
  | allocate space id r ha =>
    obtain ⟨rfl, rfl⟩ := Registry.allocate_eq ha
    exact w.passes_setRegistry (Nat.le_succ _) fun _ _ he => he
  | create space id r kind ha hs => exact w.passes_create ha hs
  | share id name bare _ => exact Passes.addWrapper (passes_congr rfl rfl rfl) rfl rfl (by simp [Wrapper.fresh, Wrapper.space])
  | free ref x hx hh => exact passes_release ho hx hh
  | attach ref h hl _ hc => exact passes_attach ho hl hc
  | rebind ref h hl _ _ hc => exact (passes_attach ho hl hc).modifyWrapper ref fun _ => ⟨rfl, rfl⟩
  | confirm ref h _ _ _ => exact w.passes_setHandle ref h
  | setProbe ref h _ => exact w.passes_setHandle ref h
  | setNull ref => exact w.passes_setHandle ref .null
  | edit ref f hf => exact Passes.modifyWrapper (passes_congr rfl rfl rfl) ref fun x => ⟨(hf x).1, (hf x).2.2⟩
  | forget space id _ =>
    refine passes_fewer (w.wrappers_forget space id) (w.nextRef_forget space id) ?_ fun i e he => ?_
    · rw [registry_forget]
      split
      · rename_i hs; exact Nat.le_of_eq (hs ▸ (Registry.nextId_forget _ id).symm)
      · exact Nat.le_refl _
    · rw [registry_forget] at he
      split at he
      · rename_i hs
        rw [← hs, Registry.byId_forget] at he
        split at he
        · cases he
        · exact he
      · exact he

/-- Since `w`, entries have gone on referring to what is there. -/
structure Since (w v : World) : Prop where
  ordered : v.Ordered
  tracked : v.Tracked
  ages : w.Ages v

theorem Since.passes (h : w.Since w') (ho : w''.Ordered) (hp : w'.Passes w'') : w.Since w'' :=
  ⟨ho, hp.tracked h.ordered h.tracked, h.ages.trans hp.ages⟩

end World

theorem since_turn {c c' : State} (ho : c.world.Ordered) (ht : c.world.Tracked) (hs : Turn k c c') :
    c.world.Since c'.world := by
  refine hs.keeps (I := c.world.Since) (fun v v' hv hm => ?_) (fun v h t slot hv _ => ?_) (fun v space h hv => ?_)
    (fun level space h id wrapper ts _ hv => ?_) ⟨ho, ht, .refl _⟩
  · exact hv.passes (World.ordered_move hv.ordered hm) (World.passes_move hv.ordered hm)
  · exact hv.passes (World.ordered_toolkit hv.ordered t) (World.passes_congr rfl rfl rfl)
  · exact hv.passes (World.ordered_setRegistry hv.ordered (Registry.coherent_startDying (hv.ordered.coherent space) h)
      (Nat.le_refl _) fun _ _ he => he) (v.passes_setRegistry (Nat.le_refl _) fun _ _ he => he)
  · exact hv.passes (World.ordered_settled hv.ordered space h id wrapper) (World.passes_settled _ space h id wrapper)

theorem Reach.tracked {c : State} (h : Reach k c) : c.world.Tracked := by
  refine (h.invariant (I := fun c => c.world.Ordered ∧ c.world.Tracked) (fun mode => ⟨World.ordered_start mode, ?_⟩)
    (fun _ _ _ hw => hw) fun c c' hc hs => ?_).2
  · refine ⟨?_, ?_⟩
    · intro id e he
      simp [World.start, World.registry, Registry.empty] at he
    · intro ref ref' x x' hx
      simp [World.IsItem, World.start] at hx
  · have since := since_turn hc.1 hc.2 hs
    exact ⟨since.ordered, since.tracked⟩

namespace Course

variable (c : Course k)

theorem ages {m n : Nat} (hmn : m ≤ n) (hn : n ≤ c.length) : (c.state m).world.Ages (c.state n).world := by
  induction hmn with
  | refl => exact .refl _
  | @step n hmn ih =>
    have hm : m ≤ n := hmn
    have before := c.reach (i := n) (by omega)
    refine (ih (by omega)).trans ?_
    rcases c.turn_or_call (i := n) (by omega) with ht | ⟨-, same⟩
    · exact (since_turn before.ordered before.tracked ht).ages
    · rw [same]
      exact .refl _

variable {i m n : Nat} {ref : Ref} {x : Wrapper}

/-- An item that is there has been the same item since. -/
theorem same_id (him : i ≤ m) (hm : m ≤ c.length) {y : Wrapper} (hx : (c.state i).world.wrappers.get? ref = some x)
    (hy : (c.state m).world.wrappers.get? ref = some y) : x.id = y.id ∧ x.space = y.space := by
  rcases (c.ages him hm).wrappers ref y hy with ⟨x', hx', hi, hs⟩ | ⟨hr, -⟩
  · cases hx.symm.trans hx'
    exact ⟨hi, hs⟩
  · have := (c.reach (Nat.le_trans him hm)).ordered.refBelow ref x hx
    omega

/-- What has been freed is not there again, and its id is in no table again. -/
theorem gone (him : i ≤ m) (hmn : m ≤ n) (hn : n ≤ c.length) (hx : (c.state i).world.IsItem ref x)
    (hm : (c.state m).world.isLive ref = false) :
    (c.state n).world.isLive ref = false ∧ ((c.state n).world.registry .items).byId.get? x.id = none ∧
      ∀ h, ((c.state n).world.registry .items).byHandle.get? h ≠ some x.id := by
  have hin := Nat.le_trans him hmn
  have old := (c.reach (Nat.le_trans hin hn)).ordered
  have dead : (c.state n).world.isLive ref = false := by
    refine Bool.eq_false_iff.mpr fun hl => ?_
    obtain ⟨y, hy⟩ := (World.isLive_iff _ ref).mp hl
    rcases (c.ages hmn hn).wrappers ref y hy with ⟨z, hz, -, -⟩ | ⟨hr, -⟩
    · rw [(World.isLive_iff _ ref).mpr ⟨z, hz⟩] at hm
      cases hm
    · have := old.refBelow ref x hx.1
      have := (c.ages him (Nat.le_trans hmn hn)).nextRef
      omega
  have none : ((c.state n).world.registry .items).byId.get? x.id = none := by
    rcases he : ((c.state n).world.registry .items).byId.get? x.id with _ | e
    · rfl
    -- an entry under the id would belong to an item that is there, and that would be this one
    obtain ⟨y, hy⟩ := (World.isLive_iff _ _).mp ((c.reach hn).tracked.live x.id e he)
    obtain ⟨hyi, hys⟩ := (c.reach hn).ordered.entryOwn .items x.id e y he hy
    have same : e.wrapper = ref := by
      rcases (c.ages hin hn).wrappers e.wrapper y hy with ⟨z, hz, hi, hs⟩ | ⟨-, hid⟩
      · exact (c.reach (Nat.le_trans hin hn)).tracked.unique _ _ z x ⟨hz, hs.trans hys⟩ hx (hi.trans hyi)
      · have below := old.idBelow ref x hx.1
        have above := hid hys
        rw [hx.2, ← hyi] at below
        omega
    rw [← same, (World.isLive_iff _ _).mpr ⟨y, hy⟩] at dead
    cases dead
  refine ⟨dead, none, fun h hb => ?_⟩
  obtain ⟨-, e, he, -⟩ := (((c.reach hn).ordered.coherent .items).mapped_iff h x.id).mp hb
  rw [none] at he
  cases he

end Course

/-! ## The handle that an item holds -/

namespace World

variable {w w' v : World}

/-- Since `w`, items have been given no handle but the one that is mapped to them. -/
def Mapped (w v : World) : Prop :=
  ∀ ref y, v.IsItem ref y → y.handle ≠ .null →
    (∃ x, w.IsItem ref x ∧ x.handle = y.handle) ∨ (v.registry .items).byHandle.get? y.handle = some y.id

/-- No item is given a handle, and the table by handle is the same. -/
theorem Mapped.same (h : w.Mapped v)
    (hx : ∀ ref y, w'.IsItem ref y → y.handle ≠ .null → ∃ x, v.IsItem ref x ∧ x.id = y.id ∧ x.handle = y.handle)
    (hb : (w'.registry .items).byHandle = (v.registry .items).byHandle) : w.Mapped w' := by
  intro ref y hy hn
  obtain ⟨x, hx, hi, hh⟩ := hx ref y hy hn
  rw [hb, ← hi, ← hh]
  exact h ref x hx (hh ▸ hn)

theorem Mapped.congr (h : w.Mapped v) (hx : w'.wrappers = v.wrappers)
    (hb : (w'.registry .items).byHandle = (v.registry .items).byHandle) : w.Mapped w' :=
  h.same (fun _ y hy _ => ⟨y, ⟨hx ▸ hy.1, hy.2⟩, rfl, rfl⟩) hb

theorem Mapped.modifyWrapper (h : w.Mapped v) {ref : Ref} {f : Wrapper → Wrapper}
    (hf : ∀ x, (f x).id = x.id ∧ (f x).space = x.space)
    (hh : ∀ x, v.IsItem ref x → (f x).handle = .null ∨ (f x).handle = x.handle ∨
      (v.registry .items).byHandle.get? (f x).handle = some x.id) : w.Mapped (v.modifyWrapper ref f) := by
  intro a y hy hn
  rcases isItem_modifyWrapper (fun x => (hf x).2) hy with ⟨rfl, x, hx, rfl⟩ | ⟨-, hy⟩
  · rw [(hf x).1]
    rcases hh x hx with h' | h' | h'
    · exact absurd h' hn
    · rw [h'] at hn ⊢
      exact h a x hx hn
    · exact Or.inr h'
  · exact h a y hy hn

theorem Mapped.addWrapper (h : w.Mapped v) {x : Wrapper} (hx : x.handle = .null) : w.Mapped (v.addWrapper x) := by
  refine h.same (fun ref y hy hn => ?_) rfl
  rcases isItem_addWrapper hy with ⟨-, rfl⟩ | hy
  · exact absurd hx hn
  · exact ⟨y, hy, rfl, rfl⟩

/-- What is freed takes no pair away but its own. -/
theorem Mapped.release (h : w.Mapped v) (ho : v.Ordered) (ht : v.Tracked) {ref : Ref} {x : Wrapper}
    (hx : v.wrappers.get? ref = some x) (hh : v.isHeld ref = false) : w.Mapped (v.release ref) := by
  intro a y hy hn
  rw [IsItem, wrappers_released hx hh] at hy
  obtain ⟨hne, hy⟩ := isItem_erase hy
  refine (h a y hy hn).imp id fun hb => ?_
  rw [registry_released hx hh]
  split
  · rename_i hs
    have other : x.id ≠ y.id := fun e => hne (ht.unique a ref y x hy ⟨hx, hs⟩ e.symm)
    rw [Registry.byHandle_forget (ho.coherent .items), hb, if_neg (by simpa using other.symm)]
  · exact hb

/-- What is bound is mapped; it takes its own former handle from the table, and no handle of another
    item. -/
theorem Mapped.rebind (h : w.Mapped v) (ho : v.Ordered) (ht : v.Tracked) {ref : Ref} {a : Handle}
    (hl : v.isLive ref = true) (hc : v.CanAttach ref a) : w.Mapped ((v.attach ref a).setHandle ref a) := by
  obtain ⟨x, hx⟩ := (v.isLive_iff ref).mp hl
  intro b y hy hn
  have table : ((v.attach ref a).setHandle ref a).registry .items = (v.attach ref a).registry .items := rfl
  rw [table, registry_attach]
  cases hs : v.spaceOf ref
  · obtain ⟨hr, hb⟩ := hc
    rw [hs] at hr hb
    obtain ⟨-, byHandle, -⟩ := Registry.tables_bind (ho.coherent .items) hb ref
    rw [if_pos rfl, byHandle]
    have item : v.IsItem ref x := ⟨hx, (spaceOf_eq hx).symm.trans hs⟩
    rcases isItem_rebind hy with ⟨rfl, x', hx', rfl⟩ | ⟨hne, hy⟩
    · obtain rfl : x = x' := Option.some.inj (hx.symm.trans hx'.1)
      exact Or.inr (by rw [if_pos ⟨rfl, hn⟩, idOf_eq hx])
    · have other : y.id ≠ v.idOf ref := fun e => hne (ht.unique b ref y x hy item (e.trans (idOf_eq hx)))
      refine (h b y hy hn).imp id fun hm => ?_
      have away : ¬ (y.handle = a ∧ a ≠ .null) := by
        rintro ⟨rfl, -⟩
        -- binding would have been refused, for `y` is there
        obtain ⟨-, e, he, -⟩ := ((ho.coherent .items).mapped_iff _ _).mp hm
        have gone := Registry.owner_gone hr hn hm other
        simp [Registry.lookupId, he, ht.live _ e he] at gone
      rw [if_neg away, hm, if_neg (by simpa using other)]
  · rw [if_neg (by simp)]
    rcases isItem_rebind hy with ⟨rfl, x', hx', -⟩ | ⟨-, hy⟩
    · rw [spaceOf_eq hx'.1, hx'.2] at hs
      cases hs
    · exact h b y hy hn

theorem mapped_move {v' : World} (ho : v.Ordered) (ht : v.Tracked) (h : w.Mapped v) (hm : Move .bound v v') :
    w.Mapped v' := by
  cases hm with
  | aside hc =>
    obtain ⟨-, hr, hx, -⟩ := core_eq hc
    exact h.congr hx (congrArg Registry.byHandle (hr .items))
  | createItem _ | createObject _ | adopt a _ | takePending | call c _ => exact h.congr rfl rfl
  | allocate space id r ha =>
    obtain ⟨rfl, rfl⟩ := Registry.allocate_eq ha
    cases space <;> exact h.congr rfl rfl
  | create space id r kind ha _ =>
    obtain ⟨rfl, rfl⟩ := Registry.allocate_eq ha
    refine Mapped.addWrapper ?_ rfl
    cases space <;> exact h.congr rfl rfl
  | share id name bare _ => exact h.addWrapper rfl
  | free ref x hx hh => exact h.release ho ht hx hh
  | attach ref a _ hk _ =>
    refine h.congr (v.wrappers_attach ref a) ?_
    have bare : v.spaceOf ref = .bare := hk
    rw [registry_attach, bare, if_neg (by simp)]
  | rebind ref a hl _ _ hc => exact h.rebind ho ht hl hc
  | confirm ref a _ _ hb =>
    refine h.modifyWrapper (fun _ => ⟨rfl, rfl⟩) fun x hx => ?_
    rw [spaceOf_eq hx.1, hx.2, idOf_eq hx.1, Registry.isBoundTo_eq] at hb
    by_cases hn : a = .null
    · exact Or.inl hn
    · exact Or.inr (Or.inr (((ho.coherent .items).inverse a x.id).mpr ⟨hn, hb⟩))
  | setProbe ref a hp =>
    obtain ⟨x, hx, hs⟩ := hp
    exact h.modifyWrapper (fun _ => ⟨rfl, rfl⟩) fun y hy => absurd hy (not_item_of_probe ((spaceOf_eq hx).trans hs))
  | setNull ref => exact h.modifyWrapper (fun _ => ⟨rfl, rfl⟩) fun _ _ => Or.inl rfl
  | edit ref f hf =>
    exact h.modifyWrapper (fun x => ⟨(hf x).1, (hf x).2.2⟩) fun x _ => Or.inr (Or.inl (hf x).2.1)
  | forget space id hk =>
    obtain rfl : space = .bare := hk
    refine h.congr (v.wrappers_forget .bare id) ?_
    rw [registry_forget, if_neg (by simp)]

theorem wrappers_register (w : World) (ref : Ref) (h : Handle) : (w.register ref h).1.wrappers = w.wrappers := by
  rcases w.register_cases ref h with ⟨-, hc⟩ | ⟨-, hc, -⟩ | ⟨-, -, hc⟩
  · exact (core_eq hc).2.2.1
  · exact (core_eq hc).2.2.1
  · exact (core_eq hc).2.2.1.trans (w.wrappers_attach ref h)

end World

/-- Registering a wrapper without giving it the handle, and making a registry forget one, change no
    wrapper; nothing else goes beyond `Conduct.bound`. -/
theorem Conduct.bound_or_still {w : World} {op : Op} (h : Conduct.free.Permits w op) :
    Conduct.bound.Permits w op ∨ (w.perform op).1.wrappers = w.wrappers := by
  cases op with
  | register ref a =>
    refine Or.inr (Eq.trans ?_ (w.wrappers_register ref a))
    simp only [World.perform]
    rcases w.register ref a with ⟨w', _ | e⟩ <;> rfl
  | forget space id => exact Or.inr (w.wrappers_forget space id)
  | native c => cases c <;> exact Or.inl h
  | _ => exact Or.inl h

theorem Turn.bound_or_still {c c' : State} (hs : Turn .free c c') :
    Turn .bound c c' ∨ c'.world.wrappers = c.world.wrappers := by
  obtain ⟨p, w, t, ts, ok⟩ := hs
  by_cases ha : ∃ choose, t.job = .act choose
  · obtain ⟨level, job⟩ := t
    obtain ⟨choose, rfl⟩ := ha
    obtain ⟨typed, permitted⟩ := ok choose rfl
    refine (Conduct.bound_or_still permitted).imp (fun hp => .mk p w _ ts fun choose' e => ?_) id
    cases e
    exact ⟨typed, hp⟩
  · exact Or.inl (.mk p w t ts fun choose e => absurd ⟨choose, e⟩ ha)

theorem mapped_turn {c c' : State} (ho : c.world.Ordered) (ht : c.world.Tracked) (hs : Turn .free c c') :
    c.world.Mapped c'.world := by
  rcases hs.bound_or_still with hs | hx
  · refine (hs.keeps (I := fun v => c.world.Since v ∧ c.world.Mapped v) (fun v v' hv hm => ?_) (fun v h t slot hv _ => ?_)
      (fun v space h hv => ?_) (fun level space h id wrapper ts _ hv => ?_) ⟨⟨ho, ht, .refl _⟩, ?_⟩).2
    · exact ⟨hv.1.passes (World.ordered_move hv.1.ordered hm) (World.passes_move hv.1.ordered hm),
        World.mapped_move hv.1.ordered hv.1.tracked hv.2 hm⟩
    · exact ⟨hv.1.passes (World.ordered_toolkit hv.1.ordered t) (World.passes_congr rfl rfl rfl), hv.2.congr rfl rfl⟩
    · refine ⟨hv.1.passes (World.ordered_setRegistry hv.1.ordered
        (Registry.coherent_startDying (hv.1.ordered.coherent space) h) (Nat.le_refl _) fun _ _ he => he)
        (v.passes_setRegistry (Nat.le_refl _) fun _ _ he => he), ?_⟩
      cases space <;> exact hv.2.congr rfl rfl
    · refine ⟨hv.1.passes (World.ordered_settled hv.1.ordered space h id wrapper) (World.passes_settled _ space h id wrapper),
        fun a y hy hn => Or.inl ?_⟩
      obtain ⟨x, hx, -, hold⟩ := World.isItem_settled hy
      rcases hold with h' | ⟨rfl, -⟩
      · exact absurd h' hn
      · exact ⟨y, hx, rfl⟩
    · exact fun _ y hy _ => Or.inl ⟨y, hy, rfl⟩
  · exact fun _ y hy _ => Or.inl ⟨y, ⟨hx ▸ hy.1, hy.2⟩, rfl⟩

namespace Course

/-- The item `ref` is there, and the handle is mapped to it. -/
def Bound (c : Course k) (i : Nat) (ref : Ref) (h : Handle) : Prop :=
  ∃ x, (c.state i).world.IsItem ref x ∧ ((c.state i).world.registry .items).byHandle.get? h = some x.id

/-- A handle that an item holds is one that it has been bound to. -/
theorem was_bound (c : Course .free) {i : Nat} (hi : i ≤ c.length) {ref : Ref} {x : Wrapper}
    (hx : (c.state i).world.IsItem ref x) (hn : x.handle ≠ .null) : ∃ j, j ≤ i ∧ c.Bound j ref x.handle := by
  induction i generalizing x with
  | zero =>
    obtain ⟨mode, e⟩ := c.start
    rw [e] at hx
    simp [World.IsItem, World.start] at hx
  | succ i ih =>
    have further {y : Wrapper} (hy : (c.state i).world.IsItem ref y) (hh : y.handle = x.handle) :
        ∃ j, j ≤ i + 1 ∧ c.Bound j ref x.handle := by
      obtain ⟨j, hj, hb⟩ := ih (by omega) hy (hh ▸ hn)
      exact ⟨j, by omega, hh ▸ hb⟩
    have before := c.reach (i := i) (by omega)
    rcases c.turn_or_call hi with ht | ⟨-, same⟩
    · rcases mapped_turn before.ordered before.tracked ht ref x hx hn with ⟨y, hy, hh⟩ | hb
      · exact further hy hh
      · exact ⟨i + 1, Nat.le_refl _, x, hx, hb⟩
    · rw [same] at hx
      exact further hx rfl

variable (c : Course k) {ref a : Ref} {h : Handle} {i n : Nat}

/-- Two items are not bound to one handle at a time. -/
theorem Bound.unique (hi : i ≤ c.length) (hb : c.Bound i ref h) (hb' : c.Bound i a h) : ref = a := by
  obtain ⟨x, hx, hm⟩ := hb
  obtain ⟨y, hy, hm'⟩ := hb'
  exact (c.reach hi).tracked.unique ref a x y hx hy (Option.some.inj (hm.symm.trans hm'))

/-- What is bound now and was not before has been bound in between. -/
theorem bound_since (hin : i ≤ n) (hi : ¬ c.Bound i ref h) (hb : c.Bound n ref h) :
    ∃ m, i ≤ m ∧ m < n ∧ ¬ c.Bound m ref h ∧ c.Bound (m + 1) ref h := by
  induction hin with
  | refl => exact absurd hb hi
  | @step n hin ih =>
    by_cases hm : c.Bound n ref h
    · obtain ⟨m, him, hmn, step⟩ := ih hm
      exact ⟨m, him, Nat.lt_succ_of_lt hmn, step⟩
    · exact ⟨n, hin, Nat.lt_succ_self n, hm, hb⟩

end Course

end HandleBridge
