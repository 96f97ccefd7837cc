/-
  HandleBridge.Proofs.Teardown — what a set of deletions leaves of a world.

  A world is `Torn` from an earlier one when it differs by deletions only: those of the items
  in `gone` have ended, those of the items in `falling` are being reported, and those of the
  items in `queued` wait in the toolkit's queue. All that is said of tables, wrappers and
  toolkit is a function of the earlier world and these lists, so that in which order the
  deletions came does not show.

  - `Torn.congr`: what an operation holds, logs or answers does not show either (`stage`).
  - `Torn.opened`, `Torn.closed`: a report begins, and ends.
  - `Torn.destroys`: the destruction of an item that stands, and the report that it causes,
    given what the observers of the item do.
  - `reports`: what each item is told while some deletions come to their end.
-/
import HandleBridge.Proofs.Deletion
import HandleBridge.Proofs.NoDangling

namespace HandleBridge

/-! ## What the toolkit does -/

namespace Toolkit

theorem apply_itemDel (t : Toolkit) (h : Handle) :
    ∃ queue, t.apply (.itemDel h) = { t with pending := queue, calls := t.calls + 1 } := by
  simp only [apply, effect]
  split
  · exact ⟨_, rfl⟩
  · split
    · exact ⟨_, rfl⟩
    · exact ⟨_, rfl⟩

/-- The toolkit after the destruction of an item. -/
def without (t : Toolkit) (h : Handle) : Toolkit :=
  { t.dropRegistrations h with
    items := t.items.erase h
    destroyed := addHandle h t.destroyed
    pending := t.pending.filter (· ≠ h) }

theorem destroy?_alive {t : Toolkit} {h : Handle} {i : NativeItem} (hi : t.items.get? h = some i) :
    t.destroy? h = some (t.without h, i.deleteSlot) := by
  simp only [destroy?, hi]
  rfl

theorem mem_addHandle (h a : Handle) (hs : List Handle) : a ∈ addHandle h hs ↔ a = h ∨ a ∈ hs := by
  unfold addHandle
  split
  · rename_i hm
    refine ⟨Or.inr, fun ha => ?_⟩
    rcases ha with rfl | ha
    · exact hm
    · exact ha
  · exact List.mem_cons

end Toolkit

theorem Wrapper.space_cleared (x : Wrapper) : x.cleared.space = x.space := by
  cases hk : x.kind <;> simp [cleared, space, hk]

/-! ## Handlers that leave everything alone -/

/-- A world without its history, and without what the last operation came to. -/
def World.silent (w : World) : World := { w with history := [], answer := .none }

/-- The operation leaves bridge and toolkit alone. -/
def Op.Quiet (op : Op) : Prop := ∀ w : World, (w.perform op).2 = [] ∧ (w.perform op).1.silent = w.silent

theorem quiet_note (r : Record) : (Op.note r).Quiet := fun _ => ⟨rfl, rfl⟩

namespace World

/-- The registry binds the item to an object of its own, which is alive, and has its delete
    callback there. -/
structure Bound (w : World) (ref : Ref) : Prop where
  item : w.HasItem ref
  real : w.handleOf ref ≠ .null
  entry : w.itemRegistry.byId.get? (w.idOf ref) = some ⟨ref, w.handleOf ref⟩
  slot : w.toolkit.deleteSlot (w.handleOf ref) = some (.registry .items)

/-- The program holds the item besides. -/
structure Kept (w : World) (ref : Ref) : Prop extends w.Bound ref where
  named : w.isNamed ref = true

theorem Bound.mapped {w : World} {ref : Ref} (h : w.Bound ref) (ho : w.Ordered) :
    w.itemRegistry.byHandle.get? (w.handleOf ref) = some (w.idOf ref) := by
  refine ((ho.coherent .items).inverse _ _).mpr ⟨h.real, ?_⟩
  show (w.itemRegistry.byId.get? _).map _ = _
  rw [h.entry]
  rfl

theorem Bound.idOf_inj {w : World} {a b : Ref} (ha : w.Bound a) (hb : w.Bound b)
    (h : w.idOf a = w.idOf b) : a = b := by
  have he := ha.entry
  rw [h, hb.entry] at he
  cases he
  rfl

theorem Bound.handleOf_inj {w : World} (ho : w.Ordered) {a b : Ref} (ha : w.Bound a) (hb : w.Bound b)
    (h : w.handleOf a = w.handleOf b) : a = b := by
  have hm := ha.mapped ho
  rw [h, hb.mapped ho] at hm
  exact ha.idOf_inj hb (Option.some.inj hm).symm

/-! ## What deletions change -/

/-- A world without what operations in progress hold, log and answer. -/
def stage (w : World) : World :=
  { w with
    toolkit := { w.toolkit with pending := [], calls := 0 }
    pins := []
    running := []
    flushing := []
    history := []
    answer := .none }

/-- What no deletion touches. -/
def aloof (w : World) : World :=
  { w.stage with toolkit := .start w.toolkit.mode, itemRegistry := .empty, wrappers := ∅ }

/-- What no deletion changes about a wrapper. -/
def frameOf (w : World) (ref : Ref) : Option (ItemId × Space × List String) :=
  (w.wrappers.get? ref).map fun x => (x.id, x.space, x.deleted)

structure Torn (w₀ : World) (gone falling queued : List Ref) (w : World) : Prop where
  kept : ∀ ref ∈ gone ++ falling ++ queued, w₀.Kept ref
  aloof : w.aloof = w₀.aloof
  -- wrappers
  frame : ∀ ref, w.frameOf ref = w₀.frameOf ref
  handle : ∀ ref, w.handleOf ref = w₀.handleOf ref ∨ w.handleOf ref = .null ∧ ref ∈ gone ++ falling ++ queued
  nulled : ∀ ref ∈ gone ++ queued, w.handleOf ref = .null
  -- the registry
  byId : ∀ id, w.itemRegistry.byId.get? id = if id ∈ gone.map w₀.idOf then none else w₀.itemRegistry.byId.get? id
  byHandle : ∀ h, w.itemRegistry.byHandle.get? h =
    if h ∈ gone.map w₀.handleOf then none else w₀.itemRegistry.byHandle.get? h
  dying : ∀ h, h ∈ w.itemRegistry.dying ↔ h ∈ falling.map w₀.handleOf
  nextId : w.itemRegistry.nextId = w₀.itemRegistry.nextId
  -- the toolkit
  nextHandle : w.toolkit.nextHandle = w₀.toolkit.nextHandle
  objects : w.toolkit.objects = w₀.toolkit.objects
  items : ∀ h, w.toolkit.items.get? h =
    if h ∈ (gone ++ falling).map w₀.handleOf then none else w₀.toolkit.items.get? h
  destroyed : ∀ h, h ∈ w.toolkit.destroyed ↔ h ∈ w₀.toolkit.destroyed ∨ h ∈ (gone ++ falling).map w₀.handleOf
  registrations : w.toolkit.registrations =
    w₀.toolkit.registrations.filter (·.object ∉ (gone ++ falling).map w₀.handleOf)

variable {w₀ w w' : World} {gone falling queued : List Ref} {ref : Ref}

theorem torn_start (hd : w₀.itemRegistry.dying = []) : Torn w₀ [] [] [] w₀ where
  kept := by simp
  aloof := rfl
  frame _ := rfl
  handle _ := Or.inl rfl
  nulled := by simp
  byId := by simp
  byHandle := by simp
  dying := by simp [hd]
  nextId := rfl
  nextHandle := rfl
  objects := rfl
  items := by simp
  destroyed := by simp
  registrations := by simp

theorem torn_stage : Torn w₀ gone falling queued w.stage ↔ Torn w₀ gone falling queued w :=
  ⟨fun h => { h with aloof := h.aloof }, fun h => { h with aloof := h.aloof }⟩

theorem Torn.congr (h : Torn w₀ gone falling queued w) (hs : w'.stage = w.stage) :
    Torn w₀ gone falling queued w' := by
  rw [← torn_stage, hs, torn_stage]
  exact h

theorem stage_of_silent {w w' : World} (h : w'.silent = w.silent) : w'.stage = w.stage := by
  show w'.silent.stage = w.silent.stage
  rw [h]

/-! ## What stays -/

theorem isLive_frame (w : World) (ref : Ref) : w.isLive ref = (w.frameOf ref).isSome := by
  simp only [isLive, Table.contains, frameOf, Option.isSome_map]

theorem idOf_frame (w : World) (ref : Ref) : w.idOf ref = ((w.frameOf ref).map (·.1)).getD ⟨0⟩ := by
  simp only [idOf, frameOf, Option.map_map, Function.comp_def]

theorem spaceOf_frame (w : World) (ref : Ref) : w.spaceOf ref = ((w.frameOf ref).map (·.2.1)).getD .items := by
  simp only [spaceOf, frameOf, Option.map_map, Function.comp_def]

theorem handlersOf_frame (w : World) (ref : Ref) : w.handlersOf ref = ((w.frameOf ref).map (·.2.2)).getD [] := by
  simp only [handlersOf, frameOf, Option.map_map, Function.comp_def]

theorem hasItem_iff (w : World) (ref : Ref) : w.HasItem ref ↔ w.isLive ref = true ∧ w.spaceOf ref = .items := by
  rw [isLive_iff]
  constructor
  · rintro ⟨x, hx, hs⟩
    exact ⟨⟨x, hx⟩, (spaceOf_eq hx).trans hs⟩
  · rintro ⟨⟨x, hx⟩, hs⟩
    exact ⟨x, hx, (spaceOf_eq hx).symm.trans hs⟩

theorem isThere_item {w : World} {ref : Ref} (h : w.HasItem ref) : w.isThere .items = true := by
  obtain ⟨x, hx, hs⟩ := h
  exact isThere_of_item ⟨hx, hs⟩

namespace Torn

theorem isLive (h : Torn w₀ gone falling queued w) (ref : Ref) : w.isLive ref = w₀.isLive ref := by
  rw [isLive_frame, h.frame, ← isLive_frame]

theorem idOf (h : Torn w₀ gone falling queued w) (ref : Ref) : w.idOf ref = w₀.idOf ref := by
  rw [idOf_frame, h.frame, ← idOf_frame]

theorem spaceOf (h : Torn w₀ gone falling queued w) (ref : Ref) : w.spaceOf ref = w₀.spaceOf ref := by
  rw [spaceOf_frame, h.frame, ← spaceOf_frame]

theorem handlersOf (h : Torn w₀ gone falling queued w) (ref : Ref) : w.handlersOf ref = w₀.handlersOf ref := by
  rw [handlersOf_frame, h.frame, ← handlersOf_frame]

theorem hasItem (h : Torn w₀ gone falling queued w) (ref : Ref) : w.HasItem ref ↔ w₀.HasItem ref := by
  rw [hasItem_iff, h.isLive, h.spaceOf, ← hasItem_iff]

theorem isNamed (h : Torn w₀ gone falling queued w) (ref : Ref) : w.isNamed ref = w₀.isNamed ref := by
  show w.aloof.isNamed ref = w₀.aloof.isNamed ref
  rw [h.aloof]

theorem mode (h : Torn w₀ gone falling queued w) : w.toolkit.mode = w₀.toolkit.mode := by
  show w.aloof.toolkit.mode = w₀.aloof.toolkit.mode
  rw [h.aloof]

/-- An item whose deletion has not begun is found in both tables. -/
theorem mapped (h : Torn w₀ gone falling queued w) (ho : w₀.Ordered) (hk : w₀.Kept ref) (hg : ref ∉ gone) :
    w.itemRegistry.byHandle.get? (w₀.handleOf ref) = some (w₀.idOf ref) ∧
      w.itemRegistry.byId.get? (w₀.idOf ref) = some ⟨ref, w₀.handleOf ref⟩ := by
  have old {a : Ref} (ha : a ∈ gone) : w₀.Kept a := h.kept a (by simp [ha])
  have hh : w₀.handleOf ref ∉ gone.map w₀.handleOf := by
    rw [List.mem_map]
    rintro ⟨a, ha, e⟩
    exact hg ((old ha).handleOf_inj ho hk.toBound e ▸ ha)
  have hi : w₀.idOf ref ∉ gone.map w₀.idOf := by
    rw [List.mem_map]
    rintro ⟨a, ha, e⟩
    exact hg ((old ha).idOf_inj hk.toBound e ▸ ha)
  rw [h.byHandle, h.byId, if_neg hh, if_neg hi]
  exact ⟨hk.mapped ho, hk.entry⟩

theorem standing (h : Torn w₀ gone falling queued w) (ho : w₀.Ordered) (hk : w₀.Kept ref) (hg : ref ∉ gone)
    (hf : ref ∉ falling) : w₀.handleOf ref ∉ (gone ++ falling).map w₀.handleOf := by
  rw [List.mem_map]
  rintro ⟨a, ha, e⟩
  have : a = ref := (h.kept a (List.mem_append_left _ ha)).handleOf_inj ho hk.toBound e
  rcases List.mem_append.mp ha with ha | ha
  · exact hg (this ▸ ha)
  · exact hf (this ▸ ha)

/-- An object is alive as long as the deletion of its item has not begun. -/
theorem alive (h : Torn w₀ gone falling queued w) (ho : w₀.Ordered) (hk : w₀.Kept ref) :
    w.toolkit.items.contains (w₀.handleOf ref) = true ↔ ref ∉ gone ∧ ref ∉ falling := by
  have here : (w₀.toolkit.items.get? (w₀.handleOf ref)).isSome = true := by
    have := hk.slot
    unfold Toolkit.deleteSlot at this
    cases hi : w₀.toolkit.items.get? (w₀.handleOf ref) with
    | none => rw [hi] at this; cases this
    | some i => rfl
  rw [Table.contains, h.items]
  constructor
  · intro hc
    split at hc
    · cases hc
    · rename_i hn
      rw [List.map_append, List.mem_append, not_or] at hn
      exact ⟨fun hg => hn.1 (List.mem_map_of_mem hg), fun hf => hn.2 (List.mem_map_of_mem hf)⟩
  · rintro ⟨hg, hf⟩
    rw [if_neg (h.standing ho hk hg hf)]
    exact here

end Torn

/-! ## A handle is released -/

@[simp] theorem frameOf_modifyWrapper (w : World) (a : Ref) {f : Wrapper → Wrapper}
    (hf : ∀ x, (f x).id = x.id ∧ (f x).space = x.space ∧ (f x).deleted = x.deleted) (ref : Ref) :
    (w.modifyWrapper a f).frameOf ref = w.frameOf ref := by
  simp only [frameOf, modifyWrapper, Table.get?_modify]
  split
  · simp only [Option.map_map, Function.comp_def, hf]
  · rfl

theorem frameOf_setHandle (w : World) (a : Ref) (h : Handle) (ref : Ref) :
    (w.setHandle a h).frameOf ref = w.frameOf ref :=
  frameOf_modifyWrapper w a (f := fun x => { x with handle := h }) (fun _ => ⟨rfl, rfl, rfl⟩) ref

theorem handleOf_modifyWrapper (w : World) (a : Ref) {f : Wrapper → Wrapper}
    (hf : ∀ x, (f x).handle = x.handle) (ref : Ref) :
    (w.modifyWrapper a f).handleOf ref = w.handleOf ref := by
  simp only [handleOf, modifyWrapper, Table.get?_modify]
  split
  · simp only [Option.map_map, Function.comp_def, hf]
  · rfl

theorem handleOf_setNull (w : World) (a ref : Ref) :
    (w.setHandle a .null).handleOf ref = if ref = a then .null else w.handleOf ref := by
  simp only [handleOf, setHandle, modifyWrapper, Table.get?_modify]
  split
  · cases w.wrappers.get? ref <;> rfl
  · rfl

theorem Torn.setNull (h : Torn w₀ gone falling queued w) (hr : ref ∈ gone ++ falling ++ queued) :
    Torn w₀ gone falling queued (w.setHandle ref .null) :=
  { h with
    frame := fun a => (frameOf_setHandle w ref .null a).trans (h.frame a)
    handle := fun a => by
      rw [handleOf_setNull]
      split
      · rename_i ha
        exact Or.inr ⟨rfl, ha ▸ hr⟩
      · exact h.handle a
    nulled := fun a ha => by
      rw [handleOf_setNull]
      split
      · rfl
      · exact h.nulled a ha }

theorem stage_releaseHandle {w : World} {ref : Ref} (h : w.HasItem ref) :
    (w.releaseHandle ref).stage = (w.setHandle ref .null).stage := by
  obtain ⟨x, hx, hs⟩ := h
  cases hk : x.kind <;> simp_all [releaseHandle, Wrapper.space]

theorem isNamed_stage (w : World) (ref : Ref) : w.stage.isNamed ref = w.isNamed ref := rfl

theorem stage_log (w : World) (r : Record) : (w.log r).stage = w.stage := rfl

theorem stage_answering (w : World) (a : Answer) : (w.answering a).stage = w.stage := rfl

theorem stage_unpinRegistry (w : World) (space : Space) : (w.unpin (.registry space)).stage = w.stage := rfl

theorem stage_unpinSender (w : World) (s : Sender) : (w.unpin (.sender s)).stage = w.stage := rfl

/-- Letting go of what the program holds frees nothing. -/
theorem stage_unpin {w : World} {ref : Ref} (h : w.isNamed ref = true) :
    (w.unpin (.wrapper ref)).stage = w.stage := by
  have held : { w with pins := w.pins.erase (.wrapper ref) }.isHeld ref = true := by
    show (w.isNamed ref || _) = true
    rw [h, Bool.true_or]
  simp only [unpin, release_of_held held]
  rfl

/-- A request to delete changes nothing but the queue. -/
theorem stage_requested (w : World) (ref : Ref) : (w.requested ref).stage = w.stage := by
  have told (v : World) (h : Handle) : (v.callToolkit (.itemDel h)).stage = v.stage := by
    obtain ⟨queue, e⟩ := v.toolkit.apply_itemDel h
    simp only [callToolkit, Toolkit.complaint, e]
    rfl
  exact told _ _

/-- What is done after a delete leaves nothing but a null handle. -/
theorem stage_finished {w : World} {ref : Ref} (item : w.HasItem ref) (named : w.isNamed ref = true)
    (space : Space) :
    (w.finished ref space).stage = (w.setHandle ref .null).stage := by
  have named' : (w.releaseHandle ref).isNamed ref = true := by
    rw [← isNamed_stage, stage_releaseHandle item]
    exact named
  rw [World.finished, stage_answering, stage_unpinRegistry, stage_unpin named', stage_releaseHandle item]

theorem Torn.finished (h : Torn w₀ gone falling queued w) (hr : ref ∈ gone ++ falling ++ queued) (space : Space) :
    Torn w₀ gone falling queued (w.finished ref space) :=
  (h.setNull hr).congr (stage_finished ((h.hasItem ref).mpr (h.kept ref hr).item)
    ((h.isNamed ref).trans (h.kept ref hr).named) space)

/-! ## A report begins -/

theorem destroy_unknown {h : Handle} (hc : w.toolkit.items.contains h = false) :
    w.destroy h = (w.log (.destroyUnknown h), []) := by
  have hi : w.toolkit.items.get? h = none := by
    simpa [Table.contains] using hc
  simp only [destroy, Toolkit.destroy?, hi]

theorem destroy_alive {h : Handle} {cb : DeleteCallback} (hs : w.toolkit.deleteSlot h = some cb) :
    w.destroy h = ({ w with toolkit := w.toolkit.without h }.log (.destroyed h), [.slot cb h]) := by
  unfold Toolkit.deleteSlot at hs
  obtain ⟨i, hi, hs⟩ := Option.bind_eq_some_iff.mp hs
  simp only [destroy, Toolkit.destroy?_alive hi, hs]

namespace Torn

/-- The object of an item that stands has the registry's callback. -/
theorem slot (h : Torn w₀ gone falling queued w) (ho : w₀.Ordered) (hk : w₀.Kept ref) (hg : ref ∉ gone)
    (hf : ref ∉ falling) :
    w.toolkit.deleteSlot (w₀.handleOf ref) = some (.registry .items) := by
  rw [Toolkit.deleteSlot, h.items, if_neg (h.standing ho hk hg hf)]
  exact hk.slot

theorem destroy_eq (h : Torn w₀ gone falling queued w) (ho : w₀.Ordered) (hk : w₀.Kept ref) (hg : ref ∉ gone)
    (hf : ref ∉ falling) :
    w.destroy (w₀.handleOf ref) =
      ({ w with toolkit := w.toolkit.without (w₀.handleOf ref) }.log (.destroyed (w₀.handleOf ref)),
        [.slot (.registry .items) (w₀.handleOf ref)]) :=
  destroy_alive (h.slot ho hk hg hf)

/-- The object of an item is destroyed, and its report begins. -/
theorem opened (h : Torn w₀ gone falling queued w) (ho : w₀.Ordered) (hk : w₀.Kept ref) (hg : ref ∉ gone)
    (hf : ref ∉ falling) :
    Torn w₀ gone (ref :: falling) queued
      ((w.destroy (w₀.handleOf ref)).1.opened ref (w₀.idOf ref) (w₀.handleOf ref)) := by
  rw [h.destroy_eq ho hk hg hf]
  have fallen (a : Handle) : a ∈ (gone ++ ref :: falling).map w₀.handleOf ↔
      a = w₀.handleOf ref ∨ a ∈ (gone ++ falling).map w₀.handleOf := by
    simp only [List.map_append, List.map_cons, List.mem_append, List.mem_cons]
    tauto
  exact
    { kept := fun a ha => by
        by_cases e : a = ref
        · exact e ▸ hk
        · refine h.kept a ?_
          simpa [e] using ha
      aloof := h.aloof
      frame := h.frame
      handle := fun a => by
        refine (h.handle a).imp id (And.imp id fun ha => ?_)
        simp only [List.mem_append, List.mem_cons] at ha ⊢
        tauto
      nulled := h.nulled
      byId := h.byId
      byHandle := h.byHandle
      dying := fun a => by
        show a ∈ w₀.handleOf ref :: w.itemRegistry.dying ↔ _
        rw [List.mem_cons, h.dying, List.map_cons, List.mem_cons]
      nextId := h.nextId
      nextHandle := h.nextHandle
      objects := h.objects
      items := fun a => by
        show (w.toolkit.items.erase (w₀.handleOf ref)).get? a = _
        rw [Table.get?_erase, h.items]
        simp only [fallen]
        by_cases e : a = w₀.handleOf ref <;> simp [e]
      destroyed := fun a => by
        show a ∈ Toolkit.addHandle (w₀.handleOf ref) w.toolkit.destroyed ↔ _
        rw [Toolkit.mem_addHandle, h.destroyed, fallen]
        tauto
      registrations := by
        show w.toolkit.registrations.filter (·.object ≠ w₀.handleOf ref) = _
        rw [h.registrations, List.filter_filter]
        refine List.filter_congr fun r _ => ?_
        rw [← Bool.decide_and, decide_eq_decide, fallen]
        tauto }

end Torn

/-! ## A report ends -/

theorem aloof_settled (w : World) (h : Handle) (id : ItemId) (wrapper : Option Ref) :
    (w.settled .items h id wrapper).aloof = w.aloof := by
  simp only [World.settled]
  split
  · split <;> rfl
  · rfl

/-- What the end of a report leaves of an item that the program holds. -/
theorem stage_settle {w : World} {ref : Ref} {id : ItemId} {h : Handle} (item : w.HasItem ref)
    (named : w.isNamed ref = true) (here : (w.registry .items).isElsewhere id h = false) :
    (w.settle .items h id (some ref)).stage = (w.settled .items h id (some ref)).stage := by
  have he :
      ((w.setRegistry .items ((w.registry .items).endDying h id)).registry .items).isElsewhere id h = false := by
    rw [registry_setRegistry, if_pos rfl, Registry.isElsewhere_endDying, here]
  simp only [settle, settled, he, Bool.false_eq_true, if_false, true_and]
  split
  · have item' : (w.setRegistry .items ((w.registry .items).endDying h id)).HasItem ref := item
    rw [stage_unpin, stage_releaseHandle item']
    rw [← isNamed_stage, stage_releaseHandle item']
    exact named
  · exact stage_unpin named

theorem handleOf_settled {w : World} {ref : Ref} {id : ItemId} {h : Handle}
    (here : (w.registry .items).isElsewhere id h = false)
    (hh : w.handleOf ref = h ∨ w.handleOf ref = .null) (a : Ref) :
    (w.settled .items h id (some ref)).handleOf a = if a = ref then .null else w.handleOf a := by
  rw [handleOf, wrapper_settled]
  by_cases e : a = ref
  · subst e
    simp only [here, true_and, if_true]
    split
    · cases w.wrappers.get? a <;> rfl
    · rename_i hne
      exact hh.resolve_left hne
  · simp [e, Ne.symm e, handleOf]

namespace Torn

theorem cleared (h : Torn w₀ gone falling queued w) (item : w₀.HasItem ref) :
    Torn w₀ gone falling queued (w.invalidate ref).1 := by
  have clear (w : World) (h : Torn w₀ gone falling queued w) :
      Torn w₀ gone falling queued (w.modifyWrapper ref (·.cleared)) :=
    { h with
      frame := fun a =>
        have kept := frameOf_modifyWrapper w ref (f := Wrapper.cleared) (fun x => ⟨rfl, x.space_cleared, rfl⟩) a
        kept.trans (h.frame a)
      handle := fun a => by
        rw [handleOf_modifyWrapper w ref (f := Wrapper.cleared) fun _ => rfl]
        exact h.handle a
      nulled := fun a ha => by
        rw [handleOf_modifyWrapper w ref (f := Wrapper.cleared) fun _ => rfl]
        exact h.nulled a ha }
  obtain ⟨x, hx, hs⟩ := (h.hasItem ref).mpr item
  unfold invalidate
  cases hk : x.kind with
  | plain =>
    simp only [hx, hk]
    exact clear w h
  | grid data =>
    simp only [hx, hk]
    exact clear _ (h.congr rfl)
  | probe => simp [Wrapper.space, hk] at hs

theorem here (h : Torn w₀ gone falling queued w) (ho : w₀.Ordered) (hk : w₀.Kept ref) (hg : ref ∉ gone) :
    (w.registry .items).isElsewhere (w₀.idOf ref) (w₀.handleOf ref) = false := by
  show w.itemRegistry.isElsewhere _ _ = false
  simp [Registry.isElsewhere, (h.mapped ho hk hg).2]

theorem settled (h : Torn w₀ gone (ref :: falling) queued w) (ho : w₀.Ordered) (hg : ref ∉ gone)
    (hf : ref ∉ falling) :
    Torn w₀ (ref :: gone) falling queued (w.settled .items (w₀.handleOf ref) (w₀.idOf ref) (some ref)) := by
  have hk : w₀.Kept ref := h.kept ref (by simp)
  have here := h.here ho hk hg
  obtain ⟨mapped, entry⟩ := h.mapped ho hk hg
  have items : (w.settled .items (w₀.handleOf ref) (w₀.idOf ref) (some ref)).itemRegistry =
      w.itemRegistry.endDying (w₀.handleOf ref) (w₀.idOf ref) := w.registry_settled .items .items _ _ _
  have toolkit := w.toolkit_settled .items (w₀.handleOf ref) (w₀.idOf ref) (some ref)
  have handleOf := handleOf_settled here ((h.handle ref).imp id (·.1))
  have fallen (a : Handle) : a ∈ (ref :: gone ++ falling).map w₀.handleOf ↔
      a ∈ (gone ++ ref :: falling).map w₀.handleOf := by
    simp only [List.cons_append, List.map_cons, List.map_append, List.mem_cons, List.mem_append]
    tauto
  exact
    { kept := fun a ha => h.kept a (by
        simp only [List.mem_append, List.mem_cons] at ha ⊢
        tauto)
      aloof := (w.aloof_settled _ _ _).trans h.aloof
      frame := fun a => by
        rw [← h.frame a, frameOf, frameOf, wrapper_settled]
        split
        · cases w.wrappers.get? a <;> rfl
        · rfl
      handle := fun a => by
        rw [handleOf]
        split
        · rename_i e
          exact Or.inr ⟨rfl, by simp [e]⟩
        · refine (h.handle a).imp id (And.imp id fun ha => ?_)
          simp only [List.mem_append, List.mem_cons] at ha ⊢
          tauto
      nulled := fun a ha => by
        rw [handleOf]
        split
        · rfl
        · rename_i e
          refine h.nulled a ?_
          simpa [e] using ha
      byId := fun id => by
        rw [items, Registry.byId_endDying, h.byId]
        have : w.itemRegistry.isElsewhere (w₀.idOf ref) (w₀.handleOf ref) = false := here
        simp only [this, and_true, List.map_cons, List.mem_cons]
        by_cases e : id = w₀.idOf ref <;> simp [e]
      byHandle := fun a => by
        rw [items, Registry.byHandle_endDying, mapped, h.byHandle]
        simp only [and_true, List.map_cons, List.mem_cons]
        by_cases e : a = w₀.handleOf ref <;> simp [e]
      dying := fun a => by
        rw [items, Registry.dying_endDying, List.mem_filter, h.dying, List.map_cons, List.mem_cons]
        have other (ha : a ∈ falling.map w₀.handleOf) : a ≠ w₀.handleOf ref := by
          obtain ⟨b, hb, rfl⟩ := List.mem_map.mp ha
          exact fun e => hf ((h.kept b (by simp [hb])).handleOf_inj ho hk.toBound e ▸ hb)
        simp only [ne_eq, decide_not, Bool.not_eq_true', decide_eq_false_iff_not]
        tauto
      nextId := by rw [items, Registry.nextId_endDying, h.nextId]
      nextHandle := by rw [toolkit, h.nextHandle]
      objects := by rw [toolkit, h.objects]
      items := fun a => by
        rw [toolkit, h.items]
        simp only [fallen]
      destroyed := fun a => by rw [toolkit, h.destroyed, fallen]
      registrations := by
        rw [toolkit, h.registrations]
        refine List.filter_congr fun r _ => ?_
        rw [decide_eq_decide, fallen] }

/-- The report ends: the item is gone. -/
theorem closed (h : Torn w₀ gone (ref :: falling) queued w) (ho : w₀.Ordered) (hg : ref ∉ gone)
    (hf : ref ∉ falling) :
    Torn w₀ (ref :: gone) falling queued (w.closed ref (w₀.idOf ref) (w₀.handleOf ref)) := by
  have hk : w₀.Kept ref := h.kept ref (by simp)
  have cleared := h.cleared hk.item
  refine (cleared.settled ho hg hf).congr ?_
  rw [World.closed, stage_unpinRegistry]
  exact stage_settle ((cleared.hasItem ref).mpr hk.item) ((cleared.isNamed ref).trans hk.named)
    (cleared.here ho hk hg)

/-- The toolkit destroys the object of an item that stands. In the report that this
    causes, the observers of the item may bring further deletions to their end. -/
theorem destroys {p : Program} {level : Nat} {told : Ref → List Notice} {w₄ : World} {gone' queued' : List Ref}
    (h : Torn w₀ gone falling queued w) (ho : w₀.Ordered) (hk : w₀.Kept ref) (hg : ref ∉ gone) (hf : ref ∉ falling)
    (calls : p.Yields ((w₀.handlersOf ref).map fun handler => ⟨level, .enter (.deleted handler ref)⟩)
      ((w.destroy (w₀.handleOf ref)).1.opened ref (w₀.idOf ref) (w₀.handleOf ref)) w₄ told)
    (h₄ : Torn w₀ gone' (ref :: falling) queued' w₄) (hg' : ref ∉ gone') :
    p.Yields ((w.destroy (w₀.handleOf ref)).2.map (⟨level, ·⟩)) (w.destroy (w₀.handleOf ref)).1
        (w₄.closed ref (w₀.idOf ref) (w₀.handleOf ref)) (inReport ref told) ∧
      Torn w₀ (ref :: gone') falling queued' (w₄.closed ref (w₀.idOf ref) (w₀.handleOf ref)) := by
  refine ⟨?_, h₄.closed ho hg' hf⟩
  have item := (h.hasItem ref).mpr hk.item
  obtain ⟨mapped, entry⟩ := h.mapped ho hk hg
  have live : w.isLive ref = true := ((w.hasItem_iff ref).mp item).1
  have fresh : w₀.handleOf ref ∉ w.itemRegistry.dying := by
    rw [h.dying]
    exact fun hm => h.standing ho hk hg hf (by rw [List.map_append]; exact List.mem_append_right _ hm)
  rw [h.destroy_eq ho hk hg hf] at calls ⊢
  refine Program.yields_slot ?_ fresh mapped ?_ ?_ ((h₄.hasItem ref).mpr hk.item)
  · exact isThere_item item
  · show w.itemRegistry.lookupId w.isLive _ = _
    simp only [Registry.lookupId, entry, live, if_true]
  · have hn :
        ({ w with toolkit := w.toolkit.without (w₀.handleOf ref) }.log (.destroyed (w₀.handleOf ref))).notifications ref =
        (w₀.handlersOf ref).map fun handler => .enter (.deleted handler ref) := by
      rw [← h.handlersOf ref]
      exact notifications_item item
    rw [hn, List.map_map]
    exact calls

end Torn

/-! ## What is told on the way -/

/-- All that an item is told in the report of its deletion. -/
def wholeReport (w : World) (ref : Ref) : List Notice :=
  .notified :: (w.handlersOf ref).map .heard ++ [.invalidated]

/-- What each item is told while the deletions of `gone` become those of `gone'`. -/
def reports (w : World) (gone gone' : List Ref) : Ref → List Notice :=
  fun ref => if ref ∈ gone' ∧ ref ∉ gone then w.wholeReport ref else []

theorem reports_self (w : World) (gone : List Ref) : w.reports gone gone = untold := by
  funext ref
  simp [reports, untold]

theorem reports_trans (w : World) {gone gone' gone'' : List Ref} (h : gone ⊆ gone') (h' : gone' ⊆ gone'')
    (ref : Ref) :
    w.reports gone gone' ref ++ w.reports gone' gone'' ref = w.reports gone gone'' ref := by
  by_cases hg' : ref ∈ gone'
  · simp [reports, hg', h' hg']
  · have hg : ref ∉ gone := fun hg => hg' (h hg)
    simp [reports, hg', hg]

/-- The report of an item whose observers cause no other. -/
theorem inReport_eq (w : World) {gone : List Ref} {ref : Ref} (hg : ref ∉ gone) (a : Ref) :
    inReport ref (fun a => if a = ref then (w.handlersOf ref).map .heard else []) a =
      w.reports gone (ref :: gone) a := by
  by_cases ha : a = ref
  · subst ha
    simp [inReport, reports, wholeReport, hg]
  · simp [inReport, reports, ha]

end World

end HandleBridge
