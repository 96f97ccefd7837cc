/-
  HandleBridge.Proofs.Tables — the two tables of a registry are inverses of each other.

  A registry is `Coherent` when `h` is mapped to `id` exactly for the non-null `h` that
  the entry of `id` holds, and every id in it has been given out. Each change to the
  tables keeps that: binding (`coherent_bind`), forgetting (`coherent_forget`), the two
  ends of a report (`coherent_startDying`, `coherent_endDying`).

  A world is `Ordered` when both registries are coherent, every wrapper's id has been
  given out by its registry, references are not used twice, and an entry refers to a
  wrapper of its own id. Moves keep it (`ordered_move`), so does every step
  (`ordered_turn`), whatever the program does:
  - `tables_are_inverse`: in every state that a run comes through, so at every
    point at which a handler can look, both tables are inverses of each other, null is
    no key, ids are below the next one, and there are no more handles than items.
-/
import HandleBridge.Proofs.Moves
import Mathlib.Data.List.Nodup
import Mathlib.Data.List.Perm.Subperm

namespace HandleBridge

theorem Handle.isNull_iff (h : Handle) : h.isNull = true ↔ h = .null := by
  obtain ⟨raw⟩ := h
  simp [isNull, null]

theorem Handle.isNull_eq_false_iff (h : Handle) : h.isNull = false ↔ h ≠ .null := by
  rw [← Bool.not_eq_true, h.isNull_iff]

namespace Registry

/-- The handle that the entry of `id` holds, if there is an entry. -/
def boundTo (r : Registry) (id : ItemId) : Option Handle := (r.byId.get? id).map (·.handle)

structure Coherent (r : Registry) : Prop where
  inverse : ∀ h id, r.byHandle.get? h = some id ↔ h ≠ .null ∧ r.boundTo id = some h
  below : ∀ id e, r.byId.get? id = some e → id.val < r.nextId

theorem coherent_empty : Coherent .empty := by
  refine ⟨fun h id => ?_, fun id e he => ?_⟩
  · simp [empty, boundTo]
  · simp [empty] at he

theorem coherent_startDying {r : Registry} (hr : r.Coherent) (h : Handle) : (r.startDying h).Coherent :=
  ⟨hr.inverse, hr.below⟩

theorem allocate_eq {r r' : Registry} {id : ItemId} (h : r.allocate? = some (id, r')) :
    id = ⟨r.nextId⟩ ∧ r' = { r with nextId := r.nextId + 1 } := by
  unfold allocate? at h
  split at h
  · simp only [Option.some.injEq, Prod.mk.injEq] at h
    exact ⟨h.1.symm, h.2.symm⟩
  · cases h

theorem coherent_allocate {r : Registry} (hr : r.Coherent) : { r with nextId := r.nextId + 1 }.Coherent :=
  ⟨hr.inverse, fun id e he => Nat.lt_succ_of_lt (hr.below id e he)⟩

theorem isBoundTo_eq (r : Registry) (id : ItemId) (h : Handle) : r.isBoundTo id h = true ↔ r.boundTo id = some h := by
  unfold isBoundTo boundTo
  cases r.byId.get? id <;> simp

theorem isElsewhere_eq (r : Registry) (id : ItemId) (h : Handle) :
    r.isElsewhere id h = true ↔ ∃ h', r.boundTo id = some h' ∧ h' ≠ h := by
  unfold isElsewhere boundTo
  cases r.byId.get? id <;> simp

theorem byId_unmap (r : Registry) (h : Handle) (id : ItemId) : (r.unmap h id).byId = r.byId := by
  unfold unmap
  split <;> rfl

theorem nextId_unmap (r : Registry) (h : Handle) (id : ItemId) : (r.unmap h id).nextId = r.nextId := by
  unfold unmap
  split <;> rfl

theorem byHandle_unmap (r : Registry) (h a : Handle) (id : ItemId) :
    (r.unmap h id).byHandle.get? a = if a = h ∧ r.byHandle.get? h = some id then none else r.byHandle.get? a := by
  unfold unmap
  by_cases hm : r.byHandle.get? h = some id
  · by_cases ha : a = h <;> simp [hm, ha]
  · simp [hm]

/-- Forgetting takes the pair of `id` out of both tables. -/
theorem byId_forget (r : Registry) (id i : ItemId) :
    (r.forget id).byId.get? i = if i = id then none else r.byId.get? i := by
  unfold forget
  rcases he : r.byId.get? id with _ | e
  · by_cases hi : i = id
    · subst hi; simp [he]
    · simp [hi]
  · simp [byId_unmap]

theorem byHandle_forget {r : Registry} (hr : r.Coherent) (id : ItemId) (a : Handle) :
    (r.forget id).byHandle.get? a = if r.byHandle.get? a = some id then none else r.byHandle.get? a := by
  have inv := hr.inverse a id
  unfold forget
  unfold boundTo at inv
  rcases he : r.byId.get? id with _ | e
  · simp [he] at inv
    simp [inv]
  · rw [he] at inv
    simp only [byHandle_unmap, Option.map_some, Option.some.injEq] at inv ⊢
    by_cases ha : a = e.handle
    · subst ha; simp
    · have : r.byHandle.get? a ≠ some id := fun h => ha (inv.mp h).2.symm
      simp [ha, this]

theorem nextId_forget (r : Registry) (id : ItemId) : (r.forget id).nextId = r.nextId := by
  unfold forget
  split
  · exact nextId_unmap _ _ _
  · rfl

theorem coherent_forget {r : Registry} (hr : r.Coherent) (id : ItemId) : (r.forget id).Coherent := by
  refine ⟨fun a i => ?_, fun i e he => ?_⟩
  · have inv := hr.inverse a i
    have inv' := hr.inverse a id
    unfold boundTo at inv inv' ⊢
    rw [byHandle_forget hr, byId_forget]
    by_cases hi : i = id
    · subst hi; simp
    · by_cases hb : r.byHandle.get? a = some id
      · have : r.byHandle.get? a ≠ some i := fun h => hi (by rw [h] at hb; exact Option.some.inj hb)
        simp only [hb, if_true, hi, if_false]
        rw [← inv]
        simp [hb, Ne.symm hi]
      · simp only [hb, if_false, hi]
        exact inv
  · rw [byId_forget] at he
    rw [nextId_forget]
    split at he
    · cases he
    · exact hr.below i e he

theorem dying_unmap (r : Registry) (h : Handle) (id : ItemId) : (r.unmap h id).dying = r.dying := by
  unfold unmap
  split <;> rfl

theorem dying_forget (r : Registry) (id : ItemId) : (r.forget id).dying = r.dying := by
  unfold forget
  split
  · exact dying_unmap _ _ _
  · rfl

theorem dying_bind (r : Registry) (id : ItemId) (ref : Ref) (h : Handle) : (r.bind id ref h).dying = r.dying := by
  have previous : (if (r.handleOf id).isNull then r else r.unmap (r.handleOf id) id).dying = r.dying := by
    split
    · rfl
    · exact dying_unmap _ _ _
  simp only [bind]
  split
  · exact previous
  · split
    · split <;> exact previous
    · exact previous

theorem nextId_bind (r : Registry) (id : ItemId) (ref : Ref) (h : Handle) : (r.bind id ref h).nextId = r.nextId := by
  have previous : (if (r.handleOf id).isNull then r else r.unmap (r.handleOf id) id).nextId = r.nextId := by
    split
    · rfl
    · exact nextId_unmap _ _ _
  simp only [bind]
  split
  · exact previous
  · split
    · split <;> exact previous
    · exact previous

theorem dying_endDying (r : Registry) (h : Handle) (id : ItemId) :
    (r.endDying h id).dying = r.dying.filter (· ≠ h) := by
  have left : ({ r with dying := r.dying.filter (· ≠ h) }.unmap h id).dying = r.dying.filter (· ≠ h) := dying_unmap _ _ _
  unfold endDying
  simp only
  split <;> exact left

/-- What the end of a report leaves of the table by id. -/
theorem byId_endDying (r : Registry) (h : Handle) (id i : ItemId) :
    (r.endDying h id).byId.get? i = if i = id ∧ r.isElsewhere id h = false then none else r.byId.get? i := by
  have he : Registry.isElsewhere ({ r with dying := r.dying.filter (· ≠ h) }.unmap h id) id h = r.isElsewhere id h := by
    unfold isElsewhere
    rw [byId_unmap]
  unfold endDying
  simp only [he]
  cases hb : r.isElsewhere id h
  · by_cases hi : i = id <;> simp [byId_unmap, hi]
  · simp [byId_unmap]

theorem byHandle_endDying (r : Registry) (h a : Handle) (id : ItemId) :
    (r.endDying h id).byHandle.get? a = if a = h ∧ r.byHandle.get? h = some id then none else r.byHandle.get? a := by
  have hu := byHandle_unmap { r with dying := r.dying.filter (· ≠ h) } h a id
  unfold endDying
  simp only
  split
  · exact hu
  · exact hu

theorem nextId_endDying (r : Registry) (h : Handle) (id : ItemId) : (r.endDying h id).nextId = r.nextId := by
  unfold endDying
  simp only
  split
  · exact nextId_unmap _ _ _
  · exact nextId_unmap _ _ _

theorem isElsewhere_endDying (r : Registry) (h : Handle) (id : ItemId) :
    (r.endDying h id).isElsewhere id h = r.isElsewhere id h := by
  have hb := r.byId_endDying h id id
  cases he : r.isElsewhere id h
  · rw [he, if_pos ⟨rfl, rfl⟩] at hb
    simp only [isElsewhere, hb]
  · rw [he, if_neg (by simp)] at hb
    rw [← he]
    simp only [isElsewhere, hb]

theorem coherent_endDying {r : Registry} (hr : r.Coherent) (h : Handle) (id : ItemId) : (r.endDying h id).Coherent := by
  refine ⟨fun a i => ?_, fun i e he => ?_⟩
  · have inv := hr.inverse a i
    have pair (h' : r.byHandle.get? h = some id) : r.boundTo id = some h := ((hr.inverse h id).mp h').2
    have away := r.isElsewhere_eq id h
    have hb : (r.endDying h id).boundTo i = if i = id ∧ r.isElsewhere id h = false then none else r.boundTo i := by
      unfold boundTo
      rw [byId_endDying]
      split <;> rfl
    rw [byHandle_endDying, hb]
    by_cases hi : i = id
    · subst hi
      cases he : r.isElsewhere i h
      · -- what is left under `i` by handle could only be `h`, which has been taken out
        have stay (ha : r.byHandle.get? a = some i) : a = h := by
          by_cases hne : a = h
          · exact hne
          · have := away.mpr ⟨a, (inv.mp ha).2, hne⟩
            rw [he] at this
            cases this
        grind
      · obtain ⟨h', hbound, hne⟩ := away.mp he
        grind
    · grind
  · rw [byId_endDying] at he
    rw [nextId_endDying]
    split at he
    · cases he
    · exact hr.below i e he

/-- The tables without the pair that the entry of `id` stands for. -/
def unbound (r : Registry) (id : ItemId) : Registry :=
  if (r.handleOf id).isNull then r else r.unmap (r.handleOf id) id

theorem byId_unbound (r : Registry) (id : ItemId) : (r.unbound id).byId = r.byId := by
  unfold unbound
  split
  · rfl
  · exact byId_unmap _ _ _

theorem nextId_unbound (r : Registry) (id : ItemId) : (r.unbound id).nextId = r.nextId := by
  unfold unbound
  split
  · rfl
  · exact nextId_unmap _ _ _

theorem byHandle_unbound {r : Registry} (hr : r.Coherent) (id : ItemId) (a : Handle) :
    (r.unbound id).byHandle.get? a = if r.byHandle.get? a = some id then none else r.byHandle.get? a := by
  have inv := hr.inverse a id
  -- `id` is found at the handle of its entry and nowhere else
  have here (h : r.byHandle.get? a = some id) : r.handleOf id = a := by
    obtain ⟨-, hb⟩ := inv.mp h
    unfold boundTo at hb
    unfold handleOf
    rw [hb]
    rfl
  unfold unbound
  cases hn : (r.handleOf id).isNull
  · simp only [Bool.false_eq_true, if_false, byHandle_unmap]
    grind
  · have : r.byHandle.get? a ≠ some id := fun h => (inv.mp h).1 ((here h) ▸ (r.handleOf id).isNull_iff.mp hn)
    simp only [if_true, this, if_false]

/-- A handle that is not refused is mapped to nothing, to `id` itself, or to an id whose
    wrapper is gone. -/
theorem owner_gone {live : Ref → Bool} {r : Registry} {id owner : ItemId} {h : Handle} (hc : r.conflict? live id h = none)
    (hn : h ≠ .null) (ho : r.byHandle.get? h = some owner) (hne : owner ≠ id) : r.lookupId live owner = none := by
  rcases hl : r.lookupId live owner with _ | ref
  · rfl
  · simp [conflict?, h.isNull_eq_false_iff.mpr hn, ho, hne, hl] at hc

theorem not_mapped {r : Registry} (hr : r.Coherent) {id : ItemId} {h : Handle} (hb : r.isBoundTo id h = false) :
    r.byHandle.get? h ≠ some id := by
  intro hm
  have := (r.isBoundTo_eq id h).mpr ((hr.inverse h id).mp hm).2
  rw [hb] at this
  cases this

theorem bind_null (r : Registry) {id : ItemId} {h : Handle} (hn : h.isNull = true) (ref : Ref) :
    r.bind id ref h = { r.unbound id with byId := (r.unbound id).byId.insert id ⟨ref, h⟩ } := by
  simp only [bind, unbound, hn, if_true]

theorem bind_free (r : Registry) {id : ItemId} {h : Handle} (hn : h.isNull = false)
    (hf : (r.unbound id).byHandle.get? h = none) (ref : Ref) :
    r.bind id ref h =
      { r.unbound id with
        byId := (r.unbound id).byId.insert id ⟨ref, h⟩, byHandle := (r.unbound id).byHandle.insert h id } := by
  simp only [unbound] at hf
  simp only [bind, unbound, hn, hf, Bool.false_eq_true, if_false]

theorem bind_stale (r : Registry) {id stale : ItemId} {h : Handle} (hn : h.isNull = false)
    (hs : (r.unbound id).byHandle.get? h = some stale) (hne : stale ≠ id) (ref : Ref) :
    r.bind id ref h =
      { r.unbound id with
        byId := ((r.unbound id).byId.insert id ⟨ref, h⟩).erase stale
        byHandle := (r.unbound id).byHandle.insert h id } := by
  simp only [unbound] at hs
  simp only [bind, unbound, hn, hs, Bool.false_eq_true, if_false, hne, ne_eq, not_false_eq_true, if_true]

/-- Binding puts the pair in, and takes out the pairs that had `id` or `h` before. -/
theorem tables_bind {r : Registry} (hr : r.Coherent) {id : ItemId} {h : Handle} (hb : r.isBoundTo id h = false)
    (ref : Ref) :
    (∀ i, (r.bind id ref h).byId.get? i =
      if i = id then some ⟨ref, h⟩ else if r.byHandle.get? h = some i then none else r.byId.get? i) ∧
    (∀ a, (r.bind id ref h).byHandle.get? a =
      if a = h ∧ h ≠ .null then some id else if r.byHandle.get? a = some id then none else r.byHandle.get? a) ∧
    (r.bind id ref h).nextId = r.nextId := by
  have hne := not_mapped hr hb
  have hu : (r.unbound id).byHandle.get? h = r.byHandle.get? h := by rw [byHandle_unbound hr, if_neg hne]
  cases hn : h.isNull
  · have hn' := h.isNull_eq_false_iff.mp hn
    rcases hs : r.byHandle.get? h with _ | stale
    · rw [bind_free r hn (hu.trans hs)]
      refine ⟨fun i => ?_, fun a => ?_, r.nextId_unbound id⟩
      · simp [byId_unbound]
      · simp [byHandle_unbound hr, hn']
    · have hst : stale ≠ id := fun e => hne (e ▸ hs)
      rw [bind_stale r hn (hu.trans hs) hst]
      refine ⟨fun i => ?_, fun a => ?_, r.nextId_unbound id⟩
      · by_cases hi : i = id
        · subst hi; simp [byId_unbound, Ne.symm hst]
        · simp [byId_unbound, hi, eq_comm]
      · simp [byHandle_unbound hr, hn']
  · have hn' := h.isNull_iff.mp hn
    rw [bind_null r hn]
    refine ⟨fun i => ?_, fun a => ?_, r.nextId_unbound id⟩
    · have : r.byHandle.get? h ≠ some i := fun hm => ((hr.inverse h i).mp hm).1 hn'
      simp [byId_unbound, this]
    · simp [byHandle_unbound hr, hn']

theorem coherent_bind {r : Registry} (hr : r.Coherent) {id : ItemId} {h : Handle} (hb : r.isBoundTo id h = false)
    (hid : id.val < r.nextId) (ref : Ref) : (r.bind id ref h).Coherent := by
  obtain ⟨hi, ha, hn⟩ := tables_bind hr hb ref
  refine ⟨fun a i => ?_, fun i e he => ?_⟩
  · have inv := hr.inverse a i
    have invh := hr.inverse h i
    have bound : (r.bind id ref h).boundTo i =
        if i = id then some h else if r.byHandle.get? h = some i then none else r.boundTo i := by
      unfold boundTo
      rw [hi]
      split
      · rfl
      · split <;> rfl
    rw [ha, bound]
    by_cases hii : i = id
    · subst hii; grind
    · grind
  · rw [hi] at he
    rw [hn]
    split at he
    · rename_i h; rw [h]; exact hid
    · split at he
      · cases he
      · exact hr.below i e he

end Registry

/-! ## Worlds -/

namespace World

theorem isLive_iff (w : World) (ref : Ref) : w.isLive ref = true ↔ ∃ x, w.wrappers.get? ref = some x := by
  unfold isLive Table.contains
  rw [Option.isSome_iff_exists]

@[simp] theorem registry_setRegistry (w : World) (space space' : Space) (r : Registry) :
    (w.setRegistry space r).registry space' = if space' = space then r else w.registry space' := by
  cases space <;> cases space' <;> rfl

@[simp] theorem wrappers_setRegistry (w : World) (space : Space) (r : Registry) :
    (w.setRegistry space r).wrappers = w.wrappers := by
  cases space <;> rfl

@[simp] theorem nextRef_setRegistry (w : World) (space : Space) (r : Registry) :
    (w.setRegistry space r).nextRef = w.nextRef := by
  cases space <;> rfl

@[simp] theorem toolkit_setRegistry (w : World) (space : Space) (r : Registry) :
    (w.setRegistry space r).toolkit = w.toolkit := by
  cases space <;> rfl

theorem idOf_eq {w : World} {ref : Ref} {x : Wrapper} (h : w.wrappers.get? ref = some x) : w.idOf ref = x.id := by
  simp [idOf, h]

theorem spaceOf_eq {w : World} {ref : Ref} {x : Wrapper} (h : w.wrappers.get? ref = some x) : w.spaceOf ref = x.space := by
  simp [spaceOf, h]

theorem handleOf_eq {w : World} {ref : Ref} {x : Wrapper} (h : w.wrappers.get? ref = some x) :
    w.handleOf ref = x.handle := by
  simp [handleOf, h]

theorem registry_attach (w : World) (ref : Ref) (h : Handle) (space : Space) :
    (w.attach ref h).registry space =
      if space = w.spaceOf ref then (w.registry space).bind (w.idOf ref) ref h else w.registry space := by
  unfold attach
  cases hs : w.spaceOf ref <;> cases space <;> rfl

theorem wrappers_attach (w : World) (ref : Ref) (h : Handle) : (w.attach ref h).wrappers = w.wrappers :=
  w.wrappers_setRegistry _ _

theorem nextRef_attach (w : World) (ref : Ref) (h : Handle) : (w.attach ref h).nextRef = w.nextRef :=
  w.nextRef_setRegistry _ _

theorem registry_forget (w : World) (space space' : Space) (id : ItemId) :
    (w.forget space id).registry space' = if space' = space then (w.registry space).forget id else w.registry space' := by
  unfold forget Registry.forget
  rcases he : (w.registry space).byId.get? id with _ | e
  · simp only
    split
    · rename_i hs; rw [hs]
    · rfl
  · exact w.registry_setRegistry space space' _

theorem wrappers_forget (w : World) (space : Space) (id : ItemId) : (w.forget space id).wrappers = w.wrappers := by
  unfold forget
  split
  · exact w.wrappers_setRegistry _ _
  · rfl

theorem nextRef_forget (w : World) (space : Space) (id : ItemId) : (w.forget space id).nextRef = w.nextRef := by
  unfold forget
  split
  · exact w.nextRef_setRegistry _ _
  · rfl

theorem toolkit_forget (w : World) (space : Space) (id : ItemId) : (w.forget space id).toolkit = w.toolkit := by
  unfold forget
  split
  · exact w.toolkit_setRegistry _ _
  · rfl

/-- A freed item takes its entry with it. -/
theorem release_item {w : World} {ref : Ref} {x : Wrapper} (hx : w.wrappers.get? ref = some x) (hh : w.isHeld ref = false)
    (hs : x.space = .items) : w.release ref = { w with wrappers := w.wrappers.erase ref }.forget .items x.id := by
  simp only [release, hh, hx, hs, Bool.false_eq_true, if_false]

theorem release_probe {w : World} {ref : Ref} {x : Wrapper} (hx : w.wrappers.get? ref = some x) (hh : w.isHeld ref = false)
    (hs : x.space = .bare) : w.release ref = { w with wrappers := w.wrappers.erase ref } := by
  simp only [release, hh, hx, hs, Bool.false_eq_true, if_false]

theorem registry_settled (w : World) (space space' : Space) (h : Handle) (id : ItemId) (wrapper : Option Ref) :
    (w.settled space h id wrapper).registry space' =
      if space' = space then (w.registry space).endDying h id else w.registry space' := by
  rw [← registry_setRegistry]
  simp only [settled]
  split
  · split <;> rfl
  · rfl

theorem toolkit_settled (w : World) (space : Space) (h : Handle) (id : ItemId) (wrapper : Option Ref) :
    (w.settled space h id wrapper).toolkit = w.toolkit := by
  have left := w.toolkit_setRegistry space ((w.registry space).endDying h id)
  simp only [settled]
  split
  · split <;> exact left
  · exact left

/-- The end of a report takes the handle from the wrapper that it knows, if that still
    holds it and has not been bound elsewhere. -/
theorem wrapper_settled (w : World) (space : Space) (h : Handle) (id : ItemId) (wrapper : Option Ref) (a : Ref) :
    (w.settled space h id wrapper).wrappers.get? a =
      if wrapper = some a ∧ (w.registry space).isElsewhere id h = false ∧ w.handleOf a = h then
        (w.wrappers.get? a).map ({ · with handle := .null })
      else w.wrappers.get? a := by
  have he : ((w.setRegistry space ((w.registry space).endDying h id)).registry space).isElsewhere id h =
      (w.registry space).isElsewhere id h := by
    rw [registry_setRegistry, if_pos rfl, Registry.isElsewhere_endDying]
  have hh (b : Ref) : (w.setRegistry space ((w.registry space).endDying h id)).handleOf b = w.handleOf b := by
    rw [handleOf, handleOf, wrappers_setRegistry]
  rcases wrapper with _ | ref
  · simp [settled]
  · simp only [settled, he, hh, Option.some.injEq]
    by_cases ha : ref = a
    · subst ha
      split
      · simp_all [setHandle, modifyWrapper]
      · simp_all
    · simp only [ha, false_and, if_false]
      split
      · simp [setHandle, modifyWrapper, Ne.symm ha]
      · rw [wrappers_setRegistry]

/-- What the tables, the ids and the wrappers have to do with each other. -/
structure Ordered (w : World) : Prop where
  coherent : ∀ space, (w.registry space).Coherent
  idBelow : ∀ ref x, w.wrappers.get? ref = some x → x.id.val < (w.registry x.space).nextId
  refBelow : ∀ ref x, w.wrappers.get? ref = some x → ref.serial < w.nextRef
  entryBelow : ∀ space id e, (w.registry space).byId.get? id = some e → e.wrapper.serial < w.nextRef
  entryOwn : ∀ space id e x, (w.registry space).byId.get? id = some e → w.wrappers.get? e.wrapper = some x →
    x.id = id ∧ x.space = space

theorem ordered_start (mode : DeleteMode) : (World.start mode).Ordered := by
  refine ⟨fun space => ?_, ?_, ?_, ?_, ?_⟩
  · cases space <;> exact Registry.coherent_empty
  · simp [start]
  · simp [start]
  · intro space id e he
    cases space <;> simp [start, registry, Registry.empty] at he
  · intro space id e x he
    cases space <;> simp [start, registry, Registry.empty] at he

theorem ordered_congr {w w' : World} (hr : ∀ space, w'.registry space = w.registry space) (hx : w'.wrappers = w.wrappers)
    (hn : w'.nextRef = w.nextRef) (hw : w.Ordered) : w'.Ordered := by
  refine ⟨fun space => ?_, fun ref x h => ?_, fun ref x h => ?_, fun space id e he => ?_, fun space id e x he h => ?_⟩
  · rw [hr]; exact hw.coherent space
  · rw [hx] at h; rw [hr]; exact hw.idBelow ref x h
  · rw [hx] at h; rw [hn]; exact hw.refBelow ref x h
  · rw [hr] at he; rw [hn]; exact hw.entryBelow space id e he
  · rw [hr] at he; rw [hx] at h; exact hw.entryOwn space id e x he h

theorem ordered_toolkit {w : World} (hw : w.Ordered) (t : Toolkit) : { w with toolkit := t }.Ordered :=
  ⟨hw.coherent, hw.idBelow, hw.refBelow, hw.entryBelow, hw.entryOwn⟩

/-- One registry loses entries and may have given out ids. -/
theorem ordered_setRegistry {w : World} {space : Space} {r : Registry} (hw : w.Ordered) (hr : r.Coherent)
    (hn : (w.registry space).nextId ≤ r.nextId)
    (he : ∀ id e, r.byId.get? id = some e → (w.registry space).byId.get? id = some e) : (w.setRegistry space r).Ordered := by
  have sub (s : Space) (id : ItemId) (e : Entry) (h : ((w.setRegistry space r).registry s).byId.get? id = some e) :
      (w.registry s).byId.get? id = some e := by
    rw [registry_setRegistry] at h
    split at h
    · rename_i hs; subst hs; exact he id e h
    · exact h
  refine ⟨fun s => ?_, fun ref x h => ?_, fun ref x h => ?_, fun s id e h => ?_, fun s id e x h hx => ?_⟩
  · rw [registry_setRegistry]
    split
    · exact hr
    · exact hw.coherent s
  · rw [wrappers_setRegistry] at h
    have := hw.idBelow ref x h
    rw [registry_setRegistry]
    split
    · rename_i hs; rw [hs] at this; omega
    · exact this
  · rw [wrappers_setRegistry] at h
    rw [nextRef_setRegistry]
    exact hw.refBelow ref x h
  · rw [nextRef_setRegistry]
    exact hw.entryBelow s id e (sub s id e h)
  · rw [wrappers_setRegistry] at hx
    exact hw.entryOwn s id e x (sub s id e h) hx

theorem ordered_modifyWrapper {w : World} (hw : w.Ordered) (ref : Ref) {f : Wrapper → Wrapper}
    (hf : ∀ x, (f x).id = x.id ∧ (f x).space = x.space) : (w.modifyWrapper ref f).Ordered := by
  -- every wrapper that is there afterwards was there before, with the same id, in the same registry
  have old (a : Ref) (y : Wrapper) (h : (w.modifyWrapper ref f).wrappers.get? a = some y) :
      ∃ x, w.wrappers.get? a = some x ∧ y.id = x.id ∧ y.space = x.space := by
    simp only [modifyWrapper, Table.get?_modify] at h
    split at h
    · obtain ⟨x, hx, rfl⟩ := Option.map_eq_some_iff.mp h
      exact ⟨x, hx, hf x⟩
    · exact ⟨y, h, rfl, rfl⟩
  refine ⟨hw.coherent, fun a y h => ?_, fun a y h => ?_, hw.entryBelow, fun s id e y he h => ?_⟩
  · obtain ⟨x, hx, hi, hs⟩ := old a y h
    rw [hi, hs]
    exact hw.idBelow a x hx
  · obtain ⟨x, hx, -, -⟩ := old a y h
    exact hw.refBelow a x hx
  · obtain ⟨x, hx, hi, hs⟩ := old e.wrapper y h
    rw [hi, hs]
    exact hw.entryOwn s id e x he hx

theorem ordered_setHandle {w : World} (hw : w.Ordered) (ref : Ref) (h : Handle) : (w.setHandle ref h).Ordered :=
  ordered_modifyWrapper hw ref fun _ => ⟨rfl, rfl⟩

theorem ordered_addWrapper {w : World} (hw : w.Ordered) {x : Wrapper} (hx : x.id.val < (w.registry x.space).nextId) :
    (w.addWrapper x).Ordered := by
  have read (a : Ref) (y : Wrapper) (h : (w.addWrapper x).wrappers.get? a = some y) :
      (a = w.freshRef ∧ y = x) ∨ w.wrappers.get? a = some y := by
    simp only [addWrapper, Table.get?_insert] at h
    split at h
    · rename_i ha; exact Or.inl ⟨ha, (Option.some.inj h).symm⟩
    · exact Or.inr h
  refine ⟨hw.coherent, fun a y h => ?_, fun a y h => ?_, fun s id e he => ?_, fun s id e y he h => ?_⟩
  · rcases read a y h with ⟨rfl, rfl⟩ | h
    · exact hx
    · exact hw.idBelow a y h
  · show a.serial < w.nextRef + 1
    rcases read a y h with ⟨rfl, rfl⟩ | h
    · exact Nat.lt_succ_self w.nextRef
    · have := hw.refBelow a y h
      omega
  · show e.wrapper.serial < w.nextRef + 1
    have := hw.entryBelow s id e he
    omega
  · rcases read e.wrapper y h with ⟨hr, rfl⟩ | h
    · -- no entry refers to a wrapper that is new
      have := hw.entryBelow s id e he
      rw [hr] at this
      exact absurd this (Nat.lt_irrefl _)
    · exact hw.entryOwn s id e y he h

theorem ordered_forget {w : World} (hw : w.Ordered) (space : Space) (id : ItemId) : (w.forget space id).Ordered := by
  have hr := Registry.coherent_forget (hw.coherent space) id
  have done : (w.setRegistry space ((w.registry space).forget id)).Ordered := by
    refine ordered_setRegistry hw hr (Nat.le_of_eq (Registry.nextId_forget _ id).symm) fun i e h => ?_
    rw [Registry.byId_forget] at h
    split at h
    · cases h
    · exact h
  refine ordered_congr (fun s => ?_) ?_ ?_ done
  · rw [registry_forget, registry_setRegistry]
  · rw [wrappers_forget, wrappers_setRegistry]
  · rw [nextRef_forget, nextRef_setRegistry]

theorem ordered_erase {w : World} (hw : w.Ordered) (ref : Ref) : { w with wrappers := w.wrappers.erase ref }.Ordered := by
  have old (a : Ref) (y : Wrapper) (h : (w.wrappers.erase ref).get? a = some y) : w.wrappers.get? a = some y := by
    rw [Table.get?_erase] at h
    split at h
    · cases h
    · exact h
  exact ⟨hw.coherent, fun a y h => hw.idBelow a y (old a y h), fun a y h => hw.refBelow a y (old a y h), hw.entryBelow,
    fun s id e y he h => hw.entryOwn s id e y he (old _ y h)⟩

/-- An entry is the one that is put in, or it was there before. -/
theorem entry_attach {w : World} (hw : w.Ordered) {ref : Ref} {h : Handle} (hc : w.CanAttach ref h) {space : Space}
    {id : ItemId} {e : Entry} (he : ((w.attach ref h).registry space).byId.get? id = some e) :
    (space = w.spaceOf ref ∧ id = w.idOf ref ∧ e = ⟨ref, h⟩) ∨ (w.registry space).byId.get? id = some e := by
  rw [registry_attach] at he
  split at he
  · rename_i hs
    subst hs
    rw [(Registry.tables_bind (hw.coherent _) hc.2 ref).1] at he
    split at he
    · rename_i hi; exact Or.inl ⟨rfl, hi, (Option.some.inj he).symm⟩
    · split at he
      · cases he
      · exact Or.inr he
  · exact Or.inr he

theorem ordered_attach {w : World} (hw : w.Ordered) {ref : Ref} {h : Handle} (hl : w.isLive ref = true)
    (hc : w.CanAttach ref h) : (w.attach ref h).Ordered := by
  obtain ⟨x, hx⟩ := (w.isLive_iff ref).mp hl
  have hr := hw.coherent (w.spaceOf ref)
  have hid : (w.idOf ref).val < (w.registry (w.spaceOf ref)).nextId := by
    rw [idOf_eq hx, spaceOf_eq hx]
    exact hw.idBelow ref x hx
  obtain ⟨-, -, nextId⟩ := Registry.tables_bind hr hc.2 ref
  refine ⟨fun s => ?_, fun a y h => ?_, fun a y h => ?_, fun s i e he => ?_, fun s i e y he h => ?_⟩
  · rw [registry_attach]
    split
    · rename_i hs
      rw [hs]
      exact Registry.coherent_bind hr hc.2 hid ref
    · exact hw.coherent s
  · rw [wrappers_attach] at h
    have := hw.idBelow a y h
    rw [registry_attach]
    split
    · rename_i hs
      rw [hs] at this ⊢
      rw [nextId]
      exact this
    · exact this
  · rw [wrappers_attach] at h
    rw [nextRef_attach]
    exact hw.refBelow a y h
  · rw [nextRef_attach]
    rcases entry_attach hw hc he with ⟨rfl, rfl, rfl⟩ | he
    · exact hw.refBelow ref x hx
    · exact hw.entryBelow s i e he
  · rw [wrappers_attach] at h
    rcases entry_attach hw hc he with ⟨rfl, rfl, rfl⟩ | he
    · exact ⟨(idOf_eq h).symm, (spaceOf_eq h).symm⟩
    · exact hw.entryOwn s i e y he h

theorem ordered_settled {w : World} (hw : w.Ordered) (space : Space) (h : Handle) (id : ItemId) (wrapper : Option Ref) :
    (w.settled space h id wrapper).Ordered := by
  have hr := Registry.coherent_endDying (hw.coherent space) h id
  have done : (w.setRegistry space ((w.registry space).endDying h id)).Ordered := by
    refine ordered_setRegistry hw hr (Nat.le_of_eq (Registry.nextId_endDying _ h id).symm) fun i e he => ?_
    rw [Registry.byId_endDying] at he
    split at he
    · cases he
    · exact he
  simp only [settled]
  split
  · split
    · exact ordered_setHandle done _ _
    · exact done
  · exact done

theorem ordered_move {k : Conduct} {w w' : World} (hw : w.Ordered) (hm : Move k w w') : w'.Ordered := by
  cases hm with
  | aside hc =>
    obtain ⟨-, hr, hx, hn⟩ := core_eq hc
    exact ordered_congr hr hx hn hw
  | createItem _ => exact ordered_toolkit hw _
  | createObject _ => exact ordered_toolkit hw _
  | adopt h _ => exact ordered_toolkit hw _
  | takePending => exact ordered_toolkit hw _
  | call c _ => exact ordered_toolkit hw _
  | allocate space id r ha =>
    obtain ⟨rfl, rfl⟩ := Registry.allocate_eq ha
    exact ordered_setRegistry hw (Registry.coherent_allocate (hw.coherent space)) (Nat.le_succ _) fun _ _ he => he
  | create space id r kind ha hs =>
    obtain ⟨rfl, rfl⟩ := Registry.allocate_eq ha
    have made := ordered_setRegistry hw (Registry.coherent_allocate (hw.coherent space)) (Nat.le_succ _) fun _ _ he => he
    refine ordered_addWrapper made ?_
    rw [hs, registry_setRegistry, if_pos rfl]
    exact Nat.lt_succ_self _
  | share id name bare hid => exact ordered_addWrapper hw hid
  | free ref x hx hh =>
    have gone := ordered_erase hw ref
    cases hs : x.space
    · rw [release_item hx hh hs]
      exact ordered_forget gone .items x.id
    · rw [release_probe hx hh hs]
      exact gone
  | attach ref h hl _ hc => exact ordered_attach hw hl hc
  | rebind ref h hl _ _ hc => exact ordered_setHandle (ordered_attach hw hl hc) ref h
  | confirm ref h _ _ _ => exact ordered_setHandle hw ref h
  | setProbe ref h _ => exact ordered_setHandle hw ref h
  | setNull ref => exact ordered_setHandle hw ref .null
  | edit ref f hf => exact ordered_modifyWrapper hw ref fun x => ⟨(hf x).1, (hf x).2.2⟩
  | forget space id _ => exact ordered_forget hw space id

end World

theorem ordered_turn {k : Conduct} {c c' : State} (hc : c.world.Ordered) (hs : Turn k c c') : c'.world.Ordered := by
  refine hs.keeps (fun _ _ hw hm => World.ordered_move hw hm) ?_ ?_ ?_ hc
  · exact fun w h t slot hw _ => World.ordered_toolkit hw t
  · exact fun w space h hw => World.ordered_setRegistry hw (Registry.coherent_startDying (hw.coherent space) h)
      (Nat.le_refl _) fun _ _ he => he
  · exact fun level space h id wrapper ts _ hw => World.ordered_settled hw space h id wrapper

theorem Reach.ordered {k : Conduct} {c : State} (h : Reach k c) : c.world.Ordered :=
  h.invariant (I := fun c => c.world.Ordered) World.ordered_start (fun _ _ _ hw => hw) fun _ _ hc hs => ordered_turn hc hs

/-! ## What a program finds in the tables -/

namespace Registry

theorem Coherent.mapped_iff {r : Registry} (hr : r.Coherent) (h : Handle) (id : ItemId) :
    r.byHandle.get? h = some id ↔ h ≠ .null ∧ ∃ e, r.byId.get? id = some e ∧ e.handle = h := by
  rw [hr.inverse, boundTo, Option.map_eq_some_iff]

theorem Coherent.handle_inj {r : Registry} (hr : r.Coherent) {h h' : Handle} {id : ItemId}
    (hm : r.byHandle.get? h = some id) (hm' : r.byHandle.get? h' = some id) : h = h' := by
  have hb := ((hr.inverse h id).mp hm).2
  rw [((hr.inverse h' id).mp hm').2] at hb
  exact (Option.some.inj hb).symm

theorem Coherent.id_inj {r : Registry} (hr : r.Coherent) {id id' : ItemId} {e e' : Entry} (he : r.byId.get? id = some e)
    (he' : r.byId.get? id' = some e') (hn : e.handle ≠ .null) (hh : e.handle = e'.handle) : id = id' := by
  have hm := (hr.mapped_iff e.handle id).mpr ⟨hn, e, he, rfl⟩
  rw [(hr.mapped_iff e.handle id').mpr ⟨hn, e', he', hh.symm⟩] at hm
  exact (Option.some.inj hm).symm

/-- The ids found by handle are pairwise different, and each has an entry. -/
theorem Coherent.size_le {r : Registry} (hr : r.Coherent) : r.byHandle.size ≤ r.byId.size := by
  have read (p : Handle × ItemId) (hp : p ∈ r.byHandle.entries) : r.byHandle.get? p.1 = some p.2 :=
    (r.byHandle.get?_eq_some_iff p.1 p.2).mpr hp
  have nodup : (r.byHandle.entries.map (·.2)).Nodup := by
    refine List.Nodup.map_on (fun p hp q hq e => ?_) (List.Nodup.of_map _ r.byHandle.nodup)
    have hh := hr.handle_inj (read p hp) (e ▸ read q hq)
    exact Prod.ext hh e
  have sub : r.byHandle.entries.map (·.2) ⊆ r.byId.entries.map (·.1) := by
    intro id hid
    obtain ⟨p, hp, rfl⟩ := List.mem_map.mp hid
    obtain ⟨-, e, he, -⟩ := (hr.mapped_iff p.1 p.2).mp (read p hp)
    exact List.mem_map.mpr ⟨(p.2, e), (r.byId.get?_eq_some_iff p.2 e).mp he, rfl⟩
  have := (nodup.subperm sub).length_le
  rw [List.length_map, List.length_map] at this
  exact this

end Registry

/-- Wherever program code can look, whatever it does, the two tables of a registry are
    inverses of each other on the handles that are not null. So none is mapped to two
    ids, no id has two, and there are no more handles than items. -/
theorem tables_are_inverse {c : State} (h : Reach .free c) (space : Space) :
    let r := c.world.registry space
    (∀ a id, r.byHandle.get? a = some id ↔ a ≠ .null ∧ ∃ e, r.byId.get? id = some e ∧ e.handle = a) ∧
    r.byHandle.get? .null = none ∧
    (∀ id e, r.byId.get? id = some e → id.val < r.nextId) ∧
    (∀ id id' e e', r.byId.get? id = some e → r.byId.get? id' = some e' → e.handle ≠ .null → e.handle = e'.handle →
      id = id') ∧
    (∀ a a' id, r.byHandle.get? a = some id → r.byHandle.get? a' = some id → a = a') ∧
    r.byHandle.size ≤ r.byId.size ∧
    ∀ items handles next, c.world.stats space = some (items, handles, next) → handles ≤ items := by
  intro r
  have hr : r.Coherent := h.ordered.coherent space
  refine ⟨hr.mapped_iff, ?_, hr.below, fun _ _ _ _ => hr.id_inj, fun _ _ _ => hr.handle_inj, hr.size_le, ?_⟩
  · rcases hm : r.byHandle.get? .null with _ | id
    · rfl
    · exact absurd rfl ((hr.inverse _ id).mp hm).1
  · intro items handles next hs
    simp only [World.stats] at hs
    split at hs
    · obtain ⟨rfl, rfl, rfl⟩ := hs
      exact hr.size_le
    · cases hs

/-- Inside a handler, with a deletion under way. -/
theorem tables_while_moving :
    (moving.world.registry .items).dying = [⟨0x1000⟩] ∧ moving.world.stats .items = some (1, 1, 1) ∧
    (moving.world.registry .items).byHandle.get? ⟨0x1010⟩ = some ⟨0⟩ ∧
    ∀ a id, (moving.world.registry .items).byHandle.get? a = some id ↔
      a ≠ .null ∧ ∃ e, (moving.world.registry .items).byId.get? id = some e ∧ e.handle = a :=
  ⟨by decide, by decide, by decide, (tables_are_inverse (reach_moving.mono (Conduct.within_free _)) .items).1⟩

end HandleBridge
