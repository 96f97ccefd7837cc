/-
  HandleBridge.Proofs.Registering — asking for a handle is all or nothing.

  A wrapper asks its registry for a handle. The registry refuses while the handle belongs to another
  wrapper that is still there, and then the request has only been noted. Otherwise one entry moves: it
  leaves the handle that it had, takes the new one from an owner that is gone, and the delete callback
  of the registry goes with it. What the wrapper has already is left as it is.

  - `World.conflict_iff`: who refuses.
  - `World.register_accepted`: an accepted request, as one change of registry, toolkit and history.
  - `World.Registered`: what it does to tables and toolkit, and that it does nothing else.
  - `World.newGrid_refused`: a cell whose handle is refused leaves nothing behind but its number.
  - `registering_is_all_or_nothing`: all this of every state of a run.
-/
import HandleBridge.Proofs.Chronicle
import HandleBridge.Proofs.Holders
import HandleBridge.Proofs.PartContents

namespace HandleBridge

theorem Table.erase_insert {κ ν : Type} [DecidableEq κ] {t : Table κ ν} {k : κ} (h : t.get? k = none) (v : ν) :
    (t.insert k v).erase k = t := by
  have absent : ∀ e ∈ t.entries, e.1 ≠ k := by
    rintro ⟨k', u⟩ he rfl
    rw [(t.get?_eq_some_iff k' u).mpr he] at h
    cases h
  have entries : ((t.insert k v).erase k).entries = t.entries := by
    simp only [erase, insert, List.filter_cons, ne_eq, not_true_eq_false, decide_false, Bool.false_eq_true, if_false,
      List.filter_filter, Bool.and_self]
    exact List.filter_eq_self.mpr fun e he => decide_eq_true (absent e he)
  generalize (t.insert k v).erase k = t' at entries
  cases t
  cases t'
  cases entries
  rfl

/-- Nothing is found under null. -/
theorem Registry.mapped_null {r : Registry} (hr : r.Coherent) : r.byHandle.get? .null = none := by
  rcases hm : r.byHandle.get? .null with _ | id
  · rfl
  · exact absurd rfl ((hr.inverse .null id).mp hm).1

namespace World

variable {w : World} {ref : Ref} {h : Handle} {space : Space} {owner : ItemId}

/-! ## Refusals -/

/-- The handle belongs to the wrapper of `owner`, which is still there. -/
structure Owned (w : World) (space : Space) (h : Handle) (owner : ItemId) : Prop where
  real : h ≠ .null
  mapped : (w.registry space).byHandle.get? h = some owner
  live : ∃ e, (w.registry space).byId.get? owner = some e ∧ w.isLive e.wrapper = true

theorem lookupId_isSome (r : Registry) (live : Ref → Bool) (id : ItemId) :
    (r.lookupId live id).isSome = true ↔ ∃ e, r.byId.get? id = some e ∧ live e.wrapper = true := by
  unfold Registry.lookupId
  rcases r.byId.get? id with _ | e
  · simp
  · simp only [Option.some.injEq, exists_eq_left']
    split <;> simp [*]

theorem conflict_iff (w : World) (space : Space) (id : ItemId) (h : Handle) (owner : ItemId) :
    (w.registry space).conflict? w.isLive id h = some owner ↔ w.Owned space h owner ∧ owner ≠ id := by
  unfold Registry.conflict?
  cases hn : h.isNull
  · rw [Handle.isNull_eq_false_iff] at hn
    rcases hm : (w.registry space).byHandle.get? h with _ | a
    · simp only [Bool.false_eq_true, if_false, reduceCtorEq, false_iff, not_and]
      intro owned
      rw [owned.mapped] at hm
      cases hm
    · have live := lookupId_isSome (w.registry space) w.isLive a
      simp only [Bool.false_eq_true, if_false]
      constructor
      · intro hc
        split at hc
        · rename_i refuses
          cases hc
          exact ⟨⟨hn, hm, live.mp refuses.2⟩, refuses.1⟩
        · cases hc
      · rintro ⟨owned, other⟩
        cases hm.symm.trans owned.mapped
        rw [if_pos ⟨other, live.mpr owned.live⟩]
  · simp only [if_true, reduceCtorEq, false_iff, not_and]
    exact fun owned => absurd ((Handle.isNull_iff h).mp hn) owned.real

theorem conflict_none_iff (w : World) (space : Space) (id : ItemId) (h : Handle) :
    (w.registry space).conflict? w.isLive id h = none ↔ ∀ owner, w.Owned space h owner → owner = id := by
  rw [Option.eq_none_iff_forall_ne_some]
  refine forall_congr' fun owner => ?_
  rw [ne_eq, conflict_iff, not_and, not_not]

/-- A refused request has been noted, and nothing else. -/
theorem register_owned {x : Wrapper} (hx : w.wrappers.get? ref = some x) (owned : w.Owned x.space h owner) (other : owner ≠ x.id) :
    w.register ref h = (w.log (.alreadyOwned h owner x.id), some (.ownershipConflict h owner x.id)) ∧
      w.bind ref h = (w.log (.alreadyOwned h owner x.id), some (.ownershipConflict h owner x.id)) := by
  have refused : w.register ref h = (w.log (.alreadyOwned h owner x.id), some (.ownershipConflict h owner x.id)) := by
    rw [← idOf_eq hx]
    apply register_refused
    rw [spaceOf_eq hx, idOf_eq hx, conflict_iff]
    exact ⟨owned, other⟩
  refine ⟨refused, ?_⟩
  rw [bind_refused (e := .ownershipConflict h owner x.id) (by rw [refused]), refused]

/-! ## Calls across the boundary -/

/-- The calls across the boundary so far, newest first. -/
def crossings (w : World) : List NativeCall :=
  w.history.filterMap fun
    | .native c => some c
    | _ => none

theorem crossings_native (w : World) (c : NativeCall) : (w.native c).crossings = c :: w.crossings := by
  unfold native callToolkit
  cases (w.emit (.native c)).toolkit.complaint c <;> rfl

theorem crossings_setRegistry (w : World) (space : Space) (r : Registry) : (w.setRegistry space r).crossings = w.crossings := by
  cases space <;> rfl

theorem crossings_foldl (cs : List NativeCall) (w : World) : (cs.foldl native w).crossings = cs.reverse ++ w.crossings := by
  induction cs generalizing w with
  | nil => rfl
  | cons c cs ih => rw [List.foldl_cons, ih, crossings_native, List.reverse_cons, List.append_assoc, List.singleton_append]

theorem toolkit_foldl (cs : List NativeCall) (w : World) : (cs.foldl native w).toolkit = cs.foldl Toolkit.apply w.toolkit := by
  induction cs generalizing w with
  | nil => rfl
  | cons c cs ih => rw [List.foldl_cons, ih, toolkit_native, List.foldl_cons]

/-- What calls across the boundary leave alone, and requests for a handle but for the tables. -/
def setting (w : World) : World := { w with toolkit := .start .synchronous, itemRegistry := .empty, bareRegistry := .empty, history := [] }

theorem setting_native (w : World) (c : NativeCall) : (w.native c).setting = w.setting := by
  unfold native callToolkit
  cases (w.emit (.native c)).toolkit.complaint c <;> rfl

theorem setting_foldl (cs : List NativeCall) (w : World) : (cs.foldl native w).setting = w.setting := by
  induction cs generalizing w with
  | nil => rfl
  | cons c cs ih => exact (ih _).trans (w.setting_native c)

theorem registry_native (w : World) (c : NativeCall) (space : Space) : (w.native c).registry space = w.registry space :=
  (core_eq (core_native w c)).2.1 space

theorem registry_foldl (cs : List NativeCall) (w : World) (space : Space) :
    (cs.foldl native w).registry space = w.registry space := by
  induction cs generalizing w with
  | nil => rfl
  | cons c cs ih => exact (ih _).trans (w.registry_native c space)

end World

/-- The calls that take the delete callback of a registry from one handle to another. -/
def Space.slotMoves (space : Space) (previous h : Handle) : List NativeCall :=
  (if previous.isNull then [] else [.itemDelCbSet previous none]) ++
    if h.isNull then [] else [.itemDelCbSet h (some (.registry space))]

namespace World

variable {w : World} {ref : Ref} {h : Handle} {space : Space} {owner : ItemId}

/-- A request that is not refused moves the entry and the delete callback. -/
theorem register_accepted (can : w.CanAttach ref h) :
    w.register ref h =
      ((((w.spaceOf ref).slotMoves ((w.registry (w.spaceOf ref)).handleOf (w.idOf ref)) h).foldl native
        (w.setRegistry (w.spaceOf ref) ((w.registry (w.spaceOf ref)).bind (w.idOf ref) ref h))).log
          (.registered (w.idOf ref) h ((w.registry (w.spaceOf ref)).handleOf (w.idOf ref))), none) := by
  obtain ⟨hr, hb⟩ := can
  simp only [register, hr, hb, Bool.false_eq_true, if_false, Space.slotMoves]
  generalize (w.registry (w.spaceOf ref)).handleOf (w.idOf ref) = previous
  generalize w.spaceOf ref = space
  generalize w.idOf ref = id
  have commutes (c : NativeCall) (r : Registry) : (w.native c).setRegistry space r = (w.setRegistry space r).native c := by
    cases space <;> (unfold native callToolkit; dsimp only [emit, setRegistry]; split <;> rfl)
  cases hp : previous.isNull <;> cases hh : h.isNull <;>
    simp only [Bool.false_eq_true, if_true, if_false, registry_native, commutes, List.append_nil, List.nil_append,
      List.foldl_append, List.foldl_cons, List.foldl_nil]

/-- The calls that a request makes: none when the wrapper's entry has the handle already. -/
def callsFor (w : World) (x : Wrapper) (h : Handle) : List NativeCall :=
  if (w.registry x.space).isBoundTo x.id h then [] else x.space.slotMoves ((w.registry x.space).handleOf x.id) h

/-- What a request that is not refused has done: the id of the wrapper `x` has `h`, no longer the handle
    that it had, and an owner of `h` that is gone has nothing; the rest of both registries is as it was,
    the toolkit has carried out the calls, and nothing else has changed but the history. -/
structure Registered (w : World) (ref : Ref) (x : Wrapper) (h : Handle) (w' : World) : Prop where
  entry : (w'.registry x.space).byId.get? x.id =
    if (w.registry x.space).isBoundTo x.id h then (w.registry x.space).byId.get? x.id else some ⟨ref, h⟩
  bound : (w'.registry x.space).boundTo x.id = some h
  mapped : h ≠ .null → (w'.registry x.space).byHandle.get? h = some x.id
  left : ∀ p, (w.registry x.space).boundTo x.id = some p → p ≠ h → (w'.registry x.space).byHandle.get? p = none
  evicted : ∀ stale, (w.registry x.space).byHandle.get? h = some stale → stale ≠ x.id →
    (w'.registry x.space).byId.get? stale = none
  entries : ∀ i, i ≠ x.id → (w.registry x.space).byHandle.get? h ≠ some i →
    (w'.registry x.space).byId.get? i = (w.registry x.space).byId.get? i
  handles : ∀ a, a ≠ h → (w.registry x.space).boundTo x.id ≠ some a →
    (w'.registry x.space).byHandle.get? a = (w.registry x.space).byHandle.get? a
  dying : (w'.registry x.space).dying = (w.registry x.space).dying
  nextId : (w'.registry x.space).nextId = (w.registry x.space).nextId
  other : ∀ space, space ≠ x.space → w'.registry space = w.registry space
  crossings : w'.crossings = (w.callsFor x h).reverse ++ w.crossings
  toolkit : w'.toolkit = (w.callsFor x h).foldl Toolkit.apply w.toolkit
  setting : w'.setting = w.setting

theorem registered_again (ho : w.Ordered) {x : Wrapper} (hb : (w.registry x.space).isBoundTo x.id h = true) (r : Record) :
    w.Registered ref x h (w.log r) := by
  have calls : w.callsFor x h = [] := if_pos hb
  have coherent := ho.coherent x.space
  have bound := ((w.registry x.space).isBoundTo_eq x.id h).mp hb
  have mapped (hn : h ≠ .null) : (w.registry x.space).byHandle.get? h = some x.id := (coherent.inverse h x.id).mpr ⟨hn, bound⟩
  refine ⟨(if_pos hb).symm, bound, mapped, fun p hp hne => ?_, fun stale hs hne => ?_, fun _ _ _ => rfl, fun _ _ _ => rfl, rfl,
    rfl, fun _ _ => rfl, ?_, ?_, rfl⟩
  · cases bound.symm.trans hp
    exact absurd rfl hne
  · by_cases hn : h = .null
    · rw [hn, Registry.mapped_null coherent] at hs
      cases hs
    · cases (mapped hn).symm.trans hs
      exact absurd rfl hne
  · rw [calls]
    rfl
  · rw [calls]
    rfl

theorem registered_accepted (ho : w.Ordered) {x : Wrapper} (hx : w.wrappers.get? ref = some x) (can : w.CanAttach ref h) :
    w.Registered ref x h (w.register ref h).1 := by
  have hb := can.2
  rw [register_accepted can]
  rw [spaceOf_eq hx, idOf_eq hx] at hb ⊢
  have coherent := ho.coherent x.space
  have calls : w.callsFor x h = x.space.slotMoves ((w.registry x.space).handleOf x.id) h :=
    if_neg (Bool.eq_false_iff.mp hb)
  rw [← calls]
  have registry (space : Space) : (((w.callsFor x h).foldl native (w.setRegistry x.space ((w.registry x.space).bind x.id ref h))).log
      (.registered x.id h ((w.registry x.space).handleOf x.id))).registry space =
      if space = x.space then (w.registry x.space).bind x.id ref h else w.registry space := by
    rw [← registry_setRegistry]
    exact registry_foldl _ _ space
  have here := (registry x.space).trans (if_pos rfl)
  obtain ⟨byId, byHandle, nextId⟩ := Registry.tables_bind coherent hb ref
  have entry : ((w.registry x.space).bind x.id ref h).byId.get? x.id = some ⟨ref, h⟩ := by rw [byId, if_pos rfl]
  refine ⟨?_, ?_, fun hn => ?_, fun p hp hne => ?_, fun stale hs hne => ?_, fun i hi hm => ?_, fun a ha hp => ?_, ?_, ?_,
    fun space hs => (registry space).trans (if_neg hs), ?_, ?_, ?_⟩
  · rw [here, entry, if_neg (Bool.eq_false_iff.mp hb)]
  · rw [here, Registry.boundTo, entry]
    rfl
  · rw [here, byHandle, if_pos ⟨rfl, hn⟩]
  · rw [here, byHandle, if_neg fun e => hne e.1]
    split
    · rfl
    · rename_i unmapped
      -- the handle of an entry is mapped to its id unless it is null, and null is mapped to nothing
      by_cases hn : p = .null
      · rw [hn, Registry.mapped_null coherent]
      · exact absurd ((coherent.inverse p x.id).mpr ⟨hn, hp⟩) unmapped
  · rw [here, byId, if_neg hne, if_pos hs]
  · rw [here, byId, if_neg hi, if_neg hm]
  · rw [here, byHandle, if_neg fun e => ha e.1, if_neg fun hm => hp ((coherent.inverse a x.id).mp hm).2]
  · rw [here, Registry.dying_bind]
  · rw [here, nextId]
  · refine (crossings_foldl _ _).trans ?_
    rw [crossings_setRegistry]
  · refine (toolkit_foldl _ _).trans ?_
    rw [toolkit_setRegistry]
  · refine (setting_foldl _ _).trans ?_
    cases x.space <;> rfl

/-- A request that is not refused does all of it. -/
theorem registered_register (ho : w.Ordered) {x : Wrapper} (hx : w.wrappers.get? ref = some x)
    (free : ∀ owner, w.Owned x.space h owner → owner = x.id) :
    w.Registered ref x h (w.register ref h).1 ∧ (w.register ref h).2 = none := by
  have unrefused : (w.registry (w.spaceOf ref)).conflict? w.isLive (w.idOf ref) h = none := by
    rw [spaceOf_eq hx, idOf_eq hx, conflict_none_iff]
    exact free
  cases hb : (w.registry (w.spaceOf ref)).isBoundTo (w.idOf ref) h
  · exact ⟨registered_accepted ho hx ⟨unrefused, hb⟩, by rw [register_accepted ⟨unrefused, hb⟩]⟩
  · rw [register_again unrefused hb]
    rw [spaceOf_eq hx, idOf_eq hx] at hb
    exact ⟨registered_again ho hb _, rfl⟩

/-! ## A new cell -/

theorem Ordered.freshRef_absent (ho : w.Ordered) : w.wrappers.get? w.freshRef = none := by
  rcases hx : w.wrappers.get? w.freshRef with _ | x
  · rfl
  · exact absurd (ho.refBelow _ x hx) (Nat.lt_irrefl _)

/-- A new wrapper takes nothing from an owner. -/
theorem Owned.addWrapper (ho : w.Ordered) (owned : w.Owned space h owner) (x : Wrapper) : (w.addWrapper x).Owned space h owner := by
  obtain ⟨e, he, live⟩ := owned.live
  refine ⟨owned.real, owned.mapped, e, he, ?_⟩
  have other : e.wrapper ≠ w.freshRef := by
    intro same
    rw [same, isLive, Table.contains, ho.freshRef_absent] at live
    cases live
  show (w.wrappers.insert w.freshRef x).contains e.wrapper = true
  rw [Table.contains, Table.get?_insert, if_neg other]
  exact live

/-- An item that nothing holds goes without a trace when it has no entry. -/
theorem release_fresh (ho : w.Ordered) (loose : w.isHeld w.freshRef = false) {x : Wrapper} (hs : x.space = .items)
    (unbound : (w.registry .items).byId.get? x.id = none) :
    (w.addWrapper x).release w.freshRef = { w with nextRef := w.nextRef + 1 } := by
  have made : (w.addWrapper x).wrappers.get? w.freshRef = some x := (Table.get?_insert _ _ _ _).trans (if_pos rfl)
  have emptied : { w.addWrapper x with wrappers := (w.addWrapper x).wrappers.erase w.freshRef } =
      { w with nextRef := w.nextRef + 1 } := by
    simp only [World.addWrapper, Table.erase_insert ho.freshRef_absent]
  rw [release_item made loose hs, emptied]
  unfold forget
  split
  · rename_i e he
    cases he.symm.trans unbound
  · rfl

/-- A new item that is refused its handle is gone again. -/
theorem refused_fresh (ho : w.Ordered) (loose : w.isHeld w.freshRef = false) {x : Wrapper} (hs : x.space = .items)
    (unbound : (w.registry .items).byId.get? x.id = none) (owned : w.Owned .items h owner) :
    ∃ v, (w.addWrapper x).bind w.freshRef h = (v, some (.ownershipConflict h owner x.id)) ∧
      v.release w.freshRef = { w with nextRef := w.nextRef + 1 }.log (.alreadyOwned h owner x.id) := by
  have other : owner ≠ x.id := by
    rintro rfl
    obtain ⟨e, he, -⟩ := owned.live
    cases he.symm.trans unbound
  have made : (w.addWrapper x).wrappers.get? w.freshRef = some x := (Table.get?_insert _ _ _ _).trans (if_pos rfl)
  have held : (w.addWrapper x).Owned x.space h owner := by
    rw [hs]
    exact owned.addWrapper ho x
  refine ⟨_, (register_owned made held other).2, ?_⟩
  exact release_fresh (w := w.log _) (ordered_congr (w := w) (fun _ => rfl) rfl rfl ho) loose hs unbound

/-- A cell whose handle is refused leaves nothing behind but its number. -/
theorem newGrid_refused (ho : w.Ordered) (loose : w.isHeld w.freshRef = false) {id : ItemId} {r : Registry}
    (ha : (w.registry .items).allocate? = some (id, r)) (owned : w.Owned .items h owner) (data : RowData) (name : Option String) :
    w.newGrid h data name =
      ({ w.setRegistry .items r with nextRef := w.nextRef + 1 }.log (.alreadyOwned h owner id)).failing
        (.bind (.ownershipConflict h owner id)) := by
  obtain ⟨hid, hr⟩ := Registry.allocate_eq ha
  have counted : (w.setRegistry .items r).Ordered := by
    subst hr
    exact ordered_setRegistry ho (Registry.coherent_allocate (ho.coherent .items)) (Nat.le_succ _) fun _ _ he => he
  have unbound : ((w.setRegistry .items r).registry .items).byId.get? id = none := by
    rcases he : ((w.setRegistry .items r).registry .items).byId.get? id with _ | e
    · rfl
    · subst hr
      have below := (ho.coherent .items).below id e he
      rw [hid] at below
      exact absurd below (Nat.lt_irrefl _)
  have owned' : (w.setRegistry .items r).Owned .items h owner := by
    subst hr
    exact ⟨owned.real, owned.mapped, owned.live⟩
  obtain ⟨v, refused, gone⟩ := refused_fresh (x := .fresh id (.grid (some data))) counted loose rfl unbound owned'
  simp only [newGrid, withFreshId, ha]
  rw [refused]
  exact congrArg (failing · _) gone

end World

/-! ## Every state of a run -/

namespace World

variable {w : World} {ref : Ref} {h : Handle}

/-- A request fails for the sake of an owner that is still there, and of nothing else. -/
theorem register_fails_iff (ho : w.Ordered) {x : Wrapper} (hx : w.wrappers.get? ref = some x) (e : BindError) :
    (w.register ref h).2 = some e ↔ ∃ owner, w.Owned x.space h owner ∧ owner ≠ x.id ∧ e = .ownershipConflict h owner x.id := by
  constructor
  · intro he
    by_cases free : ∀ owner, w.Owned x.space h owner → owner = x.id
    · rw [(registered_register ho hx free).2] at he
      cases he
    · simp only [not_forall] at free
      obtain ⟨owner, owned, other⟩ := free
      rw [(register_owned hx owned other).1] at he
      exact ⟨owner, owned, other, (Option.some.inj he).symm⟩
  · rintro ⟨owner, owned, other, rfl⟩
    rw [(register_owned hx owned other).1]

end World

namespace Course

variable {k : Conduct}

/-- No other wrapper of its registry has had the id of the wrapper `x` so far. -/
def Alone (c : Course k) (n : Nat) (ref : Ref) (x : Wrapper) : Prop :=
  ∀ m ≤ n, ∀ a y, (c.state m).world.wrappers.get? a = some y → y.id = x.id → y.space = x.space → a = ref

/-- The entry of an item refers to it, and so does the entry of a wrapper that has its id alone. -/
theorem entry_own (c : Course .free) {n : Nat} (hn : n ≤ c.length) {ref : Ref} {x : Wrapper}
    (hx : (c.state n).world.wrappers.get? ref = some x) (own : x.space = .items ∨ c.Alone n ref x) {e : Entry}
    (he : ((c.state n).world.registry x.space).byId.get? x.id = some e) : e.wrapper = ref := by
  rcases own with item | alone
  · have tracked := (c.reach hn).tracked
    rw [item] at he
    obtain ⟨y, hy⟩ := ((c.state n).world.isLive_iff _).mp (tracked.live x.id e he)
    obtain ⟨same, space⟩ := (c.reach hn).ordered.entryOwn .items x.id e y he hy
    exact tracked.unique _ _ y x ⟨hy, space⟩ ⟨hx, item⟩ same
  · obtain ⟨m, hm, y, hy, same, space⟩ := c.entry_from hn he
    exact alone m hm _ y hy same space

end Course

/-- In every state of a run, for every wrapper that is there and every handle, a request for the handle
    - fails if, and only if, the handle is not null and belongs to another id whose wrapper is still
      there; the error names the handle, the owner and the id, the request has been noted, and nothing
      else has changed, not even when it came through `bind`;
    - otherwise does all of `World.Registered`, and `bind` has the wrapper note the handle as well. The
      entry of the id is the wrapper's own then, if it is an item, or its id has been no other wrapper's.
    A cell whose handle is refused leaves nothing behind but its number. -/
theorem registering_is_all_or_nothing (c : Course .free) {n : Nat} (hn : n ≤ c.length) :
    let w := (c.state n).world
    (∀ ref x h, w.wrappers.get? ref = some x →
      (∀ e, (w.register ref h).2 = some e ↔
        ∃ owner, w.Owned x.space h owner ∧ owner ≠ x.id ∧ e = .ownershipConflict h owner x.id) ∧
      (∀ owner, w.Owned x.space h owner → owner ≠ x.id →
        (w.register ref h).1 = w.log (.alreadyOwned h owner x.id) ∧ w.bind ref h = w.register ref h) ∧
      ((w.register ref h).2 = none →
        w.Registered ref x h (w.register ref h).1 ∧ w.bind ref h = ((w.register ref h).1.setHandle ref h, none) ∧
        (x.space = .items ∨ c.Alone n ref x →
          ((w.register ref h).1.registry x.space).byId.get? x.id = some ⟨ref, h⟩))) ∧
    ∀ h owner data name id r, w.Owned .items h owner → (w.registry .items).allocate? = some (id, r) →
      r = { w.registry .items with nextId := (w.registry .items).nextId + 1 } ∧
      w.newGrid h data name =
        ({ w.setRegistry .items r with nextRef := w.nextRef + 1 }.log (.alreadyOwned h owner id)).failing
          (.bind (.ownershipConflict h owner id)) := by
  intro w
  have ho : w.Ordered := (c.reach hn).ordered
  refine ⟨fun ref x h hx => ⟨World.register_fails_iff ho hx, fun owner owned other => ?_, fun accepted => ?_⟩,
    fun h owner data name id r owned ha => ?_⟩
  · obtain ⟨registered, bound⟩ := World.register_owned hx owned other
    rw [registered, bound]
    exact ⟨rfl, rfl⟩
  · have free (owner : ItemId) (owned : w.Owned x.space h owner) : owner = x.id := by
      by_contra other
      have fails := (World.register_fails_iff ho hx _).mpr ⟨owner, owned, other, rfl⟩
      cases accepted.symm.trans fails
    have registered := (World.registered_register ho hx free).1
    refine ⟨registered, World.bind_accepted accepted, fun own => ?_⟩
    rw [registered.entry]
    split
    · -- the handle is the wrapper's already, so it is the entry that has to be its own
      rename_i again
      have bound := ((w.registry x.space).isBoundTo_eq x.id h).mp again
      obtain ⟨e, he, same⟩ := Option.map_eq_some_iff.mp bound
      rw [he, ← same, ← c.entry_own hn hx own he]
    · rfl
  · exact ⟨(Registry.allocate_eq ha).2, World.newGrid_refused ho (c.reach hn).freshRef_loose ha owned data name⟩

/-- Two cells are made, each with an item of its own. -/
def contending : List Op :=
  [.createItem, .createItem, .newGrid ⟨0x1000⟩ .unit (some "a"), .newGrid ⟨0x1010⟩ .unit (some "b")]

theorem can_perform_contending : (World.start .synchronous).CanPerform .free contending :=
  ⟨⟨⟨trivial, Or.inl trivial⟩, rfl⟩, ⟨⟨trivial, Or.inl trivial⟩, rfl⟩, ⟨⟨rfl, trivial, trivial⟩, rfl⟩,
    ⟨⟨rfl, trivial, trivial⟩, rfl⟩, trivial⟩

/-- The second cell is refused the handle of the first, and so is a third that would be made for it; the
    second can give up its own. -/
theorem refused_and_given_up :
    let w := ((Course.errands contending can_perform_contending).state 8).world
    (w.register ⟨1⟩ ⟨0x1000⟩).2 = some (.ownershipConflict ⟨0x1000⟩ ⟨0⟩ ⟨1⟩) ∧
    (w.bind ⟨1⟩ ⟨0x1000⟩).1.toolkit = w.toolkit ∧
    (w.newGrid ⟨0x1000⟩ .unit (some "c")).wrappers = w.wrappers ∧
    ((w.register ⟨1⟩ .null).1.registry .items).byId.get? ⟨1⟩ = some ⟨⟨1⟩, .null⟩ ∧
    (w.register ⟨1⟩ .null).1.crossings = .itemDelCbSet ⟨0x1010⟩ none :: w.crossings := by
  intro w
  obtain ⟨requests, cells⟩ :=
    registering_is_all_or_nothing (Course.errands contending can_perform_contending) (show 8 ≤ 8 from Nat.le_refl 8)
  have owned : w.Owned .items ⟨0x1000⟩ ⟨0⟩ := ⟨by decide, by decide, ⟨⟨0⟩, ⟨0x1000⟩⟩, by decide, by decide⟩
  obtain ⟨fails, unchanged, -⟩ := requests ⟨1⟩ _ ⟨0x1000⟩ rfl
  obtain ⟨noted, bound⟩ := unchanged ⟨0⟩ owned (by decide)
  obtain ⟨-, -, moves⟩ := requests ⟨1⟩ _ .null rfl
  obtain ⟨registered, -, entry⟩ := moves rfl
  refine ⟨(fails _).mpr ⟨⟨0⟩, owned, by decide, rfl⟩, ?_, ?_, entry (Or.inl rfl), registered.crossings⟩
  · rw [bound, noted]
    rfl
  · rw [(cells ⟨0x1000⟩ ⟨0⟩ .unit (some "c") _ _ owned rfl).2]
    rfl

/-- Two probes are made with one id, the second when the first has the handle already; then the first
    goes. -/
def sharing : List Op :=
  [.createItem, .newProbe "a" true none, .bind ⟨0⟩ ⟨0x1000⟩, .newProbe "b" true (some ⟨0⟩), .dropProbe "a"]

theorem can_perform_sharing : (World.start .synchronous).CanPerform .free sharing :=
  ⟨⟨⟨trivial, Or.inl trivial⟩, rfl⟩, ⟨⟨rfl, trivial⟩, rfl⟩, ⟨⟨⟨by decide, by decide⟩, trivial, trivial⟩, rfl⟩,
    ⟨⟨Nat.zero_lt_one, trivial⟩, rfl⟩, ⟨⟨trivial, trivial⟩, rfl⟩, trivial⟩

/-- The second probe asks for the handle that its id has. That is not refused, and the entry goes on
    referring to the first. -/
theorem entry_stays_with_the_first : ¬ ∀ (c : Course .free) n, n ≤ c.length → ∀ ref x h,
    (c.state n).world.wrappers.get? ref = some x → ((c.state n).world.register ref h).2 = none →
    (((c.state n).world.register ref h).1.registry x.space).byId.get? x.id = some ⟨ref, h⟩ := by
  intro always
  have entry := always (Course.errands sharing can_perform_sharing) 10 (Nat.le_refl 10) ⟨1⟩ _ ⟨0x1000⟩ rfl rfl
  exact absurd entry (by decide)

end HandleBridge
