/-
  HandleBridge.Proofs.Moves — what a task can do to the world, said once.

  What the registries, the wrappers and the toolkit hold is the `core` of a world; the
  rest says who holds what, what waits and what happened. A `Move` is one change of the
  core, with what is known when it is made: which wrapper, that the registry did not
  refuse, what the conduct permits. Every task but two is a sequence of moves, after which
  it may destroy one item (`Program.outcome_expand`), so an invariant of the core has to be
  checked move by move, and not operation by operation.

  The two tasks are the ends of a report: `nativeDelete`, which marks the handle and makes
  the wrapper's code due (`nativeDelete_found`), and `settle`, which changes tables and
  handle together (`moves_settle`). A report comes due from a delete slot or from the
  program (`reports_of_mem_expand`), and a delete callback from the destruction of its item.

  - `Turn.keeps`: what moves, destructions and the two ends of a report keep is kept by
    every step.
-/
import HandleBridge.Proofs.Run
import Mathlib.Logic.Relation

namespace HandleBridge

open Relation (ReflTransGen)

namespace World

/-- The toolkit, the registries, the wrappers. -/
def core (w : World) : Toolkit × Registry × Registry × Table Ref Wrapper × Nat :=
  (w.toolkit, w.itemRegistry, w.bareRegistry, w.wrappers, w.nextRef)

theorem core_eq {w w' : World} (h : w'.core = w.core) :
    w'.toolkit = w.toolkit ∧ (∀ space, w'.registry space = w.registry space) ∧ w'.wrappers = w.wrappers ∧
      w'.nextRef = w.nextRef := by
  simp only [core, Prod.mk.injEq] at h
  obtain ⟨ht, hi, hb, hw, hn⟩ := h
  refine ⟨ht, fun space => ?_, hw, hn⟩
  cases space
  · exact hi
  · exact hb

theorem core_callToolkit (w : World) (c : NativeCall) :
    (w.callToolkit c).core = { w with toolkit := w.toolkit.apply c }.core := by
  unfold callToolkit
  cases w.toolkit.complaint c <;> rfl

theorem core_native (w : World) (c : NativeCall) :
    (w.native c).core = { w with toolkit := w.toolkit.apply c }.core := core_callToolkit _ c

end World

namespace Toolkit

/-- The delete callback of a registry leaves `previous` and comes to `h`. -/
def moveSlot (t : Toolkit) (space : Space) (previous h : Handle) : Toolkit :=
  let t := if previous.isNull then t else t.apply (.itemDelCbSet previous none)
  if h.isNull then t else t.apply (.itemDelCbSet h (some (.registry space)))

end Toolkit

namespace World

/-- The registry does not refuse `h` to the wrapper, and has it elsewhere so far. -/
def CanAttach (w : World) (ref : Ref) (h : Handle) : Prop :=
  (w.registry (w.spaceOf ref)).conflict? w.isLive (w.idOf ref) h = none ∧
    (w.registry (w.spaceOf ref)).isBoundTo (w.idOf ref) h = false

/-- The wrapper's entry moves to `h`, and the registry's delete callback with it. -/
def attach (w : World) (ref : Ref) (h : Handle) : World :=
  let r := w.registry (w.spaceOf ref)
  { w.setRegistry (w.spaceOf ref) (r.bind (w.idOf ref) ref h) with
    toolkit := w.toolkit.moveSlot (w.spaceOf ref) (r.handleOf (w.idOf ref)) h }

theorem core_register {w : World} {ref : Ref} {h : Handle} (hc : w.CanAttach ref h) :
    (w.register ref h).1.core = (w.attach ref h).core ∧ (w.register ref h).2 = none := by
  obtain ⟨hr, hb⟩ := hc
  simp only [register, hr, hb, Bool.false_eq_true, if_false, attach, Toolkit.moveSlot]
  generalize (w.registry (w.spaceOf ref)).handleOf (w.idOf ref) = previous
  generalize w.spaceOf ref = space
  generalize w.idOf ref = id
  refine ⟨?_, trivial⟩
  by_cases hp : previous.isNull <;> by_cases hh : h.isNull <;> cases space <;>
    simp only [hp, hh, if_true, if_false, Bool.false_eq_true, native, callToolkit, log, emit, setRegistry] <;>
    (repeat' split) <;> rfl

theorem register_again {w : World} {ref : Ref} {h : Handle}
    (hr : (w.registry (w.spaceOf ref)).conflict? w.isLive (w.idOf ref) h = none)
    (hb : (w.registry (w.spaceOf ref)).isBoundTo (w.idOf ref) h = true) :
    w.register ref h = (w.log (.alreadyBound (w.idOf ref) h), none) := by
  simp only [register, hr, hb, if_true]

theorem register_refused {w : World} {ref : Ref} {h : Handle} {owner : ItemId}
    (hr : (w.registry (w.spaceOf ref)).conflict? w.isLive (w.idOf ref) h = some owner) :
    w.register ref h =
      (w.log (.alreadyOwned h owner (w.idOf ref)), some (.ownershipConflict h owner (w.idOf ref))) := by
  simp only [register, hr]

/-- Asking for a handle ends in one of three ways. -/
theorem register_cases (w : World) (ref : Ref) (h : Handle) :
    ((∃ e, (w.register ref h).2 = some e) ∧ (w.register ref h).1.core = w.core) ∨
    ((w.register ref h).2 = none ∧ (w.register ref h).1.core = w.core ∧
      (w.registry (w.spaceOf ref)).isBoundTo (w.idOf ref) h = true) ∨
    ((w.register ref h).2 = none ∧ w.CanAttach ref h ∧ (w.register ref h).1.core = (w.attach ref h).core) := by
  rcases hr : (w.registry (w.spaceOf ref)).conflict? w.isLive (w.idOf ref) h with _ | owner
  · cases hb : (w.registry (w.spaceOf ref)).isBoundTo (w.idOf ref) h
    · have hc : w.CanAttach ref h := ⟨hr, hb⟩
      exact Or.inr (Or.inr ⟨(core_register hc).2, hc, (core_register hc).1⟩)
    · rw [register_again hr hb]
      exact Or.inr (Or.inl ⟨rfl, rfl, rfl⟩)
  · rw [register_refused hr]
    exact Or.inl ⟨⟨_, rfl⟩, rfl⟩

theorem release_of_held {w : World} {ref : Ref} (h : w.isHeld ref = true) : w.release ref = w := by
  unfold release
  rw [if_pos h]

theorem release_of_gone {w : World} {ref : Ref} (h : w.wrappers.get? ref = none) : w.release ref = w := by
  unfold release
  split
  · rfl
  · rw [h]

end World

/-! ## Moves -/

/-- One change of the core. -/
inductive Move (k : Conduct) : World → World → Prop
  /-- What is held, due or told changes, and the core does not. -/
  | aside {w w' : World} : w'.core = w.core → Move k w w'
  -- the toolkit
  | createItem (w : World) : k.overflows ∨ w.toolkit.HasRoom → Move k w { w with toolkit := w.toolkit.createItem }
  | createObject (w : World) : k.overflows ∨ w.toolkit.HasRoom → Move k w { w with toolkit := w.toolkit.createObject }
  | adopt (w : World) (h : Handle) : k.adopts → Move k w { w with toolkit := w.toolkit.adopt h }
  | takePending (w : World) : Move k w { w with toolkit := w.toolkit.takePending }
  | call (w : World) (c : NativeCall) : (∀ h cb, c = .itemDelCbSet h cb → k.setsSlots) →
      Move k w { w with toolkit := w.toolkit.apply c }
  -- wrappers coming and going
  | allocate (w : World) (space : Space) (id : ItemId) (r : Registry) :
      (w.registry space).allocate? = some (id, r) → Move k w (w.setRegistry space r)
  | create (w : World) (space : Space) (id : ItemId) (r : Registry) (kind : WrapperKind) :
      (w.registry space).allocate? = some (id, r) → (Wrapper.fresh id kind).space = space →
      Move k w ((w.setRegistry space r).addWrapper (.fresh id kind))
  /-- A probe with an id that was given out before. -/
  | share (w : World) (id : ItemId) (name : String) (bare : Bool) : id.val < w.bareRegistry.nextId →
      Move k w (w.addWrapper (.fresh id (.probe name bare)))
  | free (w : World) (ref : Ref) (x : Wrapper) : w.wrappers.get? ref = some x → w.isHeld ref = false →
      Move k w (w.release ref)
  -- tables and handles
  | attach (w : World) (ref : Ref) (h : Handle) : w.isLive ref = true → k.registers (w.spaceOf ref) →
      w.CanAttach ref h → Move k w (w.attach ref h)
  | rebind (w : World) (ref : Ref) (h : Handle) : w.isLive ref = true → k.binds (w.spaceOf ref) →
      k.target w.toolkit h → w.CanAttach ref h → Move k w ((w.attach ref h).setHandle ref h)
  /-- A wrapper is bound to the handle that its entry has already. -/
  | confirm (w : World) (ref : Ref) (h : Handle) : w.isLive ref = true → k.target w.toolkit h →
      (w.registry (w.spaceOf ref)).isBoundTo (w.idOf ref) h = true → Move k w (w.setHandle ref h)
  | setProbe (w : World) (ref : Ref) (h : Handle) : w.HasProbe ref → Move k w (w.setHandle ref h)
  | setNull (w : World) (ref : Ref) : Move k w (w.setHandle ref .null)
  | edit (w : World) (ref : Ref) (f : Wrapper → Wrapper) :
      (∀ x, (f x).id = x.id ∧ (f x).handle = x.handle ∧ (f x).space = x.space) → Move k w (w.modifyWrapper ref f)
  | forget (w : World) (space : Space) (id : ItemId) : k.forgets space → Move k w (w.forget space id)

theorem Move.mono {k k' : Conduct} (hk : k.Within k') {w w' : World} (h : Move k w w') : Move k' w w' := by
  cases h with
  | aside hc => exact .aside hc
  | createItem hr => exact .createItem w (hr.imp_left hk.overflows)
  | createObject hr => exact .createObject w (hr.imp_left hk.overflows)
  | adopt h ha => exact .adopt w h (hk.adopts ha)
  | takePending => exact .takePending w
  | call c hc => exact .call w c fun h cb e => hk.setsSlots (hc h cb e)
  | allocate space id r ha => exact .allocate w space id r ha
  | create space id r kind ha hs => exact .create w space id r kind ha hs
  | share id name bare hid => exact .share w id name bare hid
  | free ref x hx hh => exact .free w ref x hx hh
  | attach ref h hl hr hc => exact .attach w ref h hl (hk.registers _ hr) hc
  | rebind ref h hl hb ht hc => exact .rebind w ref h hl (hk.binds _ hb) (hk.target _ _ ht) hc
  | confirm ref h hl ht hb => exact .confirm w ref h hl (hk.target _ _ ht) hb
  | setProbe ref h hp => exact .setProbe w ref h hp
  | setNull ref => exact .setNull w ref
  | edit ref f hf => exact .edit w ref f hf
  | forget space id hf => exact .forget w space id (hk.forgets _ hf)

def Moves (k : Conduct) : World → World → Prop := ReflTransGen (Move k)

namespace Moves

variable {k : Conduct} {w w' w'' : World}

theorem refl (w : World) : Moves k w w := ReflTransGen.refl

theorem of_move (h : Move k w w') : Moves k w w' := ReflTransGen.single h

theorem trans (h : Moves k w w') (h' : Moves k w' w'') : Moves k w w'' := ReflTransGen.trans h h'

theorem aside (h : w'.core = w.core) : Moves k w w' := of_move (.aside h)

theorem thenAside (h : Moves k w w') (hc : w''.core = w'.core) : Moves k w w'' := h.trans (aside hc)

/-- What every move keeps, a sequence of them keeps. -/
theorem keeps {I : World → Prop} (move : ∀ w w', I w → Move k w w' → I w') (h : Moves k w w') (hi : I w) : I w' := by
  induction h with
  | refl => exact hi
  | tail _ hm ih => exact move _ _ ih hm

end Moves

/-! ## What the operations do -/

namespace World

variable {k : Conduct}

theorem moves_callToolkit (w : World) (c : NativeCall) (hc : ∀ h cb, c = .itemDelCbSet h cb → k.setsSlots) :
    Moves k w (w.callToolkit c) :=
  (Moves.of_move (.call w c hc)).thenAside (w.core_callToolkit c)

theorem moves_native (w : World) (c : NativeCall) (hc : ∀ h cb, c ≠ .itemDelCbSet h cb) : Moves k w (w.native c) :=
  (Moves.of_move (.call w c fun h cb e => absurd e (hc h cb))).thenAside (w.core_native c)

theorem moves_unregister (b : Bridge) (ts : List Trampoline) (w : World) : Moves k w (w.unregister b ts) := by
  induction ts generalizing w with
  | nil => exact .refl w
  | cons t ts ih => exact (w.moves_native _ (by simp)).trans (ih _)

theorem moves_closeBridge (w : World) (b : Bridge) : Moves k w (w.closeBridge b) := by
  unfold closeBridge
  split
  · exact .refl w
  · exact (w.moves_unregister b b.listeners).thenAside rfl

theorem moves_release (w : World) (ref : Ref) : Moves k w (w.release ref) := by
  cases hh : w.isHeld ref
  · cases hx : w.wrappers.get? ref with
    | none => rw [release_of_gone hx]; exact .refl w
    | some x => exact .of_move (.free w ref x hx hh)
  · rw [release_of_held hh]; exact .refl w

/-- What a name, a pin or a hold referred to is let go of. -/
theorem moves_asideRelease {w w' : World} (ref : Ref) (hc : w'.core = w.core) : Moves k w (w'.release ref) :=
  (Moves.aside hc).trans (w'.moves_release ref)

theorem moves_unpin (w : World) (p : Pin) : Moves k w (w.unpin p) := by
  cases p with
  | wrapper ref => exact moves_asideRelease ref rfl
  | registry space => exact .aside rfl
  | sender s => exact .aside rfl

theorem moves_nameItem (w : World) (name : String) (ref : Ref) : Moves k w (w.nameItem name ref) := by
  simp only [nameItem]
  split
  · exact moves_asideRelease _ rfl
  · exact .aside rfl

theorem moves_nameProbe (w : World) (name : String) (ref : Ref) : Moves k w (w.nameProbe name ref) := by
  simp only [nameProbe]
  split
  · exact moves_asideRelease _ rfl
  · exact .aside rfl

theorem moves_dropItemName (w : World) (name : String) : Moves k w (w.dropItemName name) := by
  unfold dropItemName
  split
  · exact moves_asideRelease _ rfl
  · exact .refl w

theorem moves_dropProbeName (w : World) (name : String) : Moves k w (w.dropProbeName name) := by
  unfold dropProbeName
  split
  · exact moves_asideRelease _ rfl
  · exact .refl w

theorem core_setHandle {w w' : World} (h : w'.core = w.core) (ref : Ref) (a : Handle) :
    (w'.setHandle ref a).core = (w.setHandle ref a).core := by
  simp only [core, Prod.mk.injEq] at h
  obtain ⟨ht, hi, hb, hw, hn⟩ := h
  simp only [core, setHandle, modifyWrapper, ht, hi, hb, hw, hn]

theorem moves_register (w : World) (ref : Ref) (h : Handle) (hl : w.isLive ref = true)
    (hk : k.registers (w.spaceOf ref)) : Moves k w (w.register ref h).1 := by
  rcases w.register_cases ref h with ⟨-, hc⟩ | ⟨-, hc, -⟩ | ⟨-, ha, hc⟩
  · exact .aside hc
  · exact .aside hc
  · exact (Moves.of_move (.attach w ref h hl hk ha)).thenAside hc

theorem bind_refused {w : World} {ref : Ref} {h : Handle} {e : BindError} (hr : (w.register ref h).2 = some e) :
    w.bind ref h = w.register ref h := by
  unfold bind
  rcases hw : w.register ref h with ⟨w', _ | e'⟩
  · rw [hw] at hr; cases hr
  · rfl

theorem bind_accepted {w : World} {ref : Ref} {h : Handle} (hr : (w.register ref h).2 = none) :
    w.bind ref h = ((w.register ref h).1.setHandle ref h, none) := by
  unfold bind
  rcases hw : w.register ref h with ⟨w', _ | e'⟩
  · rfl
  · rw [hw] at hr; cases hr

theorem moves_bind (w : World) (ref : Ref) (h : Handle) (hl : w.isLive ref = true) (hk : k.binds (w.spaceOf ref))
    (ht : k.target w.toolkit h) : Moves k w (w.bind ref h).1 := by
  rcases w.register_cases ref h with ⟨⟨e, hr⟩, hc⟩ | ⟨hr, hc, hb⟩ | ⟨hr, ha, hc⟩
  · rw [bind_refused hr]; exact .aside hc
  · rw [bind_accepted hr]
    exact (Moves.of_move (.confirm w ref h hl ht hb)).thenAside (core_setHandle hc ref h)
  · rw [bind_accepted hr]
    exact (Moves.of_move (.rebind w ref h hl hk ht ha)).thenAside (core_setHandle hc ref h)

theorem moves_ofResult {w : World} {r : World × Option BindError} (h : Moves k w r.1) : Moves k w (ofResult r) := by
  rcases r with ⟨w', _ | e⟩
  · exact h.thenAside rfl
  · exact h.thenAside rfl

theorem moves_withHandle (w : World) (ref : Ref) (f : Handle → World) (h : ∀ a, Moves k w (f a)) :
    Moves k w (w.withHandle ref f) := by
  unfold withHandle
  split
  · exact h _
  · exact .aside rfl

theorem moves_setContent (w : World) (ref : Ref) (part : Part) (content : Handle) (preserve : Bool) :
    Moves k w (w.setContent ref part content preserve) := by
  refine w.moves_withHandle ref _ fun h => ?_
  have unset := w.moves_native (k := k) (.partContentUnset h part) (by simp)
  have cached (w : World) : Moves k w (((w.native (.partContentSet h part content)).modifyWrapper ref fun x =>
      { x with contents := x.contents.insert (Wrapper.cacheKey part) content }).answering .none) := by
    have put : Moves k w (w.native (.partContentSet h part content)) := w.moves_native _ (by simp)
    have keep (w : World) : Moves k w (w.modifyWrapper ref fun x =>
        { x with contents := x.contents.insert (Wrapper.cacheKey part) content }) :=
      .of_move (.edit w ref _ fun _ => ⟨rfl, rfl, rfl⟩)
    exact put.trans ((keep _).thenAside rfl)
  have gone (w : World) (r : Record) (old : Handle) : Moves k w ((w.log r).native (.objectDel old)) := by
    have told : Moves k w (w.log r) := .aside rfl
    exact told.trans ((w.log r).moves_native (.objectDel old) (by simp))
  refine unset.trans (Moves.trans ?_ (cached _))
  split
  · exact .refl _
  · exact gone _ _ _

theorem isLive_addWrapper (w : World) (x : Wrapper) : (w.addWrapper x).isLive w.freshRef = true := by
  simp [isLive, addWrapper, Table.contains]

theorem spaceOf_addWrapper (w : World) (x : Wrapper) : (w.addWrapper x).spaceOf w.freshRef = x.space := by
  simp [spaceOf, addWrapper]

theorem moves_newGrid (w : World) (h : Handle) (data : RowData) (name : Option String) (hk : k.binds .items)
    (ht : k.target w.toolkit h) : Moves k w (w.newGrid h data name) := by
  unfold newGrid withFreshId
  rcases ha : (w.registry .items).allocate? with _ | ⟨id, r⟩
  · exact .aside rfl
  · let made := (w.setRegistry .items r).addWrapper (.fresh id (.grid (some data)))
    have hm : Moves k w made := .of_move (.create w .items id r _ ha rfl)
    have hb : Moves k made (made.bind (w.setRegistry .items r).freshRef h).1 :=
      made.moves_bind _ h (isLive_addWrapper _ _) (by rw [spaceOf_addWrapper]; exact hk) ht
    refine hm.trans ?_
    simp only
    rcases hr : made.bind (w.setRegistry .items r).freshRef h with ⟨w', _ | e⟩
    · rw [hr] at hb
      rcases name with _ | name
      · exact hb.trans ((moves_release _ _).thenAside rfl)
      · exact hb.trans ((moves_nameItem _ _ _).thenAside rfl)
    · rw [hr] at hb
      exact hb.trans ((moves_release _ _).thenAside rfl)

theorem moves_newItem (w : World) (name : String) : Moves k w (w.newItem name) := by
  unfold newItem withFreshId
  rcases ha : (w.registry .items).allocate? with _ | ⟨id, r⟩
  · exact .aside rfl
  · exact (Moves.of_move (.create w .items id r .plain ha rfl)).trans ((moves_nameItem _ _ _).thenAside rfl)

theorem moves_newProbe (w : World) (name : String) (bare : Bool) (id : Option ItemId)
    (hid : ∀ i, id = some i → i.val < w.bareRegistry.nextId) : Moves k w (w.newProbe name bare id) := by
  unfold newProbe
  rcases id with _ | i
  · unfold withFreshId
    rcases ha : (w.registry .bare).allocate? with _ | ⟨i, r⟩
    · exact .aside rfl
    · exact (Moves.of_move (.create w .bare i r (.probe name bare) ha rfl)).trans ((moves_nameProbe _ _ _).thenAside rfl)
  · exact (Moves.of_move (.share w i name bare (hid i rfl))).trans ((moves_nameProbe _ _ _).thenAside rfl)

theorem moves_nextId (w : World) (space : Space) : Moves k w (w.withFreshId space fun w id => w.answering (.id id)) := by
  unfold withFreshId
  rcases ha : (w.registry space).allocate? with _ | ⟨id, r⟩
  · exact .aside rfl
  · exact (Moves.of_move (.allocate w space id r ha)).thenAside rfl

theorem moves_subscribe (w : World) (name : String) (b : Bridge) (handler : String) :
    Moves k w (w.subscribe name b handler) := by
  simp only [subscribe]
  split
  · exact .aside rfl
  · let t := b.trampoline w.nextTrampoline handler
    let made : World := { w.setBridge name (b.addListener t) with nextTrampoline := w.nextTrampoline + 1 }
    have hm : Moves k w made := .aside rfl
    exact hm.trans ((made.moves_native (.callbackAdd b.handle b.event (.trampoline t)) (by simp)).thenAside rfl)

theorem moves_unsubscribe (w : World) (name : String) (b : Bridge) (handler : String) :
    Moves k w (w.unsubscribe name b handler) := by
  have h : Moves k w (w.setBridge name (b.removeListeners handler)) := .aside rfl
  exact h.trans ((moves_unregister b (b.listenersOf handler) _).thenAside rfl)

theorem moves_addBridge (w : World) (name : String) (b : Bridge) : Moves k w (w.addBridge name b) := by
  simp only [addBridge]
  have h : Moves k w (w.setBridge name b) := .aside rfl
  split
  · exact h.trans (moves_closeBridge _ _)
  · exact h

theorem moves_dropBridge (w : World) (name : String) : Moves k w (w.dropBridge name) := by
  unfold dropBridge
  have h : Moves k w { w with bridges := w.bridges.erase name } := .aside rfl
  split
  · exact h.trans (moves_closeBridge _ _)
  · exact .refl w

theorem moves_onDeleted (w : World) (ref : Ref) (handler : String) : Moves k w (w.onDeleted ref handler) := by
  have h : Moves k w (w.modifyWrapper ref fun x => { x with deleted := x.deleted ++ [handler] }) :=
    .of_move (.edit w ref _ fun _ => ⟨rfl, rfl, rfl⟩)
  exact h.thenAside rfl

theorem moves_removeDeleted (w : World) (ref : Ref) (handler : String) : Moves k w (w.removeDeleted ref handler) := by
  have h : Moves k w (w.modifyWrapper ref fun x => { x with deleted := x.deleted.filter (· ≠ handler) }) :=
    .of_move (.edit w ref _ fun _ => ⟨rfl, rfl, rfl⟩)
  exact h.thenAside rfl

theorem moves_shutdown (w : World) (name : String) (b : Bridge) : Moves k w (w.shutdown name b) := by
  have h : Moves k w (w.setBridge name b.closed) := .aside rfl
  exact h.trans (moves_closeBridge _ b)

/-! ## Destruction -/

/-- After some moves the toolkit destroys `h`, with `slot` in its delete slot. -/
def Destroys (k : Conduct) (w w' : World) (h : Handle) (slot : Option DeleteCallback) : Prop :=
  ∃ w₁ t, Moves k w w₁ ∧ w₁.toolkit.destroy? h = some (t, slot) ∧ w'.core = { w₁ with toolkit := t }.core

/-- The delete callbacks among the jobs that become due are those of the destroyed item. -/
def Due (js : List Job) (h : Handle) (slot : Option DeleteCallback) : Prop :=
  ∀ cb h', .slot cb h' ∈ js ↔ h' = h ∧ slot = some cb

def NoneDue (js : List Job) : Prop := ∀ cb h, .slot cb h ∉ js

/-- What comes of an operation or a job: moves, or one destruction. -/
def Outcome (k : Conduct) (w : World) (r : World × List Job) : Prop :=
  (Moves k w r.1 ∧ NoneDue r.2) ∨ ∃ h slot, Destroys k w r.1 h slot ∧ Due r.2 h slot

theorem Outcome.after {w w₁ : World} {r : World × List Job} (hm : Moves k w w₁) (h : Outcome k w₁ r) : Outcome k w r := by
  rcases h with ⟨h, hn⟩ | ⟨a, slot, ⟨w₂, t, h, hd, hc⟩, hs⟩
  · exact Or.inl ⟨hm.trans h, hn⟩
  · exact Or.inr ⟨a, slot, ⟨w₂, t, hm.trans h, hd, hc⟩, hs⟩

theorem Outcome.append {w w' : World} {js ks : List Job} (h : Outcome k w (w', js)) (hk : NoneDue ks) :
    Outcome k w (w', js ++ ks) := by
  have old (cb : DeleteCallback) (a : Handle) : .slot cb a ∈ js ++ ks ↔ .slot cb a ∈ js := by
    simp only [List.mem_append, hk cb a, or_false]
  rcases h with ⟨h, hn⟩ | ⟨a, slot, h, hs⟩
  · exact Or.inl ⟨h, fun cb a hm => hn cb a ((old cb a).mp hm)⟩
  · exact Or.inr ⟨a, slot, h, fun cb b => (old cb b).trans (hs cb b)⟩

theorem outcome_destroy (w : World) (h : Handle) : Outcome k w (w.destroy h) := by
  unfold destroy
  rcases hd : w.toolkit.destroy? h with _ | ⟨t, slot⟩
  · exact Or.inl ⟨.aside rfl, by simp [NoneDue]⟩
  · refine Or.inr ⟨h, slot, ⟨w, t, .refl w, hd, rfl⟩, ?_⟩
    intro cb h'
    cases slot <;> simp [eq_comm, and_comm]

theorem outcome_carryOut (w : World) (h : Handle) : Outcome k w (w.carryOut h) := by
  unfold carryOut
  split
  · exact w.outcome_destroy h
  · exact Or.inl ⟨.refl w, by simp [NoneDue]⟩

theorem outcome_delete (w : World) (ref : Ref) : Outcome k w (w.delete ref) := by
  simp only [delete]
  split
  · exact Or.inl ⟨.aside rfl, by simp [NoneDue]⟩
  · let held := (((w.pin (.registry (w.spaceOf ref))).pin (.wrapper ref)).log
      (.deleteRequested (w.idOf ref) (w.handleOf ref)))
    have hm : Moves k w held := .aside rfl
    refine Outcome.after (hm.trans (held.moves_native (.itemDel (w.handleOf ref)) (by simp))) ?_
    exact (outcome_carryOut _ _).append (by simp [NoneDue])

/-- An operation is a sequence of moves, or it destroys an item. -/
theorem outcome_perform (w : World) (op : Op) (ok : k.Allows w op) : Outcome k w (w.perform op) := by
  obtain ⟨ht, hp⟩ := ok
  have quiet {w' : World} (h : Moves k w w') : Outcome k w (w', []) := Or.inl ⟨h, by simp [NoneDue]⟩
  cases op with
  | createItem => exact quiet ((Moves.of_move (.createItem w hp)).thenAside rfl)
  | createObject => exact quiet ((Moves.of_move (.createObject w hp)).thenAside rfl)
  | adopt h => exact quiet ((Moves.of_move (.adopt w h hp)).thenAside rfl)
  | destroy h => exact (w.outcome_destroy h).append (by simp [NoneDue])
  | flush =>
    refine Or.inl ⟨(Moves.of_move (.takePending w)).thenAside rfl, ?_⟩
    intro cb h
    simp [perform, flush]
  | native c =>
    have carried (hc : ∀ h cb, c = .itemDelCbSet h cb → k.setsSlots) :
        Moves k w ((w.callToolkit c).answering (w.replyTo c)) := (w.moves_callToolkit c hc).thenAside rfl
    cases c with
    | itemDel h =>
      refine Outcome.after (w.moves_callToolkit (.itemDel h) (by simp)) ?_
      exact (outcome_carryOut _ _).append (by simp [NoneDue])
    | itemDelCbSet h cb => exact quiet (carried fun _ _ _ => hp)
    | _ => exact quiet (carried (by simp))
  | newGrid h data name => exact quiet (w.moves_newGrid h data name hp.1 hp.2)
  | newItem name => exact quiet (w.moves_newItem name)
  | nameItem name ref => exact quiet ((w.moves_nameItem name ref).thenAside rfl)
  | dropItem name => exact quiet ((w.moves_dropItemName name).thenAside rfl)
  | setEnabled ref v => exact quiet (w.moves_withHandle ref _ fun _ => (w.moves_native _ (by simp)).thenAside rfl)
  | isEnabled ref => exact quiet (w.moves_withHandle ref _ fun _ => (w.moves_native _ (by simp)).thenAside rfl)
  | setText ref part text => exact quiet (w.moves_withHandle ref _ fun _ => (w.moves_native _ (by simp)).thenAside rfl)
  | text ref part => exact quiet (w.moves_withHandle ref _ fun _ => (w.moves_native _ (by simp)).thenAside rfl)
  | setContent ref part content preserve => exact quiet (w.moves_setContent ref part content preserve)
  | setSelected ref v => exact quiet (w.moves_withHandle ref _ fun _ => (w.moves_native _ (by simp)).thenAside rfl)
  | isSelected ref => exact quiet (w.moves_withHandle ref _ fun _ => (w.moves_native _ (by simp)).thenAside rfl)
  | update ref => exact quiet (w.moves_withHandle ref _ fun _ => (w.moves_native _ (by simp)).thenAside rfl)
  | onDeleted ref handler => exact quiet (w.moves_onDeleted ref handler)
  | removeDeleted ref handler => exact quiet (w.moves_removeDeleted ref handler)
  | bind ref h => exact quiet (moves_ofResult (w.moves_bind ref h ht.1 hp.1 hp.2))
  | delete ref => exact w.outcome_delete ref
  | nextId space => exact quiet (w.moves_nextId space)
  | forget space id => exact quiet ((Moves.of_move (.forget w space id hp)).thenAside rfl)
  | newProbe name bare id => exact quiet (w.moves_newProbe name bare id fun i e => by subst e; exact ht)
  | register ref h => exact quiet (moves_ofResult (w.moves_register ref h ht.1 hp))
  | setHandle ref h => exact quiet ((Moves.of_move (.setProbe w ref h ht)).thenAside rfl)
  | dropProbe name => exact quiet ((w.moves_dropProbeName name).thenAside rfl)
  | newBridge name b => exact quiet ((w.moves_addBridge name b).thenAside rfl)
  | dropBridge name => exact quiet ((w.moves_dropBridge name).thenAside rfl)
  | subscribe name b handler => exact quiet (w.moves_subscribe name b handler)
  | unsubscribe name b handler => exact quiet (w.moves_unsubscribe name b handler)
  | shutdown name b => exact quiet ((w.moves_shutdown name b).thenAside rfl)
  | letGo space => cases space <;> exact quiet (.aside rfl)
  | fire object event info => exact Or.inl ⟨.aside rfl, by simp [NoneDue, perform, fire]⟩
  | nativeDelete space h => exact Or.inl ⟨.aside rfl, by simp [NoneDue, perform]⟩
  | _ => exact quiet (.aside rfl)

theorem moves_invalidate (w : World) (ref : Ref) : Moves k w (w.invalidate ref).1 := by
  have clear (w : World) : Moves k w (w.modifyWrapper ref (·.cleared)) := by
    refine .of_move (.edit w ref _ fun x => ⟨rfl, rfl, ?_⟩)
    obtain ⟨id, h, kind, deleted, contents⟩ := x
    cases kind <;> rfl
  unfold invalidate
  split
  · exact .refl w
  · rename_i x _
    split
    · exact clear w
    · have told : Moves k w (w.log (.gridInvalidated x.id)) := .aside rfl
      exact told.trans (clear _)
    · exact .refl w

theorem moves_releaseHandle (w : World) (ref : Ref) : Moves k w (w.releaseHandle ref) := by
  simp only [releaseHandle]
  split
  · rename_i name _ _
    have told : Moves k w (w.emit (.released name)) := .aside rfl
    exact told.trans (.of_move (.setNull _ ref))
  · exact .of_move (.setNull w ref)

theorem moves_countFlushed (w : World) : Moves k w w.countFlushed := by
  unfold countFlushed
  split <;> exact .aside rfl

theorem moves_endFlush (w : World) : Moves k w w.endFlush := by
  unfold endFlush
  split <;> exact .aside rfl

theorem noneDue_of_rank {js : List Job} {n : Nat} (hn : n < 3) (h : ∀ j ∈ js, j.rank ≤ n) : NoneDue js := by
  intro cb a hm
  have := h _ hm
  simp only [Job.rank] at this
  omega

end World

/-- A registry is told of a deletion, or the deletion ends. -/
def Job.Reports : Job → Prop
  | .nativeDelete .. | .settle .. => True
  | _ => False

/-- Any other job is a sequence of moves, or it destroys an item. -/
theorem Job.outcome_expand {k : Conduct} (w : World) (j : Job) (ok : ∀ choose, j = .act choose → k.Allows w (choose w))
    (hj : ¬ j.Reports) : w.Outcome k (j.expand w) := by
  have quiet {w' : World} (h : Moves k w w') : w.Outcome k (w', []) := Or.inl ⟨h, by simp [World.NoneDue]⟩
  cases j with
  | act choose => exact w.outcome_perform (choose w) (ok choose rfl)
  | destroyQueued h =>
    refine World.Outcome.after ?_ (World.outcome_destroy (if w.toolkit.items.contains h then w.countFlushed else w) h)
    split
    · exact w.moves_countFlushed
    · exact .refl w
  | slot cb h =>
    refine Or.inl ⟨?_, World.noneDue_of_rank (by decide : 2 < 3) (w.rank_runSlot cb h)⟩
    simp only [expand, World.runSlot]
    split
    · exact .aside rfl
    · split <;> exact .aside rfl
  | invalidate ref =>
    refine Or.inl ⟨w.moves_invalidate ref, World.noneDue_of_rank (by decide : 0 < 3) fun j hj => ?_⟩
    exact Nat.le_of_eq (w.rank_invalidate ref j hj)
  | signal cb object info =>
    refine Or.inl ⟨?_, World.noneDue_of_rank (by decide : 0 < 3) fun j hj => Nat.le_of_eq (w.rank_signal cb object info j hj)⟩
    simp only [expand, World.signal]
    split
    · exact .aside rfl
    · split
      · split
        · exact .aside rfl
        · exact .aside rfl
        · split <;> exact .aside rfl
      · exact .aside rfl
  | nativeDelete space h => exact absurd trivial hj
  | settle space h id wrapper => exact absurd trivial hj
  | endFlush => exact quiet w.moves_endFlush
  | releaseHandle ref => exact quiet (w.moves_releaseHandle ref)
  | unpin p => exact quiet (w.moves_unpin p)
  | _ => exact quiet (.aside rfl)

/-! ## Tasks -/

def jobs (ts : List Task) : List Job := ts.map (·.job)

theorem jobs_cons (t : Task) (ts : List Task) : jobs (t :: ts) = t.job :: jobs ts := rfl

theorem jobs_append (ts us : List Task) : jobs (ts ++ us) = jobs ts ++ jobs us := List.map_append

theorem Program.expand_eq (p : Program) (t : Task) (w : World) (h : ∀ c, t.job ≠ .enter c) :
    p.expand t w = ((t.job.expand w).1, (t.job.expand w).2.map (⟨t.level, ·⟩)) := by
  obtain ⟨level, job⟩ := t
  cases job with
  | enter c => exact absurd rfl (h c)
  | _ => rfl

theorem jobs_expand (p : Program) (t : Task) (w : World) (h : ∀ c, t.job ≠ .enter c) :
    jobs (p.expand t w).2 = (t.job.expand w).2 := by
  rw [p.expand_eq t w h]
  simp only [jobs, List.map_map, Function.comp_def, List.map_id']

/-- What a call of the program makes due: its operations, and that it is left. -/
theorem mem_jobs_enter {p : Program} {level : Nat} {c : Call} {w : World} {j : Job}
    (h : j ∈ jobs (p.expand ⟨level, .enter c⟩ w).2) : (∃ choose, j = .act choose) ∨ j = .leave c := by
  cases level with
  | zero => simp [jobs, Program.expand] at h
  | succ level =>
    simp only [jobs, Program.expand, List.map_append, List.map_map, List.mem_append, List.mem_map, List.map_cons,
      List.map_nil, List.mem_singleton] at h
    rcases h with ⟨choose, -, rfl⟩ | h
    · exact Or.inl ⟨choose, rfl⟩
    · exact Or.inr h

theorem core_enter (p : Program) (level : Nat) (c : Call) (w : World) : (p.expand ⟨level, .enter c⟩ w).1.core = w.core := by
  cases level <;> rfl

/-- A task that is neither end of a report is a sequence of moves, or it destroys an item,
    whose delete callback is due then. -/
theorem Program.outcome_expand {k : Conduct} (p : Program) (t : Task) (w : World)
    (ok : ∀ choose, t.job = .act choose → k.Allows w (choose w)) (hj : ¬ t.job.Reports) :
    w.Outcome k ((p.expand t w).1, jobs (p.expand t w).2) := by
  by_cases he : ∃ c, t.job = .enter c
  · obtain ⟨level, job⟩ := t
    obtain ⟨c, rfl⟩ := he
    refine Or.inl ⟨.aside (core_enter p level c w), fun cb h hm => ?_⟩
    rcases mem_jobs_enter hm with ⟨choose, e⟩ | e <;> cases e
  · have he' : ∀ c, t.job ≠ .enter c := fun c h => he ⟨c, h⟩
    rw [jobs_expand p t w he', p.expand_eq t w he']
    exact t.job.outcome_expand w ok hj

/-! ## Reports -/

namespace World

/-- The code of the wrapper that a report of its deletion runs. -/
def wrapperCode (w : World) (space : Space) (id : ItemId) : List Job :=
  match w.lookupId space id with
  | none => []
  | some ref => w.notifications ref ++ [.invalidate ref]

theorem mem_notifications {w : World} {ref : Ref} {j : Job} (h : j ∈ w.notifications ref) : ∃ c, j = .enter c := by
  unfold notifications at h
  split at h
  · split at h
    · exact ⟨_, List.mem_singleton.mp h⟩
    · obtain ⟨handler, -, rfl⟩ := List.mem_map.mp h
      exact ⟨_, rfl⟩
  · cases h

theorem mem_wrapperCode {w : World} {space : Space} {id : ItemId} {j : Job} (h : j ∈ w.wrapperCode space id) :
    (∃ c, j = .enter c) ∨ ∃ ref, j = .invalidate ref := by
  unfold wrapperCode at h
  split at h
  · cases h
  · rename_i ref _
    rcases List.mem_append.mp h with h | h
    · exact Or.inl (mem_notifications h)
    · exact Or.inr ⟨ref, List.mem_singleton.mp h⟩

theorem nativeDelete_ignored {w : World} {space : Space} {h : Handle}
    (hi : h ∈ (w.registry space).dying ∨ (w.registry space).byHandle.get? h = none) :
    w.nativeDelete space h = (w.log (.unboundDelete h), []) := by
  by_cases hd : h ∈ (w.registry space).dying
  · simp only [nativeDelete, hd, if_true]
  · rcases hi with hi | hb
    · exact absurd hi hd
    · simp only [nativeDelete, hd, if_false, hb]

theorem nativeDelete_found {w : World} {space : Space} {h : Handle} {id : ItemId}
    (hd : h ∉ (w.registry space).dying) (hb : (w.registry space).byHandle.get? h = some id) :
    (w.nativeDelete space h).1.core = (w.setRegistry space ((w.registry space).startDying h)).core ∧
      (w.nativeDelete space h).2 = w.wrapperCode space id ++ [.settle space h id (w.lookupId space id)] := by
  simp only [nativeDelete, hd, if_false, hb, wrapperCode]
  rcases w.lookupId space id with _ | ref
  · exact ⟨rfl, rfl⟩
  · refine ⟨rfl, ?_⟩
    have hn : ((w.setRegistry space ((w.registry space).startDying h)).log (.nativeDelete id h)).notifications ref =
        w.notifications ref := by cases space <;> rfl
    simp only [hn, List.append_assoc, List.cons_append, List.nil_append]

/-- The wrapper that is found is notified and invalidated, and then the report ends. -/
theorem nativeDelete_due {w : World} {space : Space} {h : Handle} {id : ItemId} {ref : Ref}
    (hd : h ∉ (w.registry space).dying) (hb : (w.registry space).byHandle.get? h = some id)
    (hl : w.lookupId space id = some ref) :
    (w.nativeDelete space h).2 = w.notifications ref ++ [.invalidate ref, .settle space h id (some ref)] := by
  rw [(nativeDelete_found hd hb).2, wrapperCode, hl, List.append_assoc]
  rfl

theorem nativeDelete_cases (w : World) (space : Space) (h : Handle) :
    (h ∈ (w.registry space).dying ∨ (w.registry space).byHandle.get? h = none) ∨
    ∃ id, h ∉ (w.registry space).dying ∧ (w.registry space).byHandle.get? h = some id := by
  by_cases hd : h ∈ (w.registry space).dying
  · exact Or.inl (Or.inl hd)
  · rcases hb : (w.registry space).byHandle.get? h with _ | id
    · exact Or.inl (Or.inr rfl)
    · exact Or.inr ⟨id, hd, rfl⟩

/-- The tables after the end of a report, and the wrapper's handle. -/
def settled (w : World) (space : Space) (h : Handle) (id : ItemId) (wrapper : Option Ref) : World :=
  let w := w.setRegistry space ((w.registry space).endDying h id)
  match wrapper with
  | some ref => if (w.registry space).isElsewhere id h = false ∧ w.handleOf ref = h then w.setHandle ref .null else w
  | none => w

/-- The end of a report, but for letting go of the wrapper. -/
def reportEnd (w : World) (space : Space) (h : Handle) (id : ItemId) (wrapper : Option Ref) : World :=
  let w := w.setRegistry space ((w.registry space).endDying h id)
  if (w.registry space).isElsewhere id h then w.log (.rebound id h)
  else match wrapper with
    | some ref => if w.handleOf ref = h then w.releaseHandle ref else w
    | none => w

theorem settle_eq (w : World) (space : Space) (h : Handle) (id : ItemId) (wrapper : Option Ref) :
    w.settle space h id wrapper = match wrapper with
      | some ref => (w.reportEnd space h id wrapper).unpin (.wrapper ref)
      | none => w.reportEnd space h id wrapper := rfl

/-- It settles tables and handle. -/
theorem core_reportEnd (w : World) (space : Space) (h : Handle) (id : ItemId) (wrapper : Option Ref) :
    (w.reportEnd space h id wrapper).core = (w.settled space h id wrapper).core := by
  simp only [reportEnd, settled]
  generalize w.setRegistry space ((w.registry space).endDying h id) = mid
  cases he : (mid.registry space).isElsewhere id h
  · rcases wrapper with _ | ref
    · rfl
    · simp only [Bool.false_eq_true, if_false, true_and]
      split
      · simp only [releaseHandle]
        split <;> rfl
      · rfl
  · rcases wrapper with _ | ref
    · rfl
    · simp only [if_true, Bool.true_eq_false, false_and, if_false]
      rfl

theorem moves_settle (w : World) (space : Space) (h : Handle) (id : ItemId) (wrapper : Option Ref) :
    Moves k (w.settled space h id wrapper) (w.settle space h id wrapper) := by
  have hc := w.core_reportEnd space h id wrapper
  rw [settle_eq]
  rcases wrapper with _ | ref
  · exact .aside hc
  · exact (Moves.aside hc).trans (moves_unpin _ (.wrapper ref))

end World

/-- What is kept by moves, by a destruction, and by the two ends of a report is kept by a
    step. -/
theorem Turn.keeps {k : Conduct} {I : World → Prop} {c c' : State} (hs : Turn k c c')
    (move : ∀ w w', I w → Move k w w' → I w')
    (destroyed : ∀ w h t slot, I w → w.toolkit.destroy? h = some (t, slot) → I { w with toolkit := t })
    (startDying : ∀ w space h, I w → I (w.setRegistry space ((w.registry space).startDying h)))
    (settled : ∀ level space h id wrapper ts, c.tasks = ⟨level, .settle space h id wrapper⟩ :: ts → I c.world →
      I (c.world.settled space h id wrapper))
    (hi : I c.world) : I c'.world := by
  obtain ⟨p, w, t, ts, ok⟩ := hs
  by_cases hj : t.job.Reports
  · obtain ⟨level, job⟩ := t
    cases job with
    | nativeDelete space h =>
      show I (w.nativeDelete space h).1
      rcases w.nativeDelete_cases space h with hn | ⟨id, hd, hb⟩
      · rw [World.nativeDelete_ignored hn]
        exact move _ _ hi (.aside rfl)
      · exact move _ _ (startDying w space h hi) (.aside (World.nativeDelete_found hd hb).1)
    | settle space h id wrapper =>
      show I (w.settle space h id wrapper)
      exact (World.moves_settle w space h id wrapper).keeps move (settled level space h id wrapper ts rfl hi)
    | _ => exact hj.elim
  · rcases p.outcome_expand t w ok hj with ⟨hm, -⟩ | ⟨h, slot, ⟨w₁, t', hm, hd, hc⟩, -⟩
    · exact hm.keeps move hi
    · exact move _ _ (destroyed w₁ h t' slot (hm.keeps move hi) hd) (.aside hc)

/-! ## Where reports come from -/

/-- A piece of the code of `ref` that a report of its deletion calls: one of the calls that
    notify it, or its invalidation. -/
def Job.Code : Job → Ref → Prop
  | .enter (.deleted _ a), ref | .enter (.probeDeleted _ a), ref | .invalidate a, ref => a = ref
  | _, _ => False

/-- Neither an end of a report nor wrapper code that one calls. -/
def Job.Outside (j : Job) : Prop := ¬ j.Reports ∧ ∀ ref, ¬ j.Code ref

namespace World

/-- Everything in the list is outside of reports. -/
def NoneReports (js : List Job) : Prop := ∀ j ∈ js, j.Outside

theorem noneReports_destroy (w : World) (h : Handle) : NoneReports (w.destroy h).2 := by
  unfold destroy
  split
  · simp [NoneReports]
  · split <;> simp [NoneReports, Job.Outside, Job.Reports, Job.Code]

theorem noneReports_carryOut (w : World) (h : Handle) : NoneReports (w.carryOut h).2 := by
  unfold carryOut
  split
  · exact w.noneReports_destroy h
  · simp [NoneReports]

theorem noneReports_append {js ks : List Job} (h : NoneReports js) (hk : NoneReports ks) : NoneReports (js ++ ks) := by
  intro j hj
  rcases List.mem_append.mp hj with hj | hj
  · exact h j hj
  · exact hk j hj

/-- Of the operations, only the one that reports a deletion has a report due. -/
theorem noneReports_perform (w : World) (op : Op) (h : ∀ space a, op ≠ .nativeDelete space a) :
    NoneReports (w.perform op).2 := by
  cases op with
  | destroy a => exact noneReports_append (w.noneReports_destroy a) (by simp [NoneReports, Job.Outside, Job.Reports, Job.Code])
  | flush =>
    refine noneReports_append (fun j hj => ?_) (by simp [NoneReports, Job.Outside, Job.Reports, Job.Code])
    obtain ⟨a, -, rfl⟩ := List.mem_map.mp hj
    exact ⟨not_false, fun _ => not_false⟩
  | fire object event info =>
    refine noneReports_append (fun j hj => ?_) (by simp [NoneReports, Job.Outside, Job.Reports, Job.Code])
    obtain ⟨cb, -, rfl⟩ := List.mem_map.mp hj
    exact ⟨not_false, fun _ => not_false⟩
  | native c =>
    cases c with
    | itemDel a => exact noneReports_append (noneReports_carryOut _ a) (by simp [NoneReports, Job.Outside, Job.Reports, Job.Code])
    | _ => simp [perform, NoneReports]
  | delete ref =>
    simp only [perform, delete]
    split
    · simp [NoneReports]
    · exact noneReports_append (noneReports_carryOut _ _) (by simp [NoneReports, Job.Outside, Job.Reports, Job.Code])
  | nativeDelete space a => exact absurd rfl (h space a)
  | _ => simp [perform, NoneReports]

theorem noneReports_invalidate (w : World) (ref : Ref) : NoneReports (w.invalidate ref).2 := by
  unfold invalidate
  split
  · simp [NoneReports]
  · split
    · simp [NoneReports]
    · simp [NoneReports]
    · split <;> simp [NoneReports, Job.Outside, Job.Reports, Job.Code]

theorem noneReports_signal (w : World) (cb : SignalCallback) (object : Handle) (info : EventInfo) :
    NoneReports (w.signal cb object info).2 := by
  unfold signal
  split
  · simp [NoneReports, Job.Outside, Job.Reports, Job.Code]
  · split
    · split
      · simp [NoneReports, Job.Outside, Job.Reports, Job.Code]
      · simp [NoneReports, Job.Outside, Job.Reports, Job.Code]
      · simp only
        split <;> simp [NoneReports, Job.Outside, Job.Reports, Job.Code]
    · simp [NoneReports]

end World

/-- What a task that is neither end of a report makes due is outside of reports, or it is the
    beginning of one: the toolkit runs a registry's delete callback, or the program reports a
    deletion itself. -/
theorem due_of_mem_expand {p : Program} {t : Task} {w : World} {j : Job} (hj : j ∈ jobs (p.expand t w).2)
    (ht : ¬ t.job.Reports) :
    j.Outside ∨ ∃ space h, j = .nativeDelete space h ∧
      (t.job = .slot (.registry space) h ∨ ∃ choose, t.job = .act choose ∧ choose w = .nativeDelete space h) := by
  obtain ⟨level, job⟩ := t
  by_cases he : ∃ c, job = .enter c
  · obtain ⟨c, rfl⟩ := he
    rcases mem_jobs_enter hj with ⟨choose, rfl⟩ | rfl <;> exact Or.inl ⟨id, fun _ => id⟩
  · rw [jobs_expand p _ w fun c h => he ⟨c, h⟩] at hj
    cases job with
    | act choose =>
      by_cases ho : ∃ space a, choose w = .nativeDelete space a
      · obtain ⟨space, a, ho⟩ := ho
        simp only [Job.expand, ho, World.perform, List.mem_cons, List.not_mem_nil, or_false] at hj
        rcases hj with rfl | rfl | rfl
        · exact Or.inr ⟨space, a, rfl, Or.inr ⟨choose, rfl, ho⟩⟩
        · exact Or.inl ⟨id, fun _ => id⟩
        · exact Or.inl ⟨id, fun _ => id⟩
      · exact Or.inl (w.noneReports_perform (choose w) (fun space a h => ho ⟨space, a, h⟩) j hj)
    | slot cb a =>
      simp only [Job.expand, World.runSlot] at hj
      split at hj
      · rcases List.mem_singleton.mp hj with rfl
        exact Or.inl ⟨id, fun _ => id⟩
      · split at hj
        · rename_i space _
          simp only [List.mem_cons, List.not_mem_nil, or_false] at hj
          rcases hj with rfl | rfl
          · exact Or.inr ⟨space, a, rfl, Or.inl rfl⟩
          · exact Or.inl ⟨id, fun _ => id⟩
        · cases hj
    | destroyQueued a => exact Or.inl (World.noneReports_destroy _ a j hj)
    | invalidate ref => exact Or.inl (w.noneReports_invalidate ref j hj)
    | signal cb object info => exact Or.inl (w.noneReports_signal cb object info j hj)
    | enter c => exact absurd ⟨c, rfl⟩ he
    | nativeDelete space a => exact absurd trivial ht
    | settle space a id wrapper => exact absurd trivial ht
    | _ => cases hj

/-- A report comes due when the toolkit runs a registry's delete callback, or when the
    program reports a deletion itself. -/
theorem reports_of_mem_expand {p : Program} {t : Task} {w : World} {j : Job} (hj : j ∈ jobs (p.expand t w).2)
    (hr : j.Reports) (ht : ¬ t.job.Reports) :
    ∃ space h, j = .nativeDelete space h ∧
      (t.job = .slot (.registry space) h ∨ ∃ choose, t.job = .act choose ∧ choose w = .nativeDelete space h) :=
  (due_of_mem_expand hj ht).resolve_left fun ho => ho.1 hr

/-- The end of a report comes due when the report begins: when the handle is mapped and
    is not being reported already. -/
theorem settle_of_mem_expand {p : Program} {t : Task} {w : World} {space : Space} {h : Handle} {id : ItemId}
    {wrapper : Option Ref} (hj : .settle space h id wrapper ∈ jobs (p.expand t w).2) :
    t.job = .nativeDelete space h ∧ h ∉ (w.registry space).dying ∧ (w.registry space).byHandle.get? h = some id ∧
      wrapper = w.lookupId space id := by
  by_cases ht : t.job.Reports
  · obtain ⟨level, job⟩ := t
    cases job with
    | nativeDelete space' h' =>
      rw [jobs_expand p _ w (by simp)] at hj
      change _ ∈ (w.nativeDelete space' h').2 at hj
      rcases w.nativeDelete_cases space' h' with hn | ⟨id', hd, hb⟩
      · rw [World.nativeDelete_ignored hn] at hj
        cases hj
      · rw [(World.nativeDelete_found hd hb).2] at hj
        rcases List.mem_append.mp hj with hj | hj
        · rcases World.mem_wrapperCode hj with ⟨c, e⟩ | ⟨ref, e⟩ <;> cases e
        · cases List.mem_singleton.mp hj
          exact ⟨rfl, hd, hb, rfl⟩
    | settle => cases hj
    | _ => exact ht.elim
  · obtain ⟨space', h', e, -⟩ := reports_of_mem_expand hj trivial ht
    cases e

/-! ## What only operations ask for -/

/-- What remains to be done of a flush, or of a delete once the toolkit has come back. -/
def Job.Asked : Job → Prop
  | .destroyQueued _ | .endFlush | .releaseHandle _ => True
  | _ => False

namespace World

def NoneAsked (js : List Job) : Prop := ∀ j ∈ js, ¬ j.Asked

theorem noneAsked_destroy (w : World) (h : Handle) : NoneAsked (w.destroy h).2 := by
  unfold destroy
  split
  · simp [NoneAsked]
  · split <;> simp [NoneAsked, Job.Asked]

theorem noneAsked_carryOut (w : World) (h : Handle) : NoneAsked (w.carryOut h).2 := by
  unfold carryOut
  split
  · exact w.noneAsked_destroy h
  · simp [NoneAsked]

theorem noneAsked_runSlot (w : World) (cb : DeleteCallback) (h : Handle) : NoneAsked (w.runSlot cb h).2 := by
  unfold runSlot
  split
  · simp [NoneAsked, Job.Asked]
  · split <;> simp [NoneAsked, Job.Asked]

theorem noneAsked_invalidate (w : World) (ref : Ref) : NoneAsked (w.invalidate ref).2 := by
  unfold invalidate
  split
  · simp [NoneAsked]
  · split
    · simp [NoneAsked]
    · simp [NoneAsked]
    · split <;> simp [NoneAsked, Job.Asked]

theorem noneAsked_signal (w : World) (cb : SignalCallback) (object : Handle) (info : EventInfo) :
    NoneAsked (w.signal cb object info).2 := by
  unfold signal
  split
  · simp [NoneAsked, Job.Asked]
  · split
    · split
      · simp [NoneAsked, Job.Asked]
      · simp [NoneAsked, Job.Asked]
      · simp only
        split <;> simp [NoneAsked, Job.Asked]
    · simp [NoneAsked]

theorem noneAsked_nativeDelete (w : World) (space : Space) (h : Handle) : NoneAsked (w.nativeDelete space h).2 := by
  rcases w.nativeDelete_cases space h with hn | ⟨id, hd, hb⟩
  · rw [nativeDelete_ignored hn]
    simp [NoneAsked]
  · rw [(nativeDelete_found hd hb).2]
    intro j hj
    rcases List.mem_append.mp hj with hj | hj
    · rcases mem_wrapperCode hj with ⟨c, rfl⟩ | ⟨ref, rfl⟩ <;> exact not_false
    · cases List.mem_singleton.mp hj
      exact not_false

/-- Flushes ask for it, and deletes. -/
theorem op_of_asked {w : World} {op : Op} {j : Job} (hj : j ∈ (w.perform op).2) (ha : j.Asked) :
    (op = .flush ∧ ∀ ref, j ≠ .releaseHandle ref) ∨ ∃ ref, op = .delete ref ∧ j = .releaseHandle ref := by
  cases op with
  | flush =>
    refine Or.inl ⟨rfl, fun ref e => ?_⟩
    simp [e, perform, flush] at hj
  | destroy h =>
    rcases List.mem_append.mp hj with hj | hj
    · exact absurd ha (w.noneAsked_destroy h j hj)
    · cases List.mem_singleton.mp hj
      exact ha.elim
  | native c =>
    cases c with
    | itemDel h =>
      rcases List.mem_append.mp hj with hj | hj
      · exact absurd ha (noneAsked_carryOut _ h j hj)
      · cases List.mem_singleton.mp hj
        exact ha.elim
    | _ => simp [perform] at hj
  | delete ref =>
    simp only [perform, delete] at hj
    split at hj
    · cases hj
    · rcases List.mem_append.mp hj with hj | hj
      · exact absurd ha (noneAsked_carryOut _ _ j hj)
      · simp only [List.mem_cons, List.not_mem_nil, or_false] at hj
        rcases hj with rfl | rfl | rfl | rfl
        · exact Or.inr ⟨ref, rfl, rfl⟩
        all_goals exact ha.elim
  | fire object event info =>
    simp only [perform, fire, List.mem_append, List.mem_map, List.mem_singleton] at hj
    rcases hj with ⟨cb, -, rfl⟩ | rfl <;> exact ha.elim
  | nativeDelete space h =>
    simp only [perform, List.mem_cons, List.not_mem_nil, or_false] at hj
    rcases hj with rfl | rfl | rfl <;> exact ha.elim
  | _ => cases hj

end World

/-- No task asks for it but one that performs such an operation. -/
theorem asked_of_mem_expand {p : Program} {t : Task} {w : World} {j : Job} (hj : j ∈ jobs (p.expand t w).2) (ha : j.Asked) :
    ∃ choose, t.job = .act choose ∧ j ∈ (w.perform (choose w)).2 := by
  obtain ⟨level, job⟩ := t
  by_cases he : ∃ c, job = .enter c
  · obtain ⟨c, rfl⟩ := he
    rcases mem_jobs_enter hj with ⟨choose, rfl⟩ | rfl <;> exact ha.elim
  · rw [jobs_expand p _ w fun c h => he ⟨c, h⟩] at hj
    cases job with
    | act choose => exact ⟨choose, rfl, hj⟩
    | slot cb h => exact absurd ha (w.noneAsked_runSlot cb h j hj)
    | nativeDelete space h => exact absurd ha (w.noneAsked_nativeDelete space h j hj)
    | invalidate ref => exact absurd ha (w.noneAsked_invalidate ref j hj)
    | signal cb object info => exact absurd ha (w.noneAsked_signal cb object info j hj)
    | destroyQueued h => exact absurd ha (World.noneAsked_destroy _ h j hj)
    | enter c => exact absurd ⟨c, rfl⟩ he
    | _ => cases hj

end HandleBridge
