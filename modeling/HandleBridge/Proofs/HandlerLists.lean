/-
  HandleBridge.Proofs.HandlerLists — the handlers of an item's deletion, over a run.

  An item keeps a list of handlers. `Op.onHandlers` says what an operation does to the list of an
  item, and `Course.handlers` what the operations of a run have made of it, from nothing. Everything
  else that happens to wrappers, their bindings and their deletions included, leaves the lists of those
  that stay as they are, and a wrapper that is new has none (`World.Passed`).
  - `World.passed_perform`, `Job.passed_expand`, `Turn.passed`: an operation that does not edit handlers,
    a job, a step.
  - `Course.handlers_eq`: in every state of a run the list of an item is what the run has made of it.
-/
import HandleBridge.Proofs.Binding
import HandleBridge.Proofs.Holders
import HandleBridge.Proofs.Trampolines

namespace HandleBridge

namespace World

variable {w w' w'' : World}

/-- A wrapper that is there afterwards has the handlers that it had, or is new and has none. -/
structure Passed (w w' : World) : Prop where
  nextRef : w.nextRef ≤ w'.nextRef
  wrappers : ∀ ref y, w'.wrappers.get? ref = some y →
    (∃ x, w.wrappers.get? ref = some x ∧ x.deleted = y.deleted) ∨ (w.nextRef ≤ ref.serial ∧ y.deleted = [])

namespace Passed

theorem of_fewer (hn : w'.nextRef = w.nextRef) (hx : ∀ ref y, w'.wrappers.get? ref = some y → w.wrappers.get? ref = some y) :
    w.Passed w' :=
  ⟨Nat.le_of_eq hn.symm, fun ref y hy => Or.inl ⟨y, hx ref y hy, rfl⟩⟩

theorem of_same (hx : w'.wrappers = w.wrappers) (hn : w'.nextRef = w.nextRef) : w.Passed w' :=
  of_fewer hn fun _ _ hy => hx ▸ hy

theorem of_ties (h : w'.ties .null = w.ties .null) : w.Passed w' := of_same (congrArg (·.1) h) (congrArg (·.2.1) h)

theorem refl (w : World) : w.Passed w := of_same rfl rfl

theorem trans (h : w.Passed w') (h' : w'.Passed w'') : w.Passed w'' := by
  refine ⟨Nat.le_trans h.nextRef h'.nextRef, fun ref z hz => ?_⟩
  rcases h'.wrappers ref z hz with ⟨y, hy, same⟩ | ⟨hn, none⟩
  · rcases h.wrappers ref y hy with ⟨x, hx, same'⟩ | ⟨hn, none⟩
    · exact Or.inl ⟨x, hx, same'.trans same⟩
    · exact Or.inr ⟨hn, same ▸ none⟩
  · exact Or.inr ⟨Nat.le_trans h.nextRef hn, none⟩

theorem answering (h : w.Passed w') (a : Answer) : w.Passed (w'.answering a) := h.trans (of_same rfl rfl)

end Passed

/-! ## Changes of wrappers -/

theorem passed_modifyWrapper (w : World) (ref : Ref) (f : Wrapper → Wrapper) (hf : ∀ x, (f x).deleted = x.deleted) :
    w.Passed (w.modifyWrapper ref f) := by
  refine ⟨Nat.le_refl _, fun a y hy => Or.inl ?_⟩
  simp only [modifyWrapper, Table.get?_modify] at hy
  split at hy
  · obtain ⟨x, hx, rfl⟩ := Option.map_eq_some_iff.mp hy
    exact ⟨x, hx, (hf x).symm⟩
  · exact ⟨y, hy, rfl⟩

theorem passed_addWrapper (w : World) (id : ItemId) (kind : WrapperKind) : w.Passed (w.addWrapper (.fresh id kind)) := by
  refine ⟨Nat.le_succ _, fun a y hy => ?_⟩
  simp only [addWrapper, Table.get?_insert] at hy
  split at hy
  · rename_i ha
    cases hy
    exact Or.inr ⟨Nat.le_of_eq (congrArg Ref.serial ha).symm, rfl⟩
  · exact Or.inl ⟨y, hy, rfl⟩

theorem passed_setRegistry (w : World) (space : Space) (r : Registry) : w.Passed (w.setRegistry space r) :=
  .of_same (w.wrappers_setRegistry space r) (w.nextRef_setRegistry space r)

theorem passed_release (w : World) (ref : Ref) : w.Passed (w.release ref) := by
  refine .of_fewer (w.nextRef_release ref) fun a y hy => ?_
  by_cases hh : w.isHeld ref = true
  · rwa [release_of_held hh] at hy
  · rcases hx : w.wrappers.get? ref with _ | x
    · rwa [release_of_gone hx] at hy
    · rw [wrappers_released hx (Bool.eq_false_iff.mpr hh), Table.get?_erase] at hy
      split at hy
      · cases hy
      · exact hy

theorem passed_asideRelease (ref : Ref) (hx : w'.wrappers = w.wrappers) (hn : w'.nextRef = w.nextRef) :
    w.Passed (w'.release ref) :=
  (Passed.of_same hx hn).trans (w'.passed_release ref)

theorem passed_unpin (w : World) (p : Pin) : w.Passed (w.unpin p) := by
  cases p with
  | wrapper ref => exact passed_asideRelease ref rfl rfl
  | _ => exact .of_same rfl rfl

theorem passed_nameItem (w : World) (name : String) (ref : Ref) : w.Passed (w.nameItem name ref) := by
  simp only [nameItem]
  split
  · exact passed_asideRelease _ rfl rfl
  · exact .of_same rfl rfl

theorem passed_nameProbe (w : World) (name : String) (ref : Ref) : w.Passed (w.nameProbe name ref) := by
  simp only [nameProbe]
  split
  · exact passed_asideRelease _ rfl rfl
  · exact .of_same rfl rfl

theorem passed_dropItemName (w : World) (name : String) : w.Passed (w.dropItemName name) := by
  unfold dropItemName
  split
  · exact passed_asideRelease _ rfl rfl
  · exact .refl w

theorem passed_dropProbeName (w : World) (name : String) : w.Passed (w.dropProbeName name) := by
  unfold dropProbeName
  split
  · exact passed_asideRelease _ rfl rfl
  · exact .refl w

theorem passed_register (w : World) (ref : Ref) (h : Handle) : w.Passed (w.register ref h).1 :=
  .of_same (w.wrappers_register ref h) (w.nextRef_register ref h)

theorem passed_setHandle (w : World) (ref : Ref) (h : Handle) : w.Passed (w.setHandle ref h) :=
  w.passed_modifyWrapper ref ({ · with handle := h }) fun _ => rfl

theorem passed_bind (w : World) (ref : Ref) (h : Handle) : w.Passed (w.bind ref h).1 := by
  rcases hr : (w.register ref h).2 with _ | e
  · rw [bind_accepted hr]
    exact (w.passed_register ref h).trans (passed_setHandle _ ref h)
  · rw [bind_refused hr]
    exact w.passed_register ref h

theorem passed_ofResult {r : World × Option BindError} (h : w.Passed r.1) : w.Passed (ofResult r) := by
  rcases r with ⟨w', _ | e⟩
  · exact h.answering .none
  · exact h.trans (.of_same rfl rfl)

theorem passed_withFreshId (w : World) (space : Space) {f : World → ItemId → World} (h : ∀ (v : World) id, v.Passed (f v id)) :
    w.Passed (w.withFreshId space f) := by
  unfold withFreshId
  split
  · exact (w.passed_setRegistry space _).trans (h _ _)
  · exact .of_same rfl rfl

theorem passed_newItem (w : World) (name : String) : w.Passed (w.newItem name) :=
  w.passed_withFreshId .items fun v id => ((v.passed_addWrapper id .plain).trans (passed_nameItem _ name _)).answering _

theorem passed_newProbe (w : World) (name : String) (bare : Bool) (id : Option ItemId) : w.Passed (w.newProbe name bare id) := by
  have added (v : World) (id : ItemId) :
      v.Passed (((v.addWrapper (.fresh id (.probe name bare))).nameProbe name v.freshRef).answering (.id id)) :=
    ((v.passed_addWrapper id (.probe name bare)).trans (passed_nameProbe _ name _)).answering _
  unfold newProbe
  cases id with
  | some id => exact added w id
  | none => exact w.passed_withFreshId .bare added

theorem passed_newGrid (w : World) (h : Handle) (data : RowData) (name : Option String) : w.Passed (w.newGrid h data name) := by
  refine w.passed_withFreshId .items fun v id => ?_
  have made := (v.passed_addWrapper id (.grid (some data))).trans (passed_bind _ v.freshRef h)
  simp only
  split
  · rename_i v' e hb
    rw [hb] at made
    exact (made.trans (passed_release _ _)).trans (.of_same rfl rfl)
  · rename_i v' hb
    rw [hb] at made
    split
    · exact (made.trans (passed_nameItem _ _ _)).answering _
    · exact (made.trans (passed_release _ _)).trans (.of_same rfl rfl)

theorem passed_native (w : World) (c : NativeCall) : w.Passed (w.native c) :=
  .of_same (core_eq (w.core_native c)).2.2.1 (core_eq (w.core_native c)).2.2.2

theorem passed_withHandle (w : World) (ref : Ref) {f : Handle → World} (h : ∀ a, w.Passed (f a)) : w.Passed (w.withHandle ref f) := by
  unfold withHandle
  split
  · exact h _
  · exact .of_same rfl rfl

theorem passed_setContent (w : World) (ref : Ref) (part : Part) (content : Handle) (preserve : Bool) :
    w.Passed (w.setContent ref part content preserve) := by
  refine w.passed_withHandle ref fun h => ?_
  have unset := w.passed_native (.partContentUnset h part)
  have put (v : World) : v.Passed (((v.native (.partContentSet h part content)).modifyWrapper ref fun x =>
      { x with contents := x.contents.insert (Wrapper.cacheKey part) content }).answering .none) := by
    have noted := passed_modifyWrapper (v.native (.partContentSet h part content)) ref
      (fun x => { x with contents := x.contents.insert (Wrapper.cacheKey part) content }) fun _ => rfl
    exact ((v.passed_native _).trans noted).answering _
  refine unset.trans (Passed.trans ?_ (put _))
  split
  · exact .refl _
  · have told (v : World) (r : Record) : v.Passed (v.log r) := .of_same rfl rfl
    exact (told _ _).trans (passed_native _ _)

theorem passed_invalidate (w : World) (ref : Ref) : w.Passed (w.invalidate ref).1 := by
  have clear (v : World) : v.Passed (v.modifyWrapper ref (·.cleared)) := v.passed_modifyWrapper ref (·.cleared) fun _ => rfl
  unfold invalidate
  split
  · exact .refl w
  · split
    · exact clear w
    · have told (r : Record) : w.Passed (w.log r) := .of_same rfl rfl
      exact (told _).trans (clear _)
    · exact .refl w

theorem passed_releaseHandle (w : World) (ref : Ref) : w.Passed (w.releaseHandle ref) := by
  have told (e : Event) : w.Passed (w.emit e) := .of_same rfl rfl
  simp only [releaseHandle]
  split
  · exact (told _).trans (passed_setHandle _ ref .null)
  · exact w.passed_setHandle ref .null

theorem passed_settle (w : World) (space : Space) (h : Handle) (id : ItemId) (wrapper : Option Ref) :
    w.Passed (w.settle space h id wrapper) := by
  have ended : w.Passed (w.reportEnd space h id wrapper) := by
    have tables := w.passed_setRegistry space ((w.registry space).endDying h id)
    simp only [reportEnd]
    split
    · exact tables.trans (.of_same rfl rfl)
    · split
      · split
        · exact tables.trans (passed_releaseHandle _ _)
        · exact tables
      · exact tables
  rw [settle_eq]
  split
  · exact ended.trans (passed_unpin _ _)
  · exact ended

end World

/-! ## Operations and jobs -/

/-- What the operation makes of the handlers of `ref`. -/
def Op.onHandlers (ref : Ref) (handlers : List String) : Op → List String
  | .onDeleted a f => if a = ref then handlers ++ [f] else handlers
  | .removeDeleted a f => if a = ref then handlers.filter (· ≠ f) else handlers
  | _ => handlers

/-- The operation edits the handlers of an item. -/
def Op.EditsHandlers : Op → Prop
  | .onDeleted .. | .removeDeleted .. => True
  | _ => False

theorem Op.onHandlers_other {op : Op} (h : ¬ op.EditsHandlers) (ref : Ref) (handlers : List String) :
    op.onHandlers ref handlers = handlers := by
  cases op with
  | onDeleted | removeDeleted => exact absurd trivial h
  | _ => rfl

namespace World

theorem passed_perform (w : World) {op : Op} (h : ¬ op.EditsHandlers) : w.Passed (w.perform op).1 := by
  have tied {w' : World} (h : w'.ties .null = w.ties .null) : w.Passed w' := .of_ties h
  have called (ref : Ref) (c : Handle → NativeCall) (x : Handle → Answer) :
      w.Passed (w.withHandle ref fun h => (w.native (c h)).answering (x h)) :=
    w.passed_withHandle ref fun h => (w.passed_native (c h)).answering _
  cases op with
  | destroy a => exact tied (w.ties_destroy a)
  | native c =>
    cases c with
    | itemDel a => exact tied ((ties_carryOut _ a).trans (w.ties_callToolkit _))
    | _ => exact (tied (w.ties_callToolkit _)).answering _
  | newGrid a data name => exact w.passed_newGrid a data name
  | newItem name => exact w.passed_newItem name
  | nameItem name ref => exact (w.passed_nameItem name ref).answering .none
  | dropItem name => exact (w.passed_dropItemName name).answering .none
  | setEnabled ref v => exact called ref _ _
  | isEnabled ref => exact called ref _ _
  | setText ref part text => exact called ref _ _
  | text ref part => exact called ref _ _
  | setContent ref part content preserve => exact w.passed_setContent ref part content preserve
  | setSelected ref v => exact called ref _ _
  | isSelected ref => exact called ref _ _
  | update ref => exact called ref _ _
  | onDeleted | removeDeleted => exact absurd trivial h
  | bind ref a => exact passed_ofResult (w.passed_bind ref a)
  | register ref a => exact passed_ofResult (w.passed_register ref a)
  | delete ref => exact tied (w.ties_delete ref)
  | nextId space =>
    exact w.passed_withFreshId (f := fun v id => v.answering (.id id)) space fun v id => (Passed.refl v).answering _
  | forget space id => exact .of_same (w.wrappers_forget space id) (w.nextRef_forget space id)
  | letGo space => cases space <;> exact .of_same rfl rfl
  | newProbe name bare id => exact w.passed_newProbe name bare id
  | setHandle ref a => exact (w.passed_setHandle ref a).answering .none
  | dropProbe name => exact (w.passed_dropProbeName name).answering .none
  | newBridge name b => exact tied (w.ties_addBridge name b)
  | dropBridge name => exact tied (w.ties_dropBridge name)
  | subscribe name b handler => exact tied (w.ties_subscribe name b handler)
  | unsubscribe name b handler => exact tied (w.ties_unsubscribe name b handler)
  | shutdown name b => exact tied (ties_closeBridge _ b)
  | _ => exact .of_same rfl rfl

end World

theorem Job.passed_expand (w : World) {j : Job} (h : ∀ choose, j = .act choose → ¬ (choose w).EditsHandlers) :
    w.Passed (j.expand w).1 := by
  cases j with
  | act choose => exact w.passed_perform (h choose rfl)
  | slot cb a => exact .of_ties (w.ties_runSlot cb a)
  | nativeDelete space a => exact .of_ties (w.ties_nativeDelete space a)
  | invalidate ref => exact w.passed_invalidate ref
  | settle space a id wrapper => exact w.passed_settle space a id wrapper
  | signal cb object info => exact .of_ties (w.ties_signal cb object info)
  | destroyQueued a =>
    refine .of_ties ((World.ties_destroy _ a).trans ?_)
    split
    · exact w.ties_countFlushed
    · rfl
  | endFlush => exact .of_ties w.ties_endFlush
  | releaseHandle ref => exact w.passed_releaseHandle ref
  | unpin p => exact w.passed_unpin p
  | enter | leave | answer => exact .of_same rfl rfl

/-- A step in which no operation edits handlers. -/
theorem Turn.passed {k : Conduct} {s s' : State} (h : Turn k s s') (quiet : ∀ op, s.op? = some op → ¬ op.EditsHandlers) :
    s.world.Passed s'.world := by
  obtain ⟨p, w, ⟨level, job⟩, ts, ok⟩ := h
  show w.Passed (p.expand ⟨level, job⟩ w).1
  by_cases he : ∃ c, job = .enter c
  · obtain ⟨c, rfl⟩ := he
    cases level <;> exact .of_same rfl rfl
  · rw [p.expand_eq _ w fun c h => he ⟨c, h⟩]
    refine Job.passed_expand w fun choose hj => quiet _ ?_
    obtain rfl : job = .act choose := hj
    rfl

/-! ## Runs -/

namespace World

variable {w w' : World} {lists : Ref → List String}

/-- The handlers of the wrappers are those given; no wrapper to come is given any. -/
structure HandlersAre (w : World) (lists : Ref → List String) : Prop where
  there : ∀ ref x, w.wrappers.get? ref = some x → x.deleted = lists ref
  fresh : ∀ ref : Ref, w.nextRef ≤ ref.serial → lists ref = []

theorem Passed.handlers (h : w.Passed w') (now : w.HandlersAre lists) : w'.HandlersAre lists := by
  refine ⟨fun ref y hy => ?_, fun ref new => now.fresh ref (Nat.le_trans h.nextRef new)⟩
  rcases h.wrappers ref y hy with ⟨x, hx, same⟩ | ⟨new, none⟩
  · rw [← same, now.there ref x hx]
  · rw [none, now.fresh ref new]

/-- An edit of the handlers of an item, which is there. -/
theorem HandlersAre.edited (now : w.HandlersAre lists) (ho : w.Ordered) {op : Op} {a : Ref} (item : w.HasItem a)
    (f : Wrapper → Wrapper) (x : Answer) (mine : ∀ x, (f x).deleted = op.onHandlers a x.deleted)
    (others : ∀ ref lists, a ≠ ref → op.onHandlers ref lists = lists) :
    ((w.modifyWrapper a f).answering x).HandlersAre fun ref => op.onHandlers ref (lists ref) := by
  refine ⟨fun ref y hy => ?_, fun ref new => ?_⟩
  · simp only [answering, modifyWrapper, Table.get?_modify] at hy
    split at hy
    · rename_i ha
      obtain ⟨x, hx, rfl⟩ := Option.map_eq_some_iff.mp hy
      rw [mine, now.there ref x hx, ha]
    · rename_i ha
      rw [others ref _ (Ne.symm ha), now.there ref y hy]
  · have hne : a ≠ ref := by
      intro e
      obtain ⟨x, hx, -⟩ := item
      have below := ho.refBelow a x hx
      have above : w.nextRef ≤ ref.serial := new
      rw [e] at below
      omega
    rw [others ref _ hne]
    exact now.fresh ref new

end World

namespace Course

variable {k : Conduct} (c : Course k) {n : Nat}

/-- What the first `n` steps have made of the handlers of `ref`. -/
def handlers (ref : Ref) : Nat → List String
  | 0 => []
  | n + 1 => match (c.state n).op? with
    | some op => op.onHandlers ref (handlers ref n)
    | none => handlers ref n

theorem handlers_op {op : Op} (ho : (c.state n).op? = some op) (ref : Ref) :
    c.handlers ref (n + 1) = op.onHandlers ref (c.handlers ref n) := by
  rw [handlers, ho]

theorem handlers_kept (quiet : ∀ op, (c.state n).op? = some op → ¬ op.EditsHandlers) (ref : Ref) :
    c.handlers ref (n + 1) = c.handlers ref n := by
  rcases ho : (c.state n).op? with _ | op
  · rw [handlers, ho]
  · rw [c.handlers_op ho]
    exact op.onHandlers_other (quiet op ho) ref _

theorem step_passed (hn : n < c.length) (quiet : ∀ op, (c.state n).op? = some op → ¬ op.EditsHandlers) :
    (c.state n).world.Passed (c.state (n + 1)).world := by
  rcases c.turn_or_call hn with turn | ⟨-, same⟩
  · exact turn.passed quiet
  · rw [same]
    exact .refl _

theorem handlers_recorded (hn : n ≤ c.length) : (c.state n).world.HandlersAre (c.handlers · n) := by
  induction n with
  | zero =>
    obtain ⟨mode, h⟩ := c.start
    rw [h]
    exact ⟨by simp [World.start], fun _ _ => rfl⟩
  | succ n ih =>
    have now := ih (Nat.le_of_lt hn)
    by_cases quiet : ∀ op, (c.state n).op? = some op → ¬ op.EditsHandlers
    · have same : (c.handlers · (n + 1)) = (c.handlers · n) := funext fun ref => c.handlers_kept quiet ref
      rw [same]
      exact (c.step_passed hn quiet).handlers now
    · simp only [not_forall, not_not] at quiet
      obtain ⟨op, ho, edits⟩ := quiet
      have made : (c.handlers · (n + 1)) = fun ref => op.onHandlers ref (c.handlers ref n) :=
        funext fun ref => c.handlers_op ho ref
      have ordered := (c.reach (Nat.le_of_lt hn)).ordered
      obtain ⟨⟨typed, -⟩, performed⟩ := c.performed hn ho
      rw [made, performed]
      cases op with
      | onDeleted a f =>
        exact now.edited ordered typed (fun x => { x with deleted := x.deleted ++ [f] }) _ (fun x => (if_pos rfl).symm)
          fun ref lists hne => if_neg hne
      | removeDeleted a f =>
        exact now.edited ordered typed (fun x => { x with deleted := x.deleted.filter (· ≠ f) }) _
          (fun x => (if_pos rfl).symm) fun ref lists hne => if_neg hne
      | _ => exact edits.elim

theorem handlers_eq (hn : n ≤ c.length) {ref : Ref} {x : Wrapper} (hx : (c.state n).world.wrappers.get? ref = some x) :
    x.deleted = c.handlers ref n :=
  (c.handlers_recorded hn).there ref x hx

end Course

end HandleBridge
