/-
  HandleBridge.Proofs.Deeds — what is done to signals, bridges and contents.

  Registrations, bridges, the contents of parts and the wrappers' part caches are changed
  by few operations, and some of these change several at once. A `Deed` is one such change. What a
  task is about to do is read off the world in which its turn comes (`Job.deeds`), before
  anything runs.

  `Tells` says that a list of deeds is the whole story between two worlds: each view of
  the list (`Deed.onRegistrations`, `Deed.onBridge`, `Deed.onSerial`, `Deed.onContent`,
  `Deed.onCache`), started from what the first world holds, gives what the second holds.
  Here are the changes of a world that do no deed; `Chronicle` has those that do some.
-/
import HandleBridge.Proofs.Notification

namespace HandleBridge

/-! ## Deeds -/

inductive Deed where
  | added (r : Registration)
  | removed (r : Registration)
  /-- An item is destroyed. -/
  | felled (item : Handle)
  /-- A plain object is destroyed. -/
  | scrapped (object : Handle)
  /-- A name stands for a bridge now, or for none. -/
  | bridged (name : String) (bridge : Option Bridge)
  | filled (item : Handle) (part : Part) (content : Handle)
  | emptied (item : Handle) (part : Part)
  /-- A wrapper notes the content of a part. -/
  | cached (wrapper : Ref) (part : Part) (content : Handle)
  /-- A wrapper's part cache is cleared. -/
  | cleared (wrapper : Ref)
  deriving DecidableEq, Repr

namespace Deed

/-- Whether the deed destroys `h`. -/
def Destroys (h : Handle) : Deed → Prop
  | felled a | scrapped a => a = h
  | _ => False

def onRegistrations (rs : List Registration) : Deed → List Registration
  | added r => rs ++ [r]
  | removed r => rs.erase r
  | felled h | scrapped h => rs.filter (·.object ≠ h)
  | _ => rs

/-- What stands under a name. -/
def onBridge (name : String) (b : Option Bridge) : Deed → Option Bridge
  | bridged n b' => if n = name then b' else b
  | _ => b

/-- The serial number of the next trampoline. -/
def onSerial (n : Nat) : Deed → Nat
  | added ⟨_, _, .trampoline t⟩ => t.serial + 1
  | _ => n

/-- What the toolkit holds under a key in the item `h`. -/
def onContent (h : Handle) (key : String) (c : Option Handle) : Deed → Option Handle
  | filled item part content => if item = h ∧ partKey part = key then some content else c
  | emptied item part => if item = h ∧ partKey part = key then none else c
  | felled item => if item = h then none else c
  | _ => c

/-- What the wrapper `ref` has noted under a key. -/
def onCache (ref : Ref) (key : String) (c : Option Handle) : Deed → Option Handle
  | cached a part content => if a = ref ∧ Wrapper.cacheKey part = key then some content else c
  | cleared a => if a = ref then none else c
  | _ => c

end Deed

/-! ## What is about to be done -/

namespace Toolkit

/-- What an item holds under a key. -/
def contentAt (t : Toolkit) (h : Handle) (key : String) : Option Handle :=
  (t.items.get? h).bind (·.contents.get? key)

/-- The destruction of the item `h`, if it is there. -/
def fells (t : Toolkit) (h : Handle) : List Deed := if t.items.contains h then [.felled h] else []

/-- The destruction that asking for it comes to: it is carried out at once or queued. -/
def fellsNow (t : Toolkit) (h : Handle) : List Deed :=
  match t.mode with
  | .synchronous => t.fells h
  | .deferred => []

theorem mem_fells {t : Toolkit} {h : Handle} {d : Deed} (hd : d ∈ t.fells h) : d = .felled h := by
  unfold fells at hd
  split at hd
  · exact List.mem_singleton.mp hd
  · cases hd

theorem mem_fellsNow {t : Toolkit} {h : Handle} {d : Deed} (hd : d ∈ t.fellsNow h) : d = .felled h := by
  unfold fellsNow at hd
  split at hd
  · exact mem_fells hd
  · cases hd

end Toolkit

/-- What a call does, apart from the destruction that it may ask for. -/
def NativeCall.deeds (t : Toolkit) : NativeCall → List Deed
  | .objectDel object => if object ∈ t.objects then [.scrapped object] else []
  | .callbackAdd object event cb => [.added ⟨object, event, cb⟩]
  | .callbackDel object event cb => [.removed ⟨object, event, cb⟩]
  | .partContentSet h part content => if t.items.contains h then [.filled h part content] else []
  | .partContentUnset h part => [.emptied h part]
  | _ => []

theorem NativeCall.mem_scraps {t : Toolkit} {object : Handle} {d : Deed}
    (hd : d ∈ (NativeCall.objectDel object).deeds t) : d = .scrapped object := by
  simp only [deeds] at hd
  split at hd
  · exact List.mem_singleton.mp hd
  · cases hd

namespace Bridge

/-- A trampoline of the bridge as it is registered with the toolkit. -/
def registration (b : Bridge) (t : Trampoline) : Registration := ⟨b.handle, b.event, .trampoline t⟩

/-- Taking trampolines of the bridge back from the toolkit. -/
def withdrawing (b : Bridge) (ts : List Trampoline) : List Deed := ts.map fun t => .removed (b.registration t)

/-- Closing the bridge, if it is not closed already. -/
def closing (b : Bridge) : List Deed := if b.isShutDown then [] else b.withdrawing b.listeners

end Bridge

namespace World

/-- Putting content into a part of the wrapper's item: what was there is destroyed unless it is
    kept, and the wrapper notes the new content whether or not there is an item. -/
def puts (w : World) (ref : Ref) (part : Part) (content : Handle) (preserve : Bool) : List Deed :=
  let h := w.handleOf ref
  let old := w.toolkit.partContent h part
  if h.isNull then []
  else
    (if old.isNull || preserve then [] else (NativeCall.objectDel old).deeds w.toolkit) ++
      (NativeCall.partContentSet h part content).deeds w.toolkit ++ [.cached ref part content]

/-- Closing the bridge of a name, if there is one. -/
def closingOf (w : World) (name : String) : List Deed := ((w.bridges.get? name).map (·.closing)).getD []

/-- Clearing the part cache of an item. -/
def clears (w : World) (ref : Ref) : List Deed :=
  match w.wrappers.get? ref with
  | some x => if x.space = .items then [.cleared ref] else []
  | none => []

theorem mem_clears {w : World} {ref : Ref} {d : Deed} (hd : d ∈ w.clears ref) : d = .cleared ref := by
  unfold clears at hd
  split at hd
  · split at hd
    · exact List.mem_singleton.mp hd
    · cases hd
  · cases hd

end World

def Op.deeds (w : World) : Op → List Deed
  | .destroy h => w.toolkit.fells h
  | .native (.itemDel h) => w.toolkit.fellsNow h
  | .native c => c.deeds w.toolkit
  | .delete ref => if (w.handleOf ref).isNull then [] else w.toolkit.fellsNow (w.handleOf ref)
  | .setContent ref part content preserve => w.puts ref part content preserve
  | .newBridge name b => .bridged name (some b) :: w.closingOf name
  | .dropBridge name => .bridged name none :: w.closingOf name
  | .subscribe name b handler =>
    match b.refusal? with
    | some _ => []
    | none =>
      let t := b.trampoline w.nextTrampoline handler
      [.bridged name (some (b.addListener t)), .added (b.registration t)]
  | .unsubscribe name b handler =>
    .bridged name (some (b.removeListeners handler)) :: b.withdrawing (b.listenersOf handler)
  | .shutdown name b => .bridged name (some b.closed) :: b.closing
  | .detach name b => [.bridged name (some b.closed)]
  | _ => []

def Job.deeds (w : World) : Job → List Deed
  | .act choose => (choose w).deeds w
  | .destroyQueued h => w.toolkit.fells h
  | .invalidate ref => w.clears ref
  | _ => []

namespace State

/-- The operation that is about to be performed, if one is. -/
def op? (c : State) : Option Op :=
  match c.tasks with
  | ⟨_, .act choose⟩ :: _ => some (choose c.world)
  | _ => none

/-- What is about to be done. -/
def deeds (c : State) : List Deed :=
  match c.tasks with
  | t :: _ => t.job.deeds c.world
  | [] => []

theorem deeds_of_op {c : State} {op : Op} (h : c.op? = some op) : c.deeds = op.deeds c.world := by
  obtain ⟨w, ts⟩ := c
  rcases ts with _ | ⟨⟨level, job⟩, ts⟩
  · cases h
  · cases job with
    | act choose =>
      cases h
      rfl
    | _ => cases h

/-- What is done where no operation is performed. -/
theorem deeds_of_quiet {c : State} (h : c.op? = none) {d : Deed} (hd : d ∈ c.deeds) :
    (∃ a, d = .felled a) ∨ ∃ ref, d = .cleared ref := by
  obtain ⟨w, ts⟩ := c
  rcases ts with _ | ⟨⟨level, job⟩, ts⟩
  · cases hd
  · cases job with
    | act choose => cases h
    | destroyQueued a => exact Or.inl ⟨a, Toolkit.mem_fells hd⟩
    | invalidate ref => exact Or.inr ⟨ref, World.mem_clears hd⟩
    | _ => cases hd

end State

/-! ## The story between two worlds -/

namespace World

/-- Between the two worlds the deeds were done, and nothing else to registrations, bridges,
    contents and caches. A wrapper that is there afterwards has the cache that it had, or is new and
    had none, with the deeds done to it. -/
structure Tells (w : World) (ds : List Deed) (w' : World) : Prop where
  registrations : w'.toolkit.registrations = ds.foldl Deed.onRegistrations w.toolkit.registrations
  bridges : ∀ name, w'.bridges.get? name = ds.foldl (Deed.onBridge name) (w.bridges.get? name)
  serial : w'.nextTrampoline = ds.foldl Deed.onSerial w.nextTrampoline
  contents : ∀ h key, w'.toolkit.contentAt h key = ds.foldl (Deed.onContent h key) (w.toolkit.contentAt h key)
  caches : ∀ ref x', w'.wrappers.get? ref = some x' →
    (∃ x, w.wrappers.get? ref = some x ∧
      ∀ key, x'.contents.get? key = ds.foldl (Deed.onCache ref key) (x.contents.get? key)) ∨
    (w.nextRef ≤ ref.serial ∧ ∀ key, x'.contents.get? key = ds.foldl (Deed.onCache ref key) none)
  known : ∀ ref part content, .cached ref part content ∈ ds → ref.serial < w'.nextRef
  grows : w.nextRef ≤ w'.nextRef

/-- What deeds change. -/
def told (w : World) : List Registration × Table Handle NativeItem × Table String Bridge × Nat × Table Ref Wrapper × Nat :=
  (w.toolkit.registrations, w.toolkit.items, w.bridges, w.nextTrampoline, w.wrappers, w.nextRef)

/-- What no deed of the list changes is as it was. -/
theorem foldl_still {α : Type} {f : α → Deed → α} {a : α} {ds : List Deed} (h : ∀ d ∈ ds, f a d = a) :
    ds.foldl f a = a := by
  induction ds with
  | nil => rfl
  | cons d ds ih =>
    rw [List.foldl_cons, h d (List.mem_cons_self ..)]
    exact ih fun d' hm => h d' (List.mem_cons_of_mem _ hm)

/-- A wrapper that notes nothing has nothing noted. -/
theorem foldl_onCache {ref : Ref} {key : String} {ds : List Deed} (h : ∀ part content, .cached ref part content ∉ ds) :
    ds.foldl (Deed.onCache ref key) none = none := by
  refine foldl_still fun d hm => ?_
  cases d with
  | cached a part content =>
    have hne : a ≠ ref := fun e => h part content (e ▸ hm)
    simp [Deed.onCache, hne]
  | cleared a => simp [Deed.onCache]
  | _ => rfl

namespace Tells

variable {w w' w'' : World} {ds ds' : List Deed}

theorem of_same (h : w'.told = w.told) : w.Tells [] w' := by
  simp only [told, Prod.mk.injEq] at h
  obtain ⟨hr, hi, hb, ht, hw, hn⟩ := h
  refine ⟨hr, fun name => by rw [hb]; rfl, ht, ?_, ?_, nofun, Nat.le_of_eq hn.symm⟩
  · intro a key
    rw [Toolkit.contentAt, hi]
    rfl
  · intro ref x' hx
    exact Or.inl ⟨x', hw ▸ hx, fun _ => rfl⟩

theorem refl (w : World) : w.Tells [] w := of_same rfl

theorem trans (h : w.Tells ds w') (h' : w'.Tells ds' w'') : w.Tells (ds ++ ds') w'' := by
  refine ⟨?_, ?_, ?_, ?_, ?_, ?_, ?_⟩
  · rw [h'.registrations, h.registrations, List.foldl_append]
  · intro name
    rw [h'.bridges, h.bridges, List.foldl_append]
  · rw [h'.serial, h.serial, List.foldl_append]
  · intro a key
    rw [h'.contents, h.contents, List.foldl_append]
  · intro ref x'' hx
    rcases h'.caches ref x'' hx with ⟨x', hx', hc'⟩ | ⟨hn, hc'⟩
    · rcases h.caches ref x' hx' with ⟨x, hx, hc⟩ | ⟨hn, hc⟩
      · exact Or.inl ⟨x, hx, fun key => by rw [hc', hc, List.foldl_append]⟩
      · exact Or.inr ⟨hn, fun key => by rw [hc', hc, List.foldl_append]⟩
    · -- nothing was noted by the wrapper before it was made
      have before (part : Part) (content : Handle) : .cached ref part content ∉ ds := fun hm => by
        have := h.known ref part content hm
        omega
      exact Or.inr ⟨Nat.le_trans h.grows hn, fun key => by rw [hc', List.foldl_append, foldl_onCache before]⟩
  · intro ref part content hm
    rcases List.mem_append.mp hm with hm | hm
    · exact Nat.lt_of_lt_of_le (h.known ref part content hm) h'.grows
    · exact h'.known ref part content hm
  · exact Nat.le_trans h.grows h'.grows

/-- Nothing more happens. -/
theorem quiet (h : w.Tells ds w') (h' : w'.Tells [] w'') : w.Tells ds w'' := by
  have := h.trans h'
  rwa [List.append_nil] at this

theorem answering (h : w.Tells ds w') (a : Answer) : w.Tells ds (w'.answering a) := h.quiet (.of_same rfl)

theorem log (h : w.Tells ds w') (r : Record) : w.Tells ds (w'.log r) := h.quiet (.of_same rfl)

end Tells

/-! ## Changes that do no deed -/

theorem tells_setRegistry (w : World) (space : Space) (r : Registry) : w.Tells [] (w.setRegistry space r) := by
  cases space <;> exact .of_same rfl

theorem tells_modifyWrapper (w : World) (ref : Ref) (f : Wrapper → Wrapper) (hf : ∀ x, (f x).contents = x.contents) :
    w.Tells [] (w.modifyWrapper ref f) := by
  refine ⟨rfl, fun _ => rfl, rfl, fun _ _ => rfl, fun a x' hx => Or.inl ?_, nofun, Nat.le_refl _⟩
  simp only [modifyWrapper, Table.get?_modify] at hx
  split at hx
  · obtain ⟨x, before, rfl⟩ := Option.map_eq_some_iff.mp hx
    exact ⟨x, before, fun key => by rw [hf]; rfl⟩
  · exact ⟨x', hx, fun _ => rfl⟩

theorem tells_setHandle (w : World) (ref : Ref) (h : Handle) : w.Tells [] (w.setHandle ref h) :=
  w.tells_modifyWrapper ref _ fun _ => rfl

theorem tells_addWrapper (w : World) (id : ItemId) (kind : WrapperKind) :
    w.Tells [] (w.addWrapper (.fresh id kind)) := by
  refine ⟨rfl, fun _ => rfl, rfl, fun _ _ => rfl, fun a x' hx => ?_, nofun, Nat.le_succ _⟩
  simp only [addWrapper, Table.get?_insert] at hx
  split at hx
  · rename_i ha
    cases hx
    exact Or.inr ⟨Nat.le_of_eq (congrArg Ref.serial ha).symm, fun _ => rfl⟩
  · exact Or.inl ⟨x', hx, fun _ => rfl⟩

theorem tells_forget (w : World) (space : Space) (id : ItemId) : w.Tells [] (w.forget space id) := by
  unfold forget
  split
  · exact (w.tells_setRegistry space _).quiet (.of_same rfl)
  · exact .refl w

theorem tells_erase (w : World) (ref : Ref) : w.Tells [] { w with wrappers := w.wrappers.erase ref } := by
  refine ⟨rfl, fun _ => rfl, rfl, fun _ _ => rfl, fun a x' hx => Or.inl ⟨x', ?_, fun _ => rfl⟩, nofun, Nat.le_refl _⟩
  simp only [Table.get?_erase] at hx
  split at hx
  · cases hx
  · exact hx

theorem tells_release (w : World) (ref : Ref) : w.Tells [] (w.release ref) := by
  cases hh : w.isHeld ref
  · rcases hx : w.wrappers.get? ref with _ | x
    · rw [release_of_gone hx]; exact .refl w
    · cases hs : x.space
      · rw [release_item hx hh hs]
        exact (w.tells_erase ref).quiet (tells_forget _ _ _)
      · rw [release_probe hx hh hs]
        exact w.tells_erase ref
  · rw [release_of_held hh]; exact .refl w

theorem tells_unpin (w : World) (p : Pin) : w.Tells [] (w.unpin p) := by
  have dropped : w.Tells [] { w with pins := w.pins.erase p } := .of_same rfl
  cases p with
  | wrapper ref => exact dropped.quiet (tells_release _ ref)
  | _ => exact dropped

theorem tells_nameItem (w : World) (name : String) (ref : Ref) : w.Tells [] (w.nameItem name ref) := by
  have named : w.Tells [] { w with itemNames := w.itemNames.insert name ref } := .of_same rfl
  simp only [nameItem]
  split
  · exact named.quiet (tells_release _ _)
  · exact named

theorem tells_nameProbe (w : World) (name : String) (ref : Ref) : w.Tells [] (w.nameProbe name ref) := by
  have named : w.Tells [] { w with probeNames := w.probeNames.insert name ref } := .of_same rfl
  simp only [nameProbe]
  split
  · exact named.quiet (tells_release _ _)
  · exact named

theorem tells_dropItemName (w : World) (name : String) : w.Tells [] (w.dropItemName name) := by
  have dropped : w.Tells [] { w with itemNames := w.itemNames.erase name } := .of_same rfl
  unfold dropItemName
  split
  · exact dropped.quiet (tells_release _ _)
  · exact .refl w

theorem tells_dropProbeName (w : World) (name : String) : w.Tells [] (w.dropProbeName name) := by
  have dropped : w.Tells [] { w with probeNames := w.probeNames.erase name } := .of_same rfl
  unfold dropProbeName
  split
  · exact dropped.quiet (tells_release _ _)
  · exact .refl w

theorem tells_ofResult {w : World} {ds : List Deed} {r : World × Option BindError} (h : w.Tells ds r.1) :
    w.Tells ds (ofResult r) := by
  rcases r with ⟨w', _ | e⟩
  · exact h.answering .none
  · exact h.quiet (.of_same rfl)

theorem tells_withHandle (w : World) (ref : Ref) (f : Handle → World) (h : ∀ a, w.Tells [] (f a)) :
    w.Tells [] (w.withHandle ref f) := by
  unfold withHandle
  split
  · exact h _
  · exact .of_same rfl

theorem tells_withFreshId (w : World) (space : Space) (f : World → ItemId → World)
    (h : ∀ (v : World) id, v.Tells [] (f v id)) : w.Tells [] (w.withFreshId space f) := by
  unfold withFreshId
  split
  · exact (w.tells_setRegistry space _).quiet (h _ _)
  · exact .of_same rfl

theorem tells_newItem (w : World) (name : String) : w.Tells [] (w.newItem name) :=
  w.tells_withFreshId .items _ fun v id =>
    ((v.tells_addWrapper id .plain).quiet (tells_nameItem _ name _)).answering _

theorem tells_newProbe (w : World) (name : String) (bare : Bool) (id : Option ItemId) :
    w.Tells [] (w.newProbe name bare id) := by
  have added (v : World) (id : ItemId) :
      v.Tells [] (((v.addWrapper (.fresh id (.probe name bare))).nameProbe name v.freshRef).answering (.id id)) :=
    ((v.tells_addWrapper id (.probe name bare)).quiet (tells_nameProbe _ name _)).answering _
  unfold newProbe
  cases id with
  | some id => exact added w id
  | none => exact w.tells_withFreshId .bare _ added

theorem tells_countFlushed (w : World) : w.Tells [] w.countFlushed := by
  unfold countFlushed
  split <;> exact .of_same rfl

theorem tells_endFlush (w : World) : w.Tells [] w.endFlush := by
  unfold endFlush
  split <;> exact .of_same rfl

theorem tells_releaseHandle (w : World) (ref : Ref) : w.Tells [] (w.releaseHandle ref) := by
  have told (e : Event) : w.Tells [] (w.emit e) := .of_same rfl
  simp only [releaseHandle]
  split
  · exact (told _).quiet (tells_setHandle _ ref .null)
  · exact w.tells_setHandle ref .null

theorem tells_settle (w : World) (space : Space) (h : Handle) (id : ItemId) (wrapper : Option Ref) :
    w.Tells [] (w.settle space h id wrapper) := by
  have tables := w.tells_setRegistry space ((w.registry space).endDying h id)
  simp only [settle]
  cases wrapper with
  | none =>
    simp only
    split
    · exact tables.quiet (.of_same rfl)
    · exact tables
  | some ref =>
    simp only
    refine Tells.quiet ?_ (tells_unpin _ _)
    split
    · exact tables.quiet (.of_same rfl)
    · split
      · exact tables.quiet (tells_releaseHandle _ _)
      · exact tables

theorem tells_nativeDelete (w : World) (space : Space) (h : Handle) : w.Tells [] (w.nativeDelete space h).1 := by
  rcases w.nativeDelete_cases space h with hi | ⟨id, hd, hb⟩
  · rw [nativeDelete_ignored hi]
    exact .of_same rfl
  · have marked := w.tells_setRegistry space ((w.registry space).startDying h)
    simp only [nativeDelete, hd, if_false, hb]
    split
    · exact marked.quiet (.of_same rfl)
    · exact marked.quiet (.of_same rfl)

theorem tells_runSlot (w : World) (cb : DeleteCallback) (h : Handle) : w.Tells [] (w.runSlot cb h).1 := by
  unfold runSlot
  split
  · exact .refl w
  · split <;> exact .of_same rfl

theorem tells_signal (w : World) (cb : SignalCallback) (object : Handle) (info : EventInfo) :
    w.Tells [] (w.signal cb object info).1 := by
  unfold signal
  split
  · exact .refl w
  · split
    · split
      · exact .of_same rfl
      · exact .of_same rfl
      · simp only
        split <;> exact .of_same rfl
    · exact .of_same rfl

end World

end HandleBridge
