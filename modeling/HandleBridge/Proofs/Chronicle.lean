/-
  HandleBridge.Proofs.Chronicle — the deeds of a run, and that they tell everything.

  Registrations, bridges, contents of parts and part caches change by deeds (`Deeds`). A
  call across the boundary does some, and so does an operation: one that replaces a content
  may destroy the old one, one that closes a bridge takes its trampolines back one by one.
  - `tells_perform`, `Job.tells_expand`, `Turn.tells`: an operation, a job and a step do the
    deeds that were read off the world before, and nothing else.
  - `Course.chronicle`, `Course.tells`: the deeds of a run, in order, tell every state of it from
    a world where nothing is.
-/
import HandleBridge.Proofs.Deeds

namespace HandleBridge

/-! ## The toolkit's calls -/

namespace Toolkit

theorem dropFirst_eq_erase {α : Type} [DecidableEq α] (a : α) (as : List α) :
    dropFirst (fun b => decide (b = a)) as = as.erase a := by
  induction as with
  | nil => rfl
  | cons b as ih =>
    rw [dropFirst, List.erase_cons, ih]
    by_cases h : b = a <;> simp [h]

theorem contentAt_modifyItem (t : Toolkit) (h a : Handle) (f : NativeItem → NativeItem) (key : String) :
    (t.modifyItem h f).contentAt a key =
      if a = h then (t.items.get? a).bind fun i => (f i).contents.get? key else t.contentAt a key := by
  simp only [contentAt, modifyItem, Table.get?_modify]
  split
  · rw [Option.bind_map]
    rfl
  · rfl

/-- A change of an item that leaves its contents alone. -/
theorem contentAt_modifyOther (t : Toolkit) (h a : Handle) (f : NativeItem → NativeItem)
    (hf : ∀ i, (f i).contents = i.contents) (key : String) : (t.modifyItem h f).contentAt a key = t.contentAt a key := by
  rw [contentAt_modifyItem]
  simp only [hf]
  split <;> rfl

theorem registrations_apply (t : Toolkit) (c : NativeCall) :
    (t.apply c).registrations = (c.deeds t).foldl Deed.onRegistrations t.registrations := by
  cases c with
  | objectDel object =>
    simp only [apply, effect, NativeCall.deeds]
    split <;> rfl
  | callbackAdd object event cb => rfl
  | callbackDel object event cb => exact dropFirst_eq_erase _ _
  | partContentSet h part content =>
    simp only [apply, effect, NativeCall.deeds]
    split <;> rfl
  | itemDel h =>
    simp only [apply, effect, NativeCall.deeds]
    split
    · rfl
    · split <;> rfl
  | _ => rfl

theorem contentAt_apply (t : Toolkit) (c : NativeCall) (a : Handle) (key : String) :
    (t.apply c).contentAt a key = (c.deeds t).foldl (Deed.onContent a key) (t.contentAt a key) := by
  cases c with
  | partContentSet h part content =>
    refine (t.contentAt_modifyItem h a _ key).trans ?_
    rcases hi : t.items.get? h with _ | i
    · have none : t.items.contains h = false := by simp [Table.contains, hi]
      simp only [NativeCall.deeds, none, Bool.false_eq_true, if_false, List.foldl_nil]
      split
      · rename_i ha
        simp [contentAt, ha, hi]
      · rfl
    · have there : t.items.contains h = true := by simp [Table.contains, hi]
      simp only [NativeCall.deeds, there, if_true, List.foldl_cons, List.foldl_nil, Deed.onContent]
      by_cases ha : a = h
      · simp [contentAt, ha, hi, eq_comm]
      · simp [ha, Ne.symm ha]
  | partContentUnset h part =>
    refine (t.contentAt_modifyItem h a _ key).trans ?_
    simp only [NativeCall.deeds, List.foldl_cons, List.foldl_nil, Deed.onContent]
    by_cases ha : a = h
    · subst ha
      rcases hi : t.items.get? a with _ | i
      · simp [contentAt, hi]
      · simp [contentAt, hi, eq_comm]
    · simp [ha, Ne.symm ha]
  | itemDelCbSet h cb => exact t.contentAt_modifyOther h a ({ · with deleteSlot := cb }) (fun _ => rfl) key
  | disabledSet h v => exact t.contentAt_modifyOther h a ({ · with disabled := v }) (fun _ => rfl) key
  | partTextSet h part text =>
    exact t.contentAt_modifyOther h a (fun i => { i with texts := i.texts.insert (partKey part) text }) (fun _ => rfl) key
  | selectedSet h v => exact t.contentAt_modifyOther h a ({ · with selected := v }) (fun _ => rfl) key
  | update h => exact t.contentAt_modifyOther h a (fun i => { i with updates := i.updates + 1 }) (fun _ => rfl) key
  | objectDel object =>
    simp only [apply, effect, NativeCall.deeds]
    split <;> rfl
  | itemDel h =>
    simp only [apply, effect, NativeCall.deeds]
    split
    · rfl
    · split <;> rfl
  | _ => rfl

/-- A destruction is carried out where there is an item. -/
theorem registrations_destroy {t t' : Toolkit} {h : Handle} {slot : Option DeleteCallback} (hd : t.destroy? h = some (t', slot)) :
    t'.registrations = (t.fells h).foldl Deed.onRegistrations t.registrations ∧
      ∀ a key, t'.contentAt a key = (t.fells h).foldl (Deed.onContent a key) (t.contentAt a key) := by
  unfold destroy? at hd
  split at hd
  · cases hd
  · rename_i item hi
    cases hd
    have hf : t.fells h = [.felled h] := by simp [fells, Table.contains, hi]
    rw [hf]
    refine ⟨rfl, fun a key => ?_⟩
    simp only [contentAt, Table.get?_erase, List.foldl_cons, List.foldl_nil, Deed.onContent]
    by_cases ha : a = h
    · simp [ha]
    · simp [ha, Ne.symm ha]

theorem contains_modify {κ ν : Type} [DecidableEq κ] (t : Table κ ν) (k a : κ) (f : ν → ν) :
    (t.modify k f).contains a = t.contains a := by
  simp only [Table.contains, Table.get?_modify]
  split
  · exact Option.isSome_map
  · rfl

end Toolkit

namespace World

/-- A deed of the toolkit alone: no bridge, no wrapper and no trampoline has a part in it. -/
def OfToolkit : Deed → Prop
  | .bridged .. | .cached .. | .cleared _ | .added ⟨_, _, .trampoline _⟩ => False
  | _ => True

theorem tells_toolkit {w : World} {t : Toolkit} {ds : List Deed}
    (hr : t.registrations = ds.foldl Deed.onRegistrations w.toolkit.registrations)
    (hc : ∀ a key, t.contentAt a key = ds.foldl (Deed.onContent a key) (w.toolkit.contentAt a key))
    (hd : ∀ d ∈ ds, OfToolkit d) : w.Tells ds { w with toolkit := t } := by
  have still {α : Type} {f : α → Deed → α} {a : α} (hf : ∀ d, OfToolkit d → f a d = a) : ds.foldl f a = a :=
    foldl_still fun d hm => hf d (hd d hm)
  refine ⟨hr, fun name => (still fun d ho => ?_).symm, (still fun d ho => ?_).symm, hc,
    fun ref x hx => Or.inl ⟨x, hx, fun key => (still fun d ho => ?_).symm⟩, fun ref part content hm => (hd _ hm).elim,
    Nat.le_refl _⟩
  · cases d <;> first | rfl | exact ho.elim
  · cases d with
    | added r =>
      obtain ⟨object, event, cb⟩ := r
      cases cb with
      | trampoline t => exact ho.elim
      | program name => rfl
    | _ => rfl
  · cases d <;> first | rfl | exact ho.elim

theorem tells_callToolkit (w : World) (c : NativeCall) (hc : ∀ object event t, c ≠ .callbackAdd object event (.trampoline t)) :
    w.Tells (c.deeds w.toolkit) (w.callToolkit c) := by
  have done : w.Tells (c.deeds w.toolkit) { w with toolkit := w.toolkit.apply c } := by
    refine tells_toolkit (w.toolkit.registrations_apply c) (w.toolkit.contentAt_apply c) fun d hm => ?_
    cases c with
    | callbackAdd object event cb =>
      cases cb with
      | trampoline t => exact absurd rfl (hc object event t)
      | program name => cases List.mem_singleton.mp hm; trivial
    | objectDel object =>
      simp only [NativeCall.deeds] at hm
      split at hm
      · cases List.mem_singleton.mp hm; trivial
      · cases hm
    | partContentSet h part content =>
      simp only [NativeCall.deeds] at hm
      split at hm
      · cases List.mem_singleton.mp hm; trivial
      · cases hm
    | callbackDel | partContentUnset => cases List.mem_singleton.mp hm; trivial
    | _ => cases hm
  refine done.quiet (.of_same ?_)
  unfold callToolkit
  cases w.toolkit.complaint c <;> rfl

theorem tells_native (w : World) (c : NativeCall) (hc : ∀ object event t, c ≠ .callbackAdd object event (.trampoline t)) :
    w.Tells (c.deeds w.toolkit) (w.native c) := by
  have noted : w.Tells [] (w.emit (.native c)) := .of_same rfl
  exact noted.trans (tells_callToolkit _ c hc)

theorem tells_destroy (w : World) (h : Handle) : w.Tells (w.toolkit.fells h) (w.destroy h).1 := by
  unfold destroy
  rcases hd : w.toolkit.destroy? h with _ | ⟨t, slot⟩
  · have none : w.toolkit.fells h = [] := by
      unfold Toolkit.destroy? at hd
      split at hd
      · rename_i hi
        simp [Toolkit.fells, Table.contains, hi]
      · cases hd
    rw [none]
    exact .of_same rfl
  · obtain ⟨hr, hc⟩ := Toolkit.registrations_destroy hd
    refine (tells_toolkit hr hc fun d hm => ?_).quiet (.of_same rfl)
    simp only [Toolkit.fells] at hm
    split at hm
    · cases List.mem_singleton.mp hm; trivial
    · cases hm

theorem tells_carryOut (w : World) (h : Handle) : w.Tells (w.toolkit.fellsNow h) (w.carryOut h).1 := by
  unfold carryOut Toolkit.fellsNow
  cases w.toolkit.mode
  · exact w.tells_destroy h
  · exact .refl w

/-! ## Binding -/

theorem tells_register (w : World) (ref : Ref) (h : Handle) : w.Tells [] (w.register ref h).1 := by
  have slot (v : World) (null : Bool) (a : Handle) (cb : Option DeleteCallback) :
      v.Tells [] (if null then v else v.native (.itemDelCbSet a cb)) := by
    split
    · exact .refl v
    · exact v.tells_native (.itemDelCbSet a cb) (by simp)
  simp only [register]
  split
  · exact .of_same rfl
  · split
    · exact .of_same rfl
    · -- the callback leaves the old handle, the tables change, it comes to the new one
      exact (((slot w _ _ _).quiet (tells_setRegistry _ _ _)).quiet (slot _ _ _ _)).log _

theorem tells_bind (w : World) (ref : Ref) (h : Handle) : w.Tells [] (w.bind ref h).1 := by
  rcases hr : (w.register ref h).2 with _ | e
  · rw [bind_accepted hr]
    exact (w.tells_register ref h).quiet (tells_setHandle _ ref h)
  · rw [bind_refused hr]
    exact w.tells_register ref h

theorem tells_newGrid (w : World) (h : Handle) (data : RowData) (name : Option String) :
    w.Tells [] (w.newGrid h data name) := by
  refine w.tells_withFreshId .items _ fun v id => ?_
  have made := (v.tells_addWrapper id (.grid (some data))).quiet (tells_bind _ v.freshRef h)
  simp only
  split
  · rename_i v' e hb
    rw [hb] at made
    exact (made.quiet (tells_release _ _)).quiet (.of_same rfl)
  · rename_i v' hb
    rw [hb] at made
    split
    · exact (made.quiet (tells_nameItem _ _ _)).answering _
    · exact (made.quiet (tells_release _ _)).quiet (.of_same rfl)

/-! ## Bridges -/

theorem tells_setBridge (w : World) (name : String) (b : Bridge) :
    w.Tells [.bridged name (some b)] (w.setBridge name b) := by
  refine ⟨rfl, fun n => ?_, rfl, fun _ _ => rfl, fun ref x hx => Or.inl ⟨x, hx, fun _ => rfl⟩, by simp, Nat.le_refl _⟩
  simp only [setBridge, Table.get?_insert, List.foldl_cons, List.foldl_nil, Deed.onBridge, eq_comm]

theorem tells_unregister (b : Bridge) (ts : List Trampoline) (w : World) :
    w.Tells (b.withdrawing ts) (w.unregister b ts) := by
  induction ts generalizing w with
  | nil => exact .refl w
  | cons t ts ih =>
    exact (w.tells_native (.callbackDel b.handle b.event (.trampoline t)) (by simp)).trans (ih _)

theorem tells_closeBridge (w : World) (b : Bridge) : w.Tells b.closing (w.closeBridge b) := by
  unfold closeBridge Bridge.closing
  split
  · exact .refl w
  · exact (tells_unregister b b.listeners w).quiet (.of_same rfl)

/-- The next number is given to a trampoline, which is registered. -/
theorem tells_enlist (w : World) (b : Bridge) (t : Trampoline) (ht : t.serial = w.nextTrampoline) :
    w.Tells [.added (b.registration t)] ({ w with nextTrampoline := w.nextTrampoline + 1 }.native
      (.callbackAdd b.handle b.event (.trampoline t))) :=
  ⟨rfl, fun _ => rfl, congrArg (· + 1) ht.symm, fun _ _ => rfl, fun ref x hx => Or.inl ⟨x, hx, fun _ => rfl⟩, by simp,
    Nat.le_refl _⟩

theorem tells_subscribe (w : World) (name : String) (b : Bridge) (handler : String) :
    w.Tells ((Op.subscribe name b handler).deeds w) (w.subscribe name b handler) := by
  rcases hr : b.refusal? with _ | e
  · simp only [subscribe, Op.deeds, hr]
    have made := w.tells_setBridge name (b.addListener (b.trampoline w.nextTrampoline handler))
    exact ((made.trans (tells_enlist _ b (b.trampoline w.nextTrampoline handler) rfl)).log _).answering _
  · simp only [subscribe, Op.deeds, hr]
    exact .of_same rfl

theorem tells_unsubscribe (w : World) (name : String) (b : Bridge) (handler : String) :
    w.Tells ((Op.unsubscribe name b handler).deeds w) (w.unsubscribe name b handler) :=
  (((w.tells_setBridge name _).trans (tells_unregister b (b.listenersOf handler) _)).log _).answering _

theorem tells_shutdown (w : World) (name : String) (b : Bridge) :
    w.Tells ((Op.shutdown name b).deeds w) (w.shutdown name b) :=
  (w.tells_setBridge name b.closed).trans (tells_closeBridge _ b)

theorem tells_addBridge (w : World) (name : String) (b : Bridge) :
    w.Tells ((Op.newBridge name b).deeds w) (w.addBridge name b) := by
  have made := w.tells_setBridge name b
  simp only [addBridge, Op.deeds, closingOf]
  cases w.bridges.get? name with
  | none => exact made
  | some old => exact made.trans (tells_closeBridge _ old)

theorem tells_dropBridge (w : World) (name : String) :
    w.Tells ((Op.dropBridge name).deeds w) (w.dropBridge name) := by
  have gone : w.Tells [.bridged name none] { w with bridges := w.bridges.erase name } := by
    refine ⟨rfl, fun n => ?_, rfl, fun _ _ => rfl, fun ref x hx => Or.inl ⟨x, hx, fun _ => rfl⟩, by simp, Nat.le_refl _⟩
    simp only [Table.get?_erase, List.foldl_cons, List.foldl_nil, Deed.onBridge, eq_comm]
  simp only [dropBridge, Op.deeds, closingOf]
  cases hb : w.bridges.get? name with
  | none =>
    refine ⟨rfl, fun n => ?_, rfl, fun _ _ => rfl, fun ref x hx => Or.inl ⟨x, hx, fun _ => rfl⟩, by simp, Nat.le_refl _⟩
    simp only [Option.map_none, Option.getD_none, List.foldl_cons, List.foldl_nil, Deed.onBridge]
    by_cases hn : name = n
    · simp [← hn, hb]
    · simp [hn]
  | some old => exact gone.trans (tells_closeBridge _ old)

/-! ## Contents -/

/-- What is emptied first and filled at once need not be told. -/
theorem Tells.overwritten {w w' : World} {h : Handle} {part : Part} {ds : List Deed}
    (ht : w.Tells (.emptied h part :: ds) w')
    (ho : ds.foldl (Deed.onContent h (partKey part)) none =
      ds.foldl (Deed.onContent h (partKey part)) (w.toolkit.contentAt h (partKey part))) : w.Tells ds w' := by
  refine ⟨ht.registrations, ht.bridges, ht.serial, fun a key => ?_, ht.caches,
    fun ref part content hm => ht.known ref part content (List.mem_cons_of_mem _ hm), ht.grows⟩
  rw [ht.contents, List.foldl_cons]
  by_cases hk : h = a ∧ partKey part = key
  · obtain ⟨rfl, rfl⟩ := hk
    simp only [Deed.onContent, and_self, if_true, ho]
  · simp only [Deed.onContent, hk, if_false]

/-- A wrapper that has been made notes a content. -/
theorem tells_cache {w : World} {ref : Ref} (hr : ref.serial < w.nextRef) (part : Part) (content : Handle) :
    w.Tells [.cached ref part content] (w.modifyWrapper ref fun x =>
      { x with contents := x.contents.insert (Wrapper.cacheKey part) content }) := by
  refine ⟨rfl, fun _ => rfl, rfl, fun _ _ => rfl, fun a x' hx => Or.inl ?_, ?_, Nat.le_refl _⟩
  · simp only [modifyWrapper, Table.get?_modify] at hx
    simp only [List.foldl_cons, List.foldl_nil, Deed.onCache]
    split at hx
    · rename_i ha
      obtain ⟨x, before, rfl⟩ := Option.map_eq_some_iff.mp hx
      exact ⟨x, before, fun key => by simp [ha, eq_comm]⟩
    · rename_i ha
      exact ⟨x', hx, fun key => by simp [Ne.symm ha]⟩
  · intro a p c hm
    cases List.mem_singleton.mp hm
    exact hr

theorem toolkit_native (w : World) (c : NativeCall) : (w.native c).toolkit = w.toolkit.apply c :=
  congrArg (·.1) (w.core_native c)

/-- Whether a handle is an item does not change while a part's content is replaced. -/
theorem contains_replace (w : World) (h old a : Handle) (part : Part) (kept : Bool) (r : Record) :
    (if kept then w.native (.partContentUnset h part)
      else ((w.native (.partContentUnset h part)).log r).native (.objectDel old)).toolkit.items.contains a =
      w.toolkit.items.contains a := by
  have unset : (w.native (.partContentUnset h part)).toolkit.items.contains a = w.toolkit.items.contains a := by
    rw [toolkit_native]
    exact Toolkit.contains_modify w.toolkit.items h a _
  cases kept
  · simp only [Bool.false_eq_true, if_false, toolkit_native]
    rw [← unset]
    simp only [Toolkit.apply, Toolkit.effect]
    split <;> rfl
  · exact unset

theorem tells_setContent {w : World} (ho : w.Ordered) (ref : Ref) (part : Part) (content : Handle) (preserve : Bool) :
    w.Tells (w.puts ref part content preserve) (w.setContent ref part content preserve) := by
  simp only [setContent, withHandle, liveHandle, puts]
  cases hn : (w.handleOf ref).isNull
  · simp only [Bool.false_eq_true, if_false]
    have made : ref.serial < w.nextRef := by
      rcases hx : w.wrappers.get? ref with _ | x
      · simp [handleOf, hx, Handle.isNull, Handle.null] at hn
      · exact ho.refBelow ref x hx
    generalize w.handleOf ref = h
    generalize w.toolkit.partContent h part = old
    have emptied := w.tells_native (.partContentUnset h part) (by simp)
    generalize (w.native (.partContentUnset h part)).idOf ref = id
    generalize (old.isNull || preserve) = kept
    have replaced : w.Tells (.emptied h part :: if kept then [] else (NativeCall.objectDel old).deeds w.toolkit)
        (if kept then w.native (.partContentUnset h part)
          else ((w.native (.partContentUnset h part)).log (.contentReplaced id old)).native (.objectDel old)) := by
      cases kept
      · have scrapped := ((w.native (.partContentUnset h part)).log (.contentReplaced id old)).tells_native
          (.objectDel old) (by simp)
        have same : (NativeCall.objectDel old).deeds (w.native (.partContentUnset h part)).toolkit =
            (NativeCall.objectDel old).deeds w.toolkit := by
          rw [toolkit_native]
          rfl
        exact (emptied.log _).trans (same ▸ scrapped)
      · exact emptied
    have filled := replaced.trans (tells_native _ (.partContentSet h part content) (by simp))
    have all := filled.trans (tells_cache (Nat.lt_of_lt_of_le made filled.grows) part content)
    simp only [NativeCall.deeds, contains_replace, List.cons_append] at all ⊢
    refine (Tells.overwritten all ?_).answering _
    -- the destruction of the old content leaves items alone
    have still (c : Option Handle) :
        (if kept then [] else if old ∈ w.toolkit.objects then [Deed.scrapped old] else []).foldl
          (Deed.onContent h (partKey part)) c = c := by
      split
      · rfl
      · split <;> rfl
    rw [List.foldl_append, List.foldl_append, List.foldl_append, List.foldl_append, still, still]
    split
    · simp [Deed.onContent]
    · rename_i hi
      have none : w.toolkit.contentAt h (partKey part) = none := by
        simp only [Table.contains, Bool.not_eq_true, Option.isSome_eq_false_iff, Option.isNone_iff_eq_none] at hi
        simp [Toolkit.contentAt, hi]
      rw [none]
  · exact .of_same rfl

theorem tells_invalidate (w : World) (ref : Ref) : w.Tells (w.clears ref) (w.invalidate ref).1 := by
  unfold clears invalidate
  have cleared (v : World) : v.Tells [.cleared ref] (v.modifyWrapper ref (·.cleared)) := by
    refine ⟨rfl, fun _ => rfl, rfl, fun _ _ => rfl, fun a x' hx => Or.inl ?_, by simp, Nat.le_refl _⟩
    simp only [modifyWrapper, Table.get?_modify] at hx
    simp only [List.foldl_cons, List.foldl_nil, Deed.onCache]
    split at hx
    · rename_i ha
      obtain ⟨x, before, rfl⟩ := Option.map_eq_some_iff.mp hx
      exact ⟨x, before, fun key => by simp [ha, Wrapper.cleared]⟩
    · rename_i ha
      exact ⟨x', hx, fun key => by simp [Ne.symm ha]⟩
  rcases w.wrappers.get? ref with _ | x
  · exact .refl w
  · obtain ⟨id, h, kind, deleted, contents⟩ := x
    cases kind with
    | plain => exact cleared w
    | grid data =>
      have told : w.Tells [] (w.log (.gridInvalidated id)) := .of_same rfl
      exact told.trans (cleared _)
    | probe name bare => exact .refl w

/-! ## Operations and jobs -/

/-- An item that is new holds nothing. -/
theorem tells_adopt (w : World) (h : Handle) : w.Tells [] { w with toolkit := w.toolkit.adopt h } := by
  refine tells_toolkit rfl (fun a key => ?_) nofun
  simp only [Toolkit.contentAt, Toolkit.adopt, List.foldl_nil]
  split
  · rfl
  · rename_i hi
    simp only [Table.contains, Bool.not_eq_true, Option.isSome_eq_false_iff, Option.isNone_iff_eq_none] at hi
    by_cases ha : a = h
    · simp [ha, hi, NativeItem.fresh]
    · simp [ha]

/-- Asking for a destruction and carrying it out. -/
theorem tells_itemDel (w v : World) (h : Handle) (hv : w.Tells [] v) (ht : v.toolkit = w.toolkit.apply (.itemDel h)) :
    w.Tells (w.toolkit.fellsNow h) (v.carryOut h).1 := by
  have same : v.toolkit.fellsNow h = w.toolkit.fellsNow h := by
    rw [ht]
    cases hm : w.toolkit.mode
    · simp only [Toolkit.fellsNow, Toolkit.apply, Toolkit.effect, hm, Toolkit.fells]
    · have queued : (w.toolkit.apply (.itemDel h)).mode = .deferred := by
        simp only [Toolkit.apply, Toolkit.effect, hm]
        split
        · rfl
        · exact hm
      simp only [Toolkit.fellsNow, queued, hm]
  rw [← same]
  exact hv.trans (v.tells_carryOut h)

theorem tells_delete (w : World) (ref : Ref) : w.Tells ((Op.delete ref).deeds w) (w.delete ref).1 := by
  simp only [delete, Op.deeds]
  cases hn : (w.handleOf ref).isNull
  · simp only [Bool.false_eq_true, if_false]
    refine tells_itemDel w _ (w.handleOf ref) ?_ (toolkit_native _ _)
    have held : w.Tells [] (((w.pin (.registry (w.spaceOf ref))).pin (.wrapper ref)).log
        (.deleteRequested (w.idOf ref) (w.handleOf ref))) := .of_same rfl
    exact held.quiet (tells_native _ (.itemDel (w.handleOf ref)) (by simp))
  · exact .of_same rfl

/-- An operation does its deeds, and nothing else. -/
theorem tells_perform {w : World} (ho : w.Ordered) {op : Op} (ht : op.Typed w) :
    w.Tells (op.deeds w) (w.perform op).1 := by
  have native (c : NativeCall) (hc : c.Own) : w.Tells (c.deeds w.toolkit) (w.callToolkit c) := by
    refine w.tells_callToolkit c fun object event t e => ?_
    subst e
    exact hc t rfl
  have handled (ref : Ref) (f : Handle → NativeCall) (a : Handle → Answer) (hf : ∀ h, (f h).deeds w.toolkit = [])
      (hc : ∀ h object event t, f h ≠ .callbackAdd object event (.trampoline t)) :
      w.Tells [] (w.withHandle ref fun h => (w.native (f h)).answering (a h)) := by
    refine w.tells_withHandle ref _ fun h => Tells.answering ?_ _
    have done := w.tells_native (f h) (hc h)
    rwa [hf] at done
  cases op with
  | createItem =>
    have advanced : w.Tells [] { w with toolkit := w.toolkit.advance } := .of_same rfl
    exact (advanced.quiet (tells_adopt _ w.toolkit.freshHandle)).answering _
  | createObject => exact .of_same rfl
  | adopt h => exact (w.tells_adopt h).answering _
  | destroy h => exact w.tells_destroy h
  | native c =>
    have done := native c ht
    cases c with
    | itemDel h => exact tells_itemDel w _ h done (congrArg (·.1) (w.core_callToolkit (.itemDel h)))
    | _ => exact done.answering _
  | newGrid h data name => exact w.tells_newGrid h data name
  | newItem name => exact w.tells_newItem name
  | nameItem name ref => exact (w.tells_nameItem name ref).answering _
  | dropItem name => exact (w.tells_dropItemName name).answering _
  | setEnabled ref v => exact handled ref _ _ (fun _ => rfl) (by simp)
  | isEnabled ref => exact handled ref _ _ (fun _ => rfl) (by simp)
  | setText ref part text => exact handled ref _ _ (fun _ => rfl) (by simp)
  | text ref part => exact handled ref _ _ (fun _ => rfl) (by simp)
  | setContent ref part content preserve => exact tells_setContent ho ref part content preserve
  | setSelected ref v => exact handled ref _ _ (fun _ => rfl) (by simp)
  | isSelected ref => exact handled ref _ _ (fun _ => rfl) (by simp)
  | update ref => exact handled ref _ _ (fun _ => rfl) (by simp)
  | onDeleted ref handler =>
    exact (w.tells_modifyWrapper ref (fun x => { x with deleted := x.deleted ++ [handler] }) fun _ => rfl).answering _
  | removeDeleted ref handler =>
    exact (w.tells_modifyWrapper ref (fun x => { x with deleted := x.deleted.filter (· ≠ handler) })
      fun _ => rfl).answering _
  | bind ref h => exact tells_ofResult (w.tells_bind ref h)
  | delete ref => exact w.tells_delete ref
  | nextId space =>
    exact w.tells_withFreshId space (fun v id => v.answering (.id id)) fun v id => (Tells.refl v).answering _
  | forget space id => exact (w.tells_forget space id).answering _
  | letGo space => cases space <;> exact .of_same rfl
  | newProbe name bare id => exact w.tells_newProbe name bare id
  | register ref h => exact tells_ofResult (w.tells_register ref h)
  | setHandle ref h => exact (w.tells_setHandle ref h).answering _
  | dropProbe name => exact (w.tells_dropProbeName name).answering _
  | newBridge name b => exact (w.tells_addBridge name b).answering _
  | dropBridge name => exact (w.tells_dropBridge name).answering _
  | subscribe name b handler => exact w.tells_subscribe name b handler
  | unsubscribe name b handler => exact w.tells_unsubscribe name b handler
  | shutdown name b => exact (w.tells_shutdown name b).answering _
  | detach name b => exact ((w.tells_setBridge name b.closed).log _).answering _
  | _ => exact .of_same rfl

end World

theorem Job.tells_expand {w : World} (ho : w.Ordered) {j : Job} (ht : ∀ choose, j = .act choose → (choose w).Typed w) :
    w.Tells (j.deeds w) (j.expand w).1 := by
  cases j with
  | act choose => exact World.tells_perform ho (ht choose rfl)
  | slot cb h => exact w.tells_runSlot cb h
  | nativeDelete space h => exact w.tells_nativeDelete space h
  | invalidate ref => exact w.tells_invalidate ref
  | settle space h id wrapper => exact w.tells_settle space h id wrapper
  | signal cb object info => exact w.tells_signal cb object info
  | destroyQueued h =>
    have counted : w.Tells [] (if w.toolkit.items.contains h then w.countFlushed else w) := by
      split
      · exact w.tells_countFlushed
      · exact .refl w
    have same : (if w.toolkit.items.contains h then w.countFlushed else w).toolkit = w.toolkit := by
      unfold World.countFlushed
      split
      · split <;> rfl
      · rfl
    have done := counted.trans (World.tells_destroy _ h)
    rw [same] at done
    exact done
  | endFlush => exact w.tells_endFlush
  | releaseHandle ref => exact w.tells_releaseHandle ref
  | unpin p => exact w.tells_unpin p
  | enter | leave | answer => exact .of_same rfl

/-- A step does what was about to be done, and nothing else. -/
theorem Turn.tells {k : Conduct} {c c' : State} (h : Turn k c c') (ho : c.world.Ordered) : c.world.Tells c.deeds c'.world := by
  obtain ⟨p, w, t, ts, ok⟩ := h
  show w.Tells (t.job.deeds w) (p.expand t w).1
  by_cases he : ∃ c, t.job = .enter c
  · obtain ⟨level, job⟩ := t
    obtain ⟨c, rfl⟩ := he
    cases level <;> exact .of_same rfl
  · rw [p.expand_eq t w fun c h => he ⟨c, h⟩]
    exact Job.tells_expand ho fun choose hj => (ok choose hj).1

/-! ## The chronicle of a run -/

namespace Course

variable {k : Conduct}

/-- What was done in the first `n` steps. -/
def chronicle (c : Course k) (n : Nat) : List Deed := (List.range n).flatMap fun i => (c.state i).deeds

theorem chronicle_succ (c : Course k) (n : Nat) : c.chronicle (n + 1) = c.chronicle n ++ (c.state n).deeds := by
  simp [chronicle, List.range_succ]

/-- Where the program is about to perform an operation, nothing else is done. -/
theorem step_tells (c : Course k) {n : Nat} (hn : n < c.length) :
    (c.state n).world.Tells (c.state n).deeds (c.state (n + 1)).world := by
  have ho := (c.reach (Nat.le_of_lt hn)).ordered
  have h := c.next n hn
  generalize c.state (n + 1) = s' at h
  generalize c.state n = s at h ho
  cases h with
  | call w level choose => exact .refl w
  | turn ht => exact ht.tells ho

/-- Every state is what the chronicle tells, from a world where nothing is. -/
theorem tells (c : Course k) {n : Nat} (hn : n ≤ c.length) :
    ∃ mode, (World.start mode).Tells (c.chronicle n) (c.state n).world := by
  induction n with
  | zero =>
    obtain ⟨mode, h⟩ := c.start
    exact ⟨mode, by rw [h]; exact .refl _⟩
  | succ n ih =>
    obtain ⟨mode, h⟩ := ih (Nat.le_of_lt hn)
    refine ⟨mode, ?_⟩
    rw [chronicle_succ]
    exact h.trans (c.step_tells hn)

end Course

end HandleBridge
