/-
  HandleBridge.Proofs.Departure — an item that is dropped leaves no trace.

  An item is freed when nothing holds it any more, and takes its entry and its pair out of the
  tables, whatever is going on (`World.Departs`); the toolkit is not called. What lets go of it
  may be the program, which drops a name or gives it to another item, or an operation that
  ends (`World.GivesUp`). A report of the item's own deletion holds the item until it has ended.
  - `departs_release`, `departs_settle`: what is taken out, also at the end of a report of an item
    that was bound elsewhere meanwhile.
  - `Course.report_after`: a report of a handle that the item had calls nothing, unless
    another item has been bound to that handle since.
  - `dropped_items_leave_no_trace`.
-/
import HandleBridge.Proofs.Pins
import HandleBridge.Proofs.Tracking

namespace HandleBridge

variable {k : Conduct}

namespace World

variable {w w' v : World} {ref : Ref} {x : Wrapper}

/-! ## What goes with an item -/

/-- The item `x` is gone, with its entry and its pair, and nothing else is: the other wrappers, the
    other registry and the toolkit are as they were. -/
structure Departs (w w' : World) (ref : Ref) (x : Wrapper) : Prop where
  wrappers : ∀ a, w'.wrappers.get? a = if a = ref then none else w.wrappers.get? a
  byId : ∀ id, (w'.registry .items).byId.get? id = if id = x.id then none else (w.registry .items).byId.get? id
  byHandle : ∀ h, (w'.registry .items).byHandle.get? h =
    if (w.registry .items).byHandle.get? h = some x.id then none else (w.registry .items).byHandle.get? h
  bare : w'.registry .bare = w.registry .bare
  toolkit : w'.toolkit = w.toolkit

theorem Departs.congr {v' : World} (h : v.Departs v' ref x) (hc : v.core = w.core) (hc' : w'.core = v'.core) :
    w.Departs w' ref x := by
  obtain ⟨ht, hr, hw, -⟩ := core_eq hc
  obtain ⟨ht', hr', hw', -⟩ := core_eq hc'
  refine ⟨?_, ?_, ?_, ?_, ht'.trans (h.toolkit.trans ht)⟩
  · intro a
    rw [hw', ← hw]
    exact h.wrappers a
  · intro id
    rw [hr', ← hr]
    exact h.byId id
  · intro a
    rw [hr', ← hr]
    exact h.byHandle a
  · rw [hr', ← hr]
    exact h.bare

theorem departs_release (ho : w.Ordered) (hx : w.IsItem ref x) (hh : w.isHeld ref = false) :
    w.Departs (w.release ref) ref x := by
  refine ⟨?_, ?_, ?_, ?_, ?_⟩
  · intro a
    rw [wrappers_released hx.1 hh, Table.get?_erase]
  · intro id
    rw [registry_released hx.1 hh, if_pos hx.2, Registry.byId_forget]
  · intro h
    rw [registry_released hx.1 hh, if_pos hx.2, Registry.byHandle_forget (ho.coherent .items)]
  · rw [release_item hx.1 hh hx.2, registry_forget, if_neg (by simp)]
    rfl
  · rw [release_item hx.1 hh hx.2, toolkit_forget]

/-- The end of a report of the item's deletion, nothing else holding the item: the report takes away
    the pair that it found, the item the rest, were it bound elsewhere. -/
theorem departs_settle (ho : w.Ordered) (hx : w.IsItem ref x) (h : Handle)
    (hh : { w with pins := w.pins.erase (.wrapper ref) }.isHeld ref = false) :
    w.Departs (w.settle .items h x.id (some ref)) ref x := by
  let ended := w.reportEnd .items h x.id (some ref)
  let left : World := { ended with pins := ended.pins.erase (.wrapper ref) }
  obtain ⟨ht, hr, hw, hn⟩ := core_eq (w.core_reportEnd .items h x.id (some ref))
  have read (a : Ref) (hne : a ≠ ref) : ended.wrappers.get? a = w.wrappers.get? a := by
    rw [hw, wrapper_settled, if_neg (by simp [hne.symm])]
  obtain ⟨y, hy⟩ : ∃ y, ended.IsItem ref y ∧ y.id = x.id := by
    have here := w.wrapper_settled .items h x.id (some ref) ref
    split at here
    · exact ⟨{ x with handle := .null }, ⟨by rw [hw, here, hx.1]; rfl, hx.2⟩, rfl⟩
    · exact ⟨x, ⟨by rw [hw, here, hx.1], hx.2⟩, rfl⟩
  have unheld : left.isHeld ref = false := by
    have unpinned : left.custody = { w with pins := w.pins.erase (.wrapper ref) }.custody :=
      congrArg (fun c => (c.1, c.2.1, c.2.2.1, c.2.2.2.erase (.wrapper ref))) (w.custody_reportEnd .items h x.id (some ref))
    rw [isHeld_congr unpinned]
    exact hh
  have ordered : left.Ordered := ordered_congr hr hw hn (ordered_settled ho .items h x.id (some ref))
  have gone : left.Departs (left.release ref) ref y := departs_release ordered hy.1 unheld
  have items : left.registry .items = (w.registry .items).endDying h x.id :=
    (hr .items).trans ((w.registry_settled .items .items h x.id (some ref)).trans (if_pos rfl))
  have bare : left.registry .bare = w.registry .bare :=
    (hr .bare).trans ((w.registry_settled .items .bare h x.id (some ref)).trans (if_neg (by simp)))
  show w.Departs (left.release ref) ref x
  refine ⟨?_, ?_, ?_, gone.bare.trans bare,
    gone.toolkit.trans (ht.trans (w.toolkit_settled .items h x.id (some ref)))⟩
  · intro a
    rw [gone.wrappers]
    split
    · rfl
    · rename_i hne
      exact read a hne
  · intro id
    rw [gone.byId, hy.2, items, Registry.byId_endDying]
    by_cases hi : id = x.id <;> simp [hi]
  · intro a
    rw [gone.byHandle, hy.2, items, Registry.byHandle_endDying]
    by_cases ha : a = h ∧ (w.registry .items).byHandle.get? h = some x.id
    · simp [ha.1, ha.2]
    · simp only [ha, if_false]

/-! ## Letting go -/

/-- The world comes to `w'` when it lets go of `ref`, which only what `left` says holds then. -/
def GivesUp (w left w' : World) (ref : Ref) : Prop :=
  (left.isHeld ref = true → w'.core = w.core) ∧ ∀ x, left.isHeld ref = false → w.IsItem ref x → w.Departs w' ref x

theorem gives_up (ho : w.Ordered) {left : World} (hc : left.core = w.core) (hc' : w'.core = (left.release ref).core) :
    w.GivesUp left w' ref := by
  obtain ⟨-, hr, hx, hn⟩ := core_eq hc
  constructor
  · intro hh
    rw [hc', release_of_held hh, hc]
  · intro x hh hi
    exact (departs_release (ordered_congr hr hx hn ho) ⟨hx ▸ hi.1, hi.2⟩ hh).congr hc hc'

theorem gives_up_dropItem (ho : w.Ordered) {name : String} (hn : w.itemNames.get? name = some ref) :
    w.GivesUp { w with itemNames := w.itemNames.erase name } (w.perform (.dropItem name)).1 ref := by
  refine gives_up ho rfl ?_
  simp only [perform, dropItemName, hn]
  rfl

theorem gives_up_nameItem (ho : w.Ordered) {name : String} (hn : w.itemNames.get? name = some ref) (a : Ref) :
    w.GivesUp { w with itemNames := w.itemNames.insert name a } (w.perform (.nameItem name a)).1 ref := by
  refine gives_up ho rfl ?_
  simp only [perform, nameItem, hn]
  rfl

theorem gives_up_unpin (ho : w.Ordered) (ref : Ref) :
    w.GivesUp { w with pins := w.pins.erase (.wrapper ref) } (w.unpin (.wrapper ref)) ref :=
  gives_up ho rfl rfl

/-! ## What the registry counts -/

theorem Tracked.item (ht : w.Tracked) (ho : w.Ordered) {id : ItemId} {e : Entry}
    (he : (w.registry .items).byId.get? id = some e) : ∃ x, w.IsItem e.wrapper x ∧ x.id = id := by
  obtain ⟨x, hx⟩ := (w.isLive_iff _).mp (ht.live id e he)
  obtain ⟨hi, hs⟩ := ho.entryOwn .items id e x he hx
  exact ⟨x, ⟨hx, hs⟩, hi⟩

theorem Tracked.lookupId_iff (ht : w.Tracked) {id : ItemId} :
    w.lookupId .items id = some ref ↔ ∃ e, (w.registry .items).byId.get? id = some e ∧ e.wrapper = ref := by
  simp only [lookupId, Registry.lookupId]
  rcases he : (w.registry .items).byId.get? id with _ | e
  · simp
  · simp [ht.live id e he]

/-- The entries are as many as the items that are found by their ids. -/
theorem Tracked.counts (ht : w.Tracked) (ho : w.Ordered) :
    ∃ refs : List Ref, refs.Nodup ∧ (∀ ref, ref ∈ refs ↔ ∃ x, w.IsItem ref x ∧ w.lookupId .items x.id = some ref) ∧
      (w.registry .items).byId.size = refs.length := by
  let entries := (w.registry .items).byId.entries
  have read {p : ItemId × Entry} (hp : p ∈ entries) : (w.registry .items).byId.get? p.1 = some p.2 :=
    (Table.get?_eq_some_iff _ p.1 p.2).mpr hp
  refine ⟨entries.map (·.2.wrapper), ?_, fun ref => ⟨fun hm => ?_, ?_⟩, (List.length_map ..).symm⟩
  · refine List.Nodup.map_on (fun p hp q hq e => ?_) (List.Nodup.of_map _ (w.registry .items).byId.nodup)
    -- the item knows the id of its entry
    obtain ⟨x, hx, hi⟩ := ht.item ho (read hp)
    obtain ⟨y, hy, hj⟩ := ht.item ho (read hq)
    obtain rfl := hx.unique (e ▸ hy)
    have key : p.1 = q.1 := hi.symm.trans hj
    exact Prod.ext key (Option.some.inj ((read hp).symm.trans (key ▸ read hq)))
  · obtain ⟨p, hp, rfl⟩ := List.mem_map.mp hm
    obtain ⟨x, hx, hi⟩ := ht.item ho (read hp)
    exact ⟨x, hx, ht.lookupId_iff.mpr ⟨p.2, hi ▸ read hp, rfl⟩⟩
  · rintro ⟨x, -, hl⟩
    obtain ⟨e, he, rfl⟩ := ht.lookupId_iff.mp hl
    exact List.mem_map.mpr ⟨(x.id, e), (Table.get?_eq_some_iff _ x.id e).mp he, rfl⟩

/-- The wrapper code that a report runs is that of the item which it finds. -/
theorem code_of_report (ht : w.Tracked) (ho : w.Ordered) (h : Handle) :
    (w.nativeDelete .items h).2 = [] ∨
    ∃ a y, w.IsItem a y ∧ (w.registry .items).byHandle.get? h = some y.id ∧ w.lookupHandle .items h = some a ∧
      ∀ j ∈ (w.nativeDelete .items h).2, ∀ b, j.Code b → b = a := by
  rcases w.nativeDelete_cases .items h with hn | ⟨id, hd, hb⟩
  · exact Or.inl (by rw [nativeDelete_ignored hn])
  · obtain ⟨-, e, he, -⟩ := ((ho.coherent .items).mapped_iff h id).mp hb
    obtain ⟨y, hy, rfl⟩ := ht.item ho he
    have found : w.lookupId .items y.id = some e.wrapper := ht.lookupId_iff.mpr ⟨e, he, rfl⟩
    refine Or.inr ⟨e.wrapper, y, hy, hb, ?_, fun j hj b hc => ?_⟩
    · simp only [lookupHandle, Registry.lookupHandle, hb]
      exact found
    · rw [nativeDelete_due hd hb found] at hj
      simp only [List.mem_append, List.mem_cons, List.not_mem_nil, or_false] at hj
      rcases hj with hj | rfl | rfl
      · obtain ⟨-, -, here⟩ := code_notifications hj
        exact code_inj hc here
      · exact hc.symm
      · exact hc.elim

end World

namespace Course

variable (c : Course k)

/-- A report of a handle that an item was bound to, after the item has been freed. -/
theorem report_after {i n : Nat} (hin : i ≤ n) (hn : n ≤ c.length) {ref : Ref} {h : Handle} (hb : c.Bound i ref h)
    (gone : (c.state n).world.isLive ref = false) :
    ((c.state n).world.nativeDelete .items h).2 = [] ∨
    ∃ a, a ≠ ref ∧ c.Bound n a h ∧ (c.state n).world.lookupHandle .items h = some a ∧
      (∀ j ∈ ((c.state n).world.nativeDelete .items h).2, ∀ b, j.Code b → b = a) ∧
      ∃ m, i ≤ m ∧ m < n ∧ ¬ c.Bound m a h ∧ c.Bound (m + 1) a h := by
  have reach := c.reach hn
  refine (World.code_of_report reach.tracked reach.ordered h).imp id ?_
  rintro ⟨a, y, hy, hm, found, code⟩
  have other : a ≠ ref := by
    rintro rfl
    rw [(World.isLive_iff _ a).mpr ⟨y, hy.1⟩] at gone
    cases gone
  have now : c.Bound n a h := ⟨y, hy, hm⟩
  have before : ¬ c.Bound i a h := fun hb' => other (hb'.unique c (by omega) hb)
  exact ⟨a, other, now, found, code, c.bound_since hin before now⟩

end Course

/-- In every state of a run, inside handlers as well:
    - every entry of the item registry belongs to an item that is there, one entry each, so there are
      as many entries as items that are found by their ids;
    - where the program lets go of an item by dropping its name or giving the name to another, or an
      operation that held it ends, nothing changes as long as something else holds it; if nothing
      does, the item is gone with its entry and its pair, and nothing else is, with no call to the
      toolkit;
    - a report of its own deletion holds the item until the report ends, and if nothing else does,
      the item goes then in just this way, wherever it is bound;
    - an item that is gone has no entry and no pair ever again. A handle that it held is one that it
      was bound to, and a report of such a handle calls nothing, or the code of another item that
      has been bound to the handle since. -/
theorem dropped_items_leave_no_trace (c : Course .free) {n : Nat} (hn : n ≤ c.length) :
    let w := (c.state n).world
    (∀ id e, (w.registry .items).byId.get? id = some e → ∃ x, w.IsItem e.wrapper x ∧ x.id = id) ∧
    (∃ refs : List Ref, refs.Nodup ∧ (∀ ref, ref ∈ refs ↔ ∃ x, w.IsItem ref x ∧ w.lookupId .items x.id = some ref) ∧
      (w.registry .items).byId.size = refs.length) ∧
    (∀ name ref, w.itemNames.get? name = some ref →
      (w.perform (.dropItem name)).2 = [] ∧
      w.GivesUp { w with itemNames := w.itemNames.erase name } (w.perform (.dropItem name)).1 ref ∧
      ∀ a, (w.perform (.nameItem name a)).2 = [] ∧
        w.GivesUp { w with itemNames := w.itemNames.insert name a } (w.perform (.nameItem name a)).1 ref) ∧
    (∀ ref, w.GivesUp { w with pins := w.pins.erase (.wrapper ref) } (w.unpin (.wrapper ref)) ref) ∧
    (∀ h id ref, .settle .items h id (some ref) ∈ jobs (c.state n).tasks →
      ∃ x, w.IsItem ref x ∧ x.id = id ∧ w.isHeld ref = true ∧
        ({ w with pins := w.pins.erase (.wrapper ref) }.isHeld ref = false →
          w.Departs (w.settle .items h id (some ref)) ref x)) ∧
    (∀ ref x, w.IsItem ref x → x.handle ≠ .null → ∃ i, i ≤ n ∧ c.Bound i ref x.handle) ∧
    ∀ i ref x, i ≤ n → (c.state i).world.IsItem ref x → w.isLive ref = false →
      (w.registry .items).byId.get? x.id = none ∧ (∀ h, (w.registry .items).byHandle.get? h ≠ some x.id) ∧
      ∀ h, c.Bound i ref h → (w.nativeDelete .items h).2 = [] ∨
        ∃ a, a ≠ ref ∧ c.Bound n a h ∧ w.lookupHandle .items h = some a ∧
          (∀ j ∈ (w.nativeDelete .items h).2, ∀ b, j.Code b → b = a) ∧
          ∃ m, i ≤ m ∧ m < n ∧ ¬ c.Bound m a h ∧ c.Bound (m + 1) a h := by
  intro w
  have ordered : w.Ordered := (c.reach hn).ordered
  have tracked : w.Tracked := (c.reach hn).tracked
  refine ⟨fun id e he => tracked.item ordered he, tracked.counts ordered, ?_, fun ref => World.gives_up_unpin ordered ref,
    ?_, fun ref x hx hh => c.was_bound hn hx hh, ?_⟩
  · intro name ref hname
    exact ⟨rfl, World.gives_up_dropItem ordered hname, fun a => ⟨rfl, World.gives_up_nameItem ordered hname a⟩⟩
  · intro h id ref hs
    obtain ⟨live, i, hin, found, -⟩ := c.kept hn hs
    obtain ⟨x, hx⟩ := (World.isLive_iff _ ref).mp live
    -- the report found the item under this id when it began
    have began := c.reach (i := i) (by omega)
    obtain ⟨e, he, rfl⟩ := began.tracked.lookupId_iff.mp found
    obtain ⟨y, hy, rfl⟩ := began.tracked.item began.ordered he
    obtain ⟨hi, hspace⟩ := c.same_id (Nat.le_of_lt hin) hn hy.1 hx
    have item : w.IsItem e.wrapper x := ⟨hx, hspace ▸ hy.2⟩
    refine ⟨x, item, hi.symm, (w.isHeld_iff _).mpr (Or.inr (Or.inr (c.pinned hn hs))), fun hh => ?_⟩
    rw [hi]
    exact World.departs_settle ordered item h hh
  · intro i ref x hin hx gone
    obtain ⟨-, entry, pair⟩ := c.gone hin (Nat.le_refl n) hn hx gone
    exact ⟨entry, pair, fun h hb => c.report_after hin hn hb gone⟩

/-- Told of its deletion, the item moves to another object, and its only name is dropped. -/
def leaver : Program where
  limit := 4
  body
    | .deleted .. => [fun _ => .bind ⟨0⟩ ⟨0x1010⟩, fun _ => .dropItem "a"]
    | _ => []

/-- The report of its first object is about to end. -/
def leaving : State := State.after leaver 8 ⟨settledDown, [⟨4, .act fun _ => .destroy ⟨0x1000⟩⟩]⟩

theorem reach_leaving : Reach .free leaving := by
  have down : Reach .free ⟨settledDown, []⟩ := reach_settledDown.mono (Conduct.within_free _)
  have due := (down.call 4 (fun _ => .destroy ⟨0x1000⟩)).perform leaver ⟨trivial, trivial⟩
  have inside := ((due.quiet leaver (by simp)).quiet leaver (by simp)).quiet leaver (by simp)
  have moved := inside.perform leaver ⟨⟨by decide, by decide⟩, trivial, trivial⟩
  have dropped := moved.perform leaver ⟨trivial, trivial⟩
  exact (dropped.quiet leaver (by simp)).quiet leaver (by simp)

/-- The item is still there then, bound to the second object, and goes when the report ends. -/
theorem freed_where_it_moved_to :
    leaving.world.lookupHandle .items ⟨0x1010⟩ = some ⟨0⟩ ∧ leaving.world.isNamed ⟨0⟩ = false ∧
      ∃ x, leaving.world.IsItem ⟨0⟩ x ∧ leaving.world.isHeld ⟨0⟩ = true ∧
        leaving.world.Departs (leaving.world.settle .items ⟨0x1000⟩ ⟨0⟩ (some ⟨0⟩)) ⟨0⟩ x := by
  obtain ⟨c, hc⟩ := reach_leaving.course
  have all := dropped_items_leave_no_trace c (Nat.le_refl c.length)
  have stack : .settle .items ⟨0x1000⟩ ⟨0⟩ (some ⟨0⟩) ∈ jobs leaving.tasks := List.mem_cons_self ..
  rw [hc] at all
  obtain ⟨x, hx, -, held, departs⟩ := all.2.2.2.2.1 ⟨0x1000⟩ ⟨0⟩ ⟨0⟩ stack
  exact ⟨by decide, by decide, x, hx, held, departs (by decide)⟩

end HandleBridge
