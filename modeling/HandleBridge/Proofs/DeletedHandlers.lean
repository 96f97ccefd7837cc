/-
  HandleBridge.Proofs.DeletedHandlers — which handlers a deletion calls, and when.

  A registry that is told of the deletion of an item's object reads the list of the item's handlers
  once, and makes one call due for each. The handlers may do anything: edit the list, bind the item
  anew, bring about another deletion of it, which reads the list as it is then. What a handler makes
  due nests one level further in, so the calls that a report makes are those that have their turn on
  its own level.
  - `Runs.calls`: calls that are due have their turns in order, and what they do is further in.
  - `Reach.entered`, `Runs.entered`: until a report ends, the entry of its item has the handle that is
    reported, unless a handler gives the entry another one or has the id forgotten (`Displaces`).
  - `Reach.report_begun`: where the run stands when a report is about to call the first handler.
  - `deleted_handlers_are_called_in_order`.
-/
import HandleBridge.Proofs.HandlerLists
import HandleBridge.Proofs.ReportFrame
import HandleBridge.Proofs.SignalDelivery

namespace HandleBridge

variable {k : Conduct}

/-! ## The calls of a report -/

/-- Calls on one level have their turns in order, and everything else is further in. -/
theorem Runs.calls {level : Nat} {cs : List Call} {w w' : World} {vs : List (Task × World)}
    (run : Runs (cs.map fun call => ⟨level, .enter call⟩) w vs w') :
    (vs.filter (·.1.level = level)).map (·.1) = cs.map (fun call => ⟨level, .enter call⟩) ∧ ∀ v ∈ vs, v.1.level ≤ level := by
  refine ⟨?_, fun v hv => Nat.le_of_lt_succ (run.level_lt (fun t ht => ?_) v hv)⟩
  · induction cs generalizing w vs with
    | nil =>
      cases run
      rfl
    | cons call cs ih =>
      obtain ⟨first, u, others, one, rest, rfl⟩ := run.split [⟨level, .enter call⟩] _
      rw [List.filter_append, List.map_append, ih rest]
      cases one with
      | @task p _ _ _ _ inner one =>
        rw [List.append_nil] at one
        have deeper : inner.filter (·.1.level = level) = [] := by
          refine List.filter_eq_nil_iff.mpr fun v hv here => ?_
          have below := one.level_lt (level_enter p level call w) v hv
          rw [of_decide_eq_true here] at below
          exact Nat.lt_irrefl _ below
        rw [List.filter_cons_of_pos (by simp), deeper]
        rfl
  · obtain ⟨call, -, rfl⟩ := List.mem_map.mp ht
    exact Nat.lt_succ_self level

/-! ## The entry of the item -/

/-- The operation gives the entry of the item another handle than `h`, or has the id forgotten. -/
def Op.Displaces (w : World) (ref : Ref) (id : ItemId) (h : Handle) : Op → Prop
  | .bind b a | .register b a => b = ref ∧ a ≠ h ∧ (w.register b a).2 = none
  | .forget space i => space = .items ∧ i = id
  | _ => False

def Displaces (v : Task × World) (ref : Ref) (id : ItemId) (h : Handle) : Prop :=
  ∃ op, Performs v op ∧ op.Displaces v.2 ref id h

namespace World

variable {w : World} {ref : Ref} {h : Handle} {x : Wrapper}

/-- To register an item with the handle that its entry has changes no entry. -/
theorem registry_register_again (hx : w.IsItem ref x) (entry : (w.registry .items).byId.get? x.id = some ⟨ref, h⟩) :
    (w.register ref h).1.registry .items = w.registry .items := by
  have bound : (w.registry (w.spaceOf ref)).isBoundTo (w.idOf ref) h = true := by
    rw [spaceOf_eq hx.1, hx.2, idOf_eq hx.1, Registry.isBoundTo, entry]
    exact decide_eq_true rfl
  rcases w.register_cases ref h with ⟨-, same⟩ | ⟨-, same, -⟩ | ⟨-, can, -⟩
  · exact (core_eq same).2.1 .items
  · exact (core_eq same).2.1 .items
  · rw [register_again can.1 bound]
    rfl

/-- What gives the item a binding and does not displace the entry gives it the one that it has. -/
theorem entered_perform (hx : w.IsItem ref x) (entry : (w.registry .items).byId.get? x.id = some ⟨ref, h⟩) {op : Op}
    (unsettles : op.Unsettles w ref x.id) (keeps : ¬ op.Displaces w ref x.id h) :
    ((w.perform op).1.registry .items).byId.get? x.id = some ⟨ref, h⟩ := by
  cases op with
  | bind b a =>
    obtain ⟨rfl, accepted⟩ := unsettles
    obtain rfl : a = h := by_contra fun other => keeps ⟨rfl, other, accepted⟩
    rw [perform, registry_ofResult, registry_bind, registry_register_again hx entry]
    exact entry
  | register b a =>
    obtain ⟨rfl, accepted⟩ := unsettles
    obtain rfl : a = h := by_contra fun other => keeps ⟨rfl, other, accepted⟩
    rw [perform, registry_ofResult, registry_register_again hx entry]
    exact entry
  | forget space i => exact absurd unsettles keeps
  | _ => exact unsettles.elim

end World

/-- Until the report of `h` ends, a turn leaves the entry of its item as it is, if it does not displace
    it. -/
theorem Reach.entered {w : World} {t : Task} {ts : List Task} (hr : Reach k ⟨w, t :: ts⟩)
    (ok : ∀ choose, t.job = .act choose → k.Allows w (choose w)) {ref : Ref} {id : ItemId} {h : Handle}
    (due : .settle .items h id (some ref) ∈ jobs ts) (keeps : ¬ Displaces (t, w) ref id h)
    (entry : (w.registry .items).byId.get? id = some ⟨ref, h⟩) (p : Program) :
    ((p.expand t w).1.registry .items).byId.get? id = some ⟨ref, h⟩ := by
  obtain ⟨x, hx, rfl, hs⟩ := hr.reported_wrapper (List.mem_cons_of_mem _ due)
  by_cases unsettles : t.job.Unsettles w ref x.id
  · obtain ⟨level, job⟩ := t
    cases job with
    | act choose => exact World.entered_perform ⟨hx, hs⟩ entry unsettles fun other => keeps ⟨_, ⟨choose, rfl, rfl⟩, other⟩
    | settle space a i wrapper =>
      -- it would be a second report of `h` that ends before the first
      obtain ⟨rfl, rfl, here⟩ := unsettles
      simp only [Registry.isElsewhere, entry, ne_eq, decide_eq_false_iff_not, not_not] at here
      subst here
      have once := (marked_exactly hr .items).2
      have stack : reported .items (jobs (⟨level, .settle .items h x.id wrapper⟩ :: ts)) = h :: reported .items (jobs ts) := by
        simp [reported, jobs]
      rw [stack] at once
      exact absurd (mem_reported.mpr ⟨x.id, some ref, due⟩) (List.nodup_cons.mp once).1
    | releaseHandle b =>
      show ((w.releaseHandle b).registry .items).byId.get? x.id = _
      rw [World.registry_releaseHandle]
      exact entry
    | _ => exact unsettles.elim
  · have turn : Turn k ⟨w, t :: ts⟩ ⟨(p.expand t w).1, (p.expand t w).2 ++ ts⟩ := .mk p w t ts ok
    obtain ⟨y, hy, same, hs'⟩ := (hr.step turn).reported_wrapper (by
      rw [jobs_append]
      exact List.mem_append_right _ due)
    have spared := hr.spares (a := .null) ⟨hx, hs⟩ (fun choose hj => (ok choose hj).1) unsettles (Or.inl rfl) p
    obtain ⟨-, -, -, -, still⟩ := spared.item y ⟨hy, hs'⟩
    rw [same] at still
    rw [still]
    exact entry

/-- At each turn before the report ends the entry is as it was, if no turn has displaced it yet. -/
theorem Runs.entered {us ts : List Task} {w w' : World} {vs : List (Task × World)} (run : Runs us w vs w')
    (hr : Reach k ⟨w, us ++ ts⟩) (ok : AllAllowed k vs) {ref : Ref} {id : ItemId} {h : Handle}
    (due : .settle .items h id (some ref) ∈ jobs ts) (entry : (w.registry .items).byId.get? id = some ⟨ref, h⟩)
    {before after : List (Task × World)} {v : Task × World} (hv : vs = before ++ v :: after)
    (keeps : ∀ b ∈ before, ¬ Displaces b ref id h) : (v.2.registry .items).byId.get? id = some ⟨ref, h⟩ := by
  induction run generalizing before with
  | done w => simp at hv
  | @task p t rest w w' vs run ih =>
    rcases before with _ | ⟨b, before⟩
    · obtain ⟨rfl, rfl⟩ := List.cons.inj hv
      exact entry
    · obtain ⟨rfl, later⟩ := List.cons.inj hv
      have allowed := ok (t, w) (List.mem_cons_self ..)
      have due' : .settle .items h id (some ref) ∈ jobs (rest ++ ts) := by
        rw [jobs_append]
        exact List.mem_append_right _ due
      have next := Reach.entered hr allowed due' (keeps _ (List.mem_cons_self ..)) entry p
      exact ih (hr.next p allowed) (fun u hu => ok u (List.mem_cons_of_mem _ hu)) next later
        fun u hu => keeps u (List.mem_cons_of_mem _ hu)

/-! ## The report of a deletion -/

/-- A report has begun: the handlers are to be called, then the item is invalidated, and then the report
    ends. -/
theorem Reach.report_begun {w : World} {ts : List Task} {level : Nat} {h : Handle} {id : ItemId} {ref : Ref}
    (hr : Reach k ⟨w, ⟨level, .nativeDelete .items h⟩ :: ts⟩) (hd : h ∉ (w.registry .items).dying)
    (hb : (w.registry .items).byHandle.get? h = some id) (found : w.lookupId .items id = some ref) :
    Reach k ⟨(w.reporting .items h id).pin (.wrapper ref), ((w.reporting .items h id).notifications ref).map (Task.mk level) ++
      (⟨level, .invalidate ref⟩ :: ⟨level, .settle .items h id (some ref)⟩ :: ts)⟩ := by
  -- no program is asked before a handler is called
  have next := hr.quiet mover (by simp)
  change Reach k ⟨(w.nativeDelete .items h).1, (w.nativeDelete .items h).2.map (Task.mk level) ++ ts⟩ at next
  rw [World.nativeDelete_eq hd hb, found, List.map_append, List.append_assoc] at next
  exact next

/-- The entry of an item that the handle leads to. -/
theorem World.entry_of_found {w : World} (ho : w.Ordered) (ht : w.Tracked) {ref : Ref} {h : Handle} {id : ItemId}
    (hb : (w.registry .items).byHandle.get? h = some id) (found : w.lookupId .items id = some ref) :
    h ≠ .null ∧ (w.registry .items).byId.get? id = some ⟨ref, h⟩ := by
  obtain ⟨hn, e, he, rfl⟩ := ((ho.coherent .items).mapped_iff h id).mp hb
  obtain ⟨e', he', rfl⟩ := ht.lookupId_iff.mp found
  obtain rfl := Option.some.inj (he.symm.trans he')
  exact ⟨hn, he⟩

/-- A report of an item calls its handlers in order, and clears it when they are done. -/
theorem Runs.told_in_order {w w' : World} {ts : List Task} {level : Nat} {h : Handle} {ref : Ref} {x : Wrapper}
    {vs : List (Task × World)} (run : Runs [⟨level, .nativeDelete .items h⟩] w vs w')
    (hr : Reach k ⟨w, ⟨level, .nativeDelete .items h⟩ :: ts⟩) (ok : AllAllowed k vs) (hd : h ∉ (w.registry .items).dying)
    (hx : w.IsItem ref x) (hb : (w.registry .items).byHandle.get? h = some x.id) (found : w.lookupId .items x.id = some ref) :
    ∃ told u y, vs = (⟨level, .nativeDelete .items h⟩, w) :: (told ++ [(⟨level, .invalidate ref⟩, u),
        (⟨level, .settle .items h x.id (some ref)⟩, (u.invalidate ref).1)]) ∧
      u.IsItem ref y ∧ (u.invalidate ref).1.IsItem ref y.cleared ∧
      (told.filter (·.1.level = level)).map (·.1) = x.deleted.map (fun f => ⟨level, .enter (.deleted f ref)⟩) ∧
      (∀ v ∈ told, v.1.level ≤ level) ∧
      Runs (((w.reporting .items h x.id).notifications ref).map (Task.mk level))
        ((w.reporting .items h x.id).pin (.wrapper ref)) told u := by
  obtain ⟨told, u, cleared, v, rfl, observers, invalidation, -⟩ := run.report_parts hd hb found
  -- the calls are those of the handlers
  have wrappers : (w.reporting .items h x.id).wrappers = w.wrappers :=
    w.wrappers_setRegistry .items ((w.registry .items).startDying h)
  have due : (w.reporting .items h x.id).notifications ref = x.deleted.map fun f => .enter (.deleted f ref) := by
    rw [World.notifications_item ⟨x, by rw [wrappers]; exact hx.1, hx.2⟩, World.handlersOf, wrappers, hx.1]
    rfl
  have calls : Runs ((x.deleted.map fun f => Call.deleted f ref).map fun call => ⟨level, .enter call⟩)
      ((w.reporting .items h x.id).pin (.wrapper ref)) told u := by
    rw [due, List.map_map] at observers
    rw [List.map_map]
    exact observers
  obtain ⟨inOrder, within⟩ := calls.calls
  rw [List.map_map] at inOrder
  -- the item is there when they are over
  have answered := Reach.finish observers (hr.report_begun hd hb found) fun t ht => ok t (by simp [ht])
  obtain ⟨y, hy, -, items⟩ := answered.reported_wrapper (List.mem_cons_of_mem _ (List.mem_cons_self ..))
  rw [World.invalidate_item ⟨y, hy, items⟩] at invalidation
  cases invalidation
  obtain ⟨-, -, invalidated, -⟩ := u.invalidate_frame ref
  have after : (u.invalidate ref).1.wrappers.get? ref = some y.cleared := by
    rw [invalidated, if_pos rfl, hy, Option.map_some, Wrapper.invalidated_item items]
  exact ⟨told, u, y, rfl, ⟨hy, items⟩, ⟨after, y.space_cleared.trans items⟩, inOrder, within, observers⟩

/-- While the handlers are called, id and handle lead to the item until one displaces the entry. -/
theorem Runs.leads_to_told {w u : World} {ts : List Task} {level : Nat} {h : Handle} {id : ItemId} {ref : Ref}
    {told before after : List (Task × World)} {v : Task × World}
    (observers : Runs (((w.reporting .items h id).notifications ref).map (Task.mk level))
      ((w.reporting .items h id).pin (.wrapper ref)) told u)
    (hr : Reach k ⟨w, ⟨level, .nativeDelete .items h⟩ :: ts⟩) (ok : AllAllowed k told) (hd : h ∉ (w.registry .items).dying)
    (hb : (w.registry .items).byHandle.get? h = some id) (found : w.lookupId .items id = some ref)
    (hv : told = before ++ v :: after) (keeps : ∀ b ∈ before, ¬ Displaces b ref id h) :
    v.2.lookupId .items id = some ref ∧ v.2.lookupHandle .items h = some ref := by
  obtain ⟨real, entry⟩ := World.entry_of_found hr.ordered hr.tracked hb found
  have begun := hr.report_begun hd hb found
  have entered : (((w.reporting .items h id).pin (.wrapper ref)).registry .items).byId.get? id = some ⟨ref, h⟩ := by
    show ((w.reporting .items h id).registry .items).byId.get? id = _
    rw [World.registry_reporting, if_pos rfl]
    exact entry
  have still := observers.entered begun ok (List.mem_cons_of_mem _ (List.mem_cons_self ..)) entered hv keeps
  subst hv
  obtain ⟨rest, -, reach⟩ := observers.turn_at begun ok
  obtain ⟨byHandle, byId⟩ := World.leads_to_item reach.ordered reach.tracked still real
  exact ⟨byId, byHandle⟩

/-- What `remove_deleted` takes from a list, and what it leaves. -/
theorem Course.handlers_removed (c : Course k) {n : Nat} {ref : Ref} {f : String} (hn : n < c.length)
    (ho : (c.state n).op? = some (.removeDeleted ref f)) :
    c.handlers ref (n + 1) = (c.handlers ref n).filter (· ≠ f) ∧ (∀ a, a ≠ ref → c.handlers a (n + 1) = c.handlers a n) ∧
      (c.state (n + 1)).world.answer = .count ((c.handlers ref n).count f) ∧
      (c.handlers ref n).count f + (c.handlers ref (n + 1)).length = (c.handlers ref n).length := by
  have mine : c.handlers ref (n + 1) = (c.handlers ref n).filter (· ≠ f) := (c.handlers_op ho ref).trans (if_pos rfl)
  obtain ⟨⟨⟨x, hx, -⟩, -⟩, performed⟩ := c.performed hn ho
  refine ⟨mine, fun a ha => (c.handlers_op ho a).trans (if_neg (Ne.symm ha)), ?_, ?_⟩
  · rw [performed]
    show Answer.count _ = _
    rw [hx, ← c.handlers_eq (Nat.le_of_lt hn) hx]
    rfl
  · have parts := List.length_eq_countP_add_countP (· == f) (l := c.handlers ref n)
    rw [mine, ← List.countP_eq_length_filter, List.count]
    simpa using parts.symm

/-- The handlers of an item are what `on_deleted` and `remove_deleted` have made of them, from nothing,
    and nothing else; in particular an item keeps them when it is bound anew. `remove_deleted` takes
    out of the list every occurrence of its handler and nothing else, and answers how many these were.

    A registry is told that `h` has been destroyed, which leads to an item and is not being reported.
    Whatever the handlers do, the call comes to its end, given that calls nest no deeper than the program's
    limit: one that would be made deeper, on level 0, is noted instead. Between its beginning and the
    invalidation, which clears the item, it calls the handlers that the item had when it began, in order,
    each as often as it was there, and with the item; all else that has its turn in between is done by
    handlers, further in. Until a handler displaces the entry, id and handle lead to the item. -/
theorem deleted_handlers_are_called_in_order {k : Conduct} (c : Course k) {n : Nat} (hn : n ≤ c.length) (ref : Ref) :
    (∀ x, (c.state n).world.IsItem ref x → x.deleted = c.handlers ref n) ∧
    (∀ f, n < c.length → (c.state n).op? = some (.removeDeleted ref f) →
      c.handlers ref (n + 1) = (c.handlers ref n).filter (· ≠ f) ∧ (∀ a, a ≠ ref → c.handlers a (n + 1) = c.handlers a n) ∧
        (c.state (n + 1)).world.answer = .count ((c.handlers ref n).count f) ∧
        (c.handlers ref n).count f + (c.handlers ref (n + 1)).length = (c.handlers ref n).length) ∧
    ∀ w level h ts, c.state n = ⟨w, ⟨level, .nativeDelete .items h⟩ :: ts⟩ → h ∉ (w.registry .items).dying →
      w.lookupHandle .items h = some ref →
      (∀ p : Program, ∃ vs, Runs [⟨level, .nativeDelete .items h⟩] w vs (p.run ⟨level, .nativeDelete .items h⟩ w)) ∧
      ∀ vs w', Runs [⟨level, .nativeDelete .items h⟩] w vs w' → AllAllowed k vs →
        ∃ told u x, vs = (⟨level, .nativeDelete .items h⟩, w) :: (told ++ [(⟨level, .invalidate ref⟩, u),
            (⟨level, .settle .items h (w.idOf ref) (some ref)⟩, (u.invalidate ref).1)]) ∧
          u.IsItem ref x ∧ (u.invalidate ref).1.IsItem ref x.cleared ∧
          (told.filter (·.1.level = level)).map (·.1) = (c.handlers ref n).map (fun f => ⟨level, .enter (.deleted f ref)⟩) ∧
          (∀ v ∈ told, v.1.level ≤ level) ∧
          ∀ before v after, told = before ++ v :: after → (∀ b ∈ before, ¬ Displaces b ref (w.idOf ref) h) →
            v.2.lookupId .items (w.idOf ref) = some ref ∧ v.2.lookupHandle .items h = some ref := by
  refine ⟨fun x hx => c.handlers_eq hn hx.1, fun f hlt ho => c.handlers_removed hlt ho, ?_⟩
  intro w level h ts hs hd found
  refine ⟨fun p => p.runs_run _ w, fun vs w' run ok => ?_⟩
  have hr : Reach k ⟨w, ⟨level, .nativeDelete .items h⟩ :: ts⟩ := hs ▸ c.reach hn
  obtain ⟨x, hx, hb, hid⟩ := World.found_item hr.ordered hr.tracked found
  have handlers : x.deleted = c.handlers ref n := c.handlers_eq hn (by rw [hs]; exact hx.1)
  obtain ⟨told, u, y, rfl, there, cleared, inOrder, within, observers⟩ := run.told_in_order hr ok hd hx hb hid
  rw [handlers] at inOrder
  rw [World.idOf_eq hx.1]
  refine ⟨told, u, y, rfl, there, cleared, inOrder, within, fun before v after hv keeps => ?_⟩
  exact observers.leads_to_told hr (fun t ht => ok t (by simp [ht])) hd hb hid hv keeps

/-- Of the handlers of an item, one moves it to another object, which it destroys, and one edits the
    list. -/
def rearranger : Program where
  limit := 4
  body
    | .deleted "move" ref => [fun _ => .bind ref ⟨0x1010⟩, fun _ => .destroy ⟨0x1010⟩]
    | .deleted "edit" ref => [fun _ => .onDeleted ref "late", fun _ => .removeDeleted ref "edit"]
    | _ => []

/-- The item has both of them, the second one twice, and another one in between. -/
def listed : World :=
  [Op.onDeleted ⟨0⟩ "edit", .onDeleted ⟨0⟩ "idle", .onDeleted ⟨0⟩ "edit"].foldl (fun w op => (w.perform op).1) settledDown

/-- The other one has been removed. -/
def relisted : World := (listed.perform (.removeDeleted ⟨0⟩ "idle")).1

/-- The object of the item has been destroyed, and the registry is about to be told. -/
def falling : State := State.after rearranger 2 ⟨relisted, [⟨4, .act fun _ => .destroy ⟨0x1000⟩⟩]⟩

/-- What happens when it is told. -/
def fall : List (Task × World) := rearranger.trace 34 ⟨falling.world, [⟨4, .nativeDelete .items ⟨0x1000⟩⟩]⟩

def fallen : World := (State.after rearranger 34 ⟨falling.world, [⟨4, .nativeDelete .items ⟨0x1000⟩⟩]⟩).world

theorem reach_listed : Reach .free ⟨listed, []⟩ := by
  have settled : Reach .free ⟨settledDown, []⟩ := reach_settledDown.mono (Conduct.within_free _)
  have one := (settled.call 4 (fun _ => .onDeleted ⟨0⟩ "edit")).perform rearranger ⟨⟨_, rfl, rfl⟩, trivial⟩
  have two := (one.call 4 (fun _ => .onDeleted ⟨0⟩ "idle")).perform rearranger ⟨⟨_, rfl, rfl⟩, trivial⟩
  exact (two.call 4 (fun _ => .onDeleted ⟨0⟩ "edit")).perform rearranger ⟨⟨_, rfl, rfl⟩, trivial⟩

theorem reach_falling : Reach .free falling := by
  have removed := (reach_listed.call 4 (fun _ => .removeDeleted ⟨0⟩ "idle")).perform rearranger ⟨⟨_, rfl, rfl⟩, trivial⟩
  have due := (removed.call 4 (fun _ => .destroy ⟨0x1000⟩)).perform rearranger ⟨trivial, trivial⟩
  exact due.quiet rearranger (by simp)

theorem allowed_fall : AllAllowed .free fall := by
  intro v hv choose hc
  repeat' rcases hv with _ | ⟨_, hv⟩
  all_goals cases hc
  all_goals first
    | exact ⟨⟨by decide, by decide⟩, trivial, trivial⟩
    | exact ⟨⟨_, rfl, rfl⟩, trivial⟩
    | exact ⟨trivial, trivial⟩

/-- The removal answers one. The report calls the three handlers that are left, also the second one
    again after it has removed itself, and none of those that it has added; the first of them finds the
    item by id and by handle, and the deletion of the other object in the middle of it has a report of
    its own. -/
theorem what_is_removed_is_called_once_more :
    (∃ (c : Course .free) (n : Nat), c.handlers ⟨0⟩ n = ["move", "edit", "idle", "edit"] ∧
      c.handlers ⟨0⟩ (n + 1) = ["move", "edit", "edit"] ∧ (c.state (n + 1)).world.answer = .count 1) ∧
    (∃ told rest, fall = (⟨4, .nativeDelete .items ⟨0x1000⟩⟩, falling.world) :: (told ++ rest) ∧
      (told.filter (·.1.level = 4)).map (·.1) =
        ["move", "edit", "edit"].map (fun f => ⟨4, .enter (.deleted f ⟨0⟩)⟩) ∧
      ∀ v ∈ told.head?, v.2.lookupId .items ⟨0⟩ = some ⟨0⟩ ∧ v.2.lookupHandle .items ⟨0x1000⟩ = some ⟨0⟩) ∧
    (fall[5]?).map (·.1) = some ⟨3, .nativeDelete .items ⟨0x1010⟩⟩ ∧
    fallen.handlersOf ⟨0⟩ = ["move", "late", "late", "late", "late"] := by
  refine ⟨?_, ?_, rfl, by decide⟩
  · obtain ⟨c, last⟩ := reach_listed.course
    obtain ⟨d, length, -, due, -⟩ := c.perform last (.removeDeleted ⟨0⟩ "idle") ⟨⟨_, rfl, rfl⟩, trivial⟩ rfl
    have hn : c.length + 1 < d.length := by omega
    obtain ⟨lists, removed, -⟩ := deleted_handlers_are_called_in_order d (Nat.le_of_lt hn) ⟨0⟩
    have before := lists _ (by rw [due]; exact ⟨rfl, rfl⟩)
    obtain ⟨after, -, answer, -⟩ := removed "idle" hn (by rw [due]; rfl)
    rw [← before] at after answer
    exact ⟨d, c.length + 1, before.symm, after, answer⟩
  · have run : Runs _ _ fall fallen := rearranger.runs_trace rfl
    obtain ⟨c, last⟩ := reach_falling.course
    obtain ⟨lists, -, reports⟩ := deleted_handlers_are_called_in_order c (Nat.le_refl _) ⟨0⟩
    have before := lists _ (by rw [last]; exact ⟨rfl, rfl⟩)
    obtain ⟨-, told⟩ := reports falling.world 4 ⟨0x1000⟩ falling.tasks.tail last (by decide) rfl
    obtain ⟨told, u, x, parts, -, -, inOrder, -, leads⟩ := told _ _ run allowed_fall
    rw [← before] at inOrder
    refine ⟨told, _, parts, inOrder, fun v hv => ?_⟩
    obtain ⟨after, first⟩ := List.head?_eq_some_iff.mp hv
    exact leads [] v after first (by simp)

end HandleBridge
