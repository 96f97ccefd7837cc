/-
  HandleBridge.Proofs.ReportFrame — what the report of a deletion changes, and what it leaves alone.

  The observers of a deletion may do anything. Here they leave the bridge alone (`Op.LeavesAlone`):
  what they do of their own, with the toolkit or elsewhere, changes neither tables nor wrappers nor
  what is held, and makes no call across the boundary. What the report does by itself is then all that
  happens to the bridge:
  - `Runs.alone`: program code of this kind leaves the bridge as it is.
  - `World.TornDown`: one pair is gone from its registry, one wrapper has lost what invalidation
    clears, and its handle, and nothing else is different.
  - `World.unmapped_refused`, `unmapped_next`: a handle that leads nowhere leads nowhere until
    something is bound to it; a request for it that is refused does not count.
  - `reports_are_framed_and_idempotent`: a report does this once, and those that follow do nothing.
-/
import HandleBridge.Proofs.Concord
import HandleBridge.Proofs.Departure
import HandleBridge.Proofs.Registering

namespace HandleBridge

variable {k : Conduct}

/-! ## Code that leaves the bridge alone -/

namespace World

/-- The bridge: all but the toolkit and the calls in progress, and of the history the calls across
    the boundary. -/
def bridge (w : World) : World :=
  { w with toolkit := .start .synchronous, running := [], history := w.crossings.map .native, answer := .none }

/-- What is neither in a table nor a wrapper, nor held by an operation in progress. -/
def surroundings (w : World) : World :=
  { w.bridge with itemRegistry := .empty, bareRegistry := .empty, wrappers := ∅, pins := [] }

theorem crossings_bridge (w : World) : w.bridge.crossings = w.crossings := by
  simp only [bridge, crossings, List.filterMap_map, Function.comp_def, List.filterMap_some]

theorem bridge_congr {w w' : World} (h : w'.bridge = w.bridge) :
    w'.registry = w.registry ∧ w'.wrappers = w.wrappers ∧ w'.custody = w.custody ∧ w'.surroundings = w.surroundings := by
  have registries : w'.bridge.registry = w.bridge.registry := by rw [h]
  have wrappers : w'.bridge.wrappers = w.bridge.wrappers := by rw [h]
  have custody : w'.bridge.custody = w.bridge.custody := by rw [h]
  refine ⟨registries, wrappers, custody, ?_⟩
  simp only [surroundings, h]

end World

/-- Program code, and callbacks that the program has given to the toolkit. -/
def Job.OfProgram : Job → Prop
  | .act _ | .enter _ | .leave _ | .answer _ | .slot (.program _) _ | .signal (.program _) _ _ => True
  | _ => False

/-- The operation leaves the bridge as it is, and makes nothing due but program code. -/
def Op.LeavesAlone (w : World) (op : Op) : Prop :=
  (w.perform op).1.bridge = w.bridge ∧ ∀ j ∈ (w.perform op).2, j.OfProgram

theorem leavesAlone_createItem (w : World) : Op.createItem.LeavesAlone w := ⟨rfl, List.forall_mem_nil _⟩

/-- Every operation that is performed leaves the bridge alone. -/
def AllAlone (vs : List (Task × World)) : Prop :=
  ∀ v ∈ vs, ∀ choose, v.1.job = .act choose → (choose v.2).LeavesAlone v.2

theorem alone_expand (p : Program) {t : Task} {w : World} (ht : t.job.OfProgram)
    (alone : ∀ choose, t.job = .act choose → (choose w).LeavesAlone w) :
    (p.expand t w).1.bridge = w.bridge ∧ ∀ t' ∈ (p.expand t w).2, t'.job.OfProgram := by
  obtain ⟨level, job⟩ := t
  have single {j : Job} (hj : j.OfProgram) : ∀ t' ∈ [j].map (Task.mk level), t'.job.OfProgram := by
    intro t' hm
    obtain rfl := List.mem_singleton.mp hm
    exact hj
  cases job with
  | act choose =>
    obtain ⟨same, due⟩ := alone choose rfl
    refine ⟨same, fun t' hm => ?_⟩
    obtain ⟨j, hj, rfl⟩ := List.mem_map.mp hm
    exact due j hj
  | enter c =>
    cases level with
    | zero => exact ⟨rfl, nofun⟩
    | succ level =>
      refine ⟨rfl, fun t' hm => ?_⟩
      rcases List.mem_append.mp hm with hm | hm
      · obtain ⟨choose, -, rfl⟩ := List.mem_map.mp hm
        trivial
      · obtain rfl := List.mem_singleton.mp hm
        trivial
  | leave c => exact ⟨rfl, nofun⟩
  | answer a => exact ⟨rfl, nofun⟩
  | slot cb h =>
    cases cb with
    | program name => exact ⟨rfl, single trivial⟩
    | registry space => exact ht.elim
  | signal cb object info =>
    cases cb with
    | program name => exact ⟨rfl, single trivial⟩
    | trampoline t => exact ht.elim
  | _ => exact ht.elim

/-- Program code that leaves the bridge alone step by step leaves it alone altogether. -/
theorem Runs.alone {ts : List Task} {w w' : World} {vs : List (Task × World)} (run : Runs ts w vs w')
    (hts : ∀ t ∈ ts, t.job.OfProgram) (alone : AllAlone vs) : w'.bridge = w.bridge := by
  induction run with
  | done w => rfl
  | @task p t ts w w' vs _ ih =>
    obtain ⟨same, due⟩ := alone_expand p (hts t (List.mem_cons_self ..)) (alone (t, w) (List.mem_cons_self ..))
    refine Eq.trans (ih (fun t' hm => ?_) fun v hv => alone v (List.mem_cons_of_mem _ hv)) same
    rcases List.mem_append.mp hm with hm | hm
    · exact due t' hm
    · exact hts t' (List.mem_cons_of_mem _ hm)

/-! ## What a report does by itself -/

/-- A wrapper that has been invalidated. -/
def Wrapper.invalidated (x : Wrapper) : Wrapper :=
  match x.kind with
  | .probe .. => x
  | _ => x.cleared

/-- A wrapper after the deletion of `h` has been reported to it. -/
def Wrapper.bereft (x : Wrapper) (h : Handle) : Wrapper :=
  { x.invalidated with handle := if x.handle = h then .null else x.handle }

theorem Wrapper.handle_invalidated (x : Wrapper) : x.invalidated.handle = x.handle := by
  unfold invalidated
  split <;> rfl

theorem Wrapper.invalidated_item {x : Wrapper} (hs : x.space = .items) : x.invalidated = x.cleared := by
  cases hk : x.kind with
  | probe name bare => simp [space, hk] at hs
  | _ => simp only [invalidated, hk]

/-- An item is cleared, and holds nothing when it held nothing else. -/
theorem Wrapper.item_bereft {x : Wrapper} (hs : x.space = .items) (h : Handle) :
    (x.bereft h).space = .items ∧ (x.handle = .null ∨ x.handle = h → (x.bereft h).handle = .null) ∧
      (x.bereft h).contents = ∅ ∧ (x.bereft h).data = none := by
  have cleared := invalidated_item hs
  refine ⟨?_, fun hh => ?_, ?_, ?_⟩
  · show x.invalidated.space = .items
    rw [cleared, space_cleared, hs]
  · show (if x.handle = h then Handle.null else x.handle) = .null
    split
    · rfl
    · exact hh.resolve_right (by assumption)
  · show x.invalidated.contents = ∅
    rw [cleared]
    rfl
  · show x.invalidated.data = none
    rw [cleared]
    cases hk : x.kind <;> simp only [data, Wrapper.cleared, hk]

namespace World

/-- From `w` to `w'`, the pair of `id` and `h` has left the tables of its registry, and the wrapper
    that this led to, if it was there, is bereft. Nothing else has changed: no other entry and no
    other wrapper, neither the next id nor the handles that are being reported, nor the other
    registry, nor anything that is held; and no call has been made across the boundary. -/
structure TornDown (w : World) (space : Space) (h : Handle) (id : ItemId) (w' : World) : Prop where
  byId : ∀ i, (w'.registry space).byId.get? i = if i = id then none else (w.registry space).byId.get? i
  byHandle : ∀ a, (w'.registry space).byHandle.get? a = if a = h then none else (w.registry space).byHandle.get? a
  nextId : (w'.registry space).nextId = (w.registry space).nextId
  dying : (w'.registry space).dying = (w.registry space).dying
  other : ∀ s, s ≠ space → w'.registry s = w.registry s
  wrappers : ∀ a, w'.wrappers.get? a =
    if w.lookupId space id = some a then (w.wrappers.get? a).map (·.bereft h) else w.wrappers.get? a
  pins : w'.pins = w.pins
  surroundings : w'.surroundings = w.surroundings

theorem TornDown.crossings {w w' : World} {space : Space} {h : Handle} {id : ItemId} (t : w.TornDown space h id w') :
    w'.crossings = w.crossings := by
  have same := congrArg World.crossings t.surroundings
  rwa [show w'.surroundings.crossings = w'.bridge.crossings from rfl, crossings_bridge,
    show w.surroundings.crossings = w.bridge.crossings from rfl, crossings_bridge] at same

variable {w : World} {space : Space} {h : Handle} {id : ItemId} {ref : Ref}

/-- The report of `h` has begun. -/
def reporting (w : World) (space : Space) (h : Handle) (id : ItemId) : World :=
  (w.setRegistry space ((w.registry space).startDying h)).log (.nativeDelete id h)

theorem nativeDelete_eq (hd : h ∉ (w.registry space).dying) (hb : (w.registry space).byHandle.get? h = some id) :
    w.nativeDelete space h = match w.lookupId space id with
      | none => (w.reporting space h id, [.settle space h id none])
      | some ref => ((w.reporting space h id).pin (.wrapper ref),
        (w.reporting space h id).notifications ref ++ [.invalidate ref, .settle space h id (some ref)]) := by
  simp only [nativeDelete, hd, if_false, hb]
  rfl

theorem surroundings_setRegistry (w : World) (space : Space) (r : Registry) :
    (w.setRegistry space r).surroundings = w.surroundings := by
  cases space <;> rfl

theorem surroundings_reportEnd (w : World) (space : Space) (h : Handle) (id : ItemId) (wrapper : Option Ref) :
    (w.reportEnd space h id wrapper).surroundings = w.surroundings := by
  have ended := w.surroundings_setRegistry space ((w.registry space).endDying h id)
  have released (v : World) (b : Ref) : (v.releaseHandle b).surroundings = v.surroundings := by
    simp only [releaseHandle]
    split <;> rfl
  simp only [reportEnd]
  split
  · exact ended
  · split
    · split
      · exact (released _ _).trans ended
      · exact ended
    · exact ended

/-- Invalidation concerns the wrapper and nothing else. -/
theorem invalidate_frame (w : World) (ref : Ref) :
    (w.invalidate ref).1.registry = w.registry ∧ (w.invalidate ref).1.surroundings = w.surroundings ∧
      (∀ a, (w.invalidate ref).1.wrappers.get? a =
        if a = ref then (w.wrappers.get? a).map (·.invalidated) else w.wrappers.get? a) ∧
      ∀ j ∈ (w.invalidate ref).2, j.OfProgram := by
  -- what becomes of the wrapper `x` is what clearing it comes to
  have cleared {x : Wrapper} (hx : w.wrappers.get? ref = some x) (same : x.invalidated = x.cleared) (a : Ref) :
      (w.modifyWrapper ref (·.cleared)).wrappers.get? a =
        if a = ref then (w.wrappers.get? a).map (·.invalidated) else w.wrappers.get? a := by
    rw [modifyWrapper, Table.get?_modify]
    split
    · rename_i ha
      rw [ha, hx, Option.map_some, Option.map_some, same]
    · rfl
  have still {x : Option Wrapper} (hx : w.wrappers.get? ref = x) (same : x.map (·.invalidated) = x) (a : Ref) :
      w.wrappers.get? a = if a = ref then (w.wrappers.get? a).map (·.invalidated) else w.wrappers.get? a := by
    split
    · rename_i ha
      rw [ha, hx, same]
    · rfl
  unfold invalidate
  split
  · rename_i hx
    exact ⟨rfl, rfl, still hx rfl, List.forall_mem_nil _⟩
  · rename_i x hx
    split
    · rename_i hk
      exact ⟨rfl, rfl, cleared hx (by simp only [Wrapper.invalidated, hk]), List.forall_mem_nil _⟩
    · rename_i data hk
      exact ⟨rfl, rfl, cleared hx (by simp only [Wrapper.invalidated, hk]), List.forall_mem_nil _⟩
    · rename_i name bare hk
      refine ⟨rfl, rfl, still hx (by simp only [Option.map_some, Wrapper.invalidated, hk]), fun j hj => ?_⟩
      split at hj
      · cases hj
      · obtain rfl := List.mem_singleton.mp hj
        trivial

/-- The end of a report lets go of its wrapper, and when something else holds that, it stays. -/
theorem settle_frame (space : Space) (h : Handle) (id : ItemId)
    (held : { w with pins := w.pins.erase (.wrapper ref) }.isHeld ref = true) :
    (w.settle space h id (some ref)).core = (w.settled space h id (some ref)).core ∧
      (w.settle space h id (some ref)).pins = w.pins.erase (.wrapper ref) ∧
      (w.settle space h id (some ref)).surroundings = w.surroundings := by
  let ended := w.reportEnd space h id (some ref)
  let left : World := { ended with pins := ended.pins.erase (.wrapper ref) }
  have hc := w.custody_reportEnd space h id (some ref)
  have names : ended.itemNames = w.itemNames := congrArg (·.2.1) hc
  have probes : ended.probeNames = w.probeNames := congrArg (·.2.2.1) hc
  have pins : ended.pins = w.pins := congrArg (·.2.2.2) hc
  have kept : left.isHeld ref = true := by
    simp only [left, isHeld, isNamed, names, probes, pins]
    exact held
  have settled : w.settle space h id (some ref) = left := release_of_held kept
  rw [settled]
  exact ⟨w.core_reportEnd space h id (some ref), congrArg (List.erase · _) pins,
    w.surroundings_reportEnd space h id (some ref)⟩

theorem registry_reporting (w : World) (space : Space) (h : Handle) (id : ItemId) (s : Space) :
    (w.reporting space h id).registry s = if s = space then (w.registry space).startDying h else w.registry s :=
  w.registry_setRegistry space s ((w.registry space).startDying h)

/-- A report ends in a world that has changed, since it began, by the invalidation of its wrapper. -/
theorem torn_down_of_settled (ho : w.Ordered) (hd : h ∉ (w.registry space).dying)
    (hb : (w.registry space).byHandle.get? h = some id) {u v : World}
    (registry : u.registry = (w.reporting space h id).registry)
    (wrappers : ∀ a, u.wrappers.get? a =
      if w.lookupId space id = some a then (w.wrappers.get? a).map (·.invalidated) else w.wrappers.get? a)
    (core : v.core = (u.settled space h id (w.lookupId space id)).core) (pins : v.pins = w.pins)
    (surroundings : v.surroundings = w.surroundings) : w.TornDown space h id v := by
  obtain ⟨-, hreg, hwrap, -⟩ := core_eq core
  have now (s : Space) : v.registry s =
      if s = space then ((w.registry space).startDying h).endDying h id else w.registry s := by
    rw [hreg, registry_settled, registry, registry_reporting, if_pos rfl]
    split
    · rfl
    · rw [registry_reporting, if_neg (by assumption)]
  -- the entry of `id` is the one that holds `h`
  have here : ((w.registry space).startDying h).isElsewhere id h = false := by
    obtain ⟨-, e, he, hh⟩ := ((ho.coherent space).mapped_iff h id).mp hb
    show (w.registry space).isElsewhere id h = false
    simp only [Registry.isElsewhere, he, hh, ne_eq, not_true_eq_false, decide_false]
  refine ⟨fun i => ?_, fun a => ?_, ?_, ?_, fun s hs => ?_, fun a => ?_, pins, surroundings⟩
  · rw [now, if_pos rfl, Registry.byId_endDying, here]
    simp only [and_true]
    rfl
  · have mapped : ((w.registry space).startDying h).byHandle.get? h = some id := hb
    rw [now, if_pos rfl, Registry.byHandle_endDying, mapped]
    simp only [and_true]
    rfl
  · rw [now, if_pos rfl, Registry.nextId_endDying]
    rfl
  · rw [now, if_pos rfl, Registry.dying_endDying]
    show (h :: (w.registry space).dying).filter (· ≠ h) = _
    rw [List.filter_cons_of_neg (by simp), List.filter_eq_self]
    intro a ha
    exact decide_eq_true fun e => hd (e ▸ ha)
  · rw [now, if_neg hs]
  · rw [hwrap, wrapper_settled, registry, registry_reporting, if_pos rfl, here, wrappers]
    by_cases ha : w.lookupId space id = some a
    · have handle : u.handleOf a = w.handleOf a := by
        rw [handleOf, wrappers, if_pos ha, Option.map_map, handleOf]
        simp only [Function.comp_def, Wrapper.handle_invalidated]
      rw [if_pos ha, if_pos ha, handle]
      rcases hx : w.wrappers.get? a with _ | x
      · simp
      · simp only [ha, true_and, handleOf_eq hx, Option.map_some, Wrapper.bereft]
        split
        · rfl
        · rw [← x.handle_invalidated]
    · simp only [ha, false_and, if_false]

end World

/-- The report of a deletion is its opening, what the observers do, the invalidation, and its end. -/
theorem Runs.report_parts {w w' : World} {level : Nat} {space : Space} {h : Handle} {id : ItemId} {ref : Ref}
    {vs : List (Task × World)} (run : Runs [⟨level, .nativeDelete space h⟩] w vs w') (hd : h ∉ (w.registry space).dying)
    (hb : (w.registry space).byHandle.get? h = some id) (found : w.lookupId space id = some ref) :
    ∃ told u cleared v, vs = (⟨level, .nativeDelete space h⟩, w) ::
        (told ++ ((⟨level, .invalidate ref⟩, u) :: cleared ++ [(⟨level, .settle space h id (some ref)⟩, v)])) ∧
      Runs (((w.reporting space h id).notifications ref).map (Task.mk level)) ((w.reporting space h id).pin (.wrapper ref))
        told u ∧
      Runs ((u.invalidate ref).2.map (Task.mk level)) (u.invalidate ref).1 cleared v ∧
      w' = v.settle space h id (some ref) := by
  cases run with
  | @task p _ _ _ _ vs run =>
    change Runs ((w.nativeDelete space h).2.map (Task.mk level) ++ []) (w.nativeDelete space h).1 vs w' at run
    rw [World.nativeDelete_eq hd hb, found, List.append_nil, List.map_append] at run
    obtain ⟨told, u, ending, observers, rest, rfl⟩ := run.split _ _
    cases rest with
    | @task p _ _ _ _ vs rest =>
      change Runs ((u.invalidate ref).2.map (Task.mk level) ++ [⟨level, .settle space h id (some ref)⟩]) _ vs w' at rest
      obtain ⟨cleared, v, last, invalidation, ended, rfl⟩ := rest.split _ _
      cases ended with
      | task p ended =>
        cases ended
        exact ⟨told, u, cleared, v, rfl, observers, invalidation, rfl⟩

theorem Runs.report_without {w w' : World} {level : Nat} {space : Space} {h : Handle} {id : ItemId} {vs : List (Task × World)}
    (run : Runs [⟨level, .nativeDelete space h⟩] w vs w') (hd : h ∉ (w.registry space).dying)
    (hb : (w.registry space).byHandle.get? h = some id) (gone : w.lookupId space id = none) :
    vs.map (·.1.job) = [.nativeDelete space h, .settle space h id none] ∧
      w' = (w.reporting space h id).settle space h id none := by
  cases run with
  | @task p _ _ _ _ vs run =>
    change Runs ((w.nativeDelete space h).2.map (Task.mk level) ++ []) (w.nativeDelete space h).1 vs w' at run
    rw [World.nativeDelete_eq hd hb, gone] at run
    cases run with
    | task p run =>
      cases run
      exact ⟨rfl, rfl⟩

/-- A report whose observers leave the bridge alone. -/
theorem Runs.torn_down {w w' : World} {level : Nat} {space : Space} {h : Handle} {id : ItemId} {ts : List Task}
    {vs : List (Task × World)} (run : Runs [⟨level, .nativeDelete space h⟩] w vs w')
    (hr : Reach k ⟨w, ⟨level, .nativeDelete space h⟩ :: ts⟩) (alone : AllAlone vs) (hd : h ∉ (w.registry space).dying)
    (hb : (w.registry space).byHandle.get? h = some id) : w.TornDown space h id w' := by
  let u₀ := w.reporting space h id
  have surroundings : u₀.surroundings = w.surroundings := w.surroundings_setRegistry space _
  have custody : u₀.custody = w.custody := w.custody_setRegistry space _
  have wrappers : u₀.wrappers = w.wrappers := w.wrappers_setRegistry space _
  rcases found : w.lookupId space id with _ | ref
  · obtain ⟨-, rfl⟩ := run.report_without hd hb found
    have ended := (u₀.custody_reportEnd space h id none).trans custody
    refine World.torn_down_of_settled hr.ordered hd hb (u := u₀) rfl (fun a => ?_) ?_ (congrArg (·.2.2.2) ended)
      ((u₀.surroundings_reportEnd space h id none).trans surroundings)
    · rw [wrappers, found, if_neg (by simp)]
    · rw [found]
      exact u₀.core_reportEnd space h id none
  · obtain ⟨told, u, cleared, v, rfl, observers, invalidation, rfl⟩ := run.report_parts hd hb found
    have by_program : ∀ t ∈ (u₀.notifications ref).map (Task.mk level), t.job.OfProgram := by
      intro t ht
      obtain ⟨j, hj, rfl⟩ := List.mem_map.mp ht
      obtain ⟨c, rfl⟩ := World.mem_notifications hj
      trivial
    obtain ⟨registries, rest, invalidated, due⟩ := u.invalidate_frame ref
    have by_observers : ∀ t ∈ (u.invalidate ref).2.map (Task.mk level), t.job.OfProgram := by
      intro t ht
      obtain ⟨j, hj, rfl⟩ := List.mem_map.mp ht
      exact due j hj
    obtain ⟨told_reg, told_wrap, told_cust, told_rest⟩ :=
      World.bridge_congr (observers.alone by_program fun x hx => alone x (by simp [hx]))
    obtain ⟨cleared_reg, cleared_wrap, cleared_cust, cleared_rest⟩ :=
      World.bridge_congr (invalidation.alone by_observers fun x hx => alone x (by simp [hx]))
    -- what held the wrapper when the report began still holds it
    have pinned : v.custody = (w.pin (.wrapper ref)).custody :=
      cleared_cust.trans ((u.custody_invalidate ref).trans (told_cust.trans
        (congrArg (fun c => (c.1, c.2.1, c.2.2.1, .wrapper ref :: c.2.2.2)) custody)))
    have pins : v.pins = .wrapper ref :: w.pins := congrArg (·.2.2.2) pinned
    have unpinned : v.pins.erase (.wrapper ref) = w.pins := by rw [pins, List.erase_cons_head]
    have held : { v with pins := v.pins.erase (.wrapper ref) }.isHeld ref = true := by
      have before : { v with pins := v.pins.erase (.wrapper ref) }.custody = w.custody := by
        rw [unpinned]
        exact congrArg (fun c => (c.1, c.2.1, c.2.2.1, w.pins)) pinned
      rw [World.isHeld_congr before]
      exact hr.custody.tended ref (by simp) (World.live_of_lookupId found)
    obtain ⟨core, pins', surroundings'⟩ := v.settle_frame space h id held
    refine World.torn_down_of_settled hr.ordered hd hb (u := v) (cleared_reg.trans (registries.trans told_reg)) (fun a => ?_)
      (found ▸ core) (pins'.trans unpinned) (surroundings'.trans (cleared_rest.trans (rest.trans (told_rest.trans surroundings))))
    rw [cleared_wrap, invalidated, told_wrap]
    show (if a = ref then (u₀.wrappers.get? a).map _ else u₀.wrappers.get? a) = _
    simp only [wrappers, found, Option.some.injEq, eq_comm]

/-! ## Until something is bound to the handle -/

/-- The operation binds a wrapper of the registry to `h`, or makes a cell for `h`, and succeeds. -/
def Op.Takes (w : World) (space : Space) (h : Handle) : Op → Prop
  | .bind ref a | .register ref a => a = h ∧ w.spaceOf ref = space ∧ (w.register ref a).2 = none
  | .newGrid a data name => a = h ∧ space = .items ∧ ∃ id, (w.newGrid a data name).answer = .id id
  | _ => False

def State.Takes (c : State) (space : Space) (h : Handle) : Prop := ∃ op, c.op? = some op ∧ op.Takes c.world space h

/-- The operation asks for a binding, or for a cell that has `h`, and may be refused. -/
def Op.AsksFor (space : Space) (h : Handle) (op : Op) : Prop :=
  (∃ ref, op.binds? = some ref) ∨ space = .items ∧ ∃ data name, op = .newGrid h data name

/-- Nothing is bound but new items, and none to `h` if that is about items. -/
def Conduct.sparing (space : Space) (h : Handle) : Conduct :=
  { Conduct.unbinding with target := fun _ a => space = .items → a ≠ h }

theorem Conduct.permits_sparing {w : World} {space : Space} {h : Handle} {op : Op} (calm : ¬ op.AsksFor space h) :
    (Conduct.sparing space h).Permits w op := by
  cases op with
  | register ref a => exact absurd (Or.inl ⟨ref, rfl⟩) calm
  | bind ref a => exact absurd (Or.inl ⟨ref, rfl⟩) calm
  | newGrid a data name => exact ⟨rfl, fun hs e => calm (Or.inr ⟨hs, data, name, e ▸ rfl⟩)⟩
  | native c => cases c <;> trivial
  | createItem | createObject => exact Or.inl trivial
  | _ => trivial

namespace World

variable {w w' : World} {space : Space} {h : Handle}

/-- What was mapped to nothing still is when nothing has come into the table. -/
theorem unmapped_fewer (hn : (w.registry space).byHandle.get? h = none)
    (fewer : ∀ i, (w'.registry space).byHandle.get? h = some i → (w.registry space).byHandle.get? h = some i) :
    (w'.registry space).byHandle.get? h = none := by
  refine Option.eq_none_iff_forall_ne_some.mpr fun i hi => ?_
  have was := fewer i hi
  rw [hn] at was
  cases was

/-- Who has a handle after a binding had it before, or has been bound to it. -/
theorem mapped_attach (ho : w.Ordered) {ref : Ref} {a : Handle} (hc : w.CanAttach ref a) {i : ItemId}
    (hb : ((w.attach ref a).registry space).byHandle.get? h = some i) :
    (w.registry space).byHandle.get? h = some i ∨ (a = h ∧ w.spaceOf ref = space) ∧ i = w.idOf ref := by
  rw [registry_attach] at hb
  split at hb
  · rename_i hs
    have unbound := hc.2
    rw [← hs] at unbound
    rw [(Registry.tables_bind (ho.coherent space) unbound ref).2.1] at hb
    split at hb
    · rename_i same
      exact Or.inr ⟨⟨same.1.symm, hs.symm⟩, (Option.some.inj hb).symm⟩
    · split at hb
      · cases hb
      · exact Or.inl hb
  · exact Or.inl hb

theorem mapped_register (ho : w.Ordered) {ref : Ref} {a : Handle} {i : ItemId}
    (hb : ((w.register ref a).1.registry space).byHandle.get? h = some i) :
    (w.registry space).byHandle.get? h = some i ∨
      (a = h ∧ w.spaceOf ref = space ∧ (w.register ref a).2 = none) ∧ i = w.idOf ref := by
  rcases w.register_cases ref a with ⟨-, hc⟩ | ⟨-, hc, -⟩ | ⟨accepted, can, hc⟩
  · rw [(core_eq hc).2.1] at hb
    exact Or.inl hb
  · rw [(core_eq hc).2.1] at hb
    exact Or.inl hb
  · rw [(core_eq hc).2.1] at hb
    exact (mapped_attach ho can hb).imp_right fun ⟨⟨same, hs⟩, hi⟩ => ⟨⟨same, hs, accepted⟩, hi⟩

theorem item_bind {ref : Ref} {x : Wrapper} (hx : w.IsItem ref x) (a : Handle) :
    ∃ y, (w.bind ref a).1.IsItem ref y ∧ y.id = x.id := by
  have wrappers := w.wrappers_register ref a
  rcases hr : (w.register ref a).2 with _ | e
  · rw [bind_accepted hr]
    refine ⟨{ x with handle := a }, ⟨?_, hx.2⟩, rfl⟩
    simp only [setHandle, modifyWrapper, Table.get?_modify, if_true, wrappers, hx.1, Option.map_some]
  · rw [bind_refused hr]
    exact ⟨x, ⟨by rw [wrappers, hx.1], hx.2⟩, rfl⟩

/-- A new item that nothing holds leaves no pair behind, whether it was given a handle or not. -/
theorem unmapped_dropped (loose : w.isHeld w.freshRef = false) (hn : (w.registry .items).byHandle.get? h = none) {x : Wrapper}
    (hs : x.space = .items) (ho : (w.addWrapper x).Ordered) (a : Handle) :
    ((((w.addWrapper x).bind w.freshRef a).1.release w.freshRef).registry .items).byHandle.get? h = none := by
  let bound := ((w.addWrapper x).bind w.freshRef a).1
  have made : (w.addWrapper x).IsItem w.freshRef x := ⟨(Table.get?_insert _ _ _ _).trans (if_pos rfl), hs⟩
  have ordered : bound.Ordered :=
    ((w.addWrapper x).moves_bind (k := .free) w.freshRef a (isLive_addWrapper w x) trivial trivial).keeps
      (fun _ _ ho hm => ordered_move ho hm) ho
  obtain ⟨y, item, same⟩ := item_bind made a
  have unheld : bound.isHeld w.freshRef = false := (isHeld_congr (custody_bind _ _ _) _).trans loose
  rw [(departs_release ordered item unheld).byHandle]
  split
  · rfl
  · -- only the item that goes has come into the table
    rename_i other
    refine Option.eq_none_iff_forall_ne_some.mpr fun i hi => ?_
    rw [registry_bind] at hi other
    rcases mapped_register ho hi with before | ⟨-, rfl⟩
    · cases hn.symm.trans before
    · exact other (hi.trans (congrArg some ((idOf_eq made.1).trans same.symm)))

/-- A cell that could not be made does not have the handle. -/
theorem unmapped_newGrid (ho : w.Ordered) (loose : w.isHeld w.freshRef = false)
    (hn : (w.registry .items).byHandle.get? h = none) {data : RowData} {name : Option String}
    (failed : ∀ id, (w.newGrid h data name).answer ≠ .id id) :
    ((w.newGrid h data name).registry .items).byHandle.get? h = none := by
  rcases ha : (w.registry .items).allocate? with _ | ⟨id, r⟩
  · simp only [newGrid, withFreshId, ha]
    exact hn
  · let counted := w.setRegistry .items r
    let x : Wrapper := .fresh id (.grid (some data))
    have ordered : (counted.addWrapper x).Ordered := ordered_move (k := .free) ho (.create w .items id r _ ha rfl)
    have unmapped : (counted.registry .items).byHandle.get? h = none := by
      obtain ⟨-, rfl⟩ := Registry.allocate_eq ha
      exact hn
    have dropped := unmapped_dropped (w := counted) (x := x) loose unmapped rfl ordered h
    simp only [newGrid, withFreshId, ha] at failed ⊢
    revert dropped failed
    rcases (counted.addWrapper x).bind counted.freshRef h with ⟨u, _ | e⟩
    · rcases name with _ | name
      · exact fun dropped _ => dropped
      · exact fun _ failed => absurd rfl (failed id)
    · exact fun dropped _ => dropped

/-- A handle that leads nowhere still does when an operation has asked for it and not taken it. -/
theorem unmapped_refused (ho : w.Ordered) (loose : w.isHeld w.freshRef = false)
    (hn : (w.registry space).byHandle.get? h = none) {op : Op} (asks : op.AsksFor space h) (untaken : ¬ op.Takes w space h) :
    ((w.perform op).1.registry space).byHandle.get? h = none := by
  rcases asks with ⟨ref, asks⟩ | ⟨rfl, data, name, rfl⟩
  · cases op with
    | register b a =>
      rw [perform, registry_ofResult]
      exact unmapped_fewer hn fun i hi => (mapped_register ho hi).resolve_right fun e => untaken e.1
    | bind b a =>
      rw [perform, registry_ofResult, registry_bind]
      exact unmapped_fewer hn fun i hi => (mapped_register ho hi).resolve_right fun e => untaken e.1
    | _ => cases asks
  · exact unmapped_newGrid ho loose hn fun id made => untaken ⟨rfl, rfl, id, made⟩

theorem unmapped_move (ho : w.Ordered) (hn : (w.registry space).byHandle.get? h = none)
    (hm : Move (.sparing space h) w w') : (w'.registry space).byHandle.get? h = none := by
  cases hm with
  | aside hc =>
    rw [(core_eq hc).2.1]
    exact hn
  | allocate s id r ha =>
    obtain ⟨rfl, rfl⟩ := Registry.allocate_eq ha
    rw [registry_setRegistry]
    split
    · rename_i hs
      exact hs ▸ hn
    · exact hn
  | create s id r kind ha _ =>
    obtain ⟨rfl, rfl⟩ := Registry.allocate_eq ha
    change ((w.setRegistry _ _).registry space).byHandle.get? h = none
    rw [registry_setRegistry]
    split
    · rename_i hs
      exact hs ▸ hn
    · exact hn
  | free ref x hx hh => exact unmapped_fewer hn fun i => (w.release_sheds ref space).1 h i
  | attach ref a _ hk _ => exact hk.elim
  | rebind ref a _ hk ht hc =>
    have items : w.spaceOf ref = .items := hk
    exact unmapped_fewer hn fun i hi => (mapped_attach ho hc hi).resolve_right fun e => ht (e.1.2.symm.trans items) e.1.1
  | forget s id _ => exact unmapped_fewer hn fun i => (w.forget_sheds s id space).1 h i
  | _ => exact hn

end World

/-- What leads nowhere leads nowhere after a turn that binds nothing to it. -/
theorem unmapped_turn {space : Space} {h : Handle} {c c' : State} (hs : Turn (.sparing space h) c c')
    (ho : c.world.Ordered) (ht : c.world.Tracked) (hn : (c.world.registry space).byHandle.get? h = none) :
    (c'.world.registry space).byHandle.get? h = none := by
  refine hs.keeps_in_order (I := fun v => (v.registry space).byHandle.get? h = none) ho ht
    (fun v v' ho _ hv hm => World.unmapped_move ho hv hm) (fun v t hv => hv) (fun v s a hv => ?_)
    (fun v s a id wrapper hv => World.unmapped_fewer hv fun i hi => ?_) hn
  · rw [World.registry_setRegistry]
    split
    · rename_i hs
      exact hs ▸ hv
    · exact hv
  · rw [World.registry_settled] at hi
    split at hi
    · rename_i hs
      rw [Registry.byHandle_endDying] at hi
      split at hi
      · cases hi
      · exact hs ▸ hi
    · exact hi

/-- A handle leads nowhere until something is bound to it. -/
theorem unmapped_next {space : Space} {h : Handle} {s s' : State} (hr : Reach k s) (hs : Next k s s')
    (untaken : ¬ s.Takes space h) (hn : (s.world.registry space).byHandle.get? h = none) :
    (s'.world.registry space).byHandle.get? h = none := by
  cases hs with
  | call w level choose => exact hn
  | turn ht =>
    obtain ⟨p, w, t, ts, ok⟩ := ht
    by_cases asks : ∃ choose, t.job = .act choose ∧ (choose w).AsksFor space h
    · obtain ⟨level, job⟩ := t
      obtain ⟨choose, rfl, asks⟩ := asks
      exact World.unmapped_refused hr.ordered hr.freshRef_loose hn asks fun e => untaken ⟨_, rfl, e⟩
    · have turn : Turn (.sparing space h) ⟨w, t :: ts⟩ ⟨(p.expand t w).1, (p.expand t w).2 ++ ts⟩ :=
        .mk p w t ts fun choose hc => ⟨(ok choose hc).1, Conduct.permits_sparing fun e => asks ⟨choose, hc, e⟩⟩
      exact unmapped_turn turn hr.ordered hr.tracked hn

/-- In any state of a run, a registry is told that `h` has been destroyed, which is not being reported
    already. The call comes to its end, given that calls nest no deeper than the program's limit;
    suppose that the observers of the deletion leave the bridge alone.
    - If `h` is bound, the report takes the pair away and makes its wrapper bereft, and that is all
      that has happened to the bridge; where the wrapper is not there any more, none of its code
      has run. An item has no handle then, no contents in its cache and no data, if it agreed with
      its entry before, which an item does unless it is registered past its binding.
    - If `h` is not bound, the report is noted, and nothing else happens.
    - From then on, until something is bound to `h`, a report of `h` is noted and nothing else. -/
theorem reports_are_framed_and_idempotent {k : Conduct} {w : World} {ts : List Task} {level : Nat} {space : Space} {h : Handle}
    (hr : Reach k ⟨w, ⟨level, .nativeDelete space h⟩ :: ts⟩) (fresh : h ∉ (w.registry space).dying) :
    (∀ p : Program, ∃ vs, Runs [⟨level, .nativeDelete space h⟩] w vs (p.run ⟨level, .nativeDelete space h⟩ w)) ∧
    ∀ vs w', Runs [⟨level, .nativeDelete space h⟩] w vs w' → AllAllowed k vs → AllAlone vs →
      (∀ id, (w.registry space).byHandle.get? h = some id →
        w.TornDown space h id w' ∧ w'.crossings = w.crossings ∧
        (w.lookupId space id = none → vs.map (·.1.job) = [.nativeDelete space h, .settle space h id none]) ∧
        ∀ ref, space = .items → w.lookupId space id = some ref → (k.registers .items → w.Agrees ref) →
          ∃ y, w'.IsItem ref y ∧ y.handle = .null ∧ y.contents = ∅ ∧ y.data = none) ∧
      ((w.registry space).byHandle.get? h = none →
        vs = [(⟨level, .nativeDelete space h⟩, w)] ∧ w' = w.log (.unboundDelete h)) ∧
      ∀ s, Avoids k (·.Takes space h) ⟨w', ts⟩ s → s.world.nativeDelete space h = (s.world.log (.unboundDelete h), []) := by
  refine ⟨fun p => p.runs_run _ w, fun vs w' run ok alone => ⟨fun id hb => ?_, fun hn => run.unheeded (Or.inr hn), ?_⟩⟩
  · have torn := run.torn_down hr alone fresh hb
    refine ⟨torn, torn.crossings, fun gone => (run.report_without fresh hb gone).1, ?_⟩
    rintro ref rfl found beside
    obtain ⟨e, he, rfl⟩ := hr.tracked.lookupId_iff.mp found
    obtain ⟨x, hx, rfl⟩ := hr.tracked.item hr.ordered he
    have bereft : w'.wrappers.get? e.wrapper = some (x.bereft h) := by
      rw [torn.wrappers, if_pos found, hx.1]
      rfl
    obtain ⟨-, e', he', hh⟩ := ((hr.ordered.coherent .items).mapped_iff h x.id).mp hb
    obtain rfl := Option.some.inj (he.symm.trans he')
    have agrees : w.Agrees e.wrapper := by
      by_cases hk : k.registers .items
      · exact beside hk
      · exact hr.concordant hk e.wrapper
    obtain ⟨space, handle, contents, data⟩ := Wrapper.item_bereft hx.2 h
    exact ⟨x.bereft h, ⟨bereft, space⟩, handle (hh ▸ agrees x e hx he), contents, data⟩
  · have unmapped : (w'.registry space).byHandle.get? h = none := by
      rcases hb : (w.registry space).byHandle.get? h with _ | id
      · obtain ⟨-, rfl⟩ := run.unheeded (Or.inr hb)
        exact hb
      · rw [(run.torn_down hr alone fresh hb).byHandle, if_pos rfl]
    intro s later
    obtain ⟨-, still⟩ := later.keeps (I := fun c => (c.world.registry space).byHandle.get? h = none) (Reach.finish run hr ok)
      (fun c c' reach step untaken => unmapped_next reach step untaken) unmapped
    exact World.nativeDelete_ignored (Or.inr still)

/-- Told of a deletion, it has the toolkit make another item, and leaves the bridge alone. -/
def restocker : Program where
  limit := 4
  body
    | .deleted .. => [fun _ => .createItem]
    | _ => []

/-- The object of the first item has been destroyed, and the registry is about to be told. -/
def unsuspecting : State := State.after restocker 2 destroying

/-- What happens when it is told. -/
def restocking : List (Task × World) := restocker.trace 6 ⟨unsuspecting.world, [⟨4, .nativeDelete .items ⟨0x1000⟩⟩]⟩

def restocked : World := (State.after restocker 6 ⟨unsuspecting.world, [⟨4, .nativeDelete .items ⟨0x1000⟩⟩]⟩).world

theorem reach_unsuspecting : Reach .free unsuspecting := by
  have due := (reach_beforeHandover.call 4 (fun _ => .destroy ⟨0x1000⟩)).perform restocker ⟨trivial, trivial⟩
  exact due.quiet restocker (by simp)

theorem restocking_is_aloof : AllAllowed .free restocking ∧ AllAlone restocking := by
  constructor
  all_goals
    intro v hv choose hc
    repeat' rcases hv with _ | ⟨_, hv⟩
    all_goals cases hc
  · exact ⟨trivial, Or.inl trivial⟩
  · exact leavesAlone_createItem _

/-- The first item has lost its handle, the toolkit has a new item, and a second report of the old
    one comes to nothing. -/
theorem the_bridge_loses_one_pair :
    unsuspecting.world.TornDown .items ⟨0x1000⟩ ⟨0⟩ restocked ∧ restocked.handleOf ⟨0⟩ = .null ∧
      restocked.toolkit.items.contains ⟨0x1020⟩ = true ∧
      restocked.nativeDelete .items ⟨0x1000⟩ = (restocked.log (.unboundDelete ⟨0x1000⟩), []) := by
  have run : Runs _ _ restocking restocked := restocker.runs_trace rfl
  have hr : Reach .free ⟨unsuspecting.world, ⟨4, .nativeDelete .items ⟨0x1000⟩⟩ :: unsuspecting.tasks.tail⟩ := reach_unsuspecting
  obtain ⟨-, report⟩ := reports_are_framed_and_idempotent hr (by decide)
  obtain ⟨found, -, later⟩ := report _ _ run restocking_is_aloof.1 restocking_is_aloof.2
  exact ⟨(found ⟨0⟩ rfl).1, by decide, by decide, later ⟨restocked, unsuspecting.tasks.tail⟩ .refl⟩

end HandleBridge
