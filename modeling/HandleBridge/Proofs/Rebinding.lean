/-
  HandleBridge.Proofs.Rebinding — an item that is bound anew while its deletion is under way.

  A handler of a deletion may bind the item to another object. What it bound the item to last is
  the item's binding from then on, until something takes it back (`TakesBack`), and the end of the
  report leaves it alone:
  - `Runs.last_binding`: a binding that nothing takes back is there when the run has ended.
  - `a_report_keeps_what_its_handlers_bind`: a report takes the item away from the deleted object
    whatever the handlers do, and keeps what they have bound it to.

  When the deletion is one that the program has asked the item for, the item loses its handle after
  the report has ended, also if it is bound to another object by then:
  - `deleting_takes_the_new_handle`: the entry stays, and leads from the new object to an item that
    says it is deleted.
-/
import HandleBridge.Proofs.Binding
import HandleBridge.Proofs.Stock

namespace HandleBridge

variable {k : Conduct}

/-! ## What a turn does to a binding -/

def Performs (v : Task × World) (op : Op) : Prop := ∃ choose, v.1.job = .act choose ∧ choose v.2 = op

@[simp] theorem performs_act {level : Nat} {choose : World → Op} {w : World} {op : Op} :
    Performs (⟨level, .act choose⟩, w) op ↔ choose w = op := by
  constructor
  · rintro ⟨choose', hj, ho⟩
    cases hj
    exact ho
  · intro ho
    exact ⟨choose, rfl, ho⟩

/-- The item is bound to `a`; the registry does not refuse. -/
def Binds (v : Task × World) (ref : Ref) (a : Handle) : Prop :=
  Performs v (.bind ref a) ∧ (v.2.register ref a).2 = none

/-- The item is registered without being given the handle. -/
def Registers (v : Task × World) (ref : Ref) : Prop :=
  ∃ a, Performs v (.register ref a) ∧ (v.2.register ref a).2 = none

/-- The binding of the item to `a` is superseded, forgotten, or ends with a report of `a`. -/
def TakesBack (v : Task × World) (ref : Ref) (id : ItemId) (a : Handle) : Prop :=
  (∃ b, Binds v ref b) ∨ Registers v ref ∨ Performs v (.forget .items id) ∨
    ∃ wrapper, v.1.job = .settle .items a id wrapper

/-- Every operation that is performed is one that can be written. -/
def AllAllowed (k : Conduct) (vs : List (Task × World)) : Prop :=
  ∀ v ∈ vs, ∀ choose, v.1.job = .act choose → k.Allows v.2 (choose v.2)

theorem takesBack_of_undoes {v : Task × World} {ref : Ref} {id : ItemId} {a : Handle} (h : v.1.job.Undoes v.2 ref id a)
    (hr : v.1.job ≠ .releaseHandle ref) : TakesBack v ref id a := by
  obtain ⟨⟨level, job⟩, w⟩ := v
  cases job with
  | act choose =>
    change (choose w).Unsettles w ref id at h
    generalize ho : choose w = op at h
    cases op with
    | bind b c =>
      obtain ⟨rfl, accepted⟩ := h
      exact Or.inl ⟨c, ⟨choose, rfl, ho⟩, accepted⟩
    | register b c =>
      obtain ⟨rfl, accepted⟩ := h
      exact Or.inr (Or.inl ⟨c, ⟨choose, rfl, ho⟩, accepted⟩)
    | forget space i =>
      obtain ⟨rfl, rfl⟩ := h
      exact Or.inr (Or.inr (Or.inl ⟨choose, rfl, ho⟩))
    | _ => exact h.elim
  | settle space h i wrapper =>
    obtain ⟨rfl, rfl, rfl⟩ := h
    exact Or.inr (Or.inr (Or.inr ⟨wrapper, rfl⟩))
  | releaseHandle b => exact absurd (congrArg Job.releaseHandle h) hr
  | _ => exact h.elim

/-- Only a delete of the item takes its handle in the end. -/
theorem Runs.delete_of_releaseHandle {ts : List Task} {w w' : World} {vs : List (Task × World)} (h : Runs ts w vs w') {ref : Ref}
    {v : Task × World} (hv : v ∈ vs) (hr : v.1.job = .releaseHandle ref) :
    v.1 ∈ ts ∨ ∃ u ∈ vs, Performs u (.delete ref) := by
  refine h.sprung (P := fun j => j = .releaseHandle ref) (fun p t u j hj e => ?_) v hv hr
  subst e
  obtain ⟨choose, ht, hm⟩ := asked_of_mem_expand hj trivial
  rcases World.op_of_asked hm trivial with ⟨-, other⟩ | ⟨b, ho, e⟩
  · exact absurd rfl (other ref)
  · cases e
    exact ⟨choose, ht, ho⟩

theorem World.holds_perform {w : World} (ho : w.Ordered) (ht : w.Tracked) {ref : Ref} {x : Wrapper} (hx : w.IsItem ref x)
    {a : Handle} (accepted : (w.register ref a).2 = none) : (w.perform (.bind ref a)).1.Holds ref x.id a := by
  have holds := World.holds_bind ho ht hx accepted
  rw [World.bind_accepted accepted] at holds
  rw [World.perform, World.bind_accepted accepted]
  exact ⟨holds.item, holds.entry⟩

theorem World.handleOf_of_holds {w : World} {ref : Ref} {id : ItemId} {a : Handle} (h : w.Holds ref id a) :
    w.handleOf ref = a := by
  obtain ⟨x, hx, -, hh⟩ := h.item
  rw [handleOf_eq hx.1, hh]

/-- An item is bound, and nothing takes the binding back: it is there when the run has ended, unless
    the item is not. Nor does the registry set the delete slot of the new handle again. -/
theorem Runs.last_binding {ts us : List Task} {w w' : World} {before after : List (Task × World)} {v : Task × World}
    (h : Runs ts w (before ++ v :: after) w') (hr : Reach k ⟨w, ts ++ us⟩) (ok : AllAllowed k (before ++ v :: after)) {ref : Ref}
    {x : Wrapper} (hx : w.IsItem ref x) {a : Handle} (hb : Binds v ref a)
    (none_deletes : ∀ u ∈ before ++ v :: after, ¬ Performs u (.delete ref)) (unreleased : ∀ t ∈ ts, t.job ≠ .releaseHandle ref)
    (lasts : ∀ u ∈ after, ¬ TakesBack u ref x.id a) (hl : w'.isLive ref = true) :
    w'.Holds ref x.id a ∧
      ∀ u ∈ after, ¬ u.1.job.MovesProbe u.2 → ∀ p : Program, (p.expand u.1 u.2).1.touched a = u.2.touched a := by
  obtain ⟨⟨level, job⟩, u⟩ := v
  obtain ⟨⟨choose, rfl, ho⟩, accepted⟩ := hb
  have mine : (⟨level, .act choose⟩, u) ∈ before ++ (⟨level, .act choose⟩, u) :: after := by simp
  have later {v : Task × World} (hv : v ∈ after) : v ∈ before ++ (⟨level, .act choose⟩, u) :: after := by simp [hv]
  obtain ⟨rest, run, reach⟩ := h.turn_at hr ok
  -- it is the item that it was when the run began
  have typed : (Op.bind ref a).Typed u := ho ▸ (ok _ mine choose rfl).1
  obtain ⟨y, hy⟩ := (World.isLive_iff u ref).mp typed.1
  have item := ((h.ages hr ok).2 _ mine).item hr.ordered hx hy
  cases run with
  | task p run =>
    have next : Reach k ⟨_, (p.expand ⟨level, .act choose⟩ u).2 ++ rest ++ us⟩ := reach.next p (ok _ mine)
    have bound : (p.expand ⟨level, .act choose⟩ u).1.Holds ref x.id a := by
      have holds := World.holds_perform reach.ordered reach.tracked item.1 accepted
      show (u.perform (choose u)).1.Holds ref x.id a
      rw [ho, ← item.2]
      exact holds
    refine run.holds next (fun v hv => ok v (later hv)) bound (fun v hv hu => ?_) hl
    by_cases released : v.1.job = .releaseHandle ref
    · rcases h.delete_of_releaseHandle (later hv) released with hm | ⟨v', hv', hd⟩
      · exact unreleased _ hm released
      · exact none_deletes v' hv' hd
    · exact lasts v hv (takesBack_of_undoes hu released)

/-! ## The deleted object -/

namespace World

variable {w : World} {ref : Ref} {h : Handle}

/-- The item does not hold `h` while its entry holds another handle. -/
def Loose (w : World) (ref : Ref) (h : Handle) : Prop :=
  ∀ x, w.IsItem ref x → x.handle = h → (w.registry .items).isElsewhere x.id h = false

theorem Holds.loose {id : ItemId} {a : Handle} (hold : w.Holds ref id a) (h : Handle) : w.Loose ref h := by
  intro x hx hh
  obtain ⟨y, hy, hi, ha⟩ := hold.item
  obtain rfl := hx.unique hy
  simp only [Registry.isElsewhere, hi, hold.entry, ← ha, hh, ne_eq, not_true_eq_false, decide_false]

theorem isElsewhere_of_unbound {r : Registry} {id : ItemId} (hb : r.boundTo id = none) (h : Handle) :
    r.isElsewhere id h = false := by
  rw [← Bool.not_eq_true, r.isElsewhere_eq]
  rintro ⟨a, ha, -⟩
  rw [hb] at ha
  cases ha

/-- A report takes the entry away that is not elsewhere. -/
theorem unbound_settle (w : World) {space : Space} {id : ItemId} (he : (w.registry space).isElsewhere id h = false)
    (wrapper : Option Ref) : ((w.settle space h id wrapper).registry space).boundTo id = none := by
  obtain ⟨-, registry, -, -⟩ := core_eq (w.core_reportEnd space h id wrapper)
  have ended : ((w.reportEnd space h id wrapper).registry space).boundTo id = none := by
    rw [registry, registry_settled, if_pos rfl, Registry.boundTo, Registry.byId_endDying, if_pos ⟨rfl, he⟩]
    rfl
  rw [settle_eq]
  cases wrapper with
  | none => exact ended
  | some b =>
    let left : World := { w.reportEnd space h id (some b) with pins := (w.reportEnd space h id (some b)).pins.erase (.wrapper b) }
    rcases hb : ((left.release b).registry space).boundTo id with _ | a
    · exact hb
    · have before := (left.release_sheds b space).2.1 id a hb
      rw [show (left.registry space).boundTo id = none from ended] at before
      cases before

theorem isItem_releaseHandle {y : Wrapper} (hy : (w.releaseHandle ref).IsItem ref y) : y.handle = .null := by
  have nulled (v : World) (hy : (v.setHandle ref .null).IsItem ref y) : y.handle = .null := by
    rcases isItem_modifyWrapper (f := ({ · with handle := .null })) (fun _ => rfl) hy with ⟨-, x, -, rfl⟩ | ⟨hne, -⟩
    · rfl
    · exact absurd rfl hne
  simp only [releaseHandle] at hy
  split at hy
  · exact nulled _ hy
  · exact nulled _ hy

end World

/-- Registering an item past its binding is the only way to have it hold a handle that is not its
    entry's. -/
theorem Reach.loose {w : World} {t : Task} {ts : List Task} (hr : Reach .free ⟨w, t :: ts⟩)
    (ok : ∀ choose, t.job = .act choose → Conduct.free.Allows w (choose w)) {ref : Ref} {h : Handle} (hn : h ≠ .null)
    (unregistered : ¬ Registers (t, w) ref) (old : ref.serial < w.nextRef) (hl : w.Loose ref h) (p : Program) :
    (p.expand t w).1.Loose ref h := by
  intro y hy hh
  have turn : Turn .free ⟨w, t :: ts⟩ ⟨(p.expand t w).1, (p.expand t w).2 ++ ts⟩ := .mk p w t ts ok
  obtain ⟨x, hx, hi⟩ : ∃ x, w.IsItem ref x ∧ x.id = y.id := by
    rcases (since_turn hr.ordered hr.tracked turn).ages.wrappers ref y hy.1 with ⟨x, hx, hi, hs⟩ | ⟨hn, -⟩
    · exact ⟨x, ⟨hx, hs.trans hy.2⟩, hi⟩
    · exact absurd old (Nat.not_lt_of_le hn)
  by_cases hu : t.job.Unsettles w ref x.id
  · obtain ⟨level, job⟩ := t
    cases job with
    | act choose =>
      change (choose w).Unsettles w ref x.id at hu
      change (w.perform (choose w)).1.IsItem ref y at hy
      show ((w.perform (choose w)).1.registry .items).isElsewhere y.id h = false
      generalize ho : choose w = op at hu hy
      cases op with
      | bind b a =>
        obtain ⟨rfl, accepted⟩ := hu
        exact (World.holds_perform hr.ordered hr.tracked hx accepted).loose h y hy hh
      | register b a =>
        obtain ⟨rfl, accepted⟩ := hu
        exact absurd ⟨a, ⟨choose, rfl, ho⟩, accepted⟩ unregistered
      | forget space i =>
        obtain ⟨rfl, rfl⟩ := hu
        refine World.isElsewhere_of_unbound ?_ h
        show ((w.forget .items x.id).registry .items).boundTo y.id = none
        rw [World.registry_forget, if_pos rfl, Registry.boundTo, Registry.byId_forget, if_pos hi.symm]
        rfl
      | _ => exact hu.elim
    | settle space a i wrapper =>
      obtain ⟨rfl, rfl, he⟩ := hu
      refine World.isElsewhere_of_unbound ?_ h
      rw [← hi]
      exact w.unbound_settle he wrapper
    | releaseHandle b =>
      obtain rfl : b = ref := hu
      exact absurd ((World.isItem_releaseHandle hy).symm.trans hh).symm hn
    | _ => exact hu.elim
  · obtain ⟨x', hx', hi', hh', he⟩ := (hr.spares (a := .null) hx (fun choose hj => (ok choose hj).1) hu (Or.inl rfl) p).item y hy
    obtain rfl := hx.unique hx'
    have same := hl x hx (hh'.trans hh)
    simp only [Registry.isElsewhere, hi] at same
    simp only [Registry.isElsewhere, he]
    exact same

theorem Runs.loose {ts us : List Task} {w w' : World} {vs : List (Task × World)} (run : Runs us w vs w')
    (hr : Reach .free ⟨w, us ++ ts⟩) (ok : AllAllowed .free vs) {ref : Ref} {x : Wrapper} (hx : w.IsItem ref x) {h : Handle}
    (hn : h ≠ .null) (unregistered : ∀ v ∈ vs, ¬ Registers v ref) (hl : w.Loose ref h) : w'.Loose ref h := by
  obtain ⟨⟨-, loose⟩, -⟩ := run.along hr ok (I := fun v => ref.serial < v.nextRef ∧ v.Loose ref h)
    (fun p t rest v hv reach hi => by
      have turn : Turn .free ⟨v, t :: rest⟩ ⟨(p.expand t v).1, _⟩ := .mk p v t rest (ok _ hv)
      have older := (since_turn reach.ordered reach.tracked turn).ages.nextRef
      exact ⟨Nat.lt_of_lt_of_le hi.1 older, reach.loose (ok _ hv) hn (unregistered _ hv) hi.1 hi.2 p⟩)
    ⟨hr.ordered.refBelow ref x hx.1, hl⟩
  exact loose

/-- The item that a handle leads to. -/
theorem World.found_item {w : World} (ho : w.Ordered) (ht : w.Tracked) {h : Handle} {ref : Ref}
    (hl : w.lookupHandle .items h = some ref) :
    ∃ x, w.IsItem ref x ∧ (w.registry .items).byHandle.get? h = some x.id ∧ w.lookupId .items x.id = some ref := by
  unfold lookupHandle Registry.lookupHandle at hl
  split at hl
  · rename_i id hb
    change w.lookupId .items id = some ref at hl
    obtain ⟨e, he, rfl⟩ := ht.lookupId_iff.mp hl
    obtain ⟨x, hx, rfl⟩ := ht.item ho he
    exact ⟨x, hx, hb, hl⟩
  · cases hl

/-- A registry is told that `h` has been destroyed while `h` leads to an item and no report of `h` is
    under way. Whichever handlers run, the call comes to its end, given that calls nest no deeper than
    the program's limit, and the item is not bound to `h` then: `h` does not lead to it, its entry, if
    it has one, holds another handle, and so does the item, unless a handler has registered it past
    its binding.

    If handlers have bound the item, last to `a`, none of them has asked for the item's deletion, and
    nothing after that took the binding back, nor was the item dropped, then the item is bound to `a`
    when the call has ended, in every table; and of the turns since, none has the registry set the
    delete slot of `a`. -/
theorem a_report_keeps_what_its_handlers_bind {w : World} {ts : List Task} {level : Nat} {h : Handle} {ref : Ref}
    (hr : Reach .free ⟨w, ⟨level, .nativeDelete .items h⟩ :: ts⟩)
    (fresh : ∀ id wrapper, .settle .items h id wrapper ∉ jobs ts) (found : w.lookupHandle .items h = some ref) :
    (∀ p : Program, ∃ vs, Runs [⟨level, .nativeDelete .items h⟩] w vs (p.run ⟨level, .nativeDelete .items h⟩ w)) ∧
    ∀ vs w', Runs [⟨level, .nativeDelete .items h⟩] w vs w' → AllAllowed .free vs →
      (w'.registry .items).byHandle.get? h ≠ some (w.idOf ref) ∧
      (∀ a, (w'.registry .items).boundTo (w.idOf ref) = some a → a ≠ h) ∧
      ((∀ v ∈ vs, ¬ Registers v ref) → w'.handleOf ref ≠ h) ∧
      ∀ before v after a, vs = before ++ v :: after → Binds v ref a → a ≠ h → (∀ u ∈ vs, ¬ Performs u (.delete ref)) →
        (∀ u ∈ after, ¬ TakesBack u ref (w.idOf ref) a) → w'.isLive ref = true →
        (w'.registry .items).byId.get? (w.idOf ref) = some ⟨ref, a⟩ ∧
        (a ≠ .null → (w'.registry .items).byHandle.get? a = some (w.idOf ref)) ∧ w'.handleOf ref = a ∧
        ∀ u ∈ after, ¬ u.1.job.MovesProbe u.2 → ∀ p : Program, (p.expand u.1 u.2).1.touched a = u.2.touched a := by
  have ordered : w.Ordered := hr.ordered
  obtain ⟨x, hx, hb, hid⟩ := World.found_item ordered hr.tracked found
  obtain ⟨hn, bound⟩ := ((ordered.coherent .items).inverse h x.id).mp hb
  have hd : h ∉ (w.registry .items).dying := by
    rw [(marked_exactly hr .items).1, mem_reported]
    rintro ⟨i, wrapper, hj⟩
    exact fresh i wrapper ((List.mem_cons.mp hj).resolve_left (by simp))
  rw [World.idOf_eq hx.1]
  refine ⟨fun p => p.runs_run _ w, fun vs w' run ok => ?_⟩
  obtain ⟨-, u, hw'⟩ := run.report hd hb hid
  obtain ⟨byHandle, unbound, released⟩ := hw' ▸ u.settle_unbinds .items hn x.id ref
  have reach : Reach .free ⟨w, [⟨level, .nativeDelete .items h⟩] ++ ts⟩ := hr
  refine ⟨byHandle, fun a ha e => unbound (e ▸ ha), ?_, ?_⟩
  · intro unregistered
    have start : w.Loose ref h := by
      intro y hy _
      obtain rfl := hx.unique hy
      rw [← Bool.not_eq_true, Registry.isElsewhere_eq]
      rintro ⟨a, ha, hne⟩
      rw [bound] at ha
      exact hne (Option.some.inj ha).symm
    have loose := run.loose reach ok hx hn unregistered start
    intro hh
    rcases hy : w'.wrappers.get? ref with _ | y
    · simp only [World.handleOf, hy, Option.map_none, Option.getD_none] at hh
      exact hn hh.symm
    obtain ⟨item, same⟩ := (run.ages reach ok).1.item ordered hx hy
    have still := loose y item ((World.handleOf_eq hy).symm.trans hh)
    rw [same] at still
    rcases released with away | away
    · exact away hh
    · rw [still] at away
      cases away
  · rintro before v after a rfl hbinds _ none_deletes lasts live
    obtain ⟨holds, untouched⟩ := run.last_binding reach ok hx hbinds none_deletes (by simp) lasts live
    refine ⟨holds.entry, fun ha => ?_, World.handleOf_of_holds holds, untouched⟩
    have last := (Reach.finish run reach ok).ordered
    exact ((last.coherent .items).mapped_iff a x.id).mpr ⟨ha, _, holds.entry, rfl⟩

/-- The object of the item has been destroyed, and the registry is about to be told. -/
def objectGone : State := State.after mover 2 ⟨settledDown, [⟨4, .act fun _ => .destroy ⟨0x1000⟩⟩]⟩

theorem reach_objectGone : Reach .free objectGone := by
  have settled : Reach .free ⟨settledDown, []⟩ := reach_settledDown.mono (Conduct.within_free _)
  have due := (settled.call 4 (fun _ => .destroy ⟨0x1000⟩)).perform mover ⟨trivial, trivial⟩
  exact due.quiet mover (by simp)

/-- What the mover does when it is told. -/
def moveAway : List (Task × World) := mover.trace 6 ⟨objectGone.world, [⟨4, .nativeDelete .items ⟨0x1000⟩⟩]⟩

theorem allowed_moveAway : AllAllowed .free moveAway := by
  intro v hv choose hc
  repeat' rcases hv with _ | ⟨_, hv⟩
  all_goals cases hc
  exact ⟨⟨by decide, by decide⟩, trivial, trivial⟩

theorem the_mover_stays_where_it_moved : ∃ vs w', AllAllowed .free vs ∧
    Runs [⟨4, .nativeDelete .items ⟨0x1000⟩⟩] objectGone.world vs w' ∧
    (w'.registry .items).byId.get? ⟨0⟩ = some ⟨⟨0⟩, ⟨0x1010⟩⟩ ∧ w'.handleOf ⟨0⟩ = ⟨0x1010⟩ := by
  have run : Runs _ _ moveAway _ := mover.runs_trace rfl
  have hr : Reach .free ⟨objectGone.world, ⟨4, .nativeDelete .items ⟨0x1000⟩⟩ :: objectGone.tasks.tail⟩ := reach_objectGone
  have fresh : ∀ id wrapper, .settle .items ⟨0x1000⟩ id wrapper ∉ jobs objectGone.tasks.tail := by
    intro id wrapper hj
    rcases hj with _ | ⟨_, _ | ⟨_, hj⟩⟩
    cases hj
  have found : objectGone.world.lookupHandle .items ⟨0x1000⟩ = some ⟨0⟩ := by decide
  obtain ⟨-, report⟩ := a_report_keeps_what_its_handlers_bind hr fresh found
  obtain ⟨-, -, -, kept⟩ := report _ _ run allowed_moveAway
  have none_deletes : ∀ u ∈ moveAway, ¬ Performs u (.delete ⟨0⟩) := by
    rintro u hu ⟨choose, hc, ho⟩
    repeat' rcases hu with _ | ⟨_, hu⟩
    all_goals cases hc
    cases ho
  have lasts : ∀ u ∈ moveAway.drop 3, ¬ TakesBack u ⟨0⟩ ⟨0⟩ ⟨0x1010⟩ := by
    intro u hu taken
    rcases taken with ⟨b, ⟨choose, hc, -⟩, -⟩ | ⟨a, ⟨choose, hc, -⟩, -⟩ | ⟨choose, hc, -⟩ | ⟨wrapper, hc⟩
    all_goals repeat' rcases hu with _ | ⟨_, hu⟩
    all_goals cases hc
  obtain ⟨entry, -, handle, -⟩ :=
    kept (moveAway.take 2) _ (moveAway.drop 3) ⟨0x1010⟩ rfl ⟨⟨_, rfl, rfl⟩, rfl⟩ (by decide) none_deletes lasts rfl
  exact ⟨_, _, allowed_moveAway, run, entry, handle⟩

/-! ## A deletion that the program asks for -/

namespace World

variable {w : World} {ref : Ref} {id : ItemId} {a : Handle}

/-- The tables lead to the item of an entry. -/
theorem leads_to_item (ho : w.Ordered) (ht : w.Tracked) (he : (w.registry .items).byId.get? id = some ⟨ref, a⟩)
    (ha : a ≠ .null) : w.lookupHandle .items a = some ref ∧ w.lookupId .items id = some ref := by
  have byId : w.lookupId .items id = some ref := ht.lookupId_iff.mpr ⟨_, he, rfl⟩
  have mapped := ((ho.coherent .items).mapped_iff a id).mpr ⟨ha, _, he, rfl⟩
  refine ⟨?_, byId⟩
  simp only [lookupHandle, Registry.lookupHandle, mapped]
  exact byId

/-- However the item is bound when the toolkit comes back, it has no handle after that. -/
theorem handleOf_finished (w : World) (ref : Ref) (space : Space) : (w.finished ref space).handleOf ref = .null := by
  let released := w.releaseHandle ref
  let left : World := { released with pins := released.pins.erase (.wrapper ref) }
  have taken : left.handleOf ref = .null := by
    show (w.releaseHandle ref).handleOf ref = .null
    simp only [releaseHandle]
    split
    all_goals rw [handleOf_setNull, if_pos rfl]
  have last (v : World) : ((v.unpin (.registry space)).answering .none).handleOf ref = v.handleOf ref := rfl
  rw [finished, last]
  show (left.release ref).handleOf ref = .null
  rcases (left.release_sheds ref space).2.2 with null | same
  · exact null
  · rw [same]
    exact taken

theorem registry_releaseHandle (w : World) (ref : Ref) : (w.releaseHandle ref).registry = w.registry := by
  simp only [releaseHandle]
  split
  all_goals rfl

theorem spares_finished {space : Space} (ht : (w.releaseHandle ref).Tracked) :
    (w.releaseHandle ref).Spares (w.finished ref space) ref a := by
  have last (v : World) : v.Spares ((v.unpin (.registry space)).answering .none) ref a := .of_ties rfl
  rw [finished]
  exact (spares_unpin ht (.wrapper ref)).trans (last _)

theorem withHandle_null (w : World) (h : w.handleOf ref = .null) (f : Handle → World) :
    w.withHandle ref f = w.failing (.bind (.itemDeleted (w.idOf ref))) := by
  simp only [withHandle, liveHandle, h]
  rfl

theorem withHandle_ne_null (w : World) (h : w.handleOf ref = a) (ha : a ≠ .null) (f : Handle → World) :
    w.withHandle ref f = f a := by
  simp only [withHandle, liveHandle, h, a.isNull_eq_false_iff.mpr ha]
  rfl

end World

/-- What remains of a delete once the toolkit has come back. -/
def Job.closing (ref : Ref) (space : Space) : List Job :=
  [.releaseHandle ref, .unpin (.wrapper ref), .unpin (.registry space), .answer .none]

/-- A delete: the toolkit is asked, and whatever that brings about comes first. -/
theorem Runs.delete {w w' : World} {vs : List (Task × World)} {level : Nat} {choose : World → Op} {ref : Ref}
    (run : Runs [⟨level, .act choose⟩] w vs w') (hc : choose w = .delete ref) (hn : w.handleOf ref ≠ .null) :
    ∃ inner u last, vs = ((⟨level, .act choose⟩, w) :: inner) ++ last ∧
      Runs (((w.requested ref).carryOut (w.handleOf ref)).2.map (⟨level, ·⟩)) (w.delete ref).1 inner u ∧
      Runs ((Job.closing ref (w.spaceOf ref)).map (⟨level, ·⟩)) u last w' ∧ w' = u.finished ref (w.spaceOf ref) ∧
      ∀ v ∈ last, ∀ op, ¬ Performs v op := by
  cases run with
  | @task p _ _ _ _ vs run =>
    change Runs ((w.perform (choose w)).2.map (Task.mk level) ++ []) (w.perform (choose w)).1 vs w' at run
    rw [hc, World.perform, World.delete_eq hn, List.append_nil, List.map_append] at run
    obtain ⟨inner, u, last, asked, closing, rfl⟩ := run.split _ _
    rw [World.delete_eq hn]
    refine ⟨inner, u, last, rfl, asked, closing, ?_⟩
    rcases closing with _ | ⟨_, _ | ⟨_, _ | ⟨_, _ | ⟨_, ⟨⟩⟩⟩⟩⟩
    refine ⟨rfl, ?_⟩
    rintro v hv op ⟨choose, hj, -⟩
    repeat' rcases hv with _ | ⟨_, hv⟩
    all_goals cases hj

theorem World.slot_of_carryOut {w : World} {h : Handle} {j : Job} (hj : j ∈ (w.carryOut h).2) : ∃ cb, j = .slot cb h := by
  unfold carryOut at hj
  split at hj
  · cases hc : w.toolkit.items.contains h
    · rw [destroy_unknown hc] at hj
      cases hj
    · rw [destroy_of_alive hc] at hj
      obtain ⟨cb, -, rfl⟩ := List.mem_map.mp hj
      exact ⟨cb, rfl⟩
  · cases hj

/-- What stands in two lists put together, and not in the second, stands in the first. -/
theorem split_of_not_mem {α : Type} {before after xs ys : List α} {v : α} (h : before ++ v :: after = xs ++ ys) (hv : v ∉ ys) :
    ∃ between, xs = before ++ v :: between ∧ after = between ++ ys := by
  rcases List.append_eq_append_iff.mp h with ⟨c, rfl, hc⟩ | ⟨c, -, hc⟩
  · rcases c with _ | ⟨b, between⟩
    · exact absurd (show v ∈ [] ++ ys from hc ▸ List.mem_cons_self ..) hv
    · obtain ⟨rfl, rfl⟩ := List.cons.inj hc
      exact ⟨between, rfl, rfl⟩
  · exact absurd (by simp [hc]) hv

/-- What remains of a delete does not look at the entry. -/
theorem Runs.keeps_entry {u : World} {ts : List Task} {last : List (Task × World)} {level : Nat} {ref : Ref} {space : Space}
    {id : ItemId} {a : Handle} (closing : Runs ((Job.closing ref space).map (⟨level, ·⟩)) u last (u.finished ref space))
    (reached : Reach k ⟨u, (Job.closing ref space).map (⟨level, ·⟩) ++ ts⟩) (closed : AllAllowed k last) (holds : u.Holds ref id a)
    (hl : (u.finished ref space).isLive ref = true) :
    ((u.finished ref space).registry .items).byId.get? id = some ⟨ref, a⟩ := by
  obtain ⟨y, hy⟩ := (World.isLive_iff _ ref).mp hl
  obtain ⟨x, hx, rfl, -⟩ := holds.item
  obtain ⟨item, same⟩ := (closing.ages reached closed).1.item reached.ordered hx hy
  have tracked : (u.releaseHandle ref).Tracked := by
    have next : Reach k ⟨u, ⟨level, .releaseHandle ref⟩ :: _⟩ := reached
    exact (next.quiet mover (by simp)).tracked
  obtain ⟨-, -, -, -, entry⟩ := (World.spares_finished (a := a) tracked).item y item
  rw [same, World.registry_releaseHandle] at entry
  rw [entry]
  exact holds.entry

/-- The item is bound anew while it is deleted. The entry is there when the delete has ended. -/
theorem Runs.entry_left {w w' : World} {ts : List Task} {before after : List (Task × World)} {v : Task × World} {level : Nat}
    {choose : World → Op} {ref : Ref} {x : Wrapper} {a : Handle} (run : Runs [⟨level, .act choose⟩] w (before ++ v :: after) w')
    (hr : Reach k ⟨w, ⟨level, .act choose⟩ :: ts⟩) (ok : AllAllowed k (before ++ v :: after)) (hc : choose w = .delete ref)
    (hx : w.IsItem ref x) (hn : w.handleOf ref ≠ .null) (hb : Binds v ref a)
    (none_deletes : ∀ u ∈ (before ++ v :: after).tail, ¬ Performs u (.delete ref))
    (lasts : ∀ u ∈ after, ¬ TakesBack u ref x.id a) (hl : w'.isLive ref = true) :
    (w'.registry .items).byId.get? x.id = some ⟨ref, a⟩ := by
  obtain ⟨inner, u, last, hvs, asked, closing, rfl, idle⟩ := run.delete hc hn
  rw [hvs] at ok none_deletes
  have allowed : AllAllowed k inner := fun t ht => ok t (by simp [ht])
  have kept : ∀ t ∈ inner, ¬ Performs t (.delete ref) := fun t ht => none_deletes t (by simp [ht])
  have begun : Reach k ⟨(w.delete ref).1, ((w.requested ref).carryOut (w.handleOf ref)).2.map (⟨level, ·⟩) ++
      ((Job.closing ref (w.spaceOf ref)).map (⟨level, ·⟩) ++ ts)⟩ := by
    -- any program would do: it is not asked before a handler is called
    have next := hr.perform mover (ok (⟨level, .act choose⟩, w) (by simp) choose rfl)
    rw [hc, World.perform, World.delete_eq hn, List.map_append, List.append_assoc] at next
    rw [World.delete_eq hn]
    exact next
  have item : (w.delete ref).1.IsItem ref x := by
    have same : (w.delete ref).1.wrappers = w.wrappers := congrArg (·.1) (w.ties_delete (a := a) ref)
    exact ⟨same ▸ hx.1, hx.2⟩
  have reached : Reach k ⟨u, (Job.closing ref (w.spaceOf ref)).map (⟨level, ·⟩) ++ ts⟩ := .finish asked begun allowed
  have closed : AllAllowed k last := fun t ht => ok t (by simp [ht])
  have older : (w.delete ref).1.Ages u := (asked.ages begun allowed).1
  have live : u.isLive ref = true := by
    refine closing.there reached closed ?_ hl
    exact Nat.lt_of_lt_of_le (begun.ordered.refBelow ref x item.1) older.nextRef
  -- it is bound by what the toolkit brings about, and holds the handle when that is over
  have holds : u.Holds ref x.id a := by
    obtain ⟨between, hfirst, rfl⟩ := split_of_not_mem hvs fun hv => idle v hv _ hb.1
    rcases before with _ | ⟨b, start⟩
    · obtain ⟨rfl, -⟩ := List.cons.inj hfirst
      simp [Binds, hc] at hb
    · obtain ⟨-, rfl⟩ := List.cons.inj hfirst
      have unreleased : ∀ t ∈ ((w.requested ref).carryOut (w.handleOf ref)).2.map (Task.mk level), t.job ≠ .releaseHandle ref := by
        intro t ht
        obtain ⟨j, hj, rfl⟩ := List.mem_map.mp ht
        obtain ⟨cb, rfl⟩ := World.slot_of_carryOut hj
        simp
      exact (asked.last_binding begun allowed item hb kept unreleased (fun t ht => lasts t (by simp [ht])) live).1
  exact closing.keeps_entry reached closed holds hl

/-- An item is bound to `h`, and the program asks the item to delete itself, or the toolkit to destroy
    `h`. Whichever handlers run, the call comes to its end, given that calls nest no deeper than the
    program's limit, and after a delete the item has no handle: whatever is to be done by way of it
    fails, the item being deleted.

    Suppose that a handler has bound the item to `a`, that no handler has asked for the item's
    deletion, that nothing after that took the binding back, and that the item is there still. Then
    the entry of the item has `a`, and handle and id lead to the item, in either case. But only when
    the toolkit was asked to destroy `h` does the item have the handle as well, and passes on to `a`
    what is to be done. -/
theorem deleting_takes_the_new_handle {w : World} {ts : List Task} {level : Nat} {choose : World → Op} {ref : Ref} {id : ItemId}
    {h : Handle} (hr : Reach .free ⟨w, ⟨level, .act choose⟩ :: ts⟩) (hold : w.Holds ref id h) (hn : h ≠ .null)
    (ends : choose w = .delete ref ∨ choose w = .destroy h) :
    (∀ p : Program, ∃ vs, Runs [⟨level, .act choose⟩] w vs (p.run ⟨level, .act choose⟩ w)) ∧
    ∀ vs w', Runs [⟨level, .act choose⟩] w vs w' → AllAllowed .free vs →
      (choose w = .delete ref → w'.handleOf ref = .null ∧
        ∀ f, w'.withHandle ref f = w'.failing (.bind (.itemDeleted (w'.idOf ref)))) ∧
      ∀ before v after a, vs = before ++ v :: after → Binds v ref a → a ≠ .null →
        (∀ u ∈ vs.tail, ¬ Performs u (.delete ref)) → (∀ u ∈ after, ¬ TakesBack u ref id a) → w'.isLive ref = true →
        (w'.registry .items).byId.get? id = some ⟨ref, a⟩ ∧
        w'.lookupHandle .items a = some ref ∧ w'.lookupId .items id = some ref ∧
        (choose w = .destroy h → w'.handleOf ref = a ∧ ∀ f, w'.withHandle ref f = f a) := by
  obtain ⟨x, hx, rfl, hh⟩ := hold.item
  have bound : w.handleOf ref ≠ .null := by
    rw [World.handleOf_of_holds hold]
    exact hn
  refine ⟨fun p => p.runs_run _ w, fun vs w' run ok => ⟨?_, ?_⟩⟩
  · intro hc
    obtain ⟨-, u, -, -, -, -, rfl, -⟩ := run.delete hc bound
    have taken := u.handleOf_finished ref (w.spaceOf ref)
    exact ⟨taken, World.withHandle_null _ taken⟩
  · rintro before v after a rfl hb ha none_deletes lasts live
    have reach : Reach .free ⟨w, [⟨level, .act choose⟩] ++ ts⟩ := hr
    have last : Reach .free ⟨w', ts⟩ := .finish run reach ok
    rcases ends with hc | hc
    · have entry := run.entry_left hr ok hc hx bound hb none_deletes lasts live
      obtain ⟨byHandle, byId⟩ := World.leads_to_item last.ordered last.tracked entry ha
      refine ⟨entry, byHandle, byId, fun hd => ?_⟩
      rw [hc] at hd
      cases hd
    · have kept : ∀ u ∈ before ++ v :: after, ¬ Performs u (.delete ref) := by
        intro u hu performed
        generalize before ++ v :: after = vs at run hu none_deletes
        cases run with
        | task p run =>
          rcases List.mem_cons.mp hu with rfl | hu
          · simp [hc] at performed
          · exact none_deletes u hu performed
      obtain ⟨holds, -⟩ := run.last_binding reach ok hx hb kept (by simp) lasts live
      obtain ⟨byHandle, byId⟩ := World.leads_to_item last.ordered last.tracked holds.entry ha
      have handle := World.handleOf_of_holds holds
      exact ⟨holds.entry, byHandle, byId, fun _ => ⟨handle, World.withHandle_ne_null _ handle ha⟩⟩

/-- What the mover does when it is asked to delete the item. -/
def askedAway : List (Task × World) := mover.trace 13 ⟨settledDown, [⟨4, .act fun _ => .delete ⟨0⟩⟩]⟩

theorem allowed_askedAway : AllAllowed .free askedAway := by
  intro v hv choose hc
  repeat' rcases hv with _ | ⟨_, hv⟩
  all_goals cases hc
  · exact ⟨⟨by decide, by decide⟩, trivial⟩
  · exact ⟨⟨by decide, by decide⟩, trivial, trivial⟩

/-- The tables lead from the living object to an item that says it is deleted. -/
theorem the_mover_is_left_without_a_handle : ∃ vs w', AllAllowed .free vs ∧
    Runs [⟨4, .act fun _ => .delete ⟨0⟩⟩] settledDown vs w' ∧ (∃ v ∈ vs, Binds v ⟨0⟩ ⟨0x1010⟩) ∧
    w'.toolkit.items.contains ⟨0x1010⟩ = true ∧ w'.lookupHandle .items ⟨0x1010⟩ = some ⟨0⟩ ∧
    w'.lookupId .items ⟨0⟩ = some ⟨0⟩ ∧ w'.handleOf ⟨0⟩ = .null := by
  have run : Runs _ _ askedAway _ := mover.runs_trace rfl
  have settled : Reach .free ⟨settledDown, []⟩ := reach_settledDown.mono (Conduct.within_free _)
  have hr := settled.call 4 (fun _ => .delete ⟨0⟩)
  have hold : settledDown.Holds ⟨0⟩ ⟨0⟩ ⟨0x1000⟩ := ⟨⟨_, ⟨rfl, rfl⟩, rfl, rfl⟩, rfl⟩
  obtain ⟨-, deleted⟩ := deleting_takes_the_new_handle hr hold (by decide) (Or.inl rfl)
  obtain ⟨taken, kept⟩ := deleted _ _ run allowed_askedAway
  have none_deletes : ∀ u ∈ askedAway.tail, ¬ Performs u (.delete ⟨0⟩) := by
    rintro u hu ⟨choose, hc, ho⟩
    repeat' rcases hu with _ | ⟨_, hu⟩
    all_goals cases hc
    cases ho
  have lasts : ∀ u ∈ askedAway.drop 5, ¬ TakesBack u ⟨0⟩ ⟨0⟩ ⟨0x1010⟩ := by
    intro u hu taken
    rcases taken with ⟨b, ⟨choose, hc, -⟩, -⟩ | ⟨a, ⟨choose, hc, -⟩, -⟩ | ⟨choose, hc, -⟩ | ⟨wrapper, hc⟩
    all_goals repeat' rcases hu with _ | ⟨_, hu⟩
    all_goals cases hc
  have moves : Binds askedAway[4] ⟨0⟩ ⟨0x1010⟩ := ⟨⟨_, rfl, rfl⟩, rfl⟩
  obtain ⟨-, byHandle, byId, -⟩ :=
    kept (askedAway.take 4) _ (askedAway.drop 5) ⟨0x1010⟩ rfl moves (by decide) none_deletes lasts rfl
  exact ⟨_, _, allowed_askedAway, run, ⟨_, List.getElem_mem _, moves⟩, by decide, byHandle, byId, (taken rfl).1⟩

end HandleBridge
