/-
  HandleBridge.Proofs.StaleUse — an item that has lost its handle, until it is bound again.

  An item loses its handle when it is asked to delete itself, or when the registry is told that its
  object has been destroyed and no handler binds it to another (`Loses`). From then on nothing but
  a binding of that item gives it one (`null_next`), whatever the toolkit, the program and the
  other items do. So:
  - `stale_use_is_refused`: everything that needs the handle (`Op.NeedsHandle`) says that the item
    is deleted, and does nothing else.
-/
import HandleBridge.Proofs.Concord

namespace HandleBridge

variable {k : Conduct}

/-- What goes to the item's object, and deleting the item. -/
def Op.NeedsHandle (ref : Ref) : Op → Prop
  | .setEnabled b _ | .isEnabled b | .setText b _ _ | .text b _ | .setContent b _ _ _ | .delete b
  | .setSelected b _ | .isSelected b | .update b => b = ref
  | _ => False

theorem World.refused_without_handle {w : World} {ref : Ref} (h : w.handleOf ref = .null) {op : Op}
    (ho : op.NeedsHandle ref) : w.perform op = (w.failing (.bind (.itemDeleted (w.idOf ref))), []) := by
  cases op with
  | setEnabled b v | isEnabled b | setText b part text | text b part | setSelected b v | isSelected b | update b =>
    obtain rfl : b = ref := ho
    exact congrArg (·, []) (w.withHandle_null h _)
  | setContent b part content preserve =>
    obtain rfl : b = ref := ho
    exact congrArg (·, []) (w.withHandle_null h _)
  | delete b =>
    obtain rfl : b = ref := ho
    simp only [perform, delete, h]
    rfl
  | _ => exact ho.elim

/-! ## Losing the handle -/

/-- An item loses its handle in a call that goes from `w` to `w'` by way of `vs`: it has been asked
    to delete itself, which succeeds; or the deletion of its object has been reported, and if
    handlers have bound it, last to that object or to none. An item that is registered past its
    binding may hold another handle than the one that is reported. -/
inductive Loses (k : Conduct) (ref : Ref) (w : World) (vs : List (Task × World)) (w' : World) : Job → Prop
  | deleted {choose : World → Op} : choose w = .delete ref → w'.answer = .none → Loses k ref w vs w' (.act choose)
  | reported {h : Handle} : h ∉ (w.registry .items).dying → w.lookupHandle .items h = some ref →
      (k.registers .items → w.Agrees ref ∧ ∀ v ∈ vs, ¬ Registers v ref) →
      (∀ before v after a, vs = before ++ v :: after → Binds v ref a → (∀ u ∈ after, ∀ b, ¬ Binds u ref b) →
        a = h ∨ a = .null) → Loses k ref w vs w' (.nativeDelete .items h)

/-- In the end the item holds what it was bound to last. -/
theorem Runs.last_bound {ts us : List Task} {w w' : World} {vs : List (Task × World)} (run : Runs ts w vs w')
    (hr : Reach k ⟨w, ts ++ us⟩) (ok : AllAllowed k vs) {ref : Ref} (old : ref.serial < w.nextRef) {P : Handle → Prop}
    (null : P .null)
    (last : ∀ before v after a, vs = before ++ v :: after → Binds v ref a → (∀ u ∈ after, ∀ b, ¬ Binds u ref b) → P a)
    (start : (∀ v ∈ vs, ∀ a, ¬ Binds v ref a) → ∀ x, w.IsItem ref x → P x.handle) :
    ∀ y, w'.IsItem ref y → P y.handle := by
  induction run with
  | done w => exact start (by simp)
  | @task p t ts w w' vs run ih =>
    have now : (t, w) ∈ (t, w) :: vs := List.mem_cons_self ..
    have turn : Turn k ⟨w, t :: (ts ++ us)⟩ ⟨(p.expand t w).1, _⟩ := .mk p w t (ts ++ us) (ok _ now)
    have older := (since_turn hr.ordered hr.tracked turn).ages.nextRef
    refine ih (hr.next p (ok _ now)) (fun v hv => ok v (List.mem_cons_of_mem _ hv)) (Nat.lt_of_lt_of_le old older) ?_ ?_
    · intro before v after a hvs
      exact last ((t, w) :: before) v after a (congrArg ((t, w) :: ·) hvs)
    · intro unbound y hy
      obtain ⟨x, hx, -, bound | ⟨still, null' | same⟩⟩ := hr.handle_turn (ok _ now) old hy
      · exact last [] (t, w) vs y.handle rfl bound unbound
      · exact null' ▸ null
      · rw [same]
        refine start (fun v hv a hva => ?_) x hx
        rcases List.mem_cons.mp hv with rfl | hv
        · exact still a hva
        · exact unbound v hv a hva

variable {w w' : World} {ts : List Task} {vs : List (Task × World)} {t : Task} {level : Nat} {ref : Ref}
  {x : Wrapper}

theorem Runs.lost_by_delete {choose : World → Op} (run : Runs [⟨level, .act choose⟩] w vs w') (hc : choose w = .delete ref)
    (success : w'.answer = .none) {y : Wrapper} (hy : w'.IsItem ref y) : y.handle = .null := by
  by_cases hn : w.handleOf ref = .null
  · -- the item says that it is deleted
    cases run with
    | task p run =>
      change Runs ((w.perform (choose w)).2.map (Task.mk level) ++ []) (w.perform (choose w)).1 _ w' at run
      rw [hc, World.refused_without_handle hn (show (Op.delete ref).NeedsHandle ref from rfl)] at run
      cases run
      cases success
  · obtain ⟨-, u, -, -, -, -, rfl, -⟩ := run.delete hc hn
    rw [← World.handleOf_eq hy.1]
    exact u.handleOf_finished ref _

/-- The end of a report takes the handle from an item that agrees with its entry. -/
theorem Runs.report_lets_go {h : Handle} (run : Runs [⟨level, .nativeDelete .items h⟩] w vs w')
    (hr : Reach .free ⟨w, ⟨level, .nativeDelete .items h⟩ :: ts⟩) (ok : AllAllowed .free vs)
    (hd : h ∉ (w.registry .items).dying) (found : w.lookupHandle .items h = some ref) (agrees : w.Agrees ref)
    (unregistered : ∀ v ∈ vs, ¬ Registers v ref) {y : Wrapper} (hy : w'.IsItem ref y) : y.handle ≠ h := by
  obtain ⟨x, hx, hb, hid⟩ := World.found_item hr.ordered hr.tracked found
  obtain ⟨hn, bound⟩ := ((hr.ordered.coherent .items).inverse h x.id).mp hb
  obtain ⟨e, he, -⟩ := Option.map_eq_some_iff.mp bound
  have start : w.Loose ref h := by
    intro z hz hh
    obtain rfl := hx.unique hz
    simp only [Registry.isElsewhere, he, decide_eq_false_iff_not, not_not]
    exact ((agrees x e hx he).resolve_left fun null => hn (hh.symm.trans null)).symm.trans hh
  have loose := run.loose hr ok hx hn unregistered start
  have same : y.id = x.id := ((run.ages hr ok).1.item hr.ordered hx hy.1).2
  obtain ⟨-, u, rfl⟩ := run.report hd hb hid
  obtain ⟨-, -, gone | away⟩ := u.settle_unbinds .items hn x.id ref
  · rw [World.handleOf_eq hy.1] at gone
    exact gone
  · intro hh
    have still := loose y hy hh
    rw [same, away] at still
    cases still

/-- No handler registers an item past its binding where the program does not do so. -/
theorem Runs.none_registers (run : Runs [t] w vs w') (hr : Reach k ⟨w, t :: ts⟩) (ok : AllAllowed k vs) (hx : w.IsItem ref x)
    (unregistered : ¬ k.registers .items) : ∀ v ∈ vs, ¬ Registers v ref := by
  rintro v hv ⟨a, ⟨choose, hj, ho⟩, -⟩
  obtain ⟨⟨live, -⟩, permitted⟩ := ho ▸ ok v hv choose hj
  obtain ⟨y, hy⟩ := (World.isLive_iff v.2 ref).mp live
  have item := (((run.ages hr ok).2 v hv).item hr.ordered hx hy).1
  refine unregistered ?_
  rw [← item.2, ← World.spaceOf_eq hy]
  exact permitted

theorem Loses.handle_null (run : Runs [t] w vs w') (hr : Reach k ⟨w, t :: ts⟩) (ok : AllAllowed k vs)
    (hx : w.IsItem ref x) (lost : Loses k ref w vs w' t.job) {y : Wrapper} (hy : w'.IsItem ref y) : y.handle = .null := by
  obtain ⟨level, job⟩ := t
  cases lost with
  | deleted hc success => exact run.lost_by_delete hc success hy
  | @reported h hd found beside last =>
    obtain ⟨agrees, unregistered⟩ : w.Agrees ref ∧ ∀ v ∈ vs, ¬ Registers v ref := by
      by_cases hk : k.registers .items
      · exact beside hk
      · exact ⟨hr.concordant hk ref, run.none_registers hr ok hx hk⟩
    have freely : AllAllowed .free vs := fun v hv choose hj => k.within_free.allows (ok v hv choose hj)
    have released := run.report_lets_go (hr.mono k.within_free) freely hd found agrees unregistered hy
    refine (run.last_bound hr ok (hr.ordered.refBelow ref x hx.1) (P := fun a => a = h ∨ a = .null) (Or.inr rfl) last
      (fun _ z hz => ?_) y hy).resolve_left released
    -- what leads to the item is the handle of its entry
    obtain ⟨z', hz', hb, -⟩ := World.found_item hr.ordered hr.tracked found
    obtain rfl := hz.unique hz'
    obtain ⟨-, bound⟩ := ((hr.ordered.coherent .items).inverse h z.id).mp hb
    obtain ⟨e, he, rfl⟩ := Option.map_eq_some_iff.mp bound
    exact (agrees z e hz he).symm

/-! ## Until it is bound again -/

/-- The item is about to be bound to a handle, and the registry does not refuse. -/
def State.Rebinds (c : State) (ref : Ref) : Prop :=
  ∃ a, a ≠ .null ∧ c.op? = some (.bind ref a) ∧ (c.world.register ref a).2 = none

/-- The item is not there any more, or it is the one with this id, and has no handle. -/
def World.Stale (w : World) (ref : Ref) (id : ItemId) : Prop :=
  ref.serial < w.nextRef ∧ ∀ y, w.IsItem ref y → y.id = id ∧ y.handle = .null

theorem stale_next {s s' : State} (hr : Reach k s) (hn : Next k s s') (unbound : ¬ s.Rebinds ref) {id : ItemId}
    (hs : s.world.Stale ref id) : s'.world.Stale ref id := by
  cases hn with
  | call w level choose => exact hs
  | turn ht =>
    have older := (since_turn hr.ordered hr.tracked ht).ages.nextRef
    refine ⟨Nat.lt_of_lt_of_le hs.1 older, fun y hy => ?_⟩
    obtain ⟨p, w, t, ts, ok⟩ := ht
    obtain ⟨x, hx, hi, bound | ⟨-, null | same⟩⟩ := hr.handle_turn ok hs.1 hy
    · refine ⟨hi.symm.trans (hs.2 x hx).1, ?_⟩
      obtain ⟨level, job⟩ := t
      obtain ⟨⟨choose, rfl, ho⟩, accepted⟩ := bound
      by_contra hn
      exact unbound ⟨y.handle, hn, congrArg some ho, accepted⟩
    · exact ⟨hi.symm.trans (hs.2 x hx).1, null⟩
    · exact ⟨hi.symm.trans (hs.2 x hx).1, same.trans (hs.2 x hx).2⟩

/-- An item loses its handle in a call, wherever that is made: the program has asked it to delete
    itself, and that succeeds; or its object has been destroyed, the call that reports this comes to
    its end, and no handler has bound the item to another object. The run goes on in any way in which
    the item is not bound to a handle again. As long as it is there, it has the id that it had, and
    every operation that needs its handle answers that the item with this id is deleted, changes
    nothing but the answer, and makes nothing due. -/
theorem stale_use_is_refused {k : Conduct} {w w' : World} {t : Task} {ts : List Task} {vs : List (Task × World)} {ref : Ref}
    {x : Wrapper} {s : State} (hr : Reach k ⟨w, t :: ts⟩) (hx : w.IsItem ref x) (run : Runs [t] w vs w') (ok : AllAllowed k vs)
    (lost : Loses k ref w vs w' t.job) (later : Avoids k (·.Rebinds ref) ⟨w', ts⟩ s) {y : Wrapper} (hy : s.world.IsItem ref y) :
    y.id = x.id ∧ s.world.liveHandle ref = .error (.itemDeleted x.id) ∧
      ∀ op : Op, op.NeedsHandle ref → s.world.perform op = (s.world.failing (.bind (.itemDeleted x.id)), []) := by
  have ended : w'.Stale ref x.id := by
    have ages := (run.ages hr ok).1
    refine ⟨Nat.lt_of_lt_of_le (hr.ordered.refBelow ref x hx.1) ages.nextRef, fun z hz => ?_⟩
    exact ⟨(ages.item hr.ordered hx hz.1).2, lost.handle_null run hr ok hx hz⟩
  obtain ⟨-, -, stale⟩ := later.keeps (I := fun c => c.world.Stale ref x.id) (Reach.finish run hr ok)
    (fun c c' reach step unbound => stale_next reach step unbound) ended
  obtain ⟨same, null⟩ := stale y hy
  have handle : s.world.handleOf ref = .null := (World.handleOf_eq hy.1).trans null
  have id : s.world.idOf ref = x.id := (World.idOf_eq hy.1).trans same
  refine ⟨same, ?_, fun op ho => ?_⟩
  · simp only [World.liveHandle, handle, id]
    rfl
  · rw [World.refused_without_handle handle ho, id]

/-- A program whose handlers do nothing. -/
def bystander : Program where
  limit := 4
  body _ := []

/-- The first of two items is about to be deleted. -/
def retiring : State := ⟨beforeHandover, [⟨4, .act fun _ => .delete ⟨0⟩⟩]⟩

def retired : World := (State.after bystander 12 retiring).world

/-- The first item has been deleted, and the second bound to the handle that it had. -/
def takenOver : State := State.after bystander 1 ⟨retired, [⟨4, .act fun _ => .bind ⟨1⟩ ⟨0x1000⟩⟩]⟩

theorem allowed_retiring : AllAllowed .free (bystander.trace 12 retiring) := by
  intro v hv choose hc
  repeat' rcases hv with _ | ⟨_, hv⟩
  all_goals cases hc
  exact ⟨⟨by decide, by decide⟩, trivial⟩

/-- The first item refuses the use of its object, the second has it. -/
theorem the_first_is_stale_and_the_second_is_not :
    takenOver.world.lookupHandle .items ⟨0x1000⟩ = some ⟨1⟩ ∧
    takenOver.world.perform (.isEnabled ⟨0⟩) = (takenOver.world.failing (.bind (.itemDeleted ⟨0⟩)), []) ∧
    (takenOver.world.perform (.isEnabled ⟨1⟩)).1.answer ≠ .failed (.bind (.itemDeleted ⟨1⟩)) := by
  have run : Runs _ beforeHandover (bystander.trace 12 retiring) retired := bystander.runs_trace rfl
  have asked := reach_beforeHandover.call 4 (fun _ => .delete ⟨0⟩)
  have lost : Loses .free ⟨0⟩ beforeHandover (bystander.trace 12 retiring) retired (.act fun _ => .delete ⟨0⟩) :=
    .deleted rfl rfl
  have later : Avoids .free (·.Rebinds ⟨0⟩) ⟨retired, []⟩ takenOver := by
    refine .tail (.single ⟨.call _ 4 fun _ => .bind ⟨1⟩ ⟨0x1000⟩, ?_⟩) ⟨.turn (.mk bystander _ _ [] ?_), ?_⟩
    · rintro ⟨a, -, ho, -⟩
      cases ho
    · rintro choose hc
      cases hc
      exact ⟨⟨by decide, by decide⟩, trivial, trivial⟩
    · rintro ⟨a, -, ho, -⟩
      cases ho
  obtain ⟨-, -, refused⟩ := stale_use_is_refused asked ⟨rfl, rfl⟩ run allowed_retiring lost later ⟨rfl, rfl⟩
  exact ⟨by decide, refused (.isEnabled ⟨0⟩) rfl, by decide⟩

end HandleBridge
