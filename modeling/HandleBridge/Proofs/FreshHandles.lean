/-
  HandleBridge.Proofs.FreshHandles — which handles name one object at a time.

  Handles come from a counter, which gives ascending multiples of the stride, and from whoever
  adopts one. The counter alone never gives a handle twice; it does not look at what was adopted,
  though, and adopting does not look at the plain objects. So a handle is sure to name one object
  at a time as long as nobody adopts it while the counter has still to give it or a plain object
  has it (`Toolkit.Clashes`).

  - `Turn.keeps_toolkit`: what the changes of the toolkit keep is kept by every step.
  - `Toolkit.Counted`: the counter is past null and past every plain object.
  - `Toolkit.Apart`: what is known of a handle that was never adopted over.
  - `handles_name_one_object`: what is made gets a handle that was not in use, and no handle is alive
    and destroyed, or an item and a plain object, at once.
-/
import HandleBridge.Proofs.PartContents
import HandleBridge.Proofs.Stock
import Mathlib.Tactic.IntervalCases

namespace HandleBridge

/-! ## What happens to the toolkit -/

namespace World

theorem toolkit_release (w : World) (ref : Ref) : (w.release ref).toolkit = w.toolkit := by
  unfold release
  split
  · rfl
  · split
    · rfl
    · split
      · exact toolkit_forget _ _ _
      · rfl

end World

namespace Conduct

/-- Whatever can be written, as long as the counter of handles does not overflow. -/
def roomy : Conduct := { free with overflows := False }

/-- A conduct without the operation that makes a handle an item. -/
def unadopting (k : Conduct) : Conduct := { k with adopts := False }

theorem Permits.unadopting {k : Conduct} {w : World} {op : Op} (h : k.Permits w op) (ha : ∀ a, op ≠ .adopt a) :
    k.unadopting.Permits w op := by
  cases op with
  | adopt a => exact absurd rfl (ha a)
  | native c => cases c <;> exact h
  | _ => exact h

end Conduct

/-- What the changes of the toolkit keep is kept by a step. A handle is adopted by an operation of
    its own, so there the whole step is known. -/
theorem Turn.keeps_toolkit {k : Conduct} {I : Toolkit → Prop} {c c' : State} (hs : Turn k c c')
    (createItem : ∀ t, I t → k.overflows ∨ t.HasRoom → I t.createItem)
    (createObject : ∀ t, I t → k.overflows ∨ t.HasRoom → I t.createObject)
    (adopt : ∀ h, c.op? = some (.adopt h) → I (c.world.toolkit.adopt h))
    (takePending : ∀ t, I t → I t.takePending) (call : ∀ t n, I t → I (t.apply n))
    (without : ∀ t h, I t → t.items.contains h = true → I (t.without h)) (hi : I c.world.toolkit) : I c'.world.toolkit := by
  obtain ⟨p, w, t, ts, ok⟩ := hs
  by_cases ha : ∃ h, State.op? ⟨w, t :: ts⟩ = some (.adopt h)
  · obtain ⟨h, ho⟩ := ha
    obtain ⟨level, job⟩ := t
    cases job with
    | act choose =>
      have chosen : choose w = .adopt h := by simpa [State.op?] using ho
      show I (w.perform (choose w)).1.toolkit
      rw [chosen]
      exact adopt h ho
    | _ => simp [State.op?] at ho
  · have quiet : Turn k.unadopting ⟨w, t :: ts⟩ ⟨(p.expand t w).1, (p.expand t w).2 ++ ts⟩ := by
      refine .mk p w t ts fun choose e => ⟨(ok choose e).1, (ok choose e).2.unadopting fun h hc => ha ⟨h, ?_⟩⟩
      obtain ⟨level, job⟩ := t
      cases e
      simp [State.op?, hc]
    have slot (t : Toolkit) (space : Space) (previous h : Handle) (hi : I t) : I (t.moveSlot space previous h) := by
      simp only [Toolkit.moveSlot]
      split <;> split <;> simp only [call, hi]
    refine quiet.keeps (I := fun w => I w.toolkit) (fun v v' hv hm => ?_) (fun v h t slot hv hd => ?_)
      (fun v space h hv => ?_) (fun level space h id wrapper ts _ hv => ?_) hi
    · cases hm with
      | aside hc => rwa [(World.core_eq hc).1]
      | createItem hr => exact createItem _ hv hr
      | createObject hr => exact createObject _ hv hr
      | adopt h hk => exact hk.elim
      | takePending => exact takePending _ hv
      | call n hn => exact call _ n hv
      | allocate space id r _ => rwa [World.toolkit_setRegistry]
      | create space id r kind _ _ =>
        show I (v.setRegistry space r).toolkit
        rwa [World.toolkit_setRegistry]
      | share id name bare _ => exact hv
      | free ref x _ _ => rwa [World.toolkit_release]
      | attach ref h _ _ _ => exact slot _ _ _ _ hv
      | rebind ref h _ _ _ _ => exact slot _ _ _ _ hv
      | confirm | setProbe | setNull | edit => exact hv
      | forget space id _ => rwa [World.toolkit_forget]
    · obtain ⟨i, hg⟩ := Option.isSome_iff_exists.mp (Toolkit.destroy?_eq hd).1
      rw [Toolkit.destroy?_alive hg] at hd
      obtain ⟨rfl, -⟩ := Prod.mk.inj (Option.some.inj hd)
      exact without _ h hv (Toolkit.destroy?_eq (Toolkit.destroy?_alive hg)).1
    · rwa [World.toolkit_setRegistry]
    · rwa [World.toolkit_settled]

/-! ## The counter -/

namespace Toolkit

variable {t : Toolkit} {h a : Handle}

/-- The counter is past null and past every plain object. -/
structure Counted (t : Toolkit) : Prop where
  begun : firstHandle.toNat ≤ t.nextHandle.toNat
  objects : ∀ o ∈ t.objects, firstHandle.toNat ≤ o.raw.toNat ∧ o.raw.toNat < t.nextHandle.toNat

/-- The counter has still to give the handle, if it gets that far without overflow. -/
def Upcoming (t : Toolkit) (h : Handle) : Prop := ∃ k : Nat, h.raw.toNat = t.nextHandle.toNat + k * handleStride.toNat

/-- To make the handle an item is to take it from the counter or from a plain object. -/
def Clashes (t : Toolkit) (h : Handle) : Prop := t.Upcoming h ∨ h ∈ t.objects

theorem toNat_advance (hr : t.HasRoom) : t.advance.nextHandle.toNat = t.nextHandle.toNat + handleStride.toNat := by
  show (t.nextHandle + handleStride).toNat = _
  rw [UInt64.toNat_add, Nat.mod_eq_of_lt hr]

theorem upcoming_freshHandle (t : Toolkit) : t.Upcoming t.freshHandle := ⟨0, by simp [freshHandle]⟩

theorem Upcoming.of_advance (hr : t.HasRoom) (h : t.advance.Upcoming a) : t.Upcoming a := by
  obtain ⟨k, hk⟩ := h
  refine ⟨k + 1, ?_⟩
  rw [hk, toNat_advance hr, Nat.add_mul]
  omega

/-- What the counter has given it does not give again. -/
theorem not_upcoming_freshHandle (hr : t.HasRoom) : ¬ t.advance.Upcoming t.freshHandle := by
  rintro ⟨k, hk⟩
  rw [toNat_advance hr] at hk
  have stride : handleStride.toNat = 16 := rfl
  have given : t.freshHandle.raw.toNat = t.nextHandle.toNat := rfl
  omega

theorem Counted.not_upcoming (hc : t.Counted) (ho : h ∈ t.objects) : ¬ t.Upcoming h := by
  rintro ⟨k, hk⟩
  have below := (hc.objects h ho).2
  omega

theorem Counted.freshHandle_ne_null (hc : t.Counted) : t.freshHandle ≠ .null := by
  intro e
  have begun := hc.begun
  have first : firstHandle.toNat = 0x1000 := rfl
  have given : t.freshHandle.raw.toNat = t.nextHandle.toNat := rfl
  rw [e] at given
  have zero : Handle.null.raw.toNat = 0 := rfl
  omega

theorem Counted.freshHandle_not_object (hc : t.Counted) : t.freshHandle ∉ t.objects :=
  fun ho => hc.not_upcoming ho t.upcoming_freshHandle

theorem isAlive_iff (t : Toolkit) {a : Handle} : t.isAlive a = true ↔ t.items.contains a = true ∨ a ∈ t.objects := by
  simp only [isAlive, Bool.or_eq_true, decide_eq_true_eq]

theorem isAlive_eq_false_iff (t : Toolkit) {a : Handle} : t.isAlive a = false ↔ t.items.contains a = false ∧ a ∉ t.objects := by
  rw [← Bool.not_eq_true, isAlive_iff, not_or, Bool.not_eq_true]

/-- A new item is in its first state unless an item had its handle already. -/
theorem fresh_createItem (t : Toolkit) (unused : t.items.contains t.freshHandle = false) :
    t.createItem.items.get? t.freshHandle = some .fresh ∧ t.createItem.deleteSlot t.freshHandle = none := by
  have fresh : t.createItem.items.get? t.freshHandle = some .fresh := by
    rw [items_createItem, if_neg (by rw [unused]; simp), Table.get?_insert, if_pos rfl]
  refine ⟨fresh, ?_⟩
  rw [deleteSlot, fresh]
  rfl

/-- The plain objects after a call are some of those before. -/
theorem objects_apply (t : Toolkit) (c : NativeCall) :
    (t.apply c).objects = t.objects ∧ (t.apply c).destroyed = t.destroyed ∨
      ∃ o ∈ t.objects, c = .objectDel o ∧ (t.apply c).objects = t.objects.filter (· ≠ o) ∧
        (t.apply c).destroyed = addHandle o t.destroyed := by
  unfold apply
  cases c with
  | itemDel h =>
    left
    simp only [effect]
    split
    · exact ⟨rfl, rfl⟩
    · split <;> exact ⟨rfl, rfl⟩
  | objectDel h =>
    simp only [effect]
    split
    · rename_i ho
      exact Or.inr ⟨h, ho, rfl, rfl, rfl⟩
    · exact Or.inl ⟨rfl, rfl⟩
  | _ => exact Or.inl ⟨rfl, rfl⟩

theorem Counted.advance (hc : t.Counted) (hr : t.HasRoom) : t.advance.Counted := by
  have next := toNat_advance hr
  refine ⟨Nat.le_trans hc.begun (by omega), fun o ho => ?_⟩
  obtain ⟨above, below⟩ := hc.objects o ho
  exact ⟨above, by omega⟩

theorem Counted.adopt (hc : t.Counted) (h : Handle) : (t.adopt h).Counted := ⟨hc.begun, hc.objects⟩

theorem Counted.createItem (hc : t.Counted) (hr : t.HasRoom) : t.createItem.Counted := (hc.advance hr).adopt _

theorem Counted.createObject (hc : t.Counted) (hr : t.HasRoom) : t.createObject.Counted := by
  have next := hc.advance hr
  refine ⟨next.begun, fun o ho => ?_⟩
  rcases (mem_addHandle _ o _).mp ho with rfl | ho
  · exact ⟨hc.begun, nextHandle_advance hr⟩
  · exact next.objects o ho

theorem Counted.takePending (hc : t.Counted) : t.takePending.Counted := ⟨hc.begun, hc.objects⟩

theorem Counted.apply (hc : t.Counted) (c : NativeCall) : (t.apply c).Counted := by
  have same := t.nextHandle_apply c
  refine ⟨same ▸ hc.begun, fun o ho => ?_⟩
  rw [same]
  rcases t.objects_apply c with ⟨objects, -⟩ | ⟨o', -, -, objects, -⟩
  · exact hc.objects o (objects ▸ ho)
  · rw [objects] at ho
    exact hc.objects o (List.mem_of_mem_filter ho)

theorem Counted.without (hc : t.Counted) (h : Handle) : (t.without h).Counted := ⟨hc.begun, hc.objects⟩

end Toolkit

theorem Turn.counted {c c' : State} (hs : Turn .roomy c c') (hc : c.world.toolkit.Counted) : c'.world.toolkit.Counted :=
  hs.keeps_toolkit (fun _ ht hr => ht.createItem (hr.resolve_left id)) (fun _ ht hr => ht.createObject (hr.resolve_left id))
    (fun h _ => hc.adopt h) (fun _ ht => ht.takePending) (fun _ n ht => ht.apply n) (fun _ h ht _ => ht.without h) hc

theorem Reach.counted {c : State} (h : Reach .roomy c) : c.world.toolkit.Counted :=
  h.invariant (I := fun c => c.world.toolkit.Counted) (fun _ => ⟨Nat.le_refl _, nofun⟩) (fun _ _ _ h => h)
    fun _ _ hc hs => hs.counted hc

/-! ## Handles that nobody adopted over -/

namespace Toolkit

variable {t : Toolkit} {h a : Handle}

/-- The handle is not in use before the counter gives it, and then names one object at a time. -/
structure Apart (t : Toolkit) (a : Handle) : Prop where
  unused : t.Upcoming a → t.items.contains a = false ∧ a ∉ t.objects ∧ a ∉ t.destroyed
  gone : a ∈ t.destroyed → t.items.contains a = false ∧ a ∉ t.objects
  one : t.items.contains a = true → a ∉ t.objects

theorem Apart.advance (ha : t.Apart a) (hr : t.HasRoom) : t.advance.Apart a :=
  ⟨fun hu => ha.unused (hu.of_advance hr), ha.gone, ha.one⟩

theorem mem_destroyed_adopt (t : Toolkit) (h a : Handle) : a ∈ (t.adopt h).destroyed ↔ a ∈ t.destroyed ∧ a ≠ h := by
  simp [adopt]

theorem Apart.adopt (ha : t.Apart a) (hc : h = a → ¬ t.Clashes a) : (t.adopt h).Apart a := by
  have alive := t.contains_adopt_iff h a
  have destroyed := t.mem_destroyed_adopt h a
  by_cases e : h = a
  · have free := hc e
    refine ⟨fun hu => absurd (Or.inl hu) free, fun hd => absurd e.symm (destroyed.mp hd).2, fun _ ho => free (Or.inr ho)⟩
  · have same : (t.adopt h).items.contains a = t.items.contains a := Bool.eq_iff_iff.mpr (alive.trans (or_iff_right e))
    refine ⟨fun hu => ?_, fun hd => ?_, fun hi => ha.one (same ▸ hi)⟩
    · obtain ⟨item, object, dead⟩ := ha.unused hu
      exact ⟨same.trans item, object, fun hd => dead (destroyed.mp hd).1⟩
    · obtain ⟨item, object⟩ := ha.gone (destroyed.mp hd).1
      exact ⟨same.trans item, object⟩

theorem Apart.createItem (ha : t.Apart a) (hc : t.Counted) (hr : t.HasRoom) : t.createItem.Apart a := by
  refine (ha.advance hr).adopt ?_
  rintro rfl
  rintro (hu | ho)
  · exact not_upcoming_freshHandle hr hu
  · exact hc.freshHandle_not_object ho

theorem Apart.createObject (ha : t.Apart a) (hr : t.HasRoom) : t.createObject.Apart a := by
  have next := ha.advance hr
  have objects : a ∈ t.createObject.objects ↔ a = t.freshHandle ∨ a ∈ t.objects := mem_addHandle _ a _
  by_cases e : a = t.freshHandle
  · obtain ⟨item, -, dead⟩ := ha.unused (e ▸ t.upcoming_freshHandle)
    refine ⟨fun hu => absurd hu (e ▸ not_upcoming_freshHandle hr), fun hd => absurd hd dead, fun hi => ?_⟩
    rw [show t.createObject.items = t.items from rfl, item] at hi
    cases hi
  · have same : a ∉ t.objects → a ∉ t.createObject.objects := fun hn ho => hn ((objects.mp ho).resolve_left e)
    refine ⟨fun hu => ?_, fun hd => ?_, fun hi => same (ha.one hi)⟩
    · obtain ⟨item, object, dead⟩ := next.unused hu
      exact ⟨item, same object, dead⟩
    · obtain ⟨item, object⟩ := ha.gone hd
      exact ⟨item, same object⟩

theorem Apart.apply (ha : t.Apart a) (c : NativeCall) : (t.apply c).Apart a := by
  have alive := t.contains_apply c a
  have next : (t.apply c).Upcoming a → t.Upcoming a := by
    rintro ⟨k, hk⟩
    exact ⟨k, by rw [hk, nextHandle_apply]⟩
  rcases t.objects_apply c with ⟨objects, destroyed⟩ | ⟨o, ho, -, objects, destroyed⟩
  · refine ⟨fun hu => ?_, fun hd => ?_, fun hi => ?_⟩
    · rw [alive, objects, destroyed]
      exact ha.unused (next hu)
    · rw [alive, objects]
      exact ha.gone (destroyed ▸ hd)
    · rw [objects]
      exact ha.one (alive ▸ hi)
  · have fewer : a ∈ (t.apply c).objects ↔ a ∈ t.objects ∧ a ≠ o := by simp [objects]
    have more : a ∈ (t.apply c).destroyed ↔ a = o ∨ a ∈ t.destroyed := by rw [destroyed, mem_addHandle]
    refine ⟨fun hu => ?_, fun hd => ?_, fun hi => ?_⟩
    · obtain ⟨item, object, dead⟩ := ha.unused (next hu)
      refine ⟨alive.trans item, fun h => object (fewer.mp h).1, fun h => ?_⟩
      rcases more.mp h with rfl | h
      · exact object ho
      · exact dead h
    · rcases more.mp hd with rfl | hd
      · refine ⟨?_, fun h => (fewer.mp h).2 rfl⟩
        rw [alive]
        exact Bool.eq_false_iff.mpr fun hi => ha.one hi ho
      · obtain ⟨item, object⟩ := ha.gone hd
        exact ⟨alive.trans item, fun h => object (fewer.mp h).1⟩
    · exact fun h => ha.one (alive ▸ hi) (fewer.mp h).1

theorem Apart.without (ha : t.Apart a) (hh : t.items.contains h = true) : (t.without h).Apart a := by
  have alive := t.contains_without h a
  have more : a ∈ (t.without h).destroyed ↔ a = h ∨ a ∈ t.destroyed := mem_addHandle h a _
  have dead (item : t.items.contains a = false) : (t.without h).items.contains a = false := by
    refine Bool.eq_false_iff.mpr fun hi => ?_
    rw [(alive.mp hi).1] at item
    cases item
  refine ⟨fun hu => ?_, fun hd => ?_, fun hi => ha.one (alive.mp hi).1⟩
  · obtain ⟨item, object, unspent⟩ := ha.unused hu
    refine ⟨dead item, object, fun hd => ?_⟩
    rcases more.mp hd with rfl | hd
    · rw [hh] at item
      cases item
    · exact unspent hd
  · rcases more.mp hd with rfl | hd
    · exact ⟨Bool.eq_false_iff.mpr fun hi => (alive.mp hi).2 rfl, ha.one hh⟩
    · obtain ⟨item, object⟩ := ha.gone hd
      exact ⟨dead item, object⟩

end Toolkit

theorem Turn.apart {c c' : State} {a : Handle} (hs : Turn .roomy c c') (hc : c.world.toolkit.Counted)
    (ha : c.world.toolkit.Apart a) (hn : c.op? = some (.adopt a) → ¬ c.world.toolkit.Clashes a) :
    c'.world.toolkit.Apart a := by
  have room {t : Toolkit} (hr : Conduct.roomy.overflows ∨ t.HasRoom) : t.HasRoom := hr.resolve_left id
  refine (hs.keeps_toolkit (I := fun t => t.Counted ∧ t.Apart a) (fun t ht hr => ?_) (fun t ht hr => ?_) (fun h ho => ?_)
    (fun t ht => ?_) (fun t n ht => ?_) (fun t h ht hh => ?_) ⟨hc, ha⟩).2
  · exact ⟨ht.1.createItem (room hr), ht.2.createItem ht.1 (room hr)⟩
  · exact ⟨ht.1.createObject (room hr), ht.2.createObject (room hr)⟩
  · refine ⟨hc.adopt h, ha.adopt ?_⟩
    rintro rfl
    exact hn ho
  · exact ⟨ht.1.takePending, ht.2.unused, ht.2.gone, ht.2.one⟩
  · exact ⟨ht.1.apply n, ht.2.apply n⟩
  · exact ⟨ht.1.without h, ht.2.without hh⟩

namespace Course

variable {k : Conduct} {n : Nat} {a : Handle}

/-- Someone has made the handle an item where it clashes. -/
def AdoptedOver (c : Course k) (n : Nat) (a : Handle) : Prop :=
  ∃ i < n, (c.state i).op? = some (.adopt a) ∧ (c.state i).world.toolkit.Clashes a

/-- A handle that was never adopted over is not in use before its time, and names one object at a
    time. -/
theorem apart (c : Course .roomy) (hn : n ≤ c.length) (ha : ¬ c.AdoptedOver n a) : (c.state n).world.toolkit.Apart a := by
  induction n with
  | zero =>
    obtain ⟨mode, e⟩ := c.start
    rw [e]
    exact ⟨fun _ => ⟨rfl, nofun, nofun⟩, nofun, nofun⟩
  | succ n ih =>
    have before := ih (Nat.le_of_lt hn) fun ⟨i, hi, clash⟩ => ha ⟨i, Nat.lt_succ_of_lt hi, clash⟩
    rcases c.turn_or_call hn with ht | ⟨-, same⟩
    · exact ht.apart (c.reach (Nat.le_of_lt hn)).counted before fun ho clash => ha ⟨n, Nat.lt_succ_self n, ho, clash⟩
    · rwa [same]

end Course

/-- The operations that take a handle from the counter. -/
def Op.TakesHandle (op : Op) : Prop := op = .createItem ∨ op = .createObject

/-- In every run in which the counter of handles does not overflow, with any handles adopted:
    - what is made gets a handle that is not null and that no plain object has, and is alive under it;
    - a new item is not destroyed, and unless an item was alive under its handle already, it is in its
      first state, with nothing in its delete slot;
    - unless that handle was adopted over before, nothing was alive under it, and nothing had been
      destroyed under it;
    - a handle that was not adopted over is not alive and destroyed at once, nor an item and a plain
      object.
    Where it was adopted over, the item that has the handle is given out as the new one, as it is,
    and a new plain object stays destroyed if the item was. -/
theorem handles_name_one_object (c : Course .roomy) :
    (∀ n op, n < c.length → (c.state n).op? = some op → op.TakesHandle →
      let t := (c.state n).world.toolkit
      let t' := (c.state (n + 1)).world.toolkit
      let h := t.freshHandle
      ((c.state (n + 1)).world.answer = .handle h ∧ h ≠ .null ∧ h ∉ t.objects ∧ t'.isAlive h = true) ∧
      (op = .createItem → t'.wasDestroyed h = false ∧
        (t.items.contains h = false → t'.items.get? h = some .fresh ∧ t'.deleteSlot h = none) ∧
        (t.items.contains h = true → t'.items = t.items)) ∧
      (op = .createObject → t'.wasDestroyed h = t.wasDestroyed h) ∧
      (¬ c.AdoptedOver n h → t.isAlive h = false ∧ t.wasDestroyed h = false)) ∧
    ∀ n h, n ≤ c.length → ¬ c.AdoptedOver n h →
      let t := (c.state n).world.toolkit
      ¬ (t.isAlive h = true ∧ t.wasDestroyed h = true) ∧ ¬ (t.items.contains h = true ∧ h ∈ t.objects) := by
  refine ⟨fun n op hn ho takes => ?_, fun n h hn still => ?_⟩
  · intro t t' h
    have counted : t.Counted := (c.reach (Nat.le_of_lt hn)).counted
    have done := (c.performed hn ho).2
    have made : op = .createItem → t' = t.createItem := fun e => by rw [e] at done; exact congrArg (·.toolkit) done
    have plain : op = .createObject → t' = t.createObject := fun e => by rw [e] at done; exact congrArg (·.toolkit) done
    refine ⟨⟨?_, counted.freshHandle_ne_null, counted.freshHandle_not_object, ?_⟩, fun e => ⟨?_, fun unused => ?_, fun alive => ?_⟩,
      fun e => ?_, fun still => ?_⟩
    · rcases takes with rfl | rfl <;> exact congrArg (·.answer) done
    · rw [Toolkit.isAlive_iff]
      rcases takes with e | e
      · rw [made e]
        exact Or.inl ((t.contains_createItem h).mpr (Or.inl rfl))
      · rw [plain e]
        exact Or.inr ((Toolkit.mem_addHandle _ h _).mpr (Or.inl rfl))
    · rw [made e]
      exact decide_eq_false fun dead => ((t.advance.mem_destroyed_adopt h h).mp dead).2 rfl
    · rw [made e]
      exact t.fresh_createItem unused
    · rw [made e, Toolkit.items_createItem, if_pos alive]
    · rw [plain e]
      rfl
    · obtain ⟨item, object, dead⟩ := (c.apart (Nat.le_of_lt hn) still).unused t.upcoming_freshHandle
      exact ⟨t.isAlive_eq_false_iff.mpr ⟨item, object⟩, decide_eq_false dead⟩
  · have apart := c.apart hn still
    intro t
    refine ⟨?_, fun both => apart.one both.1 both.2⟩
    rintro ⟨alive, dead⟩
    have gone := t.isAlive_eq_false_iff.mpr (apart.gone (of_decide_eq_true dead))
    cases alive.symm.trans gone

/-- Between the handles that the counter gives an item is adopted; a plain object goes, and an item
    is made. -/
def adopting : List Op := [.createObject, .adopt ⟨0x2008⟩, .native (.objectDel ⟨0x1000⟩), .createItem]

theorem can_perform_adopting : (World.start .synchronous).CanPerform .roomy adopting :=
  ⟨⟨⟨trivial, Or.inr (by decide)⟩, rfl⟩, ⟨⟨trivial, trivial⟩, rfl⟩, ⟨⟨trivial, trivial⟩, rfl⟩,
    ⟨⟨trivial, Or.inr (by decide)⟩, rfl⟩, trivial⟩

/-- The new item has the second handle of the counter, and the adopted handle is an item's alone. -/
theorem adopting_leaves_the_counter_alone :
    let c := Course.errands adopting can_perform_adopting
    (c.state 7).world.toolkit.freshHandle = ⟨0x1010⟩ ∧ (c.state 7).world.toolkit.isAlive ⟨0x1010⟩ = false ∧
    (c.state 8).world.toolkit.items.get? ⟨0x1010⟩ = some .fresh ∧
    (c.state 8).world.toolkit.items.contains ⟨0x2008⟩ = true ∧ (c.state 8).world.toolkit.wasDestroyed ⟨0x2008⟩ = false := by
  intro c
  obtain ⟨taken, apart⟩ := handles_name_one_object c
  have adopted {i : Nat} {a : Handle} (ho : (c.state i).op? = some (.adopt a)) : a = ⟨0x2008⟩ := by
    have hm := Course.mem_errands ho
    simpa [adopting] using hm
  have first : ¬ c.AdoptedOver 7 ⟨0x1010⟩ := by
    rintro ⟨i, -, ho, -⟩
    exact absurd (adopted ho) (by decide)
  have second : ¬ c.AdoptedOver 8 ⟨0x2008⟩ := by
    rintro ⟨i, hi, ho, clash⟩
    have here : i = 3 := by
      interval_cases i <;> first | rfl | cases ho
    subst here
    rcases clash with ⟨k, hk⟩ | hm
    · change 0x2008 = 0x1010 + k * 16 at hk
      omega
    · exact absurd hm (by decide)
  obtain ⟨-, made, -, unused⟩ := taken 7 .createItem (by decide) rfl (Or.inl rfl)
  have alive : (c.state 8).world.toolkit.isAlive ⟨0x2008⟩ = true := by decide
  have spent := (apart 8 ⟨0x2008⟩ (by decide) second).1
  refine ⟨rfl, (unused first).1, ((made rfl).2.1 (by decide)).1, by decide, ?_⟩
  exact Bool.eq_false_iff.mpr fun dead => spent ⟨alive, dead⟩

/-- The item of an adopted handle is destroyed, and then the counter comes to that handle. -/
theorem adopted_over_alive_and_destroyed : ∃ w, Reach .roomy ⟨w, []⟩ ∧ w.toolkit.isAlive ⟨0x1000⟩ = true ∧
    w.toolkit.wasDestroyed ⟨0x1000⟩ = true := by
  have start : Reach .roomy ⟨.start .synchronous, []⟩ := .start _
  have adopted := (start.call 4 (fun _ => .adopt ⟨0x1000⟩)).perform mover ⟨trivial, trivial⟩
  have gone := ((adopted.call 4 (fun _ => .destroy ⟨0x1000⟩)).perform mover ⟨trivial, trivial⟩).quiet mover (by simp)
  have made := (gone.call 4 (fun _ => .createObject)).perform mover ⟨trivial, Or.inr (by decide)⟩
  exact ⟨_, made, by decide, by decide⟩

end HandleBridge
