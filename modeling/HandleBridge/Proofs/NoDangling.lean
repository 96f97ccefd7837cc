/-
  HandleBridge.Proofs.NoDangling — no wrapper is left with the handle of an object that
  the toolkit has destroyed.

  The item registry has the toolkit to itself (`Conduct.sole`): items come from the toolkit's
  own creation, only the registry sets delete slots, only the toolkit reports deletions,
  and items are bound to what is alive. Inside handlers everything else goes on: further
  deletions, flushes, rebinding, dropping wrappers, to any depth.

  A deletion is `Coming` while it is on its way to the item: its delete callback is due, or
  its report, or the end of its report. What every step keeps is (`Sound`):
  - an object that is alive and mapped has the registry's callback in its slot, so that
    its destruction makes the callback due (`sound_destroyed`),
  - an item holds null, or an object that is alive, or its deletion is coming,
  - a deletion that is coming is one of an object that is gone for good: handles are not
    used again and only what is alive is bound, so no report that counts is ignored for
    one that is under way (`sound_report`).

  - `no_dangling_handles`: the slots at every point, and the handles whenever nothing is
    left to do.
-/
import HandleBridge.Proofs.OwnHandle

namespace HandleBridge

/-! ## The toolkit -/

namespace Toolkit

theorem contains_modifyItem (t : Toolkit) (h a : Handle) (f : NativeItem → NativeItem) :
    (t.modifyItem h f).items.contains a = t.items.contains a := by
  simp only [modifyItem, Table.contains, Table.get?_modify]
  split
  · exact Option.isSome_map
  · rfl

theorem contains_apply (t : Toolkit) (c : NativeCall) (a : Handle) :
    (t.apply c).items.contains a = t.items.contains a := by
  unfold apply
  cases c with
  | itemDel h =>
    simp only [effect]
    split
    · rfl
    · split <;> rfl
  | objectDel h =>
    simp only [effect]
    split <;> rfl
  | itemDelCbSet | disabledSet | partTextSet | partContentSet | partContentUnset | selectedSet | update =>
    exact t.contains_modifyItem _ a _
  | _ => rfl

theorem nextHandle_apply (t : Toolkit) (c : NativeCall) : (t.apply c).nextHandle = t.nextHandle := by
  unfold apply
  cases c with
  | itemDel h =>
    simp only [effect]
    split
    · rfl
    · split <;> rfl
  | objectDel h =>
    simp only [effect]
    split <;> rfl
  | _ => rfl

theorem deleteSlot_modifyItem (t : Toolkit) (h a : Handle) {f : NativeItem → NativeItem}
    (hf : ∀ i, (f i).deleteSlot = i.deleteSlot) : (t.modifyItem h f).deleteSlot a = t.deleteSlot a := by
  simp only [modifyItem, deleteSlot, Table.get?_modify]
  split
  · cases t.items.get? a with
    | none => rfl
    | some i => exact hf i
  · rfl

/-- No other call touches a delete slot. -/
theorem deleteSlot_apply (t : Toolkit) {c : NativeCall} (hc : ∀ h cb, c ≠ .itemDelCbSet h cb) (a : Handle) :
    (t.apply c).deleteSlot a = t.deleteSlot a := by
  unfold apply
  cases c with
  | itemDelCbSet h cb => exact absurd rfl (hc h cb)
  | itemDel h =>
    simp only [effect]
    split
    · rfl
    · split <;> rfl
  | objectDel h =>
    simp only [effect]
    split <;> rfl
  | disabledSet | partTextSet | partContentSet | partContentUnset | selectedSet | update =>
    exact t.deleteSlot_modifyItem _ a fun _ => rfl
  | _ => rfl

theorem deleteSlot_set {t : Toolkit} {h : Handle} (hc : t.items.contains h = true) (cb : Option DeleteCallback) :
    (t.apply (.itemDelCbSet h cb)).deleteSlot h = cb := by
  obtain ⟨i, hi⟩ := Option.isSome_iff_exists.mp hc
  simp [apply, effect, modifyItem, deleteSlot, hi]

theorem deleteSlot_set_other (t : Toolkit) {h a : Handle} (hne : a ≠ h) (cb : Option DeleteCallback) :
    (t.apply (.itemDelCbSet h cb)).deleteSlot a = t.deleteSlot a := by
  simp [apply, effect, modifyItem, deleteSlot, hne]

theorem contains_moveSlot (t : Toolkit) (space : Space) (previous h a : Handle) :
    (t.moveSlot space previous h).items.contains a = t.items.contains a := by
  simp only [moveSlot]
  split <;> split <;> simp only [contains_apply]

theorem nextHandle_moveSlot (t : Toolkit) (space : Space) (previous h : Handle) :
    (t.moveSlot space previous h).nextHandle = t.nextHandle := by
  simp only [moveSlot]
  split <;> split <;> simp only [nextHandle_apply]

theorem deleteSlot_moveSlot {t : Toolkit} {h : Handle} (hn : h ≠ .null) (hc : t.items.contains h = true) (space : Space)
    (previous : Handle) : (t.moveSlot space previous h).deleteSlot h = some (.registry space) := by
  simp only [moveSlot, h.isNull_eq_false_iff.mpr hn, Bool.false_eq_true, if_false]
  split
  · exact deleteSlot_set hc _
  · exact deleteSlot_set ((t.contains_apply _ h).trans hc) _

theorem deleteSlot_moveSlot_other (t : Toolkit) (space : Space) {previous h a : Handle} (hp : a ≠ previous) (hh : a ≠ h) :
    (t.moveSlot space previous h).deleteSlot a = t.deleteSlot a := by
  simp only [moveSlot]
  split <;> split <;> simp only [deleteSlot_set_other, hp, hh, ne_eq, not_false_eq_true]

theorem nextHandle_advance {t : Toolkit} (hr : t.HasRoom) : t.nextHandle.toNat < t.advance.nextHandle.toNat := by
  unfold HasRoom at hr
  show _ < (t.nextHandle + handleStride).toNat
  rw [UInt64.toNat_add, Nat.mod_eq_of_lt hr]
  show _ < _ + 16
  omega

theorem items_createItem (t : Toolkit) :
    t.createItem.items = if t.items.contains t.freshHandle then t.items else t.items.insert t.freshHandle .fresh := rfl

theorem contains_createItem (t : Toolkit) (a : Handle) :
    t.createItem.items.contains a = true ↔ a = t.freshHandle ∨ t.items.contains a = true := by
  rw [items_createItem]
  by_cases hf : t.items.contains t.freshHandle = true
  · rw [if_pos hf]
    refine ⟨Or.inr, fun h => ?_⟩
    rcases h with rfl | h
    · exact hf
    · exact h
  · rw [if_neg hf, Table.contains, Table.get?_insert]
    by_cases ha : a = t.freshHandle <;> simp [ha, Table.contains]

/-- A new item leaves the slots of the others alone. -/
theorem deleteSlot_createItem {t : Toolkit} {a : Handle} (hne : a ≠ t.freshHandle) :
    t.createItem.deleteSlot a = t.deleteSlot a := by
  rw [deleteSlot, deleteSlot, items_createItem]
  by_cases hf : t.items.contains t.freshHandle = true
  · rw [if_pos hf]
  · rw [if_neg hf, Table.get?_insert, if_neg hne]

theorem destroy?_eq {t t' : Toolkit} {h : Handle} {slot : Option DeleteCallback} (hd : t.destroy? h = some (t', slot)) :
    t.items.contains h = true ∧ slot = t.deleteSlot h ∧ t'.items = t.items.erase h ∧ t'.nextHandle = t.nextHandle := by
  unfold destroy? at hd
  rcases hi : t.items.get? h with _ | i
  · rw [hi] at hd; cases hd
  · rw [hi] at hd
    simp only [Option.some.injEq, Prod.mk.injEq] at hd
    obtain ⟨rfl, rfl⟩ := hd
    refine ⟨?_, ?_, rfl, rfl⟩
    · simp [Table.contains, hi]
    · simp [deleteSlot, hi]

end Toolkit

/-! ## Deletions on their way -/

/-- The end of a report of the deletion of `h`, which was started for this id. -/
def Job.Ends : Job → Handle → ItemId → Prop
  | .settle .items a i _, h, id => a = h ∧ i = id
  | _, _, _ => False

/-- The callback that will report the deletion of `h`, the report, or the end of it. -/
def Job.Carries : Job → Handle → ItemId → Prop
  | .slot (.registry .items) a, h, _ => a = h
  | .nativeDelete .items a, h, _ => a = h
  | .settle .items a i _, h, id => a = h ∧ i = id
  | _, _, _ => False

/-- The deletion of `h` is on its way to the item with this id. -/
def Coming (js : List Job) (h : Handle) (id : ItemId) : Prop := ∃ j ∈ js, j.Carries h id

def Ending (js : List Job) (h : Handle) (id : ItemId) : Prop := ∃ j ∈ js, j.Ends h id

theorem Job.Ends.carries {j : Job} {h : Handle} {id : ItemId} (he : j.Ends h id) : j.Carries h id := by
  cases j with
  | settle space =>
    cases space
    · exact he
    · exact he.elim
  | _ => exact he.elim

theorem Ending.coming {js : List Job} {h : Handle} {id : ItemId} (he : Ending js h id) : Coming js h id := by
  obtain ⟨j, hj, he⟩ := he
  exact ⟨j, hj, he.carries⟩

theorem coming_cons (j : Job) (js : List Job) (h : Handle) (id : ItemId) :
    Coming (j :: js) h id ↔ j.Carries h id ∨ Coming js h id := List.exists_mem_cons_iff _ _ _

theorem ending_cons (j : Job) (js : List Job) (h : Handle) (id : ItemId) :
    Ending (j :: js) h id ↔ j.Ends h id ∨ Ending js h id := List.exists_mem_cons_iff _ _ _

theorem coming_append (js ks : List Job) (h : Handle) (id : ItemId) :
    Coming (js ++ ks) h id ↔ Coming js h id ∨ Coming ks h id := by
  simp only [Coming, List.mem_append, or_and_right, exists_or]

theorem ending_append (js ks : List Job) (h : Handle) (id : ItemId) :
    Ending (js ++ ks) h id ↔ Ending js h id ∨ Ending ks h id := by
  simp only [Ending, List.mem_append, or_and_right, exists_or]

namespace World

/-- The toolkit has destroyed `h`, and will not use it again. -/
def Gone (w : World) (h : Handle) : Prop :=
  w.toolkit.items.contains h = false ∧ h.raw.toNat < w.toolkit.nextHandle.toNat

/-- What the toolkit, the tables and the items have to do with the deletions among `js`. -/
structure Sound (js : List Job) (w : World) : Prop where
  itemsBelow : ∀ h, w.toolkit.items.contains h = true → h.raw.toNat < w.toolkit.nextHandle.toNat
  keysBelow : ∀ h id, (w.registry .items).byHandle.get? h = some id → h.raw.toNat < w.toolkit.nextHandle.toNat
  slot : ∀ h id, w.toolkit.items.contains h = true → (w.registry .items).byHandle.get? h = some id →
    w.toolkit.deleteSlot h = some (.registry .items)
  item : ∀ ref x, w.IsItem ref x → x.handle ≠ .null → w.toolkit.items.contains x.handle = true ∨ Coming js x.handle x.id
  gone : ∀ h id, Coming js h id → w.Gone h
  owner : ∀ h id, Ending js h id → ∀ id', (w.registry .items).byHandle.get? h = some id' → id' = id
  dying : ∀ h ∈ (w.registry .items).dying, ∃ id, Ending js h id

theorem sound_start (mode : DeleteMode) : (World.start mode).Sound [] := by
  refine ⟨?_, ?_, ?_, ?_, ?_, ?_, ?_⟩
  · intro h hc
    simp [start, Toolkit.start, Table.contains] at hc
  · intro h id hb
    simp [start, registry, Registry.empty] at hb
  · intro h id hc
    simp [start, Toolkit.start, Table.contains] at hc
  · intro ref x hx
    simp [IsItem, start] at hx
  · intro h id hc
    simp [Coming] at hc
  · intro h id hc
    simp [Ending] at hc
  · intro h hd
    simp [start, registry, Registry.empty] at hd

variable {js : List Job}

/-- What is alive and the slots are the same, handles leave the table, and an item that
    holds one held it before, or it is alive. -/
theorem sound_frame {w w' : World} (hs : w.Sound js)
    (alive : ∀ h, w'.toolkit.items.contains h = w.toolkit.items.contains h)
    (next : w.toolkit.nextHandle.toNat ≤ w'.toolkit.nextHandle.toNat)
    (slot : ∀ h, w'.toolkit.deleteSlot h = w.toolkit.deleteSlot h)
    (keys : ∀ h id, (w'.registry .items).byHandle.get? h = some id → (w.registry .items).byHandle.get? h = some id)
    (dying : (w'.registry .items).dying = (w.registry .items).dying)
    (item : ∀ ref y, w'.IsItem ref y → y.handle ≠ .null →
      (∃ x, w.IsItem ref x ∧ x.id = y.id ∧ x.handle = y.handle) ∨ w.toolkit.items.contains y.handle = true) :
    w'.Sound js := by
  refine ⟨fun h hc => ?_, fun h id hb => ?_, fun h id hc hb => ?_, fun ref y hy hn => ?_, fun h id hc => ?_,
    fun h id he id' hb => ?_, fun h hd => ?_⟩
  · have := hs.itemsBelow h ((alive h).symm.trans hc)
    omega
  · have := hs.keysBelow h id (keys h id hb)
    omega
  · rw [slot]
    exact hs.slot h id ((alive h).symm.trans hc) (keys h id hb)
  · rw [alive]
    rcases item ref y hy hn with ⟨x, hx, hi, hh⟩ | hc
    · rw [← hi, ← hh]
      exact hs.item ref x hx (hh ▸ hn)
    · exact Or.inl hc
  · obtain ⟨hg, hlt⟩ := hs.gone h id hc
    exact ⟨(alive h).trans hg, by omega⟩
  · exact hs.owner h id he id' (keys h id' hb)
  · exact hs.dying h (dying ▸ hd)

theorem sound_core {w w' : World} (hc : w'.core = w.core) (hs : w.Sound js) : w'.Sound js := by
  obtain ⟨ht, hr, hx, -⟩ := core_eq hc
  refine sound_frame hs (fun _ => by rw [ht]) (Nat.le_of_eq (by rw [ht])) (fun _ => by rw [ht])
    (fun _ _ hb => by rw [← hr]; exact hb) (by rw [hr]) fun a y hy _ => Or.inl ⟨y, ⟨?_, hy.2⟩, rfl, rfl⟩
  rw [← hx]
  exact hy.1

/-- Only the toolkit changes. -/
theorem sound_toolkit {w : World} (hs : w.Sound js) {t : Toolkit} (alive : ∀ h, t.items.contains h = w.toolkit.items.contains h)
    (next : w.toolkit.nextHandle.toNat ≤ t.nextHandle.toNat) (slot : ∀ h, t.deleteSlot h = w.toolkit.deleteSlot h) :
    { w with toolkit := t }.Sound js :=
  sound_frame hs alive next slot (fun _ _ hb => hb) rfl fun _ y hy _ => Or.inl ⟨y, hy, rfl, rfl⟩

theorem sound_modifyWrapper {w : World} (hs : w.Sound js) (ref : Ref) {f : Wrapper → Wrapper}
    (hf : ∀ x, (f x).id = x.id ∧ (f x).space = x.space)
    (hh : ∀ x, w.IsItem ref x → (f x).handle = x.handle ∨ (f x).handle = .null ∨
      w.toolkit.items.contains (f x).handle = true) : (w.modifyWrapper ref f).Sound js := by
  refine sound_frame hs (fun _ => rfl) (Nat.le_refl _) (fun _ => rfl) (fun _ _ hb => hb) rfl fun a y hy hn => ?_
  rcases isItem_modifyWrapper (fun x => (hf x).2) hy with ⟨rfl, x, hx, rfl⟩ | ⟨-, hy⟩
  · rcases hh x hx with h | h | h
    · exact Or.inl ⟨x, hx, (hf x).1.symm, h.symm⟩
    · exact absurd h hn
    · exact Or.inr h
  · exact Or.inl ⟨y, hy, rfl, rfl⟩

theorem sound_addWrapper {w : World} (hs : w.Sound js) {x : Wrapper} (hx : x.handle = .null) : (w.addWrapper x).Sound js := by
  refine sound_frame hs (fun _ => rfl) (Nat.le_refl _) (fun _ => rfl) (fun _ _ hb => hb) rfl fun a y hy hn => ?_
  rcases isItem_addWrapper hy with ⟨-, rfl⟩ | hy
  · exact absurd hx hn
  · exact Or.inl ⟨y, hy, rfl, rfl⟩

theorem sound_setBare {w : World} (hs : w.Sound js) (r : Registry) : (w.setRegistry .bare r).Sound js :=
  sound_frame hs (fun _ => rfl) (Nat.le_refl _) (fun _ => rfl) (fun _ _ hb => hb) rfl fun _ y hy _ => Or.inl ⟨y, hy, rfl, rfl⟩

theorem sound_setRegistry {w : World} (hs : w.Sound js) {space : Space} {r : Registry}
    (keys : ∀ h id, r.byHandle.get? h = some id → (w.registry space).byHandle.get? h = some id)
    (dying : r.dying = (w.registry space).dying) : (w.setRegistry space r).Sound js := by
  cases space
  · exact sound_frame hs (fun _ => rfl) (Nat.le_refl _) (fun _ => rfl) keys dying fun _ y hy _ => Or.inl ⟨y, hy, rfl, rfl⟩
  · exact sound_setBare hs r

theorem sound_erase {w : World} (hs : w.Sound js) (ref : Ref) : { w with wrappers := w.wrappers.erase ref }.Sound js :=
  sound_frame hs (fun _ => rfl) (Nat.le_refl _) (fun _ => rfl) (fun _ _ hb => hb) rfl fun _ y hy _ =>
    Or.inl ⟨y, (isItem_erase hy).2, rfl, rfl⟩

theorem sound_forget {w : World} (ho : w.Ordered) (hs : w.Sound js) (id : ItemId) : (w.forget .items id).Sound js := by
  have toolkit := w.toolkit_forget .items id
  have hr : (w.forget .items id).registry .items = (w.registry .items).forget id := by rw [registry_forget, if_pos rfl]
  refine sound_frame hs (fun _ => by rw [toolkit]) (Nat.le_of_eq (by rw [toolkit])) (fun _ => by rw [toolkit])
    (fun h i hb => ?_) ?_ fun a y hy _ => Or.inl ⟨y, ⟨?_, hy.2⟩, rfl, rfl⟩
  · rw [hr, Registry.byHandle_forget (ho.coherent .items)] at hb
    split at hb
    · cases hb
    · exact hb
  · rw [hr, Registry.dying_forget]
  · rw [← hy.1, wrappers_forget]

theorem sound_release {w : World} (ho : w.Ordered) (hs : w.Sound js) {ref : Ref} {x : Wrapper}
    (hx : w.wrappers.get? ref = some x) (hh : w.isHeld ref = false) : (w.release ref).Sound js := by
  have gone := sound_erase hs ref
  cases hsp : x.space
  · rw [release_item hx hh hsp]
    exact sound_forget (ordered_erase ho ref) gone x.id
  · rw [release_probe hx hh hsp]
    exact gone

theorem sound_createItem {w : World} (hs : w.Sound js) (hr : w.toolkit.HasRoom) :
    { w with toolkit := w.toolkit.createItem }.Sound js := by
  have hlt : w.toolkit.nextHandle.toNat < w.toolkit.createItem.nextHandle.toNat := Toolkit.nextHandle_advance hr
  have fresh : w.toolkit.freshHandle.raw.toNat = w.toolkit.nextHandle.toNat := rfl
  -- whatever is below the counter is not the new item
  have old {h : Handle} (hb : h.raw.toNat < w.toolkit.nextHandle.toNat) : h ≠ w.toolkit.freshHandle := by
    intro e
    rw [e] at hb
    omega
  refine ⟨fun h hc => ?_, fun h id hb => ?_, fun h id hc hb => ?_, fun ref y hy hn => ?_, fun h id hc => ?_, hs.owner, hs.dying⟩
  · show _ < w.toolkit.createItem.nextHandle.toNat
    rcases (w.toolkit.contains_createItem h).mp hc with rfl | hc
    · omega
    · have := hs.itemsBelow h hc
      omega
  · show _ < w.toolkit.createItem.nextHandle.toNat
    have := hs.keysBelow h id hb
    omega
  · have hne := old (hs.keysBelow h id hb)
    show w.toolkit.createItem.deleteSlot h = _
    rw [Toolkit.deleteSlot_createItem hne]
    exact hs.slot h id (((w.toolkit.contains_createItem h).mp hc).resolve_left hne) hb
  · rcases hs.item ref y hy hn with hc | hc
    · exact Or.inl ((w.toolkit.contains_createItem y.handle).mpr (Or.inr hc))
    · exact Or.inr hc
  · obtain ⟨hg, hb⟩ := hs.gone h id hc
    refine ⟨Bool.eq_false_iff.mpr fun hc => ?_, Nat.lt_trans hb hlt⟩
    rcases (w.toolkit.contains_createItem h).mp hc with e | hc
    · exact old hb e
    · rw [hg] at hc
      cases hc

/-- Binding to what is alive: the slot of the new object is set, the slots of the other
    mapped objects stay. -/
theorem sound_rebind {w : World} (ho : w.Ordered) (hs : w.Sound js) {ref : Ref} {h : Handle} (hsp : w.spaceOf ref = .items)
    (ht : h = .null ∨ w.toolkit.items.contains h = true) (hcan : w.CanAttach ref h) :
    ((w.attach ref h).setHandle ref h).Sound js := by
  have hco := ho.coherent .items
  have hb := hcan.2
  rw [hsp] at hb
  obtain ⟨-, byHandle, -⟩ := Registry.tables_bind hco hb ref
  let r := w.registry .items
  let previous := r.handleOf (w.idOf ref)
  have hr := registry_rebind hsp h
  have toolkit : ((w.attach ref h).setHandle ref h).toolkit = w.toolkit.moveSlot .items previous h := by
    show w.toolkit.moveSlot (w.spaceOf ref) ((w.registry (w.spaceOf ref)).handleOf (w.idOf ref)) h = _
    rw [hsp]
  have alive (a : Handle) :
      ((w.attach ref h).setHandle ref h).toolkit.items.contains a = w.toolkit.items.contains a := by
    rw [toolkit, Toolkit.contains_moveSlot]
  have next : ((w.attach ref h).setHandle ref h).toolkit.nextHandle = w.toolkit.nextHandle := by
    rw [toolkit, Toolkit.nextHandle_moveSlot]
  -- a handle that is mapped afterwards is the new one, alive, or was mapped before and is not the previous one
  have keys (a : Handle) (i : ItemId) (hm : (((w.attach ref h).setHandle ref h).registry .items).byHandle.get? a = some i) :
      (a = h ∧ h ≠ .null ∧ w.toolkit.items.contains h = true) ∨ (r.byHandle.get? a = some i ∧ a ≠ h ∧ a ≠ previous) := by
    rw [hr, byHandle] at hm
    split at hm
    · rename_i ha
      exact Or.inl ⟨ha.1, ha.2, ht.resolve_left ha.2⟩
    · rename_i ha
      split at hm
      · cases hm
      · rename_i hne
        have hn := ((hco.inverse a i).mp hm).1
        refine Or.inr ⟨hm, fun e => ha ⟨e, e ▸ hn⟩, fun e => hne ?_⟩
        refine (hco.inverse a _).mpr ⟨hn, ?_⟩
        rw [e]
        rw [e] at hn
        simp only [previous, Registry.handleOf, Registry.boundTo, r] at hn ⊢
        cases he : (w.registry .items).byId.get? (w.idOf ref) with
        | none => rw [he] at hn; exact absurd rfl hn
        | some entry => rfl
  refine ⟨fun a hc => ?_, fun a i hm => ?_, fun a i hc hm => ?_, fun a y hy hn => ?_, fun a i hj => ?_,
    fun a i he i' hm => ?_, fun a hd => ?_⟩
  · rw [next]
    exact hs.itemsBelow a ((alive a).symm.trans hc)
  · rw [next]
    rcases keys a i hm with ⟨rfl, -, hc⟩ | ⟨hm, -, -⟩
    · exact hs.itemsBelow a hc
    · exact hs.keysBelow a i hm
  · rw [toolkit]
    rw [alive] at hc
    rcases keys a i hm with ⟨rfl, hn, -⟩ | ⟨hm, hh, hp⟩
    · exact Toolkit.deleteSlot_moveSlot hn hc .items previous
    · rw [Toolkit.deleteSlot_moveSlot_other _ _ hp hh]
      exact hs.slot a i hc hm
  · rw [alive]
    rcases isItem_rebind hy with ⟨-, x, -, rfl⟩ | ⟨-, hy⟩
    · exact Or.inl (ht.resolve_left hn)
    · exact hs.item a y hy hn
  · obtain ⟨hg, hlt⟩ := hs.gone a i hj
    exact ⟨(alive a).trans hg, next ▸ hlt⟩
  · rcases keys a i' hm with ⟨rfl, -, hc⟩ | ⟨hm, -, -⟩
    · -- the deletion of `a` would be coming while it is alive
      have hg := (hs.gone a i he.coming).1
      rw [hc] at hg
      cases hg
    · exact hs.owner a i he i' hm
  · rw [hr, Registry.dying_bind] at hd
    exact hs.dying a hd

theorem sound_move {w w' : World} (ho : w.Ordered) (hs : w.Sound js) (h : Move .sole w w') : w'.Sound js := by
  cases h with
  | aside hc => exact sound_core hc hs
  | createItem hr => exact sound_createItem hs (hr.resolve_left id)
  | createObject hr =>
    exact sound_toolkit hs (fun _ => rfl) (Nat.le_of_lt (Toolkit.nextHandle_advance (hr.resolve_left id))) fun _ => rfl
  | adopt h hk => exact hk.elim
  | takePending => exact sound_toolkit hs (fun _ => rfl) (Nat.le_refl _) fun _ => rfl
  | call c hc =>
    exact sound_toolkit hs (Toolkit.contains_apply _ c) (Nat.le_of_eq (by rw [Toolkit.nextHandle_apply]))
      (Toolkit.deleteSlot_apply _ fun h cb e => hc h cb e)
  | allocate space id r ha =>
    obtain ⟨rfl, rfl⟩ := Registry.allocate_eq ha
    exact sound_setRegistry hs (fun _ _ hb => hb) rfl
  | create space id r kind ha _ =>
    obtain ⟨rfl, rfl⟩ := Registry.allocate_eq ha
    have made := sound_setRegistry (r := { w.registry space with nextId := (w.registry space).nextId + 1 }) hs
      (fun _ _ hb => hb) rfl
    exact sound_addWrapper made rfl
  | share id name bare _ => exact sound_addWrapper hs rfl
  | free ref x hx hh => exact sound_release ho hs hx hh
  | attach ref h _ hk _ => exact hk.elim
  | rebind ref h _ hk ht hc => exact sound_rebind ho hs hk ht hc
  | confirm ref h _ ht _ =>
    exact sound_modifyWrapper hs ref (fun _ => ⟨rfl, rfl⟩) fun _ _ => Or.inr ht
  | setProbe ref h hp =>
    obtain ⟨x, hx, hsp⟩ := hp
    exact sound_modifyWrapper hs ref (fun _ => ⟨rfl, rfl⟩) fun y hy =>
      absurd hy (not_item_of_probe ((spaceOf_eq hx).trans hsp))
  | setNull ref => exact sound_modifyWrapper hs ref (fun _ => ⟨rfl, rfl⟩) fun _ _ => Or.inr (Or.inl rfl)
  | edit ref f hf =>
    exact sound_modifyWrapper hs ref (fun x => ⟨(hf x).1, (hf x).2.2⟩) fun x _ => Or.inl (hf x).2.1
  | forget space id hk => exact hk.elim

/-! ## The way of a deletion -/

/-- Other jobs make no difference, nor do those that no item waits for. -/
theorem sound_jobs {js' : List Job} {w : World} (hs : w.Sound js)
    (item : ∀ ref x, w.IsItem ref x → x.handle ≠ .null → Coming js x.handle x.id → Coming js' x.handle x.id)
    (coming : ∀ h id, Coming js' h id → Coming js h id) (ending : ∀ h id, Ending js' h id ↔ Ending js h id) :
    w.Sound js' := by
  refine ⟨hs.itemsBelow, hs.keysBelow, hs.slot, fun ref x hx hn => ?_, fun h id hc => ?_, fun h id he => ?_, fun h hd => ?_⟩
  · exact (hs.item ref x hx hn).imp_right (item ref x hx hn)
  · exact hs.gone h id (coming h id hc)
  · exact hs.owner h id ((ending h id).mp he)
  · obtain ⟨id, he⟩ := hs.dying h hd
    exact ⟨id, (ending h id).mpr he⟩

theorem sound_drop {w : World} {j : Job} (hs : w.Sound (j :: js)) (hj : ∀ h id, ¬ j.Carries h id) : w.Sound js := by
  refine sound_jobs hs (fun ref x _ _ hc => ?_) (fun h id hc => (coming_cons _ _ h id).mpr (Or.inr hc)) fun h id => ?_
  · exact ((coming_cons _ _ _ _).mp hc).resolve_left (hj _ _)
  · rw [ending_cons]
    exact (or_iff_right fun he => hj h id he.carries).symm

theorem sound_add {w : World} {ks : List Job} (hs : w.Sound js) (hk : ∀ j ∈ ks, ∀ h id, ¬ j.Carries h id) :
    w.Sound (ks ++ js) := by
  refine sound_jobs hs (fun ref x _ _ hc => (coming_append _ _ _ _).mpr (Or.inr hc)) (fun h id hc => ?_) fun h id => ?_
  · exact ((coming_append _ _ h id).mp hc).resolve_left fun ⟨j, hj, hc⟩ => hk j hj h id hc
  · rw [ending_append]
    exact or_iff_right fun ⟨j, hj, he⟩ => hk j hj h id he.carries

/-- The item whose object is destroyed has the registry's callback in its slot, so its
    deletion is coming. -/
theorem sound_destroyed {told : ItemId → Option Ref → Prop} {w : World} (ho : w.Ordered) (hm : w.Matched told)
    (hs : w.Sound js) {h : Handle} {t : Toolkit} {slot : Option DeleteCallback}
    (hd : w.toolkit.destroy? h = some (t, slot)) :
    { w with toolkit := t }.Sound (slot.toList.map (Job.slot · h) ++ js) := by
  obtain ⟨hc, hslot, hitems, hnext⟩ := Toolkit.destroy?_eq hd
  have alive (a : Handle) : t.items.contains a = if a = h then false else w.toolkit.items.contains a := by
    rw [hitems, Table.contains, Table.get?_erase]
    split <;> rfl
  have old {a : Handle} (ha : t.items.contains a = true) : a ≠ h ∧ w.toolkit.items.contains a = true := by
    rw [alive] at ha
    split at ha
    · cases ha
    · exact ⟨‹_›, ha⟩
  have due {a : Handle} {id : ItemId} (hj : Coming (slot.toList.map (Job.slot · h)) a id) : a = h := by
    obtain ⟨j, hj, hk⟩ := hj
    obtain ⟨cb, -, rfl⟩ := List.mem_map.mp hj
    rcases cb with (_ | _) | _
    · exact hk.symm
    · exact hk.elim
    · exact hk.elim
  have ending (a : Handle) (id : ItemId) : Ending (slot.toList.map (Job.slot · h) ++ js) a id ↔ Ending js a id := by
    rw [ending_append]
    refine or_iff_right fun he => ?_
    obtain ⟨j, hj, hk⟩ := he
    obtain ⟨cb, -, rfl⟩ := List.mem_map.mp hj
    exact hk
  refine ⟨fun a ha => ?_, fun a id hb => ?_, fun a id ha hb => ?_, fun ref x hx hn => ?_, fun a id hj => ?_,
    fun a id he => hs.owner a id ((ending a id).mp he), fun a ha => ?_⟩
  · show _ < t.nextHandle.toNat
    rw [hnext]
    exact hs.itemsBelow a (old ha).2
  · show _ < t.nextHandle.toNat
    rw [hnext]
    exact hs.keysBelow a id hb
  · show (t.items.get? a).bind _ = _
    rw [hitems, Table.get?_erase, if_neg (old ha).1]
    exact hs.slot a id (old ha).2 hb
  · show t.items.contains x.handle = true ∨ _
    rw [alive, coming_append]
    split
    · rename_i hxh
      have hb := hm.mapped ho hx hn
      rw [hxh] at hb
      rw [hslot, hs.slot h x.id hc hb, hxh]
      exact Or.inr (Or.inl ⟨_, List.mem_singleton.mpr rfl, rfl⟩)
    · exact (hs.item ref x hx hn).imp_right Or.inr
  · have gone : w.Gone a ∨ a = h := by
      rcases (coming_append _ _ a id).mp hj with hj | hj
      · exact Or.inr (due hj)
      · exact Or.inl (hs.gone a id hj)
    refine ⟨?_, ?_⟩
    · show t.items.contains a = false
      rw [alive]
      split
      · rfl
      · exact (gone.resolve_right ‹_›).1
    · show _ < t.nextHandle.toNat
      rw [hnext]
      rcases gone with hg | rfl
      · exact hg.2
      · exact hs.itemsBelow a hc
  · obtain ⟨id, he⟩ := hs.dying a ha
    exact ⟨id, (ending a id).mpr he⟩

theorem isThere_of_item {w : World} {ref : Ref} {x : Wrapper} (hx : w.IsItem ref x) : w.isThere .items = true := by
  have hv : x ∈ w.wrappers.values :=
    List.mem_map.mpr ⟨(ref, x), (w.wrappers.get?_eq_some_iff ref x).mp hx.1, rfl⟩
  have : w.wrappers.values.any (·.space = .items) = true := List.any_eq_true.mpr ⟨x, hv, decide_eq_true hx.2⟩
  simp [isThere, this]

/-- The callback becomes a report, unless there is no item left to report to. -/
theorem sound_slot {w : World} {h : Handle} (hs : w.Sound (.slot (.registry .items) h :: js)) :
    w.Sound (if w.isThere .items then .nativeDelete .items h :: js else js) := by
  split
  · refine sound_jobs hs (fun ref x _ _ hc => ?_) (fun a id hc => ?_) fun a id => ?_
    · rw [coming_cons] at hc ⊢
      exact hc
    · rw [coming_cons] at hc ⊢
      exact hc
    · rw [ending_cons, ending_cons]
      exact Iff.rfl
  · rename_i hn
    refine sound_jobs hs (fun ref x hx => absurd (isThere_of_item hx) hn) (fun a id hc => ?_) fun a id => ?_
    · exact (coming_cons _ _ a id).mpr (Or.inr hc)
    · rw [ending_cons]
      exact (or_iff_right fun no => no).symm

/-- A report that is ignored would have come to nothing: the item, if there is one, waits
    for the end of the report under way. -/
theorem sound_ignored {told : ItemId → Option Ref → Prop} {w : World} (ho : w.Ordered) (hm : w.Matched told) {h : Handle}
    (hs : w.Sound (.nativeDelete .items h :: js))
    (hi : h ∈ (w.registry .items).dying ∨ (w.registry .items).byHandle.get? h = none) : w.Sound js := by
  have ending (a : Handle) (id : ItemId) : Ending js a id ↔ Ending (.nativeDelete .items h :: js) a id := by
    rw [ending_cons]
    exact (or_iff_right fun no => no).symm
  refine sound_jobs hs (fun ref x hx hn hc => ?_) (fun a id hc => (coming_cons _ _ a id).mpr (Or.inr hc)) ending
  rcases (coming_cons _ _ _ _).mp hc with hc | hc
  · obtain rfl : h = x.handle := hc
    have hb := hm.mapped ho hx hn
    rcases hi with hd | hb'
    · obtain ⟨id, he⟩ := hs.dying _ hd
      rw [hs.owner _ id he x.id hb]
      exact ((ending _ id).mpr he).coming
    · rw [hb] at hb'
      cases hb'
  · exact hc

theorem sound_report {w : World} {h : Handle} {id : ItemId} (wrapper : Option Ref)
    (hs : w.Sound (.nativeDelete .items h :: js)) (hb : (w.registry .items).byHandle.get? h = some id)
    (one : ∀ ref x, w.IsItem ref x → x.handle = h → x.id = id) :
    (w.setRegistry .items ((w.registry .items).startDying h)).Sound (.settle .items h id wrapper :: js) := by
  have back (a : Handle) (i : ItemId) (he : Ending (.settle .items h id wrapper :: js) a i) : (a = h ∧ i = id) ∨ Ending js a i := by
    rcases (ending_cons _ _ a i).mp he with he | he
    · exact Or.inl ⟨he.1.symm, he.2.symm⟩
    · exact Or.inr he
  have old {a : Handle} {i : ItemId} (he : Ending js a i) : Ending (.nativeDelete .items h :: js) a i :=
    (ending_cons _ _ a i).mpr (Or.inr he)
  refine ⟨hs.itemsBelow, hs.keysBelow, hs.slot, fun ref x hx hn => ?_, fun a i hc => ?_, fun a i he i' hm => ?_, fun a ha => ?_⟩
  · refine (hs.item ref x hx hn).imp_right fun hc => ?_
    rw [coming_cons] at hc ⊢
    rcases hc with hc | hc
    · exact Or.inl ⟨hc, (one ref x hx hc.symm).symm⟩
    · exact Or.inr hc
  · refine hs.gone a i ((coming_cons _ _ a i).mpr ?_)
    rcases (coming_cons _ _ a i).mp hc with hc | hc
    · exact Or.inl hc.1
    · exact Or.inr hc
  · rcases back a i he with ⟨rfl, rfl⟩ | he
    · exact Option.some.inj ((show (w.registry .items).byHandle.get? a = some i' from hm).symm.trans hb)
    · exact hs.owner a i (old he) i' hm
  · rcases List.mem_cons.mp (show a ∈ h :: (w.registry .items).dying from ha) with rfl | ha
    · exact ⟨id, (ending_cons _ _ a id).mpr (Or.inl ⟨rfl, rfl⟩)⟩
    · obtain ⟨i, he⟩ := hs.dying a ha
      refine ⟨i, (ending_cons _ _ a i).mpr (Or.inr ?_)⟩
      exact ((ending_cons _ _ a i).mp he).resolve_left fun no => no

/-- The end of a report: the item with its id holds `h` no more. -/
theorem sound_settled {told : ItemId → Option Ref → Prop} {w : World} (hm : w.Matched told) {h : Handle} {id : ItemId}
    {wrapper : Option Ref} (ht : told id wrapper) (hs : w.Sound (.settle .items h id wrapper :: js)) :
    (w.settled .items h id wrapper).Sound js := by
  have hr : (w.settled .items h id wrapper).registry .items = (w.registry .items).endDying h id := by
    rw [registry_settled, if_pos rfl]
  have toolkit := w.toolkit_settled .items h id wrapper
  have keys (a : Handle) (i : ItemId) (hb : ((w.settled .items h id wrapper).registry .items).byHandle.get? a = some i) :
      (w.registry .items).byHandle.get? a = some i := by
    rw [hr, Registry.byHandle_endDying] at hb
    split at hb
    · cases hb
    · exact hb
  refine ⟨fun a ha => ?_, fun a i hb => ?_, fun a i ha hb => ?_, fun ref y hy hn => ?_, fun a i hc => ?_,
    fun a i he i' hb => ?_, fun a ha => ?_⟩
  · rw [toolkit] at ha ⊢
    exact hs.itemsBelow a ha
  · rw [toolkit]
    exact hs.keysBelow a i (keys a i hb)
  · rw [toolkit] at ha ⊢
    exact hs.slot a i ha (keys a i hb)
  · rw [toolkit]
    obtain ⟨x, hx, -, hnull | ⟨rfl, hkept⟩⟩ := isItem_settled hy
    · exact absurd hnull hn
    · rcases hs.item ref y hx hn with ha | hc
      · exact Or.inl ha
      · rcases (coming_cons _ _ _ _).mp hc with ⟨rfl, rfl⟩ | hc
        · -- this item is the one that the report knows, and it has not been bound elsewhere
          refine absurd ⟨(hm.known _ wrapper ht).2 ref y hx rfl, ?_, rfl⟩ hkept
          refine Bool.eq_false_iff.mpr fun away => ?_
          obtain ⟨a, hb, hne⟩ := ((w.registry .items).isElsewhere_eq _ _).mp away
          rw [(hm.agree ref y hx).resolve_left hn] at hb
          exact hne (Option.some.inj hb).symm
        · exact Or.inr hc
  · obtain ⟨hg, hlt⟩ := hs.gone a i ((coming_cons _ _ a i).mpr (Or.inr hc))
    exact ⟨toolkit ▸ hg, toolkit ▸ hlt⟩
  · exact hs.owner a i ((ending_cons _ _ a i).mpr (Or.inr he)) i' (keys a i' hb)
  · rw [hr, Registry.dying_endDying] at ha
    obtain ⟨ha, hne⟩ := List.mem_filter.mp ha
    obtain ⟨i, he⟩ := hs.dying a ha
    rcases (ending_cons _ _ a i).mp he with he | he
    · exact absurd he.1.symm (of_decide_eq_true hne)
    · exact ⟨i, he⟩

/-- The end of a report in the other registry. -/
theorem sound_settledProbe {w : World} (hs : w.Sound js) (h : Handle) (id : ItemId) (wrapper : Option Ref) :
    (w.settled .bare h id wrapper).Sound js := by
  have hr : (w.settled .bare h id wrapper).registry .items = w.registry .items := by
    rw [registry_settled, if_neg (by simp)]
  have toolkit := w.toolkit_settled .bare h id wrapper
  refine sound_frame hs (fun _ => by rw [toolkit]) (Nat.le_of_eq (by rw [toolkit])) (fun _ => by rw [toolkit])
    (fun _ _ hb => by rw [← hr]; exact hb) (by rw [hr]) fun a y hy hn => ?_
  obtain ⟨x, hx, -, hnull | ⟨rfl, -⟩⟩ := isItem_settled hy
  · exact absurd hnull hn
  · exact Or.inl ⟨y, hx, rfl, rfl⟩

end World

/-! ## Every step -/

/-- What is kept by every step. -/
def SoleInv (c : State) : Prop := OwnInv c ∧ c.world.Sound (jobs c.tasks)

/-- Of the jobs that carry a deletion, a task makes only a delete callback due, unless it
    is such a callback itself or a report. -/
theorem carries_of_mem_expand {p : Program} {t : Task} {w : World} {j : Job} {h : Handle} {id : ItemId}
    (ok : ∀ choose, t.job = .act choose → Conduct.sole.Allows w (choose w)) (hr : ¬ t.job.Reports)
    (hslot : ∀ a, t.job ≠ .slot (.registry .items) a) (hj : j ∈ jobs (p.expand t w).2) (hc : j.Carries h id) :
    j = .slot (.registry .items) h := by
  have report (hk : j.Reports) : False := by
    obtain ⟨space, a, rfl, hs | ⟨choose, ha, hop⟩⟩ := reports_of_mem_expand hj hk hr
    · cases space
      · exact hslot a hs
      · exact hc
    · have hp := (ok choose ha).2
      rw [hop] at hp
      exact hp
  cases j with
  | slot cb a =>
    rcases cb with (_ | _) | _
    · obtain rfl : a = h := hc
      rfl
    · exact hc.elim
    · exact hc.elim
  | nativeDelete space a => exact (report trivial).elim
  | settle space a i wrapper => exact (report trivial).elim
  | _ => exact hc.elim

theorem ends_of_mem_expand {p : Program} {t : Task} {w : World} {j : Job} {h : Handle} {id : ItemId}
    (hr : ¬ t.job.Reports) (hj : j ∈ jobs (p.expand t w).2) : ¬ j.Ends h id := by
  intro he
  cases j with
  | settle space a i wrapper =>
    obtain ⟨space', a', e, -⟩ := reports_of_mem_expand hj trivial hr
    cases e
  | _ => exact he.elim

theorem not_carries {t : Task} (hr : ¬ t.job.Reports) (hslot : ∀ a, t.job ≠ .slot (.registry .items) a) (h : Handle)
    (id : ItemId) : ¬ t.job.Carries h id := by
  intro hc
  obtain ⟨level, job⟩ := t
  cases job with
  | slot cb a =>
    rcases cb with (_ | _) | _
    · exact hslot a rfl
    · exact hc
    · exact hc
  | nativeDelete space a => exact hr trivial
  | settle space a i wrapper => exact hr trivial
  | _ => exact hc

/-- A task that carries no deletion: what it destroys is coming, what was coming still is. -/
theorem sound_plain {c c' : State} (hc : SoleInv c) {p : Program} {w : World} {t : Task} {ts : List Task}
    (he : c = ⟨w, t :: ts⟩) (he' : c' = ⟨(p.expand t w).1, (p.expand t w).2 ++ ts⟩)
    (ok : ∀ choose, t.job = .act choose → Conduct.sole.Allows w (choose w)) (hr : ¬ t.job.Reports)
    (hslot : ∀ a, t.job ≠ .slot (.registry .items) a) : c'.world.Sound (jobs c'.tasks) := by
  subst he he'
  obtain ⟨⟨ho, hm⟩, hs⟩ := hc
  have rest (h : Handle) (id : ItemId) : Coming (jobs (t :: ts)) h id ↔ Coming (jobs ts) h id := by
    rw [jobs_cons, coming_cons]
    exact or_iff_right (not_carries hr hslot h id)
  have restEnding (h : Handle) (id : ItemId) : Ending (jobs (t :: ts)) h id ↔ Ending (jobs ts) h id := by
    rw [jobs_cons, ending_cons]
    exact or_iff_right fun he => not_carries hr hslot h id he.carries
  have newEnding (h : Handle) (id : ItemId) : Ending (jobs ((p.expand t w).2 ++ ts)) h id ↔ Ending (jobs ts) h id := by
    rw [jobs_append, ending_append]
    exact or_iff_right fun ⟨j, hj, he⟩ => ends_of_mem_expand hr hj he
  have new {h : Handle} {id : ItemId} (hcm : Coming (jobs (p.expand t w).2) h id) :
      .slot (.registry .items) h ∈ jobs (p.expand t w).2 := by
    obtain ⟨j, hj, hk⟩ := hcm
    exact carries_of_mem_expand ok hr hslot hj hk ▸ hj
  -- the moves keep all three invariants, whichever way the task ends
  have keep {w' : World} (h : Moves .sole w w') : w'.Ordered ∧ w'.Matched (unsettled (t :: ts)) ∧ w'.Sound (jobs (t :: ts)) := by
    refine h.keeps (I := fun w => w.Ordered ∧ w.Matched (unsettled (t :: ts)) ∧ w.Sound (jobs (t :: ts))) ?_ ⟨ho, hm, hs⟩
    intro w w' hw hmove
    exact ⟨World.ordered_move hw.1 hmove, World.matched_move hw.1 hw.2.1 (hmove.mono Conduct.sole_within_bound),
      World.sound_move hw.1 hw.2.2 hmove⟩
  rcases p.outcome_expand t w ok hr with ⟨hmv, hnone⟩ | ⟨a, slot, ⟨w₁, t', hmv, hd, hcore⟩, hdue⟩
  · refine World.sound_jobs (keep hmv).2.2 (fun ref x _ _ hcm => ?_) (fun h id hcm => ?_) fun h id => ?_
    · rw [jobs_append, coming_append]
      exact Or.inr ((rest _ _).mp hcm)
    · rw [jobs_append, coming_append] at hcm
      exact (rest h id).mpr (hcm.resolve_left fun hn => hnone _ _ (new hn))
    · rw [newEnding, restEnding]
  · obtain ⟨ho₁, hm₁, hs₁⟩ := keep hmv
    have gone := World.sound_destroyed ho₁ hm₁ hs₁ hd
    have here := World.sound_core hcore gone
    refine World.sound_jobs here (fun ref x _ _ hcm => ?_) (fun h id hcm => ?_) fun h id => ?_
    · rw [jobs_append, coming_append]
      rcases (coming_append _ _ _ _).mp hcm with ⟨j, hj, hk⟩ | hcm
      · obtain ⟨cb, hcb, rfl⟩ := List.mem_map.mp hj
        exact Or.inl ⟨_, (hdue cb a).mpr ⟨rfl, Option.mem_toList.mp hcb⟩, hk⟩
      · exact Or.inr ((rest _ _).mp hcm)
    · rw [jobs_append, coming_append] at hcm
      refine (coming_append _ _ h id).mpr ?_
      rcases hcm with hcm | hcm
      · obtain ⟨rfl, hslot'⟩ := (hdue _ _).mp (new hcm)
        exact Or.inl ⟨_, List.mem_map.mpr ⟨_, Option.mem_toList.mpr hslot', rfl⟩, rfl⟩
      · exact Or.inr ((rest h id).mpr hcm)
    · rw [newEnding, ending_append, restEnding]
      refine (or_iff_right fun ⟨j, hj, he⟩ => ?_).symm
      obtain ⟨cb, -, rfl⟩ := List.mem_map.mp hj
      exact he

theorem wrapperCode_quiet {w : World} {space : Space} {id : ItemId} : ∀ j ∈ w.wrapperCode space id, ∀ h i, ¬ j.Carries h i := by
  intro j hj h i hc
  rcases World.mem_wrapperCode hj with ⟨c, rfl⟩ | ⟨ref, rfl⟩
  · exact hc
  · exact hc

/-- A registry is told of a deletion. -/
theorem sound_told {w : World} {ts : List Task} {level : Nat} {space : Space} {h : Handle}
    (hc : SoleInv ⟨w, ⟨level, .nativeDelete space h⟩ :: ts⟩) :
    (w.nativeDelete space h).1.Sound ((w.nativeDelete space h).2 ++ jobs ts) := by
  obtain ⟨⟨ho, hm⟩, hs⟩ := hc
  rw [jobs_cons] at hs
  rcases w.nativeDelete_cases space h with hi | ⟨id, hd, hb⟩
  · rw [World.nativeDelete_ignored hi]
    refine World.sound_core (w := w) rfl ?_
    cases space
    · exact World.sound_ignored ho hm hs hi
    · exact World.sound_drop hs fun _ _ no => no
  · obtain ⟨core, due⟩ := World.nativeDelete_found hd hb
    rw [due, List.append_assoc]
    refine World.sound_add (World.sound_core core ?_) wrapperCode_quiet
    cases space
    · refine World.sound_report _ hs hb fun ref x hx e => ?_
      have hn : x.handle ≠ .null := e ▸ ((ho.coherent .items).inverse h id |>.mp hb).1
      have := hm.mapped ho hx hn
      rw [e] at this
      exact Option.some.inj (this.symm.trans hb)
    · have begun := World.sound_setBare (World.sound_drop hs fun _ _ no => no) ((w.registry .bare).startDying h)
      exact World.sound_add begun fun j hj a i hk => by
        rw [List.mem_singleton.mp hj] at hk
        exact hk

/-- A report ends. -/
theorem sound_over {w : World} {ts : List Task} {level : Nat} {space : Space} {h : Handle} {id : ItemId} {wrapper : Option Ref}
    (hc : SoleInv ⟨w, ⟨level, .settle space h id wrapper⟩ :: ts⟩) : (w.settle space h id wrapper).Sound (jobs ts) := by
  obtain ⟨⟨ho, hm⟩, hs⟩ := hc
  rw [jobs_cons] at hs
  have done : (w.settled space h id wrapper).Sound (jobs ts) := by
    cases space
    · exact World.sound_settled hm ⟨h, by simp [jobs]⟩ hs
    · exact World.sound_settledProbe (World.sound_drop hs fun _ _ no => no) h id wrapper
  have both := (World.moves_settle (k := .sole) w space h id wrapper).keeps
    (I := fun w => w.Ordered ∧ w.Sound (jobs ts))
    (fun _ _ hw hmove => ⟨World.ordered_move hw.1 hmove, World.sound_move hw.1 hw.2 hmove⟩)
    ⟨World.ordered_settled ho space h id wrapper, done⟩
  exact both.2

/-- The toolkit runs the registry's callback. -/
theorem sound_called {w : World} {ts : List Task} {level : Nat} {h : Handle}
    (hc : SoleInv ⟨w, ⟨level, .slot (.registry .items) h⟩ :: ts⟩) :
    (w.runSlot (.registry .items) h).1.Sound ((w.runSlot (.registry .items) h).2 ++ jobs ts) := by
  have hs := World.sound_slot (jobs_cons _ ts ▸ hc.2)
  unfold World.runSlot
  simp only
  split
  · rename_i hthere
    rw [if_pos hthere] at hs
    let pinned : Job := .unpin (.registry .items)
    have coming (a : Handle) (i : ItemId) : Coming (.nativeDelete .items h :: pinned :: jobs ts) a i ↔
        Coming (.nativeDelete .items h :: jobs ts) a i := by
      rw [coming_cons, coming_cons, coming_cons]
      exact or_congr_right (or_iff_right fun no => no)
    have ending (a : Handle) (i : ItemId) : Ending (.nativeDelete .items h :: pinned :: jobs ts) a i ↔
        Ending (.nativeDelete .items h :: jobs ts) a i := by
      rw [ending_cons, ending_cons, ending_cons]
      exact or_congr_right (or_iff_right fun no => no)
    exact World.sound_jobs (World.sound_core (w := w) rfl hs) (fun ref x _ _ hk => (coming _ _).mpr hk)
      (fun a i hk => (coming a i).mp hk) ending
  · rename_i hthere
    rw [if_neg hthere] at hs
    exact hs

theorem soleInv_turn {c c' : State} (hc : SoleInv c) (hs : Turn .sole c c') : SoleInv c' := by
  refine ⟨ownInv_turn hc.1 (hs.mono Conduct.sole_within_bound), ?_⟩
  obtain ⟨p, w, t, ts, ok⟩ := hs
  by_cases hr : t.job.Reports
  · obtain ⟨level, job⟩ := t
    cases job with
    | nativeDelete space h =>
      show World.Sound (jobs ((p.expand _ w).2 ++ ts)) _
      rw [jobs_append, jobs_expand p _ w (by simp)]
      exact sound_told hc
    | settle space h id wrapper => exact sound_over hc
    | _ => exact hr.elim
  · by_cases hslot : ∃ a, t.job = .slot (.registry .items) a
    · obtain ⟨level, job⟩ := t
      obtain ⟨a, rfl⟩ := hslot
      show World.Sound (jobs ((p.expand _ w).2 ++ ts)) _
      rw [jobs_append, jobs_expand p _ w (by simp)]
      exact sound_called hc
    · exact sound_plain hc rfl rfl ok hr fun a e => hslot ⟨a, e⟩

theorem Reach.soleInv {c : State} (h : Reach .sole c) : SoleInv c := by
  refine h.invariant (I := SoleInv) (fun mode => ⟨(Reach.start (k := .bound) mode).ownInv, World.sound_start mode⟩) ?_
    fun c c' hc hs => soleInv_turn hc hs
  intro w level choose hw
  have none : ∀ id wrapper, ¬ unsettled [⟨level, .act choose⟩] id wrapper := by
    rintro id wrapper ⟨h, hj⟩
    simp [jobs] at hj
  have added : w.Sound ([.act choose] ++ jobs []) := World.sound_add hw.2 fun j hj h id hk => by
    rw [List.mem_singleton.mp hj] at hk
    exact hk
  exact ⟨⟨hw.1.1, hw.1.2.weaken fun id wrapper h => absurd h (none id wrapper)⟩, added⟩

/-- At every point where program code runs, an object that is alive and mapped has the
    registry's callback in its delete slot; and whenever nothing is left to do, a live
    item that holds a handle holds that of an object that is alive. -/
theorem no_dangling_handles {c : State} (h : Reach .sole c) :
    (∀ a id, c.world.toolkit.items.contains a = true → (c.world.registry .items).byHandle.get? a = some id →
      c.world.toolkit.deleteSlot a = some (.registry .items)) ∧
    (c.tasks = [] → ∀ ref x, c.world.wrappers.get? ref = some x → x.space = .items → x.handle ≠ .null →
      c.world.toolkit.items.contains x.handle = true) := by
  obtain ⟨-, hs⟩ := h.soleInv
  refine ⟨hs.slot, fun ht ref x hx hsp hn => ?_⟩
  rcases hs.item ref x ⟨hx, hsp⟩ hn with ha | hc
  · exact ha
  · rw [ht] at hc
    simp [Coming, jobs] at hc

/-- The run of the item that moves, to its end. -/
def moved : State := State.after mover 5 moving

theorem reach_moved : Reach .sole moved := by
  have left := (reach_moving.quiet mover (by simp)).quiet mover (by simp)
  have ended := left.quiet mover (by simp)
  exact (ended.quiet mover (by simp)).quiet mover (by simp)

/-- The object that it was bound to is gone, the one that it has moved to is watched while
    the handler runs, and alive when it is over. -/
theorem mover_does_not_dangle :
    (moving.world.toolkit.items.contains ⟨0x1000⟩ = false ∧
      moving.world.toolkit.deleteSlot ⟨0x1010⟩ = some (.registry .items)) ∧
    ∃ x, moved.world.wrappers.get? ⟨0⟩ = some x ∧ x.handle = ⟨0x1010⟩ ∧ moved.world.toolkit.items.contains x.handle = true :=
  ⟨⟨by decide, (no_dangling_handles reach_moving).1 ⟨0x1010⟩ ⟨0⟩ (by decide) (by decide)⟩,
    _, rfl, rfl, (no_dangling_handles reach_moved).2 rfl ⟨0⟩ _ rfl rfl (by decide)⟩

end HandleBridge
