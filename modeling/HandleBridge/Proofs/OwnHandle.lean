/-
  HandleBridge.Proofs.OwnHandle — the handle that an item holds and the one in its table
  entry.

  The handle of an item is stored twice, in the item and in its entry, and the two are
  written at different times. Items are registered by being bound and forgotten by being
  freed, and in no other way (`Conduct.bound`); beside that the program may do what it
  likes, inside handlers as well. Then (`Matched`):
  - no two items have one id, and an entry under an item's id refers to that item,
  - an item holds null, or what its entry holds,
  - a report that has not ended knows the item whose id it was started for.

  The last is what carries the invariant over the end of a report (`follows_settled`),
  which takes an entry away by an id that was read before the handlers ran.
  - `items_agree_with_the_tables`: a live item that holds a handle is found by it, its
    entry holds the same, and no other live item holds it.
-/
import HandleBridge.Proofs.Tables

namespace HandleBridge

namespace World

/-- `ref` is an item, and it is there. -/
def IsItem (w : World) (ref : Ref) (x : Wrapper) : Prop := w.wrappers.get? ref = some x ∧ x.space = .items

theorem IsItem.unique {w : World} {ref : Ref} {x y : Wrapper} (hx : w.IsItem ref x) (hy : w.IsItem ref y) : x = y :=
  Option.some.inj (hx.1.symm.trans hy.1)

theorem isItem_modifyWrapper {w : World} {ref a : Ref} {f : Wrapper → Wrapper} {y : Wrapper}
    (hf : ∀ x, (f x).space = x.space) (hy : (w.modifyWrapper ref f).IsItem a y) :
    (a = ref ∧ ∃ x, w.IsItem ref x ∧ y = f x) ∨ (a ≠ ref ∧ w.IsItem a y) := by
  obtain ⟨hy, hs⟩ := hy
  simp only [modifyWrapper, Table.get?_modify] at hy
  split at hy
  · rename_i ha
    obtain ⟨x, hx, rfl⟩ := Option.map_eq_some_iff.mp hy
    rw [hf] at hs
    exact Or.inl ⟨ha, x, ⟨ha ▸ hx, hs⟩, rfl⟩
  · rename_i ha
    exact Or.inr ⟨ha, hy, hs⟩

theorem isItem_rebind {w : World} {ref a : Ref} {h : Handle} {y : Wrapper}
    (hy : ((w.attach ref h).setHandle ref h).IsItem a y) :
    (a = ref ∧ ∃ x, w.IsItem ref x ∧ y = { x with handle := h }) ∨ (a ≠ ref ∧ w.IsItem a y) := by
  have old (b : Ref) (x : Wrapper) (hx : (w.attach ref h).IsItem b x) : w.IsItem b x := by
    rw [IsItem, wrappers_attach] at hx
    exact hx
  have kept : ∀ x : Wrapper, { x with handle := h }.space = x.space := fun _ => rfl
  rcases isItem_modifyWrapper kept hy with ⟨ha, x, hx, e⟩ | ⟨ha, hy⟩
  · exact Or.inl ⟨ha, x, old ref x hx, e⟩
  · exact Or.inr ⟨ha, old a y hy⟩

theorem isItem_addWrapper {w : World} {a : Ref} {x y : Wrapper} (hy : (w.addWrapper x).IsItem a y) :
    (a = w.freshRef ∧ y = x) ∨ w.IsItem a y := by
  obtain ⟨hy, hs⟩ := hy
  simp only [addWrapper, Table.get?_insert] at hy
  split at hy
  · rename_i ha
    exact Or.inl ⟨ha, (Option.some.inj hy).symm⟩
  · exact Or.inr ⟨hy, hs⟩

theorem isItem_erase {w : World} {ref a : Ref} {y : Wrapper} (hy : { w with wrappers := w.wrappers.erase ref }.IsItem a y) :
    a ≠ ref ∧ w.IsItem a y := by
  obtain ⟨hy, hs⟩ := hy
  simp only [Table.get?_erase] at hy
  split at hy
  · cases hy
  · rename_i ha
    exact ⟨ha, hy, hs⟩

/-- The end of a report changes at most the wrapper that it knows, and takes its handle. -/
theorem isItem_settled {w : World} {space : Space} {h : Handle} {id : ItemId} {wrapper : Option Ref} {a : Ref} {y : Wrapper}
    (hy : (w.settled space h id wrapper).IsItem a y) :
    ∃ x, w.IsItem a x ∧ x.id = y.id ∧ (y.handle = .null ∨
      (y = x ∧ ¬ (wrapper = some a ∧ (w.registry space).isElsewhere id h = false ∧ x.handle = h))) := by
  obtain ⟨hy, hs⟩ := hy
  rw [wrapper_settled] at hy
  split at hy
  · obtain ⟨x, hx, rfl⟩ := Option.map_eq_some_iff.mp hy
    exact ⟨x, ⟨hx, hs⟩, rfl, Or.inl rfl⟩
  · rename_i hkept
    rw [handleOf_eq hy] at hkept
    exact ⟨y, ⟨hy, hs⟩, rfl, Or.inr ⟨rfl, hkept⟩⟩

/-- Items and their entries; `told id wrapper` holds of the reports that have not ended. -/
structure Matched (told : ItemId → Option Ref → Prop) (w : World) : Prop where
  unique : ∀ ref ref' x x', w.IsItem ref x → w.IsItem ref' x' → x.id = x'.id → ref = ref'
  own : ∀ ref x e, w.IsItem ref x → (w.registry .items).byId.get? x.id = some e → e.wrapper = ref
  agree : ∀ ref x, w.IsItem ref x → x.handle = .null ∨ (w.registry .items).boundTo x.id = some x.handle
  known : ∀ id wrapper, told id wrapper →
    id.val < (w.registry .items).nextId ∧ ∀ ref x, w.IsItem ref x → x.id = id → wrapper = some ref

variable {told : ItemId → Option Ref → Prop}

theorem matched_start (mode : DeleteMode) (none : ∀ id wrapper, ¬ told id wrapper) : (World.start mode).Matched told := by
  refine ⟨?_, ?_, ?_, fun id wrapper h => absurd h (none id wrapper)⟩
  · intro ref ref' x x' hx
    simp [IsItem, start] at hx
  · intro ref x e hx
    simp [IsItem, start] at hx
  · intro ref x hx
    simp [IsItem, start] at hx

/-- Every item that is there afterwards was there before, an entry under its id is its own
    or was there before, and it holds null, or what its entry holds, or what it held
    before, its entry being the same. -/
def Follows (w w' : World) : Prop :=
  (w.registry .items).nextId ≤ (w'.registry .items).nextId ∧
  ∀ ref y, w'.IsItem ref y → ∃ x, w.IsItem ref x ∧ x.id = y.id ∧
    (∀ e, (w'.registry .items).byId.get? y.id = some e →
      e.wrapper = ref ∨ (w.registry .items).byId.get? y.id = some e) ∧
    (y.handle = .null ∨ (w'.registry .items).boundTo y.id = some y.handle ∨
      (y.handle = x.handle ∧ (w'.registry .items).boundTo y.id = (w.registry .items).boundTo y.id))

theorem matched_follows {w w' : World} (hm : w.Matched told) (hf : w.Follows w') : w'.Matched told := by
  obtain ⟨hn, hf⟩ := hf
  refine ⟨fun ref ref' y y' hy hy' e => ?_, fun ref y e hy he => ?_, fun ref y hy => ?_, fun id wrapper ht => ?_⟩
  · obtain ⟨x, hx, hi, -⟩ := hf ref y hy
    obtain ⟨x', hx', hi', -⟩ := hf ref' y' hy'
    exact hm.unique ref ref' x x' hx hx' (by rw [hi, hi', e])
  · obtain ⟨x, hx, hi, hown, -⟩ := hf ref y hy
    rcases hown e he with h | h
    · exact h
    · exact hm.own ref x e hx (hi ▸ h)
  · obtain ⟨x, hx, hi, -, h | h | ⟨hh, hb⟩⟩ := hf ref y hy
    · exact Or.inl h
    · exact Or.inr h
    · rw [hh, hb, ← hi]
      exact hm.agree ref x hx
  · obtain ⟨hlt, hk⟩ := hm.known id wrapper ht
    refine ⟨by omega, fun ref y hy e => ?_⟩
    obtain ⟨x, hx, hi, -⟩ := hf ref y hy
    exact hk ref x hx (hi.trans e)

/-- No item is new or different, and the entries are the same. -/
theorem follows_fewer {w w' : World} (hr : w'.registry .items = w.registry .items)
    (hx : ∀ ref y, w'.IsItem ref y → w.IsItem ref y) : w.Follows w' := by
  refine ⟨Nat.le_of_eq (by rw [hr]), fun ref y hy => ⟨y, hx ref y hy, rfl, fun e he => Or.inr (hr ▸ he), ?_⟩⟩
  rw [hr]
  exact Or.inr (Or.inr ⟨rfl, rfl⟩)

theorem follows_congr {w w' : World} (hr : w'.registry .items = w.registry .items) (hx : w'.wrappers = w.wrappers) :
    w.Follows w' :=
  follows_fewer hr fun _ _ hy => ⟨hx ▸ hy.1, hy.2⟩

/-- The wrapper `ref` changes, and the entries do not. -/
theorem follows_modifyWrapper (w : World) (ref : Ref) (f : Wrapper → Wrapper)
    (hf : ∀ x, (f x).id = x.id ∧ (f x).space = x.space)
    (hh : ∀ x, w.IsItem ref x → (f x).handle = .null ∨ (f x).handle = x.handle ∨
      (w.registry .items).boundTo x.id = some (f x).handle) : w.Follows (w.modifyWrapper ref f) := by
  refine ⟨Nat.le_refl _, fun a y hy => ?_⟩
  rcases isItem_modifyWrapper (fun x => (hf x).2) hy with ⟨rfl, x, hx, rfl⟩ | ⟨-, hy⟩
  · refine ⟨x, hx, (hf x).1.symm, fun e he => Or.inr he, ?_⟩
    rcases hh x hx with h | h | h
    · exact Or.inl h
    · exact Or.inr (Or.inr ⟨h, rfl⟩)
    · rw [(hf x).1]
      exact Or.inr (Or.inl h)
  · exact ⟨y, hy, rfl, fun e he => Or.inr he, Or.inr (Or.inr ⟨rfl, rfl⟩)⟩

theorem follows_setNull (w : World) (ref : Ref) : w.Follows (w.setHandle ref .null) :=
  w.follows_modifyWrapper ref _ (fun _ => ⟨rfl, rfl⟩) fun _ _ => Or.inl rfl

theorem follows_addProbe (w : World) {x : Wrapper} (hx : x.space = .bare) : w.Follows (w.addWrapper x) := by
  refine follows_fewer rfl fun ref y hy => ?_
  rcases isItem_addWrapper hy with ⟨-, rfl⟩ | h
  · have hs := hy.2
    rw [hx] at hs
    cases hs
  · exact h

theorem follows_erase (w : World) (ref : Ref) : w.Follows { w with wrappers := w.wrappers.erase ref } :=
  follows_fewer rfl fun _ _ hy => (isItem_erase hy).2

/-- The entry of an id that no item has is dropped. -/
theorem follows_forget {w : World} {id : ItemId} (hid : ∀ ref x, w.IsItem ref x → x.id ≠ id) :
    w.Follows (w.forget .items id) := by
  have hr : (w.forget .items id).registry .items = (w.registry .items).forget id := by
    rw [registry_forget, if_pos rfl]
  refine ⟨Nat.le_of_eq ?_, fun ref y hy => ?_⟩
  · rw [hr, Registry.nextId_forget]
  · rw [IsItem, wrappers_forget] at hy
    have hb : ((w.registry .items).forget id).byId.get? y.id = (w.registry .items).byId.get? y.id := by
      rw [Registry.byId_forget, if_neg (hid ref y hy)]
    refine ⟨y, hy, rfl, fun e he => Or.inr ?_, Or.inr (Or.inr ⟨rfl, ?_⟩)⟩
    · rw [hr, hb] at he
      exact he
    · rw [hr, Registry.boundTo, Registry.boundTo, hb]

theorem matched_release {w : World} (hm : w.Matched told) {ref : Ref} {x : Wrapper} (hx : w.wrappers.get? ref = some x)
    (hh : w.isHeld ref = false) : (w.release ref).Matched told := by
  have gone := matched_follows hm (w.follows_erase ref)
  cases hs : x.space
  · rw [release_item hx hh hs]
    refine matched_follows gone (follows_forget fun a y hy e => ?_)
    -- another item with this id would be the freed one
    obtain ⟨hne, hy⟩ := isItem_erase hy
    exact hne (hm.unique a ref y x hy ⟨hx, hs⟩ e)
  · rw [release_probe hx hh hs]
    exact gone

/-- A new item has an id of its own, and no entry. -/
theorem matched_create {w : World} (ho : w.Ordered) (hm : w.Matched told) {id : ItemId} {r : Registry} {kind : WrapperKind}
    (ha : (w.registry .items).allocate? = some (id, r)) (hk : (Wrapper.fresh id kind).space = .items) :
    ((w.setRegistry .items r).addWrapper (.fresh id kind)).Matched told := by
  obtain ⟨rfl, rfl⟩ := Registry.allocate_eq ha
  let made := (w.setRegistry .items { w.registry .items with nextId := (w.registry .items).nextId + 1 }).addWrapper
    (.fresh ⟨(w.registry .items).nextId⟩ kind)
  have read (a : Ref) (y : Wrapper) (hy : made.IsItem a y) :
      (a = w.freshRef ∧ y = .fresh ⟨(w.registry .items).nextId⟩ kind) ∨ (w.IsItem a y ∧ y.id ≠ ⟨(w.registry .items).nextId⟩) := by
    rcases isItem_addWrapper hy with h | hy
    · exact Or.inl h
    · rw [IsItem, wrappers_setRegistry] at hy
      refine Or.inr ⟨hy, fun e => ?_⟩
      have := ho.idBelow a y hy.1
      rw [hy.2, e] at this
      exact absurd this (Nat.lt_irrefl _)
  have fresh : (w.registry .items).byId.get? ⟨(w.registry .items).nextId⟩ = none := by
    rcases he : (w.registry .items).byId.get? ⟨(w.registry .items).nextId⟩ with _ | e
    · rfl
    · exact absurd ((ho.coherent .items).below _ e he) (Nat.lt_irrefl _)
  refine ⟨fun a a' y y' hy hy' e => ?_, fun a y e hy he => ?_, fun a y hy => ?_, fun id wrapper ht => ?_⟩
  · rcases read a y hy with ⟨rfl, rfl⟩ | ⟨hy, hi⟩
    · rcases read a' y' hy' with ⟨rfl, -⟩ | ⟨-, hi'⟩
      · rfl
      · exact absurd e.symm hi'
    · rcases read a' y' hy' with ⟨-, rfl⟩ | ⟨hy', -⟩
      · exact absurd e hi
      · exact hm.unique a a' y y' hy hy' e
  · rcases read a y hy with ⟨rfl, rfl⟩ | ⟨hy, -⟩
    · change (w.registry .items).byId.get? ⟨(w.registry .items).nextId⟩ = some e at he
      rw [fresh] at he
      cases he
    · exact hm.own a y e hy he
  · rcases read a y hy with ⟨rfl, rfl⟩ | ⟨hy, -⟩
    · exact Or.inl rfl
    · exact hm.agree a y hy
  · obtain ⟨hlt, hk⟩ := hm.known id wrapper ht
    refine ⟨Nat.lt_succ_of_lt hlt, fun a y hy e => ?_⟩
    rcases read a y hy with ⟨rfl, rfl⟩ | ⟨hy, -⟩
    · have : (w.registry .items).nextId = id.val := congrArg ItemId.val e
      omega
    · exact hk a y hy e

/-- The entry that binding drops belongs to no item that is there: it would have been
    refused then. -/
theorem not_dropped {w : World} (ho : w.Ordered) (hm : w.Matched told) {ref a : Ref} {h : Handle} {y : Wrapper}
    (hs : w.spaceOf ref = .items) (hc : w.CanAttach ref h) (hy : w.IsItem a y) (hne : y.id ≠ w.idOf ref) :
    (w.registry .items).byHandle.get? h ≠ some y.id := by
  intro hb
  obtain ⟨hn, e, he, -⟩ := ((ho.coherent .items).mapped_iff h y.id).mp hb
  have hr := hc.1
  rw [hs] at hr
  have hl := Registry.owner_gone hr hn hb hne
  have live : w.isLive e.wrapper = true := by
    rw [hm.own a y e hy he]
    exact (w.isLive_iff a).mpr ⟨y, hy.1⟩
  simp [Registry.lookupId, he, live] at hl

theorem registry_rebind {w : World} {ref : Ref} (hs : w.spaceOf ref = .items) (h : Handle) :
    ((w.attach ref h).setHandle ref h).registry .items = (w.registry .items).bind (w.idOf ref) ref h := by
  show (w.attach ref h).registry .items = _
  rw [registry_attach, hs, if_pos rfl]

theorem follows_rebind {w : World} (ho : w.Ordered) (hm : w.Matched told) {ref : Ref} {h : Handle} {x : Wrapper}
    (hx : w.IsItem ref x) (hc : w.CanAttach ref h) : w.Follows ((w.attach ref h).setHandle ref h) := by
  have hs : w.spaceOf ref = .items := (spaceOf_eq hx.1).trans hx.2
  have hid := idOf_eq hx.1
  have hb := hc.2
  rw [hs] at hb
  obtain ⟨byId, -, nextId⟩ := Registry.tables_bind (ho.coherent .items) hb ref
  have hr := registry_rebind hs h
  refine ⟨Nat.le_of_eq (by rw [hr, nextId]), fun a y hy => ?_⟩
  rcases isItem_rebind hy with ⟨rfl, x', hx', rfl⟩ | ⟨ha, hy⟩
  · obtain rfl := hx.unique hx'
    have here : ((w.registry .items).bind (w.idOf a) a h).byId.get? x.id = some ⟨a, h⟩ := by rw [byId, hid, if_pos rfl]
    refine ⟨x, hx, rfl, fun e he => Or.inl ?_, Or.inr (Or.inl ?_)⟩
    · rw [hr, here] at he
      cases he
      rfl
    · rw [hr, Registry.boundTo, here]
      rfl
  · have hne : y.id ≠ w.idOf ref := fun e => ha (hm.unique a ref y x hy hx (e.trans hid))
    have same : ((w.registry .items).bind (w.idOf ref) ref h).byId.get? y.id = (w.registry .items).byId.get? y.id := by
      rw [byId, if_neg hne, if_neg (not_dropped ho hm hs hc hy hne)]
    refine ⟨y, hy, rfl, fun e he => Or.inr ?_, Or.inr (Or.inr ⟨rfl, ?_⟩)⟩
    · rw [hr, same] at he
      exact he
    · rw [hr, Registry.boundTo, Registry.boundTo, same]

/-- The end of a report takes the entry of its id away unless that is bound elsewhere. The
    item with that id is the one that the report knows, and holds null then. -/
theorem follows_settled {w : World} (hm : w.Matched told) {h : Handle} {id : ItemId} {wrapper : Option Ref}
    (ht : told id wrapper) : w.Follows (w.settled .items h id wrapper) := by
  have hr : (w.settled .items h id wrapper).registry .items = (w.registry .items).endDying h id := by
    rw [registry_settled, if_pos rfl]
  have byId := (w.registry .items).byId_endDying h id
  refine ⟨Nat.le_of_eq (by rw [hr, Registry.nextId_endDying]), fun a y hy => ?_⟩
  obtain ⟨x, hx, hi, hold⟩ := isItem_settled hy
  by_cases hgone : y.id = id ∧ (w.registry .items).isElsewhere id h = false
  · have hk := (hm.known id wrapper ht).2 a x hx (hi.trans hgone.1)
    refine ⟨x, hx, hi, fun e he => ?_, Or.inl ?_⟩
    · rw [hr, byId, if_pos hgone] at he
      cases he
    · rcases hold with h' | ⟨rfl, hne⟩
      · exact h'
      · rcases hm.agree a y hx with h' | h'
        · exact h'
        · -- what it holds is not `h`, so its entry is elsewhere
          have away : (w.registry .items).isElsewhere id h = true := by
            refine ((w.registry .items).isElsewhere_eq id h).mpr ⟨y.handle, hgone.1 ▸ h', fun e => ?_⟩
            exact hne ⟨hk, hgone.2, e⟩
          rw [hgone.2] at away
          cases away
  · have same : ((w.registry .items).endDying h id).byId.get? y.id = (w.registry .items).byId.get? y.id := by
      rw [byId, if_neg hgone]
    refine ⟨x, hx, hi, fun e he => Or.inr ?_, ?_⟩
    · rw [hr, same] at he
      exact he
    · rcases hold with h' | ⟨rfl, -⟩
      · exact Or.inl h'
      · refine Or.inr (Or.inr ⟨rfl, ?_⟩)
        rw [hr, Registry.boundTo, Registry.boundTo, same]

/-- The end of a report in the other registry. -/
theorem follows_settledProbe (w : World) (h : Handle) (id : ItemId) (wrapper : Option Ref) :
    w.Follows (w.settled .bare h id wrapper) := by
  have hr : (w.settled .bare h id wrapper).registry .items = w.registry .items := by
    rw [registry_settled, if_neg (by simp)]
  refine ⟨Nat.le_of_eq (by rw [hr]), fun a y hy => ?_⟩
  obtain ⟨x, hx, hi, hold⟩ := isItem_settled hy
  rw [hr]
  refine ⟨x, hx, hi, fun e he => Or.inr he, ?_⟩
  rcases hold with h' | ⟨rfl, -⟩
  · exact Or.inl h'
  · exact Or.inr (Or.inr ⟨rfl, rfl⟩)

theorem matched_congr {w w' : World} (hr : w'.registry .items = w.registry .items) (hx : w'.wrappers = w.wrappers)
    (hm : w.Matched told) : w'.Matched told := matched_follows hm (follows_congr hr hx)

theorem matched_toolkit {w : World} (hm : w.Matched told) (t : Toolkit) : { w with toolkit := t }.Matched told :=
  ⟨hm.unique, hm.own, hm.agree, hm.known⟩

theorem not_item_of_probe {w : World} {ref : Ref} {x : Wrapper} (hs : w.spaceOf ref = .bare) : ¬ w.IsItem ref x := by
  intro hx
  rw [spaceOf_eq hx.1, hx.2] at hs
  cases hs

theorem follows_setProbe {w : World} {ref : Ref} (hs : w.spaceOf ref = .bare) (h : Handle) : w.Follows (w.setHandle ref h) :=
  w.follows_modifyWrapper ref _ (fun _ => ⟨rfl, rfl⟩) fun _ hx => absurd hx (not_item_of_probe hs)

theorem follows_attachProbe {w : World} {ref : Ref} (hs : w.spaceOf ref = .bare) (h : Handle) : w.Follows (w.attach ref h) := by
  refine follows_congr ?_ (w.wrappers_attach ref h)
  rw [registry_attach, hs, if_neg (by simp)]

theorem matched_move {w w' : World} (ho : w.Ordered) (hm : w.Matched told) (h : Move .bound w w') : w'.Matched told := by
  cases h with
  | aside hc =>
    obtain ⟨-, hr, hx, -⟩ := core_eq hc
    exact matched_congr (hr .items) hx hm
  | createItem _ => exact matched_toolkit hm _
  | createObject _ => exact matched_toolkit hm _
  | adopt h _ => exact matched_toolkit hm _
  | takePending => exact matched_toolkit hm _
  | call c _ => exact matched_toolkit hm _
  | allocate space id r ha =>
    obtain ⟨rfl, rfl⟩ := Registry.allocate_eq ha
    refine matched_follows hm ?_
    cases space
    · exact ⟨Nat.le_succ _, fun ref y hy => ⟨y, hy, rfl, fun e he => Or.inr he, Or.inr (Or.inr ⟨rfl, rfl⟩)⟩⟩
    · exact follows_congr rfl rfl
  | create space id r kind ha hs =>
    cases space
    · exact matched_create ho hm ha hs
    · have hf : w.Follows (w.setRegistry .bare r) := follows_congr rfl rfl
      exact matched_follows (matched_follows hm hf) (follows_addProbe _ hs)
  | share id name bare _ => exact matched_follows hm (w.follows_addProbe rfl)
  | free ref x hx hh => exact matched_release hm hx hh
  | attach ref h _ hk _ => exact matched_follows hm (follows_attachProbe hk h)
  | rebind ref h hl _ _ hc =>
    obtain ⟨x, hx⟩ := (w.isLive_iff ref).mp hl
    cases hs : w.spaceOf ref
    · exact matched_follows hm (follows_rebind ho hm ⟨hx, (spaceOf_eq hx).symm.trans hs⟩ hc)
    · have hs' : (w.attach ref h).spaceOf ref = .bare := by
        rw [spaceOf, wrappers_attach]
        exact hs
      exact matched_follows (matched_follows hm (follows_attachProbe hs h)) (follows_setProbe hs' h)
  | confirm ref h _ _ hb =>
    refine matched_follows hm (w.follows_modifyWrapper ref _ (fun _ => ⟨rfl, rfl⟩) fun x hx => Or.inr (Or.inr ?_))
    rw [spaceOf_eq hx.1, hx.2, idOf_eq hx.1] at hb
    exact ((w.registry .items).isBoundTo_eq x.id h).mp hb
  | setProbe ref h hp =>
    obtain ⟨x, hx, hs⟩ := hp
    exact matched_follows hm (follows_setProbe ((spaceOf_eq hx).trans hs) h)
  | setNull ref => exact matched_follows hm (w.follows_setNull ref)
  | edit ref f hf =>
    exact matched_follows hm (w.follows_modifyWrapper ref f (fun x => ⟨(hf x).1, (hf x).2.2⟩) fun x _ =>
      Or.inr (Or.inl (hf x).2.1))
  | forget space id hk =>
    obtain rfl : space = .bare := hk
    refine matched_congr ?_ (w.wrappers_forget .bare id) hm
    rw [registry_forget, if_neg (by simp)]

end World

/-- The reports that have not ended. -/
def unsettled (ts : List Task) (id : ItemId) (wrapper : Option Ref) : Prop := ∃ h, .settle .items h id wrapper ∈ jobs ts

/-- What is kept by every step. -/
def OwnInv (c : State) : Prop := c.world.Ordered ∧ c.world.Matched (unsettled c.tasks)

theorem World.Matched.weaken {told told' : ItemId → Option Ref → Prop} {w : World} (hm : w.Matched told)
    (h : ∀ id wrapper, told' id wrapper → told id wrapper) : w.Matched told' :=
  ⟨hm.unique, hm.own, hm.agree, fun id wrapper ht => hm.known id wrapper (h id wrapper ht)⟩

/-- The handle that an item holds is mapped to it. -/
theorem World.Matched.mapped {told : ItemId → Option Ref → Prop} {w : World} (hm : w.Matched told) (ho : w.Ordered) {ref : Ref}
    {x : Wrapper} (hx : w.IsItem ref x) (hn : x.handle ≠ .null) :
    (w.registry .items).byHandle.get? x.handle = some x.id :=
  ((ho.coherent .items).inverse _ _).mpr ⟨hn, (hm.agree ref x hx).resolve_left hn⟩

/-- A report that begins knows the item under its id. -/
theorem World.known_of_mapped {told : ItemId → Option Ref → Prop} {w : World} (ho : w.Ordered) (hm : w.Matched told)
    {h : Handle} {id : ItemId} (hb : (w.registry .items).byHandle.get? h = some id) :
    id.val < (w.registry .items).nextId ∧ ∀ ref x, w.IsItem ref x → x.id = id → w.lookupId .items id = some ref := by
  obtain ⟨-, e, he, -⟩ := ((ho.coherent .items).mapped_iff h id).mp hb
  refine ⟨(ho.coherent .items).below id e he, fun ref x hx hi => ?_⟩
  have hr := hm.own ref x e hx (hi ▸ he)
  have live : w.isLive ref = true := (w.isLive_iff ref).mpr ⟨x, hx.1⟩
  simp only [World.lookupId, Registry.lookupId, he, hr, live, if_true]

theorem ownInv_turn {c c' : State} (hc : OwnInv c) (hs : Turn .bound c c') : OwnInv c' := by
  obtain ⟨ho, hm⟩ := hc
  have kept : c'.world.Ordered ∧ c'.world.Matched (unsettled c.tasks) := by
    refine hs.keeps (I := fun w => w.Ordered ∧ w.Matched (unsettled c.tasks)) ?_ ?_ ?_ ?_ ⟨ho, hm⟩
    · exact fun w w' hw h => ⟨World.ordered_move hw.1 h, World.matched_move hw.1 hw.2 h⟩
    · exact fun w h t slot hw _ => ⟨World.ordered_toolkit hw.1 t, World.matched_toolkit hw.2 t⟩
    · intro w space h hw
      have hr := Registry.coherent_startDying (hw.1.coherent space) h
      refine ⟨World.ordered_setRegistry hw.1 hr (Nat.le_refl _) fun _ _ he => he, ?_⟩
      cases space
      · exact ⟨hw.2.unique, hw.2.own, hw.2.agree, hw.2.known⟩
      · exact World.matched_follows hw.2 (World.follows_congr rfl rfl)
    · intro level space h id wrapper ts ht hw
      refine ⟨World.ordered_settled hw.1 space h id wrapper, ?_⟩
      cases space
      · have told : unsettled c.tasks id wrapper := ⟨h, by simp [ht, jobs]⟩
        exact World.matched_follows hw.2 (World.follows_settled hw.2 told)
      · exact World.matched_follows hw.2 (World.follows_settledProbe _ h id wrapper)
  refine ⟨kept.1, ⟨kept.2.unique, kept.2.own, kept.2.agree, fun id wrapper ht => ?_⟩⟩
  obtain ⟨p, w, t, ts, ok⟩ := hs
  obtain ⟨h, hj⟩ := ht
  simp only [jobs, List.map_append, List.mem_append] at hj
  rcases hj with hj | hj
  · -- a report begins: the world is as it was, but for the mark on the handle
    obtain ⟨hjob, hd, hb, rfl⟩ := settle_of_mem_expand hj
    have core : (p.expand t w).1.core = (w.setRegistry .items ((w.registry .items).startDying h)).core := by
      rw [p.expand_eq t w (by simp [hjob]), hjob]
      exact (World.nativeDelete_found hd hb).1
    obtain ⟨-, hr, hx, -⟩ := World.core_eq core
    have known := World.known_of_mapped ho hm hb
    refine ⟨?_, fun ref x hi => known.2 ref x ⟨?_, hi.2⟩⟩
    · rw [hr]
      exact known.1
    · rw [← hi.1, hx]
      rfl
  · exact kept.2.known id wrapper ⟨h, by simp only [jobs, List.map_cons, List.mem_cons]; exact Or.inr hj⟩

theorem Reach.ownInv {c : State} (h : Reach .bound c) : OwnInv c := by
  refine h.invariant (I := OwnInv) (fun mode => ⟨World.ordered_start mode, World.matched_start mode ?_⟩) ?_ ?_
  · rintro id wrapper ⟨h, hj⟩
    cases hj
  · refine fun w level choose hw => ⟨hw.1, hw.2.weaken ?_⟩
    rintro id wrapper ⟨h, hj⟩
    simp [jobs] at hj
  · exact fun c c' hc hs => ownInv_turn hc hs

/-- In every state, a live item holds null, or a handle that its entry holds too and that
    leads back to it. So an item is found by the handle that it holds, differs from its
    entry only by holding null, and holds a handle that no other live item holds. -/
theorem items_agree_with_the_tables {c : State} (h : Reach .bound c) {ref : Ref} {x : Wrapper}
    (hx : c.world.wrappers.get? ref = some x) (hs : x.space = .items) :
    let r := c.world.registry .items
    (x.handle = .null ∨ (∃ e, r.byId.get? x.id = some e ∧ e.handle = x.handle) ∧ r.byHandle.get? x.handle = some x.id) ∧
    (x.handle ≠ .null → c.world.lookupHandle .items x.handle = some ref) ∧
    (∀ e, r.byId.get? x.id = some e → x.handle = .null ∨ x.handle = e.handle) ∧
    ∀ ref' x', c.world.wrappers.get? ref' = some x' → x'.space = .items → x.handle ≠ .null → x'.handle = x.handle →
      ref' = ref := by
  intro r
  obtain ⟨ho, hm⟩ := h.ownInv
  have hr : r.Coherent := ho.coherent .items
  have mapped (hn : x.handle ≠ .null) : r.byHandle.get? x.handle = some x.id := hm.mapped ho ⟨hx, hs⟩ hn
  have entry (hn : x.handle ≠ .null) : ∃ e, r.byId.get? x.id = some e ∧ e.handle = x.handle :=
    ((hr.mapped_iff _ _).mp (mapped hn)).2
  refine ⟨?_, fun hn => ?_, fun e he => ?_, fun ref' x' hx' hs' hn hh => ?_⟩
  · by_cases hn : x.handle = .null
    · exact Or.inl hn
    · exact Or.inr ⟨entry hn, mapped hn⟩
  · show r.lookupHandle c.world.isLive x.handle = some ref
    unfold Registry.lookupHandle
    rw [mapped hn]
    exact (World.known_of_mapped ho hm (mapped hn)).2 ref x ⟨hx, hs⟩ rfl
  · by_cases hn : x.handle = .null
    · exact Or.inl hn
    · obtain ⟨e', he', hh⟩ := entry hn
      rw [he] at he'
      cases he'
      exact Or.inr hh.symm
  · have hb := hm.mapped ho ⟨hx', hs'⟩ (hh ▸ hn)
    rw [hh, mapped hn] at hb
    exact hm.unique ref' ref x' x ⟨hx', hs'⟩ ⟨hx, hs⟩ (Option.some.inj hb).symm

/-- The item that has just moved, with the end of the report of its first object to come. -/
theorem mover_agrees_with_the_tables :
    ∃ x, moving.world.wrappers.get? ⟨0⟩ = some x ∧ x.space = .items ∧ x.handle = ⟨0x1010⟩ ∧
      (x.handle ≠ .null → moving.world.lookupHandle .items x.handle = some ⟨0⟩) :=
  ⟨_, rfl, rfl, rfl, (items_agree_with_the_tables (reach_moving.mono Conduct.sole_within_bound) rfl rfl).2.1⟩

end HandleBridge
