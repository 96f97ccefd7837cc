/-
  HandleBridge.Proofs.Rows — the rows of the simulation are made and selected.

  Row `i` is wrapper `i` with id `i`, on the `i`-th item that the toolkit makes, under a name of its
  own. `Rows n` says so of the first `n` rows, and that whatever the rows have no part in is as it
  was when the grid had been made.

  - `rows_made`: making rows one after the other leads from `Rows 0` to `Rows n`.
  - `selection`: what comes of the selection of an item, whether the registry finds it or not.
  - `rows_selected`: every row is found, and its selection is written down.
-/
import HandleBridge.Proofs.DeleteModes

namespace HandleBridge

theorem Program.Yields.perform_eq {p : Program} {choose : World → Op} {w w' : World} {told : Ref → List Notice}
    (h : p.Yields [⟨p.limit, .act choose⟩] w w' told) : p.perform choose w = w' := by
  obtain ⟨vs, hc, -⟩ := h
  exact hc.run_eq

namespace Simulation

/-! ## Operations one after the other -/

theorem attempt_cons {choose : World → Op} {w w' : World} (h : program.perform choose w = w')
    (ha : ∀ e, w'.answer ≠ .failed (.bind e)) (rest : List (World → Op)) :
    attempt (choose :: rest) w = attempt rest w' := by
  simp only [attempt, h]

theorem attempt_append (xs ys : List (World → Op)) (w : World) :
    attempt (xs ++ ys) w = attempt xs w >>= attempt ys := by
  induction xs generalizing w with
  | nil => rfl
  | cons choose xs ih =>
    simp only [List.cons_append, attempt]
    split
    · rfl
    · exact ih _

/-- An operation after which nothing is due. -/
theorem perform_quiet {choose : World → Op} {w w' : World} (h : w.perform (choose w) = (w', [])) :
    program.perform choose w = w' := by
  have quiet : program.Yields [⟨program.limit, .act choose⟩] w w' untold := .quiet trivial h
  exact quiet.perform_eq

theorem attempt_quiet {choose : World → Op} {w : World} (w' : World) (h : w.perform (choose w) = (w', []))
    (ha : ∀ e, w'.answer ≠ .failed (.bind e)) (rest : List (World → Op)) :
    attempt (choose :: rest) w = attempt rest w' :=
  attempt_cons (perform_quiet h) ha rest

/-! ## Handles and names -/

/-- The handle of the item that is made for a row. -/
def rowHandle (i : Nat) : Handle := ⟨UInt64.ofNat (0x1010 + 0x10 * i)⟩

theorem toNat_rowHandle {i : Nat} (hi : i < UInt32.size) : (rowHandle i).raw.toNat = 0x1010 + 0x10 * i := by
  show (0x1010 + 0x10 * i) % 18446744073709551616 = _
  have : UInt32.size = 4294967296 := rfl
  omega

theorem rowHandle_succ (i : Nat) : (rowHandle i).raw + Toolkit.handleStride = (rowHandle (i + 1)).raw := by
  show UInt64.ofNat _ + UInt64.ofNat 0x10 = UInt64.ofNat _
  rw [← UInt64.ofNat_add]
  congr 1

theorem rowHandle_inj {i j : Nat} (hi : i < UInt32.size) (hj : j < UInt32.size)
    (h : rowHandle i = rowHandle j) : i = j := by
  have : (rowHandle i).raw.toNat = (rowHandle j).raw.toNat := by rw [h]
  rw [toNat_rowHandle hi, toNat_rowHandle hj] at this
  omega

theorem rowHandle_ne_null {i : Nat} (hi : i < UInt32.size) : rowHandle i ≠ .null := by
  intro h
  have := toNat_rowHandle hi
  rw [h] at this
  change 0 = _ at this
  omega

/-- The grid's own object was made before. -/
theorem rowHandle_ne_grid {i : Nat} (hi : i < UInt32.size) : rowHandle i ≠ ⟨Toolkit.firstHandle⟩ := by
  intro h
  have := toNat_rowHandle hi
  rw [h] at this
  change 0x1000 = _ at this
  omega

theorem rowName_inj {i j : Nat} (h : rowName i = rowName j) : i = j := by
  have digits : Nat.toDigits 10 i = Nat.toDigits 10 j := by
    have := congrArg String.toList h
    simpa only [rowName, String.toList_append, List.append_cancel_left_eq, toString, Nat.toList_repr] using this
  rw [← @Nat.ofDigitChars_ten_toDigits i, digits, Nat.ofDigitChars_ten_toDigits]

/-! ## The grid -/

/-- The trampoline that listens to the selections. -/
def listener : Trampoline := ⟨0, ⟨0, gridName⟩, .item, "on selected"⟩

def gridBridge : Bridge := (Bridge.fresh ⟨0, gridName⟩ ⟨Toolkit.firstHandle⟩ signalName .item).addListener listener

/-- The world in which the grid has been made. -/
def opened (mode : DeleteMode) : World := opening.foldl (fun w choose => (w.perform (choose w)).1) (.start mode)

theorem attempt_opening (mode : DeleteMode) : attempt opening (.start mode) = .ok (opened mode) := by
  refine (attempt_quiet _ rfl (fun _ h => by cases h) _).trans ?_
  refine (attempt_quiet _ rfl (fun _ h => by cases h) _).trans ?_
  refine (attempt_quiet _ rfl (fun _ h => by cases h) _).trans ?_
  exact (attempt_quiet _ rfl (fun _ h => by cases h) _).trans rfl

/-- What the rows have no part in. -/
def setting (w : World) :=
  (w.toolkit.mode, w.toolkit.registrations, w.bridges, w.senders, w.holdsContext, w.itemRegistry.dying,
    w.bareRegistry)

/-! ## Making a row -/

def rowWrapper (i : Nat) : Wrapper := ⟨⟨i⟩, rowHandle i, .grid (some (.row i)), ["on deleted"], ∅⟩

/-- The first `n` rows are there, and no others. -/
structure Rows (mode : DeleteMode) (n : Nat) (w : World) : Prop where
  ordered : w.Ordered
  nextHandle : w.toolkit.nextHandle = (rowHandle n).raw
  nextId : w.itemRegistry.nextId = n
  nextRef : w.nextRef = n
  wrappers : ∀ i < n, w.wrappers.get? ⟨i⟩ = some (rowWrapper i)
  names : ∀ i, w.itemNames.get? (rowName i) = if i < n then some ⟨i⟩ else none
  entries : ∀ id, w.itemRegistry.byId.get? id = if id.val < n then some ⟨⟨id.val⟩, rowHandle id.val⟩ else none
  slots : ∀ i < n, w.toolkit.deleteSlot (rowHandle i) = some (.registry .items)
  unmoved : setting w = setting (opened mode)

theorem rows_opened (mode : DeleteMode) : Rows mode 0 (opened mode) where
  ordered := by
    refine World.ordered_congr (w := .start mode) (fun space => ?_) rfl rfl (World.ordered_start mode)
    cases space <;> rfl
  nextHandle := rfl
  nextId := rfl
  nextRef := rfl
  wrappers := by simp
  names _ := rfl
  entries _ := rfl
  slots := by simp
  unmoved := rfl

end Simulation

namespace Toolkit

theorem contains_adopt (t : Toolkit) (h : Handle) : (t.adopt h).items.contains h = true := by
  unfold adopt
  split
  · assumption
  · simp [Table.contains]

theorem get?_adopt {t : Toolkit} {h a : Handle} (ha : a ≠ h) : (t.adopt h).items.get? a = t.items.get? a := by
  unfold adopt
  split
  · rfl
  · rw [Table.get?_insert, if_neg ha]

/-- An item that is made and gets a callback and a text has the callback in its slot. -/
theorem deleteSlot_made (t : Toolkit) (h a : Handle) (cb : Option DeleteCallback) (part : Part) (text : String) :
    (((t.adopt h).apply (.itemDelCbSet h cb)).apply (.partTextSet h part text)).deleteSlot a =
      if a = h then cb else t.deleteSlot a := by
  simp only [deleteSlot, apply, effect, modifyItem, Table.get?_modify]
  split
  · rename_i e
    subst e
    obtain ⟨i, hi⟩ := Option.isSome_iff_exists.mp (t.contains_adopt a)
    simp only [hi, Option.map_some, Option.bind_some]
  · rename_i e
    rw [get?_adopt e]

end Toolkit

namespace World

/-- A call that the toolkit does not complain about. -/
theorem native_known {w : World} {c : NativeCall} (h : w.toolkit.complaint c = none) :
    w.native c = { w with toolkit := w.toolkit.apply c, history := .native c :: w.history } := by
  simp only [native, callToolkit, emit, h]

/-- A grid cell is made on an item that is bound to nothing. -/
theorem newGrid_free {w : World} {h : Handle} {name : String} (data : RowData)
    (room : w.itemRegistry.nextId < ItemId.bound) (hn : h ≠ .null) (free : w.itemRegistry.byHandle.get? h = none)
    (fresh : w.itemRegistry.byId.get? ⟨w.itemRegistry.nextId⟩ = none)
    (alive : w.toolkit.items.contains h = true) (unused : w.itemNames.get? name = none) :
    w.newGrid h data (some name) =
      { w with
        toolkit := w.toolkit.apply (.itemDelCbSet h (some (.registry .items)))
        itemRegistry := { w.itemRegistry with nextId := w.itemRegistry.nextId + 1 }.bind
          ⟨w.itemRegistry.nextId⟩ w.freshRef h
        wrappers :=
          (w.wrappers.insert w.freshRef (.fresh ⟨w.itemRegistry.nextId⟩ (.grid (some data)))).modify w.freshRef
            ({ · with handle := h })
        nextRef := w.nextRef + 1
        itemNames := w.itemNames.insert name w.freshRef
        history := .log (.registered ⟨w.itemRegistry.nextId⟩ h .null) ::
          .native (.itemDelCbSet h (some (.registry .items))) :: w.history
        answer := .id ⟨w.itemRegistry.nextId⟩ } := by
  have allocated : (w.registry .items).allocate? =
      some (⟨w.itemRegistry.nextId⟩, { w.itemRegistry with nextId := w.itemRegistry.nextId + 1 }) := by
    simp only [Registry.allocate?, registry, room, if_true]
  let made := (w.setRegistry .items { w.itemRegistry with nextId := w.itemRegistry.nextId + 1 }).addWrapper
    (.fresh ⟨w.itemRegistry.nextId⟩ (.grid (some data)))
  have idOf : made.idOf w.freshRef = ⟨w.itemRegistry.nextId⟩ := by
    simp [made, World.idOf, addWrapper, freshRef, setRegistry, Wrapper.fresh]
  have spaceOf : made.spaceOf w.freshRef = .items := by
    simp [made, World.spaceOf, addWrapper, freshRef, setRegistry, Wrapper.fresh, Wrapper.space]
  have isNull : h.isNull = false := h.isNull_eq_false_iff.mpr hn
  have conflict : made.itemRegistry.conflict? made.isLive ⟨w.itemRegistry.nextId⟩ h = none := by
    simp only [made, Registry.conflict?, addWrapper, setRegistry, isNull, free, Bool.false_eq_true, if_false]
  have unbound : made.itemRegistry.isBoundTo ⟨w.itemRegistry.nextId⟩ h = false := by
    simp only [made, Registry.isBoundTo, addWrapper, setRegistry, fresh]
  have previous : made.itemRegistry.handleOf ⟨w.itemRegistry.nextId⟩ = .null := by
    simp only [made, Registry.handleOf, addWrapper, setRegistry, fresh]
    rfl
  let entered := made.setRegistry .items (made.itemRegistry.bind ⟨w.itemRegistry.nextId⟩ w.freshRef h)
  have registered : made.register w.freshRef h = ((entered.native (.itemDelCbSet h (some (.registry .items)))).log
      (.registered ⟨w.itemRegistry.nextId⟩ h .null), none) := by
    simp only [register, idOf, spaceOf, registry, conflict, unbound, previous, isNull, Bool.false_eq_true, if_false]
    rfl
  have known : entered.toolkit.complaint (.itemDelCbSet h (some (.registry .items))) = none := by
    simp only [entered, made, addWrapper, setRegistry, Toolkit.complaint, Toolkit.unknownItem?, alive, if_true]
  have bound : made.bind w.freshRef h = (((entered.native (.itemDelCbSet h (some (.registry .items)))).log
      (.registered ⟨w.itemRegistry.nextId⟩ h .null)).setHandle w.freshRef h, none) := by
    rw [bind_accepted (congrArg (·.2) registered), registered]
  rw [native_known known] at bound
  have unused' : ((w.setRegistry .items { w.itemRegistry with nextId := w.itemRegistry.nextId + 1 }).addWrapper
      (.fresh ⟨w.itemRegistry.nextId⟩ (.grid (some data)))).bind
      (w.setRegistry .items { w.itemRegistry with nextId := w.itemRegistry.nextId + 1 }).freshRef h = _ := bound
  simp only [newGrid, withFreshId, allocated, unused']
  simp only [nameItem, setRegistry, log, emit, setHandle, modifyWrapper, entered, made, addWrapper, unused]
  rfl

end World

namespace Simulation

variable {mode : DeleteMode} {n : Nat} {w : World}

theorem Rows.mode_eq (h : Rows mode n w) : w.toolkit.mode = mode := congrArg (·.1) h.unmoved

theorem Rows.registrations (h : Rows mode n w) : w.toolkit.registrations = (opened mode).toolkit.registrations :=
  congrArg (·.2.1) h.unmoved

theorem Rows.bridges (h : Rows mode n w) : w.bridges = (opened mode).bridges := congrArg (·.2.2.1) h.unmoved

theorem Rows.senders (h : Rows mode n w) : w.senders = (opened mode).senders := congrArg (·.2.2.2.1) h.unmoved

theorem Rows.context (h : Rows mode n w) : w.holdsContext = true := congrArg (·.2.2.2.2.1) h.unmoved

theorem Rows.dying (h : Rows mode n w) : w.itemRegistry.dying = [] := congrArg (·.2.2.2.2.2.1) h.unmoved

theorem Rows.handleOf (h : Rows mode n w) {i : Nat} (hi : i < n) : w.handleOf ⟨i⟩ = rowHandle i :=
  World.handleOf_eq (h.wrappers i hi)

theorem Rows.named (h : Rows mode n w) {i : Nat} (hi : i < n) : w.itemNames.get? (rowName i) = some ⟨i⟩ := by
  rw [h.names, if_pos hi]

/-- A handle that no row has is bound to nothing. -/
theorem Rows.unmapped (h : Rows mode n w) {a : Handle} (ha : ∀ i < n, rowHandle i ≠ a) :
    w.itemRegistry.byHandle.get? a = none := by
  rw [Option.eq_none_iff_forall_ne_some]
  intro id hm
  obtain ⟨-, hb⟩ := ((h.ordered.coherent .items).inverse a id).mp hm
  change (w.itemRegistry.byId.get? id).map _ = _ at hb
  rw [h.entries] at hb
  split at hb
  · rename_i hi
    exact ha id.val hi (Option.some.inj hb)
  · cases hb

/-- The world with one more row. -/
def withRow (i : Nat) (w : World) : World :=
  let h := w.toolkit.freshHandle
  let id : ItemId := ⟨w.itemRegistry.nextId⟩
  let text := "Row " ++ toString i
  { w with
    toolkit := (w.toolkit.createItem.apply (.itemDelCbSet h (some (.registry .items)))).apply
      (.partTextSet h (some "elm.text") text)
    itemRegistry := { w.itemRegistry with nextId := w.itemRegistry.nextId + 1 }.bind id w.freshRef h
    wrappers :=
      ((w.wrappers.insert w.freshRef (.fresh id (.grid (some (.row i))))).modify w.freshRef
        ({ · with handle := h })).modify w.freshRef fun x => { x with deleted := x.deleted ++ ["on deleted"] }
    nextRef := w.nextRef + 1
    itemNames := w.itemNames.insert (rowName i) w.freshRef
    history := .native (.partTextSet h (some "elm.text") text) :: .log (.registered id h .null) ::
      .native (.itemDelCbSet h (some (.registry .items))) :: w.history
    answer := .none }

theorem attempt_makeRow {i : Nat} (room : w.itemRegistry.nextId < ItemId.bound)
    (real : w.toolkit.freshHandle ≠ .null) (free : w.itemRegistry.byHandle.get? w.toolkit.freshHandle = none)
    (fresh : w.itemRegistry.byId.get? ⟨w.itemRegistry.nextId⟩ = none)
    (unused : w.itemNames.get? (rowName i) = none) :
    attempt (makeRow i) w = .ok (withRow i w) ∧ (w.Ordered → (withRow i w).Ordered) := by
  have alive : w.toolkit.createItem.items.contains w.toolkit.freshHandle = true := Toolkit.contains_adopt _ _
  -- the item
  let w₁ := { w with toolkit := w.toolkit.createItem }.answering (.handle w.toolkit.freshHandle)
  -- the grid cell
  let w₂ := w₁.newGrid w.toolkit.freshHandle (.row i) (some (rowName i))
  have cell : w₂ = _ := World.newGrid_free (w := w₁) (.row i) room real free fresh alive unused
  have named : w₂.itemNames.get? (rowName i) = some w.freshRef := by
    rw [cell]
    show (Table.insert _ _ _).get? _ = _
    rw [Table.get?_insert, if_pos rfl]
    rfl
  have handle : w₂.handleOf w.freshRef = w.toolkit.freshHandle := by
    rw [cell]
    show (((Table.modify (Table.insert _ w.freshRef _) w.freshRef _).get? w.freshRef).map _).getD _ = _
    simp only [Table.get?_modify, Table.get?_insert, if_true, Option.map_some, Option.getD_some]
  have alive₂ : w₂.toolkit.items.contains w.toolkit.freshHandle = true := by
    rw [cell]
    exact (Toolkit.contains_modifyItem _ _ _ _).trans alive
  -- its text
  let text : NativeCall := .partTextSet w.toolkit.freshHandle (some "elm.text") ("Row " ++ toString i)
  let w₃ := (w₂.native text).answering .none
  have three : w₂.perform
      (withItem (rowName i) (fun _ ref => .setText ref (some "elm.text") ("Row " ++ toString i)) w₂) = (w₃, []) := by
    simp only [withItem, named, World.perform, World.withHandle, World.liveHandle, handle,
      (Handle.isNull_eq_false_iff _).mpr real, Bool.false_eq_true, if_false, w₃, text]
  have said : w₂.native text = _ :=
    World.native_known (by simp only [text, Toolkit.complaint, Toolkit.unknownItem?, alive₂, if_true])
  -- its observer
  have four : w₃.perform (withItem (rowName i) (fun _ ref => .onDeleted ref "on deleted") w₃) =
      (w₃.onDeleted w.freshRef "on deleted", []) := by
    have named : w₃.itemNames.get? (rowName i) = some w.freshRef := by
      simp only [w₃, said]
      exact named
    simp only [withItem, named, World.perform]
  have done : w₃.onDeleted w.freshRef "on deleted" = withRow i w := by
    show ((w₂.native text).answering .none).onDeleted w.freshRef "on deleted" = _
    rw [said, cell]
    rfl
  have answer : w₂.answer = .id ⟨w.itemRegistry.nextId⟩ := by
    rw [cell]
    rfl
  refine ⟨?_, fun ordered => ?_⟩
  · refine (attempt_quiet w₁ rfl (by simp [w₁, World.answering]) _).trans ?_
    refine (attempt_quiet w₂ rfl (by simp [answer]) _).trans ?_
    refine (attempt_quiet w₃ three (by simp [w₃, World.answering]) _).trans ?_
    rw [← done]
    exact attempt_quiet _ four (by simp [World.onDeleted, World.answering]) _
  · have target : Conduct.free.target w₁.toolkit w.toolkit.freshHandle := trivial
    have moves : Moves .free w₁ w₂ := World.moves_newGrid w₁ _ _ _ trivial target
    have ordered₁ : w₁.Ordered :=
      World.ordered_move (k := .free) (World.ordered_toolkit ordered w.toolkit.createItem) (.aside rfl)
    have ordered₂ : w₂.Ordered := moves.keeps (fun _ _ => World.ordered_move) ordered₁
    have heard := World.ordered_modifyWrapper (World.ordered_toolkit ordered₂ (w₂.toolkit.apply text)) w.freshRef
      (f := fun x => { x with deleted := x.deleted ++ ["on deleted"] }) fun _ => ⟨rfl, rfl⟩
    rw [← done]
    refine World.ordered_move (k := .free) heard (.aside ?_)
    show ((((w₂.native text).answering .none).modifyWrapper w.freshRef _).answering .none).core = _
    rw [said]
    rfl

/-- One more row is made. -/
theorem row_made (h : Rows mode n w) (hn : n < ItemId.bound) :
    attempt (makeRow n) w = .ok (withRow n w) ∧ Rows mode (n + 1) (withRow n w) := by
  have small (i : Nat) (hi : i < n + 1) : i < UInt32.size := by
    have : ItemId.bound = UInt32.size - 1 := rfl
    omega
  have other (i : Nat) (hi : i < n) : rowHandle i ≠ rowHandle n := fun e => by
    have := rowHandle_inj (small i (by omega)) (small n (by omega)) e
    omega
  have free := h.unmapped other
  have handle : w.toolkit.freshHandle = rowHandle n := congrArg Handle.mk h.nextHandle
  have ref : w.freshRef = ⟨n⟩ := congrArg Ref.mk h.nextRef
  have unbound : ({ w.itemRegistry with nextId := w.itemRegistry.nextId + 1 } : Registry).isBoundTo
      ⟨w.itemRegistry.nextId⟩ w.toolkit.freshHandle = false := by
    simp only [Registry.isBoundTo, h.entries, h.nextId, Nat.lt_irrefl, if_false]
  obtain ⟨made, ordered⟩ : attempt (makeRow n) w = .ok (withRow n w) ∧ (w.Ordered → (withRow n w).Ordered) := by
    refine attempt_makeRow (h.nextId ▸ hn) (handle ▸ rowHandle_ne_null (small n (by omega))) (handle ▸ free) ?_ ?_
    · rw [h.entries, if_neg]
      simp [h.nextId]
    · rw [h.names, if_neg (Nat.lt_irrefl n)]
  refine ⟨made, ?_⟩
  obtain ⟨byId, -, nextId⟩ := Registry.tables_bind
    (Registry.coherent_allocate (h.ordered.coherent .items)) unbound w.freshRef
  refine ⟨ordered h.ordered, ?_, nextId.trans (congrArg (· + 1) h.nextId), congrArg (· + 1) h.nextRef,
    fun i hi => ?_, fun i => ?_, fun id => ?_, fun i hi => ?_, ?_⟩
  · show w.toolkit.nextHandle + Toolkit.handleStride = _
    rw [h.nextHandle, rowHandle_succ]
  · show (Table.modify (Table.modify (Table.insert _ w.freshRef _) w.freshRef _) w.freshRef _).get? _ = _
    simp only [Table.get?_modify, Table.get?_insert, ref, Ref.mk.injEq]
    by_cases e : i = n
    · subst e
      simp [Wrapper.fresh, rowWrapper, h.nextId, handle]
    · simp only [e, if_false]
      exact h.wrappers i (by omega)
  · show (Table.insert _ _ _).get? _ = _
    rw [Table.get?_insert, h.names, ref]
    by_cases e : i = n
    · simp [e]
    · have : rowName i ≠ rowName n := fun hm => e (rowName_inj hm)
      simp only [this, if_false]
      congr 1
      rw [eq_iff_iff]
      omega
  · rw [show (withRow n w).itemRegistry.byId.get? id = _ from byId id, h.nextId, ref, handle]
    show (if id = ⟨n⟩ then _ else if w.itemRegistry.byHandle.get? (rowHandle n) = some id then none
      else w.itemRegistry.byId.get? id) = _
    rw [free, h.entries]
    by_cases e : id = ⟨n⟩
    · subst e
      simp
    · have : id.val ≠ n := fun hv => e (congrArg ItemId.mk hv)
      simp only [e, if_false, reduceCtorEq]
      congr 1
      rw [eq_iff_iff]
      omega
  · show (((w.toolkit.advance.adopt w.toolkit.freshHandle).apply _).apply _).deleteSlot _ = _
    rw [Toolkit.deleteSlot_made, handle]
    by_cases e : i = n
    · simp [e]
    · rw [if_neg (other i (by omega))]
      exact h.slots i (by omega)
  · have dying : (withRow n w).itemRegistry.dying = w.itemRegistry.dying := Registry.dying_bind _ _ _ _
    show (_, _, _, _, _, (withRow n w).itemRegistry.dying, _) = _
    rw [dying]
    exact h.unmoved

theorem rows_made (mode : DeleteMode) {n : Nat} (hn : n ≤ ItemId.bound) :
    ∃ w, attempt ((List.range n).flatMap makeRow) (opened mode) = .ok w ∧ Rows mode n w ∧
      w.toolkit.pending = [] ∧ w.answer = .none ∧ ∀ c, w.noted c = 0 := by
  induction n with
  | zero => exact ⟨opened mode, rfl, rows_opened mode, rfl, rfl, fun _ => rfl⟩
  | succ n ih =>
    obtain ⟨w, made, rows, idle, -, noted⟩ := ih (by omega)
    obtain ⟨one, rows'⟩ := row_made rows (by omega)
    refine ⟨withRow n w, ?_, rows', idle, rfl, noted⟩
    rw [List.range_succ, List.flatMap_append, attempt_append, made]
    show attempt ([n].flatMap makeRow) w = _
    rw [List.flatMap_singleton]
    exact one

/-! ## A selection -/

/-- The grid listens to selections. -/
structure Listens (w : World) : Prop where
  registered : w.toolkit.listeners ⟨Toolkit.firstHandle⟩ signalName = [.trampoline listener]
  sender : w.isSenderLive listener.sender = true
  there : w.isThere .items = true

/-- The item of the wrapper is marked as selected, if there is a wrapper and it has an item. -/
def marking (w : World) : Option Ref → World
  | some ref =>
    if w.handleOf ref = .null then w else { w with toolkit := w.toolkit.apply (.selectedSet (w.handleOf ref) true) }
  | none => w

theorem stage_marking {w w' : World} (h : w'.stage = w.stage) (item : Option Ref) :
    (marking w' item).stage = (marking w item).stage := by
  cases item with
  | none => exact h
  | some ref =>
    have handle : w'.handleOf ref = w.handleOf ref := congrArg (·.handleOf ref) h
    simp only [marking, handle]
    split
    · exact h
    · exact congrArg (fun v : World =>
        { v with toolkit := v.toolkit.apply (.selectedSet (w.handleOf ref) true) }.stage) h

theorem isNamed_marking (w : World) (item : Option Ref) (a : Ref) : (marking w item).isNamed a = w.isNamed a := by
  unfold marking
  split
  · split <;> rfl
  · rfl

/-- A selection of the wrapper, or of nothing that was found, has been heard. -/
structure Selected (item : Option Ref) (w w' : World) : Prop where
  stage : w'.stage = (marking w item).stage
  pending : w'.toolkit.pending = w.toolkit.pending
  selections : w'.noted isSelection = w.noted isSelection + item.toList.length
  deletions : w'.noted isDeletion = w.noted isDeletion

/-- Before and after, nothing else happened. -/
theorem Selected.between {w w₁ w₂ w' : World} {item : Option Ref} (hs : Selected item w₁ w₂)
    (before : w₁.stage = w.stage) (told : ∀ c, w₁.ledger c = w.ledger c)
    (after : w'.stage = w₂.stage) (told' : ∀ c, w'.ledger c = w₂.ledger c) :
    Selected item w w' := by
  simp only [World.ledger, Prod.mk.injEq] at told told'
  refine ⟨after.trans (hs.stage.trans (stage_marking before item)), ?_, ?_, ?_⟩
  · rw [(told' isSelection).1, hs.pending, (told isSelection).1]
  · rw [(told' isSelection).2.2, hs.selections, (told isSelection).2.2]
  · rw [(told' isDeletion).2.2, hs.deletions, (told isDeletion).2.2]

/-- What the handler does. -/
theorem yields_selected (w : World) (level : Nat) (sender : Sender) (handle : Handle) (item : Option Ref) :
    ∃ w', program.Yields ((selected sender handle item).map (⟨level, .act ·⟩)) w w' untold ∧
      Selected item w w' := by
  rcases item with _ | ref
  · exact ⟨w.log (.unknownSelected sender.name handle), .quiet trivial rfl, rfl, rfl, rfl, rfl⟩
  let w₁ := w.log (.rowSelected sender.name (w.idOf ref) handle (rowOf w ref))
  have first : program.Yields
      [⟨level, .act fun w => .note (.rowSelected sender.name (w.idOf ref) handle (rowOf w ref))⟩] w w₁ untold :=
    .quiet trivial rfl
  have noted : w₁.noted isSelection = w.noted isSelection + 1 := World.noted_log isSelection w (.rowSelected ..)
  by_cases hn : w.handleOf ref = .null
  · -- it has no item any more: the second step fails, and the third says so
    let w₂ := w₁.failing (.bind (.itemDeleted (w.idOf ref)))
    let w₃ := w₂.log (.rowNotMarked (w.idOf ref) (.itemDeleted (w.idOf ref)))
    have second : program.Yields [⟨level, .act fun _ => .setSelected ref true⟩] w₁ w₂ untold := by
      refine .quiet trivial ?_
      have hn' : w₁.handleOf ref = .null := hn
      simp only [Job.expand, World.perform, World.withHandle, World.liveHandle, hn', Handle.isNull,
        Handle.null, beq_self_eq_true, if_true]
      rfl
    refine ⟨w₃, first.before (second.before (.quiet trivial rfl)), ?_, rfl, noted, rfl⟩
    rw [marking, if_pos hn]
    rfl
  · let w₂ := (w₁.native (.selectedSet (w.handleOf ref) true)).answering .none
    have second : program.Yields [⟨level, .act fun _ => .setSelected ref true⟩] w₁ w₂ untold := by
      refine .quiet trivial ?_
      have hn' : (w₁.handleOf ref).isNull = false := (Handle.isNull_eq_false_iff _).mpr hn
      simp only [Job.expand, World.perform, World.withHandle, World.liveHandle, hn', Bool.false_eq_true, if_false]
      rfl
    refine ⟨w₂, first.before (second.before (.quiet trivial rfl)), ?_, ?_, ?_, ?_⟩
    · rw [marking, if_neg hn]
      exact World.stage_native w₁ _
    · exact congrArg (·.pending) (World.core_eq (w₁.core_native (.selectedSet (w.handleOf ref) true))).1
    · exact (World.noted_native _ w₁ _).trans noted
    · exact World.noted_native _ w₁ _

/-- The handler is called. -/
theorem yields_selection (w : World) (handler : String) (sender : Sender) (handle : Handle) (item : Option Ref) :
    ∃ w', program.Yields [⟨1, .enter (.itemSignal handler sender handle item)⟩] w w' untold ∧
      Selected item w w' := by
  obtain ⟨w', calls, hs⟩ := yields_selected (w.enter (.itemSignal handler sender handle item)) 0 sender handle item
  have call := Program.Yields.call (p := program) (c := .itemSignal handler sender handle item) (w := w) calls
  refine ⟨_, call.congr fun _ => rfl, hs.between ?_ (fun c => ?_) ?_ fun c => ?_⟩ <;> rfl

variable {h : Handle}

/-- The listener has the handler called with what the registry finds. -/
theorem yields_heard (hl : Listens w) (named : ∀ ref, w.lookupHandle .items h = some ref → w.isNamed ref = true) :
    ∃ w', program.Yields [⟨1, .signal (.trampoline listener) ⟨Toolkit.firstHandle⟩ ⟨h.raw⟩⟩] w w' untold ∧
      Selected (w.lookupHandle .items h) w w' := by
  have there : (w.pin (.sender listener.sender)).isThere .items = true := hl.there
  cases found : w.lookupHandle .items h with
  | none =>
    have found' : (w.pin (.sender listener.sender)).lookupHandle .items h = none := found
    have jobs : w.signal (.trampoline listener) ⟨Toolkit.firstHandle⟩ ⟨h.raw⟩ =
        (w.pin (.sender listener.sender),
          [.enter (.itemSignal "on selected" listener.sender h none), .unpin (.sender listener.sender)]) := by
      simp only [World.signal, hl.sender, there, if_true, show listener.parser = .item from rfl,
        EventInfo.toHandle, found']
      rfl
    obtain ⟨w', calls, hs⟩ := yields_selection (w.pin (.sender listener.sender)) "on selected"
      listener.sender h none
    refine ⟨w'.unpin (.sender listener.sender), .job trivial ?_, hs.between ?_ (fun c => ?_) ?_ fun c => ?_⟩
    · simp only [Job.expand, jobs]
      exact calls.before (.quiet trivial rfl)
    all_goals rfl
  | some ref =>
    have found' : (w.pin (.sender listener.sender)).lookupHandle .items h = some ref := found
    have jobs : w.signal (.trampoline listener) ⟨Toolkit.firstHandle⟩ ⟨h.raw⟩ =
        ((w.pin (.sender listener.sender)).pin (.wrapper ref),
          [.enter (.itemSignal "on selected" listener.sender h (some ref)), .unpin (.wrapper ref),
            .unpin (.sender listener.sender)]) := by
      simp only [World.signal, hl.sender, there, if_true, show listener.parser = .item from rfl,
        EventInfo.toHandle, found']
      rfl
    obtain ⟨w₁, calls, hs⟩ :=
      yields_selection ((w.pin (.sender listener.sender)).pin (.wrapper ref)) "on selected"
        listener.sender h (some ref)
    have named' : w₁.isNamed ref = true := by
      rw [← World.isNamed_stage, hs.stage, World.isNamed_stage, isNamed_marking]
      exact named ref found
    have unpinned : program.Yields [⟨1, .unpin (.wrapper ref)⟩] w₁ (w₁.unpin (.wrapper ref)) untold :=
      .quiet trivial rfl
    refine ⟨(w₁.unpin (.wrapper ref)).unpin (.sender listener.sender), .job trivial ?_,
      hs.between ?_ (fun c => ?_) ?_ fun c => ?_⟩
    · simp only [Job.expand, jobs]
      exact calls.before (unpinned.before (.quiet trivial rfl))
    · rfl
    · rfl
    · rw [World.stage_unpinSender, World.stage_unpin named']
    · rw [World.ledger_unpin, World.ledger_unpin]

/-- The toolkit says that an item with a handle has been selected. -/
theorem selection (hl : Listens w) (named : ∀ ref, w.lookupHandle .items h = some ref → w.isNamed ref = true) :
    ∃ w', program.perform (select h) w = w' ∧ Selected (w.lookupHandle .items h) w w' ∧ w'.answer = .count 1 := by
  have fired : Listens (w.log (.fired ⟨Toolkit.firstHandle⟩ signalName 1)) := ⟨hl.registered, hl.sender, hl.there⟩
  obtain ⟨w', signal, hs⟩ := yields_heard fired named
  have performed : program.Yields [⟨program.limit, .act (select h)⟩] w (w'.answering (.count 1)) untold := by
    refine .job trivial ?_
    simp only [Job.expand, select, World.perform, World.fire, hl.registered]
    exact signal.before (.quiet trivial rfl)
  refine ⟨w'.answering (.count 1), performed.perform_eq, hs.between ?_ (fun c => ?_) ?_ fun c => ?_, rfl⟩ <;> rfl

/-! ## Every row is selected -/

/-- The grid listens as long as its registration, its sender and the context are what they were. -/
theorem listens_of (registrations : w.toolkit.registrations = (opened mode).toolkit.registrations)
    (senders : w.senders = (opened mode).senders) (context : w.holdsContext = true) : Listens w := by
  refine ⟨?_, ?_, ?_⟩
  · rw [Toolkit.listeners, registrations]
    rfl
  · rw [World.isSenderLive, senders]
    rfl
  · show (w.holdsContext || _ || _) = true
    rw [context]
    rfl

theorem Rows.listens (hr : Rows mode n w) : Listens w := listens_of hr.registrations hr.senders hr.context

theorem ordered_stage (w : World) : w.stage.Ordered ↔ w.Ordered :=
  ⟨World.ordered_congr (fun space => by cases space <;> rfl) rfl rfl,
    World.ordered_congr (fun space => by cases space <;> rfl) rfl rfl⟩

theorem Rows.congr {w' : World} (hr : Rows mode n w) (hs : w'.stage = w.stage) : Rows mode n w' := by
  have staged : Rows mode n w'.stage := by
    rw [hs]
    exact { hr with ordered := (ordered_stage w).mpr hr.ordered }
  exact { staged with ordered := (ordered_stage w').mp staged.ordered }

theorem rows_marking (hr : Rows mode n w) (item : Option Ref) : Rows mode n (marking w item) := by
  rcases item with _ | ref
  · exact hr
  simp only [marking]
  split
  · exact hr
  · refine { hr with ordered := World.ordered_toolkit hr.ordered _, slots := fun i hi => ?_, unmoved := hr.unmoved }
    rw [← hr.slots i hi]
    show ((Table.modify _ _ _).get? _).bind _ = _
    rw [Table.get?_modify, Toolkit.deleteSlot]
    split
    · cases w.toolkit.items.get? (rowHandle i) <;> rfl
    · rfl

theorem isNamed_of_name {w : World} {name : String} {ref : Ref} (h : w.itemNames.get? name = some ref) :
    w.isNamed ref = true := by
  have hm : ref ∈ w.itemNames.values := List.mem_map_of_mem (f := (·.2)) ((Table.get?_eq_some_iff _ _ _).mp h)
  simp only [World.isNamed, List.contains_iff_mem.mpr hm, Bool.true_or]

/-- A row is an item that is bound to its object and that the program holds. -/
theorem Rows.kept (hr : Rows mode n w) (hn : n ≤ ItemId.bound) {i : Nat} (hi : i < n) : w.Kept ⟨i⟩ := by
  have small : i < UInt32.size := by
    have : ItemId.bound = UInt32.size - 1 := rfl
    omega
  have wrapper := hr.wrappers i hi
  have idOf : w.idOf ⟨i⟩ = ⟨i⟩ := World.idOf_eq wrapper
  refine ⟨⟨⟨_, wrapper, rfl⟩, ?_, ?_, ?_⟩, isNamed_of_name (hr.named hi)⟩
  · rw [hr.handleOf hi]
    exact rowHandle_ne_null small
  · rw [idOf, hr.entries, if_pos hi, hr.handleOf hi]
  · rw [hr.handleOf hi]
    exact hr.slots i hi

theorem lookupHandle_bound {w : World} {a : Handle} {id : ItemId} {ref : Ref}
    (mapped : w.itemRegistry.byHandle.get? a = some id)
    (entry : w.itemRegistry.byId.get? id = some ⟨ref, a⟩) (live : w.isLive ref = true) :
    w.lookupHandle .items a = some ref := by
  simp only [World.lookupHandle, World.registry, Registry.lookupHandle, mapped, Registry.lookupId, entry,
    live, if_true]

theorem rows_selected {is : List Nat} (hr : Rows mode n w) (hn : n ≤ ItemId.bound) (hi : ∀ i ∈ is, i < n) :
    ∃ w', attempt (is.map fun i => select (rowHandle i)) w = .ok w' ∧ Rows mode n w' ∧
      w'.toolkit.pending = w.toolkit.pending ∧
      w'.noted isSelection = w.noted isSelection + is.length ∧ w'.noted isDeletion = w.noted isDeletion := by
  induction is generalizing w with
  | nil => exact ⟨w, rfl, hr, rfl, rfl, rfl⟩
  | cons i is ih =>
    have lt : i < n := hi i (List.mem_cons_self ..)
    have hk := hr.kept hn lt
    have found : w.lookupHandle .items (rowHandle i) = some ⟨i⟩ := by
      have mapped := hk.mapped hr.ordered
      have entry := hk.entry
      rw [hr.handleOf lt] at mapped entry
      exact lookupHandle_bound mapped entry ((w.hasItem_iff _).mp hk.item).1
    obtain ⟨w₁, performed, selected, answer⟩ := selection (h := rowHandle i) hr.listens fun ref hf => by
      rw [found] at hf
      cases hf
      exact hk.named
    rw [found] at selected
    obtain ⟨w₂, rest, hr₂, pending, selections, deletions⟩ :=
      ih ((rows_marking hr (some ⟨i⟩)).congr selected.stage) fun a ha => hi a (List.mem_cons_of_mem _ ha)
    refine ⟨w₂, ?_, hr₂, pending.trans selected.pending, ?_, deletions.trans selected.deletions⟩
    · rw [List.map_cons, attempt_cons performed (by simp [answer])]
      exact rest
    · rw [selections, selected.selections, List.length_cons, Option.toList_some, List.length_singleton]
      omega

end Simulation

end HandleBridge
