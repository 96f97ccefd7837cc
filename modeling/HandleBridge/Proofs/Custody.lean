/-
  HandleBridge.Proofs.Custody — what is there is held by somebody.

  A wrapper is freed when nothing holds it any more: none of the program's names, and no
  operation in progress. So every wrapper that is there is held (`Tended`). What an
  operation holds it has to let go of later: for each pin there is a job left to do that
  takes it away (`Custody`). When nothing is left to do, nothing is pinned and no report is
  under way, and every wrapper that is there has a name:
  - `Reach.at_rest`.
-/
import HandleBridge.Proofs.Delivery

namespace HandleBridge

namespace World

/-- Which wrappers are there, and what holds them. -/
def custody (w : World) : (Ref → Bool) × Table String Ref × Table String Ref × List Pin :=
  (w.isLive, w.itemNames, w.probeNames, w.pins)

/-- Every wrapper that is there is held, but for one. -/
def TendedBut (w : World) (but : Option Ref) : Prop :=
  ∀ ref, some ref ≠ but → w.isLive ref = true → w.isHeld ref = true

def Tended (w : World) : Prop := w.TendedBut none

/-- Pins stay as they are, and what is held stays held. -/
structure Careful (w w' : World) : Prop where
  pins : w'.pins = w.pins
  tended : w.Tended → w'.Tended

variable {w w' w'' : World}

theorem isHeld_iff (w : World) (ref : Ref) :
    w.isHeld ref = true ↔ (∃ name, w.itemNames.get? name = some ref) ∨ (∃ name, w.probeNames.get? name = some ref) ∨
      .wrapper ref ∈ w.pins := by
  have values (t : Table String Ref) : t.values.contains ref = true ↔ ∃ name, t.get? name = some ref := by
    simp only [Table.values, List.contains_iff_mem, List.mem_map, Table.get?_eq_some_iff]
    constructor
    · rintro ⟨e, he, rfl⟩
      exact ⟨e.1, he⟩
    · rintro ⟨name, h⟩
      exact ⟨_, h, rfl⟩
  simp only [isHeld, isNamed, Bool.or_eq_true, values, List.contains_iff_mem, or_assoc]

theorem isHeld_congr (hc : w'.custody = w.custody) (ref : Ref) : w'.isHeld ref = w.isHeld ref := by
  simp only [custody, Prod.mk.injEq] at hc
  obtain ⟨-, names, probes, pins⟩ := hc
  simp only [isHeld, isNamed, names, probes, pins]

theorem TendedBut.congr {but : Option Ref} (h : w.TendedBut but) (hc : w'.custody = w.custody) :
    w'.TendedBut but := by
  have live : w'.isLive = w.isLive := congrArg (·.1) hc
  intro ref hr hlive
  rw [isHeld_congr hc]
  exact h ref hr (live ▸ hlive)

theorem Tended.but (h : w.Tended) (but : Option Ref) : w.TendedBut but := fun ref _ hl => h ref (by simp) hl

namespace Careful

theorem refl (w : World) : w.Careful w := ⟨rfl, id⟩

theorem trans (h : w.Careful w') (h' : w'.Careful w'') : w.Careful w'' :=
  ⟨h'.pins.trans h.pins, h'.tended ∘ h.tended⟩

theorem of_custody (h : w'.custody = w.custody) : w.Careful w' :=
  ⟨congrArg (·.2.2.2) h, fun ht => TendedBut.congr ht h⟩

theorem answering (h : w.Careful w') (a : Answer) : w.Careful (w'.answering a) := h.trans (.of_custody rfl)

end Careful

/-! ## Changes that leave holders and held alone -/

theorem isLive_modify (w : World) (a : Ref) (f : Wrapper → Wrapper) : (w.modifyWrapper a f).isLive = w.isLive := by
  funext ref
  simp only [isLive, Table.contains, modifyWrapper, Table.get?_modify]
  split
  · exact Option.isSome_map
  · rfl

@[simp] theorem custody_modifyWrapper (w : World) (a : Ref) (f : Wrapper → Wrapper) :
    (w.modifyWrapper a f).custody = w.custody := by
  simp only [custody, isLive_modify]
  rfl

@[simp] theorem custody_setHandle (w : World) (a : Ref) (h : Handle) : (w.setHandle a h).custody = w.custody :=
  w.custody_modifyWrapper a _

@[simp] theorem custody_emit (w : World) (e : Event) : (w.emit e).custody = w.custody := rfl

@[simp] theorem custody_log (w : World) (r : Record) : (w.log r).custody = w.custody := rfl

@[simp] theorem custody_answering (w : World) (a : Answer) : (w.answering a).custody = w.custody := rfl

@[simp] theorem custody_failing (w : World) (f : Failure) : (w.failing f).custody = w.custody := rfl

@[simp] theorem custody_setRegistry (w : World) (space : Space) (r : Registry) :
    (w.setRegistry space r).custody = w.custody := by
  cases space <;> rfl

@[simp] theorem custody_callToolkit (w : World) (c : NativeCall) : (w.callToolkit c).custody = w.custody := by
  unfold callToolkit
  cases w.toolkit.complaint c <;> rfl

@[simp] theorem custody_native (w : World) (c : NativeCall) : (w.native c).custody = w.custody :=
  custody_callToolkit _ c

@[simp] theorem custody_forget (w : World) (space : Space) (id : ItemId) :
    (w.forget space id).custody = w.custody := by
  unfold forget
  split
  · simp
  · rfl

@[simp] theorem custody_register (w : World) (ref : Ref) (h : Handle) :
    (w.register ref h).1.custody = w.custody := by
  simp only [register]
  split
  · rfl
  · split
    · rfl
    · split <;> split <;> simp

@[simp] theorem custody_bind (w : World) (ref : Ref) (h : Handle) : (w.bind ref h).1.custody = w.custody := by
  rcases hr : (w.register ref h).2 with _ | e
  · rw [bind_accepted hr, custody_setHandle, custody_register]
  · rw [bind_refused hr, custody_register]

@[simp] theorem custody_ofResult (r : World × Option BindError) : (ofResult r).custody = r.1.custody := by
  rcases r with ⟨w', _ | e⟩ <;> rfl

@[simp] theorem custody_unregister (w : World) (b : Bridge) (ts : List Trampoline) :
    (w.unregister b ts).custody = w.custody := by
  induction ts generalizing w with
  | nil => rfl
  | cons t ts ih => exact (ih _).trans (w.custody_native _)

@[simp] theorem custody_closeBridge (w : World) (b : Bridge) : (w.closeBridge b).custody = w.custody := by
  unfold closeBridge
  split
  · rfl
  · simp

@[simp] theorem custody_addBridge (w : World) (name : String) (b : Bridge) :
    (w.addBridge name b).custody = w.custody := by
  simp only [addBridge]
  split
  · exact custody_closeBridge _ _
  · rfl

@[simp] theorem custody_dropBridge (w : World) (name : String) : (w.dropBridge name).custody = w.custody := by
  unfold dropBridge
  split
  · exact custody_closeBridge _ _
  · rfl

@[simp] theorem custody_subscribe (w : World) (name : String) (b : Bridge) (handler : String) :
    (w.subscribe name b handler).custody = w.custody := by
  simp only [subscribe]
  split
  · rfl
  · simp only [custody_answering, custody_log, custody_native]
    rfl

theorem custody_withHandle (w : World) (ref : Ref) (f : Handle → World) (h : ∀ a, (f a).custody = w.custody) :
    (w.withHandle ref f).custody = w.custody := by
  unfold withHandle
  split
  · exact h _
  · rfl

@[simp] theorem custody_setContent (w : World) (ref : Ref) (part : Part) (content : Handle) (preserve : Bool) :
    (w.setContent ref part content preserve).custody = w.custody := by
  refine w.custody_withHandle ref _ fun h => ?_
  simp only [custody_answering, custody_modifyWrapper, custody_native]
  split <;> simp

@[simp] theorem custody_destroy (w : World) (h : Handle) : (w.destroy h).1.custody = w.custody := by
  unfold destroy
  split <;> rfl

@[simp] theorem custody_carryOut (w : World) (h : Handle) : (w.carryOut h).1.custody = w.custody := by
  unfold carryOut
  split
  · exact w.custody_destroy h
  · rfl

@[simp] theorem custody_releaseHandle (w : World) (ref : Ref) : (w.releaseHandle ref).custody = w.custody := by
  simp only [releaseHandle]
  split <;> simp

theorem custody_countFlushed (w : World) : w.countFlushed.custody = w.custody := by
  unfold countFlushed
  split <;> rfl

theorem custody_endFlush (w : World) : w.endFlush.custody = w.custody := by
  unfold endFlush
  split <;> rfl

/-! ## Taking and letting go -/

@[simp] theorem pins_release (w : World) (ref : Ref) : (w.release ref).pins = w.pins := by
  unfold release
  split
  · rfl
  · split
    · rfl
    · split
      · exact congrArg (·.2.2.2) (custody_forget _ _ _)
      · rfl

/-- A wrapper that nothing holds is freed. -/
theorem tended_release {ref : Ref} (h : w.TendedBut (some ref)) : (w.release ref).Tended := by
  intro a _ hl
  cases hh : w.isHeld ref
  · have erased {x : Wrapper} (hx : w.wrappers.get? ref = some x) :
        (w.release ref).custody = { w with wrappers := w.wrappers.erase ref }.custody := by
      cases hs : x.space
      · rw [release_item hx hh hs, custody_forget]
      · rw [release_probe hx hh hs]
    have left : { w with wrappers := w.wrappers.erase ref }.Tended := by
      intro a _ hl
      have hne : a ≠ ref := by
        rintro rfl
        simp [isLive, Table.contains] at hl
      exact h a (by simpa using hne) (by simpa [isLive, Table.contains, hne] using hl)
    rcases hx : w.wrappers.get? ref with _ | x
    · rw [release_of_gone hx] at hl ⊢
      refine h a ?_ hl
      rintro e
      cases e
      simp [isLive, Table.contains, hx] at hl
    · exact (left.congr (erased hx)) a (by simp) hl
  · rw [release_of_held hh] at hl ⊢
    by_cases e : a = ref
    · exact e ▸ hh
    · exact h a (by simpa using e) hl

theorem tended_unpin (h : w.Tended) (p : Pin) : (w.unpin p).Tended := by
  have other {a : Ref} (hne : .wrapper a ≠ p) (hl : w.isLive a = true) :
      { w with pins := w.pins.erase p }.isHeld a = true := by
    have := h a (by simp) hl
    rw [isHeld_iff] at this ⊢
    exact this.imp id (Or.imp id fun hm => (List.mem_erase_of_ne hne).mpr hm)
  cases p with
  | wrapper ref => exact tended_release fun a hne hl => other (fun e => hne (by cases e; rfl)) hl
  | registry space => exact fun a _ hl => other (by simp) hl
  | sender s => exact fun a _ hl => other (by simp) hl

/-- A name that is given or dropped takes its hold from nothing but what it stood for. -/
theorem named_insert {t : Table String Ref} {name : String} {a : Ref} (h : ∃ n, t.get? n = some a)
    (hn : t.get? name ≠ some a) (ref : Ref) : ∃ n, (t.insert name ref).get? n = some a := by
  obtain ⟨n, hm⟩ := h
  have : n ≠ name := fun en => hn (en ▸ hm)
  exact ⟨n, by simpa [this] using hm⟩

theorem named_erase {t : Table String Ref} {name : String} {a : Ref} (h : ∃ n, t.get? n = some a)
    (hn : t.get? name ≠ some a) :
    ∃ n, (t.erase name).get? n = some a := by
  obtain ⟨n, hm⟩ := h
  have : n ≠ name := fun en => hn (en ▸ hm)
  exact ⟨n, by simpa [this] using hm⟩

theorem pins_nameItem (w : World) (name : String) (ref : Ref) : (w.nameItem name ref).pins = w.pins := by
  simp only [nameItem]
  split
  · exact pins_release _ _
  · rfl

theorem pins_nameProbe (w : World) (name : String) (ref : Ref) : (w.nameProbe name ref).pins = w.pins := by
  simp only [nameProbe]
  split
  · exact pins_release _ _
  · rfl

theorem tended_nameItem {ref : Ref} (h : w.TendedBut (some ref)) (name : String) :
    (w.nameItem name ref).Tended := by
  have named : { w with itemNames := w.itemNames.insert name ref }.TendedBut (w.itemNames.get? name) := by
    intro a ha hl
    rw [isHeld_iff]
    by_cases e : a = ref
    · exact Or.inl ⟨name, by simp [e]⟩
    · exact ((w.isHeld_iff a).mp (h a (by simpa using e) hl)).imp (fun hn => named_insert hn ha.symm ref) id
  simp only [nameItem]
  generalize w.itemNames.get? name = old at named ⊢
  cases old with
  | none => exact named
  | some old => exact tended_release named

theorem tended_nameProbe {ref : Ref} (h : w.TendedBut (some ref)) (name : String) :
    (w.nameProbe name ref).Tended := by
  have named : { w with probeNames := w.probeNames.insert name ref }.TendedBut (w.probeNames.get? name) := by
    intro a ha hl
    rw [isHeld_iff]
    by_cases e : a = ref
    · exact Or.inr (Or.inl ⟨name, by simp [e]⟩)
    · exact ((w.isHeld_iff a).mp (h a (by simpa using e) hl)).imp id
        (Or.imp (fun hn => named_insert hn ha.symm ref) id)
  simp only [nameProbe]
  generalize w.probeNames.get? name = old at named ⊢
  cases old with
  | none => exact named
  | some old => exact tended_release named

theorem careful_dropItemName (w : World) (name : String) : w.Careful (w.dropItemName name) := by
  unfold dropItemName
  cases hold : w.itemNames.get? name with
  | none => exact .refl w
  | some old =>
    refine ⟨pins_release _ _, fun h => tended_release fun a ha hl => ?_⟩
    rw [isHeld_iff]
    exact ((w.isHeld_iff a).mp (h a (by simp) hl)).imp (fun hn => named_erase hn (hold ▸ ha.symm)) id

theorem careful_dropProbeName (w : World) (name : String) : w.Careful (w.dropProbeName name) := by
  unfold dropProbeName
  cases hold : w.probeNames.get? name with
  | none => exact .refl w
  | some old =>
    refine ⟨pins_release _ _, fun h => tended_release fun a ha hl => ?_⟩
    rw [isHeld_iff]
    exact ((w.isHeld_iff a).mp (h a (by simp) hl)).imp id (Or.imp (fun hn => named_erase hn (hold ▸ ha.symm)) id)

/-! ## Wrappers that are new -/

theorem tended_addWrapper (h : w.Tended) (x : Wrapper) : (w.addWrapper x).TendedBut (some w.freshRef) := by
  intro a ha hl
  have hne : a ≠ w.freshRef := fun e => ha (e ▸ rfl)
  exact h a (by simp) (by simpa [isLive, Table.contains, addWrapper, hne] using hl)

theorem careful_withFreshId (w : World) (space : Space) (f : World → ItemId → World)
    (h : ∀ (v : World) id, v.Careful (f v id)) : w.Careful (w.withFreshId space f) := by
  unfold withFreshId
  split
  · exact (Careful.of_custody (w.custody_setRegistry space _)).trans (h _ _)
  · exact .of_custody rfl

theorem careful_newItem (w : World) (name : String) : w.Careful (w.newItem name) := by
  refine w.careful_withFreshId .items _ fun w' id => ⟨?_, fun h => ?_⟩
  · exact pins_nameItem _ _ _
  · exact (tended_nameItem (tended_addWrapper h _) name).congr rfl

theorem careful_newProbe (w : World) (name : String) (bare : Bool) (id : Option ItemId) :
    w.Careful (w.newProbe name bare id) := by
  have added (w : World) (id : ItemId) :
      w.Careful (((w.addWrapper (.fresh id (.probe name bare))).nameProbe name w.freshRef).answering (.id id)) :=
    ⟨pins_nameProbe _ _ _, fun h => (tended_nameProbe (tended_addWrapper h _) name).congr rfl⟩
  unfold newProbe
  cases id with
  | some id => exact added w id
  | none => exact w.careful_withFreshId .bare _ added

theorem careful_newGrid (w : World) (h : Handle) (data : RowData) (name : Option String) :
    w.Careful (w.newGrid h data name) := by
  refine w.careful_withFreshId .items _ fun w' id => ?_
  have hc := (w'.addWrapper (.fresh id (.grid (some data)))).custody_bind w'.freshRef h
  have bound (ht : w'.Tended) := (tended_addWrapper ht (.fresh id (.grid (some data)))).congr hc
  have pins : ((w'.addWrapper (.fresh id (.grid (some data)))).bind w'.freshRef h).1.pins = w'.pins :=
    congrArg (·.2.2.2) hc
  simp only
  rcases hb : (w'.addWrapper (.fresh id (.grid (some data)))).bind w'.freshRef h with ⟨w'', _ | e⟩
  · rw [hb] at bound pins
    cases name with
    | some name => exact ⟨(pins_nameItem _ _ _).trans pins, fun ht => (tended_nameItem (bound ht) name).congr rfl⟩
    | none => exact ⟨(pins_release _ _).trans pins, fun ht => (tended_release (bound ht)).congr rfl⟩
  · rw [hb] at bound pins
    exact ⟨(pins_release _ _).trans pins, fun ht => (tended_release (bound ht)).congr rfl⟩

end World

/-! ## What is owed -/

/-- The pin that a job will take away. -/
def Job.owes : Job → Option Pin
  | .unpin p => some p
  | .settle _ _ _ (some ref) => some (.wrapper ref)
  | _ => none

def owed (js : List Job) : List Pin := js.filterMap Job.owes

theorem owed_append (js ks : List Job) : owed (js ++ ks) = owed js ++ owed ks := List.filterMap_append

/-- The operation makes wrappers or lets go of some, or holds something until later. -/
def Op.MovesHolds : Op → Prop
  | .newGrid .. | .newItem _ | .nameItem .. | .dropItem _ | .newProbe .. | .dropProbe _ | .nextId _ | .delete _
  | .nativeDelete .. => True
  | _ => False

namespace World

/-- What is pinned, the jobs will take away. -/
structure Repaid (w : World) (r : World × List Job) : Prop where
  pins : ∀ p, r.1.pins.count p ≤ w.pins.count p + (owed r.2).count p
  tended : w.Tended → r.1.Tended

variable {w w' : World}

theorem Careful.repaid (h : w.Careful w') (js : List Job) : w.Repaid (w', js) :=
  ⟨fun p => by rw [h.pins]; exact Nat.le_add_right _ _, h.tended⟩

/-- What is held by more is still held. -/
theorem Tended.pin (h : w.Tended) (p : Pin) : (w.pin p).Tended := by
  intro ref hr hl
  have := h ref hr hl
  rw [isHeld_iff] at this ⊢
  exact this.imp id (Or.imp id (List.mem_cons_of_mem p))

/-- After some pins are taken. -/
theorem repaid_of_pins {js : List Job} {q : List Pin} (hp : w'.pins = q ++ w.pins) (ht : w.Tended → w'.Tended)
    (ho : ∀ p, q.count p ≤ (owed js).count p) : w.Repaid (w', js) := by
  refine ⟨fun p => ?_, ht⟩
  show w'.pins.count p ≤ w.pins.count p + (owed js).count p
  rw [hp, List.count_append, Nat.add_comm]
  exact Nat.add_le_add_left (ho p) _

theorem repaid_delete (w : World) (ref : Ref) : w.Repaid (w.delete ref) := by
  simp only [delete]
  split
  · exact (Careful.of_custody (w.custody_failing _)).repaid []
  · let held := (w.pin (.registry (w.spaceOf ref))).pin (.wrapper ref)
    let asked := (held.log (.deleteRequested (w.idOf ref) (w.handleOf ref))).native (.itemDel (w.handleOf ref))
    have hc : (asked.carryOut (w.handleOf ref)).1.custody = held.custody := by
      simp only [asked, custody_carryOut, custody_native, custody_log]
    have hp : (asked.carryOut (w.handleOf ref)).1.pins = [.wrapper ref, .registry (w.spaceOf ref)] ++ w.pins :=
      congrArg (·.2.2.2) hc
    refine repaid_of_pins hp (fun ht => ((ht.pin _).pin _).congr hc) fun p => ?_
    rw [owed_append, List.count_append]
    exact Nat.le_add_left _ _

theorem custody_perform (w : World) {op : Op} (ho : ¬ op.MovesHolds) : (w.perform op).1.custody = w.custody := by
  cases op with
  | destroy h => exact w.custody_destroy h
  | native c =>
    cases c with
    | itemDel h => exact (custody_carryOut _ h).trans (w.custody_callToolkit _)
    | _ => exact (custody_answering _ _).trans (w.custody_callToolkit _)
  | setEnabled ref v => exact w.custody_withHandle ref _ fun _ => w.custody_native _
  | isEnabled ref => exact w.custody_withHandle ref _ fun _ => w.custody_native _
  | setText ref part text => exact w.custody_withHandle ref _ fun _ => w.custody_native _
  | text ref part => exact w.custody_withHandle ref _ fun _ => w.custody_native _
  | setContent ref part content preserve => exact w.custody_setContent ref part content preserve
  | setSelected ref v => exact w.custody_withHandle ref _ fun _ => w.custody_native _
  | isSelected ref => exact w.custody_withHandle ref _ fun _ => w.custody_native _
  | update ref => exact w.custody_withHandle ref _ fun _ => w.custody_native _
  | onDeleted ref handler => exact w.custody_modifyWrapper ref _
  | removeDeleted ref handler => exact w.custody_modifyWrapper ref _
  | bind ref h => exact (custody_ofResult _).trans (w.custody_bind ref h)
  | forget space id => exact w.custody_forget space id
  | letGo space => cases space <;> rfl
  | register ref h => exact (custody_ofResult _).trans (w.custody_register ref h)
  | setHandle ref h => exact w.custody_setHandle ref h
  | newBridge name b => exact w.custody_addBridge name b
  | dropBridge name => exact w.custody_dropBridge name
  | subscribe name b handler => exact w.custody_subscribe name b handler
  | unsubscribe name b handler => exact custody_unregister _ b _
  | shutdown name b => exact custody_closeBridge _ b
  | newGrid | newItem | nameItem | dropItem | newProbe | dropProbe | nextId | delete | nativeDelete =>
    exact absurd trivial ho
  | _ => rfl

theorem repaid_perform (w : World) (op : Op) : w.Repaid (w.perform op) := by
  by_cases ho : op.MovesHolds
  · cases op with
    | newGrid h data name => exact (w.careful_newGrid h data name).repaid []
    | newItem name => exact (w.careful_newItem name).repaid []
    | nameItem name ref =>
      have named : w.Careful (w.nameItem name ref) :=
        ⟨pins_nameItem w name ref, fun h => tended_nameItem (h.but (some ref)) name⟩
      exact (named.answering .none).repaid []
    | dropItem name => exact ((w.careful_dropItemName name).answering .none).repaid []
    | newProbe name bare id => exact (w.careful_newProbe name bare id).repaid []
    | dropProbe name => exact ((w.careful_dropProbeName name).answering .none).repaid []
    | nextId space => exact (w.careful_withFreshId space _ fun v id => (Careful.refl v).answering (.id id)).repaid []
    | delete ref => exact w.repaid_delete ref
    | nativeDelete space h => exact repaid_of_pins (q := [.registry space]) rfl (·.pin _) fun p => Nat.le_refl _
    | _ => exact ho.elim
  · exact (Careful.of_custody (w.custody_perform ho)).repaid _

theorem pins_unpin (w : World) (p : Pin) : (w.unpin p).pins = w.pins.erase p := by
  cases p with
  | wrapper ref => exact pins_release _ _
  | _ => rfl

/-- The end of a report does nothing to what is held but to let go of the wrapper. -/
theorem custody_reportEnd (w : World) (space : Space) (h : Handle) (id : ItemId) (wrapper : Option Ref) :
    (w.reportEnd space h id wrapper).custody = w.custody := by
  let mid := w.setRegistry space ((w.registry space).endDying h id)
  have hm : mid.custody = w.custody := w.custody_setRegistry space _
  simp only [reportEnd]
  split
  · exact hm
  · split
    · rename_i ref
      split
      · exact (custody_releaseHandle mid ref).trans hm
      · exact hm
    · exact hm

theorem repaid_slot (w : World) (cb : DeleteCallback) (h : Handle) : w.Repaid (w.runSlot cb h) := by
  unfold runSlot
  split
  · exact (Careful.refl w).repaid _
  · split
    · exact repaid_of_pins (q := [.registry _]) rfl (·.pin _) fun p => Nat.le_refl _
    · exact (Careful.refl w).repaid []

theorem repaid_nativeDelete (w : World) (space : Space) (h : Handle) : w.Repaid (w.nativeDelete space h) := by
  simp only [nativeDelete]
  split
  · exact (Careful.of_custody (w.custody_log _)).repaid []
  · split
    · exact (Careful.of_custody (w.custody_log _)).repaid []
    · rename_i id _
      have hc :
          ((w.setRegistry space ((w.registry space).startDying h)).log (.nativeDelete id h)).custody = w.custody :=
        w.custody_setRegistry space _
      split
      · exact (Careful.of_custody hc).repaid _
      · rename_i ref _
        have hp : ((w.setRegistry space ((w.registry space).startDying h)).log (.nativeDelete id h)).pins = w.pins :=
          congrArg (·.2.2.2) hc
        refine repaid_of_pins (q := [.wrapper ref]) (congrArg (Pin.wrapper ref :: ·) hp)
          (fun ht => Tended.pin (ht.congr hc) _) fun p => ?_
        rw [owed_append, List.count_append]
        exact Nat.le_add_left _ _

theorem custody_invalidate (w : World) (ref : Ref) : (w.invalidate ref).1.custody = w.custody := by
  unfold invalidate
  split
  · rfl
  · split
    · exact w.custody_modifyWrapper ref _
    · exact custody_modifyWrapper _ ref _
    · rfl

theorem careful_invalidate (w : World) (ref : Ref) : w.Careful (w.invalidate ref).1 :=
  .of_custody (w.custody_invalidate ref)

theorem repaid_signal (w : World) (cb : SignalCallback) (object : Handle) (info : EventInfo) :
    w.Repaid (w.signal cb object info) := by
  unfold signal
  split
  · exact (Careful.refl w).repaid _
  · rename_i t
    split
    · split
      · exact repaid_of_pins (q := [.sender t.sender]) rfl (·.pin _) fun p => Nat.le_refl _
      · exact repaid_of_pins (q := [.sender t.sender]) rfl
          (fun ht => (ht.pin (.sender t.sender)).congr rfl) fun p => Nat.le_refl _
      · simp only
        split
        · rename_i ref _
          exact repaid_of_pins (q := [.wrapper ref, .sender t.sender]) rfl (fun ht => (ht.pin _).pin _)
            fun p => Nat.le_refl _
        · exact repaid_of_pins (q := [.sender t.sender]) rfl (·.pin _) fun p => Nat.le_refl _
    · exact (Careful.of_custody (w.custody_log _)).repaid []

end World

/-! ## Runs -/

/-- Every wrapper that is there is held, and for each pin a job is left to do that takes it
    away. -/
structure State.Custody (c : State) : Prop where
  pins : ∀ p, c.world.pins.count p ≤ (owed (jobs c.tasks)).count p
  tended : c.world.Tended

/-- A task that takes no pin away leaves what it pins to its jobs. -/
theorem custody_repaid {w w' : World} {j : Job} {js js' : List Job} (hj : j.owes = none) (hr : w.Repaid (w', js'))
    (hp : ∀ p, w.pins.count p ≤ (owed (j :: js)).count p) (p : Pin) :
    w'.pins.count p ≤ (owed (js' ++ js)).count p := by
  have before := hp p
  have after := hr.pins p
  rw [owed, List.filterMap_cons_none hj] at before
  rw [owed_append, List.count_append]
  simp only [owed] at before after ⊢
  omega

theorem custody_unpin {w : World} {p : Pin} {js : List Job} {j : Job} (hj : j.owes = some p)
    (hp : ∀ a, w.pins.count a ≤ (owed (j :: js)).count a) (a : Pin) :
    (w.unpin p).pins.count a ≤ (owed js).count a := by
  have before := hp a
  rw [owed, List.filterMap_cons_some hj, List.count_cons] at before
  rw [World.pins_unpin, List.count_erase]
  simp only [owed]
  split at before <;> simp_all

theorem custody_turn {k : Conduct} {c c' : State} (hc : c.Custody) (hs : Turn k c c') : c'.Custody := by
  obtain ⟨p, w, t, ts, ok⟩ := hs
  obtain ⟨hp, ht⟩ := hc
  have repaid (hj : t.job.owes = none) (hr : w.Repaid ((p.expand t w).1, jobs (p.expand t w).2)) :
      State.Custody ⟨(p.expand t w).1, (p.expand t w).2 ++ ts⟩ :=
    ⟨fun a => by rw [jobs_append]; exact custody_repaid hj hr hp a, hr.tended ht⟩
  by_cases he : ∃ c, t.job = .enter c
  · obtain ⟨level, job⟩ := t
    obtain ⟨c, rfl⟩ := he
    refine repaid rfl ((World.Careful.of_custody ?_).repaid _)
    cases level <;> rfl
  · rw [jobs_expand p t w fun c h => he ⟨c, h⟩, p.expand_eq t w fun c h => he ⟨c, h⟩] at repaid
    rw [p.expand_eq t w fun c h => he ⟨c, h⟩]
    obtain ⟨level, job⟩ := t
    have same {w' : World} {js : List Job} (h : w'.custody = w.custody) : w.Repaid (w', js) :=
      (World.Careful.of_custody h).repaid js
    -- what a pin is taken away by has no jobs
    have unpinned {a : Pin} {u : World} (hj : job.owes = some a) (hu : u.custody = w.custody) :
        State.Custody ⟨u.unpin a, ts⟩ := by
      have hp' : ∀ b, u.pins.count b ≤ (owed (job :: jobs ts)).count b := by
        rw [show u.pins = w.pins from congrArg (·.2.2.2) hu]
        exact hp
      exact ⟨custody_unpin hj hp', World.tended_unpin (ht.congr hu) a⟩
    cases job with
    | act choose => exact repaid rfl (w.repaid_perform (choose w))
    | enter c => exact absurd ⟨c, rfl⟩ he
    | slot cb h => exact repaid rfl (w.repaid_slot cb h)
    | nativeDelete space h => exact repaid rfl (w.repaid_nativeDelete space h)
    | invalidate ref => exact repaid rfl ((w.careful_invalidate ref).repaid _)
    | settle space h id wrapper =>
      have hu := w.custody_reportEnd space h id wrapper
      cases wrapper with
      | none => exact repaid rfl (same hu)
      | some ref => exact unpinned rfl hu
    | signal cb object info => exact repaid rfl (w.repaid_signal cb object info)
    | destroyQueued h =>
      refine repaid rfl (same ((World.custody_destroy _ h).trans ?_))
      split
      · exact w.custody_countFlushed
      · rfl
    | endFlush => exact repaid rfl (same w.custody_endFlush)
    | releaseHandle ref => exact repaid rfl (same (w.custody_releaseHandle ref))
    | unpin a => exact unpinned rfl rfl
    | leave | answer => exact repaid rfl (same rfl)

theorem Reach.custody {k : Conduct} {c : State} (h : Reach k c) : c.Custody := by
  refine h.invariant (I := State.Custody) (fun mode => ⟨fun p => Nat.le_refl _, fun ref _ hl => ?_⟩)
    (fun w level choose hc => ?_) fun _ _ hc hs => custody_turn hc hs
  · simp [World.start, World.isLive, Table.contains] at hl
  · exact ⟨hc.pins, hc.tended⟩

/-- When nothing is left to do, the program holds by a name every wrapper that is there, and
    no report is under way. -/
theorem Reach.at_rest {k : Conduct} {w : World} (h : Reach k ⟨w, []⟩) :
    w.pins = [] ∧ (∀ space, (w.registry space).dying = []) ∧ ∀ ref, w.isLive ref = true → w.isNamed ref = true := by
  obtain ⟨hp, ht⟩ := h.custody
  have none : w.pins = [] := List.eq_nil_iff_forall_not_mem.mpr fun p hm => by
    have := hp p
    have := List.count_pos_iff.mpr hm
    simp only [jobs, owed, List.map_nil, List.filterMap_nil, List.count_nil] at *
    omega
  refine ⟨none, fun space => (marked_exactly h space).1, fun ref hl => ?_⟩
  have := ht ref (by simp) hl
  simpa [World.isHeld, none] using this

end HandleBridge
