/-
  HandleBridge.Proofs.Settings — what is to be seen of an item of the toolkit, and what sets it.

  All items of the toolkit are kept in one table. A call names the item that it is about, and sets one
  thing of that item at most (`NativeCall.setting?`); an operation makes a few calls, directly or
  through a wrapper (`Op.calls`). For each task it is said once what it sets of an item, from the
  world in which its turn comes (`Job.settings`).

  - `Toolkit.shown_apply`: a call does to each item what it sets of it.
  - `Toolkit.apply_unknown`: a call about an item that is not there is counted, and that is all.
  - `Program.altered`: a task does to each item that it leaves what it sets of it; what it makes shows
    what a new item shows.
  - `NativeItem.foldl_set`: an item shows of each thing what was last set.
-/
import HandleBridge.Proofs.Frame
import HandleBridge.Proofs.Replacing

namespace HandleBridge

/-! ## Settings -/

/-- What is set of an item. -/
inductive Setting where
  | enabled (v : Bool)
  | selected (v : Bool)
  | text (key : String) (text : String)
  | content (key : String) (content : Option Handle)
  | updated
  deriving DecidableEq, Repr

namespace Setting

def enabled? : Setting → Option Bool
  | enabled v => some v
  | _ => none

def selected? : Setting → Option Bool
  | selected v => some v
  | _ => none

def textAt? (key : String) : Setting → Option (Option String)
  | text k s => if k = key then some (some s) else none
  | _ => none

def contentAt? (key : String) : Setting → Option (Option Handle)
  | content k c => if k = key then some c else none
  | _ => none

end Setting

/-- What was last set of one thing, if anything was. -/
def lastSet {α : Type} (f : Setting → Option α) (ss : List Setting) : Option α := (ss.filterMap f).getLast?

theorem lastSet_cons {α : Type} (f : Setting → Option α) (s : Setting) (ss : List Setting) :
    lastSet f (s :: ss) = (lastSet f ss).or (f s) := by
  cases hs : f s with
  | none => simp [lastSet, hs]
  | some v => simp [lastSet, hs, List.getLast?_cons, Option.or_some]

namespace NativeItem

/-- What is to be seen of an item: all but its delete slot. -/
def shown (i : NativeItem) : NativeItem := { i with deleteSlot := none }

def set (i : NativeItem) : Setting → NativeItem
  | .enabled v => { i with disabled := !v }
  | .selected v => { i with selected := v }
  | .text key s => { i with texts := i.texts.insert key s }
  | .content key (some c) => { i with contents := i.contents.insert key c }
  | .content key none => { i with contents := i.contents.erase key }
  | .updated => { i with updates := i.updates + 1 }

theorem shown_set (i : NativeItem) (s : Setting) : (i.set s).shown = i.shown.set s := by
  rcases s with _ | _ | _ | ⟨_, _ | _⟩ | _ <;> rfl

/-- Of a thing that a setting changes only by setting it, an item shows what was last set. -/
theorem foldl_set {α : Type} {f : Setting → Option α} {g : NativeItem → α} (h : ∀ i s, g (i.set s) = (f s).getD (g i))
    (ss : List Setting) (i : NativeItem) : g (ss.foldl set i) = (lastSet f ss).getD (g i) := by
  induction ss generalizing i with
  | nil => rfl
  | cons s ss ih =>
    rw [List.foldl_cons, ih, h, lastSet_cons]
    cases lastSet f ss <;> rfl

theorem disabled_foldl (ss : List Setting) (i : NativeItem) :
    (!(ss.foldl set i).disabled) = (lastSet Setting.enabled? ss).getD (!i.disabled) := by
  refine foldl_set (g := fun i => !i.disabled) (fun i s => ?_) ss i
  rcases s with v | v | _ | ⟨_, _ | _⟩ | _ <;> simp [set, Setting.enabled?]

theorem selected_foldl (ss : List Setting) (i : NativeItem) :
    (ss.foldl set i).selected = (lastSet Setting.selected? ss).getD i.selected := by
  refine foldl_set (g := selected) (fun i s => ?_) ss i
  rcases s with _ | _ | _ | ⟨_, _ | _⟩ | _ <;> rfl

theorem texts_foldl (key : String) (ss : List Setting) (i : NativeItem) :
    (ss.foldl set i).texts.get? key = (lastSet (Setting.textAt? key) ss).getD (i.texts.get? key) := by
  refine foldl_set (g := fun i => i.texts.get? key) (fun i s => ?_) ss i
  cases s with
  | text k s =>
    simp only [set, Setting.textAt?, Table.get?_insert, eq_comm]
    split <;> rfl
  | content k c => cases c <;> rfl
  | _ => rfl

theorem contents_foldl (key : String) (ss : List Setting) (i : NativeItem) :
    (ss.foldl set i).contents.get? key = (lastSet (Setting.contentAt? key) ss).getD (i.contents.get? key) := by
  refine foldl_set (g := fun i => i.contents.get? key) (fun i s => ?_) ss i
  cases s with
  | content k c =>
    cases c <;> simp only [set, Setting.contentAt?, Table.get?_insert, Table.get?_erase, eq_comm] <;> split <;> rfl
  | _ => rfl

theorem updates_foldl (ss : List Setting) (i : NativeItem) :
    (ss.foldl set i).updates.toNat = (i.updates.toNat + ss.count .updated) % 2 ^ 32 := by
  induction ss generalizing i with
  | nil => exact (Nat.mod_eq_of_lt i.updates.toNat_lt).symm
  | cons s ss ih =>
    rw [List.foldl_cons, ih, List.count_cons]
    cases s with
    | updated =>
      simp only [set, UInt32.toNat_add, UInt32.toNat_one, beq_self_eq_true, if_true]
      omega
    | content k c => cases c <;> simp [set]
    | _ => simp [set]

end NativeItem

/-- Nothing is modified under a key that is not there. -/
theorem Table.modify_absent {κ ν : Type} [DecidableEq κ] {t : Table κ ν} {k : κ} (absent : t.contains k = false)
    (f : ν → ν) : t.modify k f = t := by
  have none : ∀ e ∈ t.entries, e.1 ≠ k := by
    rintro ⟨a, v⟩ hm rfl
    rw [contains, (t.get?_eq_some_iff a v).mpr hm] at absent
    cases absent
  have entries : (t.modify k f).entries = t.entries := by
    refine (List.map_congr_left fun e he => ?_).trans (List.map_id _)
    rw [if_neg (none e he), id]
  generalize t.modify k f = u at entries
  obtain ⟨es, nodup⟩ := u
  cases entries
  rfl

/-! ## Calls -/

namespace NativeCall

/-- The item that the call is about. -/
def item? : NativeCall → Option Handle
  | itemDel h | itemDelCbSet h _ | disabledGet h | disabledSet h _ | partTextSet h _ _ | partTextGet h _
  | partContentSet h _ _ | partContentUnset h _ | selectedGet h | selectedSet h _ | update h => some h
  | objectDel _ | callbackAdd .. | callbackDel .. => none

/-- What the call sets, and of which item. -/
def setting? : NativeCall → Option (Handle × Setting)
  | disabledSet h v => some (h, .enabled (!v))
  | selectedSet h v => some (h, .selected v)
  | partTextSet h part s => some (h, .text (partKey part) s)
  | partContentSet h part c => some (h, .content (partKey part) (some c))
  | partContentUnset h part => some (h, .content (partKey part) none)
  | update h => some (h, .updated)
  | _ => none

/-- What the call sets of the item `h`. -/
def settings (h : Handle) (c : NativeCall) : List Setting :=
  match c.setting? with
  | some (a, s) => if a = h then [s] else []
  | none => []

theorem item_of_setting {c : NativeCall} {h : Handle} {s : Setting} (hs : c.setting? = some (h, s)) : c.item? = some h := by
  cases c <;> cases hs <;> rfl

end NativeCall

/-- What calls set of the item `h`, in order. -/
def settingsOf (h : Handle) (cs : List NativeCall) : List Setting := cs.flatMap (·.settings h)

namespace Toolkit

variable (t : Toolkit) {h a : Handle} {i : NativeItem}

/-- What is to be seen of the item `h`, if there is one. -/
def shown (h : Handle) : Option NativeItem := (t.items.get? h).map (·.shown)

theorem contains_eq_shown (h : Handle) : t.items.contains h = (t.shown h).isSome := by
  simp [Table.contains, shown]

/-- What the toolkit says of an item is to be seen of it. -/
theorem getters_of_shown {t : Toolkit} (hs : t.shown h = some i) :
    t.disabled h = i.disabled ∧ t.selected h = i.selected ∧ t.updateCount h = i.updates.toNat ∧
      (∀ part, t.partText h part = i.texts.get? (partKey part)) ∧
      ∀ part, t.partContent h part = (i.contents.get? (partKey part)).getD .null := by
  obtain ⟨j, hj, rfl⟩ := Option.map_eq_some_iff.mp hs
  simp [disabled, selected, updateCount, partText, partContent, hj, NativeItem.shown]

/-- A call that sets something of an item sets that, and nothing else happens. -/
theorem effect_setting {c : NativeCall} {s : Setting} (hc : c.setting? = some (a, s)) :
    t.effect c = t.modifyItem a (·.set s) := by
  cases c <;> cases hc
  case disabledSet v => simp [effect, NativeItem.set]
  all_goals rfl

/-- A call that sets nothing leaves what is to be seen. -/
theorem shown_effect {c : NativeCall} (hc : c.setting? = none) (h : Handle) : (t.effect c).shown h = t.shown h := by
  cases c with
  | itemDelCbSet a cb =>
    simp only [shown, effect, modifyItem, Table.get?_modify]
    split
    · rw [Option.map_map]
      rfl
    · rfl
  | itemDel a =>
    simp only [shown, effect]
    split
    · rfl
    · split <;> rfl
  | objectDel o =>
    simp only [shown, effect]
    split <;> rfl
  | disabledSet | selectedSet | partTextSet | partContentSet | partContentUnset | update => cases hc
  | _ => rfl

/-- A call does to each item what it sets of it. -/
theorem shown_apply (c : NativeCall) (h : Handle) :
    (t.apply c).shown h = (t.shown h).map fun i => (c.settings h).foldl NativeItem.set i := by
  show (t.effect c).shown h = _
  rcases hc : c.setting? with _ | ⟨a, s⟩
  · simp [t.shown_effect hc, NativeCall.settings, hc]
  · rw [t.effect_setting hc]
    simp only [shown, modifyItem, Table.get?_modify, Option.map_map, NativeCall.settings, hc]
    by_cases ha : h = a
    · subst ha
      cases t.items.get? h <;> simp [NativeItem.shown_set]
    · simp [ha, Ne.symm ha, Function.comp_def]

theorem shown_foldl (cs : List NativeCall) (h : Handle) :
    (cs.foldl apply t).shown h = (t.shown h).map fun i => (settingsOf h cs).foldl NativeItem.set i := by
  induction cs generalizing t with
  | nil => simp [settingsOf]
  | cons c cs ih =>
    rw [List.foldl_cons, ih, shown_apply, Option.map_map]
    simp [settingsOf, List.flatMap_cons, Function.comp_def]

/-- A call about an item that is not there is counted, and that is all. -/
theorem apply_unknown {t : Toolkit} {c : NativeCall} (hc : c.item? = some h) (unknown : t.items.contains h = false) :
    t.apply c = { t with calls := t.calls + 1 } := by
  have nothing (f : NativeItem → NativeItem) :
      { t.modifyItem h f with calls := t.calls + 1 } = { t with calls := t.calls + 1 } := by
    rw [modifyItem, Table.modify_absent unknown]
  cases c with
  | itemDel a =>
    cases hc
    have none : ¬ (t.items.contains h = true ∧ h ∉ t.pending) := by simp [unknown]
    simp only [apply, effect, if_neg none]
    split <;> rfl
  | objectDel | callbackAdd | callbackDel => cases hc
  | disabledGet | partTextGet | selectedGet => rfl
  | itemDelCbSet | disabledSet | partTextSet | partContentSet | partContentUnset | selectedSet | update =>
    cases hc
    exact nothing _

end Toolkit

/-! ## What a task sets -/

/-- The calls that an operation makes through a wrapper, none when it has no handle. -/
def World.callsOn (w : World) (ref : Ref) (f : Handle → List NativeCall) : List NativeCall :=
  if (w.handleOf ref).isNull then [] else f (w.handleOf ref)

/-- The calls by which an operation asks for, or sets, what is to be seen of an item. -/
def Op.calls (w : World) : Op → List NativeCall
  | .native c => [c]
  | .setEnabled ref v => w.callsOn ref fun h => [.disabledSet h (!v)]
  | .isEnabled ref => w.callsOn ref fun h => [.disabledGet h]
  | .setText ref part s => w.callsOn ref fun h => [.partTextSet h part s]
  | .text ref part => w.callsOn ref fun h => [.partTextGet h part]
  | .setContent ref part content preserve => w.callsOn ref fun h => w.toolkit.replacing h part content preserve
  | .setSelected ref v => w.callsOn ref fun h => [.selectedSet h v]
  | .isSelected ref => w.callsOn ref fun h => [.selectedGet h]
  | .update ref => w.callsOn ref fun h => [.update h]
  | _ => []

/-- What an operation sets of the item `h`. -/
def Op.settings (w : World) (h : Handle) (op : Op) : List Setting := settingsOf h (op.calls w)

def Job.settings (w : World) (h : Handle) : Job → List Setting
  | .act choose => (choose w).settings w h
  | _ => []

/-! ## Changes that set nothing -/

namespace World

variable {w w' v : World} {j : Job}

theorem toolkit_endFlush (w : World) : w.endFlush.toolkit = w.toolkit := by
  unfold endFlush
  split <;> rfl

theorem toolkit_withHandle (w : World) (ref : Ref) (f : Handle → World) :
    (w.withHandle ref f).toolkit = if (w.handleOf ref).isNull then w.toolkit else (f (w.handleOf ref)).toolkit := by
  unfold withHandle liveHandle
  split
  · rename_i hl
    split at hl <;> cases hl
    rw [if_neg ‹_›]
  · rename_i hl
    split at hl <;> cases hl
    rw [if_pos ‹_›]
    rfl

/-- What is to be seen of the items that are there afterwards is what was to be seen of them. -/
def Untouched (w w' : World) : Prop := ∀ h, w'.toolkit.items.contains h = true → w'.toolkit.shown h = w.toolkit.shown h

namespace Untouched

theorem of_toolkit (h : w'.toolkit = w.toolkit) : w.Untouched w' := fun a _ => by rw [h]

theorem of_shown (h : ∀ a, w'.toolkit.shown a = w.toolkit.shown a) : w.Untouched w' := fun a _ => h a

theorem trans (h : w.Untouched v) (h' : v.Untouched w') : w.Untouched w' := fun a alive => by
  have before := h' a alive
  refine before.trans (h a ?_)
  rw [Toolkit.contains_eq_shown] at alive ⊢
  rwa [← before]

end Untouched

/-- Calls that set nothing leave what is to be seen. -/
theorem frame_shown : Frame (·.toolkit.shown) (·.setting? = none) fun _ => True where
  steady h := congrArg (fun s => s.1.shown) h
  native w c hc := by
    funext a
    rw [toolkit_native]
    exact w.toolkit.shown_effect hc a
  ids w space _ _ _ _ := congrArg Toolkit.shown (w.toolkit_setRegistry space _)

theorem Untouched.of_plain {op : Op} (ho : op.Plain (·.setting? = none) fun _ => True) : w.Untouched (w.perform op).1 :=
  .of_shown fun a => congrFun (frame_shown.perform w ho) a

/-- The destruction of an item leaves the others. -/
theorem untouched_destroy (w : World) (a : Handle) : w.Untouched (w.destroy a).1 := by
  cases hc : w.toolkit.items.contains a
  · rw [destroy_unknown hc]
    exact .of_toolkit rfl
  · rw [destroy_of_alive hc]
    intro h alive
    have other : a ≠ h := ((w.toolkit.contains_without a h).mp alive).2
    show (w.toolkit.without a).shown h = _
    simp only [Toolkit.shown, Toolkit.without, Table.get?_erase, if_neg (Ne.symm other)]

theorem untouched_carryOut (w : World) (a : Handle) : w.Untouched (w.carryOut a).1 := by
  unfold carryOut
  split
  · exact w.untouched_destroy a
  · exact .of_toolkit rfl

/-! ## What a task does to what is to be seen -/

/-- The items after the turn of a job: an item that was there shows what was set of it, and one that
    has been made shows what a new item shows. -/
structure Altered (w : World) (j : Job) (w' : World) : Prop where
  kept : ∀ h i, w.toolkit.shown h = some i → w'.toolkit.items.contains h = true →
    w'.toolkit.shown h = some ((j.settings w h).foldl NativeItem.set i)
  made : ∀ h, w.toolkit.items.contains h = false → w'.toolkit.items.contains h = true → w'.toolkit.shown h = some .fresh

/-- Nothing is set. -/
theorem Altered.of_untouched (h : w.Untouched w') (hs : ∀ a, j.settings w a = []) : w.Altered j w' := by
  refine ⟨fun a i hi alive => ?_, fun a unknown alive => ?_⟩
  · rw [h a alive, hi, hs]
    rfl
  · rw [Toolkit.contains_eq_shown] at unknown alive
    rw [h a (by rwa [Toolkit.contains_eq_shown]), unknown] at alive
    cases alive

/-- Calls are carried out. -/
theorem Altered.of_calls (cs : List NativeCall) (h : w'.toolkit = cs.foldl Toolkit.apply w.toolkit)
    (hs : ∀ a, j.settings w a = settingsOf a cs) : w.Altered j w' := by
  refine ⟨fun a i hi _ => ?_, fun a unknown alive => ?_⟩
  · rw [h, Toolkit.shown_foldl, hi, hs]
    rfl
  · rw [h, Toolkit.contains_foldl, unknown] at alive
    cases alive

/-- An item is made, unless it is one already. -/
theorem Altered.of_adopt {t : Toolkit} {a : Handle} (ht : t.items = w.toolkit.items) (h : w'.toolkit = t.adopt a)
    (hs : ∀ b, j.settings w b = []) : w.Altered j w' := by
  have shown (b : Handle) : w'.toolkit.shown b =
      if b = a ∧ w.toolkit.items.contains a = false then some .fresh else w.toolkit.shown b := by
    rw [h]
    simp only [Toolkit.shown, Toolkit.adopt, ht]
    cases hc : w.toolkit.items.contains a
    · by_cases hb : b = a <;> simp [hb, NativeItem.fresh, NativeItem.shown]
    · simp
  refine ⟨fun b i hi _ => ?_, fun b unknown alive => ?_⟩
  · have there : w.toolkit.items.contains b = true := by rw [Toolkit.contains_eq_shown, hi]; rfl
    have old : ¬ (b = a ∧ w.toolkit.items.contains a = false) := by
      rintro ⟨rfl, new⟩
      rw [there] at new
      cases new
    rw [shown, if_neg old, hi, hs]
    rfl
  · rw [Toolkit.contains_eq_shown, shown] at alive
    rw [shown]
    split
    · rfl
    · rename_i old
      rw [if_neg old, ← Toolkit.contains_eq_shown, unknown] at alive
      cases alive

theorem altered_perform (w : World) (op : Op) : w.Altered (.act fun _ => op) (w.perform op).1 := by
  have quiet (h : w.Untouched (w.perform op).1) (hs : op.calls w = []) : w.Altered (.act fun _ => op) (w.perform op).1 :=
    .of_untouched h fun a => by simp [Job.settings, Op.settings, hs, settingsOf]
  have through (ref : Ref) (c : Handle → NativeCall) (answer : Handle → Answer)
      (hs : op.calls w = w.callsOn ref fun h => [c h])
      (h : (w.perform op).1 = w.withHandle ref fun h => (w.native (c h)).answering (answer h)) :
      w.Altered (.act fun _ => op) (w.perform op).1 := by
    refine .of_calls (op.calls w) ?_ fun a => rfl
    rw [h, toolkit_withHandle, hs, callsOn]
    split
    · rfl
    · exact toolkit_native w _
  cases op with
  | createItem => exact .of_adopt (t := w.toolkit.advance) rfl rfl fun _ => rfl
  | adopt a => exact .of_adopt (t := w.toolkit) rfl rfl fun _ => rfl
  | createObject => exact quiet (.of_shown fun _ => rfl) rfl
  | destroy a => exact quiet (w.untouched_destroy a) rfl
  | flush => exact quiet (.of_shown fun _ => rfl) rfl
  | native c =>
    by_cases hc : ∃ a, c = .itemDel a
    · obtain ⟨a, rfl⟩ := hc
      have called : w.Untouched (w.callToolkit (.itemDel a)) :=
        .of_shown fun b => by
          rw [show (w.callToolkit (.itemDel a)).toolkit = _ from congrArg (·.1) (w.core_callToolkit (.itemDel a))]
          exact w.toolkit.shown_effect (c := .itemDel a) rfl b
      exact .of_untouched (called.trans (untouched_carryOut _ a)) fun _ => rfl
    · refine .of_calls [c] ?_ fun _ => rfl
      have done : (w.perform (.native c)).1 = (w.callToolkit c).answering (w.replyTo c) := by
        cases c with
        | itemDel a => exact absurd ⟨a, rfl⟩ hc
        | _ => rfl
      rw [done]
      exact congrArg (·.1) (w.core_callToolkit c)
  | setEnabled ref v => exact through ref (.disabledSet · (!v)) (fun _ => .none) rfl rfl
  | isEnabled ref => exact through ref .disabledGet (fun h => .flag (!w.toolkit.disabled h)) rfl rfl
  | setText ref part text => exact through ref (.partTextSet · part text) (fun _ => .none) rfl rfl
  | text ref part => exact through ref (.partTextGet · part) (fun h => .text (w.toolkit.partText h part)) rfl rfl
  | setSelected ref v => exact through ref (.selectedSet · v) (fun _ => .none) rfl rfl
  | isSelected ref => exact through ref .selectedGet (fun h => .flag (w.toolkit.selected h)) rfl rfl
  | update ref => exact through ref .update (fun _ => .none) rfl rfl
  | setContent ref part content preserve =>
    refine .of_calls ((Op.setContent ref part content preserve).calls w) ?_ fun _ => rfl
    by_cases hn : w.handleOf ref = .null
    · simp only [perform, setContent, toolkit_withHandle, Op.calls, callsOn, hn]
      rfl
    · have real : (w.handleOf ref).isNull = false := (Handle.isNull_eq_false_iff _).mpr hn
      simp only [Op.calls, callsOn, real, Bool.false_eq_true, if_false]
      exact (toolkit_setContent hn part content preserve).1
  | delete ref =>
    refine quiet ?_ rfl
    simp only [perform, delete]
    split
    · exact .of_toolkit rfl
    · have asked (u : World) : u.Untouched (u.native (.itemDel (w.handleOf ref))) :=
        .of_shown fun a => congrFun (frame_shown.native u rfl) a
      exact .trans (asked (((w.pin (.registry (w.spaceOf ref))).pin (.wrapper ref)).log
        (.deleteRequested (w.idOf ref) (w.handleOf ref)))) (untouched_carryOut _ _)
  | letGo space => exact quiet (.of_toolkit (by cases space <;> rfl)) rfl
  | _ => exact quiet (.of_plain (by simp [Op.Plain, NativeCall.setting?])) rfl

end World

theorem Job.altered (w : World) (j : Job) : w.Altered j (j.expand w).1 := by
  have quiet (h : w.Untouched (j.expand w).1) (hs : ∀ a, j.settings w a = []) : w.Altered j (j.expand w).1 :=
    .of_untouched h hs
  have books (hj : j.KeepsBooks) : (∀ a, j.settings w a = []) → w.Altered j (j.expand w).1 :=
    quiet (.of_toolkit (congrArg (·.1) (j.steady_expand w hj)))
  cases j with
  | act choose =>
    obtain ⟨kept, made⟩ := w.altered_perform (choose w)
    exact ⟨kept, made⟩
  | destroyQueued a =>
    have counted : w.Untouched (if w.toolkit.items.contains a then w.countFlushed else w) :=
      .of_toolkit (by split <;> simp)
    exact quiet (counted.trans (World.untouched_destroy _ a)) fun _ => rfl
  | endFlush => exact quiet (.of_toolkit w.toolkit_endFlush) fun _ => rfl
  | _ => exact books trivial fun _ => rfl

theorem Program.altered (p : Program) (t : Task) (w : World) : w.Altered t.job (p.expand t w).1 := by
  by_cases he : ∃ c, t.job = .enter c
  · obtain ⟨level, job⟩ := t
    obtain ⟨c, rfl⟩ := he
    cases level <;> exact .of_untouched (.of_toolkit rfl) fun _ => rfl
  · rw [p.expand_eq t w fun c h => he ⟨c, h⟩]
    exact t.job.altered w

end HandleBridge
