/-
  HandleBridge.Proofs.Trampolines — which trampoline was made by whom, and where it is.

  A subscription takes the next serial number and makes a trampoline that carries it
  (`State.made`). The trampoline stands in two lists from then on: in the bridge's own,
  and among the toolkit's registrations (`enlisted`). Later operations take it out of
  either list, or, when the object is destroyed, out of the toolkit's alone.
  - `Course.numbered`: serial numbers in both lists go up, and lie below the next one, so a
    trampoline stands in a list once and the step that made it is known.
  - `Course.came_from`: a registered trampoline was made by an earlier subscription, for
    that bridge's object, event, sender and parser.
  - `Remade`: what stands under a bridge's name after a step, one constructor for each
    operation that changes it.
-/
import HandleBridge.Proofs.Chronicle

namespace HandleBridge

/-! ## Registrations of trampolines -/

def SignalCallback.trampoline? : SignalCallback → Option Trampoline
  | .trampoline t => some t
  | .program _ => none

theorem SignalCallback.trampoline_of {cb : SignalCallback} {t : Trampoline} (h : cb.trampoline? = some t) :
    cb = .trampoline t := by
  cases cb with
  | trampoline t' => exact congrArg _ (Option.some.inj h)
  | program name => cases h

/-- Whether the registration is one of these trampolines'. -/
def Registration.isOf (ts : List Trampoline) (r : Registration) : Bool := r.callback.trampoline?.any (decide <| · ∈ ts)

theorem Registration.isOf_iff {ts : List Trampoline} {r : Registration} :
    r.isOf ts = true ↔ ∃ t ∈ ts, r.callback = .trampoline t := by
  unfold isOf
  cases h : r.callback with
  | trampoline t => simp [SignalCallback.trampoline?]
  | program name => simp [SignalCallback.trampoline?]

/-- The registered trampolines, in order. -/
def enlisted (rs : List Registration) : List Trampoline := rs.filterMap (·.callback.trampoline?)

theorem mem_enlisted {rs : List Registration} {t : Trampoline} :
    t ∈ enlisted rs ↔ ∃ r ∈ rs, r.callback = .trampoline t := by
  simp only [enlisted, List.mem_filterMap]
  constructor
  · rintro ⟨r, hr, h⟩
    exact ⟨r, hr, SignalCallback.trampoline_of h⟩
  · rintro ⟨r, hr, h⟩
    exact ⟨r, hr, by rw [h]; rfl⟩

theorem enlisted_sublist {rs rs' : List Registration} (h : rs.Sublist rs') : (enlisted rs).Sublist (enlisted rs') :=
  h.filterMap _

/-- The trampolines that deeds add. -/
def recruits (ds : List Deed) : List Trampoline :=
  ds.filterMap fun d => match d with
    | .added r => r.callback.trampoline?
    | _ => none

/-- What is registered afterwards was registered before or has been added. -/
theorem mem_of_onRegistrations {rs : List Registration} {ds : List Deed} {r : Registration}
    (h : r ∈ ds.foldl Deed.onRegistrations rs) : r ∈ rs ∨ .added r ∈ ds := by
  induction ds generalizing rs with
  | nil => exact Or.inl h
  | cons d ds ih =>
    rcases ih h with h | h
    · cases d with
      | added a =>
        rcases List.mem_append.mp h with h | h
        · exact Or.inl h
        · cases List.mem_singleton.mp h
          exact Or.inr (List.mem_cons_self ..)
      | removed a => exact Or.inl (List.mem_of_mem_erase h)
      | felled a => exact Or.inl (List.mem_of_mem_filter h)
      | scrapped a => exact Or.inl (List.mem_of_mem_filter h)
      | _ => exact Or.inl h
    · exact Or.inr (List.mem_cons_of_mem _ h)

/-- What is neither removed nor registered on something that is destroyed stays registered. -/
theorem mem_onRegistrations {rs : List Registration} {ds : List Deed} {r : Registration} (h : r ∈ rs)
    (hr : .removed r ∉ ds) (hd : ∀ d ∈ ds, ¬ d.Destroys r.object) : r ∈ ds.foldl Deed.onRegistrations rs := by
  induction ds generalizing rs with
  | nil => exact h
  | cons d ds ih =>
    have here := hd d (List.mem_cons_self ..)
    refine ih ?_ (fun hm => hr (List.mem_cons_of_mem _ hm)) fun d' hm => hd d' (List.mem_cons_of_mem _ hm)
    cases d with
    | added a => exact List.mem_append_left _ h
    | removed a =>
      have hne : r ≠ a := fun e => hr (e ▸ List.mem_cons_self ..)
      exact (List.mem_erase_of_ne hne).mpr h
    | felled a => exact List.mem_filter.mpr ⟨h, decide_eq_true fun e => here e.symm⟩
    | scrapped a => exact List.mem_filter.mpr ⟨h, decide_eq_true fun e => here e.symm⟩
    | _ => exact h

theorem enlisted_onRegistrations (rs : List Registration) (ds : List Deed) :
    (enlisted (ds.foldl Deed.onRegistrations rs)).Sublist (enlisted rs ++ recruits ds) := by
  induction ds generalizing rs with
  | nil => exact List.sublist_append_left _ _
  | cons d ds ih =>
    refine (ih _).trans ?_
    have kept {rs' : List Registration} (hs : rs'.Sublist rs) (hd : recruits (d :: ds) = recruits ds) :
        (enlisted rs' ++ recruits ds).Sublist (enlisted rs ++ recruits (d :: ds)) := by
      rw [hd]
      exact (enlisted_sublist hs).append (List.Sublist.refl _)
    cases d with
    | added a =>
      have grown : enlisted (rs ++ [a]) ++ recruits ds = enlisted rs ++ recruits (.added a :: ds) := by
        simp only [enlisted, recruits, List.filterMap_append, List.filterMap_cons, List.filterMap_nil, List.append_assoc]
        cases a.callback.trampoline? <;> rfl
      exact grown ▸ List.Sublist.refl _
    | removed a => exact kept List.erase_sublist rfl
    | felled a => exact kept List.filter_sublist rfl
    | scrapped a => exact kept List.filter_sublist rfl
    | _ => exact kept (List.Sublist.refl _) rfl

/-- A trampoline that is registered once is taken out by one removal. -/
theorem erase_enlisted {rs : List Registration} (hn : (enlisted rs).Nodup) {r : Registration} {t : Trampoline}
    (hr : r.callback = .trampoline t) : rs.erase r = rs.filter (· ≠ r) := by
  induction rs with
  | nil => rfl
  | cons a rs ih =>
    have tail : (enlisted rs).Nodup := hn.sublist (enlisted_sublist (List.sublist_cons_self a rs))
    by_cases ha : a = r
    · subst ha
      have absent : a ∉ rs := by
        intro hm
        have first : enlisted (a :: rs) = t :: enlisted rs := by simp [enlisted, hr, SignalCallback.trampoline?]
        rw [first] at hn
        exact (List.nodup_cons.mp hn).1 (mem_enlisted.mpr ⟨a, hm, hr⟩)
      rw [List.erase_cons_head, List.filter_cons_of_neg (by simp), List.filter_eq_self.mpr]
      intro b hb
      simpa using fun e : b = a => absent (e ▸ hb)
    · rw [List.erase_cons_tail (by simpa using ha), List.filter_cons_of_pos (by simpa using ha), ih tail]

/-- Withdrawing trampolines of a bridge, each registered once, filters them out. -/
theorem onRegistrations_withdrawing (b : Bridge) (ts : List Trampoline) {rs : List Registration} (hn : (enlisted rs).Nodup) :
    (b.withdrawing ts).foldl Deed.onRegistrations rs = rs.filter (· ∉ ts.map b.registration) := by
  induction ts generalizing rs with
  | nil => simp [Bridge.withdrawing]
  | cons t ts ih =>
    have first : Deed.onRegistrations rs (.removed (b.registration t)) = rs.filter (· ≠ b.registration t) :=
      erase_enlisted hn rfl
    show (b.withdrawing ts).foldl Deed.onRegistrations (Deed.onRegistrations rs (.removed (b.registration t))) = _
    rw [first, ih (hn.sublist (enlisted_sublist List.filter_sublist)), List.filter_filter]
    refine List.filter_congr fun r _ => ?_
    simp [Bool.and_comm, eq_comm]

/-! ## What a step does to bridges and trampolines -/

/-- The bridge that an operation is about, by name. -/
def Op.bridge? : Op → Option String
  | .newBridge name _ | .dropBridge name | .subscribe name _ _ | .unsubscribe name _ _ | .shutdown name _
  | .detach name _ => some name
  | _ => none

/-- No bridge and no trampoline has a part in the deed. -/
def Deed.Foreign : Deed → Prop
  | .bridged .. => False
  | .added r | .removed r => r.callback.trampoline? = none
  | _ => True

namespace State

/-- The bridge that the operation about to be performed is about. -/
def bridge? (c : State) : Option String := c.op?.bind Op.bridge?

/-- The trampoline that a subscription, about to be performed, makes for a bridge. -/
def made (c : State) (name : String) : Option Trampoline :=
  match c.op? with
  | some (.subscribe n b handler) =>
    if n = name ∧ b.refusal? = none then some (b.trampoline c.world.nextTrampoline handler) else none
  | _ => none

/-- What stands under a name is about to be replaced or dropped. -/
def Replaces (c : State) (name : String) : Prop :=
  (∃ b, c.op? = some (.newBridge name b)) ∨ c.op? = some (.dropBridge name)

theorem made_eq_some {c : State} {name : String} {t : Trampoline} (h : c.made name = some t) :
    ∃ b handler, c.op? = some (.subscribe name b handler) ∧ b.refusal? = none ∧
      t = b.trampoline c.world.nextTrampoline handler := by
  unfold made at h
  split at h
  · rename_i n b handler ho
    split at h
    · rename_i hn
      obtain ⟨rfl, hr⟩ := hn
      exact ⟨b, handler, ho, hr, (Option.some.inj h).symm⟩
    · cases h
  · cases h

theorem bridge_of_made {c : State} {name : String} {t : Trampoline} (h : c.made name = some t) : c.bridge? = some name := by
  obtain ⟨b, handler, ho, -, -⟩ := made_eq_some h
  simp [bridge?, ho, Op.bridge?]

theorem bridge_of_replaces {c : State} {name : String} (h : c.Replaces name) : c.bridge? = some name := by
  rcases h with ⟨b, ho⟩ | ho <;> simp [bridge?, ho, Op.bridge?]

end State

theorem foreign_native (t : Toolkit) (c : NativeCall) (hc : c.Own) : ∀ d ∈ c.deeds t, d.Foreign := by
  intro d hd
  have ours {cb : SignalCallback} (h : ∀ t, cb ≠ .trampoline t) : cb.trampoline? = none := by
    cases cb with
    | trampoline t => exact absurd rfl (h t)
    | program name => rfl
  cases c with
  | objectDel object =>
    cases NativeCall.mem_scraps hd
    trivial
  | callbackAdd object event cb => cases List.mem_singleton.mp hd; exact ours hc
  | callbackDel object event cb => cases List.mem_singleton.mp hd; exact ours hc
  | partContentSet h part content =>
    simp only [NativeCall.deeds] at hd
    split at hd
    · cases List.mem_singleton.mp hd; trivial
    · cases hd
  | partContentUnset h part => cases List.mem_singleton.mp hd; trivial
  | _ => cases hd

/-- An operation that is about no bridge leaves bridges and trampolines alone. -/
theorem foreign_op {w : World} {op : Op} (ht : op.Typed w) (hb : op.bridge? = none) : ∀ d ∈ op.deeds w, d.Foreign := by
  intro d hd
  cases op with
  | destroy h =>
    cases Toolkit.mem_fells hd
    trivial
  | native c =>
    have call := foreign_native w.toolkit c ht d
    cases c with
    | itemDel h =>
      cases Toolkit.mem_fellsNow hd
      trivial
    | _ => exact call hd
  | delete ref =>
    simp only [Op.deeds] at hd
    split at hd
    · cases hd
    · cases Toolkit.mem_fellsNow hd
      trivial
  | setContent ref part content preserve =>
    simp only [Op.deeds, World.puts] at hd
    split at hd
    · cases hd
    · simp only [List.mem_append, List.mem_singleton] at hd
      rcases hd with (hd | hd) | rfl
      · split at hd
        · cases hd
        · exact foreign_native _ (.objectDel _) trivial d hd
      · exact foreign_native _ (.partContentSet ..) trivial d hd
      · trivial
  | newBridge | dropBridge | subscribe | unsubscribe | shutdown | detach => cases hb
  | _ => cases hd

namespace Bridge

theorem mem_withdrawing {b : Bridge} {ts : List Trampoline} {d : Deed} :
    d ∈ b.withdrawing ts ↔ ∃ t ∈ ts, d = .removed (b.registration t) := by
  simp [withdrawing, eq_comm]

theorem mem_closing {b : Bridge} {d : Deed} (h : d ∈ b.closing) : ∃ t ∈ b.listeners, d = .removed (b.registration t) := by
  unfold closing at h
  split at h
  · cases h
  · exact mem_withdrawing.mp h

end Bridge

theorem World.mem_closingOf {w : World} {name : String} {d : Deed} (h : d ∈ w.closingOf name) :
    ∃ b, w.bridges.get? name = some b ∧ ∃ t ∈ b.listeners, d = .removed (b.registration t) := by
  unfold closingOf at h
  cases hb : w.bridges.get? name with
  | none => simp [hb] at h
  | some b =>
    rw [hb] at h
    exact ⟨b, rfl, Bridge.mem_closing h⟩

/-- What an operation does that is about a bridge: it says what stands under the name then, it
    registers the trampoline that it makes, or it takes back trampolines of that bridge. -/
theorem mem_deeds_bridge {c : State} {op : Op} {name : String} (ho : c.op? = some op) (ht : op.Typed c.world)
    (hb : op.bridge? = some name) {d : Deed} (hd : d ∈ op.deeds c.world) :
    (∃ b, d = .bridged name b) ∨
    (∃ b t handler, op = .subscribe name b handler ∧ c.world.bridges.get? name = some b ∧ c.made name = some t ∧
      d = .added (b.registration t)) ∨
    ∃ b t, c.world.bridges.get? name = some b ∧ t ∈ b.listeners ∧ d = .removed (b.registration t) := by
  cases op with
  | newBridge n b =>
    cases hb
    rcases List.mem_cons.mp hd with rfl | hd
    · exact Or.inl ⟨_, rfl⟩
    · obtain ⟨b, hb, t, ht, rfl⟩ := World.mem_closingOf hd
      exact Or.inr (Or.inr ⟨b, t, hb, ht, rfl⟩)
  | dropBridge n =>
    cases hb
    rcases List.mem_cons.mp hd with rfl | hd
    · exact Or.inl ⟨_, rfl⟩
    · obtain ⟨b, hb, t, ht, rfl⟩ := World.mem_closingOf hd
      exact Or.inr (Or.inr ⟨b, t, hb, ht, rfl⟩)
  | subscribe n b handler =>
    cases hb
    simp only [Op.deeds] at hd
    split at hd
    · cases hd
    · rename_i hr
      simp only [List.mem_cons, List.not_mem_nil, or_false] at hd
      rcases hd with rfl | rfl
      · exact Or.inl ⟨_, rfl⟩
      · exact Or.inr (Or.inl ⟨b, _, handler, rfl, ht, by simp [State.made, ho, hr], rfl⟩)
  | unsubscribe n b handler =>
    cases hb
    rcases List.mem_cons.mp hd with rfl | hd
    · exact Or.inl ⟨_, rfl⟩
    · obtain ⟨t, hm, rfl⟩ := Bridge.mem_withdrawing.mp hd
      exact Or.inr (Or.inr ⟨b, t, ht, List.mem_of_mem_filter hm, rfl⟩)
  | shutdown n b =>
    cases hb
    rcases List.mem_cons.mp hd with rfl | hd
    · exact Or.inl ⟨_, rfl⟩
    · obtain ⟨t, hm, rfl⟩ := Bridge.mem_closing hd
      exact Or.inr (Or.inr ⟨b, t, ht, hm, rfl⟩)
  | detach n b =>
    cases hb
    cases List.mem_singleton.mp hd
    exact Or.inl ⟨_, rfl⟩
  | _ => cases hb

namespace Course

variable {k : Conduct} (c : Course k) {n : Nat}

/-- An operation about to be performed is allowed, and is performed. -/
theorem performed (hn : n < c.length) {op : Op} (ho : (c.state n).op? = some op) :
    k.Allows (c.state n).world op ∧ (c.state (n + 1)).world = ((c.state n).world.perform op).1 := by
  have h := c.next n hn
  generalize c.state (n + 1) = s' at h
  generalize c.state n = s at h ho
  cases h with
  | call w level choose => cases ho
  | turn ht =>
    obtain ⟨p, w, t, ts, ok⟩ := ht
    obtain ⟨level, job⟩ := t
    cases job with
    | act choose =>
      cases ho
      exact ⟨ok choose rfl, rfl⟩
    | _ => cases ho

theorem allowed (hn : n < c.length) {op : Op} (ho : (c.state n).op? = some op) : k.Allows (c.state n).world op :=
  (c.performed hn ho).1

/-- A deed in which a bridge has a part is done by an operation about one. -/
theorem bridge_of_deed (hn : n < c.length) {d : Deed} (hm : d ∈ (c.state n).deeds) (hd : ¬ d.Foreign) :
    ∃ name op, (c.state n).op? = some op ∧ op.bridge? = some name ∧ d ∈ op.deeds (c.state n).world := by
  rcases ho : (c.state n).op? with _ | op
  · obtain ⟨a, rfl⟩ | ⟨ref, rfl⟩ := State.deeds_of_quiet ho hm <;> exact absurd trivial hd
  · rw [State.deeds_of_op ho] at hm
    rcases hb : op.bridge? with _ | name
    · exact absurd (foreign_op (c.allowed hn ho).1 hb d hm) hd
    · exact ⟨name, op, rfl, hb, hm⟩

/-- A trampoline is registered by the subscription that makes it. -/
theorem added_by (hn : n < c.length) {r : Registration} {t : Trampoline} (hm : .added r ∈ (c.state n).deeds)
    (hr : r.callback = .trampoline t) :
    ∃ name b, (c.state n).world.bridges.get? name = some b ∧ (c.state n).made name = some t ∧ r = b.registration t := by
  obtain ⟨name, op, ho, hb, hd⟩ := c.bridge_of_deed hn hm (by simp [Deed.Foreign, hr, SignalCallback.trampoline?])
  rcases mem_deeds_bridge ho (c.allowed hn ho).1 hb hd with ⟨b, e⟩ | ⟨b, t', handler, -, hg, ht, e⟩ | ⟨b, t', -, -, e⟩
  · cases e
  · cases e
    cases hr
    exact ⟨name, b, hg, ht, rfl⟩
  · cases e

/-- Trampolines are taken back from the toolkit by operations about their bridge. -/
theorem removed_by (hn : n < c.length) {r : Registration} {t : Trampoline} (hm : .removed r ∈ (c.state n).deeds)
    (hr : r.callback = .trampoline t) :
    ∃ name b, (c.state n).bridge? = some name ∧ (c.state n).world.bridges.get? name = some b ∧ t ∈ b.listeners ∧
      r = b.registration t := by
  obtain ⟨name, op, ho, hb, hd⟩ := c.bridge_of_deed hn hm (by simp [Deed.Foreign, hr, SignalCallback.trampoline?])
  have about : (c.state n).bridge? = some name := by simp [State.bridge?, ho, hb]
  rcases mem_deeds_bridge ho (c.allowed hn ho).1 hb hd with ⟨b, e⟩ | ⟨b, t', handler, -, -, -, e⟩ | ⟨b, t', hg, ht, e⟩
  · cases e
  · cases e
  · cases e
    cases hr
    exact ⟨name, b, about, hg, ht, rfl⟩

/-- What stands under a name is changed by operations about it only. -/
theorem bridge_kept (hn : n < c.length) {name : String} (hb : (c.state n).bridge? ≠ some name) :
    (c.state (n + 1)).world.bridges.get? name = (c.state n).world.bridges.get? name := by
  rw [(c.step_tells hn).bridges]
  refine World.foldl_still fun d hm => ?_
  cases d with
  | bridged n' b =>
    obtain ⟨name', op, ho, hb', hd⟩ := c.bridge_of_deed hn hm id
    rcases mem_deeds_bridge ho (c.allowed hn ho).1 hb' hd with ⟨b', e⟩ | ⟨_, _, _, -, -, -, e⟩ | ⟨_, _, -, -, e⟩
    · cases e
      have hne : n' ≠ name := fun e => hb (by simp [State.bridge?, ho, hb', e])
      simp [Deed.onBridge, hne]
    · cases e
    · cases e
  | _ => rfl

end Course

/-- What stands under a name after a step. -/
inductive Remade (c : State) (name : String) : Bridge → Prop
  | kept {b : Bridge} : c.world.bridges.get? name = some b → c.made name = none → ¬ c.Replaces name →
      (c.bridge? = some name → c.deeds = []) → Remade c name b
  | opened {b : Bridge} : c.op? = some (.newBridge name b) → b.listeners = [] → b.isShutDown = false → Remade c name b
  | subscribed {b : Bridge} {t : Trampoline} : c.world.bridges.get? name = some b → c.made name = some t →
      c.deeds = [.bridged name (some (b.addListener t)), .added (b.registration t)] → Remade c name (b.addListener t)
  | unsubscribed {b : Bridge} {handler : String} : c.world.bridges.get? name = some b →
      c.op? = some (.unsubscribe name b handler) → Remade c name (b.removeListeners handler)
  | closed {b : Bridge} : c.world.bridges.get? name = some b →
      c.op? = some (.shutdown name b) ∨ c.op? = some (.detach name b) → Remade c name b.closed

theorem onBridge_withdrawing (b : Bridge) (ts : List Trampoline) (name : String) (o : Option Bridge) :
    (b.withdrawing ts).foldl (Deed.onBridge name) o = o := by
  refine World.foldl_still fun d hm => ?_
  obtain ⟨t, -, rfl⟩ := Bridge.mem_withdrawing.mp hm
  rfl

theorem onBridge_closing (b : Bridge) (name : String) (o : Option Bridge) : b.closing.foldl (Deed.onBridge name) o = o := by
  unfold Bridge.closing
  split
  · rfl
  · exact onBridge_withdrawing b _ name o

theorem onBridge_closingOf (w : World) (name n : String) (o : Option Bridge) :
    (w.closingOf name).foldl (Deed.onBridge n) o = o := by
  unfold World.closingOf
  cases w.bridges.get? name with
  | none => rfl
  | some b => exact onBridge_closing b n o

namespace Course

variable {k : Conduct} (c : Course k) {n : Nat}

theorem remade (hn : n < c.length) {name : String} {b : Bridge}
    (hb : (c.state (n + 1)).world.bridges.get? name = some b) : Remade (c.state n) name b := by
  by_cases ha : (c.state n).bridge? = some name
  · obtain ⟨op, ho, hop⟩ := Option.bind_eq_some_iff.mp ha
    have ht := (c.allowed hn ho).1
    have hd := State.deeds_of_op ho
    have silent (h : (c.state n).made name = none) (hr : ¬ (c.state n).Replaces name) (hs : op.deeds (c.state n).world = []) :
        Remade (c.state n) name b := by
      have same := (c.step_tells hn).bridges name
      rw [hd, hs] at same
      exact .kept (same.symm.trans hb) h hr fun _ => hd.trans hs
    rw [(c.step_tells hn).bridges, hd] at hb
    cases op with
    | newBridge m b' =>
      cases hop
      simp only [Op.deeds, List.foldl_cons, onBridge_closingOf, Deed.onBridge, if_true, Option.some.injEq] at hb
      subst hb
      exact .opened ho ht.1 ht.2
    | dropBridge m =>
      cases hop
      simp [Op.deeds, onBridge_closingOf, Deed.onBridge] at hb
    | subscribe m b' handler =>
      cases hop
      rcases hr : b'.refusal? with _ | e
      · let t := b'.trampoline (c.state n).world.nextTrampoline handler
        have hm : (c.state n).made name = some t := by simp [State.made, ho, hr, t]
        have deeds : (c.state n).deeds = [.bridged name (some (b'.addListener t)), .added (b'.registration t)] := by
          simp only [hd, Op.deeds, hr, t]
        simp only [Op.deeds, hr, List.foldl_cons, List.foldl_nil, Deed.onBridge, if_true, Option.some.injEq] at hb
        subst hb
        exact .subscribed ht hm deeds
      · exact silent (by simp [State.made, ho, hr]) (by simp [State.Replaces, ho]) (by simp only [Op.deeds, hr])
    | unsubscribe m b' handler =>
      cases hop
      simp only [Op.deeds, List.foldl_cons, onBridge_withdrawing, Deed.onBridge, if_true, Option.some.injEq] at hb
      subst hb
      exact .unsubscribed ht ho
    | shutdown m b' =>
      cases hop
      simp only [Op.deeds, List.foldl_cons, onBridge_closing, Deed.onBridge, if_true, Option.some.injEq] at hb
      subst hb
      exact .closed ht (Or.inl ho)
    | detach m b' =>
      cases hop
      simp only [Op.deeds, List.foldl_cons, List.foldl_nil, Deed.onBridge, if_true, Option.some.injEq] at hb
      subst hb
      exact .closed ht (Or.inr ho)
    | _ => cases hop
  · refine .kept (c.bridge_kept hn ha ▸ hb) ?_ (fun h => ha (State.bridge_of_replaces h)) fun h => absurd h ha
    rcases hm : (c.state n).made name with _ | t
    · rfl
    · exact absurd (State.bridge_of_made hm) ha

/-! ## Serial numbers -/

theorem deeds_of_made (hn : n < c.length) {name : String} {t : Trampoline} (hm : (c.state n).made name = some t) :
    ∃ b, (c.state n).world.bridges.get? name = some b ∧
      (c.state n).deeds = [.bridged name (some (b.addListener t)), .added (b.registration t)] := by
  obtain ⟨b, handler, ho, hr, rfl⟩ := State.made_eq_some hm
  exact ⟨b, (c.allowed hn ho).1, by simp only [State.deeds_of_op ho, Op.deeds, hr]⟩

/-- The trampolines that a step adds: the one that it makes, if it makes one. -/
theorem recruits_step (hn : n < c.length) : recruits (c.state n).deeds = [] ∨
    ∃ name t, (c.state n).made name = some t ∧ recruits (c.state n).deeds = [t] := by
  by_cases h : ∃ name t, (c.state n).made name = some t
  · obtain ⟨name, t, hm⟩ := h
    obtain ⟨b, -, hd⟩ := c.deeds_of_made hn hm
    exact Or.inr ⟨name, t, hm, by rw [hd]; rfl⟩
  · refine Or.inl (List.filterMap_eq_nil_iff.mpr fun d hd => ?_)
    cases d with
    | added r =>
      rcases hr : r.callback.trampoline? with _ | t
      · exact hr
      · obtain ⟨name, b, -, hm, -⟩ := c.added_by hn hd (SignalCallback.trampoline_of hr)
        exact absurd ⟨name, t, hm⟩ h
    | _ => rfl

theorem serial_made (hn : n < c.length) {name : String} {t : Trampoline} (hm : (c.state n).made name = some t) :
    t.serial = (c.state n).world.nextTrampoline ∧
      (c.state (n + 1)).world.nextTrampoline = (c.state n).world.nextTrampoline + 1 := by
  obtain ⟨b, -, hd⟩ := c.deeds_of_made hn hm
  obtain ⟨b', handler, -, -, rfl⟩ := State.made_eq_some hm
  refine ⟨rfl, ?_⟩
  rw [(c.step_tells hn).serial, hd]
  rfl

theorem serial_kept (hn : n < c.length) (hm : ∀ name, (c.state n).made name = none) :
    (c.state (n + 1)).world.nextTrampoline = (c.state n).world.nextTrampoline := by
  rw [(c.step_tells hn).serial]
  refine World.foldl_still fun d hd => ?_
  cases d with
  | added r =>
    obtain ⟨object, event, cb⟩ := r
    cases cb with
    | trampoline t =>
      obtain ⟨name, b, -, h, -⟩ := c.added_by hn hd rfl
      rw [hm] at h
      cases h
    | program name => rfl
  | _ => rfl

theorem serial_le (hn : n < c.length) : (c.state n).world.nextTrampoline ≤ (c.state (n + 1)).world.nextTrampoline := by
  by_cases h : ∃ name t, (c.state n).made name = some t
  · obtain ⟨name, t, hm⟩ := h
    have := (c.serial_made hn hm).2
    omega
  · refine Nat.le_of_eq (c.serial_kept hn fun name => ?_).symm
    rcases hm : (c.state n).made name with _ | t
    · rfl
    · exact absurd ⟨name, t, hm⟩ h

theorem serial_mono {m : Nat} (hmn : m ≤ n) (hn : n ≤ c.length) :
    (c.state m).world.nextTrampoline ≤ (c.state n).world.nextTrampoline := by
  induction hmn with
  | refl => exact Nat.le_refl _
  | @step n hmn ih => exact Nat.le_trans (ih (Nat.le_of_lt hn)) (c.serial_le hn)

/-- The number of a trampoline tells which step made it, and for which bridge. -/
theorem made_inj {i j : Nat} (hi : i < c.length) (hj : j < c.length) {name name' : String} {t t' : Trampoline}
    (hm : (c.state i).made name = some t) (hm' : (c.state j).made name' = some t') (hs : t.serial = t'.serial) :
    i = j ∧ name = name' ∧ t = t' := by
  obtain ⟨hi', hni⟩ := c.serial_made hi hm
  obtain ⟨hj', hnj⟩ := c.serial_made hj hm'
  have step : i = j := by
    rcases Nat.lt_trichotomy i j with hlt | rfl | hlt
    · have := c.serial_mono (show i + 1 ≤ j from hlt) (Nat.le_of_lt hj)
      omega
    · rfl
    · have := c.serial_mono (show j + 1 ≤ i from hlt) (Nat.le_of_lt hi)
      omega
  subst step
  have same := (State.bridge_of_made hm).symm.trans (State.bridge_of_made hm')
  cases same
  rw [hm] at hm'
  exact ⟨rfl, rfl, Option.some.inj hm'⟩

end Course

/-- Serial numbers go up in both lists and lie below the next one; the trampolines of a bridge
    are made with its sender and parser, and one that is shut down has none. -/
structure World.Numbered (w : World) : Prop where
  enlisted : (enlisted w.toolkit.registrations).Pairwise (·.serial < ·.serial)
  below : ∀ t ∈ HandleBridge.enlisted w.toolkit.registrations, t.serial < w.nextTrampoline
  listeners : ∀ name b, w.bridges.get? name = some b → b.listeners.Pairwise (·.serial < ·.serial)
  listed : ∀ name b, w.bridges.get? name = some b → ∀ t ∈ b.listeners,
    t.serial < w.nextTrampoline ∧ t.sender = b.sender ∧ t.parser = b.parser
  shut : ∀ name b, w.bridges.get? name = some b → b.isShutDown = true → b.listeners = []

/-- A trampoline with a number higher than all in the list. -/
theorem pairwise_snoc {ts : List Trampoline} (h : ts.Pairwise (·.serial < ·.serial)) {t : Trampoline}
    (ht : ∀ a ∈ ts, a.serial < t.serial) : (ts ++ [t]).Pairwise (·.serial < ·.serial) := by
  refine List.pairwise_append.mpr ⟨h, List.pairwise_singleton .., fun a ha b hb => ?_⟩
  cases List.mem_singleton.mp hb
  exact ht a ha

namespace Course

variable {k : Conduct} (c : Course k) {n : Nat}

theorem numbered_step (hn : n < c.length) (h : (c.state n).world.Numbered) : (c.state (n + 1)).world.Numbered := by
  have regs := (c.step_tells hn).registrations
  have le := c.serial_le hn
  have sub := enlisted_onRegistrations (c.state n).world.toolkit.registrations (c.state n).deeds
  rw [← regs] at sub
  -- the trampolines that are registered now, the new one at the end
  have grown : (enlisted (c.state n).world.toolkit.registrations ++ recruits (c.state n).deeds).Pairwise
      (·.serial < ·.serial) ∧ ∀ t ∈ enlisted (c.state n).world.toolkit.registrations ++ recruits (c.state n).deeds,
        t.serial < (c.state (n + 1)).world.nextTrampoline := by
    rcases c.recruits_step hn with hr | ⟨name, t, hm, hr⟩
    · rw [hr, List.append_nil]
      exact ⟨h.enlisted, fun t ht => Nat.lt_of_lt_of_le (h.below t ht) le⟩
    · obtain ⟨hs, hs'⟩ := c.serial_made hn hm
      rw [hr]
      refine ⟨pairwise_snoc h.enlisted fun a ha => hs ▸ h.below a ha, fun a ha => ?_⟩
      rcases List.mem_append.mp ha with ha | ha
      · exact Nat.lt_of_lt_of_le (h.below a ha) le
      · cases List.mem_singleton.mp ha
        omega
  refine ⟨grown.1.sublist sub, fun t ht => grown.2 t (sub.subset ht), ?_, ?_, ?_⟩
  · intro name b hb
    cases c.remade hn hb with
    | kept hg => exact h.listeners name _ hg
    | opened _ hl => rw [hl]; exact .nil
    | subscribed hg hm =>
      exact pairwise_snoc (h.listeners name _ hg) fun a ha => (c.serial_made hn hm).1 ▸ (h.listed name _ hg a ha).1
    | unsubscribed hg => exact (h.listeners name _ hg).sublist List.filter_sublist
    | closed => exact .nil
  · intro name b hb t ht
    have old {b' : Bridge} (hg : (c.state n).world.bridges.get? name = some b') (ht : t ∈ b'.listeners) :
        t.serial < (c.state (n + 1)).world.nextTrampoline ∧ t.sender = b'.sender ∧ t.parser = b'.parser := by
      obtain ⟨hs, hx⟩ := h.listed name b' hg t ht
      exact ⟨Nat.lt_of_lt_of_le hs le, hx⟩
    cases c.remade hn hb with
    | kept hg => exact old hg ht
    | opened _ hl => rw [hl] at ht; cases ht
    | subscribed hg hm =>
      rcases List.mem_append.mp ht with ht | ht
      · have had := old hg ht
        exact had
      · cases List.mem_singleton.mp ht
        obtain ⟨b', handler, ho, -, rfl⟩ := State.made_eq_some hm
        have same : (c.state n).world.bridges.get? name = some b' := (c.allowed hn ho).1
        cases hg.symm.trans same
        have := c.serial_made hn hm
        exact ⟨by omega, rfl, rfl⟩
    | unsubscribed hg =>
      have had := old hg (List.mem_of_mem_filter ht)
      exact had
    | closed => cases ht
  · intro name b hb hs
    cases c.remade hn hb with
    | kept hg => exact h.shut name _ hg hs
    | opened _ hl => exact hl
    | subscribed hg hm =>
      obtain ⟨b', handler, ho, hr, rfl⟩ := State.made_eq_some hm
      have same : (c.state n).world.bridges.get? name = some b' := (c.allowed hn ho).1
      cases hg.symm.trans same
      -- a bridge that is shut down refuses
      simp only [Bridge.addListener] at hs
      simp [Bridge.refusal?, hs] at hr
    | unsubscribed hg =>
      have none := h.shut name _ hg hs
      simp [Bridge.removeListeners, none]
    | closed => rfl

theorem numbered (hn : n ≤ c.length) : (c.state n).world.Numbered := by
  induction n with
  | zero =>
    obtain ⟨mode, h⟩ := c.start
    rw [h]
    refine ⟨.nil, nofun, ?_, ?_, ?_⟩ <;> simp [World.start]
  | succ n ih => exact c.numbered_step hn (ih (Nat.le_of_lt hn))

theorem nodup_enlisted (hn : n ≤ c.length) : (enlisted (c.state n).world.toolkit.registrations).Nodup :=
  (c.numbered hn).enlisted.imp fun {a b} h => fun e => by
    rw [e] at h
    exact Nat.lt_irrefl _ h

/-- A registered trampoline was made by a subscription before, and is registered as that
    subscription registered it. -/
theorem came_from (hn : n ≤ c.length) {r : Registration} {t : Trampoline} (hr : r ∈ (c.state n).world.toolkit.registrations)
    (ht : r.callback = .trampoline t) :
    ∃ i name b, i < n ∧ (c.state i).world.bridges.get? name = some b ∧ (c.state i).made name = some t ∧
      r = b.registration t := by
  induction n with
  | zero =>
    obtain ⟨mode, h⟩ := c.start
    rw [h] at hr
    cases hr
  | succ n ih =>
    rw [(c.step_tells hn).registrations] at hr
    rcases mem_of_onRegistrations hr with hr | hr
    · obtain ⟨i, name, b, hi, h⟩ := ih (Nat.le_of_lt hn) hr
      exact ⟨i, name, b, Nat.lt_succ_of_lt hi, h⟩
    · obtain ⟨name, b, h⟩ := c.added_by hn hr ht
      exact ⟨n, name, b, Nat.lt_succ_self n, h⟩

end Course

end HandleBridge
