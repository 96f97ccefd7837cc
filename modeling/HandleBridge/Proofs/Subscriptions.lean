/-
  HandleBridge.Proofs.Subscriptions — bridges and the toolkit agree on subscriptions.

  A subscription is written down twice: in the bridge's list and among the toolkit's
  registrations. Unsubscribing and closing edit both; detaching edits only the bridge's list,
  and destroying the object edits only the toolkit's. The order of operations is arbitrary,
  several bridges may listen to one signal of one object, and the program may register and
  remove callbacks of its own there.
  - `Course.lives`: what stands under a name was put there by one step and has lived since;
    `Course.made` are the trampolines made for it, and `Lives.listed` says that its list holds no
    others.
  - `Lives.placed`: a trampoline of a bridge is registered for its object and event only.
  - `Lives.listed_of_enlisted`: while it is not detached, its registered trampolines are in its list.
  - `Lives.enlisted_of_listed`: one in its list is registered as long as the object has not been
    destroyed since the trampoline was made.
  - `Lives.withdrawn`: taking trampolines of the list back filters them out and nothing else.
  - `bridges_agree_with_the_toolkit`.
-/
import HandleBridge.Proofs.Trampolines
import Mathlib.Data.List.Sort

namespace HandleBridge

/-! ## What a signal has standing -/

/-- The callbacks of a signal after one more deed: added at the end, removed where it first
    stands, and all gone with the object. -/
def onStanding (object : Handle) (event : String) (cbs : List SignalCallback) : Deed → List SignalCallback
  | .added r => if r.object = object ∧ r.event = event then cbs ++ [r.callback] else cbs
  | .removed r => if r.object = object ∧ r.event = event then cbs.erase r.callback else cbs
  | .felled h | .scrapped h => if h = object then [] else cbs
  | _ => cbs

/-- The callbacks added for a signal since its object was last destroyed and not removed yet, in
    order of addition. -/
def standing (object : Handle) (event : String) (ds : List Deed) : List SignalCallback :=
  ds.foldl (onStanding object event) []

/-- The callbacks registered for a signal. -/
def heard (object : Handle) (event : String) (rs : List Registration) : List SignalCallback :=
  (rs.filter fun r => r.object = object ∧ r.event = event).map (·.callback)

theorem heard_cons (object : Handle) (event : String) (r : Registration) (rs : List Registration) :
    heard object event (r :: rs) =
      if r.object = object ∧ r.event = event then r.callback :: heard object event rs else heard object event rs := by
  unfold heard
  by_cases h : r.object = object ∧ r.event = event <;> simp [h]

theorem heard_erase (object : Handle) (event : String) (rs : List Registration) (a : Registration) :
    heard object event (rs.erase a) =
      if a.object = object ∧ a.event = event then (heard object event rs).erase a.callback
      else heard object event rs := by
  induction rs with
  | nil => simp [heard]
  | cons r rs ih =>
    by_cases hr : r = a
    · subst hr
      rw [List.erase_cons_head, heard_cons]
      split <;> simp
    · rw [List.erase_cons_tail (by simpa using hr), heard_cons, heard_cons, ih]
      by_cases ha : a.object = object ∧ a.event = event
      · by_cases hp : r.object = object ∧ r.event = event
        · -- registrations of one signal differ in the callback
          have hne : r.callback ≠ a.callback := by
            intro e
            apply hr
            obtain ⟨o, ev, cb⟩ := r
            obtain ⟨o', ev', cb'⟩ := a
            simp_all
          rw [if_pos ha, if_pos hp, if_pos ha, if_pos hp, List.erase_cons_tail (by simpa using hne)]
        · rw [if_pos ha, if_neg hp, if_pos ha, if_neg hp]
      · rw [if_neg ha, if_neg ha]

theorem heard_onRegistrations (object : Handle) (event : String) (rs : List Registration) (d : Deed) :
    heard object event (d.onRegistrations rs) = onStanding object event (heard object event rs) d := by
  have dropped (h : Handle) : heard object event (rs.filter (·.object ≠ h)) =
      if h = object then [] else heard object event rs := by
    induction rs with
    | nil => simp [heard]
    | cons r rs ih =>
      by_cases hr : r.object = h
      · rw [List.filter_cons_of_neg (by simpa using hr), ih, heard_cons]
        split
        · rfl
        · rename_i hne
          rw [if_neg fun e => hne (hr.symm.trans e.1)]
      · rw [List.filter_cons_of_pos (by simpa using hr), heard_cons, ih, heard_cons]
        by_cases he : h = object
        · subst he
          simp [hr]
        · simp [he]
  cases d with
  | added r =>
    simp only [Deed.onRegistrations, onStanding, heard, List.filter_append, List.map_append]
    by_cases h : r.object = object ∧ r.event = event <;> simp [h]
  | removed r => exact heard_erase object event rs r
  | felled h => exact dropped h
  | scrapped h => exact dropped h
  | _ => rfl

theorem heard_fold (object : Handle) (event : String) (rs : List Registration) (ds : List Deed) :
    heard object event (ds.foldl Deed.onRegistrations rs) = ds.foldl (onStanding object event) (heard object event rs) := by
  induction ds generalizing rs with
  | nil => rfl
  | cons d ds ih => rw [List.foldl_cons, ih, heard_onRegistrations, List.foldl_cons]

/-- What the toolkit has registered for a signal is what the deeds of the run leave standing. -/
theorem Course.listeners_eq {k : Conduct} (c : Course k) {n : Nat} (hn : n ≤ c.length) (object : Handle) (event : String) :
    (c.state n).world.toolkit.listeners object event = standing object event (c.chronicle n) := by
  obtain ⟨mode, h⟩ := c.tells hn
  show heard object event (c.state n).world.toolkit.registrations = _
  rw [h.registrations, heard_fold]
  rfl

/-- The trampolines registered for a signal, in order. -/
def Toolkit.trampolines (t : Toolkit) (object : Handle) (event : String) : List Trampoline :=
  (t.listeners object event).filterMap SignalCallback.trampoline?

theorem Toolkit.trampolines_eq (t : Toolkit) (object : Handle) (event : String) :
    t.trampolines object event = enlisted (t.registrations.filter fun r => r.object = object ∧ r.event = event) := by
  simp only [trampolines, listeners, enlisted, List.filterMap_map]
  rfl

theorem Toolkit.mem_trampolines {t : Toolkit} {object : Handle} {event : String} {a : Trampoline} :
    a ∈ t.trampolines object event ↔ ⟨object, event, .trampoline a⟩ ∈ t.registrations := by
  simp only [trampolines_eq, mem_enlisted, List.mem_filter, decide_eq_true_eq]
  constructor
  · rintro ⟨⟨o, e, cb⟩, ⟨hm, ho, he⟩, hc⟩
    cases ho
    cases he
    cases hc
    exact hm
  · exact fun hm => ⟨_, ⟨hm, rfl, rfl⟩, rfl⟩

/-! ## The life of a bridge -/

/-- The bridges deliver for one sender, from one signal of one object, through one parser. -/
def Bridge.Same (b b' : Bridge) : Prop :=
  b.sender = b'.sender ∧ b.handle = b'.handle ∧ b.event = b'.event ∧ b.parser = b'.parser

theorem Bridge.Same.registration {b b' : Bridge} (h : b.Same b') (t : Trampoline) : b.registration t = b'.registration t := by
  simp only [Bridge.registration, h.2.1, h.2.2.1]

theorem Remade.opened_or {c : State} {name : String} {b : Bridge} (h : Remade c name b) :
    c.op? = some (.newBridge name b) ∨
      ¬ c.Replaces name ∧ ∃ b', c.world.bridges.get? name = some b' ∧ b.Same b' := by
  cases h with
  | kept hg _ hr => exact Or.inr ⟨hr, _, hg, rfl, rfl, rfl, rfl⟩
  | opened ho => exact Or.inl ho
  | subscribed hg hm =>
    obtain ⟨_, _, ho, -, -⟩ := State.made_eq_some hm
    exact Or.inr ⟨by simp [State.Replaces, ho], _, hg, rfl, rfl, rfl, rfl⟩
  | unsubscribed hg ho => exact Or.inr ⟨by simp [State.Replaces, ho], _, hg, rfl, rfl, rfl, rfl⟩
  | closed hg ho => exact Or.inr ⟨by rcases ho with ho | ho <;> simp [State.Replaces, ho], _, hg, rfl, rfl, rfl, rfl⟩

/-- The trampoline that was made in the step is in the bridge's list after it. -/
theorem Remade.of_made {c : State} {name : String} {b : Bridge} {t : Trampoline} (h : Remade c name b)
    (hm : c.made name = some t) : ∃ b', c.world.bridges.get? name = some b' ∧ b = b'.addListener t ∧
      c.deeds = [.bridged name (some (b'.addListener t)), .added (b'.registration t)] := by
  obtain ⟨b', handler, ho, -, -⟩ := State.made_eq_some hm
  cases h with
  | kept _ hm' => rw [hm] at hm'; cases hm'
  | opened ho' => rw [ho] at ho'; cases ho'
  | subscribed hg hm' hd =>
    rw [hm] at hm'
    cases hm'
    exact ⟨_, hg, rfl, hd⟩
  | unsubscribed _ ho' => rw [ho] at ho'; cases ho'
  | closed _ ho' => rw [ho] at ho'; rcases ho' with e | e <;> cases e

namespace Course

variable {k : Conduct} (c : Course k) {name : String} {m n : Nat} {b : Bridge}

/-- Step `m` puts a bridge under the name, and up to step `n` none replaces or drops it. -/
def Lives (name : String) (m n : Nat) : Prop :=
  m < n ∧ (∃ b, (c.state m).op? = some (.newBridge name b)) ∧ ∀ i, m < i → i < n → ¬ (c.state i).Replaces name

/-- The trampolines made for the name from step `m` up to step `n`, in order. -/
def made (name : String) (m n : Nat) : List Trampoline :=
  (List.range' m (n - m)).filterMap fun i => (c.state i).made name

/-- What stands under the name is detached by one of the steps after `m`, before `n`. -/
def Detached (name : String) (m n : Nat) : Prop := ∃ i b, m < i ∧ i < n ∧ (c.state i).op? = some (.detach name b)

/-- From step `m` up to step `n` the object is not destroyed. -/
def Spares (h : Handle) (m n : Nat) : Prop := ∀ i, m ≤ i → i < n → ∀ d ∈ (c.state i).deeds, ¬ d.Destroys h

theorem mem_made {t : Trampoline} : t ∈ c.made name m n ↔ ∃ i, m ≤ i ∧ i < n ∧ (c.state i).made name = some t := by
  simp only [made, List.mem_filterMap, List.mem_range'_1]
  constructor
  · rintro ⟨i, ⟨hm, hn⟩, h⟩
    exact ⟨i, hm, by omega, h⟩
  · rintro ⟨i, hm, hn, h⟩
    exact ⟨i, ⟨hm, by omega⟩, h⟩

/-- The steps from `m` up to the one after `n`. -/
theorem steps_succ (hm : m ≤ n) : List.range' m (n + 1 - m) = List.range' m (n - m) ++ [n] := by
  rw [show n + 1 - m = (n - m) + 1 by omega, List.range'_concat, show m + 1 * (n - m) = n by omega]

theorem made_succ (hm : m ≤ n) : c.made name m (n + 1) = c.made name m n ++ ((c.state n).made name).toList := by
  rw [made, steps_succ hm, List.filterMap_append, made]
  cases ht : (c.state n).made name <;> simp [ht]

theorem Lives.before {j : Nat} (h : c.Lives name m n) (hj : m < j) (hjn : j ≤ n) : c.Lives name m j :=
  ⟨hj, h.2.1, fun i hi hij => h.2.2 i hi (by omega)⟩

/-- No trampoline is made for a bridge in the step that puts it under its name. -/
theorem Lives.made_after {t : Trampoline} (h : c.Lives name m n) {i : Nat} (hi : m ≤ i)
    (ht : (c.state i).made name = some t) : m < i := by
  rcases Nat.lt_or_eq_of_le hi with hlt | rfl
  · exact hlt
  · obtain ⟨b, ho⟩ := h.2.1
    obtain ⟨_, _, ho', -, -⟩ := State.made_eq_some ht
    rw [ho] at ho'
    cases ho'

/-- What holds of a bridge when it is put under its name, and is kept by every step, holds as long
    as it lives. -/
theorem Lives.invariant {P : Nat → Bridge → Prop}
    (opened : ∀ b, (c.state m).op? = some (.newBridge name b) → b.listeners = [] → P (m + 1) b)
    (step : ∀ j b', m < j → j < n → (∀ b, (c.state j).world.bridges.get? name = some b → P j b) →
      Remade (c.state j) name b' → ¬ (c.state j).Replaces name → P (j + 1) b')
    (hl : c.Lives name m n) (hn : n ≤ c.length) (hb : (c.state n).world.bridges.get? name = some b) : P n b := by
  have upto (j : Nat) (hmj : m < j) (hjn : j ≤ n) :
      ∀ b, (c.state j).world.bridges.get? name = some b → P j b := by
    induction hmj with
    | refl =>
      intro b hb
      have hr := c.remade (by omega : m < c.length) hb
      obtain ⟨b₀, ho⟩ := hl.2.1
      rcases hr.opened_or with ho' | ⟨hr', -⟩
      · refine opened b ho' ?_
        have typed := (c.allowed (by omega : m < c.length) ho').1
        exact typed.1
      · exact absurd (Or.inl ⟨b₀, ho⟩) hr'
    | @step j hmj ih =>
      intro b hb
      have hmj' : m < j := hmj
      exact step j b hmj' (by omega) (ih (by omega)) (c.remade (by omega) hb) (hl.2.2 j hmj' (by omega))
  exact upto n hl.1 (Nat.le_refl n) b hb

/-- What stands under a name was put there by a step, and has not been replaced since. -/
theorem lives (hn : n ≤ c.length) (hb : (c.state n).world.bridges.get? name = some b) : ∃ m, c.Lives name m n := by
  induction n generalizing b with
  | zero =>
    obtain ⟨mode, h⟩ := c.start
    rw [h] at hb
    cases hb
  | succ n ih =>
    rcases (c.remade hn hb).opened_or with ho | ⟨hr, b', hg, -⟩
    · exact ⟨n, Nat.lt_succ_self n, ⟨b, ho⟩, fun i hi hin => by omega⟩
    · obtain ⟨m, hm, hb₀, hno⟩ := ih (Nat.le_of_lt hn) hg
      refine ⟨m, Nat.lt_succ_of_lt hm, hb₀, fun i hi hin => ?_⟩
      rcases Nat.lt_or_eq_of_le (Nat.le_of_lt_succ hin) with hlt | rfl
      · exact hno i hi hlt
      · exact hr

theorem Lives.same (hl : c.Lives name m n) (hn : n ≤ c.length) (hb : (c.state n).world.bridges.get? name = some b) :
    ∃ b₀, (c.state m).op? = some (.newBridge name b₀) ∧ b.Same b₀ := by
  refine Lives.invariant c (P := fun _ b => ∃ b₀, (c.state m).op? = some (.newBridge name b₀) ∧ b.Same b₀)
    (fun b ho _ => ⟨b, ho, rfl, rfl, rfl, rfl⟩) (fun j b' _ _ ih hr hno => ?_) hl hn hb
  rcases hr.opened_or with ho | ⟨-, b, hg, hs⟩
  · exact absurd (Or.inl ⟨b', ho⟩) hno
  · obtain ⟨b₀, ho, hs'⟩ := ih b hg
    exact ⟨b₀, ho, hs.1.trans hs'.1, hs.2.1.trans hs'.2.1, hs.2.2.1.trans hs'.2.2.1, hs.2.2.2.trans hs'.2.2.2⟩

/-- The list of a bridge holds only what was made for it, in the order in which it was made. -/
theorem Lives.listed (hl : c.Lives name m n) (hn : n ≤ c.length) (hb : (c.state n).world.bridges.get? name = some b) :
    b.listeners.Sublist (c.made name m n) := by
  refine Lives.invariant c (P := fun j b => b.listeners.Sublist (c.made name m j))
    (fun b _ hnone => hnone ▸ List.nil_sublist _) (fun j b' hmj _ ih hr hno => ?_) hl hn hb
  rw [c.made_succ (Nat.le_of_lt hmj)]
  have none {op : Op} (ho : (c.state j).op? = some op) (hop : ∀ n b handler, op ≠ .subscribe n b handler) :
      (c.state j).made name = none := by
    rcases hm : (c.state j).made name with _ | t
    · rfl
    · obtain ⟨b, handler, ho', -, -⟩ := State.made_eq_some hm
      rw [ho] at ho'
      exact absurd (Option.some.inj ho') (hop _ _ _)
  cases hr with
  | kept hg hm => simpa [hm] using ih _ hg
  | opened ho => exact absurd (Or.inl ⟨_, ho⟩) hno
  | subscribed hg hm => exact hm ▸ (ih _ hg).append (List.Sublist.refl _)
  | unsubscribed hg ho => exact ((List.filter_sublist).trans (ih _ hg)).trans (List.sublist_append_left _ _)
  | closed => exact List.nil_sublist _

/-- A trampoline of a bridge is registered for that bridge's object and event, nowhere else. -/
theorem Lives.placed (hl : c.Lives name m n) (hn : n ≤ c.length) (hb : (c.state n).world.bridges.get? name = some b)
    {r : Registration} {t : Trampoline} (hr : r ∈ (c.state n).world.toolkit.registrations) (ht : r.callback = .trampoline t)
    (hm : t ∈ c.made name m n) : r = b.registration t := by
  obtain ⟨i, name', b', hi, hg, hmade, rfl⟩ := c.came_from hn hr ht
  obtain ⟨j, hmj, hjn, hmade'⟩ := c.mem_made.mp hm
  obtain ⟨rfl, rfl, -⟩ := c.made_inj (by omega) (by omega) hmade hmade' rfl
  obtain ⟨b₀, ho, hs⟩ := hl.same c hn hb
  have earlier := hl.before c (hl.made_after c hmj hmade') (Nat.le_of_lt hjn)
  obtain ⟨b₁, ho', hs'⟩ := earlier.same c (by omega) hg
  rw [ho] at ho'
  cases ho'
  rw [hs.registration, hs'.registration]

/-- Taking trampolines of the list back filters them out of the registrations. -/
theorem Lives.withdrawn (hl : c.Lives name m n) (hn : n < c.length) (hb : (c.state n).world.bridges.get? name = some b)
    {ts : List Trampoline} {o : Option Bridge} (hts : ts ⊆ b.listeners)
    (hd : (c.state n).deeds = .bridged name o :: b.withdrawing ts) :
    (c.state (n + 1)).world.toolkit.registrations = (c.state n).world.toolkit.registrations.filter (!·.isOf ts) := by
  rw [(c.step_tells hn).registrations, hd]
  refine (onRegistrations_withdrawing b ts (c.nodup_enlisted (Nat.le_of_lt hn))).trans (List.filter_congr fun r hr => ?_)
  have same : r ∈ ts.map b.registration ↔ r.isOf ts = true := by
    rw [Registration.isOf_iff, List.mem_map]
    constructor
    · rintro ⟨t, ht, rfl⟩
      exact ⟨t, ht, rfl⟩
    · rintro ⟨t, ht, hc⟩
      have mine := (hl.listed c (Nat.le_of_lt hn) hb).subset (hts ht)
      exact ⟨t, ht, (hl.placed c (Nat.le_of_lt hn) hb hr hc mine).symm⟩
  rw [Bool.eq_iff_iff]
  simp [same]

/-- A trampoline that has been taken back is not registered. -/
theorem not_enlisted {rs : List Registration} {ts : List Trampoline} {t : Trampoline} (ht : t ∈ ts) :
    t ∉ enlisted (rs.filter (!·.isOf ts)) := by
  intro hm
  obtain ⟨r, hr, hc⟩ := mem_enlisted.mp hm
  have kept := (List.mem_filter.mp hr).2
  rw [Registration.isOf_iff.mpr ⟨t, ht, hc⟩] at kept
  cases kept

theorem closing_eq (hn : n ≤ c.length) (hb : (c.state n).world.bridges.get? name = some b) :
    b.closing = b.withdrawing b.listeners := by
  unfold Bridge.closing
  split
  · rename_i hs
    rw [(c.numbered hn).shut name b hb hs]
    rfl
  · rfl

/-- While the bridge is not detached, what is registered of its trampolines is in its list. -/
theorem Lives.listed_of_enlisted (hl : c.Lives name m n) (hn : n ≤ c.length)
    (hb : (c.state n).world.bridges.get? name = some b) (hd : ¬ c.Detached name m n) {t : Trampoline}
    (ht : t ∈ enlisted (c.state n).world.toolkit.registrations) (hm : t ∈ c.made name m n) : t ∈ b.listeners := by
  have detached (j : Nat) (b : Bridge) (hmj : m < j) (hjn : j < n) : (c.state j).op? ≠ some (.detach name b) :=
    fun ho => hd ⟨j, b, hmj, hjn, ho⟩
  refine Lives.invariant c (P := fun j b => ∀ t, t ∈ enlisted (c.state j).world.toolkit.registrations →
    t ∈ c.made name m j → t ∈ b.listeners) (fun b ho _ t _ hm => ?_) (fun j b' hmj hjn ih hr hno t ht hm => ?_) hl hn hb t ht hm
  · obtain ⟨i, hmi, hi, hmade⟩ := c.mem_made.mp hm
    obtain rfl : i = m := by omega
    obtain ⟨_, _, ho', -, -⟩ := State.made_eq_some hmade
    rw [ho] at ho'
    cases ho'
  · have hj : j < c.length := by omega
    have here : c.Lives name m j := hl.before c hmj (by omega)
    rw [c.made_succ (Nat.le_of_lt hmj), List.mem_append] at hm
    rcases hm with hm | hm
    · -- it was registered before, since this step makes no trampoline twice
      have before : t ∈ enlisted (c.state j).world.toolkit.registrations := by
        rw [(c.step_tells hj).registrations] at ht
        rcases List.mem_append.mp ((enlisted_onRegistrations _ _).subset ht) with h | h
        · exact h
        · obtain ⟨i, -, hi, hmade⟩ := c.mem_made.mp hm
          rcases c.recruits_step hj with hr | ⟨name', t', hmade', hr⟩
          · rw [hr] at h
            cases h
          · rw [hr] at h
            cases List.mem_singleton.mp h
            have := (c.made_inj (by omega) hj hmade hmade' rfl).1
            omega
      cases hr with
      | kept hg => exact ih _ hg t before hm
      | opened ho => exact absurd (Or.inl ⟨_, ho⟩) hno
      | subscribed hg => exact List.mem_append_left _ (ih _ hg t before hm)
      | unsubscribed hg ho =>
        have hl' := ih _ hg t before hm
        refine List.mem_filter.mpr ⟨hl', ?_⟩
        simp only [ne_eq, decide_eq_true_eq]
        intro e
        rw [here.withdrawn c hj hg (List.filter_subset_self _) (State.deeds_of_op ho)] at ht
        exact not_enlisted (List.mem_filter.mpr ⟨hl', by simpa using e⟩) ht
      | closed hg ho =>
        rcases ho with ho | ho
        · have deeds : (c.state j).deeds = .bridged name (some _) :: _ :=
            (State.deeds_of_op ho).trans (congrArg _ (c.closing_eq (Nat.le_of_lt hj) hg))
          rw [here.withdrawn c hj hg (List.Subset.refl _) deeds] at ht
          exact absurd ht (not_enlisted (ih _ hg t before hm))
        · exact absurd ho (detached j _ hmj hjn)
    · obtain ⟨b, -, rfl, -⟩ := hr.of_made (Option.mem_toList.mp hm)
      exact List.mem_append_right _ (List.mem_singleton_self t)

/-- A trampoline of the list is registered, unless the object has been destroyed since it was made. -/
theorem Lives.enlisted_of_listed (hl : c.Lives name m n) (hn : n ≤ c.length)
    (hb : (c.state n).world.bridges.get? name = some b) {j : Nat} (hs : c.Spares b.handle j n) {t : Trampoline}
    (ht : t ∈ b.listeners) (hm : t ∈ c.made name j n) : b.registration t ∈ (c.state n).world.toolkit.registrations := by
  obtain ⟨b₀, ho₀, same⟩ := hl.same c hn hb
  have spared : c.Spares b₀.handle j n := same.2.1 ▸ hs
  refine Lives.invariant c (P := fun i b => ∀ t ∈ b.listeners, t ∈ c.made name j i →
    b.registration t ∈ (c.state i).world.toolkit.registrations) (fun b _ hnone t ht => by rw [hnone] at ht; cases ht)
    (fun i b' hmi hin ih hr hno t ht hm => ?_) hl hn hb t ht hm
  have hi : i < c.length := by omega
  have here : c.Lives name m i := hl.before c hmi (by omega)
  have hji : j ≤ i := by
    obtain ⟨a, hja, hai, -⟩ := c.mem_made.mp hm
    omega
  rw [c.made_succ hji, List.mem_append] at hm
  rcases hm with hm | hm
  · obtain ⟨a, hja, hai, hmade⟩ := c.mem_made.mp hm
    -- what is registered of an older trampoline stays where nothing takes it back
    have stays {b : Bridge} (hg : (c.state i).world.bridges.get? name = some b) (ht : t ∈ b.listeners)
        (hkept : .removed (b.registration t) ∉ (c.state i).deeds) :
        b.registration t ∈ (c.state (i + 1)).world.toolkit.registrations := by
      rw [(c.step_tells hi).registrations]
      refine mem_onRegistrations (ih b hg t ht hm) hkept ?_
      obtain ⟨b₁, ho₁, same₁⟩ := here.same c (by omega) hg
      rw [ho₀] at ho₁
      cases ho₁
      show ∀ d ∈ (c.state i).deeds, ¬ d.Destroys b.handle
      rw [same₁.2.1]
      exact spared i hji hin
    -- only an operation about the bridge takes its trampolines back
    have mine {b : Bridge} (hr : .removed (b.registration t) ∈ (c.state i).deeds) : (c.state i).bridge? = some name := by
      obtain ⟨name', b', ha, hg', ht', -⟩ := c.removed_by hi hr rfl
      obtain ⟨m', hl'⟩ := c.lives (Nat.le_of_lt hi) hg'
      obtain ⟨a', -, ha', hmade'⟩ := c.mem_made.mp ((hl'.listed c (Nat.le_of_lt hi) hg').subset ht')
      obtain ⟨-, rfl, -⟩ := c.made_inj (by omega) (by omega) hmade hmade' rfl
      exact ha
    cases hr with
    | kept hg _ _ hsilent =>
      refine stays hg ht fun hr => ?_
      rw [hsilent (mine hr)] at hr
      cases hr
    | opened ho => exact absurd (Or.inl ⟨_, ho⟩) hno
    | subscribed hg hmade' hd =>
      rcases List.mem_append.mp ht with ht | ht
      · have kept := stays hg ht (by simp [hd])
        exact kept
      · cases List.mem_singleton.mp ht
        have := (c.made_inj (by omega) hi hmade hmade' rfl).1
        omega
    | unsubscribed hg ho =>
      obtain ⟨ht, hne⟩ := List.mem_filter.mp ht
      have kept := stays hg ht fun hr => by
        rw [State.deeds_of_op ho] at hr
        rcases List.mem_cons.mp hr with e | hr
        · cases e
        · obtain ⟨t', ht', e⟩ := Bridge.mem_withdrawing.mp hr
          cases e
          have taken := (List.mem_filter.mp ht').2
          simp only [decide_eq_true_eq] at hne taken
          exact hne taken
      exact kept
    | closed => cases ht
  · obtain ⟨b, -, rfl, hd⟩ := hr.of_made (Option.mem_toList.mp hm)
    rw [(c.step_tells hi).registrations, hd]
    exact List.mem_append_right _ (List.mem_singleton_self _)

/-! ## Both sides together -/

/-- The registered trampolines of a bridge, in order. -/
def own (name : String) (m n : Nat) (b : Bridge) : List Trampoline :=
  ((c.state n).world.toolkit.trampolines b.handle b.event).filter (· ∈ c.made name m n)

/-- How the bridge, put under its name by step `m`, and the toolkit agree in state `n`. -/
structure Agrees (name : String) (m n : Nat) (b : Bridge) : Prop where
  lives : c.Lives name m n
  same : ∃ b₀, (c.state m).op? = some (.newBridge name b₀) ∧ b.Same b₀
  listed : b.listeners.Sublist (c.made name m n)
  placed : ∀ r ∈ (c.state n).world.toolkit.registrations, ∀ t ∈ c.made name m n, r.callback = .trampoline t →
    r = b.registration t
  /-- What is registered is part of the list. -/
  part : ¬ c.Detached name m n → (c.own name m n b).Sublist b.listeners
  /-- It is the whole list, where the object has not been destroyed since the first listener of the
      list was added. -/
  whole : ¬ c.Detached name m n → ∀ j, b.listeners ⊆ c.made name j n → c.Spares b.handle j n →
    c.own name m n b = b.listeners

/-- What the next step does to registrations if it is an operation about the bridge. -/
structure Works (name : String) (m n : Nat) (b : Bridge) : Prop where
  subscribe : ∀ handler, (c.state n).op? = some (.subscribe name b handler) → b.refusal? = none →
    ∃ t, t.handler = handler ∧ t ∉ c.made name m n ∧
      (c.state (n + 1)).world.toolkit.registrations = (c.state n).world.toolkit.registrations ++ [b.registration t] ∧
      (c.state (n + 1)).world.bridges.get? name = some (b.addListener t)
  refuse : ∀ handler, (c.state n).op? = some (.subscribe name b handler) → b.refusal? ≠ none →
    (c.state (n + 1)).world.toolkit.registrations = (c.state n).world.toolkit.registrations ∧
      (c.state (n + 1)).world.bridges.get? name = some b
  unsubscribe : ∀ handler, (c.state n).op? = some (.unsubscribe name b handler) →
    (c.state (n + 1)).world.toolkit.registrations =
      (c.state n).world.toolkit.registrations.filter (!·.isOf (b.listenersOf handler)) ∧
    (c.state (n + 1)).world.bridges.get? name = some (b.removeListeners handler) ∧
    (c.state (n + 1)).world.answer = .count (b.listenersOf handler).length
  /-- Shutting the bridge down, dropping it and replacing it. -/
  close : (c.state n).op? = some (.shutdown name b) ∨ (c.state n).Replaces name →
    (c.state (n + 1)).world.toolkit.registrations =
      (c.state n).world.toolkit.registrations.filter (!·.isOf b.listeners) ∧
    (¬ c.Detached name m n → (c.state (n + 1)).world.toolkit.registrations =
      (c.state n).world.toolkit.registrations.filter (!·.isOf (c.made name m n)))
  detach : (c.state n).op? = some (.detach name b) →
    (c.state (n + 1)).world.toolkit.registrations = (c.state n).world.toolkit.registrations ∧
      (c.state (n + 1)).world.bridges.get? name = some b.closed
  /-- What is not the bridge's stays, in its order. -/
  others : (c.state n).bridge? = some name →
    (c.state (n + 1)).world.toolkit.registrations.filter (!·.isOf (c.made name m (n + 1))) =
      (c.state n).world.toolkit.registrations.filter (!·.isOf (c.made name m (n + 1)))

variable {c}

theorem Lives.agrees (hl : c.Lives name m n) (hn : n ≤ c.length) (hb : (c.state n).world.bridges.get? name = some b) :
    c.Agrees name m n b := by
  have numbered := c.numbered hn
  have mine {t : Trampoline} (ht : t ∈ c.own name m n b) :
      t ∈ enlisted (c.state n).world.toolkit.registrations ∧ t ∈ c.made name m n := by
    obtain ⟨ht, hm⟩ := List.mem_filter.mp ht
    exact ⟨mem_enlisted.mpr ⟨_, Toolkit.mem_trampolines.mp ht, rfl⟩, by simpa using hm⟩
  have ordered : (c.own name m n b).Pairwise (·.serial < ·.serial) := by
    refine List.Pairwise.sublist List.filter_sublist ?_
    rw [Toolkit.trampolines_eq]
    exact numbered.enlisted.sublist (enlisted_sublist List.filter_sublist)
  have listeners := numbered.listeners name b hb
  have irrefl : Std.Irrefl fun a b : Trampoline => a.serial < b.serial := ⟨fun a => Nat.lt_irrefl _⟩
  have antisymm : Std.Antisymm fun a b : Trampoline => a.serial < b.serial :=
    ⟨fun a b h h' => absurd h' (Nat.lt_asymm h)⟩
  have sub (hd : ¬ c.Detached name m n) : c.own name m n b ⊆ b.listeners := fun t ht =>
    hl.listed_of_enlisted c hn hb hd (mine ht).1 (mine ht).2
  refine ⟨hl, hl.same c hn hb, hl.listed c hn hb, fun r hr t hm ht => hl.placed c hn hb hr ht hm, ?_, ?_⟩
  · intro hd
    exact List.sublist_of_subperm_of_pairwise (List.subperm_of_subset ordered.nodup (sub hd)) ordered listeners
  · intro hd j hj hs
    refine List.Subset.antisymm_of_pairwise ordered listeners (sub hd) fun t ht => ?_
    refine List.mem_filter.mpr ⟨Toolkit.mem_trampolines.mpr (hl.enlisted_of_listed c hn hb hs ht (hj ht)), ?_⟩
    simpa using (hl.listed c hn hb).subset ht

/-- When the bridge ends, all that is in its list is withdrawn. -/
theorem deeds_closing (hn : n ≤ c.length) (hb : (c.state n).world.bridges.get? name = some b)
    (ends : (c.state n).op? = some (.shutdown name b) ∨ (c.state n).Replaces name) :
    ∃ o, (c.state n).deeds = .bridged name o :: b.withdrawing b.listeners := by
  have closing := c.closing_eq hn hb
  have closingOf : (c.state n).world.closingOf name = b.withdrawing b.listeners := by
    simp only [World.closingOf, hb, Option.map_some, Option.getD_some, closing]
  rcases ends with ho | ⟨b', ho⟩ | ho
  · exact ⟨some b.closed, (State.deeds_of_op ho).trans (congrArg _ closing)⟩
  · exact ⟨some b', (State.deeds_of_op ho).trans (congrArg _ closingOf)⟩
  · exact ⟨none, (State.deeds_of_op ho).trans (congrArg _ closingOf)⟩

/-- Closing the bridge takes back what is in its list, which is all that is registered of it unless
    it has been detached. -/
theorem Lives.closed (hl : c.Lives name m n) (hn : n < c.length) (hb : (c.state n).world.bridges.get? name = some b)
    (ho : (c.state n).op? = some (.shutdown name b) ∨ (c.state n).Replaces name) :
    (c.state (n + 1)).world.toolkit.registrations =
      (c.state n).world.toolkit.registrations.filter (!·.isOf b.listeners) ∧
    (¬ c.Detached name m n → (c.state (n + 1)).world.toolkit.registrations =
      (c.state n).world.toolkit.registrations.filter (!·.isOf (c.made name m n))) := by
  obtain ⟨o, deeds⟩ := c.deeds_closing (Nat.le_of_lt hn) hb ho
  have taken := hl.withdrawn c hn hb (List.Subset.refl _) deeds
  refine ⟨taken, fun hd => taken.trans (List.filter_congr fun r hr => ?_)⟩
  have same : r.isOf b.listeners = true ↔ r.isOf (c.made name m n) = true := by
    rw [Registration.isOf_iff, Registration.isOf_iff]
    constructor
    · rintro ⟨t, ht, hc⟩
      exact ⟨t, (hl.listed c (Nat.le_of_lt hn) hb).subset ht, hc⟩
    · rintro ⟨t, ht, hc⟩
      exact ⟨t, hl.listed_of_enlisted c (Nat.le_of_lt hn) hb hd (mem_enlisted.mpr ⟨r, hr, hc⟩) ht, hc⟩
  rw [Bool.eq_iff_iff.mpr same]

/-- Registrations of trampolines are all that an operation about a bridge adds or takes back. -/
theorem filter_withdrawn {rs : List Registration} {ts us : List Trampoline} (h : ts ⊆ us) :
    (rs.filter (!·.isOf ts)).filter (!·.isOf us) = rs.filter (!·.isOf us) := by
  rw [List.filter_filter]
  refine List.filter_congr fun r _ => ?_
  cases hu : r.isOf us
  · have ht : r.isOf ts = false := by
      rw [Bool.eq_false_iff]
      intro ht
      obtain ⟨t, hm, hc⟩ := Registration.isOf_iff.mp ht
      rw [Registration.isOf_iff.mpr ⟨t, h hm, hc⟩] at hu
      cases hu
    simp [ht]
  · simp

theorem Lives.works (hl : c.Lives name m n) (hn : n < c.length) (hb : (c.state n).world.bridges.get? name = some b) :
    c.Works name m n b := by
  have hn' := Nat.le_of_lt hn
  have step := c.step_tells hn
  have silent (hd : (c.state n).deeds = []) :
      (c.state (n + 1)).world.toolkit.registrations = (c.state n).world.toolkit.registrations ∧
        (c.state (n + 1)).world.bridges.get? name = some b := by
    rw [step.registrations, step.bridges, hd]
    exact ⟨rfl, hb⟩
  have subscribe (handler : String) (ho : (c.state n).op? = some (.subscribe name b handler)) (hr : b.refusal? = none) :
      (c.state n).made name = some (b.trampoline (c.state n).world.nextTrampoline handler) ∧
        (c.state (n + 1)).world.toolkit.registrations = (c.state n).world.toolkit.registrations ++
          [b.registration (b.trampoline (c.state n).world.nextTrampoline handler)] ∧
        (c.state (n + 1)).world.bridges.get? name =
          some (b.addListener (b.trampoline (c.state n).world.nextTrampoline handler)) := by
    refine ⟨by simp [State.made, ho, hr], ?_, ?_⟩
    · rw [step.registrations, State.deeds_of_op ho]
      simp only [Op.deeds, hr]
      rfl
    · rw [step.bridges, State.deeds_of_op ho]
      simp [Op.deeds, hr, Deed.onBridge]
  have refuse (handler : String) (ho : (c.state n).op? = some (.subscribe name b handler)) (hr : b.refusal? ≠ none) :
      (c.state n).deeds = [] := by
    obtain ⟨e, he⟩ := Option.ne_none_iff_exists'.mp hr
    rw [State.deeds_of_op ho]
    simp only [Op.deeds, he]
  have unsubscribe (handler : String) (ho : (c.state n).op? = some (.unsubscribe name b handler)) :
      (c.state (n + 1)).world.toolkit.registrations =
        (c.state n).world.toolkit.registrations.filter (!·.isOf (b.listenersOf handler)) :=
    hl.withdrawn c hn hb (List.filter_subset_self _) (State.deeds_of_op ho)
  have detach (ho : (c.state n).op? = some (.detach name b)) :
      (c.state (n + 1)).world.toolkit.registrations = (c.state n).world.toolkit.registrations := by
    rw [step.registrations, State.deeds_of_op ho]
    rfl
  have ours : b.listeners ⊆ c.made name m (n + 1) := by
    rw [c.made_succ (Nat.le_of_lt hl.1)]
    exact fun t ht => List.mem_append_left _ ((hl.listed c hn' hb).subset ht)
  refine ⟨?_, fun handler ho hr => silent (refuse handler ho hr), fun handler ho => ⟨unsubscribe handler ho, ?_, ?_⟩,
    hl.closed hn hb, fun ho => ⟨detach ho, ?_⟩, ?_⟩
  · intro handler ho hr
    obtain ⟨hm, hr, hb'⟩ := subscribe handler ho hr
    refine ⟨_, rfl, fun hmem => ?_, hr, hb'⟩
    obtain ⟨i, -, hi, hm'⟩ := c.mem_made.mp hmem
    have := (c.made_inj (by omega) hn hm' hm rfl).1
    omega
  · rw [step.bridges, State.deeds_of_op ho]
    simp only [Op.deeds, List.foldl_cons, onBridge_withdrawing, Deed.onBridge, if_true]
  · rw [(c.performed hn ho).2]
    rfl
  · rw [step.bridges, State.deeds_of_op ho]
    simp [Op.deeds, Deed.onBridge]
  · intro ha
    obtain ⟨op, ho, hop⟩ := Option.bind_eq_some_iff.mp ha
    have typed := (c.allowed hn ho).1
    -- the bridge that the operation names is the one that stands under the name
    have here {b' : Bridge} (h : (c.state n).world.bridges.get? name = some b') : b' = b :=
      Option.some.inj (h.symm.trans hb)
    cases op with
    | newBridge n' b' =>
      cases hop
      rw [(hl.closed hn hb (Or.inr (Or.inl ⟨b', ho⟩))).1]
      exact filter_withdrawn ours
    | dropBridge n' =>
      cases hop
      rw [(hl.closed hn hb (Or.inr (Or.inr ho))).1]
      exact filter_withdrawn ours
    | subscribe n' b' handler =>
      cases hop
      obtain rfl := here typed
      by_cases hr : b'.refusal? = none
      · obtain ⟨hm, hr, -⟩ := subscribe handler ho hr
        rw [hr, List.filter_append]
        have new : (b'.registration (b'.trampoline (c.state n).world.nextTrampoline handler)).isOf
            (c.made name m (n + 1)) = true := by
          refine Registration.isOf_iff.mpr ⟨_, ?_, rfl⟩
          rw [c.made_succ (Nat.le_of_lt hl.1), hm]
          exact List.mem_append_right _ (List.mem_singleton_self _)
        simp [new]
      · rw [(silent (refuse handler ho hr)).1]
    | unsubscribe n' b' handler =>
      cases hop
      obtain rfl := here typed
      rw [unsubscribe handler ho]
      exact filter_withdrawn fun t ht => ours (List.mem_of_mem_filter ht)
    | shutdown n' b' =>
      cases hop
      obtain rfl := here typed
      rw [(hl.closed hn hb (Or.inl ho)).1]
      exact filter_withdrawn ours
    | detach n' b' =>
      cases hop
      obtain rfl := here typed
      rw [detach ho]
    | _ => cases hop

end Course

/-- In every run, with any number of bridges and callbacks of the program's own, whatever handlers
    do:
    - what the toolkit has registered for a signal is what was added for it since its object was
      last destroyed and has not been removed, in order of addition;
    - every bridge agrees with the toolkit, and an operation about it adds or takes back its own
      registrations only (`Course.Agrees`, `Course.Works`);
    - a trampoline is made by one step, for one bridge, so none is another bridge's own as well;
    - an operation about a name under which no bridge stands leaves registrations alone. -/
theorem bridges_agree_with_the_toolkit (c : Course .free) {n : Nat} (hn : n ≤ c.length) :
    (∀ object event, (c.state n).world.toolkit.listeners object event = standing object event (c.chronicle n)) ∧
    (∀ name b, (c.state n).world.bridges.get? name = some b →
      ∃ m, c.Agrees name m n b ∧ (n < c.length → c.Works name m n b)) ∧
    (∀ i j name name' t, i < n → j < n → (c.state i).made name = some t → (c.state j).made name' = some t →
      i = j ∧ name = name') ∧
    ∀ name, n < c.length → (c.state n).bridge? = some name → (c.state n).world.bridges.get? name = none →
      (c.state (n + 1)).world.toolkit.registrations = (c.state n).world.toolkit.registrations := by
  refine ⟨c.listeners_eq hn, ?_, ?_, ?_⟩
  · intro name b hb
    obtain ⟨m, hl⟩ := c.lives hn hb
    exact ⟨m, hl.agrees hn hb, fun hlt => hl.works hlt hb⟩
  · intro i j name name' t hi hj hm hm'
    obtain ⟨hij, hname, -⟩ := c.made_inj (by omega) (by omega) hm hm' rfl
    exact ⟨hij, hname⟩
  · intro name hlt ha hnone
    obtain ⟨op, ho, hop⟩ := Option.bind_eq_some_iff.mp ha
    have typed := (c.allowed hlt ho).1
    rw [(c.step_tells hlt).registrations]
    refine World.foldl_still fun d hd => ?_
    rw [State.deeds_of_op ho] at hd
    rcases mem_deeds_bridge ho typed hop hd with ⟨b, rfl⟩ | ⟨b, _, _, -, hg, -, -⟩ | ⟨b, _, hg, -, -⟩
    · rfl
    · rw [hnone] at hg
      cases hg
    · rw [hnone] at hg
      cases hg

/-- A bridge that delivers a button's clicks, without subscriptions. -/
def clicks (parser : Parser) : Bridge := .fresh ⟨0, "s"⟩ ⟨0x1000⟩ "clicked" parser

/-- The same bridge when one handler has been subscribed twice, with another bridge's subscription in
    between. -/
def twice : Bridge :=
  ((clicks .unit).addListener ((clicks .unit).trampoline 0 "f")).addListener ((clicks .unit).trampoline 2 "f")

/-- Two bridges of one sender and a callback of the program's own listen to one signal of one
    object. -/
def shared : World :=
  [Op.newSender "s", .createObject, .newBridge "a" (clicks .unit), .newBridge "b" (clicks .raw), .subscribe "a" (clicks .unit) "f",
    .subscribe "b" (clicks .raw) "f", .subscribe "a" ((clicks .unit).addListener ((clicks .unit).trampoline 0 "f")) "f",
    .native (.callbackAdd ⟨0x1000⟩ "clicked" (.program "p"))].foldl
    (fun w op => (w.perform op).1) (.start .synchronous)

theorem reach_shared : Reach .free ⟨shared, []⟩ := by
  have start : Reach .free ⟨.start .synchronous, []⟩ := .start _
  have sender := (start.call 4 (fun _ => .newSender "s")).perform mover ⟨trivial, trivial⟩
  have button := (sender.call 4 (fun _ => .createObject)).perform mover ⟨trivial, Or.inl trivial⟩
  have one := (button.call 4 (fun _ => .newBridge "a" (clicks .unit))).perform mover ⟨⟨rfl, rfl⟩, trivial⟩
  have both := (one.call 4 (fun _ => .newBridge "b" (clicks .raw))).perform mover ⟨⟨rfl, rfl⟩, trivial⟩
  have first := (both.call 4 (fun _ => .subscribe "a" (clicks .unit) "f")).perform mover ⟨rfl, trivial⟩
  have second := (first.call 4 (fun _ => .subscribe "b" (clicks .raw) "f")).perform mover ⟨rfl, trivial⟩
  have third := (second.call 4 (fun _ =>
    .subscribe "a" ((clicks .unit).addListener ((clicks .unit).trampoline 0 "f")) "f")).perform mover ⟨rfl, trivial⟩
  exact (third.call 4 (fun _ => .native (.callbackAdd ⟨0x1000⟩ "clicked" (.program "p")))).perform mover
    ⟨fun _ => by simp, trivial⟩

/-- Unsubscribing the handler takes both its trampolines back, and leaves the other bridge's, made
    between them, and the program's callback. -/
theorem both_are_taken_back : ∃ (c : Course .free) (n : Nat), n < c.length ∧
    (c.state n).op? = some (.unsubscribe "a" twice "f") ∧
    (c.state n).world.toolkit.registrations = [(clicks .unit).registration ((clicks .unit).trampoline 0 "f"),
      (clicks .raw).registration ((clicks .raw).trampoline 1 "f"),
      (clicks .unit).registration ((clicks .unit).trampoline 2 "f"), ⟨⟨0x1000⟩, "clicked", .program "p"⟩] ∧
    (c.state (n + 1)).world.toolkit.registrations = [(clicks .raw).registration ((clicks .raw).trampoline 1 "f"),
      ⟨⟨0x1000⟩, "clicked", .program "p"⟩] ∧
    (c.state (n + 1)).world.answer = .count 2 := by
  have due := reach_shared.call 4 (fun _ => .unsubscribe "a" twice "f")
  obtain ⟨c, hc⟩ := due.course
  have turn : Turn .free (c.state c.length) ⟨(shared.perform (.unsubscribe "a" twice "f")).1, []⟩ := by
    rw [hc]
    exact .mk mover shared _ [] fun choose e => by cases e; exact ⟨rfl, trivial⟩
  let d := c.snoc _ (.turn turn)
  have now : d.state c.length = ⟨shared, [⟨4, .act fun _ => .unsubscribe "a" twice "f"⟩]⟩ := (if_pos (Nat.le_refl _)).trans hc
  have later : c.length < d.length := Nat.lt_succ_self _
  obtain ⟨-, agree, -⟩ := bridges_agree_with_the_toolkit d (Nat.le_of_lt later)
  have stands : (d.state c.length).world.bridges.get? "a" = some twice := by rw [now]; rfl
  have op : (d.state c.length).op? = some (.unsubscribe "a" twice "f") := by rw [now]; rfl
  obtain ⟨m, -, works⟩ := agree "a" twice stands
  obtain ⟨left, -, told⟩ := (works later).unsubscribe "f" op
  refine ⟨d, c.length, later, op, by rw [now]; rfl, ?_, told⟩
  rw [left, now]
  decide

end HandleBridge
