/-
  HandleBridge.Proofs.BridgeLife — from the first subscription of a bridge to its end.

  A trampoline enters the list of its bridge when a subscription makes it, and leaves it once: it is
  taken back (`State.TakesBack`: its handler is unsubscribed, or the bridge is shut down, dropped or
  replaced), or it is forgotten (`State.Detaches`). These may follow each other in any order, from
  handlers in the middle of a fire as well. The calls across the boundary that name the trampoline
  (`World.dealings`) tell which.
  - `Course.lists_succ_iff`, `Course.telling_taken`, `Course.fate`: what becomes of a listed trampoline in
    one step, with the call that the step makes about it.
  - `Course.unlisted`: what has left the list does not come back.
  - `Course.settled`: over a run, one call registers the trampoline and one takes it back, if it has been
    taken back.
  - `World.perform_shut`: a bridge that is shut down takes part in no call, and stays as it is.
  - `lifetime_of_a_bridge`.
-/
import HandleBridge.Proofs.Dealings
import HandleBridge.Proofs.Subscriptions

namespace HandleBridge

/-! ## Entering the list and leaving it -/

/-- The trampoline is in the list of the bridge that stands under the name. -/
def World.Lists (w : World) (name : String) (t : Trampoline) : Prop := ∃ b, w.bridges.get? name = some b ∧ t ∈ b.listeners

namespace State

/-- A listed trampoline is about to be taken back: its handler is unsubscribed, or its bridge is shut
    down, dropped or replaced. -/
def TakesBack (s : State) (name : String) (t : Trampoline) : Prop :=
  ∃ b, s.world.bridges.get? name = some b ∧ t ∈ b.listeners ∧
    (s.op? = some (.unsubscribe name b t.handler) ∨ s.op? = some (.shutdown name b) ∨ s.Replaces name)

/-- The bridge of a listed trampoline is about to be detached. -/
def Detaches (s : State) (name : String) (t : Trampoline) : Prop :=
  ∃ b, s.world.bridges.get? name = some b ∧ t ∈ b.listeners ∧ s.op? = some (.detach name b)

theorem TakesBack.lists {s : State} {name : String} {t : Trampoline} (h : s.TakesBack name t) : s.world.Lists name t := by
  obtain ⟨b, hb, ht, -⟩ := h
  exact ⟨b, hb, ht⟩

theorem Detaches.lists {s : State} {name : String} {t : Trampoline} (h : s.Detaches name t) : s.world.Lists name t := by
  obtain ⟨b, hb, ht, -⟩ := h
  exact ⟨b, hb, ht⟩

/-- Both are done by operations about the bridge. -/
theorem TakesBack.about {s : State} {name : String} {t : Trampoline} (h : s.TakesBack name t) : s.bridge? = some name := by
  obtain ⟨b, -, -, ho | ho | ho⟩ := h
  · simp [bridge?, ho, Op.bridge?]
  · simp [bridge?, ho, Op.bridge?]
  · exact bridge_of_replaces ho

theorem Detaches.about {s : State} {name : String} {t : Trampoline} (h : s.Detaches name t) : s.bridge? = some name := by
  obtain ⟨b, -, -, ho⟩ := h
  simp [bridge?, ho, Op.bridge?]

/-- Where a handler is unsubscribed, its trampolines are taken back. -/
theorem takesBack_unsubscribe {s : State} {name : String} {t : Trampoline} {b : Bridge} {handler : String}
    (ho : s.op? = some (.unsubscribe name b handler)) (hb : s.world.bridges.get? name = some b) (ht : t ∈ b.listeners) :
    s.TakesBack name t ↔ t.handler = handler := by
  constructor
  · intro h
    simp only [TakesBack, Replaces, ho, Option.some.injEq, reduceCtorEq, exists_false, or_false, Op.unsubscribe.injEq] at h
    obtain ⟨-, -, -, -, -, h⟩ := h
    exact h.symm
  · intro h
    exact ⟨b, hb, ht, Or.inl (h ▸ ho)⟩

/-- The calls about a trampoline that are about to be made. -/
def telling (s : State) (t : Trampoline) : List NativeCall := s.deeds.filterMap (Deed.telling t)

end State

namespace Bridge

variable {t : Trampoline}

/-- The call that registers a trampoline of the bridge. -/
def adding (b : Bridge) (t : Trampoline) : NativeCall := .callbackAdd b.handle b.event (.trampoline t)

/-- The call that takes it back. -/
def taking (b : Bridge) (t : Trampoline) : NativeCall := .callbackDel b.handle b.event (.trampoline t)

/-- Closing it once more makes no difference. -/
theorem closed_of_shut {b : Bridge} (shut : b.isShutDown = true) (empty : b.listeners = []) : b.closed = b := by
  obtain ⟨sender, h, event, parser, listeners, isShutDown⟩ := b
  cases shut
  cases empty
  rfl

/-- Each trampoline that is withdrawn is taken back by one call. -/
theorem telling_withdrawing (b : Bridge) {ts : List Trampoline} (distinct : ts.Nodup) :
    (b.withdrawing ts).filterMap (Deed.telling t) = if t ∈ ts then [b.taking t] else [] := by
  induction ts with
  | nil => rfl
  | cons a ts ih =>
    obtain ⟨fresh, distinct⟩ := List.nodup_cons.mp distinct
    have head : b.withdrawing (a :: ts) = .removed (b.registration a) :: b.withdrawing ts := rfl
    rw [head, List.filterMap_cons, ih distinct]
    by_cases ha : a = t
    · subst ha
      simp [Deed.telling, registration, taking, fresh]
    · simp [Deed.telling, registration, ha, Ne.symm ha]

end Bridge

/-- Where no trampoline is added or removed, nothing is told. -/
theorem telling_nil {ds : List Deed} {t : Trampoline}
    (h : ∀ r, r.callback = .trampoline t → .added r ∉ ds ∧ .removed r ∉ ds) : ds.filterMap (Deed.telling t) = [] := by
  refine List.filterMap_eq_nil_iff.mpr fun d hd => ?_
  cases d with
  | added r =>
    by_cases hr : r.callback = .trampoline t
    · exact absurd hd (h r hr).1
    · obtain ⟨object, event, cb⟩ := r
      cases cb with
      | trampoline a => exact if_neg fun e => hr (congrArg _ e)
      | program name => rfl
  | removed r =>
    by_cases hr : r.callback = .trampoline t
    · exact absurd hd (h r hr).2
    · obtain ⟨object, event, cb⟩ := r
      cases cb with
      | trampoline a => exact if_neg fun e => hr (congrArg _ e)
      | program name => rfl
  | _ => rfl

namespace Course

variable {k : Conduct} (c : Course k) {name name' : String} {i n : Nat} {b b' : Bridge} {t : Trampoline}

theorem nodup_listeners (hn : n ≤ c.length) (hb : (c.state n).world.bridges.get? name = some b) : b.listeners.Nodup :=
  ((c.numbered hn).listeners name b hb).imp fun {a a'} h e => by
    rw [e] at h
    exact Nat.lt_irrefl _ h

/-- A listed trampoline was made for that bridge. -/
theorem made_of_lists (hn : n ≤ c.length) (h : (c.state n).world.Lists name t) : ∃ i < n, (c.state i).made name = some t := by
  obtain ⟨b, hb, ht⟩ := h
  obtain ⟨m, hl⟩ := c.lives hn hb
  obtain ⟨i, -, hi, hm⟩ := c.mem_made.mp ((hl.listed c hn hb).subset ht)
  exact ⟨i, hi, hm⟩

theorem lists_own (hi : i < c.length) (hm : (c.state i).made name = some t) (hn : n ≤ c.length)
    (h : (c.state n).world.Lists name' t) : name' = name ∧ i < n := by
  obtain ⟨j, hj, hm'⟩ := c.made_of_lists hn h
  obtain ⟨rfl, rfl, -⟩ := c.made_inj hi (by omega) hm hm' rfl
  exact ⟨rfl, hj⟩

/-- The bridge that lists a trampoline is the one for which it was made. -/
theorem same_bridge (hi : i < c.length) (hm : (c.state i).made name = some t)
    (hb : (c.state i).world.bridges.get? name = some b) (hn : n ≤ c.length)
    (hb' : (c.state n).world.bridges.get? name = some b') (ht : t ∈ b'.listeners) :
    b'.handle = b.handle ∧ b'.event = b.event := by
  obtain ⟨m, hl⟩ := c.lives hn hb'
  obtain ⟨j, hmj, hjn, hm'⟩ := c.mem_made.mp ((hl.listed c hn hb').subset ht)
  obtain ⟨rfl, -⟩ := c.made_inj hi (by omega) hm hm' rfl
  have earlier := hl.before c (hl.made_after c hmj hm) (Nat.le_of_lt hjn)
  obtain ⟨b₀, ho, -, handle, event, -⟩ := hl.same c hn hb'
  obtain ⟨b₁, ho', -, handle', event', -⟩ := earlier.same c (Nat.le_of_lt hi) hb
  rw [ho] at ho'
  cases ho'
  exact ⟨handle.trans handle'.symm, event.trans event'.symm⟩

/-- Only the step that makes a trampoline registers it. -/
theorem not_told_added (hi : i < c.length) (hm : (c.state i).made name = some t) (hn : n < c.length) (other : n ≠ i)
    {r : Registration} (hr : r.callback = .trampoline t) : .added r ∉ (c.state n).deeds := by
  intro hd
  obtain ⟨name', b, -, hm', -⟩ := c.added_by hn hd hr
  exact other (c.made_inj hn hi hm' hm rfl).1

/-- A step about a bridge is one operation, and does its deeds. -/
theorem op_about (about : (c.state n).bridge? = some name) (hn : n < c.length) :
    ∃ op, (c.state n).op? = some op ∧ op.bridge? = some name ∧ op.Typed (c.state n).world ∧
      (c.state n).deeds = op.deeds (c.state n).world ∧ (c.state (n + 1)).world.bridges.get? name =
        (op.deeds (c.state n).world).foldl (Deed.onBridge name) ((c.state n).world.bridges.get? name) := by
  obtain ⟨op, ho, hop⟩ := Option.bind_eq_some_iff.mp about
  have deeds := State.deeds_of_op ho
  exact ⟨op, ho, hop, (c.allowed hn ho).1, deeds, deeds ▸ (c.step_tells hn).bridges name⟩

/-- A trampoline is removed by a step that takes it back. -/
theorem takesBack_of_removed (hn : n < c.length) {r : Registration} (hd : .removed r ∈ (c.state n).deeds)
    (hr : r.callback = .trampoline t) : ∃ name, (c.state n).TakesBack name t := by
  obtain ⟨name, b, about, hb, ht, rfl⟩ := c.removed_by hn hd hr
  refine ⟨name, b, hb, ht, ?_⟩
  obtain ⟨op, ho, hop, typed, deeds, -⟩ := c.op_about about hn
  rw [deeds] at hd
  cases op with
  | newBridge a b' =>
    cases hop
    exact Or.inr (Or.inr (Or.inl ⟨b', ho⟩))
  | dropBridge a =>
    cases hop
    exact Or.inr (Or.inr (Or.inr ho))
  | shutdown a b' =>
    cases hop
    cases hb.symm.trans typed
    exact Or.inr (Or.inl ho)
  | unsubscribe a b' handler =>
    cases hop
    cases hb.symm.trans typed
    simp only [Op.deeds, List.mem_cons, reduceCtorEq, false_or] at hd
    obtain ⟨t', hm, e⟩ := Bridge.mem_withdrawing.mp hd
    cases e
    have mine : t.handler = handler := by simpa using (List.mem_filter.mp hm).2
    exact Or.inl (mine ▸ ho)
  | subscribe a b' handler => rcases hr : b'.refusal? with _ | e <;> simp [Op.deeds, hr] at hd
  | detach a b' => simp [Op.deeds] at hd
  | _ => cases hop

/-- Nothing is told about a trampoline by a step other than the one that makes it, unless it takes it
    back. -/
theorem untold (hi : i < c.length) (hm : (c.state i).made name = some t) (hn : n < c.length) (other : n ≠ i)
    (untaken : ¬ (c.state n).TakesBack name t) : (c.state n).telling t = [] := by
  refine telling_nil fun r hr => ⟨c.not_told_added hi hm hn other hr, fun hd => ?_⟩
  obtain ⟨name', taken⟩ := c.takesBack_of_removed hn hd hr
  obtain ⟨rfl, -⟩ := c.lists_own hi hm (Nat.le_of_lt hn) taken.lists
  exact untaken taken

/-- A trampoline in the list stays there in a step that neither takes it back nor detaches its bridge. -/
theorem lists_succ_iff (hn : n < c.length) (hb : (c.state n).world.bridges.get? name = some b) (ht : t ∈ b.listeners) :
    (c.state (n + 1)).world.Lists name t ↔ ¬ (c.state n).TakesBack name t ∧ ¬ (c.state n).Detaches name t := by
  by_cases about : (c.state n).bridge? = some name
  · obtain ⟨op, ho, hop, typed, -, bridges⟩ := c.op_about about hn
    have here {b' : Bridge} (h : (c.state n).world.bridges.get? name = some b') : b' = b := Option.some.inj (h.symm.trans hb)
    cases op with
    | newBridge a b' =>
      cases hop
      simp only [Op.deeds, List.foldl_cons, onBridge_closingOf, Deed.onBridge, if_true] at bridges
      refine iff_of_false ?_ fun stays => stays.1 ⟨b, hb, ht, Or.inr (Or.inr (Or.inl ⟨b', ho⟩))⟩
      simp [World.Lists, bridges, typed.1]
    | dropBridge a =>
      cases hop
      simp only [Op.deeds, List.foldl_cons, onBridge_closingOf, Deed.onBridge, if_true] at bridges
      refine iff_of_false ?_ fun stays => stays.1 ⟨b, hb, ht, Or.inr (Or.inr (Or.inr ho))⟩
      simp [World.Lists, bridges]
    | subscribe a b' handler =>
      cases hop
      obtain rfl := here typed
      refine iff_of_true ?_ ⟨by simp [State.TakesBack, State.Replaces, ho], by simp [State.Detaches, ho]⟩
      rcases hr : b'.refusal? with _ | e
      · simp only [Op.deeds, hr, List.foldl_cons, List.foldl_nil, Deed.onBridge, if_true] at bridges
        exact ⟨_, bridges, List.mem_append_left _ ht⟩
      · simp only [Op.deeds, hr, List.foldl_nil] at bridges
        exact ⟨b', bridges.trans hb, ht⟩
    | unsubscribe a b' handler =>
      cases hop
      obtain rfl := here typed
      simp only [Op.deeds, List.foldl_cons, onBridge_withdrawing, Deed.onBridge, if_true] at bridges
      have takes := State.takesBack_unsubscribe ho hb ht
      simp [World.Lists, bridges, Bridge.removeListeners, ht, takes, State.Detaches, ho]
    | shutdown a b' =>
      cases hop
      obtain rfl := here typed
      simp only [Op.deeds, List.foldl_cons, onBridge_closing, Deed.onBridge, if_true] at bridges
      refine iff_of_false ?_ fun stays => stays.1 ⟨b', hb, ht, Or.inr (Or.inl ho)⟩
      simp [World.Lists, bridges, Bridge.closed]
    | detach a b' =>
      cases hop
      obtain rfl := here typed
      simp only [Op.deeds, List.foldl_cons, List.foldl_nil, Deed.onBridge, if_true] at bridges
      refine iff_of_false ?_ fun stays => stays.2 ⟨b', hb, ht, ho⟩
      simp [World.Lists, bridges, Bridge.closed]
    | _ => cases hop
  · exact iff_of_true ⟨b, (c.bridge_kept hn about).trans hb, ht⟩ ⟨fun h => about h.about, fun h => about h.about⟩

/-- One call is made about a trampoline that is taken back. -/
theorem telling_taken (hn : n < c.length) (hb : (c.state n).world.bridges.get? name = some b)
    (taken : (c.state n).TakesBack name t) : (c.state n).telling t = [b.taking t] := by
  obtain ⟨b', hb', ht, ho⟩ := taken
  cases hb.symm.trans hb'
  have distinct := c.nodup_listeners (Nat.le_of_lt hn) hb
  have withdrawn {ts : List Trampoline} (hts : ts.Nodup) (hm : t ∈ ts) {o : Option Bridge}
      (deeds : (c.state n).deeds = .bridged name o :: b.withdrawing ts) : (c.state n).telling t = [b.taking t] := by
    rw [State.telling, deeds]
    exact (b.telling_withdrawing hts).trans (if_pos hm)
  rcases ho with ho | ends
  · exact withdrawn (distinct.filter _) (List.mem_filter.mpr ⟨ht, by simp⟩) (State.deeds_of_op ho)
  · obtain ⟨o, deeds⟩ := c.deeds_closing (Nat.le_of_lt hn) hb ends
    exact withdrawn distinct ht deeds

/-- In a step a listed trampoline stays listed with nothing told about it, or it is taken back by one
    call, or it is forgotten without a call. -/
theorem fate (hi : i < c.length) (hm : (c.state i).made name = some t) (hn : n < c.length)
    (hb : (c.state n).world.bridges.get? name = some b) (ht : t ∈ b.listeners) :
    ((c.state (n + 1)).world.Lists name t ∧ ¬ (c.state n).TakesBack name t ∧ ¬ (c.state n).Detaches name t ∧
      (c.state n).telling t = []) ∨
    (¬ (c.state (n + 1)).world.Lists name t ∧ (c.state n).TakesBack name t ∧ (c.state n).telling t = [b.taking t]) ∨
    (¬ (c.state (n + 1)).world.Lists name t ∧ ¬ (c.state n).TakesBack name t ∧ (c.state n).Detaches name t ∧
      (c.state n).telling t = []) := by
  have stays := c.lists_succ_iff hn hb ht
  have earlier := (c.lists_own hi hm (Nat.le_of_lt hn) ⟨b, hb, ht⟩).2
  have untold := c.untold hi hm hn (Nat.ne_of_gt earlier)
  by_cases takes : (c.state n).TakesBack name t
  · exact Or.inr (Or.inl ⟨fun h => (stays.mp h).1 takes, takes, c.telling_taken hn hb takes⟩)
  · by_cases detaches : (c.state n).Detaches name t
    · exact Or.inr (Or.inr ⟨fun h => (stays.mp h).2 detaches, takes, detaches, untold takes⟩)
    · exact Or.inl ⟨stays.mpr ⟨takes, detaches⟩, takes, detaches, untold takes⟩

/-- A trampoline that is not in the list any more does not come back. -/
theorem unlisted (hi : i < c.length) (hm : (c.state i).made name = some t) (hlt : i < n) (hn : n < c.length)
    (out : ¬ (c.state n).world.Lists name t) : ¬ (c.state (n + 1)).world.Lists name t := by
  rintro ⟨b, hb, ht⟩
  cases c.remade hn hb with
  | kept hg => exact out ⟨_, hg, ht⟩
  | opened _ hnone =>
    rw [hnone] at ht
    cases ht
  | subscribed hg hm' =>
    rcases List.mem_append.mp ht with ht | ht
    · exact out ⟨_, hg, ht⟩
    · cases List.mem_singleton.mp ht
      have := (c.made_inj hn hi hm' hm rfl).1
      omega
  | unsubscribed hg => exact out ⟨_, hg, List.mem_of_mem_filter ht⟩
  | closed => cases ht

theorem stays_unlisted {m : Nat} (hi : i < c.length) (hm : (c.state i).made name = some t) (hlt : i < m) (hmn : m ≤ n)
    (hn : n ≤ c.length) (out : ¬ (c.state m).world.Lists name t) : ¬ (c.state n).world.Lists name t := by
  induction hmn with
  | refl => exact out
  | @step n hmn ih =>
    have hmn' : m ≤ n := hmn
    exact c.unlisted hi hm (by omega) hn (ih (by omega))

/-! ## The calls about a trampoline -/

/-- A trampoline about which something has been told was made before. -/
theorem made_of_told (hn : n ≤ c.length) (told : (c.state n).world.dealings t ≠ []) :
    ∃ i < n, ∃ name, (c.state i).made name = some t := by
  induction n with
  | zero =>
    obtain ⟨mode, h⟩ := c.start
    rw [h] at told
    exact absurd rfl told
  | succ n ih =>
    by_cases before : (c.state n).world.dealings t = []
    · rw [c.dealings_succ hn, before, List.append_nil, ne_eq, List.reverse_eq_nil_iff] at told
      by_contra none
      refine told (telling_nil fun r hr => ⟨fun hd => ?_, fun hd => ?_⟩)
      · obtain ⟨name, b, -, hm, -⟩ := c.added_by hn hd hr
        exact none ⟨n, Nat.lt_succ_self n, name, hm⟩
      · obtain ⟨name, b, -, hb, ht, -⟩ := c.removed_by hn hd hr
        obtain ⟨i, hi, hm⟩ := c.made_of_lists (Nat.le_of_lt hn) ⟨b, hb, ht⟩
        exact none ⟨i, by omega, name, hm⟩
    · obtain ⟨i, hi, made⟩ := ih (Nat.le_of_lt hn) before
      exact ⟨i, by omega, made⟩

/-- Nothing is told about a trampoline that has not been made. -/
theorem unmade (hi : i < c.length) (hm : (c.state i).made name = some t) (hn : n ≤ i) : (c.state n).world.dealings t = [] := by
  induction n with
  | zero =>
    obtain ⟨mode, h⟩ := c.start
    rw [h]
    rfl
  | succ n ih =>
    have silent : (c.state n).telling t = [] := by
      refine c.untold hi hm (by omega) (by omega) fun taken => ?_
      have := (c.lists_own hi hm (by omega) taken.lists).2
      omega
    rw [c.dealings_succ (by omega), ← State.telling, silent, ih (by omega)]
    rfl

/-- The subscription registers it. -/
theorem registered (hi : i < c.length) (hm : (c.state i).made name = some t)
    (hb : (c.state i).world.bridges.get? name = some b) :
    (c.state (i + 1)).world.dealings t = [b.adding t] ∧ (c.state (i + 1)).world.Lists name t := by
  obtain ⟨b', hb', deeds⟩ := c.deeds_of_made hi hm
  cases hb.symm.trans hb'
  constructor
  · rw [c.dealings_succ hi, c.unmade hi hm (Nat.le_refl i), deeds]
    simp [List.filterMap_cons, Deed.telling, Bridge.registration, Bridge.adding]
  · refine ⟨b.addListener t, ?_, List.mem_append_right _ (List.mem_singleton_self t)⟩
    rw [(c.step_tells hi).bridges, deeds]
    simp [Deed.onBridge]

/-- What has been told about a trampoline since it was made. -/
theorem settled (hi : i < c.length) (hm : (c.state i).made name = some t)
    (hb : (c.state i).world.bridges.get? name = some b) (hlt : i < n) (hn : n ≤ c.length) :
    ((∀ j < n, ¬ (c.state j).TakesBack name t) ∧ (c.state n).world.dealings t = [b.adding t]) ∨
    ((∃ j < n, (c.state j).TakesBack name t) ∧ ¬ (c.state n).world.Lists name t ∧
      (c.state n).world.dealings t = [b.taking t, b.adding t]) := by
  induction hlt with
  | refl =>
    refine Or.inl ⟨fun j hj h => ?_, (c.registered hi hm hb).1⟩
    have := (c.lists_own hi hm (by omega) h.lists).2
    omega
  | @step n hlt ih =>
    have hlt' : i < n := hlt
    have told := c.dealings_succ (show n < c.length by omega) t
    rw [← State.telling] at told
    by_cases listed : (c.state n).world.Lists name t
    · obtain ⟨b', hb', ht⟩ := listed
      rcases ih (by omega) with ⟨never, same⟩ | ⟨-, out, -⟩
      · rw [same] at told
        have still (h : ¬ (c.state n).TakesBack name t) : ∀ j < n + 1, ¬ (c.state j).TakesBack name t := by
          intro j hj
          rcases Nat.lt_or_eq_of_le (Nat.le_of_lt_succ hj) with hj | rfl
          · exact never j hj
          · exact h
        rcases c.fate hi hm hn hb' ht with ⟨-, no, -, quiet⟩ | ⟨out, yes, call⟩ | ⟨-, no, -, quiet⟩
        · exact Or.inl ⟨still no, by rw [told, quiet]; rfl⟩
        · refine Or.inr ⟨⟨n, Nat.lt_succ_self n, yes⟩, out, ?_⟩
          obtain ⟨handle, event⟩ := c.same_bridge hi hm hb (by omega) hb' ht
          rw [told, call, Bridge.taking, handle, event]
          rfl
        · exact Or.inl ⟨still no, by rw [told, quiet]; rfl⟩
      · exact absurd ⟨b', hb', ht⟩ out
    · have quiet := c.untold hi hm (show n < c.length by omega) (by omega) fun taken => listed taken.lists
      rw [quiet] at told
      rcases ih (by omega) with ⟨never, same⟩ | ⟨⟨j, hj, taken⟩, -, same⟩
      · refine Or.inl ⟨fun j hj h => ?_, told.trans same⟩
        rcases Nat.lt_or_eq_of_le (Nat.le_of_lt_succ hj) with hj | rfl
        · exact never j hj h
        · exact listed h.lists
      · exact Or.inr ⟨⟨j, by omega, taken⟩, c.unlisted hi hm hlt' hn listed, told.trans same⟩

end Course

/-! ## A bridge that is shut down -/

namespace World

variable {w : World} {name : String} {b : Bridge}

/-- An operation about a bridge that is shut down makes no call and leaves it as it is, unless it drops
    or replaces it. -/
theorem perform_shut (hb : w.bridges.get? name = some b) (shut : b.isShutDown = true) (empty : b.listeners = [])
    {op : Op} (typed : op.Typed w) (about : op.bridge? = some name) :
    (w.perform op).1.crossings = w.crossings ∧ (w.perform op).1.toolkit = w.toolkit ∧
      ((∀ b', op ≠ .newBridge name b') → op ≠ .dropBridge name → (w.perform op).1.bridges.get? name = some b) := by
  have closing (v : World) : v.closeBridge b = v := by
    unfold closeBridge
    rw [if_pos shut]
  have here {b' : Bridge} (h : w.bridges.get? name = some b') : b' = b := Option.some.inj (h.symm.trans hb)
  have set {b' : Bridge} (same : b' = b) : (w.setBridge name b').bridges.get? name = some b := by
    simp [setBridge, same]
  cases op with
  | newBridge a b' =>
    cases about
    have made : w.addBridge name b' = w.setBridge name b' := by
      simp only [addBridge, hb, closing]
    refine ⟨?_, ?_, fun h => absurd rfl (h b')⟩
    · simp only [perform, made]
      rfl
    · simp only [perform, made]
      rfl
  | dropBridge a =>
    cases about
    have dropped : w.dropBridge name = { w with bridges := w.bridges.erase name } := by
      simp only [dropBridge, hb, closing]
    refine ⟨?_, ?_, fun _ h => absurd rfl h⟩
    · simp only [perform, dropped]
      rfl
    · simp only [perform, dropped]
      rfl
  | subscribe a b' handler =>
    cases about
    obtain rfl := here typed
    have refused : w.subscribe name b' handler = w.failing (.bind (.eventShutDown b'.event)) := by
      simp only [subscribe, Bridge.refusal?, shut, if_true]
    simp only [perform, refused]
    exact ⟨rfl, rfl, fun _ _ => hb⟩
  | unsubscribe a b' handler =>
    cases about
    obtain rfl := here typed
    have none : b'.listenersOf handler = [] := by simp [Bridge.listenersOf, empty]
    have same : b'.removeListeners handler = b' := by
      obtain ⟨sender, h, event, parser, listeners, isShutDown⟩ := b'
      cases empty
      rfl
    simp only [perform, unsubscribe, none]
    exact ⟨rfl, rfl, fun _ _ => set same⟩
  | shutdown a b' =>
    cases about
    obtain rfl := here typed
    simp only [perform, shutdown, closing]
    exact ⟨rfl, rfl, fun _ _ => set (Bridge.closed_of_shut shut empty)⟩
  | detach a b' =>
    cases about
    obtain rfl := here typed
    exact ⟨rfl, rfl, fun _ _ => set (Bridge.closed_of_shut shut empty)⟩
  | _ => cases about

end World

namespace Course

variable {k : Conduct} (c : Course k) {name : String} {i n : Nat} {b : Bridge} {t : Trampoline}

/-- Nothing changes a bridge that is shut down, until it is dropped or replaced. -/
theorem shut_stays {m : Nat} (hmn : m ≤ n) (hn : n ≤ c.length) (hb : (c.state m).world.bridges.get? name = some b)
    (shut : b.isShutDown = true) (kept : ∀ j, m ≤ j → j < n → ¬ (c.state j).Replaces name) :
    (c.state n).world.bridges.get? name = some b := by
  induction hmn with
  | refl => exact hb
  | @step n hmn ih =>
    have hmn' : m ≤ n := hmn
    have before := ih (Nat.le_of_lt hn) fun j hj hjn => kept j hj (by omega)
    by_cases about : (c.state n).bridge? = some name
    · obtain ⟨op, ho, hop⟩ := Option.bind_eq_some_iff.mp about
      obtain ⟨allowed, performed⟩ := c.performed hn ho
      have none := (c.numbered (Nat.le_of_lt hn)).shut name b before shut
      have no := kept n hmn' (Nat.lt_succ_self n)
      rw [performed]
      refine (World.perform_shut before shut none allowed.1 hop).2.2 (fun b' e => no (Or.inl ⟨b', ?_⟩)) fun e => no (Or.inr ?_)
      · rw [ho, e]
      · rw [ho, e]
    · rw [c.bridge_kept hn about]
      exact before

/-- The bridge, which is shut down, from state `n` on. -/
structure Closed (name : String) (n : Nat) (b : Bridge) : Prop where
  /-- It has no listener. -/
  empty : b.listeners = []
  /-- It stays shut down as long as it is there. -/
  stays : ∀ j, n ≤ j → j ≤ c.length → (∀ i, n ≤ i → i < j → ¬ (c.state i).Replaces name) →
    (c.state j).world.bridges.get? name = some b
  refuses : n < c.length → ∀ handler, (c.state n).op? = some (.subscribe name b handler) →
    (c.state (n + 1)).world = (c.state n).world.failing (.bind (.eventShutDown b.event))
  removes : n < c.length → ∀ handler, (c.state n).op? = some (.unsubscribe name b handler) →
    (c.state (n + 1)).world.answer = .count 0
  /-- No operation about it makes a call across the boundary, its end included. -/
  silent : n < c.length → (c.state n).bridge? = some name →
    (c.state (n + 1)).world.crossings = (c.state n).world.crossings ∧
      (c.state (n + 1)).world.toolkit = (c.state n).world.toolkit

/-- The step in which the trampoline is made for the bridge, by a subscription of it. -/
structure Subscribes (name : String) (n : Nat) (b : Bridge) (t : Trampoline) : Prop where
  made : (c.state n).made name = some t
  listed : (c.state (n + 1)).world.bridges.get? name = some (b.addListener t)
  succeeds : (c.state (n + 1)).world.answer = .none
  /-- It makes one call. -/
  calls : (c.state (n + 1)).world.crossings = b.adding t :: (c.state n).world.crossings
  /-- No call, no registration and no list has had the trampoline before. -/
  fresh : ∀ j ≤ n, (c.state j).world.dealings t = [] ∧ t ∉ enlisted (c.state j).world.toolkit.registrations ∧
    ∀ a, ¬ (c.state j).world.Lists a t

/-- What happens to a trampoline after step `i`, which has made it for the bridge. -/
structure Accounts (name : String) (i : Nat) (b : Bridge) (t : Trampoline) : Prop where
  entered : (c.state (i + 1)).world.Lists name t
  /-- It is in the list of no other bridge. -/
  own : ∀ n a, n ≤ c.length → (c.state n).world.Lists a t → a = name
  /-- A bridge that has it in its list is the one for which it was made. -/
  place : ∀ n b', n ≤ c.length → (c.state n).world.bridges.get? name = some b' → t ∈ b'.listeners →
    b'.handle = b.handle ∧ b'.event = b.event
  /-- It leaves the list by being taken back or forgotten. -/
  leaves : ∀ n, n < c.length → (c.state n).world.Lists name t →
    (¬ (c.state (n + 1)).world.Lists name t ↔ (c.state n).TakesBack name t ∨ (c.state n).Detaches name t)
  /-- It does so once. -/
  out : ∀ m n, i < m → m ≤ n → n ≤ c.length → ¬ (c.state m).world.Lists name t → ¬ (c.state n).world.Lists name t
  /-- Until it is taken back, the call that registered it is the only one about it. -/
  kept : ∀ n, i < n → n ≤ c.length → (∀ j < n, ¬ (c.state j).TakesBack name t) →
    (c.state n).world.dealings t = [b.adding t]
  /-- When it has been taken back, one call has done so, for the same object and event. -/
  taken : ∀ j n, j < n → n ≤ c.length → (c.state j).TakesBack name t →
    (c.state n).world.dealings t = [b.taking t, b.adding t]
  /-- When it has been forgotten, none does. -/
  forgotten : ∀ j n, j < n → n ≤ c.length → (c.state j).Detaches name t → (c.state n).world.dealings t = [b.adding t]

variable {c}

theorem closed (hn : n ≤ c.length) (hb : (c.state n).world.bridges.get? name = some b) (shut : b.isShutDown = true) :
    c.Closed name n b := by
  have none := (c.numbered hn).shut name b hb shut
  refine ⟨none, fun j hj hjl kept => c.shut_stays hj hjl hb shut kept, ?_, ?_, ?_⟩
  · intro hlt handler ho
    rw [(c.performed hlt ho).2]
    simp only [World.perform, World.subscribe, Bridge.refusal?, shut, if_true]
  · intro hlt handler ho
    rw [(c.performed hlt ho).2]
    simp [World.perform, World.unsubscribe, Bridge.listenersOf, none, World.answering]
  · intro hlt about
    obtain ⟨op, ho, hop⟩ := Option.bind_eq_some_iff.mp about
    obtain ⟨allowed, performed⟩ := c.performed hlt ho
    have same := World.perform_shut hb shut none allowed.1 hop
    rw [performed]
    exact ⟨same.1, same.2.1⟩

theorem subscribes (hn : n < c.length) {handler : String} (ho : (c.state n).op? = some (.subscribe name b handler))
    (hr : b.refusal? = none) : c.Subscribes name n b (b.trampoline (c.state n).world.nextTrampoline handler) := by
  let t := b.trampoline (c.state n).world.nextTrampoline handler
  have hm : (c.state n).made name = some t := by simp [State.made, ho, hr, t]
  have performed := (c.performed hn ho).2
  simp only [World.perform, World.subscribe, hr] at performed
  refine ⟨hm, ?_, by rw [performed]; rfl, ?_, fun j hj => ⟨c.unmade hn hm hj, fun ht => ?_, fun a ht => ?_⟩⟩
  · rw [(c.step_tells hn).bridges, State.deeds_of_op ho]
    simp [Op.deeds, hr, Deed.onBridge]
  · rw [performed]
    exact World.crossings_native _ _
  · -- the numbers of trampolines go up, and this one is the next
    have below := (c.numbered (by omega)).below t ht
    have mono := c.serial_mono hj (Nat.le_of_lt hn)
    have serial : t.serial = (c.state n).world.nextTrampoline := rfl
    omega
  · have := (c.lists_own hn hm (by omega) ht).2
    omega

theorem refuses (hn : n < c.length) {handler : String} (ho : (c.state n).op? = some (.subscribe name b handler))
    (hr : b.isShutDown = true ∨ b.handle.isNull = true) : (c.state (n + 1)).world =
      (c.state n).world.failing (.bind (if b.isShutDown then .eventShutDown b.event else .nullHandle)) := by
  rw [(c.performed hn ho).2]
  cases shut : b.isShutDown
  · rw [shut] at hr
    have null := hr.resolve_left Bool.false_ne_true
    simp [World.perform, World.subscribe, Bridge.refusal?, shut, null]
  · simp [World.perform, World.subscribe, Bridge.refusal?, shut]

theorem accounts (hi : i < c.length) (hm : (c.state i).made name = some t)
    (hb : (c.state i).world.bridges.get? name = some b) : c.Accounts name i b t := by
  have after {j : Nat} (hj : j < c.length) (h : (c.state j).world.Lists name t) : i < j :=
    (c.lists_own hi hm (Nat.le_of_lt hj) h).2
  have kept (n : Nat) (hlt : i < n) (hn : n ≤ c.length) (never : ∀ j < n, ¬ (c.state j).TakesBack name t) :
      (c.state n).world.dealings t = [b.adding t] := by
    rcases c.settled hi hm hb hlt hn with ⟨-, same⟩ | ⟨⟨j, hj, taken⟩, -⟩
    · exact same
    · exact absurd taken (never j hj)
  have leaves (n : Nat) (hn : n < c.length) (listed : (c.state n).world.Lists name t) :
      ¬ (c.state (n + 1)).world.Lists name t ↔ (c.state n).TakesBack name t ∨ (c.state n).Detaches name t := by
    obtain ⟨b', hb', ht⟩ := listed
    rcases c.fate hi hm hn hb' ht with ⟨still, no, no', -⟩ | ⟨out, yes, -⟩ | ⟨out, -, yes, -⟩
    · simp [still, no, no']
    · simp [out, yes]
    · simp [out, yes]
  refine ⟨(c.registered hi hm hb).2, fun n a hn h => (c.lists_own hi hm hn h).1,
    fun n b' hn hb' ht => c.same_bridge hi hm hb hn hb' ht, leaves, fun m n hlt hmn hn => c.stays_unlisted hi hm hlt hmn hn, kept, ?_, ?_⟩
  · intro j n hj hn taken
    have hlt := after (by omega) taken.lists
    rcases c.settled hi hm hb (by omega) hn with ⟨never, -⟩ | ⟨-, -, same⟩
    · exact absurd taken (never j hj)
    · exact same
  · intro j n hj hn forgotten
    have hlt := after (by omega) forgotten.lists
    refine kept n (by omega) hn fun a ha taken => ?_
    have hlt' := after (by omega) taken.lists
    -- both would leave the list, and what has left it does not leave it again
    rcases Nat.lt_trichotomy a j with h | rfl | h
    · have out := (leaves a (by omega) taken.lists).mpr (Or.inl taken)
      exact c.stays_unlisted hi hm (by omega) h (by omega) out forgotten.lists
    · obtain ⟨b', -, -, ho⟩ := forgotten
      obtain ⟨b'', -, -, ho'⟩ := taken
      simp [State.Replaces, ho] at ho'
    · have out := (leaves j (by omega) forgotten.lists).mpr (Or.inr forgotten)
      exact c.stays_unlisted hi hm (by omega) h (by omega) out taken.lists

end Course

/-- In every run, whatever is done to bridges from inside and outside of handlers:
    - a bridge that is shut down stays so, and has no listener, takes none, and takes part in no call
      across the boundary any more;
    - a subscription that is not refused registers, by one call, a trampoline that nothing has had before,
      and one that is refused leaves all as it is;
    - every trampoline leaves the list of its bridge once at most, and is taken back by one call, for the
      object and the event for which it was registered, if its handler is unsubscribed or the bridge is
      shut down, dropped or replaced, and by none if the bridge is detached. -/
theorem lifetime_of_a_bridge (c : Course .free) :
    (∀ n name b, n ≤ c.length → (c.state n).world.bridges.get? name = some b → b.isShutDown = true → c.Closed name n b) ∧
    (∀ n name b handler, n < c.length → (c.state n).op? = some (.subscribe name b handler) →
      (c.state n).world.bridges.get? name = some b ∧
      (b.isShutDown = false → b.handle.isNull = false →
        ∃ t, t.handler = handler ∧ c.Subscribes name n b t ∧ c.Accounts name n b t) ∧
      (b.isShutDown = true ∨ b.handle.isNull = true → (c.state (n + 1)).world =
        (c.state n).world.failing (.bind (if b.isShutDown then .eventShutDown b.event else .nullHandle)))) ∧
    ∀ n t, n ≤ c.length → (c.state n).world.dealings t ≠ [] →
      ∃ i < n, ∃ name b, c.Subscribes name i b t ∧ c.Accounts name i b t := by
  refine ⟨fun n name b hn hb shut => Course.closed hn hb shut, fun n name b handler hn ho => ?_, fun n t hn told => ?_⟩
  · have stands : (c.state n).world.bridges.get? name = some b := (c.allowed hn ho).1
    refine ⟨stands, fun shut null => ?_, Course.refuses hn ho⟩
    have hr : b.refusal? = none := by simp [Bridge.refusal?, shut, null]
    have made := Course.subscribes hn ho hr
    exact ⟨_, rfl, made, Course.accounts hn made.made stands⟩
  · obtain ⟨i, hi, name, hm⟩ := c.made_of_told hn told
    have hlt : i < c.length := by omega
    obtain ⟨b, handler, ho, hr, rfl⟩ := State.made_eq_some hm
    exact ⟨i, hi, name, b, Course.subscribes hlt ho hr, Course.accounts hlt hm (c.allowed hlt ho).1⟩

/-- Of the trampolines that listen to one button, the first is taken back, since its handler is
    unsubscribed, and the second is not, since its bridge is detached. -/
theorem one_is_taken_back_and_one_forgotten : ∃ c : Course .free,
    (c.state c.length).world.dealings ((clicks .unit).trampoline 0 "f") =
      [(clicks .unit).taking ((clicks .unit).trampoline 0 "f"), (clicks .unit).adding ((clicks .unit).trampoline 0 "f")] ∧
    (c.state c.length).world.dealings ((clicks .raw).trampoline 1 "f") =
      [(clicks .raw).adding ((clicks .raw).trampoline 1 "f")] := by
  let first := (clicks .unit).trampoline 0 "f"
  let second := (clicks .raw).trampoline 1 "f"
  let heard := (clicks .raw).addListener second
  let unsubscribed := (shared.perform (.unsubscribe "a" twice "f")).1
  obtain ⟨c₀, last₀⟩ := reach_shared.course
  obtain ⟨c₁, length₁, -, now₁, last₁⟩ := c₀.perform last₀ (.unsubscribe "a" twice "f") ⟨rfl, trivial⟩ rfl
  have between : c₁.state c₁.length = ⟨unsubscribed, []⟩ := length₁ ▸ last₁
  obtain ⟨c, length, old, now, last⟩ := c₁.perform between (.detach "b" heard) ⟨rfl, trivial⟩ rfl
  rw [← old _ (by omega)] at now₁
  rw [← length] at last
  obtain ⟨-, -, told⟩ := lifetime_of_a_bridge c
  have taken : (c.state (c₀.length + 1)).TakesBack "a" first := by
    rw [now₁]
    exact ⟨twice, rfl, by decide, Or.inl rfl⟩
  have forgotten : (c.state (c₁.length + 1)).Detaches "b" second := by
    rw [now]
    exact ⟨heard, rfl, by decide, rfl⟩
  refine ⟨c, ?_, ?_⟩
  · obtain ⟨i, -, name, b, -, account⟩ := told c.length first (Nat.le_refl _) (by rw [last]; decide)
    obtain rfl := account.own _ "a" (by omega) taken.lists
    obtain ⟨handle, event⟩ := account.place (c₀.length + 1) twice (by omega) (by rw [now₁]; rfl) (by decide)
    rw [account.taken (c₀.length + 1) c.length (by omega) (Nat.le_refl _) taken]
    simp only [Bridge.taking, Bridge.adding, ← handle, ← event]
    rfl
  · obtain ⟨i, -, name, b, -, account⟩ := told c.length second (Nat.le_refl _) (by rw [last]; decide)
    obtain rfl := account.own _ "b" (by omega) forgotten.lists
    obtain ⟨handle, event⟩ := account.place (c₁.length + 1) heard (by omega) (by rw [now]; rfl) (by decide)
    rw [account.forgotten (c₁.length + 1) c.length (by omega) (Nat.le_refl _) forgotten]
    simp only [Bridge.adding, ← handle, ← event]
    rfl

end HandleBridge
