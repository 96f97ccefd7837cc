/-
  HandleBridge.Proofs.SignalDelivery — which callbacks a fired signal runs.

  Firing a signal reads the list of its callbacks once and makes one job due for each. Their
  handlers may do anything, fire the same signal included; what they make due nests one
  level further in, so the callbacks of this fire and the handlers that they call are the ones
  that have their turn on its own level (`inRound`). A callback answers when its turn comes,
  out of the world as it is then (`World.response`): a trampoline whose sender is gone calls
  nothing, any other callback calls its handler at once.
  - `Runs.round`: one callback has one round, and what its handler does is no part of it.
  - `fire_serves_what_is_registered`: a fire that has ended has had one round for each callback
    registered when it was called, in order, and answers their number; it ends within the
    limit that a program has for the nesting of its calls. A trampoline among the callbacks is a
    subscription's of a bridge for that signal, and calls on behalf of that bridge's sender;
    what is added meanwhile is not among them; what is taken away is not among those of a
    later fire, unless the program has added it again.
-/
import HandleBridge.Proofs.Subscriptions

namespace HandleBridge

/-! ## One callback -/

/-- What a callback leaves in the history, and the handler that it calls. -/
def World.response (w : World) (cb : SignalCallback) (object : Handle) (info : EventInfo) : List Event × Option Call :=
  match cb with
  | .program name => ([], some (.toolkitSignal name object info))
  | .trampoline t =>
    if w.isSenderLive t.sender then
      match t.parser with
      | .unit => ([], some (.unitSignal t.handler t.sender))
      | .raw => ([.parsed object info], some (.rawSignal t.handler t.sender object info))
      | .item =>
        let item := if w.isThere .items then w.lookupHandle .items info.toHandle else none
        ([], some (.itemSignal t.handler t.sender info.toHandle item))
    else ([.log (.senderGone object)], none)

/-- A callback leaves that in the history and makes the call due, and after it only that pins are
    let go of. -/
theorem World.signal_response (w : World) (cb : SignalCallback) (object : Handle) (info : EventInfo) :
    (w.signal cb object info).1.history = (w.response cb object info).1 ++ w.history ∧
    ∃ ps : List Pin, (w.signal cb object info).2 =
      (w.response cb object info).2.toList.map .enter ++ ps.map .unpin := by
  cases cb with
  | program name => exact ⟨rfl, [], rfl⟩
  | trampoline t =>
    cases hs : w.isSenderLive t.sender
    · simp only [signal, response, hs, Bool.false_eq_true, if_false]
      exact ⟨rfl, [], rfl⟩
    · have there : (w.pin (.sender t.sender)).isThere .items = w.isThere .items := by
        simp [isThere, pin, holds]
      simp only [signal, response, hs, if_true]
      cases t.parser with
      | unit => exact ⟨rfl, [.sender t.sender], rfl⟩
      | raw => exact ⟨rfl, [.sender t.sender], rfl⟩
      | item =>
        simp only [there]
        have found : (w.pin (.sender t.sender)).lookupHandle .items info.toHandle = w.lookupHandle .items info.toHandle := rfl
        rw [found]
        cases if w.isThere .items then w.lookupHandle .items info.toHandle else none with
        | none => exact ⟨rfl, [.sender t.sender], rfl⟩
        | some ref => exact ⟨rfl, [.wrapper ref, .sender t.sender], rfl⟩

/-! ## Levels -/

/-- A task gives way to tasks on its own level; what a call makes due is one level further in. -/
theorem level_expand (p : Program) (t : Task) (w : World) : ∀ t' ∈ (p.expand t w).2, t'.level ≤ t.level := by
  intro t' ht
  obtain ⟨level, job⟩ := t
  by_cases he : ∃ c, job = .enter c
  · obtain ⟨c, rfl⟩ := he
    cases level with
    | zero => cases ht
    | succ level =>
      simp only [Program.expand, List.mem_append, List.mem_map, List.mem_singleton] at ht
      rcases ht with ⟨choose, -, rfl⟩ | rfl <;> exact Nat.le_succ level
  · rw [p.expand_eq _ w fun c h => he ⟨c, h⟩] at ht
    obtain ⟨j, -, rfl⟩ := List.mem_map.mp ht
    exact Nat.le_refl _

theorem level_enter (p : Program) (level : Nat) (c : Call) (w : World) :
    ∀ t' ∈ (p.expand ⟨level, .enter c⟩ w).2, t'.level < level := by
  intro t' ht
  cases level with
  | zero => cases ht
  | succ level =>
    simp only [Program.expand, List.mem_append, List.mem_map, List.mem_singleton] at ht
    rcases ht with ⟨choose, -, rfl⟩ | rfl <;> exact Nat.lt_succ_self level

namespace Runs

theorem level_lt {ts : List Task} {w w' : World} {vs : List (Task × World)} (h : Runs ts w vs w') {level : Nat}
    (hl : ∀ t ∈ ts, t.level < level) : ∀ v ∈ vs, v.1.level < level := by
  induction h with
  | done w =>
    intro v hv
    cases hv
  | @task p t ts w w' vs _ ih =>
    intro v hv
    have ht := hl t (List.mem_cons_self ..)
    rcases List.mem_cons.mp hv with rfl | hv
    · exact ht
    · refine ih (fun t' hm => ?_) v hv
      rcases List.mem_append.mp hm with hm | hm
      · exact Nat.lt_of_le_of_lt (level_expand p t w t' hm) ht
      · exact hl t' (List.mem_cons_of_mem _ hm)

end Runs

/-! ## Rounds -/

/-- A callback or a handler has its turn on this level. -/
def inRound (level : Nat) (v : Task × World) : Bool :=
  match v.1 with
  | ⟨l, .signal ..⟩ | ⟨l, .enter _⟩ => l = level
  | _ => false

/-- The round of a callback whose turn comes in a given world: the callback itself, and in the
    world that it leaves the handler that it calls. -/
def round (level : Nat) (object : Handle) (info : EventInfo) (turn : SignalCallback × World) : List (Task × World) :=
  (⟨level, .signal turn.1 object info⟩, turn.2) ::
    (turn.2.response turn.1 object info).2.toList.map fun call =>
      (⟨level, .enter call⟩, (turn.2.signal turn.1 object info).1)

namespace Runs

/-- Letting go of pins is no part of a round. -/
theorem unpins {level : Nat} {ps : List Pin} {w w' : World} {vs : List (Task × World)}
    (h : Runs (ps.map fun p => ⟨level, .unpin p⟩) w vs w') : vs.filter (inRound level) = [] := by
  induction ps generalizing w vs with
  | nil => cases h; rfl
  | cons a ps ih =>
    cases h with
    | task p h =>
      rw [List.filter_cons_of_neg (by simp [inRound])]
      exact ih h

/-- A handler's turn, and what it does further in. -/
theorem handler {level : Nat} {call : Call} {w w' : World} {vs : List (Task × World)}
    (h : Runs [⟨level, .enter call⟩] w vs w') : vs.filter (inRound level) = [(⟨level, .enter call⟩, w)] := by
  cases h with
  | task p h =>
    rw [List.append_nil] at h
    rw [List.filter_cons_of_pos (by simp [inRound])]
    refine congrArg _ (List.filter_eq_nil_iff.mpr fun v hv hr => ?_)
    have below := h.level_lt (level_enter p level call w) v hv
    obtain ⟨⟨l, job⟩, u⟩ := v
    cases job with
    | signal | enter =>
      simp only [inRound, decide_eq_true_eq] at hr
      simp only at below
      omega
    | _ => cases hr

theorem round {level : Nat} {cb : SignalCallback} {object : Handle} {info : EventInfo} {w w' : World}
    {vs : List (Task × World)} (h : Runs [⟨level, .signal cb object info⟩] w vs w') :
    vs.filter (inRound level) = HandleBridge.round level object info (cb, w) := by
  cases h with
  | task p h =>
    rw [List.append_nil, p.expand_eq _ w (by simp)] at h
    obtain ⟨ps, due⟩ := (w.signal_response cb object info).2
    change Runs ((w.signal cb object info).2.map (⟨level, ·⟩)) (w.signal cb object info).1 _ w' at h
    rw [due, List.map_append, List.map_map, List.map_map] at h
    obtain ⟨vs₁, w₁, vs₂, h₁, h₂, rfl⟩ := h.split
    rw [List.filter_cons_of_pos (by simp [inRound]), List.filter_append, unpins h₂, List.append_nil, HandleBridge.round]
    refine congrArg _ ?_
    cases hr : (w.response cb object info).2 with
    | none =>
      rw [hr] at h₁
      cases h₁
      rfl
    | some call =>
      rw [hr] at h₁
      exact handler h₁

/-- Callbacks have their rounds in order. -/
theorem rounds {level : Nat} {cbs : List SignalCallback} {object : Handle} {info : EventInfo} {w w' : World}
    {vs : List (Task × World)} (h : Runs (cbs.map fun cb => ⟨level, .signal cb object info⟩) w vs w') :
    ∃ turns : List (SignalCallback × World), turns.map (·.1) = cbs ∧
      vs.filter (inRound level) = turns.flatMap (HandleBridge.round level object info) := by
  induction cbs generalizing w vs with
  | nil =>
    cases h
    exact ⟨[], rfl, rfl⟩
  | cons cb cbs ih =>
    obtain ⟨vs₁, w₁, vs₂, h₁, h₂, rfl⟩ := split [⟨level, .signal cb object info⟩] _ h
    obtain ⟨turns, ht, hv⟩ := ih h₂
    refine ⟨(cb, w) :: turns, by rw [List.map_cons, ht], ?_⟩
    rw [List.filter_append, h₁.round, hv, List.flatMap_cons]

/-- A fire, from its call to its answer. -/
theorem fire {level : Nat} {choose : World → Op} {object : Handle} {event : String} {info : EventInfo} {w w' : World}
    {vs : List (Task × World)} (hf : choose w = .fire object event info) (h : Runs [⟨level, .act choose⟩] w vs w') :
    w'.answer = .count (w.toolkit.listeners object event).length ∧
    ∃ turns : List (SignalCallback × World), turns.map (·.1) = w.toolkit.listeners object event ∧
      vs.filter (inRound level) = turns.flatMap (HandleBridge.round level object info) := by
  cases h with
  | task p h =>
    rw [List.append_nil, p.expand_eq _ w (by simp)] at h
    change Runs ((w.perform (choose w)).2.map (⟨level, ·⟩)) (w.perform (choose w)).1 _ w' at h
    rw [hf] at h
    change Runs (((w.toolkit.listeners object event).map (.signal · object info) ++ _).map (⟨level, ·⟩)) _ _ w' at h
    rw [List.map_append, List.map_map] at h
    obtain ⟨vs₁, w₁, vs₂, h₁, h₂, rfl⟩ := h.split
    obtain ⟨turns, ht, hv⟩ := rounds h₁
    cases h₂ with
    | task q h₂ =>
      cases h₂
      refine ⟨rfl, turns, ht, ?_⟩
      rw [List.filter_cons_of_neg (by simp [inRound]), List.filter_append, hv]
      rw [List.filter_cons_of_neg (by simp [inRound]), List.filter_nil, List.append_nil]

end Runs

/-! ## What later fires find -/

/-- A callback stands no more often than it did before, apart from additions. -/
theorem count_onStanding (object : Handle) (event : String) (cb : SignalCallback) (ds : List Deed) (cbs : List SignalCallback) :
    (ds.foldl (onStanding object event) cbs).count cb ≤ cbs.count cb + ds.count (.added ⟨object, event, cb⟩) := by
  induction ds generalizing cbs with
  | nil => exact Nat.le_refl _
  | cons d ds ih =>
    have one : (onStanding object event cbs d).count cb ≤ cbs.count cb + [d].count (.added ⟨object, event, cb⟩) := by
      cases d with
      | added r =>
        simp only [onStanding]
        split
        · rename_i h
          obtain ⟨object, event, cb'⟩ := r
          obtain ⟨rfl, rfl⟩ := h
          simp [List.count_append, List.count_singleton]
        · exact Nat.le_add_right _ _
      | removed r =>
        simp only [onStanding]
        split
        · exact Nat.le_trans (List.erase_sublist.count_le cb) (Nat.le_add_right _ _)
        · exact Nat.le_add_right _ _
      | felled h | scrapped h =>
        simp only [onStanding]
        split
        · exact Nat.zero_le _
        · exact Nat.le_add_right _ _
      | _ => exact Nat.le_add_right _ _
    have rest := ih (onStanding object event cbs d)
    have whole : (d :: ds).count (.added ⟨object, event, cb⟩) =
        [d].count (.added ⟨object, event, cb⟩) + ds.count (.added ⟨object, event, cb⟩) := by
      rw [← List.singleton_append, List.count_append]
    rw [List.foldl_cons]
    omega

/-- What stood once and is removed stands no more. -/
theorem removed_onStanding {object : Handle} {event : String} {cb : SignalCallback} {ds : List Deed} {cbs : List SignalCallback}
    (once : cbs.count cb ≤ 1) (ha : .added ⟨object, event, cb⟩ ∉ ds) (hr : .removed ⟨object, event, cb⟩ ∈ ds) :
    cb ∉ ds.foldl (onStanding object event) cbs := by
  obtain ⟨before, after, rfl⟩ := List.append_of_mem hr
  simp only [List.mem_append, List.mem_cons, not_or] at ha
  have fewer := count_onStanding object event cb before cbs
  rw [List.count_eq_zero.mpr ha.1] at fewer
  rw [List.foldl_append, List.foldl_cons, ← List.count_eq_zero]
  generalize before.foldl (onStanding object event) cbs = stood at fewer
  have taken : (onStanding object event stood (.removed ⟨object, event, cb⟩)).count cb = stood.count cb - 1 := by
    simp [onStanding]
  have left := count_onStanding object event cb after (onStanding object event stood (.removed ⟨object, event, cb⟩))
  rw [List.count_eq_zero.mpr ha.2.2] at left
  omega

theorem count_heard (object : Handle) (event : String) (rs : List Registration) (cb : SignalCallback) :
    (heard object event rs).count cb = rs.count ⟨object, event, cb⟩ := by
  induction rs with
  | nil => rfl
  | cons r rs ih =>
    obtain ⟨o, e, cb'⟩ := r
    rw [heard_cons, List.count_cons, ← ih]
    by_cases h : o = object ∧ e = event
    · obtain ⟨rfl, rfl⟩ := h
      simp [List.count_cons]
    · have hne : ¬ (⟨o, e, cb'⟩ : Registration) = ⟨object, event, cb⟩ := fun he => by
        cases he
        exact h ⟨rfl, rfl⟩
      simp [h, hne]

namespace Course

variable {k : Conduct} (c : Course k) {m n : Nat} {object : Handle} {event : String} {t : Trampoline}

/-- What was done from step `m` up to step `n`. -/
def between (m n : Nat) : List Deed := (List.range' m (n - m)).flatMap fun i => (c.state i).deeds

theorem between_succ (hm : m ≤ n) : c.between m (n + 1) = c.between m n ++ (c.state n).deeds := by
  simp [between, steps_succ hm]

theorem listeners_succ (hn : n < c.length) (object : Handle) (event : String) :
    (c.state (n + 1)).world.toolkit.listeners object event =
      (c.state n).deeds.foldl (onStanding object event) ((c.state n).world.toolkit.listeners object event) := by
  show heard object event (c.state (n + 1)).world.toolkit.registrations = _
  rw [(c.step_tells hn).registrations, heard_fold]
  rfl

theorem listeners_between (hm : m ≤ n) (hn : n ≤ c.length) (object : Handle) (event : String) :
    (c.state n).world.toolkit.listeners object event =
      (c.between m n).foldl (onStanding object event) ((c.state m).world.toolkit.listeners object event) := by
  induction hm with
  | refl => simp [between]
  | @step n hm ih =>
    have hm' : m ≤ n := hm
    rw [c.listeners_succ hn, ih (Nat.le_of_lt hn), c.between_succ hm', List.foldl_append]

/-- A trampoline is registered once at most. -/
theorem count_trampoline (hn : n ≤ c.length) (object : Handle) (event : String) (t : Trampoline) :
    ((c.state n).world.toolkit.listeners object event).count (.trampoline t) ≤ 1 := by
  let r : Registration := ⟨object, event, .trampoline t⟩
  have once : ((c.state n).world.toolkit.registrations.erase r).count r = 0 := by
    rw [erase_enlisted (c.nodup_enlisted hn) rfl, List.count_eq_zero]
    exact fun hm => of_decide_eq_true (List.mem_filter.mp hm).2 rfl
  rw [List.count_erase_self] at once
  have same : ((c.state n).world.toolkit.listeners object event).count (.trampoline t) =
      (c.state n).world.toolkit.registrations.count r := count_heard object event _ _
  omega

/-- What has been made is not added again. -/
theorem not_added {i : Nat} {name : String} (hi : i < n) (hn : n < c.length) (hm : (c.state i).made name = some t) :
    .added ⟨object, event, .trampoline t⟩ ∉ (c.state n).deeds := by
  intro ha
  obtain ⟨name', b, -, hm', -⟩ := c.added_by hn ha rfl
  have := (c.made_inj (by omega) hn hm hm' rfl).1
  omega

/-- A trampoline that is removed has been made before, and is not registered any more. -/
theorem removed_once (hn : n < c.length) (hr : .removed ⟨object, event, .trampoline t⟩ ∈ (c.state n).deeds) :
    (∃ i name, i < n ∧ (c.state i).made name = some t) ∧
      .trampoline t ∉ (c.state (n + 1)).world.toolkit.listeners object event := by
  obtain ⟨name, b, -, hb, ht, -⟩ := c.removed_by hn hr rfl
  obtain ⟨m, hl⟩ := c.lives (Nat.le_of_lt hn) hb
  obtain ⟨i, -, hi, hm⟩ := c.mem_made.mp ((hl.listed c (Nat.le_of_lt hn) hb).subset ht)
  refine ⟨⟨i, name, hi, hm⟩, ?_⟩
  rw [c.listeners_succ hn]
  exact removed_onStanding (c.count_trampoline (Nat.le_of_lt hn) object event t) (c.not_added hi hn hm) hr

/-- Once it is not registered any more it stays so. -/
theorem stays_removed {i : Nat} {name : String} (hi : i < m) (hm : (c.state i).made name = some t) (hmn : m ≤ n)
    (hn : n ≤ c.length) (ht : .trampoline t ∉ (c.state m).world.toolkit.listeners object event) :
    .trampoline t ∉ (c.state n).world.toolkit.listeners object event := by
  induction hmn with
  | refl => exact ht
  | @step n hmn ih =>
    have hmn' : m ≤ n := hmn
    have before := ih (Nat.le_of_lt hn)
    have still := count_onStanding object event (.trampoline t) (c.state n).deeds
      ((c.state n).world.toolkit.listeners object event)
    rw [List.count_eq_zero.mpr before, List.count_eq_zero.mpr (c.not_added (by omega) hn hm), ← c.listeners_succ hn] at still
    exact List.count_eq_zero.mp (Nat.le_zero.mp still)

end Course

/-- How a fire, called in world `w` and ended in `w'`, has served the callbacks of the signal: it
    has answered their number, and each has had one round, in order, out of the world of its
    turn. -/
structure Served (w : World) (level : Nat) (object : Handle) (event : String) (info : EventInfo)
    (vs : List (Task × World)) (w' : World) : Prop where
  counted : w'.answer = .count (w.toolkit.listeners object event).length
  rounds : ∃ turns : List (SignalCallback × World), turns.map (·.1) = w.toolkit.listeners object event ∧
    vs.filter (inRound level) = turns.flatMap (round level object info) ∧
    ∀ cb u, (cb, u) ∈ turns → (u.signal cb object info).1.history = (u.response cb object info).1 ++ u.history

/-- In every state, whatever handlers do:
    - a fire comes to its end, given that calls nest no deeper than the program's limit, and has
      served the callbacks that were registered when it was called, once each and in order
      (`Served`);
    - a trampoline among them was made by an earlier subscription of a bridge for this signal, with
      that bridge's sender and parser and the handler that was subscribed;
    - a trampoline that is made later is not among them;
    - a later fire serves what the deeds since have left standing: each callback at most as often
      as it is served now and has been added in between, and a trampoline that has been removed
      not at all. -/
theorem fire_serves_what_is_registered (c : Course .free) {n : Nat} (hn : n ≤ c.length) (object : Handle) (event : String)
    (info : EventInfo) :
    (∀ (p : Program) (level : Nat), ∃ vs, Runs [⟨level, .act fun _ => .fire object event info⟩] (c.state n).world vs
      (p.run ⟨level, .act fun _ => .fire object event info⟩ (c.state n).world)) ∧
    (∀ level choose vs w', choose (c.state n).world = .fire object event info →
      Runs [⟨level, .act choose⟩] (c.state n).world vs w' → Served (c.state n).world level object event info vs w') ∧
    (∀ t, .trampoline t ∈ (c.state n).world.toolkit.listeners object event →
      ∃ i name b handler, i < n ∧ (c.state i).op? = some (.subscribe name b handler) ∧ b.refusal? = none ∧
        b.handle = object ∧ b.event = event ∧ t.sender = b.sender ∧ t.parser = b.parser ∧ t.handler = handler) ∧
    (∀ i name t, n ≤ i → i < c.length → (c.state i).made name = some t →
      .trampoline t ∉ (c.state n).world.toolkit.listeners object event) ∧
    ∀ m, n ≤ m → m ≤ c.length →
      (c.state m).world.toolkit.listeners object event =
        (c.between n m).foldl (onStanding object event) ((c.state n).world.toolkit.listeners object event) ∧
      (∀ cb, ((c.state m).world.toolkit.listeners object event).count cb ≤
        ((c.state n).world.toolkit.listeners object event).count cb + (c.between n m).count (.added ⟨object, event, cb⟩)) ∧
      ∀ i t, i < m → .removed ⟨object, event, .trampoline t⟩ ∈ (c.state i).deeds →
        .trampoline t ∉ (c.state m).world.toolkit.listeners object event := by
  have source (t : Trampoline) (ht : .trampoline t ∈ (c.state n).world.toolkit.listeners object event) :
      ∃ i name b, i < n ∧ (c.state i).world.bridges.get? name = some b ∧ (c.state i).made name = some t ∧
        (⟨object, event, .trampoline t⟩ : Registration) = b.registration t := by
    refine c.came_from hn (Toolkit.mem_trampolines.mp ?_) rfl
    exact List.mem_filterMap.mpr ⟨_, ht, rfl⟩
  refine ⟨fun p level => p.runs_run _ _, ?_, ?_, ?_,
    fun m hnm hm => ⟨c.listeners_between hnm hm object event, fun cb => ?_, fun i t hi hr => ?_⟩⟩
  · intro level choose vs w' hf h
    obtain ⟨counted, turns, ht, hv⟩ := h.fire hf
    exact ⟨counted, turns, ht, hv, fun cb u _ => (u.signal_response cb object info).1⟩
  · intro t ht
    obtain ⟨i, name, b, hi, hg, hm, e⟩ := source t ht
    obtain ⟨b', handler, ho, hr, rfl⟩ := State.made_eq_some hm
    have same : (c.state i).world.bridges.get? name = some b' := (c.allowed (by omega) ho).1
    cases hg.symm.trans same
    cases e
    exact ⟨i, name, b, handler, hi, ho, hr, rfl, rfl, rfl, rfl, rfl⟩
  · intro i name t hi hl hm ht
    obtain ⟨j, name', b, hj, -, hm', -⟩ := source t ht
    have := (c.made_inj (by omega) hl hm' hm rfl).1
    omega
  · rw [c.listeners_between hnm hm object event]
    exact count_onStanding object event cb _ _
  · obtain ⟨⟨j, name, hj, hmade⟩, gone⟩ := c.removed_once (by omega) hr
    exact c.stays_removed (by omega) hmade (by omega) hm gone

/-- A program whose handler drops the sender. -/
def dropper : Program where
  limit := 4
  body
    | .unitSignal .. => [fun _ => .dropSender "s"]
    | _ => []

/-- Of the three trampolines of that sender the first calls its handler; the others find the
    sender gone, and nothing is parsed for them. All four callbacks are counted. -/
theorem the_others_find_no_sender : ∃ (c : Course .free) (vs : List (Task × World)) (w' : World),
    (c.state c.length).world.toolkit.listeners ⟨0x1000⟩ "clicked" = [.trampoline ((clicks .unit).trampoline 0 "f"),
      .trampoline ((clicks .raw).trampoline 1 "f"), .trampoline ((clicks .unit).trampoline 2 "f"), .program "p"] ∧
    Served (c.state c.length).world 4 ⟨0x1000⟩ "clicked" ⟨0⟩ vs w' ∧
    w'.history.count (.called "f" (.sender "s")) = 1 ∧ w'.history.count (.log (.senderGone ⟨0x1000⟩)) = 2 ∧
    .parsed ⟨0x1000⟩ ⟨0⟩ ∉ w'.history ∧ w'.history.count (.called "p" (.signal ⟨0x1000⟩ ⟨0⟩)) = 1 := by
  obtain ⟨c, hc⟩ := reach_shared.course
  obtain ⟨ends, served, -⟩ := fire_serves_what_is_registered c (Nat.le_refl _) ⟨0x1000⟩ "clicked" ⟨0⟩
  obtain ⟨vs, h⟩ := ends dropper 4
  refine ⟨c, vs, _, ?_, served 4 _ vs _ rfl h, ?_⟩
  · rw [hc]
    decide
  · rw [hc]
    decide

end HandleBridge
