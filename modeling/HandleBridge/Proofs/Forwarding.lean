/-
  HandleBridge.Proofs.Forwarding — items of the toolkit do not mix.

  All items are in one table, and any number of wrappers pass calls on to it. What an item shows is
  nevertheless settled by the calls that are addressed to it since it was made
  (`Course.addressed`), whoever makes them, and whatever comes to other items in between:
  - `Course.dwells_of_alive`: an item that is there has been made in some step, and there ever since.
  - `Course.shown_eq`: it shows what those calls have set, started from a new item.
  - `properties_do_not_mix`: so each way of asking answers what was last set; two items, of one run or
    of two, for which the same has been set show the same; and a call about no item is counted, and
    changes nothing else.
-/
import HandleBridge.Proofs.DeleteQueue
import HandleBridge.Proofs.Rebinding
import HandleBridge.Proofs.Settings

namespace HandleBridge

variable {k : Conduct}

/-! ## What is addressed to an item -/

/-- The calls about items that the operation that is about to be performed makes. -/
def State.calls (c : State) : List NativeCall :=
  match c.op? with
  | some op => op.calls c.world
  | none => []

/-- What calls that are not about the item set of it is nothing. -/
theorem settingsOf_filter (h : Handle) (cs : List NativeCall) :
    settingsOf h (cs.filter fun c => c.item? = some h) = settingsOf h cs := by
  induction cs with
  | nil => rfl
  | cons c cs ih =>
    by_cases hc : c.item? = some h
    · rw [List.filter_cons_of_pos (by simpa using hc)]
      simp only [settingsOf, List.flatMap_cons] at ih ⊢
      rw [ih]
    · have nothing : c.settings h = [] := by
        unfold NativeCall.settings
        split
        · rename_i a s hs
          refine if_neg fun e => hc ?_
          rw [NativeCall.item_of_setting hs, e]
        · rfl
      rw [List.filter_cons_of_neg (by simpa using hc), ih]
      simp [settingsOf, nothing]

namespace Course

variable (c : Course k) {h : Handle} {i m n : Nat}

/-- The calls addressed to the item `h` after step `i` and before step `n`, in order. -/
def addressed (h : Handle) (i n : Nat) : List NativeCall :=
  ((List.range' (i + 1) (n - (i + 1))).flatMap fun m => (c.state m).calls).filter fun call => call.item? = some h

/-- The item `h` has been made in step `i`, and has been there ever since, up to step `n`. -/
structure Dwells (h : Handle) (i n : Nat) : Prop where
  begun : i < n
  absent : (c.state i).world.toolkit.items.contains h = false
  made : (c.state i).Makes h
  alive : ∀ m, i < m → m ≤ n → (c.state m).world.toolkit.items.contains h = true

variable {c}

theorem addressed_succ (hi : i < n) :
    settingsOf h (c.addressed h i (n + 1)) = settingsOf h (c.addressed h i n) ++ settingsOf h (c.state n).calls := by
  simp only [addressed, settingsOf_filter, steps_succ hi, List.flatMap_append, List.flatMap_cons, List.flatMap_nil,
    List.append_nil]
  simp [settingsOf, List.flatMap_append]

/-- An item that is there has been made, and has been there since. -/
theorem dwells_of_alive (hn : n ≤ c.length) (alive : (c.state n).world.toolkit.items.contains h = true) :
    ∃ i, c.Dwells h i n := by
  induction n with
  | zero =>
    obtain ⟨mode, e⟩ := c.start
    rw [e] at alive
    cases alive
  | succ n ih =>
    cases before : (c.state n).world.toolkit.items.contains h
    · have made : (c.state n).Makes h := by
        refine ((c.alive_next hn h).mp alive).resolve_right fun still => ?_
        rw [before] at still
        cases still.1
      refine ⟨n, Nat.lt_succ_self n, before, made, fun m hm hmn => ?_⟩
      obtain rfl : m = n + 1 := by omega
      exact alive
    · obtain ⟨i, hi, absent, made, since⟩ := ih (Nat.le_of_lt hn) before
      refine ⟨i, Nat.lt_succ_of_lt hi, absent, made, fun m hm hmn => ?_⟩
      rcases Nat.lt_or_ge n m with late | early
      · obtain rfl : m = n + 1 := by omega
        exact alive
      · exact since m hm early

/-- A step does to an item that it leaves what its calls set of it. -/
theorem shown_kept (hn : n < c.length) {item : NativeItem} (shown : (c.state n).world.toolkit.shown h = some item)
    (alive : (c.state (n + 1)).world.toolkit.items.contains h = true) :
    (c.state (n + 1)).world.toolkit.shown h = some ((settingsOf h (c.state n).calls).foldl NativeItem.set item) := by
  rcases c.step_cases hn with ⟨ht, hw, -⟩ | ⟨p, t, ts, ht, hw, -⟩
  · have quiet : (c.state n).calls = [] := by simp [State.calls, State.op?, ht]
    rw [hw, shown, quiet]
    rfl
  · have set : t.job.settings (c.state n).world h = settingsOf h (c.state n).calls := by
      obtain ⟨level, job⟩ := t
      cases job <;> simp only [Job.settings, Op.settings, State.calls, State.op?, ht] <;> rfl
    rw [hw] at alive ⊢
    rw [(p.altered t (c.state n).world).kept h item shown alive, set]

/-- An item that is made shows what a new item shows. -/
theorem shown_made (hn : n < c.length) (absent : (c.state n).world.toolkit.items.contains h = false)
    (alive : (c.state (n + 1)).world.toolkit.items.contains h = true) :
    (c.state (n + 1)).world.toolkit.shown h = some .fresh := by
  rcases c.step_cases hn with ⟨-, hw, -⟩ | ⟨p, t, ts, -, hw, -⟩
  · rw [hw, absent] at alive
    cases alive
  · rw [hw] at alive ⊢
    exact (p.altered t (c.state n).world).made h absent alive

/-- An item shows what the calls addressed to it have set, and otherwise what a new item shows. -/
theorem shown_eq (hd : c.Dwells h i n) (hn : n ≤ c.length) :
    (c.state n).world.toolkit.shown h = some ((settingsOf h (c.addressed h i n)).foldl NativeItem.set .fresh) := by
  obtain ⟨begun, absent, -, alive⟩ := hd
  induction begun with
  | refl =>
    have first : c.addressed h i (i + 1) = [] := by simp [addressed]
    rw [first]
    exact shown_made hn absent (alive _ (Nat.lt_succ_self i) (Nat.le_refl _))
  | @step n begun ih =>
    have begun' : i < n := begun
    have before := ih (Nat.le_of_lt hn) fun m hm hmn => alive m hm (Nat.le_succ_of_le hmn)
    rw [shown_kept hn before (alive _ (Nat.lt_succ_of_lt begun') (Nat.le_refl _)), addressed_succ begun', List.foldl_append]

end Course

/-! ## What is answered -/

/-- Two parts are one for the toolkit when they are the same, or are the one without a name and the
    one with the empty name. -/
theorem partKey_eq_iff (p q : Part) :
    partKey p = partKey q ↔ p = q ∨ (p = none ∧ q = some "") ∨ (p = some "" ∧ q = none) := by
  cases p <;> cases q <;> simp [partKey, eq_comm]

namespace World

/-- Each way of asking for something of the item `h` answers what was last set of it, of the part that
    is asked for where it is a text or a content: the toolkit's own, and those through any wrapper that
    is bound to the item. A new item is enabled and not selected and has no text and no content. -/
structure Shows (w : World) (h : Handle) (ss : List Setting) : Prop where
  disabled : (w.perform (.native (.disabledGet h))).1.answer = .flag (!(lastSet Setting.enabled? ss).getD true)
  isEnabled : ∀ ref, w.handleOf ref = h → h ≠ .null →
    (w.perform (.isEnabled ref)).1.answer = .flag ((lastSet Setting.enabled? ss).getD true)
  selected : (w.perform (.native (.selectedGet h))).1.answer = .flag ((lastSet Setting.selected? ss).getD false)
  isSelected : ∀ ref, w.handleOf ref = h → h ≠ .null →
    (w.perform (.isSelected ref)).1.answer = .flag ((lastSet Setting.selected? ss).getD false)
  partText : ∀ part, (w.perform (.native (.partTextGet h part))).1.answer =
    .text ((lastSet (Setting.textAt? (partKey part)) ss).getD none)
  text : ∀ ref part, w.handleOf ref = h → h ≠ .null →
    (w.perform (.text ref part)).1.answer = .text ((lastSet (Setting.textAt? (partKey part)) ss).getD none)
  content : ∀ part, (w.perform (.native (.partContentUnset h part))).1.answer =
    .handle (((lastSet (Setting.contentAt? (partKey part)) ss).getD none).getD .null)
  updates : ss.count .updated < 2 ^ 32 → w.toolkit.updateCount h = ss.count .updated

theorem shows_of_shown {w : World} {h : Handle} {ss : List Setting}
    (hs : w.toolkit.shown h = some (ss.foldl NativeItem.set .fresh)) : w.Shows h ss := by
  obtain ⟨disabled, selected, updates, texts, contents⟩ := Toolkit.getters_of_shown hs
  have enabled := NativeItem.disabled_foldl ss .fresh
  have text (part : Part) : w.toolkit.partText h part = (lastSet (Setting.textAt? (partKey part)) ss).getD none :=
    (texts part).trans (NativeItem.texts_foldl (partKey part) ss .fresh)
  rw [NativeItem.selected_foldl] at selected
  -- a wrapper that has the handle passes the question on
  have through {ref : Ref} {f : Handle → World} (bound : w.handleOf ref = h) (real : h ≠ .null) : w.withHandle ref f = f h :=
    w.withHandle_ne_null bound real f
  refine ⟨?_, fun ref bound real => ?_, ?_, fun ref bound real => ?_, fun part => ?_, fun ref part bound real => ?_,
    fun part => ?_, fun few => ?_⟩
  · show Answer.flag (w.toolkit.disabled h) = _
    rw [disabled, ← Bool.not_not (ss.foldl NativeItem.set .fresh).disabled, enabled]
    rfl
  · simp only [perform, through bound real]
    show Answer.flag (!w.toolkit.disabled h) = _
    rw [disabled, enabled]
    rfl
  · exact congrArg Answer.flag selected
  · simp only [perform, through bound real]
    exact congrArg Answer.flag selected
  · exact congrArg Answer.text (text part)
  · simp only [perform, through bound real]
    exact congrArg Answer.text (text part)
  · show Answer.handle (w.toolkit.partContent h part) = _
    rw [contents, NativeItem.contents_foldl]
    rfl
  · rw [updates, NativeItem.updates_foldl]
    show (0 + ss.count .updated) % 2 ^ 32 = _
    rw [Nat.zero_add, Nat.mod_eq_of_lt few]

/-- The world after a call about an item that is not there, but for the log and the answer: the
    call has been counted. -/
def counted (w w' : World) : World :=
  { w with toolkit := { w.toolkit with calls := w.toolkit.calls + 1 }, history := w'.history, answer := w'.answer }

theorem callToolkit_unknown {w : World} {call : NativeCall} {h : Handle} (about : call.item? = some h)
    (unknown : w.toolkit.items.contains h = false) : w.callToolkit call = w.counted (w.callToolkit call) := by
  unfold callToolkit
  cases w.toolkit.complaint call with
  | none =>
    simp only [Toolkit.apply_unknown about unknown]
    rfl
  | some r =>
    simp only [log, emit, Toolkit.apply_unknown about unknown]
    rfl

/-- An operation that makes one call, about an item that is not there, makes no code of the program
    due. -/
theorem perform_unknown {w : World} {op : Op} {call : NativeCall} {h : Handle} (one : op.calls w = [call])
    (about : call.item? = some h) (unknown : w.toolkit.items.contains h = false) :
    (w.perform op).1 = w.counted (w.perform op).1 ∧ ∀ j ∈ (w.perform op).2, j = .answer .none := by
  have through {ref : Ref} (f : Handle → NativeCall) (a : Handle → Answer) (hc : w.callsOn ref (fun b => [f b]) = [call])
      (ho : w.perform op = (w.withHandle ref fun b => (w.native (f b)).answering (a b), [])) :
      (w.perform op).1 = w.counted (w.perform op).1 ∧ ∀ j ∈ (w.perform op).2, j = .answer .none := by
    unfold callsOn at hc
    split at hc
    · cases hc
    · rename_i real
      obtain rfl := (List.cons.inj hc).1
      rw [ho]
      refine ⟨?_, by simp⟩
      rw [w.withHandle_ne_null rfl fun e => real (e ▸ rfl)]
      have called := callToolkit_unknown (w := w.emit (.native (f (w.handleOf ref)))) about unknown
      rw [native, called]
      rfl
  cases op with
  | native c =>
    obtain rfl : c = call := (List.cons.inj one).1
    have called := callToolkit_unknown about unknown
    cases c with
    | itemDel a =>
      cases about
      have absent : (w.callToolkit (.itemDel h)).toolkit.items.contains h = false := by
        rw [called]
        exact unknown
      have carried : (w.perform (.native (.itemDel h))).1 = w.counted (w.perform (.native (.itemDel h))).1 ∧
          ((w.callToolkit (.itemDel h)).carryOut h).2 = [] := by
        simp only [perform, carryOut]
        split
        · rw [destroy_unknown absent, called]
          exact ⟨rfl, rfl⟩
        · rw [called]
          exact ⟨rfl, rfl⟩
      refine ⟨carried.1, fun j hj => ?_⟩
      simpa [perform, carried.2] using hj
    | _ =>
      refine ⟨?_, by simp [perform]⟩
      show (w.callToolkit _).answering _ = _
      rw [called]
      rfl
  | setEnabled ref v => exact through (.disabledSet · (!v)) (fun _ => .none) one rfl
  | isEnabled ref => exact through .disabledGet (fun b => .flag (!w.toolkit.disabled b)) one rfl
  | setText ref part s => exact through (.partTextSet · part s) (fun _ => .none) one rfl
  | text ref part => exact through (.partTextGet · part) (fun b => .text (w.toolkit.partText b part)) one rfl
  | setSelected ref v => exact through (.selectedSet · v) (fun _ => .none) one rfl
  | isSelected ref => exact through .selectedGet (fun b => .flag (w.toolkit.selected b)) one rfl
  | update ref => exact through .update (fun _ => .none) one rfl
  | setContent ref part content preserve =>
    simp only [Op.calls, callsOn, Toolkit.replacing] at one
    split at one
    · cases one
    · split at one <;> cases one
  | _ => cases one

end World

/-! ## A run, and another -/

/-- In every state of every run:
    - an item that is there has been made in some step, and has been there since;
    - each way of asking for something of it answers what was last set of it by the calls addressed to
      it since then, through whichever wrapper they came, and otherwise what a new item answers;
    - what is to be seen of it depends on those settings alone: an item for which the same has been
      set in another state, or in another run, under whatever handle, shows the same;
    - an operation that makes one call, about an item that is not there, is counted, and changes
      nothing else but the log and the answer.
    A text or a content belongs to a part; the part without a name and the one with the empty name are
    one, and no other two are. -/
theorem properties_do_not_mix (c : Course k) {n : Nat} (hn : n ≤ c.length) :
    (∀ h, (c.state n).world.toolkit.items.contains h = true → ∃ i, c.Dwells h i n) ∧
    (∀ h i, c.Dwells h i n → (c.state n).world.Shows h (settingsOf h (c.addressed h i n))) ∧
    (∀ h i (k' : Conduct) (c' : Course k') (n' : Nat) h' i', n' ≤ c'.length → c.Dwells h i n → c'.Dwells h' i' n' →
      settingsOf h' (c'.addressed h' i' n') = settingsOf h (c.addressed h i n) →
      (c'.state n').world.toolkit.shown h' = (c.state n).world.toolkit.shown h) ∧
    (∀ op call h, op.calls (c.state n).world = [call] → call.item? = some h →
      (c.state n).world.toolkit.items.contains h = false →
      ((c.state n).world.perform op).1 = (c.state n).world.counted ((c.state n).world.perform op).1 ∧
        ∀ j ∈ ((c.state n).world.perform op).2, j = .answer .none) ∧
    ∀ p q : Part, partKey p = partKey q ↔ p = q ∨ (p = none ∧ q = some "") ∨ (p = some "" ∧ q = none) := by
  refine ⟨fun h alive => c.dwells_of_alive hn alive, fun h i dwells => World.shows_of_shown (Course.shown_eq dwells hn),
    fun h i k' c' n' h' i' hn' dwells dwells' same => ?_, fun op call h one about unknown => ?_, partKey_eq_iff⟩
  · rw [Course.shown_eq dwells hn, Course.shown_eq dwells' hn', same]
  · exact World.perform_unknown one about unknown

/-- Two items are set through their wrappers, by turns. -/
def byTurns : List Op :=
  [.createItem, .createItem, .newGrid ⟨0x1000⟩ .unit (some "a"), .newGrid ⟨0x1010⟩ .unit (some "b"), .setEnabled ⟨0⟩ false,
    .setText ⟨1⟩ none "x", .update ⟨1⟩, .setText ⟨0⟩ (some "") "y", .setSelected ⟨1⟩ true, .setText ⟨1⟩ (some "") "z",
    .update ⟨1⟩]

theorem can_perform_byTurns : (World.start .synchronous).CanPerform .free byTurns :=
  ⟨⟨⟨trivial, Or.inl trivial⟩, rfl⟩, ⟨⟨trivial, Or.inl trivial⟩, rfl⟩, ⟨⟨rfl, trivial, trivial⟩, rfl⟩,
    ⟨⟨rfl, trivial, trivial⟩, rfl⟩, ⟨⟨⟨_, rfl, rfl⟩, trivial⟩, rfl⟩, ⟨⟨⟨_, rfl, rfl⟩, trivial⟩, rfl⟩,
    ⟨⟨⟨_, rfl, rfl⟩, trivial⟩, rfl⟩, ⟨⟨⟨_, rfl, rfl⟩, trivial⟩, rfl⟩, ⟨⟨⟨_, rfl, rfl⟩, trivial⟩, rfl⟩,
    ⟨⟨⟨_, rfl, rfl⟩, trivial⟩, rfl⟩, ⟨⟨⟨_, rfl, rfl⟩, trivial⟩, rfl⟩, trivial⟩

/-- The same is set for the only item of another run, by calls of the program itself. -/
def byHand : List Op :=
  [.createItem, .native (.partTextSet ⟨0x1000⟩ none "x"), .native (.update ⟨0x1000⟩), .native (.selectedSet ⟨0x1000⟩ true),
    .native (.partTextSet ⟨0x1000⟩ none "z"), .native (.update ⟨0x1000⟩)]

theorem can_perform_byHand : (World.start .synchronous).CanPerform .free byHand :=
  ⟨⟨⟨trivial, Or.inl trivial⟩, rfl⟩, ⟨⟨trivial, trivial⟩, rfl⟩, ⟨⟨trivial, trivial⟩, rfl⟩, ⟨⟨trivial, trivial⟩, rfl⟩,
    ⟨⟨trivial, trivial⟩, rfl⟩, ⟨⟨trivial, trivial⟩, rfl⟩, trivial⟩

/-- Each wrapper answers for its own item; the second item shows what the item of the other run shows;
    and a call about neither is counted. -/
theorem set_by_turns_and_by_hand :
    let c := Course.errands byTurns can_perform_byTurns
    let d := Course.errands byHand can_perform_byHand
    let w := (c.state 22).world
    (w.perform (.isEnabled ⟨0⟩)).1.answer = .flag false ∧ (w.perform (.text ⟨0⟩ none)).1.answer = .text (some "y") ∧
    (w.perform (.isEnabled ⟨1⟩)).1.answer = .flag true ∧ (w.perform (.text ⟨1⟩ none)).1.answer = .text (some "z") ∧
    w.toolkit.updateCount ⟨0x1010⟩ = 2 ∧ (d.state 12).world.toolkit.shown ⟨0x1000⟩ = w.toolkit.shown ⟨0x1010⟩ ∧
    (w.perform (.native (.update ⟨0x1020⟩))).1.toolkit = { w.toolkit with calls := w.toolkit.calls + 1 } := by
  intro c d w
  have first : c.Dwells ⟨0x1000⟩ 1 22 := by
    refine ⟨by decide, by decide, rfl, fun m hm hn => ?_⟩
    interval_cases m <;> rfl
  have second : c.Dwells ⟨0x1010⟩ 3 22 := by
    refine ⟨by decide, by decide, rfl, fun m hm hn => ?_⟩
    interval_cases m <;> rfl
  have alone : d.Dwells ⟨0x1000⟩ 1 12 := by
    refine ⟨by decide, by decide, rfl, fun m hm hn => ?_⟩
    interval_cases m <;> rfl
  obtain ⟨-, shows, same, unknown, -⟩ := properties_do_not_mix c (n := 22) (by decide)
  have one := shows _ _ first
  have two := shows _ _ second
  refine ⟨one.isEnabled ⟨0⟩ rfl (by decide), one.text ⟨0⟩ none rfl (by decide), two.isEnabled ⟨1⟩ rfl (by decide),
    two.text ⟨1⟩ none rfl (by decide), two.updates (by decide), same _ _ _ d 12 _ _ (by decide) second alone (by decide), ?_⟩
  rw [(unknown (.native (.update ⟨0x1020⟩)) (.update ⟨0x1020⟩) ⟨0x1020⟩ rfl rfl (by decide)).1]
  rfl

end HandleBridge
