/-
  HandleBridge.Proofs.PartContents — what an item says of the contents of its parts.

  Putting content into a part through an item is written down twice: in the toolkit's item,
  under `partKey`, and in the wrapper's part cache, under `cacheKey`. The two sides forget at
  different times. The toolkit forgets when the item is destroyed; the cache is cleared at
  teardown, and binding the wrapper to another item does not clear it: it says what was last put
  through this wrapper. So each side is read off the puts of the run on its own
  (`Course.through`, `Course.into`), and they agree where these are the same.
  - `cached_eq`, `held_eq`: both sides hold the last put under a key.
  - `Dedicated`: a step in which what is put through the wrapper and what is put into the item
    are the same; over such steps the two lists stay the same (`through_eq_into`).
  - `contents_put_through_an_item`: both sides, for parts that no key confuses.
  - `rebinding_keeps_the_cache`: an item that is bound to another object still says what was
    put into the first.
-/
import HandleBridge.Proofs.Trampolines

namespace HandleBridge

/-! ## The last put -/

/-- The content last put into the part. -/
def lastPut (p : Part) (ps : List (Part × Handle)) : Option Handle :=
  ((ps.filter fun put => put.1 = p).map (·.2)).getLast?

/-- The content last put into a part with that key. -/
def lastUnder (key : Part → String) (k : String) (ps : List (Part × Handle)) : Option Handle :=
  ((ps.filter fun put => key put.1 = k).map (·.2)).getLast?

/-- No key confuses the part with another one that content was put into. -/
def Distinct (p : Part) (ps : List (Part × Handle)) : Prop :=
  ∀ put ∈ ps, (Wrapper.cacheKey put.1 = Wrapper.cacheKey p → put.1 = p) ∧ (partKey put.1 = partKey p → put.1 = p)

theorem lastUnder_snoc (key : Part → String) (k : String) (ps : List (Part × Handle)) (p : Part) (content : Handle) :
    lastUnder key k (ps ++ [(p, content)]) = if key p = k then some content else lastUnder key k ps := by
  by_cases h : key p = k <;> simp [lastUnder, List.filter_append, h]

theorem lastUnder_eq_lastPut {key : Part → String} {p : Part} {ps : List (Part × Handle)}
    (h : ∀ put ∈ ps, key put.1 = key p → put.1 = p) : lastUnder key (key p) ps = lastPut p ps := by
  have same : (ps.filter fun put => key put.1 = key p) = ps.filter fun put => put.1 = p := by
    refine List.filter_congr fun put hm => ?_
    rw [decide_eq_decide]
    exact ⟨h put hm, fun e => congrArg key e⟩
  rw [lastUnder, lastPut, same]

/-- A part with a name of its own is confused with none. -/
theorem distinct_named {name : String} (h : name ≠ "") (hd : name ≠ Wrapper.defaultPart) (ps : List (Part × Handle)) :
    Distinct (some name) ps := by
  rintro ⟨q, content⟩ -
  cases q with
  | none => exact ⟨fun e => absurd e.symm hd, fun e => absurd e.symm h⟩
  | some other => exact ⟨fun e => congrArg some e, fun e => congrArg some e⟩

/-- The part without a name is confused with none where those two names are not used. -/
theorem distinct_unnamed {ps : List (Part × Handle)}
    (h : ∀ put ∈ ps, put.1 ≠ some "" ∧ put.1 ≠ some Wrapper.defaultPart) : Distinct none ps := by
  rintro ⟨q, content⟩ hm
  obtain ⟨he, hd⟩ := h _ hm
  cases q with
  | none => exact ⟨fun _ => rfl, fun _ => rfl⟩
  | some other => exact ⟨fun e => absurd (congrArg some e) hd, fun e => absurd (congrArg some e) he⟩

/-! ## Puts -/

namespace Deed

/-- What has been put through the wrapper since its cache was cleared, in order. -/
def onThrough (ref : Ref) (ps : List (Part × Handle)) : Deed → List (Part × Handle)
  | cached a part content => if a = ref then ps ++ [(part, content)] else ps
  | cleared a => if a = ref then [] else ps
  | _ => ps

/-- What has been put into the item since it was destroyed, in order. -/
def onInto (h : Handle) (ps : List (Part × Handle)) : Deed → List (Part × Handle)
  | filled a part content => if a = h then ps ++ [(part, content)] else ps
  | felled a => if a = h then [] else ps
  | _ => ps

/-- The deed changes the content of a part on one of the two sides. -/
def Puts : Deed → Prop
  | filled .. | emptied .. | cached .. => True
  | _ => False

end Deed

theorem cached_eq (ref : Ref) (k : String) (ds : List Deed) (ps : List (Part × Handle)) :
    ds.foldl (Deed.onCache ref k) (lastUnder Wrapper.cacheKey k ps) =
      lastUnder Wrapper.cacheKey k (ds.foldl (Deed.onThrough ref) ps) := by
  induction ds generalizing ps with
  | nil => rfl
  | cons d ds ih =>
    have one : Deed.onCache ref k (lastUnder Wrapper.cacheKey k ps) d =
        lastUnder Wrapper.cacheKey k (Deed.onThrough ref ps d) := by
      cases d with
      | cached a part content =>
        simp only [Deed.onCache, Deed.onThrough]
        by_cases ha : a = ref
        · simp only [ha, true_and, if_true, lastUnder_snoc]
        · simp only [ha, false_and, if_false]
      | cleared a =>
        simp only [Deed.onCache, Deed.onThrough]
        by_cases ha : a = ref <;> simp [ha, lastUnder]
      | _ => rfl
    rw [List.foldl_cons, List.foldl_cons, one, ih]

/-- Where nothing is taken out of a part by hand. -/
theorem held_eq (h : Handle) (k : String) (ds : List Deed) (ps : List (Part × Handle)) (hd : ∀ part, .emptied h part ∉ ds) :
    ds.foldl (Deed.onContent h k) (lastUnder partKey k ps) = lastUnder partKey k (ds.foldl (Deed.onInto h) ps) := by
  induction ds generalizing ps with
  | nil => rfl
  | cons d ds ih =>
    have one : Deed.onContent h k (lastUnder partKey k ps) d = lastUnder partKey k (Deed.onInto h ps d) := by
      cases d with
      | filled a part content =>
        simp only [Deed.onContent, Deed.onInto]
        by_cases ha : a = h
        · simp only [ha, true_and, if_true, lastUnder_snoc]
        · simp only [ha, false_and, if_false]
      | felled a =>
        simp only [Deed.onContent, Deed.onInto]
        by_cases ha : a = h <;> simp [ha, lastUnder]
      | emptied a part =>
        have hne : a ≠ h := fun e => hd part (e ▸ List.mem_cons_self ..)
        simp [Deed.onContent, Deed.onInto, hne]
      | _ => rfl
    rw [List.foldl_cons, List.foldl_cons, one, ih _ fun part hm => hd part (List.mem_cons_of_mem _ hm)]

/-- The program changes the content of a part without an item. -/
def Op.BypassesItems : Op → Prop
  | .native (.partContentSet ..) | .native (.partContentUnset ..) => True
  | _ => False

namespace State

/-- Without that, content is put by one operation alone. -/
theorem puts_of_deed {c : State} (ht : ∀ op, c.op? = some op → op.Typed c.world)
    (hb : ∀ op, c.op? = some op → ¬ op.BypassesItems) {d : Deed} (hd : d ∈ c.deeds) (hp : d.Puts) :
    ∃ ref part content preserve, c.op? = some (.setContent ref part content preserve) ∧
      (d = .cached ref part content ∨ d = .filled (c.world.handleOf ref) part content) := by
  rcases ho : c.op? with _ | op
  · obtain ⟨h, rfl⟩ | ⟨ref, rfl⟩ := deeds_of_quiet ho hd <;> exact hp.elim
  · rw [deeds_of_op ho] at hd
    rcases hn : op.bridge? with _ | name
    · cases op with
      | setContent ref part content preserve =>
        refine ⟨ref, part, content, preserve, rfl, ?_⟩
        simp only [Op.deeds, World.puts] at hd
        split at hd
        · cases hd
        · simp only [List.mem_append, List.mem_singleton] at hd
          rcases hd with (hd | hd) | rfl
          · split at hd
            · cases hd
            · cases NativeCall.mem_scraps hd
              exact hp.elim
          · simp only [NativeCall.deeds] at hd
            split at hd
            · exact Or.inr (List.mem_singleton.mp hd)
            · cases hd
          · exact Or.inl rfl
      | destroy h =>
        cases Toolkit.mem_fells hd
        exact hp.elim
      | delete ref =>
        simp only [Op.deeds] at hd
        split at hd
        · cases hd
        · cases Toolkit.mem_fellsNow hd
          exact hp.elim
      | native c =>
        cases c with
        | itemDel h =>
          cases Toolkit.mem_fellsNow hd
          exact hp.elim
        | objectDel object =>
          cases NativeCall.mem_scraps hd
          exact hp.elim
        | callbackAdd | callbackDel =>
          cases List.mem_singleton.mp hd
          exact hp.elim
        | partContentSet | partContentUnset => exact absurd trivial (hb _ ho)
        | _ => cases hd
      | newBridge | dropBridge | subscribe | unsubscribe | shutdown | detach => cases hn
      | _ => cases hd
    · rcases mem_deeds_bridge ho (ht op ho) hn hd with ⟨b, rfl⟩ | ⟨b, t, handler, -, -, -, rfl⟩ | ⟨b, t, -, -, rfl⟩ <;>
        exact hp.elim

/-- In this step what is put through the wrapper is put into the item, which is alive, and nothing
    else is put into it; neither is the cache cleared nor the item destroyed. -/
structure Dedicated (c : State) (ref : Ref) (h : Handle) : Prop where
  puts : ∀ a part content preserve, c.op? = some (.setContent a part content preserve) →
    a = ref ∨ c.world.handleOf a = h → a = ref ∧ c.world.handleOf ref = h ∧ c.world.toolkit.items.contains h = true
  uncleared : .cleared ref ∉ c.deeds
  spared : .felled h ∉ c.deeds

/-- The step does to the two lists the same. -/
theorem Dedicated.same {c : State} {ref : Ref} {h : Handle} (hc : c.Dedicated ref h)
    (ht : ∀ op, c.op? = some op → op.Typed c.world) (hb : ∀ op, c.op? = some op → ¬ op.BypassesItems)
    (ps : List (Part × Handle)) : c.deeds.foldl (Deed.onThrough ref) ps = c.deeds.foldl (Deed.onInto h) ps := by
  by_cases hs : ∃ part content preserve, c.op? = some (.setContent ref part content preserve)
  · obtain ⟨part, content, preserve, ho⟩ := hs
    obtain ⟨-, hh, alive⟩ := hc.puts ref part content preserve ho (Or.inl rfl)
    have filled : (NativeCall.partContentSet h part content).deeds c.world.toolkit = [.filled h part content] := if_pos alive
    rw [deeds_of_op ho]
    simp only [Op.deeds, World.puts, hh, filled]
    split
    · rfl
    · -- the content that is replaced may be destroyed first
      have apart (keep : Bool) (old : Handle) : ∀ d ∈ if keep then [] else (NativeCall.objectDel old).deeds c.world.toolkit,
          Deed.onThrough ref ps d = ps ∧ Deed.onInto h ps d = ps := by
        intro d hd
        split at hd
        · cases hd
        · cases NativeCall.mem_scraps hd
          exact ⟨rfl, rfl⟩
      rw [List.foldl_append, List.foldl_append, List.foldl_append, List.foldl_append,
        World.foldl_still fun d hd => (apart _ _ d hd).1, World.foldl_still fun d hd => (apart _ _ d hd).2]
      simp [Deed.onThrough, Deed.onInto]
  · -- nothing is put, cleared or destroyed on either side
    have still (d : Deed) (hd : d ∈ c.deeds) : Deed.onThrough ref ps d = ps ∧ Deed.onInto h ps d = ps := by
      cases d with
      | cached a part content =>
        obtain ⟨_, _, _, preserve, ho, e | e⟩ := puts_of_deed ht hb hd trivial
        · cases e
          have hne : a ≠ ref := fun e => hs ⟨part, content, preserve, e ▸ ho⟩
          exact ⟨if_neg hne, rfl⟩
        · cases e
      | filled a part content =>
        obtain ⟨other, _, _, preserve, ho, e | e⟩ := puts_of_deed ht hb hd trivial
        · cases e
        · cases e
          have hne : c.world.handleOf other ≠ h := fun e =>
            hs ⟨part, content, preserve, (hc.puts other part content preserve ho (Or.inr e)).1 ▸ ho⟩
          exact ⟨rfl, if_neg hne⟩
      | cleared a =>
        have hne : a ≠ ref := fun e => hc.uncleared (e ▸ hd)
        exact ⟨if_neg hne, rfl⟩
      | felled a =>
        have hne : a ≠ h := fun e => hc.spared (e ▸ hd)
        exact ⟨rfl, if_neg hne⟩
      | _ => exact ⟨rfl, rfl⟩
    rw [World.foldl_still fun d hd => (still d hd).1, World.foldl_still fun d hd => (still d hd).2]

end State

namespace Course

variable {k : Conduct} (c : Course k)

/-- Up to step `n` the program leaves contents to the items. -/
def OnlyThroughItems (n : Nat) : Prop := ∀ i < n, ∀ op, (c.state i).op? = some op → ¬ op.BypassesItems

/-- What has been put through the wrapper since its cache was last cleared, in order. -/
def through (ref : Ref) (n : Nat) : List (Part × Handle) := (c.chronicle n).foldl (Deed.onThrough ref) []

/-- What has been put into the item since it was last destroyed, in order. -/
def into (h : Handle) (n : Nat) : List (Part × Handle) := (c.chronicle n).foldl (Deed.onInto h) []

theorem mem_chronicle {n : Nat} {d : Deed} (hd : d ∈ c.chronicle n) : ∃ i < n, d ∈ (c.state i).deeds := by
  obtain ⟨i, hi, hd⟩ := List.mem_flatMap.mp hd
  exact ⟨i, List.mem_range.mp hi, hd⟩

variable {c} {m n : Nat} {ref : Ref} {h : Handle}

theorem typed (hn : n < c.length) (op : Op) (ho : (c.state n).op? = some op) : op.Typed (c.state n).world :=
  (c.allowed hn ho).1

/-- Both lists grow alike over steps that are dedicated. -/
theorem through_eq_into (hm : m ≤ n) (hn : n ≤ c.length) (only : c.OnlyThroughItems n)
    (same : c.through ref m = c.into h m) (hd : ∀ i, m ≤ i → i < n → (c.state i).Dedicated ref h) :
    c.through ref n = c.into h n := by
  induction hm with
  | refl => exact same
  | @step n hm ih =>
    have hm' : m ≤ n := hm
    have before := ih (Nat.le_of_lt hn) (fun i hi => only i (Nat.lt_succ_of_lt hi)) fun i hi hin =>
      hd i hi (Nat.lt_succ_of_lt hin)
    have step := (hd n hm' (Nat.lt_succ_self n)).same (typed hn) (only n (Nat.lt_succ_self n))
    rw [through, into, chronicle_succ, List.foldl_append, List.foldl_append]
    rw [through, into] at before
    rw [before, step]

theorem contentAt_eq (hn : n ≤ c.length) (only : c.OnlyThroughItems n) (h : Handle) (key : String) :
    (c.state n).world.toolkit.contentAt h key = lastUnder partKey key (c.into h n) := by
  obtain ⟨mode, told⟩ := c.tells hn
  rw [told.contents]
  refine held_eq h key _ [] fun part hm => ?_
  obtain ⟨i, hi, hd⟩ := c.mem_chronicle hm
  obtain ⟨_, _, _, _, -, e | e⟩ := State.puts_of_deed (typed (by omega)) (only i hi) hd trivial <;> cases e

theorem contents_eq (hn : n ≤ c.length) {x : Wrapper} (hx : (c.state n).world.wrappers.get? ref = some x) (key : String) :
    x.contents.get? key = lastUnder Wrapper.cacheKey key (c.through ref n) := by
  obtain ⟨mode, told⟩ := c.tells hn
  rcases told.caches ref x hx with ⟨_, hnone, -⟩ | ⟨-, hc⟩
  · cases hnone
  · rw [hc]
    exact cached_eq ref key _ []

end Course

/-! ## A run -/

/-- The operations are allowed one after the other, and run no code of the program. -/
def World.CanPerform (k : Conduct) : World → List Op → Prop
  | _, [] => True
  | w, op :: ops => (k.Allows w op ∧ (w.perform op).2 = []) ∧ CanPerform k (w.perform op).1 ops

theorem World.CanPerform.at {k : Conduct} {w : World} {ops : List Op} (h : w.CanPerform k ops) {i : Nat} {op : Op}
    (hi : ops[i]? = some op) :
    k.Allows ((ops.take i).foldl (fun w op => (w.perform op).1) w) op ∧
      (((ops.take i).foldl (fun w op => (w.perform op).1) w).perform op).2 = [] := by
  induction ops generalizing w i with
  | nil => cases hi
  | cons first ops ih =>
    cases i with
    | zero =>
      cases hi
      exact h.1
    | succ i => exact ih h.2 hi

namespace Course

/-- The program performs the operations in order, each outside every handler. -/
def errands {k : Conduct} (ops : List Op) (h : (World.start .synchronous).CanPerform k ops) : Course k where
  length := 2 * ops.length
  state i :=
    ⟨(ops.take (i / 2)).foldl (fun w op => (w.perform op).1) (.start .synchronous),
      if i % 2 = 0 then [] else ops[i / 2]?.toList.map fun op => ⟨4, .act fun _ => op⟩⟩
  start := ⟨.synchronous, rfl⟩
  next i hi := by
    obtain ⟨op, ho⟩ : ∃ op, ops[i / 2]? = some op := ⟨_, List.getElem?_eq_getElem (by omega)⟩
    obtain ⟨allowed, quiet⟩ := h.at ho
    rcases Nat.mod_two_eq_zero_or_one i with he | he
    · rw [show (i + 1) / 2 = i / 2 by omega, if_pos he, if_neg (by omega), ho]
      exact .call _ 4 _
    · rw [if_neg (by omega), if_pos (by omega), ho, show (i + 1) / 2 = i / 2 + 1 by omega, List.take_add_one, ho,
        List.foldl_append]
      refine .turn ?_
      generalize (ops.take (i / 2)).foldl (fun w op => (w.perform op).1) (World.start .synchronous) = w at allowed quiet
      have turn : Turn k ⟨w, [⟨4, .act fun _ => op⟩]⟩ ⟨(w.perform op).1, (w.perform op).2.map (⟨4, ·⟩) ++ []⟩ :=
        .mk mover w _ [] fun choose e => by cases e; exact allowed
      rwa [quiet] at turn

theorem mem_errands {k : Conduct} {ops : List Op} {h : (World.start .synchronous).CanPerform k ops} {i : Nat} {op : Op}
    (ho : ((errands ops h).state i).op? = some op) : op ∈ ops := by
  rcases hi : ops[i / 2]? with _ | op'
  · simp [State.op?, errands, hi] at ho
  · by_cases he : i % 2 = 0
    · simp [State.op?, errands, he] at ho
    · simp only [State.op?, errands, he, hi, if_false, Option.toList, List.map_cons, List.map_nil, Option.some.injEq] at ho
      exact ho ▸ List.mem_of_getElem? hi

end Course

/-- Content is put into an item of the toolkit, and then the wrapper is bound to another. -/
def refilling : List Op :=
  [.createItem, .createItem, .createObject, .newGrid ⟨0x1000⟩ .unit (some "a"), .setContent ⟨0⟩ none ⟨0x1020⟩ false,
    .bind ⟨0⟩ ⟨0x1010⟩]

theorem can_perform_refilling : (World.start .synchronous).CanPerform .sole refilling :=
  ⟨⟨⟨trivial, Or.inr (by decide)⟩, rfl⟩, ⟨⟨trivial, Or.inr (by decide)⟩, rfl⟩, ⟨⟨trivial, Or.inr (by decide)⟩, rfl⟩,
    ⟨⟨rfl, rfl, Or.inr (by decide)⟩, rfl⟩, ⟨⟨⟨_, rfl, rfl⟩, trivial⟩, rfl⟩,
    ⟨⟨⟨by decide, by decide⟩, rfl, Or.inr (by decide)⟩, rfl⟩, trivial⟩

theorem only_refilling (n : Nat) : (Course.errands refilling can_perform_refilling).OnlyThroughItems n := by
  intro i _ op ho
  have hm := Course.mem_errands ho
  simp only [refilling, List.mem_cons, List.not_mem_nil, or_false] at hm
  rcases hm with rfl | rfl | rfl | rfl | rfl | rfl <;> exact id

/-! ## Both sides -/

/-- In every state of a run that changes contents only through items:
    - an item says of a part what was last put into it through this item, since its cache was last
      cleared by a teardown; the toolkit holds what was last put into it in that item, since it was
      created;
    - so where what has been put through the item is what has been put into the item that it is
      bound to, both say the same of every part;
    - that is so as long as all that is put through the item goes there while it is alive, nothing
      else does, and neither is the cache cleared nor the item destroyed.
    Each time this is about parts that no key confuses with another that was used: all that have
    a name of their own, and the part without a name unless one of two names is used. -/
theorem contents_put_through_an_item {k : Conduct} (c : Course k) {n : Nat} (hn : n ≤ c.length) (only : c.OnlyThroughItems n)
    {ref : Ref} {x : Wrapper} (hx : (c.state n).world.wrappers.get? ref = some x) :
    (∀ p, Distinct p (c.through ref n) → x.partContent p = lastPut p (c.through ref n)) ∧
    (∀ h p, Distinct p (c.into h n) →
      (c.state n).world.toolkit.contentAt h (partKey p) = lastPut p (c.into h n)) ∧
    (c.through ref n = c.into x.handle n → ∀ p, Distinct p (c.into x.handle n) →
      x.partContent p = (c.state n).world.toolkit.contentAt x.handle (partKey p)) ∧
    (∀ h m, m ≤ n → c.through ref m = c.into h m → (∀ i, m ≤ i → i < n → (c.state i).Dedicated ref h) →
      c.through ref n = c.into h n) ∧
    (∀ name ps, name ≠ "" → name ≠ Wrapper.defaultPart → Distinct (some name) ps) ∧
    ∀ ps, (∀ put ∈ ps, put.1 ≠ some "" ∧ put.1 ≠ some Wrapper.defaultPart) → Distinct none ps := by
  have noted (p : Part) (hp : Distinct p (c.through ref n)) : x.partContent p = lastPut p (c.through ref n) :=
    (Course.contents_eq hn hx _).trans (lastUnder_eq_lastPut fun put hm => (hp put hm).1)
  have held (h : Handle) (p : Part) (hp : Distinct p (c.into h n)) :
      (c.state n).world.toolkit.contentAt h (partKey p) = lastPut p (c.into h n) :=
    (Course.contentAt_eq hn only h _).trans (lastUnder_eq_lastPut fun put hm => (hp put hm).2)
  refine ⟨noted, held, fun same p hp => ?_, fun h m hm same hd => Course.through_eq_into hm hn only same hd,
    fun name ps he hd => distinct_named he hd ps, fun ps hps => distinct_unnamed hps⟩
  rw [noted p (same ▸ hp), held x.handle p hp, same]

/-- Before it is bound elsewhere, item and toolkit say the same of the part without a name. -/
theorem filled_on_both_sides : ∃ x, ((Course.errands refilling can_perform_refilling).state 10).world.wrappers.get? ⟨0⟩ = some x ∧
    x.handle = ⟨0x1000⟩ ∧ x.partContent none = some ⟨0x1020⟩ ∧
    ((Course.errands refilling can_perform_refilling).state 10).world.toolkit.contentAt ⟨0x1000⟩ (partKey none) = some ⟨0x1020⟩ := by
  let c := Course.errands refilling can_perform_refilling
  obtain ⟨x, hx⟩ : ∃ x, (c.state 10).world.wrappers.get? ⟨0⟩ = some x := ⟨_, rfl⟩
  have bound : x.handle = ⟨0x1000⟩ := by cases hx; rfl
  obtain ⟨noted, -, agree, -, -, unnamed⟩ :=
    contents_put_through_an_item c (show 10 ≤ c.length by decide) (only_refilling 10) hx
  have puts : c.through ⟨0⟩ 10 = [(none, ⟨0x1020⟩)] := by decide
  have same : c.through ⟨0⟩ 10 = c.into x.handle 10 := by
    rw [bound]
    decide
  have distinct : Distinct none (c.through ⟨0⟩ 10) := unnamed _ (by rw [puts]; decide)
  have here : x.partContent none = some ⟨0x1020⟩ := by
    rw [noted none distinct, puts]
    rfl
  refine ⟨x, hx, bound, here, ?_⟩
  rw [← bound, ← agree same none (same ▸ distinct), here]

/-- Bound to the other item, which holds no content, it still says what was put through it. Nothing
    is in progress, and both the item and the toolkit's item are there. -/
theorem rebinding_keeps_the_cache : ∃ c : Course .sole, c.OnlyThroughItems c.length ∧ (c.state c.length).tasks = [] ∧
    ∃ x, (c.state c.length).world.wrappers.get? ⟨0⟩ = some x ∧ x.handle = ⟨0x1010⟩ ∧
      (c.state c.length).world.toolkit.items.contains x.handle = true ∧
      x.partContent none = some ⟨0x1020⟩ ∧
      (c.state c.length).world.toolkit.contentAt x.handle (partKey none) = none :=
  ⟨Course.errands refilling can_perform_refilling, only_refilling _, rfl, _, rfl, rfl, by decide, rfl, rfl⟩

end HandleBridge
