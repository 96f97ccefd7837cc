/-
  HandleBridge.Proofs.Cascade — items whose deletion deletes further items.

  In synchronous mode the handlers of an item's deletion may delete other items, or have the
  toolkit destroy their objects, inside each other and in circles. The toolkit forgets an
  object before it says that it is gone, so each report that begins leaves fewer of the items
  standing (`standing_lt`), and a handler never runs further down than there were items
  to begin with.

  - `fells`: destroying the object of an item that stands brings its deletion to its end, with
    those that its handlers cause; by induction on how deep calls may nest.
  - `deletion_cascades`: whatever is destroyed on the way is told so once and leaves both tables,
    and what is not destroyed is left as it was.
-/
import HandleBridge.Proofs.Teardown
import HandleBridge.Proofs.Custody

namespace HandleBridge

/-! ## What handlers may do -/

/-- The operation deletes one of the items, destroys the object of one or something that is no
    item, or leaves everything alone. -/
def Op.Within (w : World) (items : List Ref) : Op → Prop
  | .delete ref => ref ∈ items
  | .destroy h => h ∈ items.map w.handleOf ∨ w.toolkit.items.contains h = false
  | op => op.Quiet

namespace World

/-- How many of the items stand. -/
def standing (items gone falling : List Ref) : Nat := items.countP fun ref => decide (ref ∉ gone ∧ ref ∉ falling)

theorem standing_mono {items gone gone' : List Ref} (h : gone ⊆ gone') (falling : List Ref) :
    standing items gone' falling ≤ standing items gone falling := by
  refine List.countP_mono_left fun ref _ hs => ?_
  simp only [decide_eq_true_eq] at hs ⊢
  exact ⟨fun hg => hs.1 (h hg), hs.2⟩

/-- With each report that begins, fewer stand. -/
theorem standing_lt {items gone falling : List Ref} {ref : Ref} (hr : ref ∈ items) (hg : ref ∉ gone)
    (hf : ref ∉ falling) :
    standing items gone (ref :: falling) < standing items gone falling := by
  have one_less : items.filter (fun a => decide (a ∉ gone ∧ a ∉ ref :: falling)) =
      (items.filter fun a => decide (a ∉ gone ∧ a ∉ falling)).filter (· ≠ ref) := by
    rw [List.filter_filter]
    refine List.filter_congr fun a _ => ?_
    rw [← Bool.decide_and, decide_eq_decide, List.mem_cons]
    tauto
  rw [standing, standing, List.countP_eq_length_filter, List.countP_eq_length_filter, one_less,
    List.length_filter_lt_length_iff_exists]
  exact ⟨ref, List.mem_filter.mpr ⟨hr, by simp [hg, hf]⟩, by simp⟩

/-! ## One operation of a handler -/

variable {p : Program} {w₀ : World} {items : List Ref}

/-- The tasks come to their end and bring the deletions of further items to theirs, `hit` among
    them. -/
def Spreads (p : Program) (w₀ : World) (items gone falling hit : List Ref) (ts : List Task) (w : World) : Prop :=
  ∃ w' gone', p.Yields ts w w' (w₀.reports gone gone') ∧ Torn w₀ gone' falling [] w' ∧ gone ⊆ gone' ∧
    (∀ ref ∈ gone', ref ∈ gone ∨ ref ∈ items ∧ ref ∉ falling) ∧ hit ⊆ gone'

/-- Destroying the object of any item that stands brings its deletion to its end, where calls
    may nest as deep as there are items standing. -/
def Fells (p : Program) (w₀ : World) (items : List Ref) (level : Nat) : Prop :=
  ∀ {gone falling : List Ref} {w : World} {ref : Ref}, Torn w₀ gone falling [] w → (∀ a ∈ falling, a ∉ gone) →
    standing items gone falling ≤ level → ref ∈ items → ref ∉ gone → ref ∉ falling →
    Spreads p w₀ items gone falling [ref] ((w.destroy (w₀.handleOf ref)).2.map (⟨level, ·⟩))
      (w.destroy (w₀.handleOf ref)).1

namespace Spreads

variable {gone falling hit : List Ref} {ts us : List Task} {w : World}

/-- No deletion comes to its end. -/
theorem nothing {w' : World} (h : p.Yields ts w w' untold) (ht : Torn w₀ gone falling [] w') :
    Spreads p w₀ items gone falling [] ts w :=
  ⟨w', gone, by rw [reports_self]; exact h, ht, List.Subset.refl _, fun _ hr => Or.inl hr, List.nil_subset _⟩

theorem weaken (h : Spreads p w₀ items gone falling hit ts w) : Spreads p w₀ items gone falling [] ts w := by
  obtain ⟨w', gone', hy, ht, hs, hn, -⟩ := h
  exact ⟨w', gone', hy, ht, hs, hn, List.nil_subset _⟩

theorem append (h : Spreads p w₀ items gone falling [] ts w)
    (h' : ∀ w' gone', Torn w₀ gone' falling [] w' → gone ⊆ gone' →
      (∀ ref ∈ gone', ref ∈ gone ∨ ref ∈ items ∧ ref ∉ falling) →
      Spreads p w₀ items gone' falling [] us w') :
    Spreads p w₀ items gone falling [] (ts ++ us) w := by
  obtain ⟨w₁, gone₁, hy, ht, hs, hn, -⟩ := h
  obtain ⟨w₂, gone₂, hy', ht', hs', hn', -⟩ := h' w₁ gone₁ ht hs hn
  refine ⟨w₂, gone₂, ?_, ht', List.Subset.trans hs hs', fun ref hr => (hn' ref hr).elim (hn ref) Or.inr,
    List.nil_subset _⟩
  exact (hy.append hy').congr fun ref => reports_trans w₀ hs hs' ref

end Spreads

theorem apart_of_new {gone gone' falling : List Ref} (apart : ∀ a ∈ falling, a ∉ gone)
    (new : ∀ ref ∈ gone', ref ∈ gone ∨ ref ∈ items ∧ ref ∉ falling) : ∀ a ∈ falling, a ∉ gone' :=
  fun a ha hg => (new a hg).elim (apart a ha) fun h => h.2 ha

theorem within_cases {w : World} {op : Op} (h : op.Within w items) :
    (∃ ref ∈ items, op = .delete ref) ∨
      (∃ a, op = .destroy a ∧ (a ∈ items.map w.handleOf ∨ w.toolkit.items.contains a = false)) ∨ op.Quiet := by
  cases op with
  | delete ref => exact Or.inl ⟨ref, h, rfl⟩
  | destroy a => exact Or.inr (Or.inl ⟨a, rfl, h⟩)
  | _ => exact Or.inr (Or.inr h)

section

variable {level : Nat} {gone falling : List Ref} {w : World}

/-- An item that stands is deleted by us. -/
theorem fells_delete (fells : Fells p w₀ items level) (sync : w₀.toolkit.mode = .synchronous)
    (h : Torn w₀ gone falling [] w) (apart : ∀ a ∈ falling, a ∉ gone) (room : standing items gone falling ≤ level)
    {choose : World → Op} {ref : Ref} (hr : ref ∈ items) (hg : ref ∉ gone) (hf : ref ∉ falling)
    (hn : w.handleOf ref ≠ .null) (hc : choose w = .delete ref) :
    Spreads p w₀ items gone falling [ref] [⟨level, .act choose⟩] w := by
  have requested : Torn w₀ gone falling [] (w.requested ref) := h.congr (w.stage_requested ref)
  obtain ⟨w', gone', hy, ht, hs, hn', hm⟩ := fells requested apart room hr hg hf
  have carried : (w.requested ref).carryOut (w.handleOf ref) = (w.requested ref).destroy (w₀.handleOf ref) := by
    simp only [carryOut, requested.mode, sync, (h.handle ref).resolve_right fun e => hn e.1]
  have hm' : ref ∈ gone' ++ falling ++ [] := by simp [hm (List.mem_singleton.mpr rfl)]
  refine ⟨_, gone', Program.yields_delete hc hn ?_, ht.finished hm' _, hs, hn', hm⟩
  rw [carried]
  exact hy

/-- The object of an item that stands is destroyed. -/
theorem fells_destroy (fells : Fells p w₀ items level) (h : Torn w₀ gone falling [] w)
    (apart : ∀ a ∈ falling, a ∉ gone) (room : standing items gone falling ≤ level) {choose : World → Op}
    {ref : Ref} (hr : ref ∈ items) (hg : ref ∉ gone) (hf : ref ∉ falling) (hc : choose w = .destroy (w₀.handleOf ref)) :
    Spreads p w₀ items gone falling [ref] [⟨level, .act choose⟩] w := by
  obtain ⟨w', gone', hy, ht, hs, hn, hm⟩ := fells h apart room hr hg hf
  exact ⟨_, gone', Program.yields_destroy hc hy, ht.congr rfl, hs, hn, hm⟩

/-- A delete of one of the items, by us. -/
theorem spreads_delete (fells : Fells p w₀ items level) (ho : w₀.Ordered) (sync : w₀.toolkit.mode = .synchronous)
    (h : Torn w₀ gone falling [] w) (apart : ∀ a ∈ falling, a ∉ gone) (room : standing items gone falling ≤ level)
    {choose : World → Op} {ref : Ref} (hr : ref ∈ items) (hk : w₀.Kept ref) (hc : choose w = .delete ref) :
    Spreads p w₀ items gone falling [] [⟨level, .act choose⟩] w := by
  by_cases hn : w.handleOf ref = .null
  · exact .nothing (Program.yields_delete_refused hc hn) (h.congr rfl)
  have hg : ref ∉ gone := fun hg => hn (h.nulled ref (by simp [hg]))
  by_cases hf : ref ∈ falling
  · -- it is being reported already: the toolkit does not know its object any more
    have requested : Torn w₀ gone falling [] (w.requested ref) := h.congr (w.stage_requested ref)
    have unknown : (w.requested ref).toolkit.items.contains (w.handleOf ref) = false := by
      rw [(h.handle ref).resolve_right fun e => hn e.1, ← Bool.not_eq_true, requested.alive ho hk]
      exact fun hs => hs.2 hf
    have ignored : p.Yields (((w.requested ref).carryOut (w.handleOf ref)).2.map (⟨level, ·⟩))
        ((w.requested ref).carryOut (w.handleOf ref)).1
          ((w.requested ref).log (.destroyUnknown (w.handleOf ref))) untold := by
      simp only [carryOut, requested.mode, sync, destroy_unknown unknown]
      exact .done _
    have logged := requested.congr (stage_log _ (.destroyUnknown (w.handleOf ref)))
    exact .nothing (Program.yields_delete hc hn ignored) (logged.finished (by simp [hf]) _)
  · exact (fells_delete fells sync h apart room hr hg hf hn hc).weaken

/-- The toolkit is asked to destroy the object of one of the items, or something unknown to it. -/
theorem spreads_destroy (fells : Fells p w₀ items level) (ho : w₀.Ordered) (kept : ∀ ref ∈ items, w₀.Kept ref)
    (h : Torn w₀ gone falling [] w) (apart : ∀ a ∈ falling, a ∉ gone) (room : standing items gone falling ≤ level)
    {choose : World → Op} {a : Handle} (ha : a ∈ items.map w₀.handleOf ∨ w₀.toolkit.items.contains a = false)
    (hc : choose w = .destroy a) : Spreads p w₀ items gone falling [] [⟨level, .act choose⟩] w := by
  cases alive : w.toolkit.items.contains a with
  | false =>
    have ignored : p.Yields ((w.destroy a).2.map (⟨level, ·⟩)) (w.destroy a).1
        (w.log (.destroyUnknown a)) untold := by
      rw [destroy_unknown alive]
      exact .done _
    exact .nothing (Program.yields_destroy hc ignored) (h.congr rfl)
  | true =>
    have known : w₀.toolkit.items.contains a = true := by
      have hi := h.items a
      unfold Table.contains at alive ⊢
      split at hi
      · rw [hi] at alive
        cases alive
      · rw [← hi]
        exact alive
    obtain ⟨ref, hr, rfl⟩ := List.mem_map.mp (ha.resolve_right (by simp [known]))
    obtain ⟨hg, hf⟩ := (h.alive ho (kept ref hr)).mp alive
    exact (fells_destroy fells h apart room hr hg hf hc).weaken

theorem spreads_act (fells : Fells p w₀ items level) (ho : w₀.Ordered) (sync : w₀.toolkit.mode = .synchronous)
    (kept : ∀ ref ∈ items, w₀.Kept ref) (h : Torn w₀ gone falling [] w) (apart : ∀ a ∈ falling, a ∉ gone)
    (room : standing items gone falling ≤ level) {choose : World → Op} (hc : (choose w).Within w₀ items) :
    Spreads p w₀ items gone falling [] [⟨level, .act choose⟩] w := by
  rcases within_cases hc with ⟨ref, hr, hc⟩ | ⟨a, hc, ha⟩ | quiet
  · exact spreads_delete fells ho sync h apart room hr (kept ref hr) hc
  · exact spreads_destroy fells ho kept h apart room ha hc
  · obtain ⟨hj, hs⟩ := quiet w
    exact .nothing (.quiet (j := .act choose) trivial (Prod.ext rfl hj)) (h.congr (stage_of_silent hs))

/-- What a handler does, one operation after the other. -/
theorem spreads_body (fells : Fells p w₀ items level) (ho : w₀.Ordered) (sync : w₀.toolkit.mode = .synchronous)
    (kept : ∀ ref ∈ items, w₀.Kept ref) {body : List (World → Op)}
    (hb : ∀ choose ∈ body, ∀ v, (choose v).Within w₀ items)
    (h : Torn w₀ gone falling [] w) (apart : ∀ a ∈ falling, a ∉ gone) (room : standing items gone falling ≤ level) :
    Spreads p w₀ items gone falling [] (body.map (⟨level, .act ·⟩)) w := by
  induction body generalizing w gone with
  | nil => exact .nothing (.done w) h
  | cons choose body ih =>
    have first := spreads_act fells ho sync kept h apart room (hb choose (List.mem_cons_self ..) w)
    refine first.append fun w' gone' h' hs hn => ?_
    exact ih (fun choose hc => hb choose (List.mem_cons_of_mem _ hc)) h' (apart_of_new apart hn)
      (Nat.le_trans (standing_mono hs falling) room)

/-- The observers of an item are called; it hears nothing else. -/
theorem spreads_calls (fells : Fells p w₀ items level) (ho : w₀.Ordered) (sync : w₀.toolkit.mode = .synchronous)
    (kept : ∀ ref ∈ items, w₀.Kept ref) {ref : Ref} (hf : ref ∈ falling) {handlers : List String}
    (hb : ∀ handler ∈ handlers, ∀ choose ∈ p.body (.deleted handler ref), ∀ v, (choose v).Within w₀ items)
    (h : Torn w₀ gone falling [] w) (apart : ∀ a ∈ falling, a ∉ gone) (room : standing items gone falling ≤ level) :
    ∃ w' gone', p.Yields (handlers.map fun handler => ⟨level + 1, .enter (.deleted handler ref)⟩) w w'
        (fun a => if a = ref then handlers.map .heard else w₀.reports gone gone' a) ∧
      Torn w₀ gone' falling [] w' ∧ gone ⊆ gone' ∧ ∀ a ∈ gone', a ∈ gone ∨ a ∈ items ∧ a ∉ falling := by
  induction handlers generalizing w gone with
  | nil =>
    refine ⟨w, gone, ?_, h, List.Subset.refl _, fun _ => Or.inl⟩
    simp only [reports_self, List.map_nil, untold, ite_self]
    exact .done w
  | cons handler handlers ih =>
    have entered : Torn w₀ gone falling [] (w.enter (.deleted handler ref)) := h.congr rfl
    obtain ⟨w₁, gone₁, hy, ht, hs, hn, -⟩ :=
      spreads_body fells ho sync kept (hb handler (List.mem_cons_self ..)) entered apart room
    have left : Torn w₀ gone₁ falling [] { w₁.emit (.ended handler) with running := w₁.running.tail } :=
      ht.congr rfl
    obtain ⟨w₂, gone₂, hy', ht', hs', hn'⟩ := ih (fun a ha => hb a (List.mem_cons_of_mem _ ha)) left
      (apart_of_new apart hn) (Nat.le_trans (standing_mono hs falling) room)
    refine ⟨w₂, gone₂, ?_, ht', List.Subset.trans hs hs', fun a ha => (hn' a ha).elim (hn a) Or.inr⟩
    have quiet : w₀.reports gone gone₁ ref = [] := by
      have := apart_of_new apart hn ref hf
      simp [reports, this]
    have := hy.call.cons hy'
    refine this.congr fun a => ?_
    by_cases ha : a = ref
    · subst ha
      simp [notice?, quiet]
    · simp [notice?, ha, Ne.symm ha, reports_trans w₀ hs hs']

end

/-- Destroying the object of an item that stands brings its deletion to its end. -/
theorem fells (ho : w₀.Ordered) (sync : w₀.toolkit.mode = .synchronous) (kept : ∀ ref ∈ items, w₀.Kept ref)
    (hb : ∀ ref ∈ items, ∀ handler ∈ w₀.handlersOf ref, ∀ choose ∈ p.body (.deleted handler ref), ∀ v,
      (choose v).Within w₀ items)
    (level : Nat) : Fells p w₀ items level := by
  induction level with
  | zero =>
    intro gone falling w ref _ _ room hr hg hf
    exact absurd (Nat.lt_of_lt_of_le (standing_lt hr hg hf) room) (Nat.not_lt_zero _)
  | succ level ih =>
    intro gone falling w ref h apart room hr hg hf
    have hk := kept ref hr
    have opened := h.opened ho hk hg hf
    have apart' : ∀ a ∈ ref :: falling, a ∉ gone := by
      intro a ha
      rcases List.mem_cons.mp ha with rfl | ha
      · exact hg
      · exact apart a ha
    obtain ⟨w₄, gone', hy, ht, hs, hn⟩ :=
      spreads_calls ih ho sync kept (List.mem_cons_self ..) (hb ref hr) opened apart'
      (Nat.le_of_lt_succ (Nat.lt_of_lt_of_le (standing_lt hr hg hf) room))
    have hg' : ref ∉ gone' := apart_of_new apart' hn ref (List.mem_cons_self ..)
    obtain ⟨hy, ht⟩ := h.destroys ho hk hg hf hy ht hg'
    refine ⟨_, ref :: gone', hy.congr fun a => ?_, ht, fun a ha => List.mem_cons_of_mem _ (hs ha),
      fun a ha => ?_, by simp⟩
    · by_cases ha : a = ref
      · subst ha
        simp [inReport, reports, wholeReport, hg]
      · simp [inReport, reports, ha]
    · rcases List.mem_cons.mp ha with rfl | ha
      · exact Or.inr ⟨hr, hf⟩
      · exact (hn a ha).imp id (And.imp id fun hf hm => hf (List.mem_cons_of_mem _ hm))

/-! ## Whole cascades -/

/-- The item is out of the tables and has no handle any more. -/
structure Ended (w w' : World) (ref : Ref) : Prop where
  byId : w'.itemRegistry.byId.get? (w.idOf ref) = none
  byHandle : ∀ h, w'.itemRegistry.byHandle.get? h ≠ some (w.idOf ref)
  handle : w'.handleOf ref = .null

/-- The item has its entries, its handle and its delete callback as before. -/
structure Spared (w w' : World) (ref : Ref) : Prop where
  byId : w'.itemRegistry.byId.get? (w.idOf ref) = w.itemRegistry.byId.get? (w.idOf ref)
  byHandle : w'.itemRegistry.byHandle.get? (w.handleOf ref) = w.itemRegistry.byHandle.get? (w.handleOf ref)
  handle : w'.handleOf ref = w.handleOf ref
  slot : w'.toolkit.deleteSlot (w.handleOf ref) = w.toolkit.deleteSlot (w.handleOf ref)

theorem Torn.ended {gone queued : List Ref} {w : World} {ref : Ref} (h : Torn w₀ gone [] queued w)
    (ho : w₀.Ordered) (hg : ref ∈ gone) :
    w₀.Ended w ref := by
  have hk := h.kept ref (by simp [hg])
  refine ⟨?_, fun a => ?_, h.nulled ref (by simp [hg])⟩
  · rw [h.byId, if_pos (List.mem_map_of_mem hg)]
  · rw [h.byHandle]
    split
    · simp
    · -- only its own handle was mapped to the item
      rename_i ha
      intro hm
      have : a = w₀.handleOf ref := (ho.coherent .items).handle_inj hm (hk.mapped ho)
      exact ha (this ▸ List.mem_map_of_mem hg)

theorem Torn.spared {gone : List Ref} {w : World} {ref : Ref} (h : Torn w₀ gone [] [] w)
    (ho : w₀.Ordered) (hk : w₀.Kept ref) (hg : ref ∉ gone) : w₀.Spared w ref := by
  obtain ⟨mapped, entry⟩ := h.mapped ho hk hg
  refine ⟨entry.trans hk.entry.symm, mapped.trans (hk.mapped ho).symm,
    (h.handle ref).resolve_right fun e => hg ?_, ?_⟩
  · simpa using e.2
  · rw [h.slot ho hk hg (by simp), hk.slot]

end World

open World in
/-- In synchronous mode, take any items that are bound to objects of their own, with any handlers
    that delete these items or destroy their objects, themselves and each other. Deleting one of
    them, or destroying its object, comes to an end, and no handler is left out on the way if as
    many calls may nest as there are items. Each item whose object has been destroyed has been
    told so once: it was notified, its observers were called, it was invalidated; it is in
    neither table and has no handle. Each other item was told nothing and is as it was before.
    No handle is left marked. -/
theorem deletion_cascades {p : Program} {w : World} {items : List Ref} (rest : Reach .free ⟨w, []⟩)
    (sync : w.toolkit.mode = .synchronous) (bound : ∀ ref ∈ items, w.Bound ref)
    (handlers : ∀ ref ∈ items, ∀ handler ∈ w.handlersOf ref, ∀ choose ∈ p.body (.deleted handler ref), ∀ v,
      (choose v).Within w items)
    (room : items.length ≤ p.limit) {first : World → Op} {ref : Ref} (hr : ref ∈ items)
    (hf : first w = .delete ref ∨ first w = .destroy (w.handleOf ref)) :
    ∃ vs w', p.Carries [⟨p.limit, .act first⟩] w vs w' ∧ w' = p.perform first w ∧ Roomy vs ∧
      (∀ space, (w'.registry space).dying = []) ∧ w'.toolkit.items.contains (w.handleOf ref) = false ∧
      ∀ a ∈ items,
        (w'.toolkit.items.contains (w.handleOf a) = false → notices a vs = w.wholeReport a ∧ w.Ended w' a) ∧
        (w'.toolkit.items.contains (w.handleOf a) = true → notices a vs = [] ∧ w.Spared w' a) := by
  obtain ⟨-, quiet, named⟩ := rest.at_rest
  have ho : w.Ordered := rest.ordered
  have kept (a : Ref) (ha : a ∈ items) : w.Kept a :=
    ⟨bound a ha, named a ((w.hasItem_iff a).mp (bound a ha).item).1⟩
  have start : Torn w [] [] [] w := torn_start (quiet .items)
  have room' : standing items [] [] ≤ p.limit := Nat.le_trans List.countP_le_length room
  have all : Fells p w items p.limit := fells ho sync kept handlers p.limit
  have spread : Spreads p w items [] [] [ref] [⟨p.limit, .act first⟩] w := by
    rcases hf with hf | hf
    · exact fells_delete all sync start (by simp) room' hr (by simp) (by simp) (bound ref hr).real hf
    · exact fells_destroy all start (by simp) room' hr (by simp) (by simp) hf
  obtain ⟨w', gone, ⟨vs, hc, hn, hroom⟩, ht, -, -, hit⟩ := spread
  have alive (a : Ref) (ha : a ∈ items) : w'.toolkit.items.contains (w.handleOf a) = true ↔ a ∉ gone := by
    rw [ht.alive ho (kept a ha)]
    simp
  refine ⟨vs, w', hc, hc.run_eq.symm, hroom, fun space => ?_, ?_, fun a ha => ⟨fun hd => ?_, fun hl => ?_⟩⟩
  · cases space with
    | items => exact List.eq_nil_iff_forall_not_mem.mpr fun h hm => by simpa using (ht.dying h).mp hm
    | bare => exact (congrArg (fun v : World => v.bareRegistry.dying) ht.aloof).trans (quiet .bare)
  · rw [← Bool.not_eq_true, alive ref hr]
    exact fun hng => hng (hit (by simp))
  · have hg : a ∈ gone := by
      rw [← Bool.not_eq_true, alive a ha] at hd
      exact Classical.not_not.mp hd
    exact ⟨by rw [hn]; simp [reports, hg], ht.ended ho hg⟩
  · have hg := (alive a ha).mp hl
    exact ⟨by rw [hn]; simp [reports, hg], ht.spared ho (kept a ha) hg⟩

/-- Two items that delete each other and themselves, and a third. -/
def circle : Program where
  limit := 3
  body
    | .deleted _ ref => [fun _ => .destroy ⟨0x1000⟩, fun _ => .delete (if ref = ⟨0⟩ then ⟨1⟩ else ⟨0⟩),
      fun _ => .delete ref]
    | _ => []

def threeItems : World :=
  [Op.createItem, .newGrid ⟨0x1010⟩ .unit (some "b"), .onDeleted ⟨1⟩ "move",
    .newGrid ⟨0x1020⟩ .unit (some "c")].foldl (fun w op => (w.perform op).1) settledDown

theorem reach_threeItems : Reach .sole ⟨threeItems, []⟩ := by
  have one := (reach_settledDown.call 4 (fun _ => .createItem)).perform mover ⟨trivial, Or.inr (by decide)⟩
  have two := (one.call 4 (fun _ => .newGrid ⟨0x1010⟩ .unit (some "b"))).perform mover
    ⟨rfl, rfl, Or.inr (by decide)⟩
  have three := (two.call 4 (fun _ => .onDeleted ⟨1⟩ "move")).perform mover ⟨⟨_, rfl, rfl⟩, trivial⟩
  exact (three.call 4 (fun _ => .newGrid ⟨0x1020⟩ .unit (some "c"))).perform mover ⟨rfl, rfl, Or.inr (by decide)⟩

theorem bound_threeItems : ∀ ref ∈ [(⟨0⟩ : Ref), ⟨1⟩, ⟨2⟩], threeItems.Bound ref := by
  intro ref hr
  simp only [List.mem_cons, List.not_mem_nil, or_false] at hr
  rcases hr with rfl | rfl | rfl <;> exact ⟨⟨_, rfl, rfl⟩, by decide, by decide, by decide⟩

theorem circle_within (handler : String) (ref : Ref) (hr : ref ∈ [(⟨0⟩ : Ref), ⟨1⟩, ⟨2⟩]) :
    ∀ choose ∈ circle.body (.deleted handler ref), ∀ v, (choose v).Within threeItems [⟨0⟩, ⟨1⟩, ⟨2⟩] := by
  intro choose hc v
  simp only [circle, List.mem_cons, List.not_mem_nil, or_false] at hc
  rcases hc with rfl | rfl | rfl
  · exact Or.inl (by decide)
  · show (if ref = ⟨0⟩ then _ else _) ∈ _
    split <;> decide
  · exact hr

/-- The first is deleted; so is the second then, and nothing happens to the third. -/
theorem the_circle_is_told_once :
    ∃ vs w', circle.Carries [⟨3, .act fun _ => .delete ⟨0⟩⟩] threeItems vs w' ∧
      notices ⟨0⟩ vs = [.notified, .heard "move", .invalidated] ∧
      notices ⟨1⟩ vs = [.notified, .heard "move", .invalidated] ∧
      notices ⟨2⟩ vs = [] ∧ threeItems.Spared w' ⟨2⟩ := by
  have cascade : ∃ vs w', circle.Carries [⟨3, .act fun _ => .delete ⟨0⟩⟩] threeItems vs w' ∧ _ :=
    deletion_cascades (reach_threeItems.mono (Conduct.within_free _)) rfl bound_threeItems
      (fun ref hr handler _ => circle_within handler ref hr) (Nat.le_refl 3) (List.mem_cons_self ..) (Or.inl rfl)
  obtain ⟨vs, w', hc, rfl, -, -, -, items⟩ := cascade
  obtain ⟨told, spared⟩ := (items ⟨2⟩ (by decide)).2 (by decide)
  exact ⟨vs, _, hc, ((items ⟨0⟩ (by decide)).1 (by decide)).1, ((items ⟨1⟩ (by decide)).1 (by decide)).1,
    told, spared⟩

end HandleBridge
