/-
  HandleBridge.Proofs.Replacing — what happens to the old and the new content of a part.

  Content is put into a part in up to three calls: the part is emptied, the old content is destroyed
  unless it is to be kept, the new content is set. Which object is destroyed is settled by what the
  part held before; that it may be the new content itself is not looked at.

  - `World.toolkit_setContent`: the calls, as one change of the toolkit.
  - `Toolkit.Replaced`: contents, objects and items after it, each in terms of those before.
  - `new_content_is_kept`: the new content is held and, unless it was the old content, alive; the old
    content goes exactly when it is not to be kept, and nothing else changes.
-/
import HandleBridge.Proofs.FreshHandles

namespace HandleBridge

namespace Toolkit

/-- The calls that put content into a part. -/
def replacing (t : Toolkit) (h : Handle) (part : Part) (content : Handle) (preserve : Bool) : List NativeCall :=
  .partContentUnset h part ::
    (if (t.partContent h part).isNull || preserve then [] else [.objectDel (t.partContent h part)]) ++
      [.partContentSet h part content]

/-- The part holds `o`, and putting content into the part destroys it. -/
def Drops (t : Toolkit) (h : Handle) (part : Part) (preserve : Bool) (o : Handle) : Prop :=
  preserve = false ∧ o ≠ .null ∧ t.partContent h part = o

/-- How content has been put into a part: the part holds it, and no other part of any item has
    changed; what was to be dropped is destroyed, and no other object or item is. -/
structure Replaced (t : Toolkit) (h : Handle) (part : Part) (content : Handle) (preserve : Bool) (t' : Toolkit) : Prop where
  held : t'.contentAt h (partKey part) = some content
  beside : ∀ a key, ¬ (a = h ∧ key = partKey part) → t'.contentAt a key = t.contentAt a key
  items : ∀ a, t'.items.contains a = t.items.contains a
  objects : ∀ o, o ∈ t'.objects ↔ o ∈ t.objects ∧ ¬ t.Drops h part preserve o
  destroyed : ∀ o, t'.wasDestroyed o = true ↔ t.wasDestroyed o = true ∨ o ∈ t.objects ∧ t.Drops h part preserve o

end Toolkit

namespace World

variable {w : World} {ref : Ref} {part : Part} {content h : Handle} {preserve : Bool}

/-- An item with a handle carries the calls out, and agrees. -/
theorem toolkit_setContent (hn : w.handleOf ref ≠ .null) (part : Part) (content : Handle) (preserve : Bool) :
    (w.setContent ref part content preserve).toolkit =
      (w.toolkit.replacing (w.handleOf ref) part content preserve).foldl Toolkit.apply w.toolkit ∧
    (w.setContent ref part content preserve).answer = .none := by
  have real : (w.handleOf ref).isNull = false := (Handle.isNull_eq_false_iff _).mpr hn
  refine ⟨?_, ?_⟩
  · simp only [setContent, withHandle, liveHandle, real, Bool.false_eq_true, if_false, Toolkit.replacing]
    show (native _ _).toolkit = _
    rw [toolkit_native]
    split
    · rw [toolkit_native]
      rfl
    · rw [toolkit_native]
      show ((native _ _).toolkit.apply _).apply _ = _
      rw [toolkit_native]
      rfl
  · simp only [setContent, withHandle, liveHandle, real, Bool.false_eq_true, if_false]
    rfl

end World

namespace Toolkit

variable {t : Toolkit} {part : Part} {content h : Handle} {preserve : Bool}

theorem mem_objectDel (t : Toolkit) (old o : Handle) :
    (o ∈ (t.apply (.objectDel old)).objects ↔ o ∈ t.objects ∧ o ≠ old) ∧
      (o ∈ (t.apply (.objectDel old)).destroyed ↔ o ∈ t.destroyed ∨ o ∈ t.objects ∧ o = old) := by
  simp only [apply, effect]
  split
  · rename_i ho
    refine ⟨by simp, ?_⟩
    rw [mem_addHandle, or_comm]
    exact or_congr_right ⟨fun e => ⟨e ▸ ho, e⟩, And.right⟩
  · rename_i ho
    have none : ¬ (o ∈ t.objects ∧ o = old) := by
      rintro ⟨hm, rfl⟩
      exact ho hm
    exact ⟨⟨fun hm => ⟨hm, fun e => none ⟨hm, e⟩⟩, And.left⟩, (or_iff_left none).symm⟩

/-- The calls destroy what the part drops, and no other object. -/
theorem mem_replacing (t : Toolkit) (h : Handle) (part : Part) (content : Handle) (preserve : Bool) (o : Handle) :
    let t' := (t.replacing h part content preserve).foldl apply t
    (o ∈ t'.objects ↔ o ∈ t.objects ∧ ¬ t.Drops h part preserve o) ∧
      (o ∈ t'.destroyed ↔ o ∈ t.destroyed ∨ o ∈ t.objects ∧ t.Drops h part preserve o) := by
  simp only [replacing, Drops]
  generalize t.partContent h part = old
  cases hk : old.isNull || preserve
  · obtain ⟨real, away⟩ := Bool.or_eq_false_iff.mp hk
    rw [Handle.isNull_eq_false_iff] at real
    have dropped : (preserve = false ∧ o ≠ .null ∧ old = o) ↔ o = old :=
      ⟨fun ⟨_, _, e⟩ => e.symm, fun e => ⟨away, e ▸ real, e.symm⟩⟩
    rw [dropped]
    exact mem_objectDel (t.apply (.partContentUnset h part)) old o
  · have kept : ¬ (preserve = false ∧ o ≠ .null ∧ old = o) := by
      rintro ⟨away, real, rfl⟩
      rw [away, Bool.or_false, Handle.isNull_iff] at hk
      exact real hk
    exact ⟨(and_iff_left kept).symm, (or_iff_left fun h => kept h.2).symm⟩

theorem contains_foldl (cs : List NativeCall) (t : Toolkit) (a : Handle) :
    (cs.foldl apply t).items.contains a = t.items.contains a := by
  induction cs generalizing t with
  | nil => rfl
  | cons c cs ih => exact (ih _).trans (t.contains_apply c a)

end Toolkit

namespace World

variable {w : World} {ref : Ref} {part : Part} {content : Handle} {preserve : Bool}

/-- What the part held comes out of it, and the new content goes in. -/
theorem contentAt_setContent (ho : w.Ordered) (hn : w.handleOf ref ≠ .null)
    (alive : w.toolkit.items.contains (w.handleOf ref) = true) (part : Part) (content : Handle) (preserve : Bool) (a : Handle)
    (key : String) :
    (w.setContent ref part content preserve).toolkit.contentAt a key =
      if w.handleOf ref = a ∧ partKey part = key then some content else w.toolkit.contentAt a key := by
  have real : (w.handleOf ref).isNull = false := (Handle.isNull_eq_false_iff _).mpr hn
  rw [(tells_setContent ho ref part content preserve).contents a key]
  simp only [puts, real, NativeCall.deeds, alive, Bool.false_eq_true, if_false, if_true, List.foldl_append, List.foldl_cons,
    List.foldl_nil, Deed.onContent]
  have old : (if (w.toolkit.partContent (w.handleOf ref) part).isNull || preserve then []
      else if w.toolkit.partContent (w.handleOf ref) part ∈ w.toolkit.objects then
        [Deed.scrapped (w.toolkit.partContent (w.handleOf ref) part)] else []).foldl (Deed.onContent a key)
        (w.toolkit.contentAt a key) = w.toolkit.contentAt a key := by
    split
    · rfl
    · split <;> rfl
  rw [old]

theorem replaced_setContent (ho : w.Ordered) (hn : w.handleOf ref ≠ .null)
    (alive : w.toolkit.items.contains (w.handleOf ref) = true) :
    w.toolkit.Replaced (w.handleOf ref) part content preserve (w.setContent ref part content preserve).toolkit := by
  have contents := contentAt_setContent ho hn alive part content preserve
  have calls := (toolkit_setContent hn part content preserve).1
  have objects := w.toolkit.mem_replacing (w.handleOf ref) part content preserve
  rw [← calls] at objects
  refine ⟨?_, fun a key other => ?_, fun a => ?_, fun o => (objects o).1, fun o => ?_⟩
  · rw [contents, if_pos ⟨rfl, rfl⟩]
  · rw [contents, if_neg fun e => other ⟨e.1.symm, e.2.symm⟩]
  · rw [calls, Toolkit.contains_foldl]
  · simp only [Toolkit.wasDestroyed, decide_eq_true_eq]
    exact (objects o).2

end World

/-- In every run, let an item be bound to an object of the toolkit that is alive, and let a plain
    object be put into one of its parts. That succeeds, and afterwards:
    - the part holds the new content, and no other part of any item has changed;
    - the new content is alive if the old one is to be kept, or is another object;
    - the old content, if it is another plain object, is destroyed if it is not to be kept, and as
      it was if it is; no other object is destroyed, and no item.
    When the part held the new content already and the old is not to be kept, it is destroyed all the
    same, and the part holds a handle of nothing. -/
theorem new_content_is_kept (c : Course .free) {n : Nat} (hn : n < c.length) {ref : Ref} {part : Part} {content : Handle}
    {preserve : Bool} (ho : (c.state n).op? = some (.setContent ref part content preserve))
    (real : (c.state n).world.handleOf ref ≠ .null)
    (alive : (c.state n).world.toolkit.items.contains ((c.state n).world.handleOf ref) = true)
    (object : content ∈ (c.state n).world.toolkit.objects) :
    let h := (c.state n).world.handleOf ref
    let t := (c.state n).world.toolkit
    let t' := (c.state (n + 1)).world.toolkit
    let old := t.partContent h part
    (c.state (n + 1)).world.answer = .none ∧ t.Replaced h part content preserve t' ∧
    (preserve = true ∨ old ≠ content → content ∈ t'.objects) ∧
    (old ∈ t.objects → old ≠ .null → old ≠ content →
      (old ∉ t'.objects ∧ t'.wasDestroyed old = true ↔ preserve = false) ∧ (preserve = true → old ∈ t'.objects)) ∧
    (∀ o ∈ t.objects, o ≠ old → o ∈ t'.objects) ∧
    (content ≠ .null → preserve = false → old = content → content ∉ t'.objects ∧ t'.wasDestroyed content = true ∧
      t'.partContent h part = content) := by
  intro h t t' old
  have done : (c.state (n + 1)).world = (c.state n).world.setContent ref part content preserve := (c.performed hn ho).2
  have replaced : t.Replaced h part content preserve t' := by
    simp only [t', done]
    exact World.replaced_setContent (c.reach (Nat.le_of_lt hn)).ordered real alive
  have objects := replaced.objects
  refine ⟨?_, replaced, fun kept => ?_, fun was some other => ?_, fun o ho apart => ?_, fun some away same => ?_⟩
  · rw [done]
    exact (World.toolkit_setContent real part content preserve).2
  · refine (objects content).mpr ⟨object, fun ⟨away, _, same⟩ => ?_⟩
    rcases kept with kept | other
    · rw [away] at kept
      cases kept
    · exact other same
  · have away (e : preserve = false) : t.Drops h part preserve old := ⟨e, some, rfl⟩
    have stays (e : preserve = true) : old ∈ t'.objects :=
      (objects old).mpr ⟨was, fun drops => by rw [drops.1] at e; cases e⟩
    refine ⟨⟨fun ⟨gone, _⟩ => ?_, fun e => ⟨fun hm => ((objects old).mp hm).2 (away e), ?_⟩⟩, stays⟩
    · exact Bool.eq_false_iff.mpr fun e => gone (stays e)
    · exact (replaced.destroyed old).mpr (Or.inr ⟨was, away e⟩)
  · exact (objects o).mpr ⟨ho, fun ⟨_, _, e⟩ => apart e.symm⟩
  · have drops : t.Drops h part preserve content := ⟨away, some, same⟩
    refine ⟨fun hm => ((objects content).mp hm).2 drops, (replaced.destroyed content).mpr (Or.inr ⟨object, drops⟩), ?_⟩
    have held := replaced.held
    simp only [Toolkit.contentAt] at held
    simp only [Toolkit.partContent, held, Option.getD_some]

/-- One object is put into a part, then another, and then the other once more. -/
def refreshing : List Op :=
  [.createItem, .createObject, .createObject, .newGrid ⟨0x1000⟩ .unit (some "a"), .setContent ⟨0⟩ (some "icon") ⟨0x1010⟩ false,
    .setContent ⟨0⟩ (some "icon") ⟨0x1020⟩ false, .setContent ⟨0⟩ (some "icon") ⟨0x1020⟩ false]

theorem can_perform_refreshing : (World.start .synchronous).CanPerform .free refreshing :=
  ⟨⟨⟨trivial, Or.inl trivial⟩, rfl⟩, ⟨⟨trivial, Or.inl trivial⟩, rfl⟩, ⟨⟨trivial, Or.inl trivial⟩, rfl⟩,
    ⟨⟨rfl, trivial, trivial⟩, rfl⟩, ⟨⟨⟨_, rfl, rfl⟩, trivial⟩, rfl⟩, ⟨⟨⟨_, rfl, rfl⟩, trivial⟩, rfl⟩,
    ⟨⟨⟨_, rfl, rfl⟩, trivial⟩, rfl⟩, trivial⟩

/-- The second object replaces the first; put in once more, it is destroyed, and the part holds its
    handle. -/
theorem put_in_twice_and_destroyed :
    let c := Course.errands refreshing can_perform_refreshing
    (c.state 12).world.toolkit.objects = [⟨0x1020⟩] ∧ (c.state 12).world.toolkit.wasDestroyed ⟨0x1010⟩ = true ∧
    ⟨0x1020⟩ ∉ (c.state 14).world.toolkit.objects ∧ (c.state 14).world.toolkit.wasDestroyed ⟨0x1020⟩ = true ∧
    (c.state 14).world.toolkit.partContent ⟨0x1000⟩ (some "icon") = ⟨0x1020⟩ := by
  intro c
  obtain ⟨-, -, -, replaced, -, -⟩ :=
    new_content_is_kept c (show 11 < c.length by decide) rfl (by decide) (by decide) (by decide)
  obtain ⟨-, -, -, -, -, dropped⟩ :=
    new_content_is_kept c (show 13 < c.length by decide) rfl (by decide) (by decide) (by decide)
  obtain ⟨-, first⟩ := (replaced (by decide) (by decide) (by decide)).1.mpr rfl
  obtain ⟨gone, dead, held⟩ := dropped (by decide) rfl (by decide)
  exact ⟨by decide, first, gone, dead, held⟩

end HandleBridge
