/-
  HandleBridge.Proofs.RegistryLife — a registry that is gone stays gone.

  The item registry is there while the program holds its context, an item is there, or an
  operation in progress holds it. The callbacks of the toolkit refer to it without keeping it,
  and find it or not when their turn comes. Whatever would bring it back needs it to be there:
  - `World.tenure`: nothing gives the program its context back, and ids of items are given out
    by operations that name the registry.
  - `registry_pinned`: what pins the registry finds it there.
  - `Reach.gone_turn`: so a registry that is gone is gone after the next turn as well.
-/
import HandleBridge.Proofs.Concord
import HandleBridge.Proofs.Frame
import HandleBridge.Proofs.Pins

namespace HandleBridge

variable {k : Conduct}

/-! ## The context, and the ids given out -/

namespace World

variable {w : World}

/-- Whether the program holds the items' context, and how many ids of items have been given out. -/
def tenure (w : World) : Bool × Nat := (w.holdsContext, w.itemRegistry.nextId)

theorem tenure_steady {w w' : World} (h : w'.steady = w.steady) : w'.tenure = w.tenure := by
  simp only [steady, Prod.mk.injEq] at h
  simp only [tenure, h.2.2.2]

theorem tenure_callToolkit (w : World) (c : NativeCall) : (w.callToolkit c).tenure = w.tenure := by
  unfold callToolkit
  cases w.toolkit.complaint c <;> rfl

/-- No call is about the context, and ids of probes are not counted. -/
theorem frame_tenure : Frame tenure (fun _ => True) (· = .bare) where
  steady := tenure_steady
  native w c _ := tenure_callToolkit (w.emit (.native c)) c
  ids w space _ _ hs _ := by
    cases hs
    rfl

theorem tenure_destroy (w : World) (h : Handle) : (w.destroy h).1.tenure = w.tenure := by
  unfold destroy
  split <;> rfl

theorem tenure_destroyQueued (w : World) (h : Handle) : (w.destroyQueued h).1.tenure = w.tenure := by
  unfold destroyQueued countFlushed
  rw [tenure_destroy]
  split
  · split <;> rfl
  · rfl

theorem tenure_endFlush (w : World) : w.endFlush.tenure = w.tenure := by
  unfold endFlush
  split <;> rfl

end World

/-- The operation takes an id for an item. -/
def Op.TakesId : Op → Prop
  | .newGrid .. | .newItem _ | .nextId .items => True
  | _ => False

theorem World.tenure_perform (w : World) {op : Op} (ho : ¬ op.TakesId) (held : ∀ space, op ≠ .letGo space) :
    (w.perform op).1.tenure = w.tenure := by
  cases op with
  | createItem | createObject | adopt | flush => rfl
  | destroy h => exact w.tenure_destroy h
  | native c =>
    cases c with
    | itemDel h => exact (Frame.carryOut tenure_destroy _ h).trans (w.tenure_callToolkit _)
    | _ => exact (frame_tenure.answering _ _).trans (w.tenure_callToolkit _)
  | delete ref => exact frame_tenure.delete (fun _ => trivial) tenure_destroy w ref
  | letGo space => exact absurd rfl (held space)
  | newGrid | newItem => exact absurd trivial ho
  | nextId space =>
    cases space
    · exact absurd trivial ho
    · exact frame_tenure.perform w rfl
  | newProbe => exact frame_tenure.perform w rfl
  | _ => exact frame_tenure.perform w (by simp [Op.Plain])

theorem tenure_expand (p : Program) (t : Task) (w : World) (unasked : ∀ choose, t.job ≠ .act choose) :
    (p.expand t w).1.tenure = w.tenure := by
  obtain ⟨level, job⟩ := t
  have books (hj : job.KeepsBooks) : (job.expand w).1.tenure = w.tenure := World.tenure_steady (job.steady_expand w hj)
  cases job with
  | act choose => exact absurd rfl (unasked choose)
  | enter c => cases level <;> rfl
  | destroyQueued h => exact w.tenure_destroyQueued h
  | endFlush => exact w.tenure_endFlush
  | _ => exact books trivial

/-! ## What pins the registry -/

theorem owed_of_op {w : World} {op : Op} {space : Space} (typed : op.Typed w)
    (ho : .registry space ∈ owed (w.perform op).2) : w.isThere space = true := by
  by_cases hm : op.MovesHolds
  · cases op with
    | nativeDelete s h =>
      obtain rfl : s = space := by simpa [World.perform, owed, Job.owes] using ho
      exact typed
    | delete ref =>
      simp only [World.perform, World.delete] at ho
      split at ho
      · cases ho
      · rw [owed_append, World.owed_carryOut] at ho
        have same : w.spaceOf ref = space := by simpa [owed, Job.owes] using ho
        exact same ▸ typed.2
    | newGrid | newItem | nameItem | dropItem | newProbe | dropProbe | nextId => cases ho
    | _ => exact hm.elim
  · rw [w.owed_perform hm] at ho
    cases ho

/-- What pins a registry for later finds it there. -/
theorem registry_pinned {p : Program} {t : Task} {w : World} {space : Space}
    (typed : ∀ choose, t.job = .act choose → (choose w).Typed w)
    (ho : .registry space ∈ owed (jobs (p.expand t w).2)) : w.isThere space = true := by
  obtain ⟨level, job⟩ := t
  by_cases he : ∃ c, job = .enter c
  · obtain ⟨c, rfl⟩ := he
    obtain ⟨j, hj, owes⟩ := List.mem_filterMap.mp ho
    rcases mem_jobs_enter hj with ⟨choose, rfl⟩ | rfl <;> cases owes
  rw [jobs_expand p _ w fun c h => he ⟨c, h⟩] at ho
  cases job with
  | act choose => exact owed_of_op (typed choose rfl) ho
  | enter c => exact absurd ⟨c, rfl⟩ he
  | slot cb h =>
    simp only [Job.expand, World.runSlot] at ho
    split at ho
    · cases ho
    · split at ho
      · rename_i s there
        obtain rfl : s = space := by simpa [owed, Job.owes] using ho
        exact there
      · cases ho
  | nativeDelete s h =>
    change _ ∈ owed (w.nativeDelete s h).2 at ho
    obtain ⟨j, hj, owes⟩ := List.mem_filterMap.mp ho
    rcases w.nativeDelete_cases s h with ignored | ⟨id, hd, hb⟩
    · rw [World.nativeDelete_ignored ignored] at hj
      cases hj
    · rw [(World.nativeDelete_found hd hb).2] at hj
      rcases List.mem_append.mp hj with hj | hj
      · rcases World.mem_wrapperCode hj with ⟨c, rfl⟩ | ⟨ref, rfl⟩ <;> cases owes
      · obtain rfl := List.mem_singleton.mp hj
        rcases hw : w.lookupId s id with _ | ref
        · rw [hw] at owes
          cases owes
        · rw [hw] at owes
          cases owes
  | signal cb object info =>
    simp only [Job.expand, World.signal] at ho
    repeat' split at ho
    all_goals simp [owed, Job.owes] at ho
  | invalidate ref =>
    simp only [Job.expand, World.invalidate] at ho
    repeat' split at ho
    all_goals cases ho
  | destroyQueued h =>
    rw [Job.expand, World.destroyQueued, World.owed_destroy] at ho
    cases ho
  | _ => cases ho

/-! ## Gone for good -/

theorem World.isThere_items (w : World) :
    w.isThere .items = true ↔ w.holdsContext = true ∨ .registry .items ∈ w.pins ∨ ∃ ref x, w.IsItem ref x := by
  have items : w.wrappers.values.any (·.space = .items) = true ↔ ∃ ref x, w.IsItem ref x := by
    simp only [Table.values, List.any_eq_true, List.mem_map, decide_eq_true_eq, IsItem, Table.get?_eq_some_iff]
    constructor
    · rintro ⟨x, ⟨e, he, rfl⟩, hs⟩
      exact ⟨e.1, e.2, he, hs⟩
    · rintro ⟨ref, x, hx, hs⟩
      exact ⟨x, ⟨_, hx, rfl⟩, hs⟩
  simp only [isThere, holds, Bool.or_eq_true, List.contains_iff_mem, items, or_assoc]

/-- Where the item registry is gone, a turn neither gives the program its context nor takes an id. -/
theorem tenure_turn {p : Program} {t : Task} {w : World} (typed : ∀ choose, t.job = .act choose → (choose w).Typed w)
    (gone : w.isThere .items ≠ true) :
    ((p.expand t w).1.holdsContext = true → w.holdsContext = true) ∧
      ((p.expand t w).1.registry .items).nextId = (w.registry .items).nextId := by
  have same {u : World} (h : u.tenure = w.tenure) :
      (u.holdsContext = true → w.holdsContext = true) ∧ (u.registry .items).nextId = (w.registry .items).nextId :=
    ⟨fun hu => (congrArg Prod.fst h).symm.trans hu, congrArg Prod.snd h⟩
  by_cases asked : ∃ choose, t.job = .act choose
  · obtain ⟨level, job⟩ := t
    obtain ⟨choose, rfl⟩ := asked
    have here := typed choose rfl
    change ((w.perform (choose w)).1.holdsContext = true → _) ∧ ((w.perform (choose w)).1.registry .items).nextId = _
    generalize choose w = op at here
    by_cases takes : op.TakesId
    · cases op with
      | newGrid | newItem => exact absurd here gone
      | nextId space =>
        cases space
        · exact absurd here gone
        · exact takes.elim
      | _ => exact takes.elim
    · by_cases lets : ∃ space, op = .letGo space
      · obtain ⟨space, rfl⟩ := lets
        cases space
        · exact ⟨nofun, rfl⟩
        · exact ⟨id, rfl⟩
      · exact same (w.tenure_perform takes fun space e => lets ⟨space, e⟩)
  · exact same (tenure_expand p t w fun choose e => asked ⟨choose, e⟩)

/-- A pin that is there after a turn was there before, or is one that a later task owes. -/
theorem pinned_turn {p : Program} {t : Task} {w : World} {a : Pin} (ha : a ∈ (p.expand t w).1.pins) :
    a ∈ w.pins ∨ a ∈ owed (jobs (p.expand t w).2) := by
  rcases ho : t.job.owes with _ | b
  · rw [pays_expand p t w ho] at ha
    exact (List.mem_append.mp ha).symm
  · have unpinned {u : World} (hu : u.custody = w.custody) (hm : a ∈ (u.unpin b).pins) : a ∈ w.pins := by
      rw [World.pins_unpin, show u.pins = w.pins from congrArg (·.2.2.2) hu] at hm
      exact List.mem_of_mem_erase hm
    obtain ⟨level, job⟩ := t
    cases job with
    | unpin c =>
      cases ho
      exact Or.inl (unpinned rfl ha)
    | settle space h id wrapper =>
      cases wrapper with
      | none => cases ho
      | some ref =>
        cases ho
        exact Or.inl (unpinned (w.custody_reportEnd space h id (some ref)) ha)
    | _ => cases ho

/-- The item registry that is gone is gone after a turn. -/
theorem Reach.gone_turn {w : World} {t : Task} {ts : List Task} (hr : Reach k ⟨w, t :: ts⟩)
    (ok : ∀ choose, t.job = .act choose → k.Allows w (choose w)) (gone : w.isThere .items ≠ true) (p : Program) :
    (p.expand t w).1.isThere .items ≠ true := by
  have typed (choose : World → Op) (hj : t.job = .act choose) : (choose w).Typed w := (ok choose hj).1
  obtain ⟨context, ids⟩ := tenure_turn (p := p) typed gone
  rw [Ne, World.isThere_items]
  rintro (held | pinned | ⟨ref, y, hy⟩)
  · exact gone ((World.isThere_items w).mpr (Or.inl (context held)))
  · rcases pinned_turn pinned with before | due
    · exact gone ((World.isThere_items w).mpr (Or.inr (Or.inl before)))
    · exact gone (registry_pinned typed due)
  · have turn : Turn k ⟨w, t :: ts⟩ ⟨(p.expand t w).1, (p.expand t w).2 ++ ts⟩ := .mk p w t ts ok
    have since := since_turn hr.ordered hr.tracked turn
    rcases since.ages.wrappers ref y hy.1 with ⟨x, hx, -, hs⟩ | ⟨-, fresh⟩
    · exact gone (World.isThere_of_item ⟨hx, hs.trans hy.2⟩)
    · -- a new item would have a new id
      have below := since.ordered.idBelow ref y hy.1
      rw [hy.2, ids] at below
      exact absurd below (Nat.not_lt_of_le (fresh hy.2))

end HandleBridge
