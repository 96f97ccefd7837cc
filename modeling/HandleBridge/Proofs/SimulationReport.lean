/-
  HandleBridge.Proofs.SimulationReport — what a run of the simulation comes to.

  After the rows have been made and selected, tearing them down is a sequence of removals of the
  kind that `DeleteModes` is about: rows of even number are deleted, rows of odd number
  are destroyed. In deferred mode the first row still waits when it is selected once more.

  - `rows_torn`: one row after the other is removed, and counted.
  - `first_selected`: the last selection is heard in deferred mode only.
  - `rows_cleared`: then a flush lets go of the rows that wait.
  - `torn_down`: from the rows to the report.
  - `simulation_leaves_nothing`: the report in closed form.
-/
import HandleBridge.Proofs.Rows
import HandleBridge.CommandLine

namespace HandleBridge

namespace Simulation

variable {mode : DeleteMode} {n : Nat} {w₀ w : World} {gone queued : List Ref}

/-! ## One row -/

/-- The observer of a row writes one deletion, and no selection. -/
def counts : List ((Record → Bool) × Nat) := [(isDeletion, 1), (isSelection, 0)]

theorem yields_row (w : World) (ref : Ref) :
    ∃ w', program.Yields [⟨0, .act fun w => .note (.rowDeleted (w.idOf ref))⟩] w w' untold ∧ w'.silent = w.silent ∧
      ∀ q ∈ counts, w'.noted q.1 = w.noted q.1 + q.2 := by
  refine ⟨w.log (.rowDeleted (w.idOf ref)), .quiet trivial rfl, rfl, fun q hq => ?_⟩
  simp only [counts, List.mem_cons, List.not_mem_nil, or_false] at hq
  rcases hq with rfl | rfl
  · exact World.noted_log isDeletion w (.rowDeleted (w.idOf ref))
  · rfl

theorem heeds_row (ref : Ref) : program.Heeds counts program.limit ["on deleted"] ref := by
  intro w
  obtain ⟨w', body, hs, hn⟩ := yields_row (w.enter (.deleted "on deleted" ref)) ref
  have call := Program.Yields.call (p := program) (c := .deleted "on deleted" ref) (w := w) body
  refine ⟨_, call.congr fun a => ?_, ?_, hn⟩
  · by_cases ha : a = ref
    · subst ha
      simp [notice?, untold]
    · simp [notice?, untold, ha, Ne.symm ha]
  · show { w'.silent with running := w'.silent.running.tail } = w.silent
    rw [hs]
    rfl

def rowRemoval (i : Nat) : Removal := if i % 2 = 0 then .delete ⟨i⟩ else .destroy ⟨i⟩

theorem item_rowRemoval (i : Nat) : (rowRemoval i).item = ⟨i⟩ := by
  unfold rowRemoval
  split <;> rfl

theorem rows_heed (hr : Rows mode n w₀) {i : Nat} (hi : i < n) :
    program.Heeds counts program.limit (w₀.handlersOf ⟨i⟩) ⟨i⟩ := by
  have handlers : w₀.handlersOf ⟨i⟩ = ["on deleted"] := by
    rw [World.handlersOf, hr.wrappers i hi]
    rfl
  rw [handlers]
  exact heeds_row _

/-- A row that stands is torn down. -/
theorem row_torn (hr : Rows mode n w₀) (hn : n ≤ ItemId.bound) {s : TearDown}
    (h : w₀.Swept gone queued s.world) {i : Nat} (hi : i < n) (hm : (⟨i⟩ : Ref) ∉ gone ++ queued) :
    ∃ s', tearDownRow s i = .ok s' ∧
      w₀.Swept ((rowRemoval i).after w₀.toolkit.mode gone queued).1
        ((rowRemoval i).after w₀.toolkit.mode gone queued).2 s'.world ∧
      World.Counted counts gone ((rowRemoval i).after w₀.toolkit.mode gone queued).1 s.world s'.world ∧
      s'.deleted = s.deleted + (if i % 2 = 0 then 1 else 0) ∧
      s'.destroyed = s.destroyed + (if i % 2 = 0 then 0 else 1) := by
  have hk := hr.kept hn hi
  have handle : s.world.handleOf ⟨i⟩ ≠ .null := fun e => hm ((h.null_iff hk).mp e)
  have named : s.world.itemNames.get? (rowName i) = some ⟨i⟩ := by
    have names : s.world.itemNames = w₀.itemNames := congrArg (·.itemNames) h.aloof
    rw [names, hr.named hi]
  by_cases even : i % 2 = 0
  · have r : rowRemoval i = .delete ⟨i⟩ := if_pos even
    let choose := withItem (rowName i) fun _ ref => .delete ref
    have chosen : choose s.world = (Removal.delete ⟨i⟩).op w₀ := by
      simp only [choose, withItem, named, Removal.op]
    obtain ⟨w', hy, hw, hc, answer⟩ := h.removal (r := .delete ⟨i⟩) hr.ordered hk (rows_heed hr hi) choose chosen
    rw [Removal.answer, if_neg handle] at answer
    refine ⟨{ s with world := w', deleted := s.deleted + 1 }, ?_, r ▸ hw, r ▸ hc, by simp [even], by simp [even]⟩
    simp only [tearDownRow, even, if_true]
    rw [attempt_cons hy.perform_eq (by simp [answer])]
    rfl
  · have r : rowRemoval i = .destroy ⟨i⟩ := if_neg even
    let choose := withItem (rowName i) fun w ref => .destroy (w.handleOf ref)
    have chosen : choose s.world = (Removal.destroy ⟨i⟩).op w₀ := by
      simp only [choose, withItem, named, Removal.op, (h.handle ⟨i⟩).resolve_right fun e => handle e.1]
    obtain ⟨w', hy, hw, hc, answer⟩ := h.removal (r := .destroy ⟨i⟩) hr.ordered hk (rows_heed hr hi) choose chosen
    have alive : s.world.toolkit.items.contains (w₀.handleOf ⟨i⟩) = true :=
      (h.alive hr.ordered hk).mpr ⟨fun hg => hm (List.mem_append_left _ hg), by simp⟩
    rw [Removal.answer, alive] at answer
    refine ⟨{ s with world := w', destroyed := s.destroyed + 1 }, ?_, r ▸ hw, r ▸ hc, by simp [even],
      by simp [even]⟩
    simp only [tearDownRow, even, if_false]
    rw [attempt_cons hy.perform_eq (by simp [answer])]
    simp [attempt, answer]

/-! ## All rows -/

theorem rows_torn (hr : Rows mode n w₀) (hn : n ≤ ItemId.bound) (idle : w₀.toolkit.pending = [])
    {i : Nat} (hi : i ≤ n) :
    ∃ s gone queued, (List.range i).foldlM tearDownRow ⟨w₀, 0, 0⟩ = .ok s ∧ w₀.Swept gone queued s.world ∧
      World.Counted counts [] gone w₀ s.world ∧ (∀ ref, ref ∈ gone ++ queued ↔ ref.serial < i) ∧
      s.deleted = (i + 1) / 2 ∧ s.destroyed = i / 2 ∧ (mode = .deferred → (⟨0⟩ : Ref) ∉ gone) := by
  induction i with
  | zero =>
    have counted : World.Counted counts [] [] w₀ w₀ := World.counted_same fun _ => rfl
    refine ⟨⟨w₀, 0, 0⟩, [], [], rfl, World.swept_start hr.dying idle, counted, ?_, rfl, rfl, ?_⟩ <;> simp
  | succ i ih =>
    obtain ⟨s, gone, queued, folded, h, hc, hm, deleted, destroyed, waits⟩ := ih (by omega)
    have stands : (⟨i⟩ : Ref) ∉ gone ++ queued := by simp [hm]
    obtain ⟨s', torn, h', hc', deleted', destroyed'⟩ := row_torn hr hn h (by omega) stands
    refine ⟨s', _, _, ?_, h', hc.trans hc', fun ref => ?_, ?_, ?_, fun hd => ?_⟩
    · rw [List.range_succ, List.foldlM_append, folded]
      show [i].foldlM tearDownRow s = _
      rw [List.foldlM_cons, torn]
      rfl
    · rw [Removal.mem_after, hm, item_rowRemoval, Nat.lt_succ_iff_lt_or_eq, or_comm]
      exact or_congr_right ⟨congrArg Ref.serial, congrArg Ref.mk⟩
    · split at deleted' <;> omega
    · split at destroyed' <;> omega
    · -- only a row that is destroyed goes, and the first is not
      have old := waits hd
      have later : w₀.toolkit.mode = .deferred := hr.mode_eq.trans hd
      unfold rowRemoval
      split
      · simp only [Removal.after, if_neg stands, later]
        exact old
      · have : ¬ (⟨i⟩ : Ref) ∈ gone := fun hg => stands (List.mem_append_left _ hg)
        simp only [Removal.after, if_neg this, List.mem_cons, Ref.mk.injEq, not_or]
        exact ⟨by omega, old⟩

/-! ## The last selection -/

section

variable (hr : Rows mode n w₀) (hn : n ≤ ItemId.bound) (h : w₀.Swept gone queued w)
  (hm : ∀ ref, ref ∈ gone ++ queued ↔ ref.serial < n)

include hr hn h

/-- A row is found by its handle until it is gone. -/
theorem lookupHandle_torn {i : Nat} (hi : i < n) :
    w.lookupHandle .items (rowHandle i) = if ⟨i⟩ ∈ gone then none else some ⟨i⟩ := by
  have hk := hr.kept hn hi
  split
  · rename_i hg
    have : w.itemRegistry.byHandle.get? (rowHandle i) = none := by
      rw [h.byHandle, if_pos]
      rw [← hr.handleOf hi]
      exact List.mem_map_of_mem hg
    simp only [World.lookupHandle, World.registry, Registry.lookupHandle, this]
  · rename_i hg
    obtain ⟨mapped, entry⟩ := h.mapped hr.ordered hk hg
    rw [hr.handleOf hi] at mapped entry
    exact lookupHandle_bound mapped entry ((w.hasItem_iff _).mp ((h.hasItem _).mpr hk.item)).1

include hm

/-- Deletions of rows leave the grid's registration. -/
theorem registrations_torn : w.toolkit.registrations = (opened mode).toolkit.registrations := by
  rw [h.registrations, hr.registrations, List.filter_eq_self]
  intro r hreg
  have grid : r.object = ⟨Toolkit.firstHandle⟩ := by
    have only : r ∈ [⟨⟨Toolkit.firstHandle⟩, signalName, .trampoline listener⟩] := hreg
    rw [List.mem_singleton.mp only]
  rw [decide_eq_true_eq, grid, List.mem_map]
  rintro ⟨⟨i⟩, hg, e⟩
  have hi : i < n := (hm ⟨i⟩).mp (by simpa using Or.inl hg)
  have small : i < UInt32.size := by
    have : ItemId.bound = UInt32.size - 1 := rfl
    omega
  rw [hr.handleOf hi] at e
  exact rowHandle_ne_grid small e

theorem listens_torn : Listens w :=
  listens_of (registrations_torn hr hn h hm) ((congrArg (·.senders) h.aloof).trans hr.senders)
    ((congrArg (·.holdsContext) h.aloof).trans hr.context)

/-- When all rows have been torn down, the first one is still found if it waits. -/
theorem first_selected (waits : mode = .deferred → (⟨0⟩ : Ref) ∉ gone) (h0 : 0 < n) :
    ∃ w', program.perform (select (rowHandle 0)) w = w' ∧ w₀.Swept gone queued w' ∧
      w'.noted isSelection = w.noted isSelection + (if mode = .deferred then 1 else 0) ∧
      w'.noted isDeletion = w.noted isDeletion ∧ w'.answer = .count 1 := by
  have hk := hr.kept hn h0
  have found := lookupHandle_torn hr hn h h0
  obtain ⟨w', performed, selected, answer⟩ :=
    selection (h := rowHandle 0) (listens_torn hr hn h hm) fun ref hf => by
    rw [found] at hf
    split at hf
    · cases hf
    · cases hf
      exact (h.isNamed _).trans hk.named
  have null : w.handleOf ⟨0⟩ = .null := (h.null_iff hk).mpr ((hm ⟨0⟩).mpr h0)
  rw [found] at selected
  have stage : w'.stage = w.stage := by
    rw [selected.stage]
    split
    · rfl
    · rw [marking, if_pos null]
  refine ⟨w', performed, h.congr stage selected.pending, ?_, selected.deletions, answer⟩
  rw [selected.selections]
  cases hmode : mode with
  | deferred => rw [if_neg (waits hmode)]; rfl
  | synchronous =>
    have now : queued = [] := h.now (hr.mode_eq.trans hmode)
    have hg : (⟨0⟩ : Ref) ∈ gone := by simpa [now] using (hm ⟨0⟩).mpr h0
    rw [if_pos hg]
    rfl

theorem selected_again (waits : mode = .deferred → (⟨0⟩ : Ref) ∉ gone) :
    ∃ w', attempt ((((List.range n).map rowHandle).take 1).map select) w = .ok w' ∧ w₀.Swept gone queued w' ∧
      w'.noted isSelection = w.noted isSelection + (if mode = .deferred ∧ 0 < n then 1 else 0) ∧
      w'.noted isDeletion = w.noted isDeletion := by
  cases n with
  | zero => exact ⟨w, rfl, h, by simp, rfl⟩
  | succ n =>
    obtain ⟨w', performed, swept, selections, deletions, answer⟩ := first_selected hr hn h hm waits (Nat.succ_pos n)
    refine ⟨w', ?_, swept, by simpa using selections, deletions⟩
    rw [List.range_succ_eq_map]
    show attempt [select (rowHandle 0)] w = _
    rw [attempt_cons performed (by simp [answer])]
    rfl

/-! ## The end of the run -/

omit hn in
/-- A flush, if there is one, lets go of the rows that wait. -/
theorem rows_cleared :
    ∃ w' gone', attempt (flush mode) w = .ok w' ∧ w₀.Swept gone' [] w' ∧ World.Counted counts gone gone' w w' ∧
      ∀ ref, ref ∈ gone' ↔ ref.serial < n := by
  cases mode with
  | synchronous =>
    obtain rfl : queued = [] := h.now hr.mode_eq
    exact ⟨w, gone, rfl, h, World.counted_same fun _ => rfl, fun ref => by simpa using hm ref⟩
  | deferred =>
    have heeds (ref : Ref) (hq : ref ∈ queued) : program.Heeds counts program.limit (w₀.handlersOf ref) ref :=
      rows_heed hr ((hm ref).mp (List.mem_append_right _ hq))
    obtain ⟨w₁, gone', k, hy, h₁, hc, -, hm₁, answer⟩ := h.flush hr.ordered heeds (fun _ => .flush) rfl
    have logged : w₀.Swept gone' [] (w₁.log (.deletesFlushed k)) := h₁.congr rfl rfl
    have counted : World.Counted counts gone' gone' w₁ (w₁.log (.deletesFlushed k)) := by
      intro q hq
      simp only [counts, List.mem_cons, List.not_mem_nil, or_false] at hq
      rcases hq with rfl | rfl <;> rfl
    refine ⟨w₁.log (.deletesFlushed k), gone', ?_, logged, hc.trans counted, fun ref => (hm₁ ref).trans (hm ref)⟩
    refine (attempt_cons hy.perform_eq (by simp [answer]) _).trans ?_
    refine (attempt_quiet (w₁.log (.deletesFlushed k)) ?_ (by simp [World.log, World.emit, answer]) _).trans rfl
    simp only [answer]
    rfl

end

/-- The bridge takes its listener back from the toolkit. -/
theorem grid_closed (hb : w.bridges.get? signalName = some gridBridge)
    (hreg : w.toolkit.registrations = [⟨⟨Toolkit.firstHandle⟩, signalName, .trampoline listener⟩]) :
    ∃ w', attempt closing w = .ok w' ∧ w'.toolkit.registrations = [] ∧ w'.itemRegistry = w.itemRegistry ∧
      w'.answer = .none ∧ ∀ c, w'.noted c = w.noted c := by
  let call := NativeCall.callbackDel ⟨Toolkit.firstHandle⟩ signalName (.trampoline listener)
  let w₁ := w.setBridge signalName gridBridge.closed
  let w₂ := ((w₁.native call).log (.shutDown ⟨Toolkit.firstHandle⟩ signalName 1)).answering .none
  have toolkit : w₂.toolkit = w₁.toolkit.apply call := (World.core_eq (w₁.core_native call)).1
  refine ⟨w₂, ?_, ?_, ?_, rfl, fun c => ?_⟩
  · refine (attempt_quiet w₂ ?_ (by simp [w₂, World.answering]) _).trans rfl
    simp only [hb]
    rfl
  · rw [toolkit]
    show Toolkit.dropFirst _ w.toolkit.registrations = []
    rw [hreg]
    rfl
  · exact (World.core_eq (w₁.core_native call)).2.1 .items
  · exact World.noted_native c w₁ call

/-! ## The report -/

theorem countP_records {c : Record → Bool} (hc : ∀ r, c r = true → r.isNote = true) (w : World) :
    (records w).countP c = w.noted c := by
  rw [records, List.countP_filterMap, List.countP_reverse, World.noted]
  refine List.countP_congr fun e _ => ?_
  cases e with
  | log r =>
    rw [Bool.and_eq_true]
    exact ⟨fun h => ⟨hc r h, h⟩, And.right⟩
  | _ => rfl

theorem length_rows {rows : List Ref} (once : rows.Nodup) (hm : ∀ ref, ref ∈ rows ↔ ref.serial < n) :
    rows.length = n := by
  have all : rows.Perm ((List.range n).map Ref.mk) := by
    have once' : ((List.range n).map Ref.mk).Nodup := List.nodup_range.map fun a b e => congrArg Ref.serial e
    refine (List.perm_ext_iff_of_nodup once once').mpr fun ref => ?_
    rw [hm, List.mem_map]
    constructor
    · intro h
      exact ⟨ref.serial, List.mem_range.mpr h, rfl⟩
    · rintro ⟨i, hi, rfl⟩
      exact List.mem_range.mp hi
  rw [all.length_eq, List.length_map, List.length_range]

theorem handles_eq {w : World} (hr : Rows mode n w) :
    (List.range n).map (handleOfRow w) = (List.range n).map rowHandle := by
  refine List.map_congr_left fun i hi => ?_
  have lt := List.mem_range.mp hi
  rw [handleOfRow, hr.named lt]
  exact hr.handleOf lt

/-- The report in closed form. -/
def expected (n : Nat) (mode : DeleteMode) : Report where
  created := n
  selections := n + if mode = .deferred ∧ 0 < n then 1 else 0
  deletedNotifications := n
  deletedExplicitly := (n + 1) / 2
  destroyedNatively := n / 2
  remainingItems := 0
  remainingRegistrations := 0

/-- What is left when every row is gone, and what has been counted. -/
theorem report_eq {w₀ w w' : World} {gone' : List Ref} {s : TearDown} (hr : Rows mode n w₀)
    (h : w₀.Swept gone' [] w) (hm : ∀ ref, ref ∈ gone' ↔ ref.serial < n)
    (deleted : s.deleted = (n + 1) / 2) (destroyed : s.destroyed = n / 2)
    (registry : w'.itemRegistry = w.itemRegistry) (registrations : w'.toolkit.registrations = [])
    (selections : w'.noted isSelection = n + if mode = .deferred ∧ 0 < n then 1 else 0)
    (deletions : w'.noted isDeletion = n) :
    report n s w' = expected n mode := by
  have empty : w'.itemRegistry.byId.size = 0 := by
    refine Table.size_eq_zero fun id => ?_
    rw [registry, h.byId]
    split
    · rfl
    · rename_i hg
      rw [hr.entries, if_neg]
      intro hi
      refine hg (List.mem_map.mpr ⟨⟨id.val⟩, (hm _).mpr hi, World.idOf_eq (hr.wrappers id.val hi)⟩)
  have isNote_selection (r : Record) (h : isSelection r = true) : r.isNote = true := by
    cases r <;> first | rfl | cases h
  have isNote_deletion (r : Record) (h : isDeletion r = true) : r.isNote = true := by
    cases r <;> first | rfl | cases h
  simp only [report, expected, countP_records isNote_selection, countP_records isNote_deletion,
    selections, deletions, deleted, destroyed, empty, registrations, List.length_nil]

/-- The rows are torn down, the first one is selected once more, those that wait are let go of,
    and the bridge shuts down. -/
theorem torn_down {w : World} (rows : Rows mode n w) (hn : n ≤ ItemId.bound) (idle : w.toolkit.pending = [])
    (selections : w.noted isSelection = n) (deletions : w.noted isDeletion = 0) :
    ∃ s w', (List.range n).foldlM tearDownRow ⟨w, 0, 0⟩ = .ok s ∧
      attempt (((List.range n).map rowHandle |>.take 1).map select ++ flush mode ++ closing) s.world = .ok w' ∧
      report n s w' = expected n mode ∧ w'.answer = .none := by
  obtain ⟨s, gone, queued, folded, swept, counted, hm, deleted, destroyed, waits⟩ := rows_torn rows hn idle (Nat.le_refl n)
  obtain ⟨w₁, again, swept₁, selections₁, deletions₁⟩ := selected_again rows hn swept hm waits
  obtain ⟨w₂, gone', cleared, swept₂, counted₂, hm₂⟩ := rows_cleared rows swept₁ hm
  have bridge : w₂.bridges.get? signalName = some gridBridge := by
    rw [show w₂.bridges = (opened mode).bridges from (congrArg (·.bridges) swept₂.aloof).trans rows.bridges]
    rfl
  have registrations := registrations_torn rows hn swept₂ (by simpa using hm₂)
  obtain ⟨w₃, closed, unregistered, registry, answer, noted⟩ := grid_closed bridge registrations
  refine ⟨s, w₃, folded, ?_, ?_, answer⟩
  · rw [attempt_append, attempt_append, again]
    show (attempt (flush mode) w₁ >>= attempt closing) = _
    rw [cleared]
    exact closed
  have rowsGone := length_rows swept₂.once hm₂
  -- each row that goes is written down once, by its observer
  have allDeletions : w₃.noted isDeletion = n := by
    have h₀ := counted _ (List.mem_cons_self ..)
    have h₁ := counted₂ _ (List.mem_cons_self ..)
    simp only [List.length_nil] at h₀ h₁
    rw [noted]
    omega
  have allSelections : w₃.noted isSelection = n + if mode = .deferred ∧ 0 < n then 1 else 0 := by
    have h₀ := counted (isSelection, 0) (List.mem_cons_of_mem _ (List.mem_cons_self ..))
    have h₁ := counted₂ (isSelection, 0) (List.mem_cons_of_mem _ (List.mem_cons_self ..))
    simp only [Nat.zero_mul, Nat.add_zero] at h₀ h₁
    rw [noted]
    omega
  exact report_eq rows swept₂ hm₂ deleted destroyed registry unregistered allSelections allDeletions

theorem run_eq (hn : n ≤ ItemId.bound) (mode : DeleteMode) : ∃ log, run n mode = .ok (expected n mode, log) := by
  obtain ⟨w₁, made, rows₁, idle, answer, noted⟩ := rows_made mode hn
  have rows : Rows mode n (w₁.log (.itemsCreated n)) := rows₁.congr rfl
  have prepared : attempt (opening ++ (List.range n).flatMap makeRow ++ [note (.itemsCreated n)]) (.start mode) =
      .ok (w₁.log (.itemsCreated n)) := by
    rw [attempt_append, attempt_append, attempt_opening]
    show (attempt ((List.range n).flatMap makeRow) (opened mode) >>= attempt [note (.itemsCreated n)]) = _
    rw [made]
    show attempt [note (.itemsCreated n)] w₁ = _
    exact (attempt_quiet _ rfl (by simp [World.log, World.emit, answer]) _).trans rfl
  have unwritten (c : Record → Bool) (hc : c (.itemsCreated n) = false) : (w₁.log (.itemsCreated n)).noted c = 0 := by
    rw [World.noted_log, noted, hc]
    rfl
  obtain ⟨w₂, selected, rows₂, pending, selections, deletions⟩ :=
    rows_selected rows hn fun i hi => List.mem_range.mp hi
  rw [unwritten _ rfl, List.length_range, Nat.zero_add] at selections
  obtain ⟨s, w₃, folded, torn, reported, answer₃⟩ :=
    torn_down rows₂ hn (pending.trans idle) selections (deletions.trans (unwritten _ rfl))
  refine ⟨records (w₃.log (.simulationFinished (expected n mode))), ?_⟩
  have ended : attempt [note (.simulationFinished (expected n mode))] w₃ =
      .ok (w₃.log (.simulationFinished (expected n mode))) :=
    (attempt_quiet _ rfl (by simp [World.log, World.emit, answer₃]) _).trans rfl
  have each : (List.range n).map (select ∘ rowHandle) = (List.range n).map fun i => select (rowHandle i) := rfl
  simp only [run, prepared, handles_eq rows, List.map_map, each, selected, folded, bind, Except.bind]
  rw [torn]
  simp only [reported, ended]
  rfl

end Simulation

open Simulation in
/-- With any number of rows for which there are ids, in both modes, the simulation comes to its end:
    it reports one deletion for each row, half of them (rounded up) deleted by us, and one
    selection, with one more of the first row where deletes are deferred. No item and no
    registration is left, and so the command that runs it succeeds. -/
theorem simulation_leaves_nothing :
    (∀ n < UInt32.size, ∀ mode, ∃ log, run n mode = .ok (expected n mode, log)) ∧
    ∀ (c : Config) (items : Option Nat) (deferred : Bool), items.getD c.items < UInt32.size →
      (CommandLine.runSimulation c items deferred).code = 0 ∧
      (CommandLine.runSimulation c items deferred).err = "" := by
  refine ⟨fun n hn mode => run_eq (Nat.le_pred_of_lt hn) mode, fun c items deferred hn => ?_⟩
  obtain ⟨log, hrun⟩ := run_eq (Nat.le_pred_of_lt hn) (if deferred then .deferred else c.mode)
  simp only [CommandLine.runSimulation, hrun, expected]
  simp

open Simulation in
/-- Two of three rows wait for the flush, and one of them is selected again. -/
theorem three_rows_are_cleared :
    (∃ log, run 3 .deferred = .ok (⟨3, 4, 3, 2, 1, 0, 0⟩, log)) ∧
    (CommandLine.runSimulation .default none true).code = 0 :=
  ⟨simulation_leaves_nothing.1 3 (by decide) .deferred,
    (simulation_leaves_nothing.2 .default none true (by decide)).1⟩

end HandleBridge
