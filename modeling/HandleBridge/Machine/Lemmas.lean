/-
  HandleBridge.Machine.Lemmas — a run is its first expansion and the runs of what follows.

  Every job gives way to jobs of smaller rank (`Job.rank_expand`), and so does every
  task (`Program.rank_expand`). The bound inside `Program.run` is therefore never
  reached (`runWithin_eq_run`), and `run` obeys the equation that says what running
  means (`run_eq`).
-/
import HandleBridge.Machine

namespace HandleBridge

namespace World

theorem rank_destroy (w : World) (h : Handle) : ∀ j ∈ (w.destroy h).2, j.rank ≤ 3 := by
  simp only [destroy]
  split
  · simp
  · split <;> simp [Job.rank]

theorem rank_carryOut (w : World) (h : Handle) : ∀ j ∈ (w.carryOut h).2, j.rank ≤ 3 := by
  simp only [carryOut]
  split
  · exact w.rank_destroy h
  · simp

theorem rank_notifications (w : World) (ref : Ref) : ∀ j ∈ w.notifications ref, j.rank = 0 := by
  simp only [notifications]
  split
  · split <;> simp [Job.rank]
  · simp

theorem rank_nativeDelete (w : World) (space : Space) (h : Handle) :
    ∀ j ∈ (w.nativeDelete space h).2, j.rank ≤ 1 := by
  simp only [nativeDelete]
  split
  · simp
  · split
    · simp
    · split
      · simp [Job.rank]
      · intro j hj
        simp only [List.mem_append, List.mem_cons, List.not_mem_nil, or_false] at hj
        rcases hj with hj | rfl | rfl
        · rw [rank_notifications _ _ j hj]; exact Nat.zero_le 1
        · simp [Job.rank]
        · simp [Job.rank]

theorem rank_invalidate (w : World) (ref : Ref) : ∀ j ∈ (w.invalidate ref).2, j.rank = 0 := by
  simp only [invalidate]
  split
  · simp
  · split
    · simp
    · simp
    · split <;> simp [Job.rank]

theorem rank_signal (w : World) (cb : SignalCallback) (object : Handle) (info : EventInfo) :
    ∀ j ∈ (w.signal cb object info).2, j.rank = 0 := by
  simp only [signal]
  split
  · simp [Job.rank]
  · split
    · split
      · simp [Job.rank]
      · simp [Job.rank]
      · split <;> simp [Job.rank]
    · simp

theorem rank_runSlot (w : World) (cb : DeleteCallback) (h : Handle) :
    ∀ j ∈ (w.runSlot cb h).2, j.rank ≤ 2 := by
  simp only [runSlot]
  split
  · simp [Job.rank]
  · split <;> simp [Job.rank]

theorem rank_delete (w : World) (ref : Ref) : ∀ j ∈ (w.delete ref).2, j.rank ≤ 3 := by
  simp only [delete]
  split
  · simp
  · intro j hj
    simp only [List.mem_append, List.mem_cons, List.not_mem_nil, or_false] at hj
    rcases hj with hj | rfl | rfl | rfl | rfl
    · exact rank_carryOut _ _ j hj
    all_goals simp [Job.rank]

/-- What an operation makes due is below another operation. -/
theorem rank_perform (w : World) (op : Op) : ∀ j ∈ (w.perform op).2, j.rank ≤ 4 := by
  cases op with
  | destroy h =>
    intro j hj
    simp only [perform, List.mem_append, List.mem_singleton] at hj
    rcases hj with hj | rfl
    · exact Nat.le_succ_of_le (w.rank_destroy h j hj)
    · simp [Job.rank]
  | native c =>
    cases c with
    | itemDel h =>
      intro j hj
      simp only [perform, List.mem_append, List.mem_singleton] at hj
      rcases hj with hj | rfl
      · exact Nat.le_succ_of_le (rank_carryOut _ h j hj)
      · simp [Job.rank]
    | _ => simp [perform]
  | delete ref => exact fun j hj => Nat.le_succ_of_le (w.rank_delete ref j hj)
  | flush =>
    intro j hj
    simp only [perform, flush, List.mem_append, List.mem_map, List.mem_singleton] at hj
    rcases hj with ⟨h, -, rfl⟩ | rfl <;> simp [Job.rank]
  | fire object event info =>
    intro j hj
    simp only [perform, fire, List.mem_append, List.mem_map, List.mem_singleton] at hj
    rcases hj with ⟨cb, -, rfl⟩ | rfl <;> simp [Job.rank]
  | nativeDelete space h => simp [perform, Job.rank]
  | _ => simp [perform]

end World

/-- A job gives way to jobs of smaller rank. -/
theorem Job.rank_expand (w : World) (j : Job) : ∀ j' ∈ (j.expand w).2, j'.rank < j.rank := by
  cases j with
  | act choose => exact fun j' hj => Nat.lt_succ_of_le (w.rank_perform (choose w) j' hj)
  | slot cb h => exact fun j' hj => Nat.lt_succ_of_le (w.rank_runSlot cb h j' hj)
  | nativeDelete space h => exact fun j' hj => Nat.lt_succ_of_le (w.rank_nativeDelete space h j' hj)
  | invalidate ref => exact fun j' hj => Nat.lt_succ_of_le (Nat.le_of_eq (w.rank_invalidate ref j' hj))
  | signal cb object info =>
    exact fun j' hj => Nat.lt_succ_of_le (Nat.le_of_eq (w.rank_signal cb object info j' hj))
  | destroyQueued h =>
    exact fun j' hj => Nat.lt_succ_of_le (World.rank_destroy _ h j' hj)
  | _ => simp [Job.expand]

namespace Program

/-- A task gives way to tasks of smaller rank. -/
theorem rank_expand (p : Program) (t : Task) (w : World) :
    ∀ t' ∈ (p.expand t w).2, t'.rank < t.rank := by
  obtain ⟨level, job⟩ := t
  have other : ∀ t' ∈ (job.expand w).2.map (Task.mk level), t'.rank < Task.rank ⟨level, job⟩ := by
    intro t' ht
    obtain ⟨j, hj, rfl⟩ := List.mem_map.1 ht
    have := job.rank_expand w j hj
    simp only [Task.rank]
    omega
  cases job with
  | enter c =>
    cases level with
    | zero => simp [expand]
    | succ level =>
      intro t' ht
      simp only [expand, List.mem_append, List.mem_map, List.mem_singleton] at ht
      rcases ht with ⟨choose, -, rfl⟩ | rfl <;> simp only [Task.rank, Job.rank] <;> omega
  | _ => exact other

theorem foldl_congr_mem {α β : Type} {f g : β → α → β} {as : List α} (h : ∀ b, ∀ a ∈ as, f b a = g b a)
    (b : β) : as.foldl f b = as.foldl g b := by
  induction as generalizing b with
  | nil => rfl
  | cons a as ih =>
    rw [List.foldl_cons, List.foldl_cons, h b a (List.mem_cons_self ..),
      ih fun b a' ha => h b a' (List.mem_cons_of_mem _ ha)]

/-- Beyond the rank of the task, the bound on a run makes no difference. -/
theorem runWithin_eq_run (p : Program) (n : Nat) (t : Task) (w : World) (h : t.rank < n) :
    p.runWithin n t w = p.run t w := by
  induction n using Nat.strongRecOn generalizing t w with
  | ind n ih =>
    cases n with
    | zero => omega
    | succ n =>
      simp only [run, runWithin]
      refine foldl_congr_mem (fun w' t' ht => ?_) _
      have hlt := p.rank_expand t w t' ht
      rw [ih n (Nat.lt_succ_self n) t' w' (by omega)]
      by_cases hn : t.rank = n
      · rw [hn, ih n (Nat.lt_succ_self n) t' w' (by omega)]
      · rw [ih t.rank (by omega) t' w' hlt]

/-- Running a task is expanding it and running what it gives way to, in order. -/
theorem run_eq (p : Program) (t : Task) (w : World) :
    p.run t w = (p.expand t w).2.foldl (fun w t => p.run t w) (p.expand t w).1 := by
  rw [run, runWithin]
  exact foldl_congr_mem (fun w' t' ht => p.runWithin_eq_run _ t' w' (p.rank_expand t w t' ht)) _

end Program

end HandleBridge
