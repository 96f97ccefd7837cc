/-
  HandleBridge.Proofs.CallStack — the marks of a registry mirror the call stack.

  A registry that reports the deletion of a handle marks the handle, and takes no notice of
  a second report of it until the first has ended. A mark that outlived its report would
  make the handle deaf to deletions for good. Here the reports are found without a look at
  the marks: a report is made when the registry is told of a handle that it finds bound
  (`State.Finds`), and it has not come back while the stack has been at least as high as it
  was then (`Course.Unreturned`). Its last task is the registry's own, which takes the mark
  away; while there is more than that on the stack the report is in the wrapper's code
  (`Course.InWrapperCode`), however deep in it.

  - `Course.Reporting.stack`: what of a report is left lies on the stack above what was there
    when it was made.
  - `Course.reporting_of_settle`: whatever end of a report lies on the stack, the report has
    been made and has not come back.
  - `Course.marked_iff_reporting`: the marked handles are those of the reports in progress.
  - `marks_mirror_the_call_stack`: no two reports in progress concern one handle; none in
    progress, nothing marked; when a report comes back, what is marked is what was marked
    when it was made; and whatever is bound and not in a report in progress is heard.
-/
import HandleBridge.Proofs.Notification
import HandleBridge.Proofs.Rebinding

namespace HandleBridge

variable {k : Conduct}

@[simp] theorem length_jobs (ts : List Task) : (jobs ts).length = ts.length := List.length_map ..

/-- The tasks `ts` run to their end, whichever program carries them out. -/
theorem Program.runs_all (p : Program) (ts : List Task) (w : World) :
    ∃ vs, Runs ts w vs (ts.foldl (fun w t => p.run t w) w) := by
  induction ts generalizing w with
  | nil => exact ⟨[], .done w⟩
  | cons t ts ih =>
    obtain ⟨vs, run⟩ := p.runs_run t w
    obtain ⟨vs', run'⟩ := ih (p.run t w)
    exact ⟨vs ++ vs', run.append run'⟩

/-! ## Reports in progress -/

/-- A registry is about to be told that `h` has been destroyed, and finds it bound to `id`. -/
def State.Finds (s : State) (space : Space) (h : Handle) (id : ItemId) : Prop :=
  (∃ js, jobs s.tasks = .nativeDelete space h :: js) ∧ h ∉ (s.world.registry space).dying ∧
    (s.world.registry space).byHandle.get? h = some id

namespace Course

/-- The task that had its turn at `i` has not come back at `m`: the stack has been at least
    as high since. -/
structure Unreturned (c : Course k) (i m : Nat) : Prop where
  before : i < m
  high : ∀ n, i < n → n ≤ m → (c.state i).tasks.length ≤ (c.state n).tasks.length

/-- The report that was made at `i`, and found `h` bound to `id`, has not come back at `m`. -/
structure Reporting (c : Course k) (i m : Nat) (space : Space) (h : Handle) (id : ItemId) : Prop where
  finds : (c.state i).Finds space h id
  unreturned : c.Unreturned i m

/-- It is still in the wrapper's code: more of it is left than its last task, the registry's. -/
structure InWrapperCode (c : Course k) (i m : Nat) (space : Space) (h : Handle) (id : ItemId) : Prop
    extends c.Reporting i m space h id where
  above : (c.state i).tasks.length < (c.state m).tasks.length

variable {c : Course k} {i m : Nat} {space : Space} {h : Handle} {id : ItemId}

theorem Unreturned.earlier {n : Nat} (u : c.Unreturned i m) (hi : i < n) (hn : n ≤ m) : c.Unreturned i n :=
  ⟨hi, fun l hl hl' => u.high l hl (Nat.le_trans hl' hn)⟩

theorem Reporting.earlier {n : Nat} (r : c.Reporting i m space h id) (hi : i < n) (hn : n ≤ m) :
    c.Reporting i n space h id := ⟨r.finds, r.unreturned.earlier hi hn⟩

/-- What a report that finds a binding makes due. -/
theorem finds_due (c : Course k) (hi : i < c.length) (f : (c.state i).Finds space h id) :
    jobs (c.state (i + 1)).tasks = (c.state i).world.wrapperCode space id ++
      .settle space h id ((c.state i).world.lookupId space id) :: (jobs (c.state i).tasks).tail := by
  obtain ⟨⟨js, hj⟩, hd, hb⟩ := f
  obtain ⟨p, t, ht, -, hnext⟩ := c.turn_of_mem hi hj
  rw [hnext, jobs_expand p t _ (by simp [ht]), ht, hj]
  show ((c.state i).world.nativeDelete space h).2 ++ js = _
  rw [(World.nativeDelete_found hd hb).2, List.append_assoc]
  rfl

/-- Of a report in progress there lie on the stack, above what was there when it was made:
    what is left of the wrapper code that has begun, the wrapper code that has not, and the
    end of the report. -/
theorem Reporting.stack (r : c.Reporting i m space h id) (hm : m ≤ c.length) :
    ∃ above done rest, (c.state i).world.wrapperCode space id = done ++ rest ∧ (above ≠ [] → done ≠ []) ∧
      jobs (c.state m).tasks = above ++ rest ++
        .settle space h id ((c.state i).world.lookupId space id) :: (jobs (c.state i).tasks).tail := by
  obtain ⟨f, u⟩ := r
  obtain ⟨before, high⟩ := u
  induction before with
  | refl => exact ⟨[], [], _, rfl, absurd rfl, c.finds_due hm f⟩
  | @step m hlt ih =>
    obtain ⟨above, done, rest, code, begun, stack⟩ :=
      ih (Nat.le_of_succ_le hm) fun n hn hn' => high n hn (Nat.le_succ_of_le hn')
    rcases above with _ | ⟨a, above⟩
    · rcases rest with _ | ⟨j, rest⟩
      · -- the end of the report has its turn, and the stack is as it was before the call
        obtain ⟨p, t, ht, -, hnext⟩ := c.turn_of_mem hm stack
        have low : jobs (c.state (m + 1)).tasks = (jobs (c.state i).tasks).tail := by
          rw [hnext, jobs_expand p t _ (by simp [ht]), ht]
          rfl
        obtain ⟨⟨js, hj⟩, -⟩ := f
        have tall := high (m + 1) (Nat.lt_succ_of_lt hlt) (Nat.le_refl _)
        have short := congrArg List.length low
        have tail := congrArg List.length hj
        simp only [jobs, List.length_map, List.length_tail, List.length_cons] at short tail
        omega
      · obtain ⟨p, t, -, -, hnext⟩ := c.turn_of_mem hm stack
        refine ⟨jobs (p.expand t (c.state m).world).2, done ++ [j], rest, ?_, by simp, ?_⟩
        · rw [code, List.append_assoc]
          rfl
        · rw [hnext, List.append_assoc]
          rfl
    · obtain ⟨p, t, -, -, hnext⟩ := c.turn_of_mem hm (show _ = a :: (above ++ rest ++ _) from stack)
      refine ⟨jobs (p.expand t (c.state m).world).2 ++ above, done, rest, code, fun _ => begun (by simp), ?_⟩
      rw [hnext]
      simp only [List.append_assoc]

/-- Where the end of a report lies on the stack, a task has had its turn before. -/
theorem turn_before_settle (c : Course k) (hm : m < c.length) {wrapper : Option Ref}
    (hs : .settle space h id wrapper ∈ jobs (c.state (m + 1)).tasks) :
    ∃ (p : Program) (t : Task) (js : List Job), jobs (c.state m).tasks = t.job :: js ∧
      jobs (c.state (m + 1)).tasks = jobs (p.expand t (c.state m).world).2 ++ js := by
  rcases c.turn_or_call hm with turn | ⟨none, -⟩
  · generalize c.state (m + 1) = s' at turn
    generalize c.state m = s at turn
    obtain ⟨p, w, t, ts, -⟩ := turn
    exact ⟨p, t, jobs ts, rfl, jobs_append _ _⟩
  · have next := c.next m hm
    generalize c.state (m + 1) = s' at next hs
    generalize c.state m = s at next none
    cases next with
    | call w level choose => simp [jobs] at hs
    | turn ht => cases ht; cases none

/-- A report whose end is still on the stack after a task has had its turn has not come back. -/
theorem Reporting.goes_on (r : c.Reporting i m space h id) (hm : m < c.length) {wrapper : Option Ref} {j : Job}
    {new js : List Job} (hj : jobs (c.state m).tasks = j :: js) (hnext : jobs (c.state (m + 1)).tasks = new ++ js)
    (hs : .settle space h id wrapper ∈ js) : c.Reporting i (m + 1) space h id := by
  refine ⟨r.finds, Nat.lt_succ_of_lt r.unreturned.before, fun n hn hn' => ?_⟩
  rcases Nat.lt_or_eq_of_le hn' with hlt | rfl
  · exact r.unreturned.high n hn (Nat.le_of_lt_succ hlt)
  · obtain ⟨above, done, rest, -, -, stack⟩ := r.stack (Nat.le_of_lt hm)
    obtain ⟨⟨is, hi⟩, -⟩ := r.finds
    have once := (c.marked (Nat.le_of_lt hm) stack).2 id wrapper
    rw [hi, List.tail_cons] at stack once
    have beneath : is.length < js.length := by
      rw [hj] at stack
      rcases hw : above ++ rest with _ | ⟨a, mid⟩
      · -- the end of this report had its turn, and that of another would lie beneath it
        rw [hw] at stack
        obtain ⟨-, rfl⟩ := List.cons.inj stack
        exact absurd hs once.2
      · rw [hw] at stack
        obtain ⟨-, rfl⟩ := List.cons.inj stack
        rw [List.append_eq, List.length_append, List.length_cons]
        omega
    rw [← length_jobs, ← length_jobs, hi, hnext, List.length_append, List.length_cons]
    omega

/-- Whatever end of a report lies on the stack, the report has been made and has not come back. -/
theorem reporting_of_settle (c : Course k) (hm : m ≤ c.length) {wrapper : Option Ref}
    (hs : .settle space h id wrapper ∈ jobs (c.state m).tasks) : ∃ i, c.Reporting i m space h id := by
  induction m with
  | zero =>
    obtain ⟨mode, e⟩ := c.start
    rw [e] at hs
    cases hs
  | succ m ih =>
    obtain ⟨p, t, js, hj, hnext⟩ := c.turn_before_settle hm hs
    rw [hnext] at hs
    rcases List.mem_append.mp hs with due | later
    · obtain ⟨told, hd, hb, -⟩ := settle_of_mem_expand due
      refine ⟨m, ⟨⟨js, told ▸ hj⟩, hd, hb⟩, Nat.lt_succ_self m, fun n hn hn' => ?_⟩
      obtain rfl : n = m + 1 := Nat.le_antisymm hn' hn
      have some_due := List.length_pos_of_mem due
      rw [← length_jobs, ← length_jobs, hj, hnext, List.length_append, List.length_cons]
      omega
    · obtain ⟨i, r⟩ := ih (Nat.le_of_succ_le hm) (hj ▸ List.mem_cons_of_mem _ later)
      exact ⟨i, r.goes_on hm hj hnext later⟩

/-- The marked handles are those of the reports in progress. -/
theorem marked_iff_reporting (c : Course k) (hm : m ≤ c.length) :
    h ∈ ((c.state m).world.registry space).dying ↔ ∃ i id, c.Reporting i m space h id := by
  rw [(marked_exactly (c.reach hm) space).1, mem_reported]
  constructor
  · rintro ⟨id, wrapper, hs⟩
    obtain ⟨i, r⟩ := c.reporting_of_settle hm hs
    exact ⟨i, id, r⟩
  · rintro ⟨i, id, r⟩
    obtain ⟨above, done, rest, -, -, stack⟩ := r.stack hm
    exact ⟨id, _, stack ▸ List.mem_append_right _ (List.mem_cons_self ..)⟩

/-- A report that finds a binding finds its handle in no report in progress. -/
theorem Reporting.le_of_finds {i' : Nat} {id' : ItemId} (r : c.Reporting i m space h id)
    (r' : c.Reporting i' m space h id') (hm : m ≤ c.length) : i' ≤ i := by
  refine Nat.le_of_not_lt fun hlt => r'.finds.2.1 ?_
  have le : i' ≤ m := Nat.le_of_lt r'.unreturned.before
  exact (c.marked_iff_reporting (Nat.le_trans le hm)).mpr ⟨i, id, r.earlier hlt le⟩

/-- No two reports in progress concern the same handle. -/
theorem Reporting.unique {i' : Nat} {id' : ItemId} (r : c.Reporting i m space h id)
    (r' : c.Reporting i' m space h id') (hm : m ≤ c.length) : i = i' ∧ id = id' := by
  obtain rfl : i = i' := Nat.le_antisymm (r'.le_of_finds r hm) (r.le_of_finds r' hm)
  exact ⟨rfl, Option.some.inj (r.finds.2.2.symm.trans r'.finds.2.2)⟩

/-- A report in progress is in the wrapper's code, or its end is the next task. -/
theorem Reporting.inWrapperCode_or (r : c.Reporting i m space h id) (hm : m ≤ c.length) :
    c.InWrapperCode i m space h id ∨ ∃ wrapper js, jobs (c.state m).tasks = .settle space h id wrapper :: js := by
  obtain ⟨above, done, rest, -, -, stack⟩ := r.stack hm
  rcases hw : above ++ rest with _ | ⟨a, mid⟩
  · rw [hw] at stack
    exact Or.inr ⟨_, _, stack⟩
  · refine Or.inl ⟨r, ?_⟩
    obtain ⟨⟨is, hi⟩, -⟩ := r.finds
    rw [← length_jobs, ← length_jobs, stack, hw, hi]
    simp only [List.length_append, List.length_cons, List.tail_cons]
    omega

/-- A state and the next one, where the first task is known. -/
theorem next_of_cons (c : Course k) (hi : i < c.length) {t : Task} {ts : List Task} (e : (c.state i).tasks = t :: ts) :
    ∃ p : Program, (c.state (i + 1)).tasks = (p.expand t (c.state i).world).2 ++ ts := by
  rcases c.turn_or_call hi with turn | ⟨none, -⟩
  · generalize c.state (i + 1) = s' at turn
    generalize c.state i = s at turn e
    obtain ⟨p, w, t', ts', -⟩ := turn
    obtain ⟨rfl, rfl⟩ := List.cons.inj e
    exact ⟨p, rfl⟩
  · rw [none] at e
    cases e

/-- While a task has not come back, what lay beneath it lies beneath what is left of it. -/
theorem Unreturned.beneath (u : c.Unreturned i m) (hm : m ≤ c.length) {t : Task} {ts : List Task}
    (e : (c.state i).tasks = t :: ts) : ∃ us, (c.state m).tasks = us ++ ts := by
  obtain ⟨before, high⟩ := u
  induction before with
  | refl =>
    obtain ⟨p, hnext⟩ := c.next_of_cons hm e
    exact ⟨_, hnext⟩
  | @step m hlt ih =>
    obtain ⟨us, hu⟩ := ih (Nat.le_of_succ_le hm) fun n hn hn' => high n hn (Nat.le_succ_of_le hn')
    rcases us with _ | ⟨u, us⟩
    · have tall := high m hlt (Nat.le_succ m)
      rw [hu, e] at tall
      exact absurd tall (Nat.not_succ_le_self _)
    · obtain ⟨p, hnext⟩ := c.next_of_cons hm hu
      exact ⟨_, hnext.trans (List.append_assoc ..).symm⟩

/-- A report in progress comes back, within the limit of a program's calls, and what is marked then is
    what was marked when it was made. -/
theorem Reporting.comes_back (r : c.Reporting i m space h id) (hm : m ≤ c.length) :
    ∃ us, (c.state m).tasks = us ++ (c.state i).tasks.tail ∧
      (∀ p : Program, ∃ vs, Runs us (c.state m).world vs (us.foldl (fun w t => p.run t w) (c.state m).world)) ∧
      ∀ vs w', Runs us (c.state m).world vs w' → AllAllowed k vs →
        ∀ s, (w'.registry s).dying = ((c.state i).world.registry s).dying := by
  obtain ⟨⟨js, told⟩, -⟩ := r.finds
  rcases e : (c.state i).tasks with _ | ⟨t, ts⟩
  · rw [e] at told
    cases told
  obtain ⟨us, hu⟩ := r.unreturned.beneath hm e
  refine ⟨us, hu, fun p => p.runs_all us _, fun vs w' run ok s => ?_⟩
  have reach : Reach k ⟨(c.state m).world, us ++ ts⟩ := hu ▸ c.reach hm
  have back := (marked_exactly (reach.finish run ok) s).1
  have before := (marked_exactly (c.reach (Nat.le_trans (Nat.le_of_lt r.unreturned.before) hm)) s).1
  rw [e, jobs_cons] at told before
  rw [before, (List.cons.inj told).1]
  exact back

end Course

/-- In every run, at every point and for either registry, the marks mirror the call stack:
    - a handle is marked exactly when a report that found it bound is in progress, and then
      the report is in the wrapper's code, or the registry is about to end it. What is left of
      it lies on the stack: the rest of wrapper code that has begun, the wrapper code that
      has not, and its end;
    - so wherever the next task is not the end of a report, and program code may be running,
      the marked handles are exactly those of the reports that are in the wrapper's code;
    - no two reports in progress concern the same handle, and no handle is marked twice;
    - with no report in progress, and so with an empty stack, nothing is marked;
    - a report in progress comes back, whatever the handlers do, given that calls nest no deeper
      than the program's limit, and what is marked then is what was marked when it was made: its
      handle is not;
    - no handle is deaf: told of a handle that is bound, the registry finds the binding, unless
      a report of that handle is in progress, and the wrapper's code is due. -/
theorem marks_mirror_the_call_stack (c : Course k) (space : Space) {m : Nat} (hm : m ≤ c.length) :
    (∀ h, h ∈ ((c.state m).world.registry space).dying ↔ ∃ i id, c.Reporting i m space h id) ∧
    (∀ h i id, c.Reporting i m space h id →
      (c.InWrapperCode i m space h id ∨ ∃ wrapper js, jobs (c.state m).tasks = .settle space h id wrapper :: js) ∧
      ∃ above done rest, (c.state i).world.wrapperCode space id = done ++ rest ∧ (above ≠ [] → done ≠ []) ∧
        jobs (c.state m).tasks = above ++ rest ++
          .settle space h id ((c.state i).world.lookupId space id) :: (jobs (c.state i).tasks).tail) ∧
    ((∀ h id wrapper js, jobs (c.state m).tasks ≠ .settle space h id wrapper :: js) →
      ∀ h, h ∈ ((c.state m).world.registry space).dying ↔ ∃ i id, c.InWrapperCode i m space h id) ∧
    ((∀ h i i' id id', c.Reporting i m space h id → c.Reporting i' m space h id' → i = i' ∧ id = id') ∧
      ((c.state m).world.registry space).dying.Nodup) ∧
    (((∀ h i id, ¬ c.Reporting i m space h id) → ((c.state m).world.registry space).dying = []) ∧
      ((c.state m).tasks = [] → ((c.state m).world.registry space).dying = [])) ∧
    (∀ h i id, c.Reporting i m space h id → ∃ us, (c.state m).tasks = us ++ (c.state i).tasks.tail ∧
      (∀ p : Program, ∃ vs, Runs us (c.state m).world vs (us.foldl (fun w t => p.run t w) (c.state m).world)) ∧
      ∀ vs w', Runs us (c.state m).world vs w' → AllAllowed k vs →
        (w'.registry space).dying = ((c.state i).world.registry space).dying ∧ h ∉ (w'.registry space).dying) ∧
    ∀ h id js, jobs (c.state m).tasks = .nativeDelete space h :: js →
      ((c.state m).world.registry space).byHandle.get? h = some id → (∀ i id', ¬ c.Reporting i m space h id') →
      (c.state m).Finds space h id ∧ ((c.state m).world.nativeDelete space h).2 =
        (c.state m).world.wrapperCode space id ++ [.settle space h id ((c.state m).world.lookupId space id)] := by
  have marked {h : Handle} : h ∈ ((c.state m).world.registry space).dying ↔ ∃ i id, c.Reporting i m space h id :=
    c.marked_iff_reporting hm
  obtain ⟨marks, once⟩ := marked_exactly (c.reach hm) space
  refine ⟨fun h => marked, fun h i id r => ⟨r.inWrapperCode_or hm, r.stack hm⟩, fun other h => ?_,
    ⟨fun h i i' id id' r r' => r.unique r' hm, marks ▸ once⟩, ⟨fun none => ?_, fun rest => ?_⟩, fun h i id r => ?_,
    fun h id js told bound none => ?_⟩
  · constructor
    · intro hd
      obtain ⟨i, id, r⟩ := marked.mp hd
      rcases r.inWrapperCode_or hm with inside | ⟨wrapper, js, due⟩
      · exact ⟨i, id, inside⟩
      · exact absurd due (other h id wrapper js)
    · rintro ⟨i, id, inside⟩
      exact marked.mpr ⟨i, id, inside.toReporting⟩
  · refine List.eq_nil_iff_forall_not_mem.mpr fun h hd => ?_
    obtain ⟨i, id, r⟩ := marked.mp hd
    exact none h i id r
  · rw [marks, rest]
    rfl
  · obtain ⟨us, stack, ends, back⟩ := r.comes_back hm
    refine ⟨us, stack, ends, fun vs w' run ok => ?_⟩
    have same := back vs w' run ok space
    exact ⟨same, same ▸ r.finds.2.1⟩
  · have unmarked : h ∉ ((c.state m).world.registry space).dying := fun hd => by
      obtain ⟨i, id', r⟩ := marked.mp hd
      exact none i id' r
    exact ⟨⟨⟨js, told⟩, unmarked, bound⟩, (World.nativeDelete_found unmarked bound).2⟩

/-- An item that, told of its first object's deletion, has moved to a second that is destroyed
    as well is about to be invalidated: the registry is in its code twice, and has marked both. -/
theorem both_reports_are_in_its_code :
    ∃ c : Course .free, (c.state c.length).Invalidates ⟨0⟩ ∧
      ((c.state c.length).world.registry .items).dying = [⟨0x1010⟩, ⟨0x1000⟩] ∧
      (∃ i id, c.InWrapperCode i c.length .items ⟨0x1010⟩ id) ∧
      ∃ i id, c.InWrapperCode i c.length .items ⟨0x1000⟩ id := by
  obtain ⟨c, hc⟩ := reach_twiceDeleted.course
  have marks : ((c.state c.length).world.registry .items).dying = [⟨0x1010⟩, ⟨0x1000⟩] := by
    rw [hc]
    rfl
  have about : (c.state c.length).Invalidates ⟨0⟩ := ⟨_, by rw [hc]; rfl⟩
  obtain ⟨-, -, inside, -⟩ := marks_mirror_the_call_stack c .items (Nat.le_refl c.length)
  have inside := inside fun h id wrapper js due => by
    obtain ⟨js', next⟩ := about
    rw [next] at due
    cases due
  exact ⟨c, about, marks, (inside ⟨0x1010⟩).mp (by rw [marks]; decide),
    (inside ⟨0x1000⟩).mp (by rw [marks]; decide)⟩

end HandleBridge
