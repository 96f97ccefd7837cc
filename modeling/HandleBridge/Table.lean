/-
  HandleBridge.Table — finite maps as lists of keyed entries.

  A table holds each key at most once; the fact is part of the type. Looking a key up
  is the view through which the rest of the library sees a table: after `insert`,
  `erase` and `modify` exactly one key reads differently (`get?_insert`, `get?_erase`,
  `get?_modify`), and a key is found exactly when one of the entries carries it
  (`get?_eq_some_iff`).
-/

namespace HandleBridge

/-- A finite map: entries with pairwise different keys. -/
structure Table (κ ν : Type) where
  entries : List (κ × ν)
  nodup : (entries.map (·.1)).Nodup

namespace Table

variable {κ ν : Type} [DecidableEq κ]

def empty : Table κ ν := ⟨[], List.nodup_nil⟩

instance : EmptyCollection (Table κ ν) := ⟨empty⟩

instance : Inhabited (Table κ ν) := ⟨empty⟩

instance [DecidableEq ν] : DecidableEq (Table κ ν) := fun s t =>
  decidable_of_iff (s.entries = t.entries)
    ⟨fun h => by cases s; cases t; cases h; rfl, fun h => by rw [h]⟩

/-- The value of the first entry with key `k`. -/
def find (k : κ) : List (κ × ν) → Option ν
  | [] => none
  | (k', v) :: es => if k' = k then some v else find k es

def get? (t : Table κ ν) (k : κ) : Option ν := find k t.entries

def contains (t : Table κ ν) (k : κ) : Bool := (t.get? k).isSome

def size (t : Table κ ν) : Nat := t.entries.length

def keys (t : Table κ ν) : List κ := t.entries.map (·.1)

def values (t : Table κ ν) : List ν := t.entries.map (·.2)

/-- Drops the entry of `k`, if there is one. -/
def erase (t : Table κ ν) (k : κ) : Table κ ν where
  entries := t.entries.filter (·.1 ≠ k)
  nodup := t.nodup.sublist (List.filter_sublist.map _)

theorem not_mem_keys_erase (t : Table κ ν) (k : κ) : k ∉ (t.erase k).entries.map (·.1) := by
  simp [erase]

/-- Maps `k` to `v`, whatever it was mapped to before. -/
def insert (t : Table κ ν) (k : κ) (v : ν) : Table κ ν where
  entries := (k, v) :: (t.erase k).entries
  nodup := List.nodup_cons.mpr ⟨t.not_mem_keys_erase k, (t.erase k).nodup⟩

theorem map_fst_modify (f : ν → ν) (k : κ) (es : List (κ × ν)) :
    (es.map fun e => if e.1 = k then (e.1, f e.2) else e).map (·.1) = es.map (·.1) := by
  induction es with
  | nil => rfl
  | cons e es ih =>
    simp only [List.map_cons, ih]
    split <;> rfl

/-- Replaces the value at `k`, if there is one. -/
def modify (t : Table κ ν) (k : κ) (f : ν → ν) : Table κ ν where
  entries := t.entries.map fun e => if e.1 = k then (e.1, f e.2) else e
  nodup := by rw [map_fst_modify]; exact t.nodup

/-- The table with the given rows; a later row for the same key wins. -/
def ofList (rows : List (κ × ν)) : Table κ ν := rows.foldl (fun t e => t.insert e.1 e.2) ∅

@[simp] theorem get?_empty (k : κ) : (∅ : Table κ ν).get? k = none := rfl

theorem find_filter (k k' : κ) (es : List (κ × ν)) :
    find k' (es.filter (·.1 ≠ k)) = if k' = k then none else find k' es := by
  induction es with
  | nil => simp [find]
  | cons e es ih =>
    obtain ⟨a, v⟩ := e
    by_cases ha : a = k
    · subst ha
      rw [List.filter_cons_of_neg (by simp), ih]
      by_cases h : k' = a
      · simp [h]
      · simp [find, h, Ne.symm h]
    · rw [List.filter_cons_of_pos (by simpa using ha)]
      simp only [find, ih]
      by_cases h : a = k'
      · subst h; simp [ha]
      · simp [h]

@[simp] theorem get?_erase (t : Table κ ν) (k k' : κ) :
    (t.erase k).get? k' = if k' = k then none else t.get? k' := find_filter k k' t.entries

@[simp] theorem get?_insert (t : Table κ ν) (k k' : κ) (v : ν) :
    (t.insert k v).get? k' = if k' = k then some v else t.get? k' := by
  simp only [get?, insert, find]
  by_cases h : k = k'
  · simp [h]
  · rw [if_neg h, if_neg (Ne.symm h)]
    have := get?_erase t k k'
    rw [if_neg (Ne.symm h)] at this
    exact this

theorem find_modify (f : ν → ν) (k k' : κ) (es : List (κ × ν)) :
    find k' (es.map fun e => if e.1 = k then (e.1, f e.2) else e) =
      if k' = k then (find k' es).map f else find k' es := by
  induction es with
  | nil => simp [find]
  | cons e es ih =>
    obtain ⟨a, v⟩ := e
    by_cases ha : a = k
    · subst ha
      simp only [List.map_cons, if_true, find, ih]
      by_cases h : a = k'
      · simp [h]
      · simp [h, Ne.symm h]
    · simp only [List.map_cons, ha, if_false, find, ih]
      by_cases h : a = k'
      · subst h; simp [ha]
      · simp [h]

@[simp] theorem get?_modify (t : Table κ ν) (k k' : κ) (f : ν → ν) :
    (t.modify k f).get? k' = if k' = k then (t.get? k').map f else t.get? k' :=
  find_modify f k k' t.entries

theorem find_eq_some_iff {k : κ} {v : ν} {es : List (κ × ν)} (hd : (es.map (·.1)).Nodup) :
    find k es = some v ↔ (k, v) ∈ es := by
  induction es with
  | nil => simp [find]
  | cons e es ih =>
    obtain ⟨a, w⟩ := e
    simp only [List.map_cons, List.nodup_cons] at hd
    by_cases h : a = k
    · subst h
      simp only [find, if_true, Option.some.injEq, List.mem_cons, Prod.mk.injEq, true_and]
      refine ⟨fun h => .inl h.symm, fun h => ?_⟩
      rcases h with h | h
      · exact h.symm
      · exact absurd (List.mem_map_of_mem (f := (·.1)) h) hd.1
    · simp [find, h, ih hd.2, Ne.symm h]

/-- A key reads `v` exactly when the pair is one of the entries. -/
theorem get?_eq_some_iff (t : Table κ ν) (k : κ) (v : ν) : t.get? k = some v ↔ (k, v) ∈ t.entries :=
  find_eq_some_iff t.nodup

theorem size_eq_zero {t : Table κ ν} (h : ∀ k, t.get? k = none) : t.size = 0 := by
  rw [size, List.length_eq_zero_iff, List.eq_nil_iff_forall_not_mem]
  rintro ⟨k, v⟩ hm
  have := (t.get?_eq_some_iff k v).mpr hm
  rw [h] at this
  cases this

end Table

end HandleBridge
