/-
  HandleBridge.Proofs.ConfigText — a configuration is read back from its text.

  - `Table.get?_ofList`, `Features.rows_eq`: a feature table is known by what its keys read.
  - `Config.parse?_text`: the text of a configuration with a number of 63 bits is read, as a
    configuration with the same features, number and mode.
  - `config_round_trip`: exactly the configurations with such a number can be written, and each
    is found again in its text, and in a file with its text.
-/
import HandleBridge.Config.Load
import HandleBridge.Proofs.TomlText
import Mathlib.Data.List.Sort
import Mathlib.Data.List.Nodup

namespace HandleBridge

/-! ## Feature tables -/

namespace Table

variable {κ ν : Type} [DecidableEq κ]

theorem get?_foldl_insert {rows : List (κ × ν)} (distinct : (rows.map (·.1)).Nodup) (t : Table κ ν) (k : κ) :
    (rows.foldl (fun t e => t.insert e.1 e.2) t).get? k = (find k rows).or (t.get? k) := by
  induction rows generalizing t with
  | nil => rfl
  | cons e rows ih =>
    obtain ⟨a, v⟩ := e
    obtain ⟨apart, distinct⟩ := List.nodup_cons.mp distinct
    rw [List.foldl_cons, ih distinct, get?_insert, find]
    by_cases h : a = k
    · subst h
      have none : find a rows = none := by
        rw [Option.eq_none_iff_forall_ne_some]
        intro w hw
        exact apart (List.mem_map_of_mem (f := (·.1)) ((find_eq_some_iff distinct).mp hw))
      rw [none, if_pos rfl, if_pos rfl, Option.none_or, Option.some_or]
    · rw [if_neg h, if_neg (Ne.symm h)]

/-- Where no key has two rows, a key reads what its row says. -/
theorem get?_ofList {rows : List (κ × ν)} (distinct : (rows.map (·.1)).Nodup) (k : κ) : (ofList rows).get? k = find k rows := by
  rw [ofList, get?_foldl_insert distinct, get?_empty, Option.or_none]

end Table

namespace Features

theorem perm_rows (t : Features) : t.rows.Perm t.entries := List.mergeSort_perm _ _

theorem nodup_rows (t : Features) : (t.rows.map (·.1)).Nodup := (t.perm_rows.map _).nodup_iff.mpr t.nodup

theorem find_rows (t : Features) (key : String) : Table.find key t.rows = t.get? key := by
  ext v
  rw [Table.find_eq_some_iff t.nodup_rows, t.perm_rows.mem_iff, t.get?_eq_some_iff]

theorem sorted_rows (t : Features) : t.rows.Pairwise fun a b => a.1 ≤ b.1 := by
  let below (a b : String × Bool) : Bool := decide (a.1 ≤ b.1)
  have trans (a b c : String × Bool) (hab : below a b = true) (hbc : below b c = true) : below a c = true := by
    simp only [below, decide_eq_true_eq] at hab hbc ⊢
    exact String.le_trans hab hbc
  have total (a b : String × Bool) : (below a b || below b a) = true := by
    simp only [below, Bool.or_eq_true, decide_eq_true_eq]
    exact String.le_total a.1 b.1
  have sorted : t.rows.Pairwise fun a b => below a b = true := List.pairwise_mergeSort trans total t.entries
  exact sorted.imp fun h => of_decide_eq_true h

theorem mem_rows (t : Features) (row : String × Bool) : row ∈ t.rows ↔ t.get? row.1 = some row.2 := by
  rw [t.perm_rows.mem_iff, t.get?_eq_some_iff]

/-- Tables whose keys read the same have the same rows. -/
theorem rows_eq {s t : Features} (h : ∀ key, s.get? key = t.get? key) : s.rows = t.rows := by
  have same (row : String × Bool) : row ∈ s.rows ↔ row ∈ t.rows := by
    rw [mem_rows, mem_rows, h]
  have perm : s.rows.Perm t.rows :=
    (List.perm_ext_iff_of_nodup s.nodup_rows.of_map t.nodup_rows.of_map).mpr same
  refine perm.eq_of_pairwise (fun a b ha hb hab hba => ?_) s.sorted_rows t.sorted_rows
  have key : a.1 = b.1 := String.le_antisymm hab hba
  have value : some a.2 = some b.2 := by
    rw [← (s.mem_rows a).mp ha, ← (t.mem_rows b).mp hb, h, key]
  exact Prod.ext key (Option.some.inj value)

end Features

/-! ## The text of a configuration -/

namespace Config

open Toml (Value Stands entryText)

variable (c : Config)

/-- The features, as a table of the text gives them. -/
def featureRows : List (String × List Char × Value) :=
  c.features.rows.map fun row => (row.1, (toString row.2).toList, .boolean row.2)

/-- The defaults of the simulation, as a table of the text gives them. -/
def simulationRows : List (String × List Char × Value) :=
  [("items", (toString c.items).toList, .integer c.items),
    ("delete_mode", Toml.basicOf (modeText c.mode).toList, .string (modeText c.mode))]

/-- The text is two tables of such rows. -/
theorem text_eq : c.text = "[features]\n".toList ++ (c.featureRows.flatMap (fun x => entryText x.1 x.2.1) ++
    ('\n' :: ("[simulate]\n".toList ++ (c.simulationRows.flatMap (fun x => entryText x.1 x.2.1) ++ [])))) := by
  have features : c.features.rows.flatMap rowText = c.featureRows.flatMap fun x => entryText x.1 x.2.1 := by
    rw [featureRows, List.flatMap_map]
    rfl
  have named (k : String) (start : List Char) (hk : Toml.keyText k.toList ++ [' ', '=', ' '] = start) (cs : List Char) :
      entryText k cs = start ++ (cs ++ ['\n']) := by
    rw [entryText, hk, List.append_assoc]
  have items := named "items" "items = ".toList (by decide)
  have mode := named "delete_mode" "delete_mode = ".toList (by decide)
  have simulate : "\n[simulate]\nitems = ".toList = '\n' :: ("[simulate]\n".toList ++ "items = ".toList) := by decide
  have next : "\ndelete_mode = ".toList = '\n' :: "delete_mode = ".toList := by decide
  unfold text
  simp only [features, simulate, next, simulationRows, List.flatMap_cons, List.flatMap_nil, items, mode, List.append_assoc,
    List.cons_append, List.nil_append, List.append_nil]

theorem featureRows_stand : ∀ x ∈ c.featureRows, Stands x.2.1 x.2.2 := by
  intro x hx
  obtain ⟨row, -, rfl⟩ := List.mem_map.mp hx
  exact Toml.stands_boolean row.2

theorem simulationRows_stand (h : c.items < 2 ^ 63) : ∀ x ∈ c.simulationRows, Stands x.2.1 x.2.2 := by
  intro x hx
  rcases hx with _ | ⟨_, _ | ⟨_, ⟨⟩⟩⟩
  · exact Toml.stands_integer h
  · exact Toml.stands_string (modeText c.mode)

/-- The tables that the text is read as. -/
def tables : Toml.Entries :=
  [("features", .table .header (c.featureRows.map fun x => (x.1, x.2.2))),
    ("simulate", .table .header (c.simulationRows.map fun x => (x.1, x.2.2)))]

theorem length_text : c.featureRows.length + c.simulationRows.length + 23 ≤ c.text.length := by
  have features := Toml.length_entries c.featureRows
  have simulation := Toml.length_entries c.simulationRows
  have opening : "[features]\n".toList.length = 11 := rfl
  have next : "[simulate]\n".toList.length = 11 := rfl
  simp only [text_eq, List.length_append, List.length_cons, opening, next]
  omega

theorem parse?_tables (h : c.items < 2 ^ 63) : Toml.parse? c.text = some c.tables := by
  have distinct : (c.featureRows.map (·.1)).Nodup := by
    rw [featureRows, List.map_map]
    exact c.features.nodup_rows
  have apart : (c.simulationRows.map (·.1)).Nodup := by simp [simulationRows]
  have opened (r : List Char) : Toml.line? .start ("[features]\n".toList ++ r) = some (⟨[], .table [] "features", []⟩, r) := rfl
  have blank (s : Toml.Draft) (r : List Char) : Toml.line? s ('\n' :: r) = some (s, r) := rfl
  have turned (es : Toml.Entries) (r : List Char) : Toml.line? ⟨[], .table [] "features", es⟩ ("[simulate]\n".toList ++ r) =
      some (⟨[("features", .table .header es)], .table [] "simulate", []⟩, r) := rfl
  let features : Toml.Entries := c.featureRows.map fun x => (x.1, x.2.2)
  let simulation : Toml.Entries := c.simulationRows.map fun x => (x.1, x.2.2)
  -- the text has more characters than lines
  obtain ⟨n, fuel⟩ : ∃ n, c.text.length + 1 = c.featureRows.length + (c.simulationRows.length + (n + 1) + 1 + 1) + 1 := by
    have bound := c.length_text
    exact ⟨c.text.length - (c.featureRows.length + c.simulationRows.length + 3), by omega⟩
  have read : Toml.lines (c.text.length + 1) .start c.text =
      some ⟨[("features", .table .header features)], .table [] "simulate", simulation⟩ := by
    rw [fuel, text_eq, Toml.lines_step rfl (opened _), Toml.lines_entries c.featureRows_stand distinct fun _ _ => rfl]
    simp only [List.nil_append]
    rw [Toml.lines_step rfl (blank _ _), Toml.lines_step rfl (turned features _)]
    rw [Toml.lines_entries (c.simulationRows_stand h) apart fun _ _ => rfl]
    rfl
  have unmarked : Toml.skipMark c.text = c.text := by
    rw [text_eq]
    rfl
  simp only [Toml.parse?, unmarked, read, Option.bind_eq_bind, Option.bind_some]
  rfl

/-! ## Reading it -/

/-- The configuration as it is read from its text. -/
def reread : Config := ⟨Table.ofList c.features.rows, c.items, c.mode⟩

theorem get?_reread (key : String) : c.reread.features.get? key = c.features.get? key := by
  rw [reread, Table.get?_ofList c.features.nodup_rows, Features.find_rows]

theorem features?_rows (rows : List (String × Bool)) :
    (rows.map fun row => (row.1, Value.boolean row.2)).mapM feature? = some rows := by
  induction rows with
  | nil => rfl
  | cons row rows ih => simp only [List.map_cons, List.mapM_cons, feature?, ih, Option.bind_eq_bind, Option.bind_some, Option.pure_def]

theorem modeOfText?_modeText (mode : DeleteMode) : modeOfText? (modeText mode) = some mode := by
  cases mode <;> rfl

theorem ofEntries?_tables : ofEntries? c.tables = some c.reread := by
  have features : features? (.table .header (c.featureRows.map fun x => (x.1, x.2.2))) = some (Table.ofList c.features.rows) := by
    have rows := features?_rows c.features.rows
    simp only [features?, featureRows, List.map_map, Function.comp_def, rows, Option.map_some]
  have simulation : simulate? (.table .header (c.simulationRows.map fun x => (x.1, x.2.2))) = some (c.items, c.mode) := by
    have mode : mode? (.string (modeText c.mode)) = some c.mode := modeOfText?_modeText c.mode
    have items : items? (.integer c.items) = some c.items := rfl
    show simulation? (some (.integer c.items)) (some (.string (modeText c.mode))) = _
    simp only [simulation?, orDefault, items, mode, Option.bind_eq_bind, Option.bind_some, Option.pure_def]
  have first : c.tables.lookup "features" = some (.table .header (c.featureRows.map fun x => (x.1, x.2.2))) := rfl
  have second : c.tables.lookup "simulate" = some (.table .header (c.simulationRows.map fun x => (x.1, x.2.2))) := rfl
  simp only [ofEntries?, first, second, orDefault, features, simulation, Option.bind_eq_bind, Option.bind_some, Option.pure_def]
  rfl

theorem parse?_text (h : c.items < 2 ^ 63) : parse? (String.ofList c.text) = some c.reread := by
  rw [parse?, String.toList_ofList, c.parse?_tables h, Option.bind_some, ofEntries?_tables]

end Config

/-- A configuration can be written exactly when its number of items is one of 63 bits. Whatever its
    features are, reading the text succeeds, and gives back the same features, number and mode. So
    does loading a file with that text, whether it is named or the default file of a directory, and
    then each key of the table is answered as the table says, and any other key with nothing. -/
theorem config_round_trip (c : Config) :
    ((∃ s, c.write = .ok s) ↔ c.items ≤ 2 ^ 63 - 1) ∧
    ∀ s, c.write = .ok s → ∃ c', Config.parse? s = some c' ∧
      c'.features.rows = c.features.rows ∧ (∀ key, c'.features.get? key = c.features.get? key) ∧
      c'.items = c.items ∧ c'.mode = c.mode ∧
      (∀ look path dir, look path = .text s → Config.load look (some path) dir = .ok c') ∧
      (∀ look dir, look (Config.join dir Config.fileName) = .text s → Config.load look none dir = .ok c') ∧
      ∀ key, c'.features.answer (.get key) = (.found (c.features.get? key), [], c'.features) := by
  have written : c.write = if c.items ≤ 2 ^ 63 - 1 then .ok (String.ofList c.text) else .error .notWritable := by
    have bound : Config.maxItems = 2 ^ 63 - 1 := rfl
    rw [Config.write, Config.toText?, bound]
    split_ifs <;> rfl
  constructor
  · rw [written]
    split_ifs with h
    · exact ⟨fun _ => h, fun _ => ⟨_, rfl⟩⟩
    · refine ⟨?_, fun h' => absurd h' h⟩
      rintro ⟨s, ⟨⟩⟩
  · intro s hs
    rw [written] at hs
    split_ifs at hs with h
    obtain rfl := Except.ok.inj hs
    have read : Config.parse? (String.ofList c.text) = some c.reread := c.parse?_text (by omega)
    have file {look : String → Found} {path : String} (hl : look path = .text (String.ofList c.text)) :
        Config.ofFile look path = .ok c.reread := by
      simp only [Config.ofFile, hl, read]
    refine ⟨c.reread, read, Features.rows_eq c.get?_reread, c.get?_reread, rfl, rfl, ?_, ?_, ?_⟩
    · intro look path dir hl
      exact file hl
    · intro look dir hl
      have there : look (Config.join dir Config.fileName) ≠ .nothing := by
        rw [hl]
        exact nofun
      rw [Config.load]
      simp only [there, if_false]
      exact file hl
    · intro key
      rw [Features.answer, c.get?_reread]

/-- A configuration with keys that have to be quoted, and the greatest number. -/
def awkward : Config := ⟨Table.ofList [("", true), ("a.\"b\\\n\x01", false)], 2 ^ 63 - 1, .deferred⟩

theorem awkward_keys_are_read_back : ∃ s c', awkward.write = .ok s ∧ Config.parse? s = some c' ∧
    c'.features.get? "" = some true ∧ c'.features.get? "a.\"b\\\n\x01" = some false ∧ c'.features.get? "a" = none ∧
    c'.items = 2 ^ 63 - 1 ∧ c'.mode = .deferred := by
  obtain ⟨writable, read⟩ := config_round_trip awkward
  obtain ⟨s, hs⟩ := writable.mpr (Nat.le_refl _)
  obtain ⟨c', hc, -, keys, items, mode, -⟩ := read s hs
  exact ⟨s, c', hs, hc, (keys _).trans (by decide), (keys _).trans (by decide), (keys _).trans (by decide), items, mode⟩

end HandleBridge
