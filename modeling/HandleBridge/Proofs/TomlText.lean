/-
  HandleBridge.Proofs.TomlText — what is written as TOML is read back.

  A key, a truth value, a number of 63 bits and a string are each written so that the reader
  takes exactly them from the front of a text, and gives the rest. Strings are taken one
  character at a time (`basic?_escaped`): each is escaped so that the reader finds it again.
  - `key?_keyText`, `keys?_keyText`: a key, in whichever form it is written.
  - `Stands`: a text that stands for a value at the end of a line; `stands_boolean`,
    `stands_integer`, `stands_string` are the values that are written.
  - `lines_entries`: lines that give values to keys that are new and differ from each other add
    just these to the table that is open.
-/
import HandleBridge.Toml.Document
import Mathlib.Algebra.Ring.Nat
import Mathlib.Data.List.Basic

namespace HandleBridge.Toml

/-! ## Characters -/

theorem skipBlanks_cons {c : Char} (h : isBlank c = false) (r : List Char) : skipBlanks (c :: r) = c :: r := by
  simp only [skipBlanks, List.dropWhile_cons, h, Bool.false_eq_true, if_false]

/-- The characters that have no short escape and do not stand for themselves are the first ones. -/
theorem toNat_lt_of_not_plain {c : Char} (h : isPlain c = false) : c.toNat < 128 := by
  simp only [isPlain, Bool.or_eq_false_iff, Bool.and_eq_false_iff, decide_eq_false_iff_not, bne_eq_false_iff_eq] at h
  omega

theorem value?_upper4 : ∀ n < 128, Hex.value? (Hex.upper4 n) = some n := by decide

theorem ofCodePoint?_toNat (c : Char) : ofCodePoint? c.toNat = some c := by
  have valid : c.toNat.isValidChar := c.valid
  have same := c.ofNat_toNat
  rw [Char.ofNat, dif_pos valid] at same
  rw [ofCodePoint?, dif_pos valid, same]

theorem codePoint?_upper4 {c : Char} (h : c.toNat < 128) (r : List Char) :
    codePoint? 4 (Hex.upper4 c.toNat ++ r) = some (c, r) := by
  have taken : (Hex.upper4 c.toNat ++ r).take 4 = Hex.upper4 c.toNat := rfl
  have dropped : (Hex.upper4 c.toNat ++ r).drop 4 = r := rfl
  simp only [codePoint?, taken, dropped, value?_upper4 _ h, Option.bind_some, ofCodePoint?_toNat, Option.map_some]
  rfl

/-! ## Strings -/

/-- Whatever the character, the reader finds it again. -/
theorem basic?_escaped (c : Char) (r : List Char) : basic? (escaped c ++ r) = Read.cons c (basic? r) := by
  have byEscape (cs : List Char) (he : escape? (cs ++ r) = some (c, r)) : basic? ('\\' :: cs ++ r) = Read.cons c (basic? r) := by
    rw [List.cons_append, basic?]
    split
    · rename_i h
      rw [he] at h
      cases h
      rfl
    · rename_i h
      rw [he] at h
      cases h
  unfold escaped
  split_ifs with h1 h2 h3 h4 h5 h6 h7 h8
  case pos | pos | pos | pos | pos | pos | pos =>
    subst c
    exact byEscape [_] rfl
  · show basic? (c :: r) = _
    rw [basic?, if_pos h8]
    · exact h6
    · exact h7
  · exact byEscape _ (codePoint?_upper4 (toNat_lt_of_not_plain (by simpa using h8)) r)

theorem basic?_flatMap (cs r : List Char) : basic? (cs.flatMap escaped ++ '"' :: r) = some (cs, r) := by
  induction cs with
  | nil => rw [List.flatMap_nil, List.nil_append, basic?]
  | cons c cs ih => rw [List.flatMap_cons, List.append_assoc, basic?_escaped, ih, Read.cons]

theorem literal?_plain {cs : List Char} (h : ∀ c ∈ cs, isPlain c = true ∧ c ≠ '\'') (r : List Char) :
    literal? (cs ++ '\'' :: r) = some (cs, r) := by
  induction cs with
  | nil => rfl
  | cons c cs ih =>
    obtain ⟨plain, quote⟩ := h c (List.mem_cons_self ..)
    rw [List.cons_append, literal?, if_pos plain, ih fun c hc => h c (List.mem_cons_of_mem _ hc), Read.cons]
    exact quote

/-! ## Keys -/

/-- A key starts with a character of a bare key, or with a quote. -/
theorem keyText_cons (k : List Char) : ∃ c cs, keyText k = c :: cs ∧ (isBare c = true ∨ c = '"' ∨ c = '\'') := by
  have quoted : ∃ c cs, basicOf k = c :: cs ∧ (isBare c = true ∨ c = '"' ∨ c = '\'') := ⟨_, _, rfl, Or.inr (Or.inl rfl)⟩
  unfold keyText
  split_ifs with h1 h2 h3
  · simp only [isBareKey, Bool.and_eq_true, Bool.not_eq_true', List.isEmpty_eq_false_iff, List.all_eq_true] at h1
    obtain ⟨c, cs, rfl⟩ := List.exists_cons_of_ne_nil h1.1
    exact ⟨c, cs, rfl, Or.inl (h1.2 c (List.mem_cons_self ..))⟩
  · exact quoted
  · exact ⟨_, _, rfl, Or.inr (Or.inr rfl)⟩
  · exact quoted

/-- What follows a key is no part of it if it does not start with a character of a bare key. -/
theorem key?_keyText (k : List Char) {c : Char} (hc : isBare c = false) (r : List Char) :
    key? (keyText k ++ c :: r) = some (String.ofList k, c :: r) := by
  have quoted : key? (basicOf k ++ c :: r) = some (String.ofList k, c :: r) := by
    have read := basic?_flatMap k (c :: r)
    simp only [basicOf, List.cons_append, List.append_assoc, List.nil_append, key?, read, Option.map_some]
  unfold keyText
  split_ifs with h1 h2 h3
  · simp only [isBareKey, Bool.and_eq_true, Bool.not_eq_true', List.all_eq_true] at h1
    obtain ⟨nonempty, bare⟩ := h1
    have taken : (k ++ c :: r).takeWhile isBare = k := by
      rw [List.takeWhile_append_of_pos bare, List.takeWhile_cons, if_neg (by simp [hc]), List.append_nil]
    have dropped : (k ++ c :: r).dropWhile isBare = c :: r := by
      rw [List.dropWhile_append_of_pos bare, List.dropWhile_cons, if_neg (by simp [hc])]
    have unquoted {q : Char} (hq : isBare q = false) (l : List Char) (e : k ++ c :: r = q :: l) : False := by
      rw [e, List.takeWhile_cons, if_neg (by simp [hq])] at taken
      simp [← taken] at nonempty
    rw [key?]
    · simp only [taken, dropped, nonempty, Bool.false_eq_true, if_false]
    · exact unquoted rfl
    · exact unquoted rfl
  · exact quoted
  · have plain : ∀ c ∈ k, isPlain c = true ∧ c ≠ '\'' := by
      simpa only [List.all_eq_true, Bool.and_eq_true, bne_iff_ne] using h3
    have read := literal?_plain plain (c :: r)
    simp only [literalOf, List.cons_append, List.append_assoc, List.nil_append, key?, read, Option.map_some]
  · exact quoted

theorem skipBlanks_keyText (k r : List Char) : skipBlanks (keyText k ++ r) = keyText k ++ r := by
  obtain ⟨c, cs, hk, hc⟩ := keyText_cons k
  have notBlank : isBlank c = false := by
    rcases hc with bare | rfl | rfl
    · rw [← Bool.not_eq_true]
      intro blank
      simp only [isBlank, Bool.or_eq_true, decide_eq_true_eq] at blank
      rcases blank with rfl | rfl <;> cases bare
    · rfl
    · rfl
  rw [hk]
  exact skipBlanks_cons notBlank _

/-- A key is no dotted key, whatever is in it. -/
theorem keys?_keyText (k r : List Char) : keys? (keyText k ++ ' ' :: '=' :: r) = some ([String.ofList k], '=' :: r) := by
  have blanks : skipBlanks (' ' :: '=' :: r) = '=' :: r := rfl
  have one (n : Nat) : keysUpTo (n + 1) (keyText k ++ ' ' :: '=' :: r) = some ([String.ofList k], '=' :: r) := by
    simp only [keysUpTo, skipBlanks_keyText, key?_keyText k (c := ' ') rfl, blanks]
    rfl
  exact one (maxParts - 2)

/-! ## Values -/

/-- At the end of a line, and after blanks, the text is read as the value. -/
def Stands (cs : List Char) (v : Value) : Prop := ∀ r, value? (skipBlanks (cs ++ '\n' :: r)) = some (v, '\n' :: r)

/-- A value without brackets. -/
theorem value?_simple {c : Char} (h1 : c ≠ '[') (h2 : c ≠ '\x7b') (r : List Char) : value? (c :: r) = simple? (c :: r) := by
  have within (n : Nat) : valueWithin (n + 1) (c :: r) = simple? (c :: r) := by
    rw [valueWithin]
    · exact fun r e => nomatch e
    · exact fun r e => nomatch e
    · exact fun _ r _ e => h1 (List.cons.inj e).1
    · exact fun _ r _ e => h2 (List.cons.inj e).1
  exact within (maxDepth - 2)

/-- A word at the end of a line stands for the value of the word. -/
theorem stands_word {cs : List Char} {v : Value} (hw : ∀ c ∈ cs, isWordChar c = true) (hn : cs ≠ []) (hv : word? cs = some v) :
    Stands cs v := by
  intro r
  have taken : (cs ++ '\n' :: r).takeWhile isWordChar = cs := by
    rw [List.takeWhile_append_of_pos hw]
    exact List.append_nil cs
  have dropped : (cs ++ '\n' :: r).dropWhile isWordChar = '\n' :: r := List.dropWhile_append_of_pos hw
  obtain ⟨c, l, rfl⟩ := List.exists_cons_of_ne_nil hn
  have other {m : Char} (hm : isWordChar m = false) : c ≠ m := by
    rintro rfl
    rw [hw c (List.mem_cons_self ..)] at hm
    cases hm
  have notBlank : isBlank c = false := by
    simp only [isBlank, other (m := ' ') rfl, other (m := '\t') rfl, decide_false, Bool.or_self]
  rw [List.cons_append] at taken dropped ⊢
  rw [skipBlanks_cons notBlank, value?_simple (other rfl) (other rfl), simple?]
  · have alone : timeAfter? (c :: l) ('\n' :: r) = none := rfl
    simp only [taken, dropped, alone, hv, Option.map_some]
  · exact fun r e => other (m := '"') rfl (List.cons.inj e).1
  · exact fun r e => other (m := '\'') rfl (List.cons.inj e).1

theorem stands_boolean (b : Bool) : Stands (toString b).toList (.boolean b) := by
  intro r
  cases b <;> rfl

/-- No character is written so that it starts with a quote. -/
theorem escaped_cons (c : Char) : ∃ a as, escaped c = a :: as ∧ a ≠ '"' := by
  unfold escaped
  split_ifs with h1 h2 h3 h4 h5 h6
  all_goals first
    | exact ⟨_, _, rfl, by decide⟩
    | exact ⟨_, _, rfl, h6⟩

/-- So no string is taken for one of several lines. -/
theorem string?_basicOf (cs r : List Char) : string? (basicOf cs ++ '\n' :: r) = some (cs, '\n' :: r) := by
  have read := basic?_flatMap cs ('\n' :: r)
  rcases cs with _ | ⟨c, cs⟩
  · exact read
  · obtain ⟨a, as, ha, hq⟩ := escaped_cons c
    simp only [List.flatMap_cons, ha, List.cons_append, List.append_assoc] at read
    simp only [basicOf, List.flatMap_cons, ha, List.cons_append, List.append_assoc, List.nil_append]
    rw [string?]
    · exact read
    · rintro l e
      exact hq (List.cons.inj e).1

theorem stands_string (s : String) : Stands (basicOf s.toList) (.string s) := by
  intro r
  show value? ('"' :: _) = _
  rw [value?_simple (by decide) (by decide)]
  show (string? (basicOf s.toList ++ '\n' :: r)).map _ = _
  simp only [string?_basicOf, Option.map_some, String.ofList_toList]

theorem toNat_digit {c : Char} (h : c.isDigit = true) : '0'.toNat ≤ c.toNat ∧ c.toNat ≤ '9'.toNat := by
  simp only [Char.isDigit, Bool.and_eq_true, decide_eq_true_eq, ge_iff_le, UInt32.le_iff_toNat_le] at h
  exact h

theorem digitIn?_digit {c : Char} (h : c.isDigit = true) : digitIn? 10 c = some (c.toNat - '0'.toNat) := by
  obtain ⟨low, high⟩ := toNat_digit h
  have digit : Hex.digit? c = some (c.toNat - '0'.toNat) := if_pos ⟨UInt32.le_iff_toNat_le.mpr low, UInt32.le_iff_toNat_le.mpr high⟩
  have small : c.toNat - '0'.toNat < 10 := by
    have zero : '0'.toNat = 48 := rfl
    have nine : '9'.toNat = 57 := rfl
    omega
  simp only [digitIn?, digit, Option.filter_some, small, decide_true, if_true]

/-- Digits without underscores between them are read one by one. -/
theorem digits?_digits {cs : List Char} (hd : ∀ c ∈ cs, c.isDigit = true) (hn : cs ≠ []) :
    digits? 10 cs = some (cs.map fun c => c.toNat - '0'.toNat) := by
  induction cs with
  | nil => exact absurd rfl hn
  | cons c cs ih =>
    have first := digitIn?_digit (hd c (List.mem_cons_self ..))
    rcases cs with _ | ⟨d, cs⟩
    · simp only [digits?, first, Option.map_some, List.map_cons, List.map_nil]
    · have rest := ih (fun c hc => hd c (List.mem_cons_of_mem _ hc)) (by simp)
      rw [digits?]
      · simp only [first, rest, Option.bind_eq_bind, Option.bind_some, List.map_cons]
        rfl
      · intro e
        cases e
      · rintro r e
        obtain ⟨rfl, -⟩ := List.cons.inj e
        exact absurd (hd '_' (by simp)) (by decide)

theorem ofDigits_digits (cs : List Char) : ofDigits 10 (cs.map fun c => c.toNat - '0'.toNat) = Nat.ofDigitChars 10 cs 0 := by
  simp only [ofDigits, List.foldl_map, Nat.ofDigitChars, Nat.mul_comm]

section Digits

variable {cs : List Char} (hd : ∀ c ∈ cs, c.isDigit = true)

include hd

theorem not_mem_digits {c : Char} (hc : c.isDigit = false) : c ∉ cs := by
  intro hm
  rw [hd c hm] at hc
  cases hc

theorem isDate_digits : isDate cs = false := by
  unfold isDate
  split
  · exact absurd (by simp) (not_mem_digits hd (c := '-') rfl)
  · rfl

theorem isTime_digits : isTime cs = false := by
  unfold isTime
  split
  · exact absurd (by simp) (not_mem_digits hd (c := ':') rfl)
  · rfl

theorem isDateTime_digits : isDateTime cs = false := by
  unfold isDateTime
  split
  · rename_i t time h
    have digit : t.isDigit = true := hd t (List.mem_of_mem_drop (h ▸ List.mem_cons_self ..))
    have mark {m : Char} (hm : m.isDigit = false) : t ≠ m := by
      rintro rfl
      rw [digit] at hm
      cases hm
    simp only [mark (m := 'T') rfl, mark (m := 't') rfl, decide_false, Bool.or_self, Bool.false_and]
  · rfl

/-- A numeral is read as its number, if that is one of 64 bits. -/
theorem integer?_digits (hn : cs ≠ []) (lead : cs = ['0'] ∨ cs.head? ≠ some '0')
    (small : Nat.ofDigitChars 10 cs 0 < 2 ^ 63) : integer? cs = some (Nat.ofDigitChars 10 cs 0 : Int) := by
  have whole : wholeDigits? cs = some (cs.map fun c => c.toNat - '0'.toNat) := by
    rw [wholeDigits?, digits?_digits hd hn, Option.filter_some, if_pos]
    rw [Bool.or_eq_true, decide_eq_true_eq]
    refine lead.imp_right fun first => ?_
    obtain ⟨c, l, rfl⟩ := List.exists_cons_of_ne_nil hn
    obtain ⟨low, -⟩ := toNat_digit (hd c (List.mem_cons_self ..))
    have other : c ≠ '0' := by
      rintro rfl
      exact first rfl
    have apart : c.toNat ≠ '0'.toNat := fun e => other (Char.toNat_inj.mp e)
    have nonzero : c.toNat - '0'.toNat ≠ 0 := by omega
    simpa using nonzero
  have unsigned : sign cs = (false, cs) := by
    unfold sign
    split
    · exact absurd (by simp) (not_mem_digits hd (c := '-') rfl)
    · exact absurd (by simp) (not_mem_digits hd (c := '+') rfl)
    · rfl
  have fit : fits (Nat.ofDigitChars 10 cs 0 : Int) = true := by
    have least : Int64.minValue.toInt = -2 ^ 63 := rfl
    have greatest : Int64.maxValue.toInt = 2 ^ 63 - 1 := rfl
    simp only [fits, least, greatest, decide_eq_true_eq]
    omega
  have base {m : Char} (hm : m.isDigit = false) (l : List Char) : cs ≠ '0' :: m :: l := by
    rintro rfl
    exact not_mem_digits hd hm (by simp)
  simp only [integer?]
  split
  · exact absurd rfl (base (m := 'x') rfl _)
  · exact absurd rfl (base (m := 'o') rfl _)
  · exact absurd rfl (base (m := 'b') rfl _)
  · simp only [unsigned, whole, Option.map_some, signed, Bool.false_eq_true, if_false, ofDigits_digits, Option.filter_some, fit,
      if_true]

end Digits

/-- Only the zero is written with a leading zero. -/
theorem head?_toDigits {n : Nat} (hn : n ≠ 0) : (Nat.toDigits 10 n).head? ≠ some '0' := by
  induction n using Nat.strongRecOn with
  | ind n ih =>
    by_cases small : n < 10
    · rw [Nat.toDigits_of_lt_base small, List.head?_cons]
      simpa using hn
    · rw [Nat.toDigits_of_base_le (by decide) (Nat.not_lt.mp small), List.head?_append_of_ne_nil _ Nat.toDigits_ne_nil]
      exact ih (n / 10) (by omega) (by omega)

theorem stands_integer {n : Nat} (small : n < 2 ^ 63) : Stands (toString n).toList (.integer n) := by
  have written : (toString n).toList = Nat.toDigits 10 n := Nat.toList_repr
  have digit : ∀ c ∈ Nat.toDigits 10 n, c.isDigit = true := fun c hc => Nat.isDigit_of_mem_toDigits (by decide) (by decide) hc
  have nonempty : Nat.toDigits 10 n ≠ [] := Nat.toDigits_ne_nil
  have number : Nat.ofDigitChars 10 (Nat.toDigits 10 n) 0 = n := Nat.ofDigitChars_ten_toDigits
  have lead : Nat.toDigits 10 n = ['0'] ∨ (Nat.toDigits 10 n).head? ≠ some '0' := by
    by_cases hn : n = 0
    · exact Or.inl (hn ▸ Nat.toDigits_zero 10)
    · exact Or.inr (head?_toDigits hn)
  rw [written]
  generalize Nat.toDigits 10 n = cs at *
  have word : word? cs = some (.integer n) := by
    have read := integer?_digits digit nonempty lead (number.symm ▸ small)
    rw [number] at read
    rw [word?, if_neg, if_neg]
    · simp only [isDate_digits digit, isTime_digits digit, isDateTime_digits digit, read]
      rfl
    · rintro rfl
      exact not_mem_digits digit (c := 'f') rfl (by simp)
    · rintro rfl
      exact not_mem_digits digit (c := 't') rfl (by simp)
  refine stands_word (fun c hc => ?_) nonempty word
  simp only [isWordChar, Char.isAlphanum, digit c hc, Bool.or_true, Bool.true_or]

/-! ## Lines -/

/-- A line that gives a value, as it is written, to a key. -/
def entryText (k : String) (cs : List Char) : List Char := keyText k.toList ++ [' ', '=', ' '] ++ cs ++ ['\n']

theorem assignment?_entry {cs : List Char} {v : Value} (hv : Stands cs v) (k : String) (r : List Char) :
    assignment? value? (entryText k cs ++ r) = some (([], k, v), '\n' :: r) := by
  have blank : skipBlanks (' ' :: (cs ++ '\n' :: r)) = skipBlanks (cs ++ '\n' :: r) := rfl
  have read := keys?_keyText k.toList (' ' :: (cs ++ '\n' :: r))
  rw [String.ofList_toList] at read
  simp only [assignment?, entryText, List.append_assoc, List.cons_append, List.nil_append, read, splitLast?,
    List.getLast?_singleton, List.dropLast_singleton, Option.map_some, Option.bind_eq_bind, Option.bind_some, blank, hv r,
    Option.pure_def]

/-- It is read as an assignment of the open table. -/
theorem line?_entry {cs : List Char} {v : Value} (hv : Stands cs v) (s : Draft) (k : String) (r : List Char) :
    line? s (entryText k cs ++ r) = (s.assign [] k v).map (·, r) := by
  have read := assignment?_entry hv k r
  obtain ⟨c, l, hk, hc⟩ := keyText_cons k.toList
  have cons : entryText k cs ++ r = c :: (l ++ [' ', '=', ' '] ++ cs ++ ['\n'] ++ r) := by
    simp only [entryText, hk, List.cons_append]
  have other {m : Char} (hm : isBare m = false ∧ m ≠ '"' ∧ m ≠ '\'') : c ≠ m := by
    rintro rfl
    rcases hc with bare | rfl | rfl
    · rw [hm.1] at bare
      cases bare
    · exact hm.2.1 rfl
    · exact hm.2.2 rfl
  have noLineEnd : newline? (entryText k cs ++ r) = none := by
    rw [cons, newline?]
    · exact fun r e => other (m := '\n') (by decide) (List.cons.inj e).1
    · exact fun r e => other (m := '\r') (by decide) (List.cons.inj e).1
  have ends : endLine? ('\n' :: r) = some r := rfl
  rw [line?]
  · simp only [noLineEnd, read, ends, Option.bind_eq_bind, Option.bind_some]
    cases s.assign [] k v <;> rfl
  · exact fun r e => other (m := '#') (by decide) (List.cons.inj (cons.symm.trans e)).1
  · exact fun r e => other (m := '[') (by decide) (List.cons.inj (cons.symm.trans e)).1

theorem assign_fresh {s : Draft} {k : String} (fresh : s.current.lookup k = none) (v : Value) :
    s.assign [] k v = some { s with current := s.current ++ [(k, v)] } := by
  simp [Draft.assign, put?, update?, add, fresh]

/-- The next line is read, and adds to the draft. -/
theorem lines_step {s s' : Draft} {cs r : List Char} (hb : skipBlanks cs = cs) (hl : line? s cs = some (s', r)) (n : Nat) :
    lines (n + 1) s cs = lines n s' r := by
  rw [lines, hb]
  split
  · cases hl
  · rw [hl]
    rfl

theorem skipBlanks_entryText (k : String) (cs r : List Char) : skipBlanks (entryText k cs ++ r) = entryText k cs ++ r := by
  simp only [entryText, List.append_assoc, skipBlanks_keyText]

/-- Lines that give values to keys that are new, and differ from each other. -/
theorem lines_entries {rows : List (String × List Char × Value)} (stands : ∀ x ∈ rows, Stands x.2.1 x.2.2)
    (distinct : (rows.map (·.1)).Nodup) {s : Draft} (fresh : ∀ x ∈ rows, s.current.lookup x.1 = none) (n : Nat) (r : List Char) :
    lines (rows.length + n) s (rows.flatMap (fun x => entryText x.1 x.2.1) ++ r) =
      lines n { s with current := s.current ++ rows.map fun x => (x.1, x.2.2) } r := by
  induction rows generalizing s with
  | nil => simp
  | cons x rows ih =>
    obtain ⟨k, cs, v⟩ := x
    obtain ⟨apart, distinct⟩ := List.nodup_cons.mp distinct
    have next : ∀ x ∈ rows, (s.current ++ [(k, v)]).lookup x.1 = none := by
      intro x hx
      have other : x.1 ≠ k := by
        rintro rfl
        exact apart (List.mem_map_of_mem (f := (·.1)) hx)
      simp only [List.lookup_append, fresh x (List.mem_cons_of_mem _ hx), List.lookup_cons, beq_false_of_ne other, Option.none_or]
      rfl
    let rest := rows.flatMap (fun x => entryText x.1 x.2.1) ++ r
    have first : line? s (entryText k cs ++ rest) = some ({ s with current := s.current ++ [(k, v)] }, rest) := by
      rw [line?_entry (stands _ (List.mem_cons_self ..)), assign_fresh (fresh _ (List.mem_cons_self ..)), Option.map_some]
    rw [List.length_cons, Nat.add_right_comm, List.flatMap_cons, List.append_assoc,
      lines_step (skipBlanks_entryText k cs rest) first, ih (fun x hx => stands x (List.mem_cons_of_mem _ hx)) distinct next]
    simp only [List.map_cons, List.append_assoc, List.cons_append, List.nil_append]

/-- So there are no more lines than characters. -/
theorem length_entries (rows : List (String × List Char × Value)) :
    rows.length ≤ (rows.flatMap fun x => entryText x.1 x.2.1).length := by
  induction rows with
  | nil => exact Nat.le_refl _
  | cons x rows ih =>
    have line : 0 < (entryText x.1 x.2.1).length := List.length_pos_iff.mpr (by simp [entryText])
    simp only [List.flatMap_cons, List.length_append, List.length_cons]
    omega

end HandleBridge.Toml
