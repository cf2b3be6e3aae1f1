import Mathlib.Data.List.Basic
import Mathlib.Data.Nat.Basic
import Mathlib.Logic.Function.Basic

/-!
Numbers in decimal and in lower-case hexadecimal without leading zeros, as
lists of characters, and the parser for unsigned sixteen-bit numbers. A text
determines its number, and no separator occurs among the digits.
-/
namespace AetherLens.NumberText

def decimal (n : ℕ) : List Char := Nat.toDigits 10 n

def hex (n : ℕ) : List Char := Nat.toDigits 16 n

/-- An unsigned sixteen-bit number: an optional plus sign and at least one digit. -/
def parseU16 (text : List Char) : Option ℕ :=
  let digits := if text.head? = some '+' then text.tail else text
  if digits ≠ [] ∧ digits.all Char.isDigit ∧ Nat.ofDigitChars 10 digits 0 < 65536
  then some (Nat.ofDigitChars 10 digits 0) else none

theorem toDigits_append_digit {b m k : ℕ} (hb : 1 < b) (hk : k < b) (hm : 0 < m) :
    Nat.toDigits b (b * m + k) = Nat.toDigits b m ++ [Nat.digitChar k] := by
  rw [← Nat.toDigits_append_toDigits hb hm hk, Nat.toDigits_of_lt_base hk]

theorem mem_toDigits {b n : ℕ} (hb : 1 < b) {c : Char} (hc : c ∈ Nat.toDigits b n) :
    ∃ d < b, c = Nat.digitChar d := by
  induction n using Nat.base_induction b hb with
  | single m hm =>
    rw [Nat.toDigits_of_lt_base hm] at hc
    exact ⟨m, hm, List.mem_singleton.mp hc⟩
  | digit m k hk hm ih =>
    rw [toDigits_append_digit hb hk hm] at hc
    rcases List.mem_append.mp hc with hold | hnew
    · exact ih hold
    · exact ⟨k, hk, List.mem_singleton.mp hnew⟩

/-- The punctuation of addresses and of signed numbers. -/
def IsSeparator (c : Char) : Prop := c = ':' ∨ c = '.' ∨ c = '+' ∨ c = '[' ∨ c = ']'

theorem digitChar_ne_separator {d : ℕ} (hd : d < 16) (c : Char) (hc : IsSeparator c) :
    Nat.digitChar d ≠ c := by
  have hall : ∀ d : Fin 16, Nat.digitChar d.val ≠ ':' ∧ Nat.digitChar d.val ≠ '.' ∧
      Nat.digitChar d.val ≠ '+' ∧ Nat.digitChar d.val ≠ '[' ∧ Nat.digitChar d.val ≠ ']' := by
    decide
  have h := hall ⟨d, hd⟩
  rcases hc with rfl | rfl | rfl | rfl | rfl
  · exact h.1
  · exact h.2.1
  · exact h.2.2.1
  · exact h.2.2.2.1
  · exact h.2.2.2.2

theorem separator_notMem_toDigits {b : ℕ} (hb : 1 < b) (hb' : b ≤ 16) (n : ℕ) {c : Char}
    (hc : IsSeparator c) : c ∉ Nat.toDigits b n := by
  intro hmem
  obtain ⟨d, hd, heq⟩ := mem_toDigits hb hmem
  exact digitChar_ne_separator (by omega) c hc heq.symm

theorem separator_notMem_decimal (n : ℕ) {c : Char} (hc : IsSeparator c) : c ∉ decimal n :=
  separator_notMem_toDigits (by omega) (by omega) n hc

theorem separator_notMem_hex (n : ℕ) {c : Char} (hc : IsSeparator c) : c ∉ hex n :=
  separator_notMem_toDigits (by omega) (by omega) n hc

theorem decimal_ne_nil (n : ℕ) : decimal n ≠ [] := Nat.toDigits_ne_nil

theorem hex_ne_nil (n : ℕ) : hex n ≠ [] := Nat.toDigits_ne_nil

theorem decimal_injective : Function.Injective decimal := by
  intro m n h
  have hvalue := congrArg (fun text => Nat.ofDigitChars 10 text 0) h
  simpa only [decimal, Nat.ofDigitChars_ten_toDigits] using hvalue

/-- The value of a hexadecimal digit. -/
def hexDigit (c : Char) : ℕ := if c.isDigit then c.toNat - 48 else c.toNat - 87

theorem hexDigit_digitChar {d : ℕ} (hd : d < 16) : hexDigit (Nat.digitChar d) = d := by
  have hall : ∀ d : Fin 16, hexDigit (Nat.digitChar d.val) = d.val := by decide
  exact hall ⟨d, hd⟩

def ofHex (text : List Char) : ℕ := text.foldl (fun value c => 16 * value + hexDigit c) 0

theorem ofHex_hex (n : ℕ) : ofHex (hex n) = n := by
  induction n using Nat.base_induction 16 (by omega) with
  | single m hm =>
    rw [hex, Nat.toDigits_of_lt_base hm]
    simp [ofHex, hexDigit_digitChar hm]
  | digit m k hk hm ih =>
    rw [hex, toDigits_append_digit (by omega) hk hm]
    unfold ofHex at ih ⊢
    rw [List.foldl_append]
    change 16 * (hex m).foldl (fun value c => 16 * value + hexDigit c) 0 +
      hexDigit (Nat.digitChar k) = 16 * m + k
    rw [ih, hexDigit_digitChar hk]

theorem hex_injective : Function.Injective hex := by
  intro m n h
  have hvalue := congrArg ofHex h
  rwa [ofHex_hex, ofHex_hex] at hvalue

theorem head?_hex (n : ℕ) : (hex n).head? ≠ some '+' := by
  intro h
  have hmem : '+' ∈ hex n := List.mem_of_head? h
  exact separator_notMem_hex n (by simp [IsSeparator]) hmem

theorem head?_decimal (n : ℕ) : (decimal n).head? ≠ some '+' := by
  intro h
  have hmem : '+' ∈ decimal n := List.mem_of_head? h
  exact separator_notMem_decimal n (by simp [IsSeparator]) hmem

theorem parseU16_decimal {n : ℕ} (hn : n < 65536) : parseU16 (decimal n) = some n := by
  have hdigits : (decimal n).all Char.isDigit := by
    rw [List.all_eq_true]
    intro c hc
    exact Nat.isDigit_of_mem_toDigits (by omega) (by omega) hc
  have hvalue : Nat.ofDigitChars 10 (decimal n) 0 = n := Nat.ofDigitChars_ten_toDigits
  unfold parseU16
  simp only [head?_decimal, ite_false, hvalue]
  simp [hdigits, hn, decimal_ne_nil]

/-- A hexadecimal text made of decimal digits only is the decimal text of the
number that those digits spell. -/
theorem hex_eq_decimal {n : ℕ} (h : (hex n).all Char.isDigit) :
    hex n = decimal (Nat.ofDigitChars 10 (hex n) 0) := by
  induction n using Nat.base_induction 16 (by omega) with
  | single m hm =>
    rw [hex, Nat.toDigits_of_lt_base hm] at h ⊢
    have hm' : m < 10 := by
      simpa [Nat.isDigit_digitChar] using h
    rw [Nat.ofDigitChars_cons_digitChar_of_lt_ten hm', Nat.ofDigitChars_nil, Nat.mul_zero,
      Nat.zero_add, decimal, Nat.toDigits_of_lt_base hm']
  | digit m k hk hm ih =>
    rw [hex, toDigits_append_digit (by omega) hk hm] at h ⊢
    rw [List.all_append, Bool.and_eq_true] at h
    have hk' : k < 10 := by
      simpa [Nat.isDigit_digitChar] using h.2
    have htext := ih h.1
    have hpos : 0 < Nat.ofDigitChars 10 (hex m) 0 := by
      rcases Nat.eq_zero_or_pos (Nat.ofDigitChars 10 (hex m) 0) with hzero | hpos
      · rw [hzero] at htext
        have hm0 : m = 0 := hex_injective htext
        omega
      · exact hpos
    change hex m ++ [Nat.digitChar k] =
      decimal (Nat.ofDigitChars 10 (hex m ++ [Nat.digitChar k]) 0)
    rw [Nat.ofDigitChars_append, Nat.ofDigitChars_cons_digitChar_of_lt_ten hk',
      Nat.ofDigitChars_nil, decimal, toDigits_append_digit (by omega) hk' hpos]
    exact congrArg (· ++ [Nat.digitChar k]) htext

theorem parseU16_hex {n p : ℕ} (h : parseU16 (hex n) = some p) : hex n = decimal p := by
  unfold parseU16 at h
  simp only [head?_hex, ite_false] at h
  split at h
  next hdigits =>
    cases h
    exact hex_eq_decimal hdigits.2.1
  next => cases h

/-- A text with a dot is no number. -/
theorem parseU16_of_dot {text : List Char} (h : '.' ∈ text) : parseU16 text = none := by
  unfold parseU16
  have hmem : '.' ∈ if text.head? = some '+' then text.tail else text := by
    cases text with
    | nil => cases h
    | cons c rest =>
      by_cases hc : c = '+'
      · subst hc
        simpa using h
      · simpa [hc] using h
  have hnot : ¬ (if text.head? = some '+' then text.tail else text).all Char.isDigit := by
    intro hall
    have hdot := List.all_eq_true.mp hall '.' hmem
    cases hdot
  simp only [hnot, false_and, and_false, ite_false, Bool.false_eq_true]

theorem notMem_intercalate {separator c : Char} {texts : List (List Char)}
    (hc : c ≠ separator) (h : ∀ text ∈ texts, c ∉ text) :
    c ∉ [separator].intercalate texts := by
  induction texts with
  | nil => simp
  | cons text rest ih =>
    have hrest := ih fun t ht => h t (List.mem_cons_of_mem _ ht)
    have htext := h text (List.mem_cons_self ..)
    cases rest with
    | nil => simpa using htext
    | cons text' rest =>
      rw [List.intercalate_cons_cons]
      simp [htext, hc, hrest]

/-- The last of the parts into which a separator splits a text. -/
def lastPart (separator : Char) (text : List Char) : List Char :=
  (text.splitOn separator).getLast (List.splitOn_ne_nil separator text)

theorem lastPart_eq {separator : Char} {text last : List Char} {before : List (List Char)}
    (h : text.splitOn separator = before ++ [last]) : lastPart separator text = last := by
  simp [lastPart, h]

theorem lastPart_of_notMem {separator : Char} {text : List Char} (h : separator ∉ text) :
    lastPart separator text = text := by
  simp [lastPart, List.splitOn_eq_singleton h]

theorem lastPart_append_cons (separator : Char) (before after : List Char) :
    lastPart separator (before ++ separator :: after) = lastPart separator after := by
  unfold lastPart
  simp only [List.splitOn_append_cons_self]
  exact List.getLast_append_of_ne_nil _ (List.splitOn_ne_nil separator after)

/-- Texts that end in a part without the separator agree in that part. -/
theorem eq_of_append_cons_eq {separator : Char} {before before' after after' : List Char}
    (h : before ++ separator :: after = before' ++ separator :: after')
    (hafter : separator ∉ after) (hafter' : separator ∉ after') :
    before = before' ∧ after = after' := by
  have hlast := congrArg (lastPart separator) h
  rw [lastPart_append_cons, lastPart_append_cons, lastPart_of_notMem hafter,
    lastPart_of_notMem hafter'] at hlast
  subst hlast
  exact ⟨List.append_cancel_right h, rfl⟩

/-- Texts that start with a part without the separator agree in that part. -/
theorem eq_of_first_parts {separator : Char} {before before' after after' : List Char}
    (h : before ++ separator :: after = before' ++ separator :: after')
    (hbefore : separator ∉ before) (hbefore' : separator ∉ before') :
    before = before' ∧ after = after' := by
  have hreverse : after.reverse ++ separator :: before.reverse =
      after'.reverse ++ separator :: before'.reverse := by
    simpa using congrArg List.reverse h
  have hparts := eq_of_append_cons_eq hreverse (by simpa using hbefore) (by simpa using hbefore')
  exact ⟨List.reverse_injective hparts.2, List.reverse_injective hparts.1⟩

end AetherLens.NumberText
