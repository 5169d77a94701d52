import NativeUi.Json.Parser

/-!
# Digits

Hexadecimal digits of small numbers, as escapes spell them, and decimal digits of any number; both
with their values.
-/
namespace NativeUi.Text

theorem hexValue?_digitChar : ∀ d < 16, Json.hexValue? d.digitChar = some d := by decide

theorem hex_of_lt {n : Nat} (h : n < 256) :
    hex n = if n < 16 then [n.digitChar] else [(n / 16).digitChar, (n % 16).digitChar] := by
  unfold hex
  split
  · next hn => exact Nat.toDigits_of_lt_base hn
  · next hn =>
    have hq : n / 16 < 16 := by omega
    rw [Nat.toDigits_of_base_le (by decide) (by omega), Nat.toDigits_of_lt_base hq]
    rfl

theorem hex4_of_lt {n : Nat} (h : n < 256) :
    hex4 n = ['0', '0', (n / 16).digitChar, (n % 16).digitChar] := by
  unfold hex4
  rw [hex_of_lt h]
  split
  · next hn =>
    have hq : n / 16 = 0 := by omega
    have hr : n % 16 = n := by omega
    rw [hq, hr]
    rfl
  · rfl

theorem hexUnit?_hex4 {n : Nat} (h : n < 256) :
    Json.hexUnit? '0' '0' (n / 16).digitChar (n % 16).digitChar = some n := by
  have hq := hexValue?_digitChar (n / 16) (by omega)
  have hr := hexValue?_digitChar (n % 16) (by omega)
  have h0 : Json.hexValue? '0' = some 0 := by decide
  simp only [Json.hexUnit?, h0, hq, hr, Option.bind_eq_bind, Option.bind_some]
  congr 1
  omega

/-! ### Decimal digits -/

theorem decimalChars_ne_nil (n : Nat) : decimalChars n ≠ [] := Nat.toDigits_ne_nil

theorem isDigit_of_mem_decimalChars {n : Nat} {c : Char} (h : c ∈ decimalChars n) :
    c.isDigit = true :=
  Nat.isDigit_of_mem_toDigits (by decide) (by decide) h

@[simp] theorem digitsValue_decimalChars (n : Nat) : digitsValue (decimalChars n) = n :=
  Nat.ofDigitChars_toDigits (by decide) (by decide)

theorem head_decimalChars (n : Nat) : ∃ c cs, decimalChars n = c :: cs ∧ (c = '0' → n = 0) := by
  induction n using Nat.strongRecOn with
  | ind n ih =>
    by_cases hn : n < 10
    · refine ⟨n.digitChar, [], Nat.toDigits_of_lt_base hn, ?_⟩
      have small : ∀ d < 10, d.digitChar = '0' → d = 0 := by decide
      exact small n hn
    · obtain ⟨c, cs, hc, h0⟩ := ih (n / 10) (by omega)
      have hd := Nat.toDigits_of_base_le (b := 10) (by decide) (Nat.le_of_not_lt hn)
      rw [decimalChars] at hc
      refine ⟨c, cs ++ [(n % 10).digitChar], ?_, fun h => ?_⟩
      · rw [decimalChars, hd, hc, List.cons_append]
      · have := h0 h
        omega

theorem length_decimalChars_mul_ten {n : Nat} (h : n ≠ 0) :
    (decimalChars (n * 10)).length = (decimalChars n).length + 1 := by
  have hd := Nat.toDigits_append_toDigits (b := 10) (n := n) (d := 0) (by decide) (by omega)
    (by decide)
  rw [Nat.add_zero, Nat.mul_comm] at hd
  simp [decimalChars, ← hd]

theorem foldl_digitValue (cs : List Char) (n : Nat) :
    cs.foldl (fun n c => 10 * n + digitValue c) n = n * 10 ^ cs.length + digitsValue cs := by
  induction cs generalizing n with
  | nil => simp [digitsValue]
  | cons c cs ih =>
    have hc : digitsValue (c :: cs) = (10 * 0 + digitValue c) * 10 ^ cs.length + digitsValue cs :=
      ih _
    rw [List.foldl_cons, ih, hc, List.length_cons, Nat.pow_succ]
    grind

theorem digitsValue_append (as bs : List Char) :
    digitsValue (as ++ bs) = digitsValue as * 10 ^ bs.length + digitsValue bs := by
  have h := foldl_digitValue bs (digitsValue as)
  rwa [digitsValue, ← List.foldl_append] at h

theorem digitsValue_replicate_zero (k : Nat) : digitsValue (List.replicate k '0') = 0 := by
  induction k with
  | zero => rfl
  | succ k ih =>
    have h0 : digitsValue ['0'] = 0 := rfl
    rw [List.replicate_succ, ← List.singleton_append, digitsValue_append, ih, h0, Nat.zero_mul]

end NativeUi.Text
