import NativeUi.Json.Numeral
import NativeUi.Proofs.Number.Rounding

/-!
# Reading numbers back

The text of a number is scanned up to its end, whatever follows that cannot be part of a numeral.
The number is the nearest one to the numeral, so that no two numbers have the same text. Integers
are also read back as they are; doubles are where the quick way to them is exact.
-/
namespace NativeUi

namespace Json

def endsNumeral : List Char → Bool
  | [] => true
  | c :: _ => !c.isDigit && c ≠ '.' && c ≠ 'e' && c ≠ 'E'

/-! ### Scanning -/

theorem spanDigits_append {ds rest : List Char} (hd : ∀ c ∈ ds, c.isDigit = true)
    (hr : ∀ c ∈ rest.head?, c.isDigit = false) : spanDigits (ds ++ rest) = (ds, rest) := by
  have ht : rest.takeWhile Char.isDigit = [] ∧ rest.dropWhile Char.isDigit = rest := by
    cases rest with
    | nil => exact ⟨rfl, rfl⟩
    | cons c rest =>
      have hc := hr c rfl
      simp [hc]
  rw [spanDigits, List.takeWhile_append_of_pos hd, List.dropWhile_append_of_pos hd, ht.1, ht.2,
    List.append_nil]

theorem isDigit_of_endsNumeral {rest : List Char} (h : endsNumeral rest = true) :
    ∀ c ∈ rest.head?, c.isDigit = false := by
  cases rest with
  | nil => simp
  | cons c rest =>
    simp only [endsNumeral, Bool.and_eq_true, Bool.not_eq_true'] at h
    simpa using h.1.1.1

/-! ### Numerals as they are written -/

namespace Numeral

def exponentChars : Option Int → List Char
  | none => []
  | some e => 'e' :: (if e < 0 then '-' else '+') :: Text.decimalChars e.natAbs

def chars (n : Numeral) : List Char :=
  n.whole ++ (if n.fraction.isEmpty then [] else '.' :: n.fraction) ++ exponentChars n.exponent

def text (n : Numeral) : List Char := (if n.negative then ['-'] else []) ++ n.chars

structure Spelt (n : Numeral) : Prop where
  whole : ∀ c ∈ n.whole, c.isDigit = true
  fraction : ∀ c ∈ n.fraction, c.isDigit = true
  leading : ∃ c cs, n.whole = c :: cs ∧ (c = '0' → cs = [])

end Numeral

theorem scanAfterFraction_chars (negative : Bool) (whole fraction : List Char) (e : Option Int)
    {rest : List Char} (hr : endsNumeral rest = true) :
    scanAfterFraction ⟨negative, whole, fraction, none⟩ (Numeral.exponentChars e ++ rest) =
      .ok (⟨negative, whole, fraction, e⟩, rest) := by
  cases e with
  | none =>
    rw [Numeral.exponentChars, List.nil_append]
    unfold scanAfterFraction
    split
    · simp [endsNumeral] at hr
    · simp [endsNumeral] at hr
    · rfl
  | some e =>
    have hs := spanDigits_append (fun c => Text.isDigit_of_mem_decimalChars (n := e.natAbs))
      (isDigit_of_endsNumeral hr)
    have hne : (Text.decimalChars e.natAbs).isEmpty = false := by
      simpa using Text.decimalChars_ne_nil e.natAbs
    rw [Numeral.exponentChars]
    split
    · have he : -(e.natAbs : Int) = e := by omega
      simp only [List.cons_append, scanAfterFraction, scanExponent, scanExponentDigits, hs, hne,
        Text.digitsValue_decimalChars, he, Bool.false_eq_true, if_false, if_true]
    · have he : (e.natAbs : Int) = e := by omega
      simp only [List.cons_append, scanAfterFraction, scanExponent, scanExponentDigits, hs, hne,
        Text.digitsValue_decimalChars, he, Bool.false_eq_true, if_false]

theorem isDigit_of_head?_exponentChars (e : Option Int) {rest : List Char}
    (hr : endsNumeral rest = true) :
    ∀ c ∈ (Numeral.exponentChars e ++ rest).head?, c.isDigit = false := by
  cases e with
  | none => exact isDigit_of_endsNumeral hr
  | some e => simp [Numeral.exponentChars]

theorem scanFraction_of_head? (n : Numeral) {cs : List Char} (h : cs.head? ≠ some '.') :
    scanFraction n cs = scanAfterFraction n cs := by
  unfold scanFraction
  split
  · exact absurd rfl h
  · rfl

theorem scanFraction_chars (negative : Bool) (whole : List Char) {ds : List Char} (e : Option Int)
    {rest : List Char} (hd : ∀ c ∈ ds, c.isDigit = true) (hr : endsNumeral rest = true) :
    scanFraction ⟨negative, whole, [], none⟩
        ((if ds.isEmpty then [] else '.' :: ds) ++ (Numeral.exponentChars e ++ rest)) =
      .ok (⟨negative, whole, ds, e⟩, rest) := by
  have hh := isDigit_of_head?_exponentChars e hr
  cases ds with
  | nil =>
    have hp : (Numeral.exponentChars e ++ rest).head? ≠ some '.' := by
      cases e with
      | none => intro he; cases rest <;> simp_all [Numeral.exponentChars, endsNumeral]
      | some e => simp [Numeral.exponentChars]
    exact (scanFraction_of_head? _ hp).trans (scanAfterFraction_chars negative whole [] e hr)
  | cons d ds =>
    simp only [List.isEmpty_cons, Bool.false_eq_true, if_false, List.cons_append, scanFraction]
    rw [← List.cons_append, spanDigits_append hd hh]
    exact scanAfterFraction_chars negative whole (d :: ds) e hr

theorem scanNumeral_chars {n : Numeral} (h : n.Spelt) {rest : List Char}
    (hr : endsNumeral rest = true) :
    scanNumeral n.negative (n.chars ++ rest) = .ok (n, rest) := by
  obtain ⟨c, cs, hc, h0⟩ := h.leading
  have hf := scanFraction_chars n.negative n.whole n.exponent h.fraction hr
  have hh : ∀ x ∈ ((if n.fraction.isEmpty then [] else '.' :: n.fraction) ++
      (Numeral.exponentChars n.exponent ++ rest)).head?, x.isDigit = false := by
    cases n.fraction with
    | nil => exact isDigit_of_head?_exponentChars n.exponent hr
    | cons d ds => simp
  rw [Numeral.chars, List.append_assoc, List.append_assoc, scanNumeral,
    spanDigits_append h.whole hh]
  dsimp only
  rw [hc] at hf ⊢
  split
  · next he => cases he
  · next x xs he =>
    obtain ⟨rfl, rfl⟩ := List.cons.inj he
    exact absurd (h0 rfl) (by simp)
  · rw [← hc] at hf ⊢
    exact hf

/-! ### The numerals of numbers -/

structure Numeral.Writes (n : Numeral) (negative : Bool) (d : Decimal) : Prop where
  spelt : n.Spelt
  negative : n.negative = negative
  chars : n.chars = d.spell
  notInteger : (n.fraction.isEmpty && n.exponent.isNone) = false
  decimal : ∃ k : Nat, n.decimal = ⟨d.digits * 10 ^ k, d.exponent - k⟩

section Writes

variable (negative : Bool) {d : Decimal} {e : Int}

theorem isDigit_of_mem_zeros {k : Nat} : ∀ c ∈ List.replicate k '0', c.isDigit = true := by
  intro c hc
  obtain ⟨-, rfl⟩ := List.mem_replicate.mp hc
  decide

theorem writes_scientific (he : e = (Text.decimalChars d.digits).length + d.exponent - 1)
    (h : e < -5 ∨ 15 < e) :
    Numeral.Writes ⟨negative, (Text.decimalChars d.digits).take 1,
      (Text.decimalChars d.digits).drop 1, some e⟩ negative d := by
  have hd (x : Char) (hx : x ∈ Text.decimalChars d.digits) : x.isDigit = true :=
    Text.isDigit_of_mem_decimalChars hx
  obtain ⟨c, cs, hc, -⟩ := Text.head_decimalChars d.digits
  refine ⟨⟨fun x hx => hd x (List.mem_of_mem_take hx), fun x hx => hd x (List.mem_of_mem_drop hx),
    ⟨c, [], by simp [hc], fun _ => rfl⟩⟩, rfl, ?_, by simp, 0, ?_⟩
  · simp only [Decimal.spell, ← he, if_pos h, Numeral.chars, Numeral.exponentChars]
  · have hl := congrArg List.length hc
    simp only [Numeral.decimal, List.take_append_drop, Text.digitsValue_decimalChars,
      Option.getD_some, List.length_drop, hl, List.length_cons] at he ⊢
    simp
    omega

theorem writes_small (he : e = (Text.decimalChars d.digits).length + d.exponent - 1)
    (hs : ¬ (e < -5 ∨ 15 < e)) (hn : e < 0) :
    Numeral.Writes ⟨negative, ['0'],
      List.replicate (-e - 1).toNat '0' ++ Text.decimalChars d.digits, none⟩ negative d := by
  have hne := Text.decimalChars_ne_nil d.digits
  refine ⟨⟨by simp, ?_, '0', [], rfl, fun _ => rfl⟩, rfl, ?_, by simp [hne], 0, ?_⟩
  · intro x hx
    rcases List.mem_append.mp hx with hx | hx
    · exact isDigit_of_mem_zeros x hx
    · exact Text.isDigit_of_mem_decimalChars hx
  · simp only [Decimal.spell, ← he, if_neg hs, if_pos hn, Numeral.chars, Numeral.exponentChars]
    simp [hne]
  · have h0 : Text.digitsValue ['0'] = 0 := rfl
    simp only [Numeral.decimal, Text.digitsValue_append, h0, Text.digitsValue_replicate_zero,
      Text.digitsValue_decimalChars, List.length_append, List.length_replicate]
    simp
    omega

theorem writes_positional (hd : d.digits ≠ 0)
    (he : e = (Text.decimalChars d.digits).length + d.exponent - 1)
    (hs : ¬ (e < -5 ∨ 15 < e)) (hn : ¬ e < 0) :
    Numeral.Writes ⟨negative,
      (Text.decimalChars d.digits).take (e.toNat + 1) ++
        List.replicate (e.toNat + 1 - (Text.decimalChars d.digits).length) '0',
      if (Text.decimalChars d.digits).length ≤ e.toNat + 1 then ['0']
        else (Text.decimalChars d.digits).drop (e.toNat + 1), none⟩ negative d := by
  have hdigit (x : Char) (hx : x ∈ Text.decimalChars d.digits) : x.isDigit = true :=
    Text.isDigit_of_mem_decimalChars hx
  obtain ⟨c, cs, hc, h0⟩ := Text.head_decimalChars d.digits
  have hf : (if (Text.decimalChars d.digits).length ≤ e.toNat + 1 then ['0']
      else (Text.decimalChars d.digits).drop (e.toNat + 1)) ≠ [] := by
    split
    · simp
    · simp only [ne_eq, List.drop_eq_nil_iff]
      omega
  have hw : ∃ tail, (Text.decimalChars d.digits).take (e.toNat + 1) ++
      List.replicate (e.toNat + 1 - (Text.decimalChars d.digits).length) '0' = c :: tail :=
    ⟨_, by rw [hc, List.take_succ_cons, List.cons_append]⟩
  obtain ⟨tail, hw⟩ := hw
  refine ⟨⟨?_, ?_, c, tail, hw, fun h => absurd (h0 h) hd⟩, rfl, ?_, by simp [hf], ?_⟩
  · intro x hx
    rcases List.mem_append.mp hx with hx | hx
    · exact hdigit x (List.mem_of_mem_take hx)
    · exact isDigit_of_mem_zeros x hx
  · intro x hx
    dsimp only at hx
    split at hx
    · obtain rfl := List.mem_singleton.mp hx
      decide
    · exact hdigit x (List.mem_of_mem_drop hx)
  · simp only [Decimal.spell, ← he, if_neg hs, if_neg hn, Numeral.chars, Numeral.exponentChars]
    simp [hf]
  · by_cases hl : (Text.decimalChars d.digits).length ≤ e.toNat + 1
    · -- zeros are filled in up to the point, and one behind it
      refine ⟨e.toNat + 1 - (Text.decimalChars d.digits).length + 1, ?_⟩
      have h0 : Text.digitsValue ['0'] = 0 := rfl
      simp only [Numeral.decimal, if_pos hl, List.take_of_length_le hl, Text.digitsValue_append,
        Text.digitsValue_decimalChars, Text.digitsValue_replicate_zero, h0, List.length_replicate]
      simp [Nat.pow_succ, Nat.mul_assoc]
      omega
    · refine ⟨0, ?_⟩
      have hz : e.toNat + 1 - (Text.decimalChars d.digits).length = 0 := by omega
      simp only [Numeral.decimal, if_neg hl, hz, List.replicate_zero, List.append_nil,
        List.take_append_drop, Text.digitsValue_decimalChars, List.length_drop]
      simp
      omega

theorem exists_numeral_writes (hd : d.digits ≠ 0) : ∃ n : Numeral, n.Writes negative d := by
  generalize he : ((Text.decimalChars d.digits).length : Int) + d.exponent - 1 = e
  by_cases hs : e < -5 ∨ 15 < e
  · exact ⟨_, writes_scientific negative he.symm hs⟩
  · by_cases hn : e < 0
    · exact ⟨_, writes_small negative he.symm hs hn⟩
    · exact ⟨_, writes_positional negative hd he.symm hs hn⟩

end Writes

/-! ### Reading -/

def scanSigned : List Char → NumeralResult
  | '-' :: cs => scanNumeral true cs
  | cs => scanNumeral false cs

theorem Numeral.Spelt.chars_eq_cons {n : Numeral} (h : n.Spelt) :
    ∃ c cs, n.chars = c :: cs ∧ c.isDigit = true := by
  obtain ⟨c, cs, hc, -⟩ := h.leading
  exact ⟨c, _, by rw [Numeral.chars, hc]; rfl, h.whole c (by simp [hc])⟩

theorem scanSigned_text {n : Numeral} (h : n.Spelt) {rest : List Char}
    (hr : endsNumeral rest = true) : scanSigned (n.text ++ rest) = .ok (n, rest) := by
  have hs := scanNumeral_chars h hr
  obtain ⟨c, cs, hc, hd⟩ := h.chars_eq_cons
  rw [Numeral.text]
  cases hn : n.negative with
  | true =>
    rw [hn] at hs
    exact hs
  | false =>
    rw [hn] at hs
    rw [if_neg Bool.false_ne_true, List.nil_append, ← hs, hc, List.cons_append, scanSigned]
    intro cs' he
    rw [(List.cons.inj he).1] at hd
    exact absurd hd (by decide)

namespace Numeral

/-- The integer that a numeral spells, or else the nearest double. -/
def nearest? (n : Numeral) : Option Number :=
  if n.fraction.isEmpty && n.exponent.isNone then
    Number.ofInt? (if n.negative then -(Text.digitsValue n.whole : Int)
      else Text.digitsValue n.whole)
  else (n.decimal.toDouble? n.negative).map .double

theorem nearest?_of_writes {n : Numeral} {x : Double} {d : Decimal} (h : n.Writes x.negative d)
    (hd : d.digits ≠ 0) (hx : d.toDouble? x.negative = some x) :
    n.nearest? = some (.double x) := by
  obtain ⟨k, hk⟩ := h.decimal
  rw [nearest?, h.notInteger, if_neg Bool.false_ne_true, h.negative, hk,
    Decimal.toDouble?_mul_pow _ hd, hx, Option.map_some]

end Numeral

theorem eq_zero_of_mantissa {x : Double} (h : x.mantissa = 0) : x = Double.zero x.negative := by
  obtain ⟨negative, mantissa, scale, canonical⟩ := x
  subst h
  have hs : scale = 0 := canonical.2.2.resolve_left (by decide)
  subst hs
  rfl

theorem exists_numeral_integer {i : Int} (hi : IntegerRange i) :
    ∃ n : Numeral, n.Spelt ∧ (Number.integer i hi).text = n.text ∧
      n.nearest? = some (.integer i hi) ∧ n.number? = some (.integer i hi) := by
  obtain ⟨c, cs, hc, h0⟩ := Text.head_decimalChars i.natAbs
  have hz (h : c = '0') : cs = [] := by
    have hd : Text.decimalChars 0 = ['0'] := rfl
    rw [h0 h, hd] at hc
    exact (List.cons.inj hc).2.symm
  have hs : (if i < 0 then -(i.natAbs : Int) else i.natAbs) = i := by split <;> omega
  refine ⟨⟨i < 0, Text.decimalChars i.natAbs, [], none⟩,
    ⟨fun _ => Text.isDigit_of_mem_decimalChars, by simp, c, cs, hc, hz⟩, ?_, ?_, ?_⟩
  · simp only [Number.text, Numeral.text, Numeral.chars, Numeral.exponentChars, decide_eq_true_eq]
    split <;> simp
  · simp only [Numeral.nearest?, List.isEmpty_nil, Option.isNone_none, Bool.and_self, if_true,
      Text.digitsValue_decimalChars, decide_eq_true_eq, hs, Number.ofInt?, dif_pos hi]
  · have hzero : (decide (i < 0) && decide (i.natAbs = 0)) = false := by
      rw [Bool.and_eq_false_iff, decide_eq_false_iff_not, decide_eq_false_iff_not]
      omega
    simp only [Numeral.number?, List.isEmpty_nil, Option.isNone_none, Bool.and_self, if_true,
      Text.digitsValue_decimalChars, hzero, Bool.false_eq_true, if_false, decide_eq_true_eq, hs,
      Number.ofInt?, dif_pos hi]

theorem exists_numeral (x : Number) :
    ∃ n : Numeral, n.Spelt ∧ x.text = n.text ∧ n.nearest? = some x := by
  cases x with
  | integer i hi =>
    obtain ⟨n, hn, ht, hx, -⟩ := exists_numeral_integer hi
    exact ⟨n, hn, ht, hx⟩
  | double x =>
    by_cases hm : x.mantissa = 0
    · refine ⟨⟨x.negative, ['0'], ['0'], none⟩,
        ⟨by simp, by simp, '0', [], rfl, fun _ => rfl⟩, ?_, ?_⟩
      · simp [Number.text, Double.text, hm, Numeral.text, Numeral.chars, Numeral.exponentChars]
      · have hv : Text.digitsValue ['0', '0'] = 0 := rfl
        rw [eq_zero_of_mantissa hm]
        simp [Numeral.nearest?, Numeral.decimal, hv, Decimal.toDouble?, Double.zero]
    · obtain ⟨hd, hr⟩ := Double.toDouble?_shortest hm
      obtain ⟨hd', hs⟩ := toDouble?_stripZeros x.negative (decimalLength x.shortest.digits) hd
      obtain ⟨n, hn⟩ := exists_numeral_writes x.negative hd'
      refine ⟨n, hn.spelt, ?_, Numeral.nearest?_of_writes hn hd' (hs.trans hr)⟩
      rw [Number.text, Double.text, if_neg hm, Numeral.text, hn.chars, hn.negative]

end Json

namespace Number

open Json

theorem text_inj {x y : Number} (h : x.text = y.text) : x = y := by
  obtain ⟨n, hn, hx, hnx⟩ := exists_numeral x
  obtain ⟨m, hm, hy, hmy⟩ := exists_numeral y
  have hs : scanSigned (n.text ++ []) = .ok (n, []) := scanSigned_text hn rfl
  rw [← hx, h, hy, scanSigned_text hm rfl] at hs
  obtain ⟨rfl, -⟩ := Prod.mk.inj (Except.ok.inj hs)
  exact Option.some.inj (hnx.symm.trans hmy)

def reread? (x : Number) : Option Number :=
  (scanSigned x.text).toOption.bind fun n => n.1.number?

theorem reread?_eq {x : Number} {n : Numeral} (hn : n.Spelt) (h : x.text = n.text) :
    x.reread? = n.number? := by
  have hs : scanSigned (n.text ++ []) = .ok (n, []) := scanSigned_text hn rfl
  rw [List.append_nil] at hs
  rw [reread?, h, hs]
  rfl

theorem reread?_integer {i : Int} (hi : IntegerRange i) :
    (integer i hi).reread? = some (.integer i hi) := by
  obtain ⟨n, hn, ht, -, hx⟩ := exists_numeral_integer hi
  rw [reread?_eq hn ht, hx]

end Number

end NativeUi
