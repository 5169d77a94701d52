import Mathlib.Tactic.SplitIfs
import NativeUi.Proofs.Text.Digits
import NativeUi.Source.Dialect

/-!
# Reading literals back

The readers of string literals in Swift and in Kotlin, behind the opening quote. They stop at raw
control characters and where code is put into a text: at `\(` in Swift, at a bare dollar sign in
Kotlin. What `Language.escape` writes is read back as it was, whatever follows.
-/
namespace NativeUi.Source

inductive Language where
  | swift
  | kotlin
deriving DecidableEq

namespace Language

def dialects : Language → List Dialect
  | .swift => [.swiftui, .swiftuiCompact]
  | .kotlin => [.compose]

def control : Language → Char → List Char
  | .swift => swiftControl
  | .kotlin => kotlinControl

def escapeUnit (l : Language) (c : Char) : List Char :=
  if l = .kotlin ∧ c = '$' then ['\\', '$'] else escapeChar l.control c

def escape : Language → String → String
  | .swift => escapeSwift
  | .kotlin => escapeKotlin

def unescape? (l : Language) (c : Char) : Option Char :=
  if c = '\\' then some '\\'
  else if c = '"' then some '"'
  else if c = 'n' then some '\n'
  else if c = 'r' then some '\r'
  else if c = 't' then some '\t'
  else if l = .kotlin ∧ c = '$' then some '$'
  else none

def scalar? (n : Nat) (r : Option (List Char × List Char)) : Option (List Char × List Char) :=
  if n.isValidChar then r.map fun x => (Char.ofNat n :: x.1, x.2) else none

mutual

/-- Reads a literal behind its opening quote: the text and what follows the closing quote. -/
def read (l : Language) : List Char → Option (List Char × List Char)
  | [] => none
  | c :: cs =>
    if c = '"' then some ([], cs)
    else if c = '\\' then readEscape l cs
    else if Text.isControl c then none
    else if l = .kotlin ∧ c = '$' then none
    else (read l cs).map fun x => (c :: x.1, x.2)

def readEscape (l : Language) : List Char → Option (List Char × List Char)
  | [] => none
  | c :: cs =>
    if c = 'u' then
      match l with
      | .swift => readBraced cs
      | .kotlin => readFour cs
    else
      match unescape? l c with
      | some x => (read l cs).map fun y => (x :: y.1, y.2)
      | none => none

def readBraced : List Char → Option (List Char × List Char)
  | [] => none
  | c :: cs => if c = '\x7b' then readDigits 0 0 cs else none

def readDigits (count n : Nat) : List Char → Option (List Char × List Char)
  | [] => none
  | c :: cs =>
    if c = '\x7d' then
      if 1 ≤ count ∧ count ≤ 8 then scalar? n (read .swift cs) else none
    else
      match Json.hexValue? c with
      | some d => readDigits (count + 1) (16 * n + d) cs
      | none => none

def readFour : List Char → Option (List Char × List Char)
  | a :: b :: c :: d :: cs =>
    match Json.hexUnit? a b c d with
    | some n => scalar? n (read .kotlin cs)
    | none => none
  | _ => none

end

/-! ### What escapes are made of -/

def isPlain (l : Language) (c : Char) : Bool :=
  c ≠ '"' && c ≠ '\\' && !Text.isControl c && !(l = .kotlin && c = '$')

theorem isPlain_digitChar (l : Language) : ∀ d < 16, l.isPlain d.digitChar = true := by
  cases l <;> decide

theorem isControl_lt {c : Char} (h : Text.isControl c = true) : c.toNat < 256 := by
  simp only [Text.isControl, Bool.or_eq_true, Bool.and_eq_true, decide_eq_true_eq] at h
  omega

theorem isPlain_hex (l : Language) {n : Nat} (h : n < 256) :
    ∀ c ∈ Text.hex n, l.isPlain c = true := by
  have hq := isPlain_digitChar l (n / 16) (by omega)
  have hr := isPlain_digitChar l (n % 16) (by omega)
  intro c hc
  rw [Text.hex_of_lt h] at hc
  split at hc
  · next hn =>
    obtain rfl := List.mem_singleton.mp hc
    exact isPlain_digitChar l n hn
  · simp only [List.mem_cons, List.not_mem_nil, or_false] at hc
    rcases hc with rfl | rfl
    · exact hq
    · exact hr

theorem isPlain_hex4 (l : Language) {n : Nat} (h : n < 256) :
    ∀ c ∈ Text.hex4 n, l.isPlain c = true := by
  intro c hc
  rcases List.mem_append.mp hc with hz | hd
  · obtain ⟨-, rfl⟩ := List.mem_replicate.mp hz
    cases l <;> decide
  · exact isPlain_hex l h c hd

theorem escapeUnit_cases (l : Language) (c : Char) :
    (l.escapeUnit c = [c] ∧ l.isPlain c = true) ∨
      ∃ x tail, l.escapeUnit c = '\\' :: x :: tail ∧ x ≠ '(' ∧ Text.isControl x = false ∧
        ∀ y ∈ tail, l.isPlain y = true := by
  have short (x : Char) (hp : x ≠ '(') (hx : Text.isControl x = false) :
      ∃ y tail, ['\\', x] = '\\' :: y :: tail ∧ y ≠ '(' ∧ Text.isControl y = false ∧
        ∀ z ∈ tail, l.isPlain z = true :=
    ⟨x, [], rfl, hp, hx, by simp⟩
  unfold escapeUnit escapeChar
  split_ifs with hd h1 h2 h3 h4 h5 h6
  · exact .inr (short '$' (by decide) (by decide))
  · exact .inr (short '\\' (by decide) (by decide))
  · exact .inr (short '"' (by decide) (by decide))
  · exact .inr (short 'n' (by decide) (by decide))
  · exact .inr (short 'r' (by decide) (by decide))
  · exact .inr (short 't' (by decide) (by decide))
  · have hlt := isControl_lt h6
    right
    cases l with
    | swift =>
      refine ⟨'u', '\x7b' :: Text.hex c.toNat ++ ['\x7d'], rfl, by decide, by decide, ?_⟩
      intro y hy
      simp only [List.cons_append, List.mem_cons, List.mem_append, List.not_mem_nil,
        or_false] at hy
      rcases hy with rfl | hy | rfl
      · decide
      · exact isPlain_hex .swift hlt y hy
      · decide
    | kotlin =>
      exact ⟨'u', Text.hex4 c.toNat, rfl, by decide, by decide, isPlain_hex4 .kotlin hlt⟩
  · left
    refine ⟨rfl, ?_⟩
    have hp : (l = .kotlin && c = '$') = false := by simpa using hd
    simp only [isPlain, hp, h1, h2, h6, decide_not, decide_false, Bool.not_false, Bool.and_self]

theorem isControl_of_mem_escape (l : Language) {s : List Char} {c : Char}
    (hc : c ∈ s.flatMap l.escapeUnit) : Text.isControl c = false := by
  have plain (y : Char) (hy : l.isPlain y = true) : Text.isControl y = false := by
    simp only [isPlain, Bool.and_eq_true, Bool.not_eq_true'] at hy
    exact hy.1.2
  obtain ⟨x, -, hx⟩ := List.mem_flatMap.mp hc
  rcases l.escapeUnit_cases x with ⟨he, hp⟩ | ⟨y, tail, he, -, hy, ht⟩
  · rw [he, List.mem_singleton] at hx
    exact hx ▸ plain x hp
  · rw [he] at hx
    simp only [List.mem_cons] at hx
    rcases hx with rfl | rfl | hx
    · decide
    · exact hy
    · exact plain c (ht c hx)

/-! ### Escapes unit by unit -/

theorem flatMap_escapeDollar {cs : List Char} (h : '$' ∉ cs) : cs.flatMap escapeDollar = cs := by
  induction cs with
  | nil => rfl
  | cons c cs ih =>
    simp only [List.mem_cons, not_or] at h
    rw [List.flatMap_cons, ih h.2, escapeDollar, if_neg (Ne.symm h.1)]
    rfl

theorem dollar_not_mem_kotlinControl {c : Char} (h : Text.isControl c = true) :
    '$' ∉ kotlinControl c := by
  intro hm
  simp only [kotlinControl, List.mem_append, List.mem_cons, List.not_mem_nil, or_false] at hm
  rcases hm with (hm | hm) | hm
  · exact absurd hm (by decide)
  · exact absurd hm (by decide)
  · exact absurd (isPlain_hex4 .kotlin (isControl_lt h) _ hm) (by decide)

/-- The dollar signs that are escaped afterwards are those of the text itself. -/
theorem escapeChar_flatMap_escapeDollar (c : Char) :
    (escapeChar kotlinControl c).flatMap escapeDollar = escapeUnit .kotlin c := by
  by_cases hd : c = '$'
  · subst hd
    decide
  · have hk : ¬(Language.kotlin = .kotlin ∧ c = '$') := fun h => hd h.2
    rw [escapeUnit, if_neg hk]
    apply flatMap_escapeDollar
    unfold escapeChar
    split_ifs with h1 h2 h3 h4 h5 h6
    · decide
    · decide
    · decide
    · decide
    · decide
    · exact dollar_not_mem_kotlinControl h6
    · simpa using Ne.symm hd

theorem escape_toList (l : Language) (s : String) :
    (l.escape s).toList = s.toList.flatMap l.escapeUnit := by
  cases l with
  | swift =>
    simp only [escape, escapeSwift, escapeChars, String.toList_ofList]
    congr 1
  | kotlin =>
    simp only [escape, escapeKotlin, escapeChars, String.toList_ofList, List.flatMap_assoc,
      escapeChar_flatMap_escapeDollar]

/-! ### Reading -/

theorem scalar?_toNat (c : Char) (r : Option (List Char × List Char)) :
    scalar? c.toNat r = r.map fun x => (c :: x.1, x.2) := by
  have hv : c.toNat.isValidChar := c.valid
  rw [scalar?, if_pos hv, Char.ofNat_toNat]

theorem readDigits_hex {n : Nat} (h : n < 256) (rest : List Char) :
    readDigits 0 0 (Text.hex n ++ '\x7d' :: rest) = scalar? n (read .swift rest) := by
  have brace : ∀ d < 16, d.digitChar ≠ '\x7d' := by decide
  have hq := Text.hexValue?_digitChar (n / 16) (by omega)
  have hr := Text.hexValue?_digitChar (n % 16) (by omega)
  rw [Text.hex_of_lt h]
  split
  · next hn =>
    have hv := Text.hexValue?_digitChar n hn
    simp [readDigits, brace n hn, hv]
  · have hn : 16 * (n / 16) + n % 16 = n := by omega
    simp [readDigits, brace (n / 16) (by omega), brace (n % 16) (by omega), hq, hr, hn]

theorem readFour_hex4 {n : Nat} (h : n < 256) (rest : List Char) :
    readFour (Text.hex4 n ++ rest) = scalar? n (read .kotlin rest) := by
  rw [Text.hex4_of_lt h]
  simp [readFour, Text.hexUnit?_hex4 h]

theorem read_escapeUnit (l : Language) (c : Char) (rest : List Char) :
    l.read (l.escapeUnit c ++ rest) = (l.read rest).map fun x => (c :: x.1, x.2) := by
  have short (x : Char) (hu : x ≠ 'u') (hx : l.unescape? x = some c) :
      l.read (['\\', x] ++ rest) = (l.read rest).map fun y => (c :: y.1, y.2) := by
    simp [read, readEscape, hu, hx]
  unfold escapeUnit escapeChar
  split_ifs with hd h1 h2 h3 h4 h5 h6
  · obtain ⟨rfl, rfl⟩ := hd
    exact short '$' (by decide) (by decide)
  · exact short '\\' (by decide) (by simp [unescape?, h1])
  · exact short '"' (by decide) (by simp [unescape?, h2])
  · exact short 'n' (by decide) (by simp [unescape?, h3])
  · exact short 'r' (by decide) (by simp [unescape?, h4])
  · exact short 't' (by decide) (by simp [unescape?, h5])
  · have hlt := isControl_lt h6
    cases l with
    | swift =>
      have hr := readDigits_hex hlt rest
      rw [scalar?_toNat] at hr
      simpa [control, swiftControl, read, readEscape, readBraced] using hr
    | kotlin =>
      have hr := readFour_hex4 hlt rest
      rw [scalar?_toNat] at hr
      simpa [control, kotlinControl, read, readEscape] using hr
  · simp [read, h1, h2, h6, hd]

theorem read_escaped_append (l : Language) (cs rest : List Char) :
    l.read (cs.flatMap l.escapeUnit ++ rest) = (l.read rest).map fun x => (cs ++ x.1, x.2) := by
  induction cs with
  | nil => simp
  | cons c cs ih =>
    rw [List.flatMap_cons, List.append_assoc, read_escapeUnit, ih, Option.map_map]
    rfl

theorem read_flatMap_escapeUnit (l : Language) (cs rest : List Char) :
    l.read (cs.flatMap l.escapeUnit ++ '"' :: rest) = some (cs, rest) := by
  rw [read_escaped_append]
  simp [read]

theorem flatMap_escapeUnit_append_inj (l : Language) {cs ds r s : List Char}
    (h : cs.flatMap l.escapeUnit ++ '"' :: r = ds.flatMap l.escapeUnit ++ '"' :: s) :
    cs = ds ∧ r = s := by
  have hr := congrArg l.read h
  rw [read_flatMap_escapeUnit, read_flatMap_escapeUnit] at hr
  simpa using hr

def interpolation : Language → List Char
  | .swift => ['\\', '(']
  | .kotlin => ['$']

theorem read_interpolation (l : Language) (rest : List Char) :
    l.read (l.interpolation ++ rest) = none := by
  cases l with
  | swift => simp [interpolation, read, readEscape, unescape?]
  | kotlin =>
    have hc : Text.isControl '$' = false := by decide
    simp [interpolation, read, hc]

theorem read_control (l : Language) {c : Char} (h : Text.isControl c = true) (rest : List Char) :
    l.read (c :: rest) = none := by
  have hq : c ≠ '"' := by
    rintro rfl
    exact absurd h (by decide)
  have hb : c ≠ '\\' := by
    rintro rfl
    exact absurd h (by decide)
  simp [read, hq, hb, h]

/-- An escaped text in front of a quote is read as the text, and what is behind the quote is left.
There is no raw control character in it. The reader comes to its end and would not have gone past
code in the literal or past a control character. -/
theorem read_escape (l : Language) (s : String) (rest : List Char) :
    l.read ((l.escape s).toList ++ '"' :: rest) = some (s.toList, rest) ∧
      (∀ c ∈ (l.escape s).toList, Text.isControl c = false) ∧
      l.read ((l.escape s).toList ++ l.interpolation ++ rest) = none ∧
      ∀ c, Text.isControl c = true → l.read ((l.escape s).toList ++ c :: rest) = none := by
  rw [escape_toList]
  refine ⟨l.read_flatMap_escapeUnit s.toList rest, fun c => l.isControl_of_mem_escape, ?_, ?_⟩
  · rw [List.append_assoc, read_escaped_append, read_interpolation, Option.map_none]
  · intro c hc
    rw [read_escaped_append, read_control l hc, Option.map_none]

def hostileText : String := "\\u0041$\x7bx\x7d\\\"\x07f"

theorem read_escape_hostileText :
    kotlin.read ((kotlin.escape hostileText).toList ++ ['"', '$', '"']) =
        some (hostileText.toList, ['$', '"']) ∧
      '$' ∈ (kotlin.escape hostileText).toList ∧ Text.isControl '$' = false ∧
      Text.isControl '\x07' = true ∧
      kotlin.read ((kotlin.escape hostileText).toList ++ ['\x07', '"']) = none := by
  obtain ⟨hread, hplain, -, hcontrol⟩ := read_escape kotlin hostileText ['$', '"']
  have hd : '$' ∈ (kotlin.escape hostileText).toList := by decide
  have hc : Text.isControl '\x07' = true := by decide
  exact ⟨hread, hd, hplain '$' hd, hc, (read_escape kotlin hostileText ['"']).2.2.2 _ hc⟩

end Language

end NativeUi.Source
