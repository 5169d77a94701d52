import NativeUi.Json.Parser
import NativeUi.Json.Printer
import NativeUi.Proofs.Json.Draft
import NativeUi.Proofs.Json.Numeral

/-!
# JSON texts and their drafts

A layout says where a text has its blanks; the compact and the pretty text of a value are two of its
texts. In every layout the text of a value is parsed into one and the same draft, whatever follows
it, and nothing is left of it.
-/
namespace NativeUi.Json

/-! ### Strings -/

def writtenPiece (c : Char) : Piece :=
  if c.toNat < 0x20 ∧ c ≠ '\x08' ∧ c ≠ '\x0c' ∧ c ≠ '\n' ∧ c ≠ '\r' ∧ c ≠ '\t' then .unit c.toNat
  else .char c

def writtenLiteral (s : String) : Literal := ⟨s.toList.map writtenPiece, none⟩

theorem scanLiteral_plain {c : Char} (hq : c ≠ '"') (hb : c ≠ '\\') (hc : ¬ c.toNat < 0x20)
    (rest : List Char) : scanLiteral (c :: rest) = Literal.cons (.char c) (scanLiteral rest) := by
  rw [scanLiteral.eq_def]
  split
  · next he => cases he
  · next he => exact absurd (List.cons.inj he).1 hq
  · next he => exact absurd (List.cons.inj he).1 hb
  · next he => exact absurd (List.cons.inj he).1 hb
  · next he => exact absurd (List.cons.inj he).1 hb
  · next he =>
    obtain ⟨rfl, rfl⟩ := List.cons.inj he
    rw [if_neg hc]

theorem scanLiteral_unit {n : Nat} (h : n < 256) (rest : List Char) :
    scanLiteral ('\\' :: 'u' :: (Text.hex4 n ++ rest)) =
      Literal.cons (.unit n) (scanLiteral rest) := by
  rw [Text.hex4_of_lt h]
  simp [scanLiteral, Text.hexUnit?_hex4 h]

theorem scanLiteral_escapeChar (c : Char) (rest : List Char) :
    scanLiteral (escapeChar c ++ rest) = Literal.cons (writtenPiece c) (scanLiteral rest) := by
  by_cases hs : c ∈ ['"', '\\', '\x08', '\x0c', '\n', '\r', '\t']
  · simp only [List.mem_cons, List.not_mem_nil, or_false] at hs
    rcases hs with rfl | rfl | rfl | rfl | rfl | rfl | rfl <;>
      simp [escapeChar, writtenPiece, scanLiteral, unescape?]
  · simp only [List.mem_cons, List.not_mem_nil, or_false, not_or] at hs
    obtain ⟨hq, hb, h1, h2, h3, h4, h5⟩ := hs
    by_cases hc : c.toNat < 0x20
    · have hu := scanLiteral_unit (n := c.toNat) (by omega) rest
      simp [escapeChar, writtenPiece, hq, hb, h1, h2, h3, h4, h5, hc, hu]
    · simp [escapeChar, writtenPiece, hq, hb, h1, h2, h3, h4, h5, hc, scanLiteral_plain hq hb hc]

theorem scanLiteral_written (s : String) (rest : List Char) :
    scanLiteral (s.toList.flatMap escapeChar ++ '"' :: rest) = (writtenLiteral s, rest) := by
  unfold writtenLiteral
  induction s.toList with
  | nil => simp [scanLiteral]
  | cons c cs ih =>
    rw [List.flatMap_cons, List.append_assoc, scanLiteral_escapeChar, ih]
    rfl

theorem charsOf_unit {n : Nat} (h : n < 0x20) (ps : List Piece) :
    Literal.charsOf none (.unit n :: ps) = (do
      let cs ← Literal.charsOf none ps
      .ok (Char.ofNat n :: cs)) := by
  have hh : Literal.isHighSurrogate n = false := by simp [Literal.isHighSurrogate]; omega
  have hl : Literal.isLowSurrogate n = false := by simp [Literal.isLowSurrogate]; omega
  match ps with
  | [] => simp [Literal.charsOf, hh, hl]
  | .char c :: ps => simp [Literal.charsOf, hh, hl]
  | .unit m :: ps => simp [Literal.charsOf, hh, hl]

theorem faithful_writtenLiteral : Draft.Faithful writtenLiteral := by
  intro s
  have chars (cs : List Char) : Literal.charsOf none (cs.map writtenPiece) = .ok cs := by
    induction cs with
    | nil => rfl
    | cons c cs ih =>
      rw [List.map_cons, writtenPiece]
      split
      · next h => rw [charsOf_unit h.1, ih, ok_bind, Char.ofNat_toNat]
      · rw [Literal.charsOf, ih, ok_bind]
  simp [Literal.text, writtenLiteral, chars]

/-! ### Blanks -/

theorem skipSpaces_cons {c : Char} (h : isSpace c = false) (cs : List Char) :
    skipSpaces (c :: cs) = c :: cs := List.dropWhile_cons_of_neg (by simp [h])

theorem skipSpaces_append {bs : List Char} (h : ∀ c ∈ bs, isSpace c = true) (cs : List Char) :
    skipSpaces (bs ++ cs) = skipSpaces cs := List.dropWhile_append_of_pos h

theorem parseValue_congr {cs ds : List Char} (h : skipSpaces cs = skipSpaces ds)
    (fuel depth : Nat) : parseValue (fuel + 1) depth cs = parseValue (fuel + 1) depth ds := by
  rw [parseValue, parseValue, h]

/-! ### Numbers and words -/

theorem ne_of_isDigit {c : Char} (h : c.isDigit = true) {x : Char} (hx : x.isDigit = false) :
    c ≠ x := by
  rintro rfl
  rw [h] at hx
  cases hx

theorem isSpace_of_isDigit {c : Char} (h : c.isDigit = true) : isSpace c = false := by
  simp [isSpace, ne_of_isDigit h (x := ' ') (by decide), ne_of_isDigit h (x := '\t') (by decide),
    ne_of_isDigit h (x := '\n') (by decide), ne_of_isDigit h (x := '\r') (by decide)]

theorem parseValue_digit {c : Char} (h : c.isDigit = true) (fuel depth : Nat) (cs : List Char) :
    parseValue (fuel + 1) depth (c :: cs) = numberDraft false (c :: cs) := by
  rw [parseValue, skipSpaces_cons (isSpace_of_isDigit h)]
  split
  · next he => cases he
  · next he => exact absurd (List.cons.inj he).1 (ne_of_isDigit h (by decide))
  · next he => exact absurd (List.cons.inj he).1 (ne_of_isDigit h (by decide))
  · next he => exact absurd (List.cons.inj he).1 (ne_of_isDigit h (by decide))
  · next he => exact absurd (List.cons.inj he).1 (ne_of_isDigit h (by decide))
  · next he => exact absurd (List.cons.inj he).1 (ne_of_isDigit h (by decide))
  · next he => exact absurd (List.cons.inj he).1 (ne_of_isDigit h (by decide))
  · next he => exact absurd (List.cons.inj he).1 (ne_of_isDigit h (by decide))
  · next he =>
    obtain ⟨rfl, rfl⟩ := List.cons.inj he
    rw [if_pos h]

theorem parseValue_minus (fuel depth : Nat) (cs : List Char) :
    parseValue (fuel + 1) depth ('-' :: cs) = numberDraft true cs := by
  rw [parseValue, skipSpaces_cons (by decide)]
  rfl

theorem number_text_eq_cons (x : Number) :
    ∃ c cs, x.text = c :: cs ∧ (c = '-' ∨ c.isDigit = true) := by
  obtain ⟨n, hn, ht, -⟩ := exists_numeral x
  obtain ⟨c, cs, hc, hd⟩ := hn.chars_eq_cons
  rw [ht, Numeral.text]
  cases n.negative with
  | true => exact ⟨'-', n.chars, rfl, .inl rfl⟩
  | false => exact ⟨c, cs, hc, .inr hd⟩

theorem parseValue_number (x : Number) (fuel depth : Nat) {rest : List Char}
    (hr : endsNumeral rest = true) :
    parseValue (fuel + 1) depth (x.text ++ rest) = (.number x.reread?, rest) := by
  obtain ⟨n, hn, ht, -⟩ := exists_numeral x
  have hd : numberDraft n.negative (n.chars ++ rest) = (.number n.number?, rest) := by
    simp only [numberDraft, scanNumeral_chars hn hr]
  rw [Number.reread?_eq hn ht, ht, Numeral.text, ← hd]
  cases n.negative with
  | true => exact parseValue_minus fuel depth (n.chars ++ rest)
  | false =>
    obtain ⟨c, cs, hc, hcd⟩ := hn.chars_eq_cons
    rw [hc]
    exact parseValue_digit hcd fuel depth (cs ++ rest)

/-! ### Layouts -/

structure Layout where
  gap : Nat → List Char
  colonGap : List Char
  isSpace_gap : ∀ level, ∀ c ∈ gap level, isSpace c = true
  isSpace_colonGap : ∀ c ∈ colonGap, isSpace c = true

namespace Layout

theorem isSpace_newline (level : Nat) : ∀ c ∈ newline level, isSpace c = true := by
  intro c hc
  rcases List.mem_cons.mp hc with rfl | hc
  · decide
  · obtain ⟨-, rfl⟩ := List.mem_replicate.mp hc
    decide

def pretty : Layout := ⟨newline, [' '], isSpace_newline, by simp [isSpace]⟩

def compact : Layout := ⟨fun _ => [], [], by simp, by simp⟩

mutual

def chars (l : Layout) (level : Nat) : Json → List Char
  | .null => ['n', 'u', 'l', 'l']
  | .bool b => boolChars b
  | .number n => n.text
  | .string s => stringChars s
  | .list [] => ['[', ']']
  | .list (x :: xs) => '[' :: l.gap (level + 1) ++ l.chars (level + 1) x ++ l.itemsChars level xs
  | .object [] => ['\x7b', '\x7d']
  | .object ((name, x) :: fs) =>
    '\x7b' :: l.gap (level + 1) ++ stringChars name ++ ':' :: l.colonGap ++
      l.chars (level + 1) x ++ l.fieldsChars level fs

def itemsChars (l : Layout) (level : Nat) : List Json → List Char
  | [] => l.gap level ++ [']']
  | x :: xs => ',' :: l.gap (level + 1) ++ l.chars (level + 1) x ++ l.itemsChars level xs

def fieldsChars (l : Layout) (level : Nat) : List (String × Json) → List Char
  | [] => l.gap level ++ ['\x7d']
  | (name, x) :: fs =>
    ',' :: l.gap (level + 1) ++ stringChars name ++ ':' :: l.colonGap ++ l.chars (level + 1) x ++
      l.fieldsChars level fs

end

mutual

theorem chars_pretty (level : Nat) : ∀ v : Json, pretty.chars level v = prettyChars level v
  | .null => rfl
  | .bool _ => rfl
  | .number _ => rfl
  | .string _ => rfl
  | .list [] => rfl
  | .list (x :: xs) => by
    rw [chars, prettyChars, chars_pretty (level + 1) x, itemsChars_pretty level xs]
    rfl
  | .object [] => rfl
  | .object ((name, x) :: fs) => by
    rw [chars, prettyChars, chars_pretty (level + 1) x, fieldsChars_pretty level fs]
    simp [pretty]

theorem itemsChars_pretty (level : Nat) :
    ∀ xs : List Json, pretty.itemsChars level xs = prettyItems level xs
  | [] => rfl
  | x :: xs => by
    rw [itemsChars, prettyItems, chars_pretty (level + 1) x, itemsChars_pretty level xs]
    rfl

theorem fieldsChars_pretty (level : Nat) :
    ∀ fs : List (String × Json), pretty.fieldsChars level fs = prettyFields level fs
  | [] => rfl
  | (name, x) :: fs => by
    rw [fieldsChars, prettyFields, chars_pretty (level + 1) x, fieldsChars_pretty level fs]
    simp [pretty]

end

mutual

theorem chars_compact (level : Nat) : ∀ v : Json, compact.chars level v = compactChars v
  | .null => rfl
  | .bool _ => rfl
  | .number _ => rfl
  | .string _ => rfl
  | .list [] => rfl
  | .list (x :: xs) => by
    rw [chars, compactChars, chars_compact (level + 1) x, itemsChars_compact level xs]
    rfl
  | .object [] => rfl
  | .object ((name, x) :: fs) => by
    rw [chars, compactChars, chars_compact (level + 1) x, fieldsChars_compact level fs]
    simp [compact]

theorem itemsChars_compact (level : Nat) :
    ∀ xs : List Json, compact.itemsChars level xs = compactItems xs
  | [] => rfl
  | x :: xs => by
    rw [itemsChars, compactItems, chars_compact (level + 1) x, itemsChars_compact level xs]
    rfl

theorem fieldsChars_compact (level : Nat) :
    ∀ fs : List (String × Json), compact.fieldsChars level fs = compactFields fs
  | [] => rfl
  | (name, x) :: fs => by
    rw [fieldsChars, compactFields, chars_compact (level + 1) x, fieldsChars_compact level fs]
    simp [compact]

end

end Layout

/-! ### Parsing -/

theorem endsNumeral_of_isSpace {c : Char} (h : isSpace c = true) (cs : List Char) :
    endsNumeral (c :: cs) = true := by
  simp only [isSpace, Bool.or_eq_true, decide_eq_true_eq] at h
  rcases h with ((rfl | rfl) | rfl) | rfl <;> rfl

theorem endsNumeral_append {bs cs : List Char} (hb : ∀ c ∈ bs, isSpace c = true)
    (hc : endsNumeral cs = true) : endsNumeral (bs ++ cs) = true := by
  cases bs with
  | nil => exact hc
  | cons b bs => exact endsNumeral_of_isSpace (hb b List.mem_cons_self) _

theorem parseValue_string (s : String) (fuel depth : Nat) (rest : List Char) :
    parseValue (fuel + 1) depth (stringChars s ++ rest) =
      (.string (writtenLiteral s), rest) := by
  have hl := scanLiteral_written s rest
  rw [stringChars, parseValue, List.cons_append, List.cons_append,
    skipSpaces_cons (by decide), List.append_assoc, List.singleton_append]
  simp only [hl]

theorem parseValue_list {fuel depth : Nat} {ds : List Draft} {cs rest : List Char}
    (hi : parseItems fuel (depth + 1) true cs = (ds, .closed, rest)) :
    parseValue (fuel + 1) depth ('[' :: cs) =
      (.list (depthLimit ≤ depth) ds .closed, rest) := by
  rw [parseValue, skipSpaces_cons (by decide)]
  simp [hi]

theorem parseValue_object {fuel depth : Nat} {ms : List (Literal × Draft)} {cs rest : List Char}
    (hm : parseMembers fuel (depth + 1) true cs = (ms, .closed, rest)) :
    parseValue (fuel + 1) depth ('\x7b' :: cs) =
      (.object (depthLimit ≤ depth) ms .closed, rest) := by
  rw [parseValue, skipSpaces_cons (by decide)]
  simp [hm]

theorem parseValue_null (fuel depth : Nat) (rest : List Char) :
    parseValue (fuel + 1) depth ('n' :: 'u' :: 'l' :: 'l' :: rest) = (.null, rest) := rfl

theorem parseValue_bool (b : Bool) (fuel depth : Nat) (rest : List Char) :
    parseValue (fuel + 1) depth (boolChars b ++ rest) = (.bool b, rest) := by
  cases b <;> rfl

theorem parseValue_emptyList (fuel depth : Nat) (rest : List Char) :
    parseValue (fuel + 2) depth ('[' :: ']' :: rest) =
      (.list (depthLimit ≤ depth) [] .closed, rest) := parseValue_list rfl

theorem parseValue_emptyObject (fuel depth : Nat) (rest : List Char) :
    parseValue (fuel + 2) depth ('\x7b' :: '\x7d' :: rest) =
      (.object (depthLimit ≤ depth) [] .closed, rest) := parseValue_object rfl

namespace Layout

variable (l : Layout)

theorem chars_eq_cons (level : Nat) (v : Json) :
    ∃ c cs, l.chars level v = c :: cs ∧ isSpace c = false ∧ c ≠ ']' := by
  match v with
  | .null => exact ⟨'n', _, rfl, by decide, by decide⟩
  | .bool true => exact ⟨'t', _, rfl, by decide, by decide⟩
  | .bool false => exact ⟨'f', _, rfl, by decide, by decide⟩
  | .number x =>
    obtain ⟨c, cs, hc, rfl | hd⟩ := number_text_eq_cons x
    · exact ⟨'-', cs, by rw [chars, hc], by decide, by decide⟩
    · exact ⟨c, cs, by rw [chars, hc], isSpace_of_isDigit hd, ne_of_isDigit hd (by decide)⟩
  | .string s => exact ⟨'"', _, rfl, by decide, by decide⟩
  | .list [] => exact ⟨'[', _, rfl, by decide, by decide⟩
  | .list (x :: xs) => exact ⟨'[', _, rfl, by decide, by decide⟩
  | .object [] => exact ⟨'\x7b', _, rfl, by decide, by decide⟩
  | .object ((name, x) :: fs) => exact ⟨'\x7b', _, rfl, by decide, by decide⟩

theorem endsNumeral_itemsChars (level : Nat) (xs : List Json) (rest : List Char) :
    endsNumeral (l.itemsChars level xs ++ rest) = true := by
  cases xs with
  | nil =>
    rw [itemsChars, List.append_assoc]
    exact endsNumeral_append (l.isSpace_gap level) rfl
  | cons x xs => rfl

theorem endsNumeral_fieldsChars (level : Nat) (fs : List (String × Json)) (rest : List Char) :
    endsNumeral (l.fieldsChars level fs ++ rest) = true := by
  cases fs with
  | nil =>
    rw [fieldsChars, List.append_assoc]
    exact endsNumeral_append (l.isSpace_gap level) rfl
  | cons f fs => rfl

section Items

variable {l} {fuel depth level : Nat} {x : Json} {d : Draft} {ds : List Draft} {ending : Ending}
  {more rest : List Char}

theorem skipSpaces_item (l : Layout) (level : Nat) (x : Json) (more : List Char) :
    ∃ c cs, l.chars level x ++ more = c :: cs ∧
      skipSpaces (l.gap level ++ (l.chars level x ++ more)) = c :: cs ∧ c ≠ ']' := by
  obtain ⟨c, cs, hc, hs, hb⟩ := l.chars_eq_cons level x
  refine ⟨c, cs ++ more, by rw [hc, List.cons_append], ?_, hb⟩
  rw [skipSpaces_append (l.isSpace_gap level), hc, List.cons_append, skipSpaces_cons hs]

theorem parseItems_first (hv : parseValue fuel depth (l.chars level x ++ more) = (d, more))
    (hm : parseItems fuel depth false more = (ds, ending, rest)) :
    parseItems (fuel + 1) depth true (l.gap level ++ (l.chars level x ++ more)) =
      (d :: ds, ending, rest) := by
  obtain ⟨c, cs, hc, hs, hb⟩ := l.skipSpaces_item level x more
  rw [hc] at hv
  rw [parseItems, hs]
  simp [hv, hm]

theorem parseItems_comma (hv : parseValue fuel depth (l.chars level x ++ more) = (d, more))
    (hm : parseItems fuel depth false more = (ds, ending, rest)) :
    parseItems (fuel + 1) depth false (',' :: (l.gap level ++ (l.chars level x ++ more))) =
      (d :: ds, ending, rest) := by
  obtain ⟨c, cs, hc, hs, hb⟩ := l.skipSpaces_item level x more
  rw [hc] at hv
  rw [parseItems, skipSpaces_cons (by decide)]
  simp [hs, hv, hm]

theorem parseItems_end (l : Layout) (fuel depth level : Nat) (rest : List Char) :
    parseItems (fuel + 1) depth false (l.gap level ++ ']' :: rest) = ([], .closed, rest) := by
  rw [parseItems, skipSpaces_append (l.isSpace_gap level), skipSpaces_cons (by decide)]
  rfl

end Items

section Members

variable {l} {fuel depth level : Nat} (name : String) {x : Json} {d : Draft}
  {ms : List (Literal × Draft)} {ending : Ending} {more rest : List Char}

def memberChars (l : Layout) (level : Nat) (name : String) (x : Json) (more : List Char) :
    List Char :=
  stringChars name ++ ':' :: (l.colonGap ++ (l.chars level x ++ more))

theorem parseMember_written
    (hv : parseValue (fuel + 1) depth (l.chars level x ++ more) = (d, more))
    (hm : parseMembers (fuel + 1) depth false more = (ms, ending, rest)) :
    parseMember (fuel + 2) depth
        (name.toList.flatMap escapeChar ++
          '"' :: ':' :: (l.colonGap ++ (l.chars level x ++ more))) =
      ((writtenLiteral name, d) :: ms, ending, rest) := by
  have hb : parseValue (fuel + 1) depth (l.colonGap ++ (l.chars level x ++ more)) = (d, more) := by
    rw [← hv]
    exact parseValue_congr (skipSpaces_append l.isSpace_colonGap _) fuel depth
  rw [parseMember, scanLiteral_written]
  simp only [skipSpaces_cons (c := ':') (by decide), hb, hm]

theorem skipSpaces_member (l : Layout) (level : Nat) (x : Json) (more : List Char) :
    skipSpaces (l.gap level ++ l.memberChars level name x more) =
      '"' :: (name.toList.flatMap escapeChar ++
        '"' :: ':' :: (l.colonGap ++ (l.chars level x ++ more))) := by
  rw [skipSpaces_append (l.isSpace_gap level), memberChars, stringChars, List.cons_append,
    List.cons_append, skipSpaces_cons (by decide), List.append_assoc, List.singleton_append]

theorem parseMembers_first
    (hv : parseValue (fuel + 1) depth (l.chars level x ++ more) = (d, more))
    (hm : parseMembers (fuel + 1) depth false more = (ms, ending, rest)) :
    parseMembers (fuel + 3) depth true (l.gap level ++ l.memberChars level name x more) =
      ((writtenLiteral name, d) :: ms, ending, rest) := by
  rw [parseMembers, skipSpaces_member]
  exact parseMember_written name hv hm

theorem parseMembers_comma
    (hv : parseValue (fuel + 1) depth (l.chars level x ++ more) = (d, more))
    (hm : parseMembers (fuel + 1) depth false more = (ms, ending, rest)) :
    parseMembers (fuel + 3) depth false
        (',' :: (l.gap level ++ l.memberChars level name x more)) =
      ((writtenLiteral name, d) :: ms, ending, rest) := by
  have hs := skipSpaces_member name l level x more
  have hp := parseMember_written name hv hm
  rw [parseMembers, skipSpaces_cons (by decide)]
  simp [hs, hp]

theorem parseMembers_end (l : Layout) (fuel depth level : Nat) (rest : List Char) :
    parseMembers (fuel + 1) depth false (l.gap level ++ '\x7d' :: rest) =
      ([], .closed, rest) := by
  rw [parseMembers, skipSpaces_append (l.isSpace_gap level), skipSpaces_cons (by decide)]
  rfl

end Members

end Layout

mutual

/-- The draft that a written value is read as, inside `k` lists and objects. -/
def Draft.placed (k : Nat) : Json → Draft
  | .null => .null
  | .bool b => .bool b
  | .number n => .number n.reread?
  | .string s => .string (writtenLiteral s)
  | .list items => .list (depthLimit ≤ k) (Draft.placedItems (k + 1) items) .closed
  | .object fields => .object (depthLimit ≤ k) (Draft.placedFields (k + 1) fields) .closed

def Draft.placedItems (k : Nat) : List Json → List Draft
  | [] => []
  | x :: xs => Draft.placed k x :: Draft.placedItems k xs

def Draft.placedFields (k : Nat) : List (String × Json) → List (Literal × Draft)
  | [] => []
  | (name, x) :: fs => (writtenLiteral name, Draft.placed k x) :: Draft.placedFields k fs

end

namespace Layout

variable {l : Layout}

mutual

/-- The text of a value is parsed into its draft. Three units of fuel for a character are enough:
a member takes three calls before its value is read, and its text is longer than that. -/
theorem parseValue_chars : ∀ (v : Json) (fuel depth level : Nat) (rest : List Char),
    3 * (l.chars level v).length ≤ fuel → endsNumeral rest = true →
      parseValue fuel depth (l.chars level v ++ rest) = (.placed depth v, rest)
  | v, 0, depth, level, rest, hf, _ => by
    obtain ⟨c, cs, hc, -⟩ := l.chars_eq_cons level v
    rw [hc] at hf
    cases hf
  | .null, fuel + 1, depth, level, rest, _, _ => by
    rw [chars, Draft.placed]
    exact parseValue_null fuel depth rest
  | .bool b, fuel + 1, depth, level, rest, _, _ => by
    rw [chars, Draft.placed]
    exact parseValue_bool b fuel depth rest
  | .number x, fuel + 1, depth, level, rest, _, hr => by
    rw [chars, Draft.placed]
    exact parseValue_number x fuel depth hr
  | .string s, fuel + 1, depth, level, rest, _, _ => by
    rw [chars, Draft.placed]
    exact parseValue_string s fuel depth rest
  | .list [], fuel + 1, depth, level, rest, hf, _ => by
    obtain ⟨k, rfl⟩ : ∃ k, fuel = k + 1 := ⟨fuel - 1, by simp [chars] at hf; omega⟩
    rw [chars, Draft.placed, Draft.placedItems]
    exact parseValue_emptyList k depth rest
  | .list (x :: xs), fuel + 1, depth, level, rest, hf, _ => by
    simp only [chars, List.length_cons, List.length_append] at hf
    obtain ⟨k, rfl⟩ : ∃ k, fuel = k + 1 := ⟨fuel - 1, by omega⟩
    have hv := parseValue_chars x k (depth + 1) (level + 1)
      (l.itemsChars level xs ++ rest) (by omega) (l.endsNumeral_itemsChars level xs rest)
    have hi := parseItems_itemsChars xs k (depth + 1) level rest (by omega)
    have hp := parseValue_list (parseItems_first hv hi)
    simpa [chars, Draft.placed, Draft.placedItems] using hp
  | .object [], fuel + 1, depth, level, rest, hf, _ => by
    obtain ⟨k, rfl⟩ : ∃ k, fuel = k + 1 := ⟨fuel - 1, by simp [chars] at hf; omega⟩
    rw [chars, Draft.placed, Draft.placedFields]
    exact parseValue_emptyObject k depth rest
  | .object ((name, x) :: fs), fuel + 1, depth, level, rest, hf, _ => by
    simp only [chars, List.length_cons, List.length_append] at hf
    obtain ⟨k, rfl⟩ : ∃ k, fuel = k + 3 := ⟨fuel - 3, by omega⟩
    have hv := parseValue_chars x (k + 1) (depth + 1) (level + 1)
      (l.fieldsChars level fs ++ rest) (by omega) (l.endsNumeral_fieldsChars level fs rest)
    have hm := parseMembers_fieldsChars fs (k + 1) (depth + 1) level rest (by omega)
    have hp := parseValue_object (parseMembers_first name hv hm)
    simpa [chars, memberChars, Draft.placed, Draft.placedFields] using hp

theorem parseItems_itemsChars : ∀ (xs : List Json) (fuel depth level : Nat) (rest : List Char),
    3 * (l.itemsChars level xs).length ≤ fuel →
      parseItems fuel depth false (l.itemsChars level xs ++ rest) =
        (Draft.placedItems depth xs, .closed, rest)
  | [], fuel, depth, level, rest, hf => by
    simp only [itemsChars, List.length_append, List.length_cons] at hf
    obtain ⟨k, rfl⟩ : ∃ k, fuel = k + 1 := ⟨fuel - 1, by omega⟩
    rw [itemsChars, List.append_assoc, Draft.placedItems]
    exact l.parseItems_end k depth level rest
  | x :: xs, fuel, depth, level, rest, hf => by
    simp only [itemsChars, List.length_cons, List.length_append] at hf
    obtain ⟨k, rfl⟩ : ∃ k, fuel = k + 1 := ⟨fuel - 1, by omega⟩
    have hv := parseValue_chars x k depth (level + 1)
      (l.itemsChars level xs ++ rest) (by omega) (l.endsNumeral_itemsChars level xs rest)
    have hi := parseItems_itemsChars xs k depth level rest (by omega)
    simpa [itemsChars, Draft.placedItems] using parseItems_comma hv hi

theorem parseMembers_fieldsChars :
    ∀ (fs : List (String × Json)) (fuel depth level : Nat) (rest : List Char),
    3 * (l.fieldsChars level fs).length ≤ fuel →
      parseMembers fuel depth false (l.fieldsChars level fs ++ rest) =
        (Draft.placedFields depth fs, .closed, rest)
  | [], fuel, depth, level, rest, hf => by
    simp only [fieldsChars, List.length_append, List.length_cons] at hf
    obtain ⟨k, rfl⟩ : ∃ k, fuel = k + 1 := ⟨fuel - 1, by omega⟩
    rw [fieldsChars, List.append_assoc, Draft.placedFields]
    exact l.parseMembers_end k depth level rest
  | (name, x) :: fs, fuel, depth, level, rest, hf => by
    simp only [fieldsChars, List.length_cons, List.length_append] at hf
    obtain ⟨k, rfl⟩ : ∃ k, fuel = k + 3 := ⟨fuel - 3, by omega⟩
    have hv := parseValue_chars x (k + 1) depth (level + 1)
      (l.fieldsChars level fs ++ rest) (by omega) (l.endsNumeral_fieldsChars level fs rest)
    have hm := parseMembers_fieldsChars fs (k + 1) depth level rest (by omega)
    simpa [fieldsChars, memberChars, Draft.placedFields] using parseMembers_comma name hv hm

end

theorem document_chars (l : Layout) (v : Json) :
    Document.parse (String.ofList (l.chars 0 v)) = ⟨.placed 0 v, false⟩ := by
  have hp := parseValue_chars (l := l) v (3 * (l.chars 0 v).length + 3) 0 0 [] (by omega) rfl
  rw [List.append_nil] at hp
  simp only [Document.parse, String.toList_ofList, hp]
  rfl

end Layout

theorem document_pretty (v : Json) : Document.parse v.pretty = ⟨.placed 0 v, false⟩ := by
  rw [pretty, ← Layout.chars_pretty, Layout.document_chars]

end NativeUi.Json
