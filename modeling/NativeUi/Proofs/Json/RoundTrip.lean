import NativeUi.Proofs.Json.Layout
import NativeUi.Proofs.Text.Lines

/-!
# JSON texts read back

The draft that the text of a value is parsed into gives the value back, as long as the nesting is
within the limit and the doubles come back from their texts. A text that is read at all gives a
value within the limit. No two values have the same text, whatever their depth, their names and
their doubles are, and compact texts are single lines.
-/
namespace NativeUi

def Double.ReadsBack (x : Double) : Prop := Number.reread? (.double x) = some (.double x)

instance (x : Double) : Decidable x.ReadsBack := inferInstanceAs (Decidable (_ = _))

-- 1.5 comes back, and 91.07235885489779 comes back as the double behind it
example : Double.ReadsBack ⟨false, 3 * 2 ^ 51, 1022, by decide⟩ := by decide +kernel
example : ¬Double.ReadsBack ⟨false, 6408647521916715, 1028, by decide⟩ := by decide +kernel

namespace Json

mutual

def doubles : Json → List Double
  | .number (.double x) => [x]
  | .list items => doublesItems items
  | .object fields => doublesFields fields
  | _ => []

def doublesItems : List Json → List Double
  | [] => []
  | x :: xs => doubles x ++ doublesItems xs

def doublesFields : List (String × Json) → List Double
  | [] => []
  | (_, x) :: fs => doubles x ++ doublesFields fs

end

theorem doublesFields_append (fs gs : List (String × Json)) :
    doublesFields (fs ++ gs) = doublesFields fs ++ doublesFields gs := by
  induction fs with
  | nil => rfl
  | cons f fs ih => simp [doublesFields, ih]

def ReadsBack (v : Json) : Prop := ∀ x ∈ v.doubles, x.ReadsBack

instance (v : Json) : Decidable v.ReadsBack := inferInstanceAs (Decidable (∀ x ∈ v.doubles, _))

mutual

theorem placed_eq_spelt {k : Nat} : ∀ {v : Json}, v.ReadsBack → k + v.depth ≤ depthLimit →
    Draft.placed k v = Draft.spelt writtenLiteral v
  | .null, _, _ => rfl
  | .bool _, _, _ => rfl
  | .number (.integer i hi), _, _ => by rw [Draft.placed, Draft.spelt, Number.reread?_integer hi]
  | .number (.double x), hr, _ => by
    have hx : x.ReadsBack := hr x (List.mem_singleton_self x)
    rw [Draft.placed, Draft.spelt, hx]
  | .string _, _, _ => rfl
  | .list items, hr, h => by
    rw [depth] at h
    have hk : ¬ depthLimit ≤ k := by omega
    rw [Draft.placed, Draft.spelt, placedItems_eq_spelt hr (by omega), decide_eq_false hk]
  | .object fields, hr, h => by
    rw [depth] at h
    have hk : ¬ depthLimit ≤ k := by omega
    rw [Draft.placed, Draft.spelt, placedFields_eq_spelt hr (by omega), decide_eq_false hk]

theorem placedItems_eq_spelt {k : Nat} : ∀ {xs : List Json}, (∀ x ∈ doublesItems xs, x.ReadsBack) →
    k + depthItems xs ≤ depthLimit →
      Draft.placedItems k xs = Draft.speltItems writtenLiteral xs
  | [], _, _ => rfl
  | x :: xs, hr, h => by
    obtain ⟨hx, hxs⟩ := List.forall_mem_append.mp hr
    rw [depthItems] at h
    rw [Draft.placedItems, Draft.speltItems, placed_eq_spelt hx (by omega),
      placedItems_eq_spelt hxs (by omega)]

theorem placedFields_eq_spelt {k : Nat} : ∀ {fs : List (String × Json)},
    (∀ x ∈ doublesFields fs, x.ReadsBack) → k + depthFields fs ≤ depthLimit →
      Draft.placedFields k fs = Draft.speltFields writtenLiteral fs
  | [], _, _ => rfl
  | (name, x) :: fs, hr, h => by
    obtain ⟨hx, hfs⟩ := List.forall_mem_append.mp hr
    rw [depthFields] at h
    rw [Draft.placedFields, Draft.speltFields, placed_eq_spelt hx (by omega),
      placedFields_eq_spelt hfs (by omega)]

end

theorem readText_pretty {α : Type} (read : Draft → Except ReadError α) {v : Json}
    (hr : v.ReadsBack) (hd : v.depth ≤ depthLimit) :
    readText read v.pretty = read (.spelt writtenLiteral v) := by
  rw [readText, document_pretty, placed_eq_spelt hr (by omega)]
  cases read (.spelt writtenLiteral v) with
  | error e => rfl
  | ok a => rfl

theorem parse_pretty {v : Json} (hr : v.ReadsBack) (hu : v.Unique) (hd : v.depth ≤ depthLimit) :
    parse v.pretty = .ok v := by
  rw [parse, readText_pretty _ hr hd, Draft.value_spelt faithful_writtenLiteral hu]

/-! ### Texts that no two values share -/

theorem writtenLiteral_inj {s t : String} (h : writtenLiteral s = writtenLiteral t) : s = t := by
  have hs := faithful_writtenLiteral s
  rw [h, faithful_writtenLiteral t] at hs
  exact (Except.ok.inj hs).symm

namespace Layout

variable {l : Layout} {level : Nat}

theorem placed_of_chars_append {v w : Json} {rest rest' : List Char} (hr : endsNumeral rest = true)
    (hr' : endsNumeral rest' = true)
    (h : l.chars level v ++ rest = l.chars level w ++ rest') :
    Draft.placed 0 v = Draft.placed 0 w ∧ rest = rest' := by
  generalize hf : 3 * (l.chars level v).length + 3 * (l.chars level w).length = fuel
  have hv := parseValue_chars (l := l) v fuel 0 level rest (by omega) hr
  rw [h, parseValue_chars w fuel 0 level rest' (by omega) hr'] at hv
  exact Prod.mk.inj hv.symm

theorem placed_of_chars {v w : Json} (h : l.chars level v = l.chars level w) :
    Draft.placed 0 v = Draft.placed 0 w := by
  have happend : l.chars level v ++ [] = l.chars level w ++ [] := by rw [h]
  exact (placed_of_chars_append rfl rfl happend).1

theorem placedItems_of_chars {xs ys : List Json}
    (h : l.itemsChars level xs = l.itemsChars level ys) :
    Draft.placedItems 0 xs = Draft.placedItems 0 ys := by
  have hx := parseItems_itemsChars xs (3 * (l.itemsChars level xs).length) 0 level []
    (Nat.le_refl _)
  rw [h, parseItems_itemsChars ys _ 0 level [] (Nat.le_refl _)] at hx
  exact (Prod.mk.inj hx).1.symm

theorem placedFields_of_chars {fs gs : List (String × Json)}
    (h : l.fieldsChars level fs = l.fieldsChars level gs) :
    Draft.placedFields 0 fs = Draft.placedFields 0 gs := by
  have hf := parseMembers_fieldsChars fs (3 * (l.fieldsChars level fs).length) 0 level []
    (Nat.le_refl _)
  rw [h, parseMembers_fieldsChars gs _ 0 level [] (Nat.le_refl _)] at hf
  exact (Prod.mk.inj hf).1.symm

theorem chars_append_cancel {v w : Json} {rest rest' : List Char} (hr : endsNumeral rest = true)
    (hr' : endsNumeral rest' = true)
    (h : l.chars level v ++ rest = l.chars level w ++ rest') :
    l.chars level v = l.chars level w ∧ rest = rest' := by
  obtain ⟨-, rfl⟩ := placed_of_chars_append hr hr' h
  exact ⟨List.append_cancel_right h, rfl⟩

theorem items_cancel {x y : Json} {xs ys : List Json}
    (h : l.gap (level + 1) ++ l.chars (level + 1) x ++ l.itemsChars level xs =
      l.gap (level + 1) ++ l.chars (level + 1) y ++ l.itemsChars level ys) :
    l.chars (level + 1) x = l.chars (level + 1) y ∧
      l.itemsChars level xs = l.itemsChars level ys := by
  have hx := l.endsNumeral_itemsChars level xs []
  have hy := l.endsNumeral_itemsChars level ys []
  rw [List.append_nil] at hx hy
  rw [List.append_assoc, List.append_assoc] at h
  exact chars_append_cancel hx hy (List.append_cancel_left h)

theorem fields_cancel {name : String} {x y : Json} {fs gs : List (String × Json)}
    (h : l.gap (level + 1) ++ stringChars name ++ ':' :: l.colonGap ++ l.chars (level + 1) x ++
        l.fieldsChars level fs =
      l.gap (level + 1) ++ stringChars name ++ ':' :: l.colonGap ++ l.chars (level + 1) y ++
        l.fieldsChars level gs) :
    l.chars (level + 1) x = l.chars (level + 1) y ∧
      l.fieldsChars level fs = l.fieldsChars level gs := by
  have hx := l.endsNumeral_fieldsChars level fs []
  have hy := l.endsNumeral_fieldsChars level gs []
  rw [List.append_nil] at hx hy
  rw [List.append_assoc _ (l.chars _ x), List.append_assoc _ (l.chars _ y)] at h
  exact chars_append_cancel hx hy (List.append_cancel_left h)

mutual

/-- Two values with the same text are the same. Their drafts tell all apart but the numbers, and
these have texts of their own. -/
theorem chars_inj {level : Nat} : ∀ {v w : Json}, l.chars level v = l.chars level w → v = w
  | .null, w, h => by
    cases w with
    | null => rfl
    | _ => cases placed_of_chars h
  | .bool b, w, h => by
    cases w with
    | bool c => rw [Draft.bool.inj (placed_of_chars h)]
    | _ => cases placed_of_chars h
  | .number x, w, h => by
    cases w with
    | number y => rw [Number.text_inj h]
    | _ => cases placed_of_chars h
  | .string s, w, h => by
    cases w with
    | string t => rw [writtenLiteral_inj (Draft.string.inj (placed_of_chars h))]
    | _ => cases placed_of_chars h
  | .list xs, w, h => by
    cases w with
    | list ys =>
      have hp := (Draft.list.inj (placed_of_chars h)).2.1
      match xs, ys with
      | [], [] => rfl
      | [], y :: ys => cases hp
      | x :: xs, [] => cases hp
      | x :: xs, y :: ys =>
        obtain ⟨hx, hxs⟩ := items_cancel (List.cons.inj h).2
        rw [chars_inj hx, itemsChars_inj hxs]
    | _ => cases placed_of_chars h
  | .object fs, w, h => by
    cases w with
    | object gs =>
      have hp := (Draft.object.inj (placed_of_chars h)).2.1
      match fs, gs with
      | [], [] => rfl
      | [], g :: gs => cases hp
      | f :: fs, [] => cases hp
      | (name, x) :: fs, (name', y) :: gs =>
        obtain rfl := writtenLiteral_inj (Prod.mk.inj (List.cons.inj hp).1).1
        obtain ⟨hx, hfs⟩ := fields_cancel (List.cons.inj h).2
        rw [chars_inj hx, fieldsChars_inj hfs]
    | _ => cases placed_of_chars h

theorem itemsChars_inj {level : Nat} : ∀ {xs ys : List Json},
    l.itemsChars level xs = l.itemsChars level ys → xs = ys
  | [], [], _ => rfl
  | [], y :: ys, h => by cases placedItems_of_chars h
  | x :: xs, [], h => by cases placedItems_of_chars h
  | x :: xs, y :: ys, h => by
    obtain ⟨hx, hxs⟩ := items_cancel (List.cons.inj h).2
    rw [chars_inj hx, itemsChars_inj hxs]

theorem fieldsChars_inj {level : Nat} : ∀ {fs gs : List (String × Json)},
    l.fieldsChars level fs = l.fieldsChars level gs → fs = gs
  | [], [], _ => rfl
  | [], g :: gs, h => by cases placedFields_of_chars h
  | f :: fs, [], h => by cases placedFields_of_chars h
  | (name, x) :: fs, (name', y) :: gs, h => by
    have hp := placedFields_of_chars h
    simp only [Draft.placedFields, List.cons.injEq, Prod.mk.injEq] at hp
    obtain rfl := writtenLiteral_inj hp.1.1
    obtain ⟨hx, hfs⟩ := fields_cancel (List.cons.inj h).2
    rw [chars_inj hx, fieldsChars_inj hfs]

end

end Layout

theorem pretty_inj {v w : Json} (h : v.pretty = w.pretty) : v = w := by
  rw [pretty, pretty, ← Layout.chars_pretty, ← Layout.chars_pretty] at h
  exact Layout.chars_inj (String.ofList_injective h)

theorem compactChars_inj {v w : Json} (h : compactChars v = compactChars w) : v = w := by
  rw [← Layout.chars_compact 0, ← Layout.chars_compact 0] at h
  exact Layout.chars_inj h

/-! ### Compact texts are lines -/

section Line

open Text (IsLine)

theorem isLine_of_isDigit {cs : List Char} (h : ∀ c ∈ cs, c.isDigit = true) : IsLine cs :=
  fun c hc => ⟨ne_of_isDigit (h c hc) (by decide), ne_of_isDigit (h c hc) (by decide)⟩

theorem isLine_exponentChars (e : Option Int) : IsLine (Numeral.exponentChars e) := by
  cases e with
  | none => exact Text.isLine_of_all (by decide)
  | some e =>
    have hd : IsLine (Text.decimalChars e.natAbs) :=
      isLine_of_isDigit fun _ => Text.isDigit_of_mem_decimalChars
    refine (hd.cons ?_).cons (by decide)
    split <;> decide

theorem isLine_number (x : Number) : IsLine x.text := by
  obtain ⟨n, hn, ht, -⟩ := exists_numeral x
  have hfraction : IsLine (if n.fraction.isEmpty then [] else '.' :: n.fraction) := by
    split
    · exact Text.isLine_of_all rfl
    · exact (isLine_of_isDigit hn.fraction).cons (by decide)
  have hchars : IsLine n.chars :=
    ((isLine_of_isDigit hn.whole).append hfraction).append (isLine_exponentChars n.exponent)
  rw [ht, Numeral.text]
  split
  · exact hchars.cons (by decide)
  · exact hchars

theorem escapeChar_of_le {c : Char} (h : 0x20 ≤ c.toNat) (hq : c ≠ '"') (hb : c ≠ '\\') :
    escapeChar c = [c] := by
  have hne {y : Char} (hy : y.toNat < 0x20) : c ≠ y := by
    rintro rfl
    omega
  rw [escapeChar, if_neg hq, if_neg hb, if_neg (hne (by decide)), if_neg (hne (by decide)),
    if_neg (hne (by decide)), if_neg (hne (by decide)), if_neg (hne (by decide)),
    if_neg (Nat.not_lt.mpr h)]

theorem le_of_mem_escapeChar {c x : Char} (h : x ∈ escapeChar c) : 0x20 ≤ x.toNat := by
  have hlist {cs : List Char} (hall : (cs.all fun y => 0x20 ≤ y.toNat) = true) (hx : x ∈ cs) :
      0x20 ≤ x.toNat := by simpa using List.all_eq_true.mp hall x hx
  by_cases hc : 0x20 ≤ c.toNat
  · by_cases hq : c = '"'
    · exact hlist (by decide) (hq ▸ h)
    by_cases hb : c = '\\'
    · exact hlist (by decide) (hb ▸ h)
    rw [escapeChar_of_le hc hq hb, List.mem_singleton] at h
    exact h ▸ hc
  · have hall : ∀ n < 0x20, ((escapeChar (Char.ofNat n)).all fun y => 0x20 ≤ y.toNat) = true := by
      decide
    have hlow := hall c.toNat (Nat.not_le.mp hc)
    rw [Char.ofNat_toNat] at hlow
    exact hlist hlow h

theorem isLine_stringChars (s : String) : IsLine (stringChars s) := by
  have hs : IsLine (s.toList.flatMap escapeChar) := by
    intro x hx
    obtain ⟨c, -, hc⟩ := List.mem_flatMap.mp hx
    have hle := le_of_mem_escapeChar hc
    constructor
    · rintro rfl
      exact absurd hle (by decide)
    · rintro rfl
      exact absurd hle (by decide)
  exact (hs.cons (by decide)).append (Text.isLine_of_all (by decide))

mutual

theorem isLine_compactChars : ∀ v : Json, IsLine (compactChars v)
  | .null => Text.isLine_of_all (by decide)
  | .bool true => Text.isLine_of_all (by decide)
  | .bool false => Text.isLine_of_all (by decide)
  | .number n => isLine_number n
  | .string s => isLine_stringChars s
  | .list [] => Text.isLine_of_all (by decide)
  | .list (x :: xs) => ((isLine_compactChars x).cons (by decide)).append (isLine_compactItems xs)
  | .object [] => Text.isLine_of_all (by decide)
  | .object ((name, x) :: fs) =>
    (((isLine_stringChars name).cons (by decide)).append
      ((isLine_compactChars x).cons (by decide))).append (isLine_compactFields fs)

theorem isLine_compactItems : ∀ xs : List Json, IsLine (compactItems xs)
  | [] => Text.isLine_of_all (by decide)
  | x :: xs => ((isLine_compactChars x).cons (by decide)).append (isLine_compactItems xs)

theorem isLine_compactFields : ∀ fs : List (String × Json), IsLine (compactFields fs)
  | [] => Text.isLine_of_all (by decide)
  | (name, x) :: fs =>
    (((isLine_stringChars name).cons (by decide)).append
      ((isLine_compactChars x).cons (by decide))).append (isLine_compactFields fs)

end

end Line

/-! ### The limit -/

mutual

theorem value_placed_of_deep {k : Nat} : ∀ {v : Json}, v.ReadsBack → v.Unique → k ≤ depthLimit →
    depthLimit < k + v.depth → (Draft.placed k v).value = .error .tooDeep
  | .null, _, _, hk, h => absurd h (Nat.not_lt.mpr hk)
  | .bool _, _, _, hk, h => absurd h (Nat.not_lt.mpr hk)
  | .number _, _, _, hk, h => absurd h (Nat.not_lt.mpr hk)
  | .string _, _, _, hk, h => absurd h (Nat.not_lt.mpr hk)
  | .list items, hr, hu, hk, h => by
    rw [depth] at h
    rw [Draft.placed, Draft.value]
    by_cases hl : depthLimit ≤ k
    · rw [if_pos (decide_eq_true hl)]
    · rw [if_neg (by simp [hl]), valueItems_placed_of_deep hr hu (by omega) (by omega)]
      rfl
  | .object fields, hr, hu, hk, h => by
    rw [depth] at h
    rw [Draft.placed, Draft.value]
    by_cases hl : depthLimit ≤ k
    · rw [if_pos (decide_eq_true hl)]
    · rw [if_neg (by simp [hl]), valueMembers_placed_of_deep hr hu.2 (by omega) (by omega)]
      rfl

theorem valueItems_placed_of_deep {k : Nat} : ∀ {xs : List Json},
    (∀ x ∈ doublesItems xs, x.ReadsBack) → UniqueItems xs →
    k ≤ depthLimit → depthLimit < k + depthItems xs →
      Draft.valueItems (Draft.placedItems k xs) = .error .tooDeep
  | [], _, _, hk, h => absurd h (Nat.not_lt.mpr hk)
  | x :: xs, hr, hu, hk, h => by
    obtain ⟨hrx, hrxs⟩ := List.forall_mem_append.mp hr
    rw [depthItems] at h
    rw [Draft.placedItems, Draft.valueItems]
    by_cases hx : k + x.depth ≤ depthLimit
    · rw [placed_eq_spelt hrx hx, Draft.value_spelt faithful_writtenLiteral hu.1, ok_bind,
        valueItems_placed_of_deep hrxs hu.2 hk (by omega)]
      rfl
    · rw [value_placed_of_deep hrx hu.1 hk (by omega)]
      rfl

theorem valueMembers_placed_of_deep {k : Nat} : ∀ {fs : List (String × Json)}
    {seen : Fields Json}, (∀ x ∈ doublesFields fs, x.ReadsBack) → UniqueFields fs →
    k ≤ depthLimit → depthLimit < k + depthFields fs →
      Draft.valueMembers seen (Draft.placedFields k fs) = .error .tooDeep
  | [], _, _, _, hk, h => absurd h (Nat.not_lt.mpr hk)
  | (name, x) :: fs, seen, hr, hu, hk, h => by
    obtain ⟨hrx, hrfs⟩ := List.forall_mem_append.mp hr
    rw [depthFields] at h
    rw [Draft.placedFields, Draft.valueMembers, faithful_writtenLiteral, ok_bind]
    by_cases hx : k + x.depth ≤ depthLimit
    · rw [placed_eq_spelt hrx hx, Draft.value_spelt faithful_writtenLiteral hu.1, ok_bind]
      exact valueMembers_placed_of_deep hrfs hu.2 hk (by omega)
    · rw [value_placed_of_deep hrx hu.1 hk (by omega)]
      rfl

end

theorem parse_pretty_of_deep {v : Json} (hr : v.ReadsBack) (hu : v.Unique)
    (hd : depthLimit < v.depth) : parse v.pretty = .error .tooDeep := by
  rw [parse, readText, document_pretty,
    value_placed_of_deep hr hu (Nat.zero_le _) (by rwa [Nat.zero_add])]
  rfl

mutual

/-- What is not marked as too deep stands inside fewer lists and objects than the limit; the draft
itself stands inside `k` of them. -/
def Draft.Within (k : Nat) : Draft → Prop
  | .list deep items _ => (deep = false → k < depthLimit) ∧ Draft.WithinItems (k + 1) items
  | .object deep members _ => (deep = false → k < depthLimit) ∧ Draft.WithinMembers (k + 1) members
  | _ => True

def Draft.WithinItems (k : Nat) : List Draft → Prop
  | [] => True
  | d :: ds => Draft.Within k d ∧ Draft.WithinItems k ds

def Draft.WithinMembers (k : Nat) : List (Literal × Draft) → Prop
  | [] => True
  | (_, d) :: ms => Draft.Within k d ∧ Draft.WithinMembers k ms

end

theorem within_wordDraft {d : Draft} {k : Nat} (h : d.Within k) (word cs : List Char) :
    (wordDraft d word cs).1.Within k := by
  unfold wordDraft
  split
  · exact h
  · trivial

theorem within_numberDraft (negative : Bool) (k : Nat) (cs : List Char) :
    (numberDraft negative cs).1.Within k := by
  unfold numberDraft
  split <;> trivial

theorem within_parse (fuel : Nat) :
    (∀ k cs, (parseValue fuel k cs).1.Within k) ∧
    (∀ k first cs, Draft.WithinItems k (parseItems fuel k first cs).1) ∧
    (∀ k first cs, Draft.WithinMembers k (parseMembers fuel k first cs).1) ∧
    (∀ k cs, Draft.WithinMembers k (parseMember fuel k cs).1) := by
  induction fuel with
  | zero => refine ⟨?_, ?_, ?_, ?_⟩ <;> intros <;> trivial
  | succ fuel ih =>
    -- lists and objects are marked from the limit on; all else only passes on what its parts are
    obtain ⟨hv, hi, hm, hp⟩ := ih
    refine ⟨fun k cs => ?_, fun k first cs => ?_, fun k first cs => ?_, fun k cs => ?_⟩
    · rw [parseValue]
      split
      · trivial
      · trivial
      · exact ⟨by simp, hi _ _ _⟩
      · exact ⟨by simp, hm _ _ _⟩
      · exact within_wordDraft (by trivial) _ _
      · exact within_wordDraft (by trivial) _ _
      · exact within_wordDraft (by trivial) _ _
      · exact within_numberDraft _ _ _
      · split
        · exact within_numberDraft _ _ _
        · trivial
    · rw [parseItems]
      split
      · trivial
      · trivial
      · split_ifs with h1 h2
        · exact ⟨hv _ _, hi _ _ _⟩
        · split
          · trivial
          · trivial
          · exact ⟨hv _ _, hi _ _ _⟩
        · trivial
    · rw [parseMembers]
      split
      · trivial
      · trivial
      · split_ifs with h1 h2 h3
        · exact hp _ _
        · trivial
        · split
          · trivial
          · exact hp _ _
          · trivial
          · trivial
        · trivial
    · rw [parseMember]
      dsimp only
      split
      · exact ⟨trivial, trivial⟩
      · exact ⟨hv _ _, hm _ _ _⟩
      · exact ⟨trivial, trivial⟩

mutual

theorem depth_of_value {k : Nat} : ∀ {d : Draft} {v : Json}, d.Within k → d.value = .ok v →
    v.depth ≤ depthLimit - k
  | .null, v, _, h => by simp [← Except.ok.inj h, depth]
  | .bool b, v, _, h => by simp [← Except.ok.inj h, depth]
  | .number none, v, _, h => by simp [Draft.value] at h
  | .number (some n), v, _, h => by simp [← Except.ok.inj h, depth]
  | .string l, v, _, h => by
    rw [Draft.value, bind_eq_ok_iff] at h
    obtain ⟨s, -, hs⟩ := h
    simp [← Except.ok.inj hs, depth]
  | .list deep items ending, v, hw, h => by
    cases deep with
    | true => simp [Draft.value] at h
    | false =>
      simp only [Draft.value, Bool.false_eq_true, if_false, bind_eq_ok_iff] at h
      obtain ⟨xs, hx, -, -, hs⟩ := h
      obtain rfl := Except.ok.inj hs
      have hk := hw.1 rfl
      have hi := depth_of_valueItems hw.2 hx
      rw [depth]
      omega
  | .object deep members ending, v, hw, h => by
    cases deep with
    | true => simp [Draft.value] at h
    | false =>
      simp only [Draft.value, Bool.false_eq_true, if_false, bind_eq_ok_iff] at h
      obtain ⟨fs, hf, -, -, hs⟩ := h
      obtain rfl := Except.ok.inj hs
      have hk := hw.1 rfl
      have hm := depth_of_valueMembers hw.2 (Nat.zero_le _) hf
      rw [depth]
      omega
  | .fault f, v, _, h => by simp [Draft.value] at h

theorem depth_of_valueItems {k : Nat} : ∀ {ds : List Draft} {xs : List Json},
    Draft.WithinItems k ds → Draft.valueItems ds = .ok xs → depthItems xs ≤ depthLimit - k
  | [], xs, _, h => by simp [← Except.ok.inj h, depthItems]
  | d :: ds, xs, hw, h => by
    simp only [Draft.valueItems, bind_eq_ok_iff] at h
    obtain ⟨y, hy, ys, hys, hs⟩ := h
    obtain rfl := Except.ok.inj hs
    exact Nat.max_le.mpr ⟨depth_of_value hw.1 hy, depth_of_valueItems hw.2 hys⟩

theorem depth_of_valueMembers {k : Nat} :
    ∀ {ms : List (Literal × Draft)} {seen fs : Fields Json},
    Draft.WithinMembers k ms → depthFields seen ≤ depthLimit - k →
    Draft.valueMembers seen ms = .ok fs → depthFields fs ≤ depthLimit - k
  | [], seen, fs, _, hs, h => by
    rw [Draft.valueMembers, Except.ok.injEq] at h
    exact h ▸ hs
  | (l, d) :: ms, seen, fs, hw, hs, h => by
    simp only [Draft.valueMembers, bind_eq_ok_iff] at h
    obtain ⟨name, -, x, hx, hm⟩ := h
    refine depth_of_valueMembers hw.2 ?_ hm
    rw [depthFields_le_iff] at hs ⊢
    intro f hf
    rcases Fields.mem_insert hf with rfl | hf
    · exact depth_of_value hw.1 hx
    · exact hs f hf

end

theorem root_of_readText {α : Type} {read : Draft → Except ReadError α} {text : String} {a : α}
    (h : readText read text = .ok a) : read (Document.parse text).root = .ok a := by
  rw [readText, bind_eq_ok_iff] at h
  obtain ⟨b, hb, h⟩ := h
  split at h
  · cases h
  · rw [hb, Except.ok.inj h]

theorem unique_of_parse {text : String} {v : Json} (h : parse text = .ok v) :
    v.Unique ∧ v.depth ≤ depthLimit := by
  have hv := root_of_readText h
  have hp := (within_parse (3 * text.toList.length + 3)).1 0 text.toList
  exact ⟨Draft.unique_of_value hv, depth_of_value hp hv⟩

end Json

end NativeUi
