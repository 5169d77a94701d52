import NativeUi.Text.Pattern
import Mathlib.Data.List.Basic

/-!
# The texts of a pattern

`Pattern.Matches` says what texts a pattern stands for. Matching character by character accepts
those texts and no others.
-/
namespace NativeUi.Text.Pattern

theorem inRanges_cons (low high : Char) (ranges : List (Char × Char)) (c : Char) :
    inRanges ((low, high) :: ranges) c = true ↔
      (low ≤ c ∧ c ≤ high) ∨ inRanges ranges c = true := by
  simp [inRanges]

inductive Matches : Pattern → List Char → Prop
  | empty : Matches .empty []
  | oneOf {ranges : List (Char × Char)} {c : Char} (hc : inRanges ranges c = true) :
      Matches (.oneOf ranges) [c]
  | chain {p q : Pattern} {xs ys : List Char} (hp : Matches p xs) (hq : Matches q ys) :
      Matches (.chain p q) (xs ++ ys)
  | left {p q : Pattern} {xs : List Char} (hp : Matches p xs) : Matches (.either p q) xs
  | right {p q : Pattern} {xs : List Char} (hq : Matches q xs) : Matches (.either p q) xs
  | stop {p : Pattern} : Matches (.many p) []
  | again {p : Pattern} {xs ys : List Char} (hp : Matches p xs) (hm : Matches (.many p) ys) :
      Matches (.many p) (xs ++ ys)

variable {p q : Pattern} {c : Char} {cs : List Char}

/-! ### The texts of each form -/

theorem not_matches_never : ¬Matches .never cs := by
  intro h
  cases h

theorem matches_empty_iff : Matches .empty cs ↔ cs = [] := by
  constructor
  · intro h
    cases h
    rfl
  · rintro rfl
    exact .empty

theorem matches_oneOf_iff {ranges : List (Char × Char)} :
    Matches (.oneOf ranges) cs ↔ ∃ c, inRanges ranges c = true ∧ cs = [c] := by
  constructor
  · intro h
    cases h with
    | oneOf hc => exact ⟨_, hc, rfl⟩
  · rintro ⟨c, hc, rfl⟩
    exact .oneOf hc

theorem matches_chain_iff :
    Matches (.chain p q) cs ↔ ∃ xs ys, cs = xs ++ ys ∧ Matches p xs ∧ Matches q ys := by
  constructor
  · intro h
    cases h with
    | chain hp hq => exact ⟨_, _, rfl, hp, hq⟩
  · rintro ⟨xs, ys, rfl, hp, hq⟩
    exact .chain hp hq

theorem matches_either_iff : Matches (.either p q) cs ↔ Matches p cs ∨ Matches q cs := by
  constructor
  · intro h
    cases h with
    | left hp => exact .inl hp
    | right hq => exact .inr hq
  · rintro (hp | hq)
    · exact .left hp
    · exact .right hq

theorem matches_many_iff :
    Matches (.many p) cs ↔ ∃ pieces : List (List Char), (∀ x ∈ pieces, Matches p x) ∧
      cs = pieces.flatten := by
  constructor
  · intro h
    generalize hm : Pattern.many p = m at h
    induction h with
    | stop => exact ⟨[], by simp, rfl⟩
    | @again p' xs ys hp _ _ ih =>
      obtain rfl := Pattern.many.inj hm
      obtain ⟨pieces, hall, rfl⟩ := ih rfl
      exact ⟨xs :: pieces, List.forall_mem_cons.mpr ⟨hp, hall⟩, rfl⟩
    | _ => cases hm
  · rintro ⟨pieces, hall, rfl⟩
    induction pieces with
    | nil => exact .stop
    | cons x pieces ih =>
      obtain ⟨hx, hall⟩ := List.forall_mem_cons.mp hall
      exact .again hx (ih hall)

theorem matches_many_cons_iff :
    Matches (.many p) (c :: cs) ↔
      ∃ xs ys, cs = xs ++ ys ∧ Matches p (c :: xs) ∧ Matches (.many p) ys := by
  constructor
  · rw [matches_many_iff]
    rintro ⟨pieces, hall, hcs⟩
    induction pieces with
    | nil => cases hcs
    | cons x pieces ih =>
      obtain ⟨hx, htail⟩ := List.forall_mem_cons.mp hall
      cases x with
      | nil => exact ih htail hcs
      | cons d x =>
        obtain ⟨rfl, rfl⟩ := List.cons.inj hcs
        exact ⟨x, pieces.flatten, rfl, hx, matches_many_iff.mpr ⟨pieces, htail, rfl⟩⟩
  · rintro ⟨xs, ys, rfl, hp, hm⟩
    exact .again hp hm

theorem matches_oneOrMore_iff :
    Matches p.oneOrMore cs ↔ ∃ pieces : List (List Char), pieces ≠ [] ∧
      (∀ x ∈ pieces, Matches p x) ∧ cs = pieces.flatten := by
  rw [oneOrMore, matches_chain_iff]
  constructor
  · rintro ⟨xs, ys, rfl, hp, hm⟩
    obtain ⟨pieces, hall, rfl⟩ := matches_many_iff.mp hm
    exact ⟨xs :: pieces, List.cons_ne_nil _ _, List.forall_mem_cons.mpr ⟨hp, hall⟩, rfl⟩
  · rintro ⟨pieces, hne, hall, rfl⟩
    cases pieces with
    | nil => exact absurd rfl hne
    | cons xs pieces =>
      obtain ⟨hp, htail⟩ := List.forall_mem_cons.mp hall
      exact ⟨xs, pieces.flatten, rfl, hp, matches_many_iff.mpr ⟨pieces, htail, rfl⟩⟩

theorem matches_many_oneOf_iff {ranges : List (Char × Char)} :
    Matches (.many (.oneOf ranges)) cs ↔ ∀ c ∈ cs, inRanges ranges c = true := by
  induction cs with
  | nil => simp [Matches.stop]
  | cons c cs ih =>
    rw [matches_many_cons_iff, List.forall_mem_cons, ← ih]
    constructor
    · rintro ⟨xs, ys, rfl, hp, hm⟩
      obtain ⟨d, hd, h⟩ := matches_oneOf_iff.mp hp
      obtain ⟨rfl, rfl⟩ := List.cons.inj h
      exact ⟨hd, hm⟩
    · rintro ⟨hc, hm⟩
      exact ⟨[], cs, rfl, .oneOf hc, hm⟩

/-! ### Matching -/

theorem matches_followedBy_iff :
    Matches (p.followedBy q) cs ↔ ∃ xs ys, cs = xs ++ ys ∧ Matches p xs ∧ Matches q ys := by
  cases p with
  | never =>
    refine ⟨fun h => absurd h not_matches_never, ?_⟩
    rintro ⟨xs, ys, -, h, -⟩
    exact absurd h not_matches_never
  | empty =>
    constructor
    · intro h
      exact ⟨[], cs, rfl, .empty, h⟩
    · rintro ⟨xs, ys, rfl, h, hq⟩
      rw [matches_empty_iff.mp h]
      exact hq
  | _ => exact matches_chain_iff

theorem matches_orElse_iff : Matches (p.orElse q) cs ↔ Matches p cs ∨ Matches q cs := by
  by_cases hp : p = .never
  · subst hp
    rw [orElse]
    simp [not_matches_never]
  by_cases hq : q = .never
  · subst hq
    rw [orElse]
    · simp [not_matches_never]
    · exact hp
  · rw [orElse]
    · exact matches_either_iff
    · exact hp
    · exact hq

theorem matchesEmpty_iff (p : Pattern) : p.matchesEmpty = true ↔ Matches p [] := by
  induction p with
  | never => simp [matchesEmpty, not_matches_never]
  | empty => simp [matchesEmpty, matches_empty_iff]
  | oneOf ranges => simp [matchesEmpty, matches_oneOf_iff]
  | chain p q hp hq =>
    rw [matchesEmpty, Bool.and_eq_true, hp, hq, matches_chain_iff]
    constructor
    · rintro ⟨hp, hq⟩
      exact ⟨[], [], rfl, hp, hq⟩
    · rintro ⟨xs, ys, h, hp, hq⟩
      obtain ⟨rfl, rfl⟩ := List.append_eq_nil_iff.mp h.symm
      exact ⟨hp, hq⟩
  | either p q hp hq => rw [matchesEmpty, Bool.or_eq_true, hp, hq, matches_either_iff]
  | many p => simp [matchesEmpty, Matches.stop]

theorem matches_after_iff (p : Pattern) : Matches (p.after c) cs ↔ Matches p (c :: cs) := by
  induction p generalizing cs with
  | never => simp [after, not_matches_never]
  | empty => simp [after, not_matches_never, matches_empty_iff]
  | oneOf ranges =>
    rw [after, matches_oneOf_iff]
    split
    · next hc => simp [matches_empty_iff, hc]
    · next hc => simp [not_matches_never, hc]
  | chain p q hp hq =>
    -- the character is taken by the first part, or by the second one if the first can be empty
    have hinside : Matches ((p.after c).followedBy q) cs ↔
        ∃ xs ys, cs = xs ++ ys ∧ Matches p (c :: xs) ∧ Matches q ys := by
      simp only [matches_followedBy_iff, hp]
    have hsplit : Matches (.chain p q) (c :: cs) ↔
        (∃ xs ys, cs = xs ++ ys ∧ Matches p (c :: xs) ∧ Matches q ys) ∨
          (Matches p [] ∧ Matches q (c :: cs)) := by
      rw [matches_chain_iff]
      constructor
      · rintro ⟨xs, ys, h, hp, hq⟩
        cases xs with
        | nil => exact .inr ⟨hp, h ▸ hq⟩
        | cons d xs =>
          obtain ⟨rfl, rfl⟩ := List.cons.inj h
          exact .inl ⟨xs, ys, rfl, hp, hq⟩
      · rintro (⟨xs, ys, rfl, hp, hq⟩ | ⟨hp, hq⟩)
        · exact ⟨c :: xs, ys, rfl, hp, hq⟩
        · exact ⟨[], c :: cs, rfl, hp, hq⟩
    rw [hsplit, ← matchesEmpty_iff, after]
    cases p.matchesEmpty with
    | true => simp [matches_orElse_iff, hinside, hq]
    | false => simp [hinside]
  | either p q hp hq => rw [after, matches_orElse_iff, hp, hq, matches_either_iff]
  | many p hp =>
    rw [after, matches_followedBy_iff, matches_many_cons_iff]
    simp only [hp]

/-- Matching decides what texts a pattern stands for. -/
theorem accepts_iff : p.accepts cs = true ↔ Matches p cs := by
  induction cs generalizing p with
  | nil => exact matchesEmpty_iff p
  | cons c cs ih => rw [accepts, ih, matches_after_iff]

end NativeUi.Text.Pattern
