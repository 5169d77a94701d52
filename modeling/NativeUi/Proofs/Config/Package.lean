import NativeUi.Config
import NativeUi.Proofs.Text.Pattern

/-!
# Package identifiers

A configuration has to pass three checks. The pattern in the first of them stands for the texts that
are cut at their dots into two identifiers or more.
-/
namespace NativeUi.Config

open NativeUi.Text

/-! ### Identifiers -/

def isIdentifier : List Char → Bool
  | [] => false
  | c :: cs => c.isAlpha && cs.all fun c => c.isAlphanum || c == '_'

theorem mem_identifier {cs : List Char} (h : isIdentifier cs = true) {c : Char} (hc : c ∈ cs) :
    (c.isAlphanum || c == '_') = true := by
  cases cs with
  | nil => cases hc
  | cons d cs =>
    obtain ⟨hd, hcs⟩ := (Bool.and_eq_true _ _).mp h
    rcases List.mem_cons.mp hc with rfl | hc
    · simp [Char.isAlphanum, hd]
    · exact List.all_eq_true.mp hcs c hc

theorem dot_not_mem_identifier {cs : List Char} (h : isIdentifier cs = true) : '.' ∉ cs :=
  fun hc => absurd (mem_identifier h hc) (by decide)

theorem isUpper_iff (c : Char) : c.isUpper = true ↔ 'A' ≤ c ∧ c ≤ 'Z' := decide_eq_true_iff

theorem isLower_iff (c : Char) : c.isLower = true ↔ 'a' ≤ c ∧ c ≤ 'z' := by
  change (decide ('a' ≤ c) && decide (c ≤ 'z')) = true ↔ _
  rw [Bool.and_eq_true, decide_eq_true_iff, decide_eq_true_iff]

theorem isDigit_iff (c : Char) : c.isDigit = true ↔ '0' ≤ c ∧ c ≤ '9' := by
  change (decide ('0' ≤ c) && decide (c ≤ '9')) = true ↔ _
  rw [Bool.and_eq_true, decide_eq_true_iff, decide_eq_true_iff]

theorem eq_iff_between (c d : Char) : c = d ↔ d ≤ c ∧ c ≤ d := by
  constructor
  · rintro rfl
    exact ⟨Char.le_refl c, Char.le_refl c⟩
  · rintro ⟨h1, h2⟩
    exact Char.le_antisymm h2 h1

theorem inRanges_letter (c : Char) :
    Pattern.inRanges [('A', 'Z'), ('a', 'z')] c = c.isAlpha := by
  have halpha : c.isAlpha = (c.isUpper || c.isLower) := rfl
  rw [Bool.eq_iff_iff, halpha, Bool.or_eq_true, isUpper_iff, isLower_iff,
    Pattern.inRanges_cons, Pattern.inRanges_cons]
  simp [Pattern.inRanges]

theorem inRanges_word (c : Char) :
    Pattern.inRanges [('A', 'Z'), ('a', 'z'), ('0', '9'), ('_', '_')] c =
      (c.isAlphanum || c == '_') := by
  have hword : c.isAlphanum = (c.isUpper || c.isLower || c.isDigit) := rfl
  rw [Bool.eq_iff_iff, hword, Bool.or_eq_true, Bool.or_eq_true, Bool.or_eq_true, isUpper_iff,
    isLower_iff, isDigit_iff, beq_iff_eq, eq_iff_between, Pattern.inRanges_cons,
    Pattern.inRanges_cons, Pattern.inRanges_cons, Pattern.inRanges_cons]
  simp [Pattern.inRanges, or_assoc]

theorem matches_identifier_iff {cs : List Char} :
    Pattern.Matches identifierPattern cs ↔ isIdentifier cs = true := by
  rw [identifierPattern, Pattern.matches_chain_iff]
  constructor
  · rintro ⟨xs, ys, rfl, hx, hy⟩
    obtain ⟨c, hc, rfl⟩ := Pattern.matches_oneOf_iff.mp hx
    rw [Pattern.matches_many_oneOf_iff] at hy
    rw [inRanges_letter] at hc
    refine (Bool.and_eq_true _ _).mpr ⟨hc, List.all_eq_true.mpr ?_⟩
    intro d hd
    rw [← inRanges_word]
    exact hy d hd
  · intro h
    cases cs with
    | nil => cases h
    | cons c cs =>
      obtain ⟨hc, hcs⟩ := (Bool.and_eq_true _ _).mp h
      refine ⟨[c], cs, rfl, .oneOf ((inRanges_letter c).trans hc), ?_⟩
      rw [Pattern.matches_many_oneOf_iff]
      intro d hd
      rw [inRanges_word]
      exact List.all_eq_true.mp hcs d hd

theorem matches_dotIdentifier_iff {cs : List Char} :
    Pattern.Matches (.chain (.oneOf [('.', '.')]) identifierPattern) cs ↔
      ∃ w, isIdentifier w = true ∧ cs = '.' :: w := by
  rw [Pattern.matches_chain_iff]
  constructor
  · rintro ⟨xs, w, rfl, hx, hw⟩
    obtain ⟨c, hc, rfl⟩ := Pattern.matches_oneOf_iff.mp hx
    have hdot : c = '.' := by
      rw [eq_iff_between]
      simpa [Pattern.inRanges_cons, Pattern.inRanges] using hc
    exact ⟨w, matches_identifier_iff.mp hw, by rw [hdot]; rfl⟩
  · rintro ⟨w, hw, rfl⟩
    exact ⟨['.'], w, rfl, .oneOf (by decide), matches_identifier_iff.mpr hw⟩

theorem exists_map_of_dotIdentifiers {pieces : List (List Char)}
    (h : ∀ x ∈ pieces, ∃ w, isIdentifier w = true ∧ x = '.' :: w) :
    ∃ ws : List (List Char), (∀ w ∈ ws, isIdentifier w = true) ∧ pieces = ws.map ('.' :: ·) := by
  induction pieces with
  | nil => exact ⟨[], by simp, rfl⟩
  | cons x pieces ih =>
    obtain ⟨⟨w, hw, rfl⟩, htail⟩ := List.forall_mem_cons.mp h
    obtain ⟨ws, hws, rfl⟩ := ih htail
    exact ⟨w :: ws, List.forall_mem_cons.mpr ⟨hw, hws⟩, rfl⟩

theorem matches_package_iff {cs : List Char} :
    Pattern.Matches packagePattern cs ↔ ∃ w ws, isIdentifier w = true ∧ ws ≠ [] ∧
      (∀ x ∈ ws, isIdentifier x = true) ∧ cs = w ++ ws.flatMap ('.' :: ·) := by
  simp only [packagePattern, Pattern.matches_chain_iff (p := identifierPattern),
    matches_identifier_iff, Pattern.matches_oneOrMore_iff, matches_dotIdentifier_iff]
  constructor
  · rintro ⟨w, ys, rfl, hw, pieces, hne, hall, rfl⟩
    obtain ⟨ws, hws, rfl⟩ := exists_map_of_dotIdentifiers hall
    exact ⟨w, ws, hw, fun h => hne (by rw [h, List.map_nil]), hws, by rw [List.flatMap_def]⟩
  · rintro ⟨w, ws, hw, hne, hws, rfl⟩
    refine ⟨w, _, rfl, hw, ws.map ('.' :: ·), by simpa using hne, ?_, List.flatMap_def⟩
    intro x hx
    obtain ⟨w', hw', rfl⟩ := List.mem_map.mp hx
    exact ⟨w', hws w' hw', rfl⟩

theorem intercalate_dot (w : List Char) (ws : List (List Char)) :
    ['.'].intercalate (w :: ws) = w ++ ws.flatMap ('.' :: ·) := by
  induction ws generalizing w with
  | nil => simp
  | cons x ws ih => simp [List.intercalate_cons_cons, ih]

theorem isDotted_iff {id : String} :
    isDotted id = true ↔ 2 ≤ (id.toList.splitOn '.').length ∧
      ∀ piece ∈ id.toList.splitOn '.', isIdentifier piece = true := by
  rw [isDotted, Pattern.accepts_iff, matches_package_iff]
  constructor
  · rintro ⟨w, ws, hw, hne, hws, h⟩
    have hall : ∀ x ∈ w :: ws, isIdentifier x = true := List.forall_mem_cons.mpr ⟨hw, hws⟩
    have hsplit : id.toList.splitOn '.' = w :: ws := by
      rw [h, ← intercalate_dot]
      exact List.splitOn_intercalate '.' (fun x hx => dot_not_mem_identifier (hall x hx))
        (List.cons_ne_nil w ws)
    have hlen := List.length_pos_of_ne_nil hne
    rw [hsplit, List.length_cons]
    exact ⟨by omega, hall⟩
  · rintro ⟨hlen, hall⟩
    have h : ['.'].intercalate (id.toList.splitOn '.') = id.toList := List.intercalate_splitOn '.'
    cases hs : id.toList.splitOn '.' with
    | nil => exact absurd hs (List.splitOn_ne_nil '.' id.toList)
    | cons w ws =>
      rw [hs] at hlen hall h
      rw [intercalate_dot] at h
      obtain ⟨hw, hws⟩ := List.forall_mem_cons.mp hall
      refine ⟨w, ws, hw, ?_, hws, h.symm⟩
      rintro rfl
      simp at hlen

example : ["a.b", "aZ.b9_.C", "a", "a.b.", "a..b", "a.9b", "a.é", "a.b\n"].map isDotted =
    [true, true, false, false, false, false, false, false] := by decide

/-! ### The three checks -/

theorem validate_eq_ok_iff {c : Config} :
    c.validate = .ok () ↔ isDotted c.packageId = true ∧ isProjectName c.project.name = true ∧
      c.build.webCommand ≠ [] := by
  rw [validate]
  cases isDotted c.packageId with
  | false => simp
  | true =>
    cases isProjectName c.project.name with
    | false => simp
    | true => cases c.build.webCommand <;> simp

end NativeUi.Config
