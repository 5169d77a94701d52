import Mathlib.Data.List.Induction
import NativeUi.Text.Lines

/-!
# Lines of a text that was put together from lines

Lines without feeds and returns, put together with a line feed after each or between them, are what
the text is cut into again.
-/
namespace NativeUi.Text

def IsLine (cs : List Char) : Prop := ∀ c ∈ cs, c ≠ '\n' ∧ c ≠ '\r'

theorem IsLine.append {cs ds : List Char} (hc : IsLine cs) (hd : IsLine ds) : IsLine (cs ++ ds) :=
  fun x hx => (List.mem_append.mp hx).elim (hc x) (hd x)

theorem IsLine.cons {c : Char} {cs : List Char} (h : IsLine cs) (hc : c ≠ '\n' ∧ c ≠ '\r') :
    IsLine (c :: cs) :=
  List.forall_mem_cons.mpr ⟨hc, h⟩

theorem isLine_of_all {cs : List Char} (h : (cs.all fun c => c != '\n' && c != '\r') = true) :
    IsLine cs := by
  intro c hc
  simpa using List.all_eq_true.mp h c hc

theorem append_cons_inj {a : Char} {x y r s : List Char} (hx : a ∉ x) (hy : a ∉ y)
    (h : x ++ a :: r = y ++ a :: s) : x = y ∧ r = s := by
  induction x generalizing y with
  | nil =>
    cases y with
    | nil => exact ⟨rfl, (List.cons.inj h).2⟩
    | cons c y => exact absurd (List.cons.inj h).1 (fun he => hy (by simp [← he]))
  | cons b x ih =>
    cases y with
    | nil => exact absurd (List.cons.inj h).1 (fun he => hx (by simp [he]))
    | cons c y =>
      obtain ⟨rfl, ht⟩ := List.cons.inj h
      simp only [List.mem_cons, not_or] at hx hy
      obtain ⟨rfl, rfl⟩ := ih hx.2 hy.2 ht
      exact ⟨rfl, rfl⟩

theorem replicate_append_inj {a b : Nat} {c : Char} {x y : List Char} (hx : x.head? ≠ some c)
    (hy : y.head? ≠ some c) (h : List.replicate a c ++ x = List.replicate b c ++ y) :
    a = b ∧ x = y := by
  induction a generalizing b with
  | zero =>
    cases b with
    | zero => exact ⟨rfl, h⟩
    | succ b => exact absurd (congrArg List.head? h) (by simpa [List.replicate_succ] using hx)
  | succ a ih =>
    cases b with
    | zero =>
      exact absurd (congrArg List.head? h).symm (by simpa [List.replicate_succ] using hy)
    | succ b =>
      obtain ⟨hn, he⟩ := ih (List.cons.inj h).2
      exact ⟨congrArg Nat.succ hn, he⟩

theorem map_inj_of_forall {α β : Type} {f : α → β} {P : α → Prop}
    (hf : ∀ a b, P a → P b → f a = f b → a = b) {as bs : List α} (ha : ∀ a ∈ as, P a)
    (hb : ∀ b ∈ bs, P b) (h : as.map f = bs.map f) : as = bs := by
  induction as generalizing bs with
  | nil => exact (List.map_eq_nil_iff.mp h.symm).symm
  | cons a as ih =>
    cases bs with
    | nil => simp at h
    | cons b bs =>
      obtain ⟨he, ht⟩ := List.cons.inj h
      rw [hf a b (ha a List.mem_cons_self) (hb b List.mem_cons_self) he,
        ih (fun x hx => ha x (.tail _ hx)) (fun x hx => hb x (.tail _ hx)) ht]

theorem splitLines_cons {c : Char} (hn : c ≠ '\n') (hr : c ≠ '\r') (cs : List Char) :
    splitLines (c :: cs) =
      match splitLines cs with
      | [] => [[c]]
      | line :: lines => (c :: line) :: lines := by
  rw [splitLines.eq_def]
  split
  · next he => exact absurd he (by simp)
  · next he => exact absurd (List.cons.inj he).1 hn
  · next he => exact absurd (List.cons.inj he).1 hr
  · next he =>
    obtain ⟨rfl, rfl⟩ := List.cons.inj he
    rfl

theorem splitLines_append_newline {line : List Char} (h : IsLine line) (rest : List Char) :
    splitLines (line ++ '\n' :: rest) = line :: splitLines rest := by
  induction line with
  | nil => simp [splitLines]
  | cons c line ih =>
    obtain ⟨hn, hr⟩ := h c (by simp)
    have hl : IsLine line := fun x hx => h x (by simp [hx])
    rw [List.cons_append, splitLines_cons hn hr, ih hl]

theorem splitLines_line {line : List Char} (h : IsLine line) (hne : line ≠ []) :
    splitLines line = [line] := by
  induction line with
  | nil => exact absurd rfl hne
  | cons c line ih =>
    obtain ⟨hn, hr⟩ := h c (by simp)
    have hl : IsLine line := fun x hx => h x (by simp [hx])
    rw [splitLines_cons hn hr]
    cases line with
    | nil => simp [splitLines]
    | cons d line => rw [ih hl (by simp)]

def feedAll (ls : List (List Char)) : List Char := ls.flatMap fun line => line ++ ['\n']

@[simp] theorem feedAll_nil : feedAll [] = [] := rfl

@[simp] theorem feedAll_cons (line : List Char) (ls : List (List Char)) :
    feedAll (line :: ls) = line ++ '\n' :: feedAll ls := by
  simp [feedAll]

@[simp] theorem feedAll_append (ks ls : List (List Char)) :
    feedAll (ks ++ ls) = feedAll ks ++ feedAll ls := by
  simp [feedAll]

theorem toList_ofLines (ls : List String) :
    (ofLines ls).toList = feedAll (ls.map String.toList) := by
  rw [ofLines, String.toList_join, feedAll, List.flatMap_map, List.flatMap_map]
  simp only [String.toList_append]
  rfl

theorem map_toList_of_forall₂ {ls : List String} {css : List (List Char)}
    (h : List.Forall₂ (fun s cs => s = String.ofList cs) ls css) : ls.map String.toList = css := by
  induction h with
  | nil => rfl
  | cons h _ ih => rw [List.map_cons, h, String.toList_ofList, ih]

theorem toList_ofLines_of_forall₂ {ls : List String} {css : List (List Char)}
    (h : List.Forall₂ (fun s cs => s = String.ofList cs) ls css) :
    (ofLines ls).toList = feedAll css := by
  rw [toList_ofLines, map_toList_of_forall₂ h]

theorem splitLines_feedAll_append {ls : List (List Char)} (h : ∀ line ∈ ls, IsLine line)
    (rest : List Char) : splitLines (feedAll ls ++ rest) = ls ++ splitLines rest := by
  induction ls with
  | nil => rfl
  | cons line ls ih =>
    have hl := h line (by simp)
    rw [feedAll_cons, List.append_assoc, List.cons_append, splitLines_append_newline hl,
      ih fun x hx => h x (by simp [hx]), List.cons_append]

def joinLines (ls : List (List Char)) : List Char := List.intercalate ['\n'] ls

theorem joinLines_append_singleton (ls : List (List Char)) (line : List Char) :
    joinLines (ls ++ [line]) = feedAll ls ++ line := by
  induction ls with
  | nil => simp [joinLines]
  | cons first ls ih =>
    have hne : ls ++ [line] ≠ [] := by simp
    obtain ⟨second, more, he⟩ := List.exists_cons_of_ne_nil hne
    unfold joinLines at ih ⊢
    rw [List.cons_append, he, List.intercalate_cons_cons, ← he, ih]
    simp

theorem joinLines_newline {ls : List (List Char)} (h : ls ≠ []) :
    joinLines ls ++ ['\n'] = feedAll ls := by
  cases ls using List.reverseRecOn with
  | nil => exact absurd rfl h
  | append_singleton ls line => simp [joinLines_append_singleton]

theorem splitLines_joinLines {ls : List (List Char)} (h : ∀ line ∈ ls, IsLine line)
    (hne : ∀ line ∈ ls, line ≠ []) : splitLines (joinLines ls) = ls := by
  cases ls using List.reverseRecOn with
  | nil => rfl
  | append_singleton ls line =>
    rw [joinLines_append_singleton, splitLines_feedAll_append fun x hx => h x (by simp [hx]),
      splitLines_line (h line (by simp)) (hne line (by simp))]

end NativeUi.Text
