import NativeUi.Proofs.Source.Form

/-!
# Lowering is faithful

Two trees are lowered to the same text exactly if they have the same form. A text is cut into its
lines, a line is told apart into depth, code and literals, and the lines of a form say which form it
is: the code at the start of a line tells what it opens or closes.
-/
namespace NativeUi.Source

namespace Line

/-! ### Lines from their texts -/

theorem quote_not_mem_code {s : String} (h : isCode s = true) : '"' ∉ s.toList := by
  intro hm
  simp only [isCode, Bool.and_eq_true, List.all_eq_true] at h
  simpa using (h.2 _ hm).1.2

theorem code_append_literals_inj (l : Language) {code code' : String}
    {rest rest' : List (String × String)} (hc : ∀ s ∈ code :: rest.map Prod.snd, isCode s = true)
    (hc' : ∀ s ∈ code' :: rest'.map Prod.snd, isCode s = true)
    (h : code.toList ++ rest.flatMap (literalChars l) =
      code'.toList ++ rest'.flatMap (literalChars l)) :
    code = code' ∧ rest = rest' := by
  have hq := quote_not_mem_code (hc code (by simp))
  have hq' := quote_not_mem_code (hc' code' (by simp))
  induction rest generalizing code code' rest' with
  | nil =>
    cases rest' with
    | nil => exact ⟨String.toList_inj.mp (by simpa using h), rfl⟩
    | cons x rest' =>
      have hm : '"' ∈ code.toList := by
        rw [List.flatMap_nil, List.append_nil] at h
        simp [h, literalChars]
      exact absurd hm hq
  | cons x rest ih =>
    cases rest' with
    | nil =>
      have hm : '"' ∈ code'.toList := by
        rw [List.flatMap_nil, List.append_nil] at h
        simp [← h, literalChars]
      exact absurd hm hq'
    | cons y rest' =>
      obtain ⟨s, c⟩ := x
      obtain ⟨t, d⟩ := y
      simp only [List.flatMap_cons, literalChars, List.cons_append, List.append_assoc] at h
      obtain ⟨he, hr⟩ := Text.append_cons_inj hq hq' h
      obtain ⟨hs, ht⟩ := l.flatMap_escapeUnit_append_inj hr
      have hcs : ∀ u ∈ c :: rest.map Prod.snd, isCode u = true := fun u hu => hc u (.tail _ hu)
      have hds : ∀ u ∈ d :: rest'.map Prod.snd, isCode u = true := fun u hu => hc' u (.tail _ hu)
      obtain ⟨rfl, rfl⟩ := ih hcs hds ht (quote_not_mem_code (hcs c (by simp)))
        (quote_not_mem_code (hds d (by simp)))
      exact ⟨String.toList_inj.mp he, by rw [String.toList_inj.mp hs]⟩

theorem head?_body {line : Line} (h : line.Tidy) (l : Language) :
    (line.body l).head? ≠ some ' ' := by
  obtain ⟨c, cs, hc, hb⟩ := h.head_eq_cons
  simpa [body, hc] using ne_space_of_isBlank hb

theorem chars_inj {a b : Line} (ha : a.Tidy) (hb : b.Tidy) {l : Language}
    (h : a.chars l = b.chars l) : a = b := by
  obtain ⟨hd, ht⟩ := Text.replicate_append_inj (head?_body ha l) (head?_body hb l) h
  obtain ⟨hh, hr⟩ := code_append_literals_inj l ha.codes hb.codes ht
  have hk : a.depth = b.depth := by omega
  cases a
  cases b
  simp_all

theorem map_chars_inj {l : Language} {ls ms : List Line} (hl : ∀ line ∈ ls, line.Tidy)
    (hm : ∀ line ∈ ms, line.Tidy) (h : ls.map (chars l) = ms.map (chars l)) : ls = ms :=
  Text.map_inj_of_forall (fun _ _ ha hb he => chars_inj ha hb he) hl hm h

theorem inner_injective (k : Nat) : Function.Injective (inner k) := by
  intro a b h
  cases a
  cases b
  simp_all [inner]

end Line

namespace Spelling

/-! ### Forms from their lines -/

/-- The code at the start of a line tells what the line belongs to, and leaves can be told apart. -/
structure Legible (sp : Spelling) (textHead buttonHead : String) : Prop where
  text : ∀ s, (sp.text s).head = textHead
  text_inj : ∀ s t, sp.text s = sp.text t → s = t
  button : ∀ l a, ∃ line more, sp.button l a = line :: more ∧ line.head = buttonHead
  button_length : ∀ l a m b, (sp.button l a).length = (sp.button m b).length
  button_inj : ∀ l a m b, sp.button l a = sp.button m b → l = m ∧ a = b
  heads : [textHead, buttonHead, (opener 0 sp.vertical).head, (opener 0 sp.horizontal).head,
    (closer 0).head].Nodup

variable {sp : Spelling} {textHead buttonHead : String}

def startOf (sp : Spelling) (textHead buttonHead : String) : Form → String
  | .text _ => textHead
  | .button _ _ => buttonHead
  | .vertical _ => (opener 0 sp.vertical).head
  | .horizontal _ => (opener 0 sp.horizontal).head

theorem lines_start (h : sp.Legible textHead buttonHead) (k : Nat) (f : Form) :
    ∃ line more, sp.lines k f = line :: more ∧ line.head = startOf sp textHead buttonHead f := by
  cases f with
  | text content => exact ⟨_, [], rfl, h.text content⟩
  | button label action =>
    obtain ⟨line, more, he, hb⟩ := h.button label action
    exact ⟨line.inner k, more.map (Line.inner k), by rw [lines, he, List.map_cons], hb⟩
  | vertical children => exact ⟨_, _, rfl, rfl⟩
  | horizontal children => exact ⟨_, _, rfl, rfl⟩

theorem start_eq (h : sp.Legible textHead buttonHead) {k : Nat} {f g : Form} {r s : List Line}
    (he : sp.lines k f ++ r = sp.lines k g ++ s) :
    startOf sp textHead buttonHead f = startOf sp textHead buttonHead g := by
  obtain ⟨a, as, ha, hf⟩ := lines_start h k f
  obtain ⟨b, bs, hb, hg⟩ := lines_start h k g
  rw [ha, hb] at he
  rw [← hf, ← hg, (List.cons.inj he).1]

theorem start_ne_closer (h : sp.Legible textHead buttonHead) {k : Nat} {f : Form} {j : Nat}
    {r s : List Line} : sp.lines k f ++ r ≠ closer j :: s := by
  intro he
  obtain ⟨a, as, ha, hf⟩ := lines_start h k f
  rw [ha] at he
  have hc : startOf sp textHead buttonHead f = (closer 0).head := by
    rw [← hf, (List.cons.inj he).1]
    rfl
  have hn := h.heads
  cases f <;> simp_all [startOf]

inductive Alike : Form → Form → Prop
  | text (s t : String) : Alike (.text s) (.text t)
  | button (l a m b : String) : Alike (.button l a) (.button m b)
  | vertical (fs gs : List Form) : Alike (.vertical fs) (.vertical gs)
  | horizontal (fs gs : List Form) : Alike (.horizontal fs) (.horizontal gs)

theorem alike_of_lines (h : sp.Legible textHead buttonHead) {k : Nat} {f g : Form} {r s : List Line}
    (he : sp.lines k f ++ r = sp.lines k g ++ s) : Alike f g := by
  have hs := start_eq h he
  have hn := h.heads
  cases f <;> cases g <;> first | constructor | simp_all [startOf]

mutual

/-- The lines of a form end where they must, so that they tell the form and what follows. -/
theorem lines_append_inj (h : sp.Legible textHead buttonHead) (k : Nat) :
    ∀ (f g : Form) (r s : List Line), sp.lines k f ++ r = sp.lines k g ++ s → f = g ∧ r = s
  | .text content, g, r, s, he => by
    cases alike_of_lines h he with
    | text _ content' =>
      obtain ⟨hl, hr⟩ := List.cons.inj he
      rw [h.text_inj _ _ (Line.inner_injective k hl)]
      exact ⟨rfl, hr⟩
  | .button label action, g, r, s, he => by
    cases alike_of_lines h he with
    | button _ _ label' action' =>
      obtain ⟨hl, hr⟩ := List.append_inj he (by
        simp only [lines, List.length_map]
        exact h.button_length _ _ _ _)
      obtain ⟨rfl, rfl⟩ := h.button_inj _ _ _ _
        ((List.map_inj_right fun _ _ e => Line.inner_injective k e).mp hl)
      exact ⟨rfl, hr⟩
  | .vertical children, g, r, s, he => by
    cases alike_of_lines h he with
    | vertical _ children' =>
      simp only [lines, List.cons_append, List.append_assoc, List.nil_append] at he
      obtain ⟨rfl, hr⟩ := linesAll_append_inj h (k + 1) k children children' r s
        (List.cons.inj he).2
      exact ⟨rfl, hr⟩
  | .horizontal children, g, r, s, he => by
    cases alike_of_lines h he with
    | horizontal _ children' =>
      simp only [lines, List.cons_append, List.append_assoc, List.nil_append] at he
      obtain ⟨rfl, hr⟩ := linesAll_append_inj h (k + 1) k children children' r s
        (List.cons.inj he).2
      exact ⟨rfl, hr⟩

theorem linesAll_append_inj (h : sp.Legible textHead buttonHead) (k j : Nat) :
    ∀ (fs gs : List Form) (r s : List Line),
      sp.linesAll k fs ++ closer j :: r = sp.linesAll k gs ++ closer j :: s → fs = gs ∧ r = s
  | [], [], r, s, he => ⟨rfl, (List.cons.inj he).2⟩
  | [], g :: gs, r, s, he => by
    simp only [linesAll, List.nil_append, List.append_assoc] at he
    exact absurd he.symm (start_ne_closer h)
  | f :: fs, [], r, s, he => by
    simp only [linesAll, List.nil_append, List.append_assoc] at he
    exact absurd he (start_ne_closer h)
  | f :: fs, g :: gs, r, s, he => by
    simp only [linesAll, List.append_assoc] at he
    obtain ⟨rfl, ht⟩ := lines_append_inj h k f g _ _ he
    obtain ⟨rfl, hr⟩ := linesAll_append_inj h k j fs gs r s ht
    exact ⟨rfl, hr⟩

end

theorem write_lines_inj (h : sp.Legible textHead buttonHead) (ht : sp.Tidy) {f g : Form}
    (he : sp.write (sp.lines 0 f) = sp.write (sp.lines 0 g)) : f = g := by
  have hf := ht.lines 0 f
  have hg := ht.lines 0 g
  have hs := congrArg Text.splitLines he
  rw [splitLines_write hf, splitLines_write hg] at hs
  have hl := Line.map_chars_inj hf hg hs
  exact (lines_append_inj h 0 f g [] [] (by rw [hl])).1

theorem legible_swiftui : swiftui.Legible "Text(" "Button(action: \x7b print(" where
  text _ := rfl
  text_inj s t h := by simpa [swiftui, swiftText] using h
  button _ _ := ⟨_, _, rfl, rfl⟩
  button_length _ _ _ _ := rfl
  button_inj l a m b h := by
    simp [swiftui, swiftText, Line.inner] at h
    exact ⟨h.2, h.1⟩
  heads := by decide

theorem legible_swiftuiCompact :
    swiftuiCompact.Legible "Text(" "Button(action: \x7b print(" where
  text _ := rfl
  text_inj := legible_swiftui.text_inj
  button _ _ := ⟨_, _, rfl, rfl⟩
  button_length _ _ _ _ := rfl
  button_inj l a m b h := by
    simp [swiftuiCompact] at h
    exact ⟨h.2, h.1⟩
  heads := legible_swiftui.heads

theorem legible_compose : compose.Legible "Text(text = " "Button(onClick = \x7b Log.d(" where
  text _ := rfl
  text_inj s t h := by simpa [compose, composeText] using h
  button _ _ := ⟨_, _, rfl, rfl⟩
  button_length _ _ _ _ := rfl
  button_inj l a m b h := by
    simp [compose, composeText, Line.inner] at h
    exact ⟨h.2, h.1⟩
  heads := by decide

end Spelling

open Spelling in
theorem exists_legible_spelling {d : Dialect} (hd : d ∈ Dialect.all) :
    ∃ sp textHead buttonHead,
      Spells sp d ∧ Tidy sp ∧ Legible sp textHead buttonHead := by
  simp only [Dialect.all, List.mem_cons, List.not_mem_nil, or_false] at hd
  rcases hd with rfl | rfl | rfl
  · exact ⟨_, _, _, spells_swiftui, tidy_swiftui, legible_swiftui⟩
  · exact ⟨_, _, _, spells_swiftuiCompact, tidy_swiftuiCompact, legible_swiftuiCompact⟩
  · exact ⟨_, _, _, spells_compose, tidy_compose, legible_compose⟩

theorem form_eq_of_lower_eq {d : Dialect} (hd : d ∈ Dialect.all) {n m : Node}
    (h : lower d n = lower d m) : form d n = form d m := by
  obtain ⟨sp, textHead, buttonHead, hs, ht, hl⟩ := exists_legible_spelling hd
  apply Spelling.write_lines_inj hl ht
  rw [← lower_toList hs ht, ← lower_toList hs ht, h]

theorem lower_eq_of_form_eq {d : Dialect} (hd : d ∈ Dialect.all) {n m : Node}
    (h : form d n = form d m) : lower d n = lower d m := by
  obtain ⟨sp, -, -, hs, ht, -⟩ := exists_legible_spelling hd
  rw [← String.toList_inj, lower_toList hs ht, lower_toList hs ht, h]

/-- In every dialect two trees have the same text exactly if they have the same form: nothing that
can be seen is lost or taken for something else, and nothing else has an influence. -/
theorem lower_eq_lower_iff {d : Dialect} (hd : d ∈ Dialect.all) (n m : Node) :
    lower d n = lower d m ↔ form d n = form d m :=
  ⟨form_eq_of_lower_eq hd, lower_eq_of_form_eq hd⟩

theorem lower_lookalike_ne :
    Dialect.swiftui ∈ Dialect.all ∧
      lower .swiftui
          ⟨none, .column, [],
            [⟨none, .text, [("content", .string "A\")\n    Text(\"B")], []⟩]⟩ ≠
        lower .swiftui
          ⟨none, .column, [],
            [⟨none, .text, [("content", .string "A")], []⟩,
              ⟨none, .text, [("content", .string "B")], []⟩]⟩ := by
  have hd : Dialect.swiftui ∈ Dialect.all := List.mem_cons_self
  refine ⟨hd, fun h => ?_⟩
  have hf := (lower_eq_lower_iff hd _ _).mp h
  simp [form, formAll] at hf

end NativeUi.Source
