import NativeUi.Proofs.Source.Lexical

/-!
# Sources without their spacing

Spaces and line feeds between literals carry no meaning in Swift. Without them the two Swift
dialects write the same text for a tree, as long as no button leaves its action open: there they put
in actions of their own.
-/
namespace NativeUi.Source

open NativeUi.Source.Language (Mode)

/-! ### Deleting spaces -/

/-- Deletes spaces and line feeds outside literals. Inside a literal a backslash takes the next
character with it. -/
def squeeze : Mode → List Char → List Char
  | _, [] => []
  | .code, c :: cs =>
    if c = ' ' ∨ c = '\n' then squeeze .code cs
    else if c = '"' then c :: squeeze .literal cs
    else c :: squeeze .code cs
  | .literal, c :: cs =>
    if c = '"' then c :: squeeze .code cs
    else if c = '\\' then c :: squeeze .escape cs
    else c :: squeeze .literal cs
  | .escape, c :: cs => c :: squeeze .literal cs

def squeezed (code : String) : String := String.ofList (squeeze .code code.toList)

def visible (cs : List Char) : List Char := cs.filter fun c => c ≠ ' ' ∧ c ≠ '\n'

theorem squeeze_code {cs : List Char} (h : ∀ c ∈ cs, c ≠ '"') (rest : List Char) :
    squeeze .code (cs ++ rest) = visible cs ++ squeeze .code rest := by
  induction cs with
  | nil => rfl
  | cons c cs ih =>
    obtain ⟨hc, h⟩ := List.forall_mem_cons.mp h
    rw [List.cons_append, squeeze, ih h]
    by_cases hb : c = ' ' ∨ c = '\n'
    · have hv : visible (c :: cs) = visible cs := List.filter_cons_of_neg (by grind)
      rw [if_pos hb, hv]
    · have hv : visible (c :: cs) = c :: visible cs := List.filter_cons_of_pos (by grind)
      rw [if_neg hb, if_neg hc, hv, List.cons_append]

theorem squeeze_isPlain {l : Language} {cs : List Char} (h : ∀ c ∈ cs, l.isPlain c = true)
    (rest : List Char) : squeeze .literal (cs ++ rest) = cs ++ squeeze .literal rest := by
  induction cs with
  | nil => rfl
  | cons c cs ih =>
    obtain ⟨hc, h⟩ := List.forall_mem_cons.mp h
    have hq := Language.ne_quote_of_isPlain hc
    have hb : c ≠ '\\' := by
      rintro rfl
      exact absurd hc (by cases l <;> decide)
    rw [List.cons_append, squeeze, if_neg hq, if_neg hb, ih h, List.cons_append]

theorem squeeze_escapeUnit (l : Language) (c : Char) (rest : List Char) :
    squeeze .literal (l.escapeUnit c ++ rest) = l.escapeUnit c ++ squeeze .literal rest := by
  rcases l.escapeUnit_cases c with ⟨he, hp⟩ | ⟨x, tail, he, -, -, ht⟩
  · rw [he]
    exact squeeze_isPlain (by simpa using hp) rest
  · rw [he, List.cons_append, squeeze, if_neg (by decide), if_pos rfl, List.cons_append, squeeze,
      squeeze_isPlain ht]
    rfl

theorem squeeze_literal (l : Language) (cs rest : List Char) :
    squeeze .code ('"' :: cs.flatMap l.escapeUnit ++ '"' :: rest) =
      '"' :: cs.flatMap l.escapeUnit ++ '"' :: squeeze .code rest := by
  have hu : squeeze .literal (cs.flatMap l.escapeUnit ++ '"' :: rest) =
      cs.flatMap l.escapeUnit ++ '"' :: squeeze .code rest := by
    induction cs with
    | nil => simp [squeeze]
    | cons c cs ih =>
      rw [List.flatMap_cons, List.append_assoc, squeeze_escapeUnit, ih, List.append_assoc]
  rw [List.cons_append, squeeze, if_neg (by decide), if_pos rfl, hu]
  rfl

/-! ### Lines -/

namespace Line

def solid (l : Language) (line : Line) : List Char :=
  visible line.head.toList ++ line.rest.flatMap fun x =>
    '"' :: x.1.toList.flatMap l.escapeUnit ++ '"' :: visible x.2.toList

@[simp] theorem solid_inner (l : Language) (k : Nat) (line : Line) :
    (line.inner k).solid l = line.solid l := rfl

theorem squeeze_literals (l : Language) {xs : List (String × String)}
    (h : ∀ x ∈ xs, isCode x.2 = true) (rest : List Char) :
    squeeze .code (xs.flatMap (literalChars l) ++ rest) =
      (xs.flatMap fun x => '"' :: x.1.toList.flatMap l.escapeUnit ++ '"' :: visible x.2.toList) ++
        squeeze .code rest := by
  induction xs with
  | nil => rfl
  | cons x xs ih =>
    obtain ⟨hx, h⟩ := List.forall_mem_cons.mp h
    have hq : ∀ c ∈ x.2.toList, c ≠ '"' := fun c hc => ne_quote_of_mem_code hx hc
    have hs : (x :: xs).flatMap (literalChars l) ++ rest =
        '"' :: x.1.toList.flatMap l.escapeUnit ++
          '"' :: (x.2.toList ++ (xs.flatMap (literalChars l) ++ rest)) := by
      simp [literalChars]
    rw [hs, squeeze_literal, squeeze_code hq, ih h]
    simp

theorem squeeze_chars {line : Line} (h : line.Tidy) (l : Language) (rest : List Char) :
    squeeze .code (line.chars l ++ rest) = line.solid l ++ squeeze .code rest := by
  have hq : ∀ c ∈ List.replicate (4 * line.depth) ' ', c ≠ '"' := by
    intro c hc
    rw [(List.mem_replicate.mp hc).2]
    decide
  have hb : visible (List.replicate (4 * line.depth) ' ') = [] := by
    rw [visible, List.filter_eq_nil_iff]
    intro c hc
    simp [(List.mem_replicate.mp hc).2]
  have hhead : ∀ c ∈ line.head.toList, c ≠ '"' := fun c hc =>
    ne_quote_of_mem_code (h.codes line.head (by simp [codes])) hc
  have hrest : ∀ x ∈ line.rest, isCode x.2 = true := fun x hx =>
    h.codes x.2 (.tail _ (List.mem_map_of_mem hx))
  rw [chars, body, List.append_assoc, squeeze_code hq, hb, List.nil_append, List.append_assoc,
    squeeze_code hhead, squeeze_literals l hrest, solid, List.append_assoc]

end Line

namespace Spelling

theorem squeeze_write {sp : Spelling} {ls : List Line} (h : ∀ line ∈ ls, line.Tidy) :
    squeeze .code (sp.write ls) = ls.flatMap (Line.solid sp.language) := by
  rw [write]
  induction ls with
  | nil => rfl
  | cons line ls ih =>
    obtain ⟨hl, h⟩ := List.forall_mem_cons.mp h
    cases ls with
    | nil =>
      have hs := Line.squeeze_chars hl sp.language []
      simpa [Text.joinLines, squeeze] using hs
    | cons next ls =>
      have hf (cs : List Char) : squeeze .code ('\n' :: cs) = squeeze .code cs := by simp [squeeze]
      rw [Text.joinLines, List.map_cons, List.map_cons, List.intercalate_cons_cons,
        List.append_assoc, Line.squeeze_chars hl, List.singleton_append, hf, List.flatMap_cons]
      exact congrArg _ (ih h)

/-! ### The two layouts of buttons -/

theorem solid_button (label action : String) :
    (swiftui.button label action).flatMap (Line.solid .swift) =
      (swiftuiCompact.button label action).flatMap (Line.solid .swift) := by
  have hopen : visible ") \x7d) \x7b Text(".toList =
      visible ") \x7d) \x7b".toList ++ visible "Text(".toList := by decide
  have hclose : visible ") \x7d".toList = visible ")".toList ++ visible "\x7d".toList := by decide
  simp only [swiftui, swiftuiCompact, swiftText, closer, Line.solid, Line.inner, List.flatMap_cons,
    List.flatMap_nil, hopen, hclose]
  simp

mutual

theorem solid_lines (k : Nat) : ∀ f,
    (swiftui.lines k f).flatMap (Line.solid .swift) =
      (swiftuiCompact.lines k f).flatMap (Line.solid .swift)
  | .text content => rfl
  | .button label action => by
    simp only [lines, List.flatMap_map, Line.solid_inner]
    exact solid_button label action
  | .vertical children => by
    have hc := solid_linesAll (k + 1) children
    simp only [lines, List.cons_append, List.flatMap_cons, List.flatMap_append, hc]
    rfl
  | .horizontal children => by
    have hc := solid_linesAll (k + 1) children
    simp only [lines, List.cons_append, List.flatMap_cons, List.flatMap_append, hc]
    rfl

theorem solid_linesAll (k : Nat) : ∀ fs,
    (swiftui.linesAll k fs).flatMap (Line.solid .swift) =
      (swiftuiCompact.linesAll k fs).flatMap (Line.solid .swift)
  | [] => rfl
  | f :: fs => by
    simp only [linesAll, List.flatMap_append, solid_lines k f, solid_linesAll k fs]

end

end Spelling

/-! ### Trees -/

mutual

def reached : Node → List Node
  | ⟨id, kind, props, children⟩ =>
    ⟨id, kind, props, children⟩ ::
      match kind with
      | .text | .button | .other _ => []
      | .column | .row | .ui => reachedAll children

def reachedAll : List Node → List Node
  | [] => []
  | n :: ns => reached n ++ reachedAll ns

end

def NamesAction (n : Node) : Prop := ∃ action, n.propText? "action" = some action ∧ action ≠ ""

theorem NamesAction.buttonForm_eq {n : Node} (h : NamesAction n) (d e : Dialect) :
    buttonForm d n = buttonForm e n := by
  obtain ⟨action, ha, hne⟩ := h
  rw [buttonForm, buttonForm, ha, shown_some hne, shown_some hne]

mutual

theorem form_eq_form (d e : Dialect) : ∀ n, (∀ m ∈ reached n, m.kind = .button → NamesAction m) →
    form d n = form e n
  | ⟨id, .text, props, children⟩, _ => rfl
  | ⟨id, .button, props, children⟩, h => (h _ (.head _) rfl).buttonForm_eq d e
  | ⟨id, .column, props, children⟩, h => by
    rw [form, form, formAll_eq_formAll d e children fun m hm => h m (.tail _ hm)]
  | ⟨id, .row, props, children⟩, h => by
    rw [form, form, formAll_eq_formAll d e children fun m hm => h m (.tail _ hm)]
  | ⟨id, .ui, props, [child]⟩, h => by
    rw [form, form]
    refine form_eq_form d e child fun m hm => h m (.tail _ ?_)
    exact List.mem_append_left _ hm
  | ⟨id, .ui, props, []⟩, _ => rfl
  | ⟨id, .ui, props, first :: second :: rest⟩, h => by
    have hc := formAll_eq_formAll d e (first :: second :: rest) fun m hm => h m (.tail _ hm)
    rw [form, form, hc]
    all_goals simp
  | ⟨id, .other name, props, children⟩, _ => rfl

theorem formAll_eq_formAll (d e : Dialect) : ∀ ns,
    (∀ m ∈ reachedAll ns, m.kind = .button → NamesAction m) → formAll d ns = formAll e ns
  | [], _ => rfl
  | n :: ns, h => by
    obtain ⟨hn, hns⟩ := List.forall_mem_append.mp h
    rw [formAll, formAll, form_eq_form d e n hn, formAll_eq_formAll d e ns hns]

end

/-- Where every button that lowering comes to names an action, the two Swift dialects write the same
program. -/
theorem squeezed_lower_eq {n : Node} (h : ∀ m ∈ reached n, m.kind = .button → NamesAction m) :
    squeezed (lower .swiftui n) = squeezed (lower .swiftuiCompact n) := by
  have hw := lower_toList Spelling.spells_swiftui Spelling.tidy_swiftui n
  have hc := lower_toList Spelling.spells_swiftuiCompact Spelling.tidy_swiftuiCompact n
  rw [squeezed, squeezed, hw, hc, Spelling.squeeze_write (Spelling.tidy_swiftui.lines 0 _),
    Spelling.squeeze_write (Spelling.tidy_swiftuiCompact.lines 0 _),
    form_eq_form .swiftui .swiftuiCompact n h]
  exact congrArg _ (Spelling.solid_lines 0 _)

def spacedTree : Node :=
  ⟨none, .column, [],
    [⟨none, .row, [],
        [⟨none, .button, [("label", .string "\" )\n "), ("action", .string " go ")], []⟩]⟩,
      ⟨none, .text, [("content", .string "a  b \\")], []⟩]⟩

theorem namesAction_spacedTree :
    ∀ m ∈ reached spacedTree, m.kind = .button → NamesAction m := by
  intro m hm hk
  simp only [spacedTree, reached, reachedAll, List.append_nil, List.cons_append, List.nil_append,
    List.mem_cons, List.not_mem_nil, or_false] at hm
  rcases hm with rfl | rfl | rfl | rfl
  · exact absurd hk (by decide)
  · exact absurd hk (by decide)
  · exact ⟨" go ", by decide +kernel, by decide⟩
  · exact absurd hk (by decide)

theorem squeezed_lower_eq_spacedTree :
    (∀ m ∈ reached spacedTree, m.kind = .button → NamesAction m) ∧
      lower .swiftui spacedTree ≠ lower .swiftuiCompact spacedTree ∧
      squeezed (lower .swiftui spacedTree) =
        "VStack\x7bHStack\x7bButton(action:\x7bprint(\"Action:  go \")\x7d)\x7bText(" ++
          "\"\\\" )\\n \")\x7d\x7dText(\"a  b \\\\\")\x7d" ∧
      squeezed (lower .swiftui spacedTree) = squeezed (lower .swiftuiCompact spacedTree) :=
  ⟨namesAction_spacedTree, by decide +kernel, by decide +kernel,
    squeezed_lower_eq namesAction_spacedTree⟩

end NativeUi.Source
