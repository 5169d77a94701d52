import NativeUi.Proofs.Source.Literal
import NativeUi.Proofs.Text.Lines
import NativeUi.Source.Lowering

/-!
# Sources line by line

The form of a tree is what of it can be seen in its sources. A spelling writes forms as lines, each
with its depth and with its literals told apart from the code around them; it goes through the form
once and never reads what it has written. The text of these lines is what `lower` gives.
-/
namespace NativeUi.Source

/-! ### Forms -/

inductive Form where
  | text (content : String)
  | button (label action : String)
  | vertical (children : List Form)
  | horizontal (children : List Form)

def shown : Option String → String → String
  | none, standIn => standIn
  | some s, standIn => if s = "" then standIn else s

def buttonForm (d : Dialect) (n : Node) : Form :=
  .button (shown (n.propText? "label") "Button") (shown (n.propText? "action") d.defaultAction)

mutual

def form (d : Dialect) : Node → Form
  | ⟨id, kind, props, children⟩ =>
    match kind with
    | .text => .text ((Node.propText? ⟨id, kind, props, children⟩ "content").getD "")
    | .button => buttonForm d ⟨id, kind, props, children⟩
    | .column => .vertical (formAll d children)
    | .row => .horizontal (formAll d children)
    | .ui =>
      match children with
      | [child] => form d child
      | children => .vertical (formAll d children)
    | .other name => .text ("Unknown component: " ++ name)

def formAll (d : Dialect) : List Node → List Form
  | [] => []
  | n :: ns => form d n :: formAll d ns

end

theorem shown_some {s : String} (h : s ≠ "") (standIn : String) : shown (some s) standIn = s :=
  if_neg h

theorem nonEmptyProp?_getD (n : Node) (name standIn : String) :
    (nonEmptyProp? n name).getD standIn = shown (n.propText? name) standIn := by
  rw [nonEmptyProp?]
  cases n.propText? name with
  | none => rfl
  | some s =>
    by_cases hs : s = ""
    · simp [shown, hs, Option.filter]
    · simp [shown, hs, Option.filter]

/-! ### Lines -/

structure Line where
  depth : Nat
  head : String
  rest : List (String × String)
deriving DecidableEq

namespace Line

def inner (k : Nat) (line : Line) : Line := ⟨k + line.depth, line.head, line.rest⟩

def literalChars (l : Language) (x : String × String) : List Char :=
  '"' :: x.1.toList.flatMap l.escapeUnit ++ '"' :: x.2.toList

def body (l : Language) (line : Line) : List Char :=
  line.head.toList ++ line.rest.flatMap (literalChars l)

def chars (l : Language) (line : Line) : List Char :=
  List.replicate (4 * line.depth) ' ' ++ line.body l

def codes (line : Line) : List String := line.head :: line.rest.map Prod.snd

end Line

/-- Code, not empty, that ends no line and opens no literal and no comment. -/
def isCode (s : String) : Bool :=
  s.toList ≠ [] && s.toList.all fun c => !Text.isControl c && c ≠ '"' && c ≠ '/'

def startsBlank (s : String) : Bool := s.toList.head?.any Text.isBlank

namespace Line

structure Tidy (line : Line) : Prop where
  codes : ∀ s ∈ line.codes, isCode s = true
  start : startsBlank line.head = false

theorem tidy_of {line : Line} (head : String) (codes : List String)
    (hc : line.codes = head :: codes)
    (h : (!startsBlank head && (head :: codes).all isCode) = true) : line.Tidy := by
  have hh : line.head = head := (List.cons.inj hc).1
  simp only [Bool.and_eq_true, Bool.not_eq_true', List.all_eq_true] at h
  exact ⟨hc ▸ h.2, hh ▸ h.1⟩

theorem ne_nil_of_isCode {s : String} (h : isCode s = true) : s.toList ≠ [] := by
  simp only [isCode, Bool.and_eq_true, decide_eq_true_eq] at h
  exact h.1

theorem Tidy.head_ne_nil {line : Line} (h : line.Tidy) : line.head.toList ≠ [] :=
  ne_nil_of_isCode (h.codes line.head (by simp [Line.codes]))

theorem Tidy.head_eq_cons {line : Line} (h : line.Tidy) :
    ∃ c cs, line.head.toList = c :: cs ∧ Text.isBlank c = false := by
  obtain ⟨c, cs, hc⟩ := List.exists_cons_of_ne_nil h.head_ne_nil
  exact ⟨c, cs, hc, by simpa [startsBlank, hc] using h.start⟩

theorem ne_space_of_isBlank {c : Char} (h : Text.isBlank c = false) : c ≠ ' ' := by
  rintro rfl
  exact absurd h (by decide)

theorem Tidy.inner {line : Line} (h : line.Tidy) (k : Nat) : (line.inner k).Tidy :=
  ⟨h.codes, h.start⟩

@[simp] theorem inner_zero (line : Line) : line.inner 0 = line := by simp [inner]

theorem map_inner_zero (ls : List Line) : ls.map (inner 0) = ls :=
  (List.map_congr_left fun line _ => inner_zero line).trans (List.map_id' ls)

theorem inner_inner (j k : Nat) (line : Line) : (line.inner j).inner k = line.inner (k + j) := by
  simp [inner, Nat.add_assoc]

@[simp] theorem body_inner (l : Language) (k : Nat) (line : Line) :
    (line.inner k).body l = line.body l := rfl

theorem chars_inner_one (l : Language) (line : Line) :
    (line.inner 1).chars l = Dialect.indent.toList ++ line.chars l := by
  have hd : 4 * (line.inner 1).depth = 4 + 4 * line.depth := Nat.mul_add 4 1 line.depth
  rw [chars, body_inner, hd, ← List.replicate_append_replicate, List.append_assoc]
  rfl

theorem chars_ne_nil {line : Line} (h : line.Tidy) (l : Language) : line.chars l ≠ [] := by
  simp [chars, body, h.head_ne_nil]

theorem isControl_of_mem_code {s : String} (h : isCode s = true) {c : Char} (hc : c ∈ s.toList) :
    Text.isControl c = false := by
  simp only [isCode, Bool.and_eq_true, List.all_eq_true] at h
  simpa using (h.2 c hc).1.1

theorem isControl_of_mem_chars {line : Line} (h : line.Tidy) {l : Language} {c : Char}
    (hc : c ∈ line.chars l) : Text.isControl c = false := by
  simp only [chars, body, List.mem_append, List.mem_replicate, List.mem_flatMap, literalChars,
    List.mem_cons] at hc
  rcases hc with ⟨-, rfl⟩ | hc | ⟨x, hx, (rfl | hc) | rfl | hc⟩
  · decide
  · exact isControl_of_mem_code (h.codes line.head (by simp [codes])) hc
  · decide
  · exact l.isControl_of_mem_escape (List.mem_flatMap.mpr hc)
  · decide
  · exact isControl_of_mem_code (h.codes x.2 (.tail _ (List.mem_map_of_mem hx))) hc

theorem isLine_chars {line : Line} (h : line.Tidy) (l : Language) : Text.IsLine (line.chars l) := by
  intro c hc
  have hn := isControl_of_mem_chars h hc
  constructor <;> (rintro rfl; exact absurd hn (by decide))

end Line

/-! ### Spellings -/

structure Spelling where
  language : Language
  vertical : String
  horizontal : String
  text : String → Line
  button : String → String → List Line

namespace Spelling

def opener (k : Nat) (name : String) : Line := ⟨k, name ++ " \x7b", []⟩

def closer (k : Nat) : Line := ⟨k, "\x7d", []⟩

mutual

def lines (sp : Spelling) (k : Nat) : Form → List Line
  | .text content => [(sp.text content).inner k]
  | .button label action => (sp.button label action).map (Line.inner k)
  | .vertical children => opener k sp.vertical :: linesAll sp (k + 1) children ++ [closer k]
  | .horizontal children => opener k sp.horizontal :: linesAll sp (k + 1) children ++ [closer k]

def linesAll (sp : Spelling) (k : Nat) : List Form → List Line
  | [] => []
  | f :: fs => lines sp k f ++ linesAll sp k fs

end

def write (sp : Spelling) (ls : List Line) : List Char :=
  Text.joinLines (ls.map (Line.chars sp.language))

def swiftText (content : String) : Line := ⟨0, "Text(", [(content, ")")]⟩

def composeText (content : String) : Line := ⟨0, "Text(text = ", [(content, ")")]⟩

def swiftui : Spelling where
  language := .swift
  vertical := "VStack"
  horizontal := "HStack"
  text := swiftText
  button label action :=
    [⟨0, "Button(action: \x7b print(", [("Action: " ++ action, ") \x7d) \x7b")]⟩,
      (swiftText label).inner 1, closer 0]

def swiftuiCompact : Spelling where
  language := .swift
  vertical := "VStack"
  horizontal := "HStack"
  text := swiftText
  button label action :=
    [⟨0, "Button(action: \x7b print(",
      [("Action: " ++ action, ") \x7d) \x7b Text("), (label, ") \x7d")]⟩]

def compose : Spelling where
  language := .kotlin
  vertical := "Column"
  horizontal := "Row"
  text := composeText
  button label action :=
    [⟨0, "Button(onClick = \x7b Log.d(",
      [("ForgeApp", ", "), ("Button clicked: " ++ action, ") \x7d) \x7b")]⟩,
      (composeText label).inner 1, closer 0]

structure Spells (sp : Spelling) (d : Dialect) : Prop where
  vertical : d.vertical = sp.vertical
  horizontal : d.horizontal = sp.horizontal
  text : ∀ s, (d.text (d.escape s)).toList = (sp.text s).chars sp.language
  button : ∀ l a, (d.button (d.escape l) (d.escape a)).toList = sp.write (sp.button l a)

theorem flatMap_escapeUnit_label (l : Language) :
    ∀ s ∈ ["Action: ", "ForgeApp", "Button clicked: "],
      s.toList.flatMap l.escapeUnit = s.toList := by
  cases l <;> decide

theorem swiftAction_toList (a : String) :
    (Dialect.swiftAction a).toList =
      "Button(action: \x7b print(\"Action: ".toList ++ a.toList ++ "\") \x7d) \x7b".toList := by
  unfold Dialect.swiftAction
  simp only [String.toList_append]

theorem spells_swiftui : swiftui.Spells .swiftui where
  vertical := rfl
  horizontal := rfl
  text s := by
    simp [swiftui, Dialect.swiftui, swiftText, Dialect.swiftText, Line.chars, Line.body,
      Line.literalChars, ← Language.escape_toList, Language.escape]
  button l a := by
    have hl := flatMap_escapeUnit_label .swift "Action: " (by simp)
    simp only [write, swiftui, swiftText, Line.inner, closer, Line.chars, Line.body,
      Line.literalChars, List.map_cons, List.map_nil, List.flatMap_cons, List.flatMap_nil,
      String.toList_append, List.flatMap_append, hl, ← Language.escape_toList]
    simp [Text.joinLines, List.intercalate_cons_cons, List.replicate, Dialect.swiftui,
      swiftAction_toList, Dialect.swiftText, Dialect.indent, Language.escape]

theorem spells_swiftuiCompact : swiftuiCompact.Spells .swiftuiCompact where
  vertical := rfl
  horizontal := rfl
  text := spells_swiftui.text
  button l a := by
    have hl := flatMap_escapeUnit_label .swift "Action: " (by simp)
    simp only [write, swiftuiCompact, Line.chars, Line.body,
      Line.literalChars, List.map_cons, List.map_nil, List.flatMap_cons, List.flatMap_nil,
      String.toList_append, List.flatMap_append, hl, ← Language.escape_toList]
    simp [Text.joinLines, Dialect.swiftuiCompact, swiftAction_toList, Dialect.swiftText,
      Language.escape]

theorem spells_compose : compose.Spells .compose where
  vertical := rfl
  horizontal := rfl
  text s := by
    simp [compose, Dialect.compose, composeText, Dialect.composeText, Line.chars, Line.body,
      Line.literalChars, ← Language.escape_toList, Language.escape]
  button l a := by
    have ht := flatMap_escapeUnit_label .kotlin "ForgeApp" (by simp)
    have hl := flatMap_escapeUnit_label .kotlin "Button clicked: " (by simp)
    simp only [write, compose, composeText, Line.inner, closer, Line.chars, Line.body,
      Line.literalChars, List.map_cons, List.map_nil, List.flatMap_cons, List.flatMap_nil,
      String.toList_append, List.flatMap_append, ht, hl, ← Language.escape_toList]
    simp [Text.joinLines, List.intercalate_cons_cons, List.replicate, Dialect.compose,
      Dialect.composeText, Dialect.indent, Language.escape]

/-! ### Lines of forms -/

structure Tidy (sp : Spelling) : Prop where
  vertical : (opener 0 sp.vertical).Tidy
  horizontal : (opener 0 sp.horizontal).Tidy
  text : ∀ s, (sp.text s).Tidy
  button : ∀ l a, ∀ line ∈ sp.button l a, line.Tidy

theorem tidy_closer (k : Nat) : (closer k).Tidy := Line.tidy_of "\x7d" [] rfl (by decide)

theorem tidy_swiftText (s : String) : (swiftText s).Tidy :=
  Line.tidy_of "Text(" [")"] rfl (by decide)

theorem tidy_composeText (s : String) : (composeText s).Tidy :=
  Line.tidy_of "Text(text = " [")"] rfl (by decide)

theorem tidy_swiftui : swiftui.Tidy where
  vertical := Line.tidy_of "VStack \x7b" [] (by decide) (by decide)
  horizontal := Line.tidy_of "HStack \x7b" [] (by decide) (by decide)
  text := tidy_swiftText
  button l a := by
    simp only [swiftui, List.mem_cons, List.not_mem_nil, or_false, forall_eq_or_imp, forall_eq]
    exact ⟨Line.tidy_of "Button(action: \x7b print(" [") \x7d) \x7b"] rfl (by decide),
      (tidy_swiftText l).inner 1, tidy_closer 0⟩

theorem tidy_swiftuiCompact : swiftuiCompact.Tidy where
  vertical := tidy_swiftui.vertical
  horizontal := tidy_swiftui.horizontal
  text := tidy_swiftText
  button l a := by
    simp only [swiftuiCompact, List.mem_cons, List.not_mem_nil, or_false, forall_eq]
    exact Line.tidy_of "Button(action: \x7b print(" [") \x7d) \x7b Text(", ") \x7d"] rfl
      (by decide)

theorem tidy_compose : compose.Tidy where
  vertical := Line.tidy_of "Column \x7b" [] (by decide) (by decide)
  horizontal := Line.tidy_of "Row \x7b" [] (by decide) (by decide)
  text := tidy_composeText
  button l a := by
    simp only [compose, List.mem_cons, List.not_mem_nil, or_false, forall_eq_or_imp, forall_eq]
    exact ⟨Line.tidy_of "Button(onClick = \x7b Log.d(" [", ", ") \x7d) \x7b"] rfl (by decide),
      (tidy_composeText l).inner 1, tidy_closer 0⟩

theorem inner_opener (k : Nat) (name : String) :
    (opener k name).inner 1 = opener (k + 1) name := by
  simp [opener, Line.inner, Nat.add_comm]

theorem inner_closer (k : Nat) : (closer k).inner 1 = closer (k + 1) := by
  simp [closer, Line.inner, Nat.add_comm]

mutual

theorem lines_succ (sp : Spelling) (k : Nat) :
    ∀ f, sp.lines (k + 1) f = (sp.lines k f).map (Line.inner 1)
  | .text content => by simp [lines, Line.inner_inner, Nat.add_comm]
  | .button label action => by
    simp only [lines, List.map_map]
    exact List.map_congr_left fun line _ => by simp [Line.inner_inner, Nat.add_comm]
  | .vertical children => by
    simp [lines, linesAll_succ sp (k + 1) children, inner_opener, inner_closer]
  | .horizontal children => by
    simp [lines, linesAll_succ sp (k + 1) children, inner_opener, inner_closer]

theorem linesAll_succ (sp : Spelling) (k : Nat) :
    ∀ fs, sp.linesAll (k + 1) fs = (sp.linesAll k fs).map (Line.inner 1)
  | [] => rfl
  | f :: fs => by simp [linesAll, lines_succ sp k f, linesAll_succ sp k fs]

end

theorem tidy_stack {name : String} (hn : (opener 0 name).Tidy) (k : Nat)
    {ls : List Line} (h : ∀ line ∈ ls, line.Tidy) :
    ∀ line ∈ opener k name :: ls ++ [closer k], line.Tidy := by
  intro line hl
  simp only [List.cons_append, List.mem_cons, List.mem_append, List.not_mem_nil, or_false] at hl
  rcases hl with rfl | hl | rfl
  · exact ⟨hn.codes, hn.start⟩
  · exact h line hl
  · exact tidy_closer k

mutual

theorem Tidy.lines {sp : Spelling} (h : sp.Tidy) (k : Nat) :
    ∀ f, ∀ line ∈ sp.lines k f, line.Tidy
  | .text content => by
    simp only [Spelling.lines, List.mem_singleton, forall_eq]
    exact (h.text content).inner k
  | .button label action => by
    intro line hl
    obtain ⟨x, hx, rfl⟩ := List.mem_map.mp hl
    exact (h.button label action x hx).inner k
  | .vertical children => by
    rw [Spelling.lines]
    exact tidy_stack h.vertical k (Tidy.linesAll h (k + 1) children)
  | .horizontal children => by
    rw [Spelling.lines]
    exact tidy_stack h.horizontal k (Tidy.linesAll h (k + 1) children)

theorem Tidy.linesAll {sp : Spelling} (h : sp.Tidy) (k : Nat) :
    ∀ fs, ∀ line ∈ sp.linesAll k fs, line.Tidy
  | [] => by simp [Spelling.linesAll]
  | f :: fs => by
    intro line hl
    rcases List.mem_append.mp hl with hl | hl
    · exact Tidy.lines h k f line hl
    · exact Tidy.linesAll h k fs line hl

end

theorem splitLines_write {sp : Spelling} {ls : List Line} (h : ∀ line ∈ ls, line.Tidy) :
    Text.splitLines (sp.write ls) = ls.map (Line.chars sp.language) := by
  apply Text.splitLines_joinLines
  · intro x hx
    obtain ⟨line, hl, rfl⟩ := List.mem_map.mp hx
    exact Line.isLine_chars (h line hl) sp.language
  · intro x hx
    obtain ⟨line, hl, rfl⟩ := List.mem_map.mp hx
    exact Line.chars_ne_nil (h line hl) sp.language

/-- A block is read back line by line, and each line goes one level further in. -/
theorem indentBlock_write {sp : Spelling} {ls : List Line} (h : ∀ line ∈ ls, line.Tidy)
    {code : String} (hc : code.toList = sp.write ls) :
    (indentBlock code).toList =
      Text.feedAll ((ls.map (Line.inner 1)).map (Line.chars sp.language)) := by
  rw [indentBlock, Text.lines, hc, splitLines_write h]
  clear hc
  induction ls with
  | nil => simp
  | cons line ls ih =>
    have hl := h line (by simp)
    have hne : (String.ofList (line.chars sp.language)).isEmpty = false := by
      simpa using Line.chars_ne_nil hl sp.language
    have ht := ih fun x hx => h x (by simp [hx])
    simp only [List.map_cons, Text.feedAll_cons, ← ht, Line.chars_inner_one, String.toList_join,
      List.flatMap_cons, indentLine, hne]
    simp

theorem write_stack (sp : Spelling) (k : Nat) (name : String) (ls : List Line) :
    sp.write (opener k name :: ls ++ [closer k]) =
      (opener k name).chars sp.language ++ '\n' ::
        Text.feedAll (ls.map (Line.chars sp.language)) ++ (closer k).chars sp.language := by
  rw [write, List.map_append, List.map_cons, List.map_singleton, Text.joinLines_append_singleton,
    Text.feedAll_cons]

end Spelling

open Spelling in
theorem stack_toList (l : Language) (opener : String) (body : String) :
    (stack opener body).toList =
      (Spelling.opener 0 opener).chars l ++ '\n' :: body.toList ++ (closer 0).chars l := by
  simp [stack, Spelling.opener, closer, Line.chars, Line.body]

theorem text_toList {sp : Spelling} {d : Dialect} (hs : sp.Spells d) (s : String) :
    (d.text (d.escape s)).toList = sp.write (sp.lines 0 (.text s)) := by
  simp [hs.text, Spelling.lines, Spelling.write, Text.joinLines]

mutual

theorem lower_toList {sp : Spelling} {d : Dialect} (hs : sp.Spells d) (ht : sp.Tidy) :
    ∀ n, (lower d n).toList = sp.write (sp.lines 0 (form d n))
  | ⟨id, .text, props, children⟩ => by
    rw [lower, lowerText, form]
    exact text_toList hs _
  | ⟨id, .button, props, children⟩ => by
    simp [lower, lowerButton, nonEmptyProp?_getD, defaultLabel, hs.button, form, buttonForm,
      Spelling.lines, Line.map_inner_zero]
  | ⟨id, .column, props, children⟩ => by
    rw [lower, stack_toList sp.language, lowerAll_toList hs ht children, form, Spelling.lines,
      Spelling.write_stack, hs.vertical]
  | ⟨id, .row, props, children⟩ => by
    rw [lower, stack_toList sp.language, lowerAll_toList hs ht children, form, Spelling.lines,
      Spelling.write_stack, hs.horizontal]
  | ⟨id, .ui, props, [child]⟩ => by
    rw [lower, form]
    exact lower_toList hs ht child
  | ⟨id, .ui, props, []⟩ => by
    rw [lower, stack_toList sp.language, lowerAll_toList hs ht [], form, Spelling.lines,
      Spelling.write_stack, hs.vertical]
    all_goals simp
  | ⟨id, .ui, props, first :: second :: rest⟩ => by
    rw [lower, stack_toList sp.language, lowerAll_toList hs ht (first :: second :: rest), form,
      Spelling.lines, Spelling.write_stack, hs.vertical]
    all_goals simp
  | ⟨id, .other name, props, children⟩ => by
    rw [lower, lowerUnknown, form]
    exact text_toList hs (unknownText name)

theorem lowerAll_toList {sp : Spelling} {d : Dialect} (hs : sp.Spells d) (ht : sp.Tidy) :
    ∀ ns, (lowerAll d ns).toList =
      Text.feedAll ((sp.linesAll 1 (formAll d ns)).map (Line.chars sp.language))
  | [] => by simp [lowerAll, formAll, Spelling.linesAll]
  | n :: ns => by
    have hb := Spelling.indentBlock_write (ht.lines 0 (form d n)) (lower_toList hs ht n)
    rw [lowerAll, String.toList_append, hb, lowerAll_toList hs ht ns, formAll, Spelling.linesAll,
      List.map_append, Text.feedAll_append, ← Spelling.lines_succ]

end

end NativeUi.Source
