import NativeUi.Proofs.Source.Scanner

/-!
# Lowering in one pass

A printer goes through a tree once and carries the depth along; what it has put out is not read
again. `lower` cuts the text of every child into lines and indents them, once for each stack around
the child. Both give the same text, and in it every row of siblings is one block.
-/
namespace NativeUi.Source

structure Printer extends Dialect where
  textLines : String → List String
  buttonLines : String → String → List String
  text_eq : ∀ s, text s = "\n".intercalate (textLines s)
  button_eq : ∀ l a, button l a = "\n".intercalate (buttonLines l a)

def inset (k : Nat) (line : String) : String :=
  String.join (List.replicate k Dialect.indent) ++ line

namespace Printer

def swiftui : Printer where
  toDialect := .swiftui
  textLines s := [Dialect.swiftText s]
  buttonLines l a := [Dialect.swiftAction a, Dialect.indent ++ Dialect.swiftText l, "\x7d"]
  text_eq _ := String.intercalate_singleton.symm
  button_eq l a := by
    simp [Dialect.swiftui, String.intercalate_cons_cons, String.append_assoc]

def swiftuiCompact : Printer where
  toDialect := .swiftuiCompact
  textLines s := [Dialect.swiftText s]
  buttonLines l a := [Dialect.swiftAction a ++ " " ++ Dialect.swiftText l ++ " \x7d"]
  text_eq _ := String.intercalate_singleton.symm
  button_eq _ _ := String.intercalate_singleton.symm

def compose : Printer where
  toDialect := .compose
  textLines s := [Dialect.composeText s]
  buttonLines l a := [
    "Button(onClick = \x7b Log.d(\"ForgeApp\", \"Button clicked: " ++ a ++ "\") \x7d) \x7b",
    Dialect.indent ++ Dialect.composeText l, "\x7d"]
  text_eq _ := String.intercalate_singleton.symm
  button_eq l a := by
    simp [Dialect.compose, String.intercalate_cons_cons, String.append_assoc]

def all : List Printer := [swiftui, swiftuiCompact, compose]

def enclose (k : Nat) (opener : String) (body : List String) : List String :=
  inset k (opener ++ " \x7b") :: body ++ [inset k "\x7d"]

mutual

def emit (p : Printer) (k : Nat) : Node → List String
  | ⟨id, kind, props, children⟩ =>
    let n : Node := ⟨id, kind, props, children⟩
    match kind with
    | .text => (p.textLines (p.escape ((n.propText? "content").getD ""))).map (inset k)
    | .button =>
      (p.buttonLines (p.escape (shown (n.propText? "label") "Button"))
        (p.escape (shown (n.propText? "action") p.defaultAction))).map (inset k)
    | .column => enclose k p.vertical (emitAll p (k + 1) children)
    | .row => enclose k p.horizontal (emitAll p (k + 1) children)
    | .ui =>
      match children with
      | [child] => emit p k child
      | children => enclose k p.vertical (emitAll p (k + 1) children)
    | .other name =>
      (p.textLines (p.escape ("Unknown component: " ++ name))).map (inset k)

def emitAll (p : Printer) (k : Nat) : List Node → List String
  | [] => []
  | n :: ns => emit p k n ++ emitAll p k ns

end

theorem emitAll_eq_flatMap (p : Printer) (k : Nat) (ns : List Node) :
    p.emitAll k ns = ns.flatMap (p.emit k) := by
  induction ns with
  | nil => rfl
  | cons n ns ih => rw [emitAll, ih, List.flatMap_cons]

theorem infix_of_singleton (p : Printer) (k : Nat) (n : Node) :
    p.emitAll k [n] <:+: p.emit k n := by
  have he : p.emitAll k [n] = p.emit k n := by rw [emitAll, emitAll, List.append_nil]
  exact he ▸ List.infix_rfl

/-! ### Lines of a tree -/

theorem inset_toList (k : Nat) (line : String) :
    (inset k line).toList = List.replicate (4 * k) ' ' ++ line.toList := by
  have hi :
      (String.join (List.replicate k Dialect.indent)).toList = List.replicate (4 * k) ' ' := by
    rw [String.toList_join]
    induction k with
    | zero => rfl
    | succ k ih =>
      rw [List.replicate_succ, List.flatMap_cons, ih, Nat.mul_succ, Nat.add_comm,
        ← List.replicate_append_replicate]
      rfl
  rw [inset, String.toList_append, hi]

theorem map_inset_toList {l : Language} {ls : List String} {ms : List Line}
    (h : ls.map String.toList = ms.map (Line.chars l)) (k : Nat) :
    (ls.map (inset k)).map String.toList = (ms.map (Line.inner k)).map (Line.chars l) := by
  have hs : String.toList ∘ inset k = (List.replicate (4 * k) ' ' ++ ·) ∘ String.toList :=
    funext (inset_toList k)
  have hl : Line.chars l ∘ Line.inner k = (List.replicate (4 * k) ' ' ++ ·) ∘ Line.chars l :=
    funext (Line.chars_inner l k)
  rw [List.map_map, List.map_map, hs, hl, ← List.map_map, h, List.map_map]

structure Prints (p : Printer) (sp : Spelling) : Prop where
  spells : sp.Spells p.toDialect
  text : ∀ s, (p.textLines (p.escape s)).map String.toList =
    [sp.text s].map (Line.chars sp.language)
  button : ∀ l a, (p.buttonLines (p.escape l) (p.escape a)).map String.toList =
    (sp.button l a).map (Line.chars sp.language)

variable {p : Printer} {sp : Spelling}

theorem enclose_toList (l : Language) (k : Nat) (opener : String) {body : List String}
    {ls : List Line} (h : body.map String.toList = ls.map (Line.chars l)) :
    (enclose k opener body).map String.toList =
      (Spelling.opener k opener :: ls ++ [Spelling.closer k]).map (Line.chars l) := by
  simp [enclose, h, inset_toList, Spelling.opener, Spelling.closer, Line.chars, Line.body]

mutual

theorem emit_toList (h : Prints p sp) (k : Nat) : ∀ n,
    (p.emit k n).map String.toList =
      (sp.lines k (form p.toDialect n)).map (Line.chars sp.language)
  | ⟨id, .text, props, children⟩ => by
    rw [emit, form, Spelling.lines]
    exact map_inset_toList (h.text _) k
  | ⟨id, .button, props, children⟩ => by
    rw [emit, form, buttonForm, Spelling.lines]
    exact map_inset_toList (h.button _ _) k
  | ⟨id, .column, props, children⟩ => by
    rw [emit, form, Spelling.lines, h.spells.vertical]
    exact enclose_toList sp.language k sp.vertical (emitAll_toList h (k + 1) children)
  | ⟨id, .row, props, children⟩ => by
    rw [emit, form, Spelling.lines, h.spells.horizontal]
    exact enclose_toList sp.language k sp.horizontal (emitAll_toList h (k + 1) children)
  | ⟨id, .ui, props, [child]⟩ => by
    rw [emit, form]
    exact emit_toList h k child
  | ⟨id, .ui, props, []⟩ => by
    rw [emit, form, Spelling.lines, h.spells.vertical]
    · exact enclose_toList sp.language k sp.vertical (emitAll_toList h (k + 1) [])
    all_goals simp
  | ⟨id, .ui, props, first :: second :: rest⟩ => by
    rw [emit, form, Spelling.lines, h.spells.vertical]
    · exact enclose_toList sp.language k sp.vertical
        (emitAll_toList h (k + 1) (first :: second :: rest))
    all_goals simp
  | ⟨id, .other name, props, children⟩ => by
    rw [emit, form, Spelling.lines]
    exact map_inset_toList (h.text _) k

theorem emitAll_toList (h : Prints p sp) (k : Nat) : ∀ ns,
    (p.emitAll k ns).map String.toList =
      (sp.linesAll k (formAll p.toDialect ns)).map (Line.chars sp.language)
  | [] => rfl
  | n :: ns => by
    rw [emitAll, formAll, Spelling.linesAll, List.map_append, List.map_append, emit_toList h k n,
      emitAll_toList h k ns]

end

theorem map_toList_inj {ls ms : List String} (h : ls.map String.toList = ms.map String.toList) :
    ls = ms :=
  (List.map_inj_right fun _ _ => String.toList_inj.mp).mp h

theorem lower_eq_intercalate (h : Prints p sp) (ht : sp.Tidy) (n : Node) :
    lower p.toDialect n = "\n".intercalate (p.emit 0 n) := by
  rw [← String.toList_inj, lower_toList h.spells ht, String.toList_intercalate, emit_toList h]
  rfl

theorem emit_eq_map_inset (h : Prints p sp) (ht : sp.Tidy) (k : Nat) (n : Node) :
    p.emit k n = (Text.lines (lower p.toDialect n)).map (inset k) := by
  have hl : (Text.lines (lower p.toDialect n)).map String.toList =
      (sp.lines 0 (form p.toDialect n)).map (Line.chars sp.language) := by
    rw [Text.lines, lower_toList h.spells ht, Spelling.splitLines_write (ht.lines 0 _),
      List.map_map]
    simp
  apply map_toList_inj
  rw [emit_toList h, map_inset_toList hl, Spelling.lines_eq_map_inner]

/-! ### Rows of siblings -/

mutual

/-- The rows of siblings that lowering comes to inside a tree, with the number of stacks around
each. -/
def rows (k : Nat) : Node → List (Nat × List Node)
  | ⟨_, kind, _, children⟩ =>
    match kind with
    | .text | .button | .other _ => []
    | .column | .row => (k + 1, children) :: rowsAll (k + 1) children
    | .ui =>
      match children with
      | [child] => (k, [child]) :: rows k child
      | children => (k + 1, children) :: rowsAll (k + 1) children

def rowsAll (k : Nat) : List Node → List (Nat × List Node)
  | [] => []
  | n :: ns => rows k n ++ rowsAll k ns

end

theorem emitAll_infix_enclose (k : Nat) (opener : String) (body : List String) :
    body <:+: enclose k opener body :=
  ⟨[_], [_], rfl⟩

mutual

theorem emitAll_infix_emit (p : Printer) (k : Nat) : ∀ n, ∀ row ∈ rows k n,
    p.emitAll row.1 row.2 <:+: p.emit k n
  | ⟨id, .text, props, children⟩ => by simp [rows]
  | ⟨id, .button, props, children⟩ => by simp [rows]
  | ⟨id, .other name, props, children⟩ => by simp [rows]
  | ⟨id, .column, props, children⟩ => by
    rw [rows, emit]
    exact row_infix_enclose p k p.vertical children
  | ⟨id, .row, props, children⟩ => by
    rw [rows, emit]
    exact row_infix_enclose p k p.horizontal children
  | ⟨id, .ui, props, [child]⟩ => by
    rw [rows, emit, List.forall_mem_cons]
    exact ⟨infix_of_singleton p k child, emitAll_infix_emit p k child⟩
  | ⟨id, .ui, props, []⟩ => by
    rw [rows, emit]
    · exact row_infix_enclose p k p.vertical []
    all_goals simp
  | ⟨id, .ui, props, first :: second :: rest⟩ => by
    rw [rows, emit]
    · exact row_infix_enclose p k p.vertical (first :: second :: rest)
    all_goals simp

theorem row_infix_enclose (p : Printer) (k : Nat) (opener : String) (children : List Node) :
    ∀ row ∈ (k + 1, children) :: rowsAll (k + 1) children,
      p.emitAll row.1 row.2 <:+: enclose k opener (p.emitAll (k + 1) children) := by
  rw [List.forall_mem_cons]
  refine ⟨emitAll_infix_enclose k opener _, fun row hrow => ?_⟩
  exact (emitAll_infix_emitAll p (k + 1) children row hrow).trans (emitAll_infix_enclose k opener _)

theorem emitAll_infix_emitAll (p : Printer) (k : Nat) : ∀ ns, ∀ row ∈ rowsAll k ns,
    p.emitAll row.1 row.2 <:+: p.emitAll k ns
  | [] => by simp [rowsAll]
  | n :: ns => by
    intro row hrow
    rw [emitAll]
    rcases List.mem_append.mp hrow with hrow | hrow
    · exact (emitAll_infix_emit p k n row hrow).trans (List.prefix_append _ _).isInfix
    · exact (emitAll_infix_emitAll p k ns row hrow).trans (List.suffix_append _ _).isInfix

end

/-! ### The three dialects -/

theorem closer_toList (l : Language) : "\x7d".toList = (Spelling.closer 0).chars l := by
  simp [Spelling.closer, Line.chars, Line.body]

theorem prints_swiftui : Prints swiftui .swiftui where
  spells := Spelling.spells_swiftui
  text s := congrArg (fun cs => [cs]) (Spelling.spells_swiftui.text s)
  button l a := by
    have hw := Spelling.flatMap_escapeUnit_label .swift "Action: " (by simp)
    have haction : (Dialect.swiftAction (escapeSwift a)).toList = Line.chars .swift
        ⟨0, "Button(action: \x7b print(", [("Action: " ++ a, ") \x7d) \x7b")]⟩ := by
      simp only [Line.chars, Line.body, Line.literalChars, List.flatMap_cons, List.flatMap_nil,
        String.toList_append, List.flatMap_append, hw, ← Language.escape_toList]
      simp [Spelling.swiftAction_toList, Language.escape]
    have hlabel : (Dialect.indent ++ Dialect.swiftText (escapeSwift l)).toList =
        ((Spelling.swiftText l).inner 1).chars .swift := by
      rw [String.toList_append, Line.chars_inner_one]
      exact congrArg _ (Spelling.spells_swiftui.text l)
    exact List.cons_eq_cons.mpr ⟨haction, List.cons_eq_cons.mpr ⟨hlabel,
      congrArg (fun cs => [cs]) (closer_toList .swift)⟩⟩

theorem prints_swiftuiCompact : Prints swiftuiCompact .swiftuiCompact where
  spells := Spelling.spells_swiftuiCompact
  text s := congrArg (fun cs => [cs]) (Spelling.spells_swiftui.text s)
  button l a := by
    have hb := Spelling.spells_swiftuiCompact.button l a
    rw [Spelling.write, Text.joinLines] at hb
    exact congrArg (fun cs => [cs]) (hb.trans List.intercalate_singleton)

theorem prints_compose : Prints compose .compose where
  spells := Spelling.spells_compose
  text s := congrArg (fun cs => [cs]) (Spelling.spells_compose.text s)
  button l a := by
    have ht := Spelling.flatMap_escapeUnit_label .kotlin "ForgeApp" (by simp)
    have hw := Spelling.flatMap_escapeUnit_label .kotlin "Button clicked: " (by simp)
    have haction : ("Button(onClick = \x7b Log.d(\"ForgeApp\", \"Button clicked: " ++
        escapeKotlin a ++ "\") \x7d) \x7b").toList = Line.chars .kotlin
          ⟨0, "Button(onClick = \x7b Log.d(",
            [("ForgeApp", ", "), ("Button clicked: " ++ a, ") \x7d) \x7b")]⟩ := by
      simp only [Line.chars, Line.body, Line.literalChars, List.flatMap_cons, List.flatMap_nil,
        String.toList_append, List.flatMap_append, ht, hw, ← Language.escape_toList]
      simp [Language.escape]
    have hlabel : (Dialect.indent ++ Dialect.composeText (escapeKotlin l)).toList =
        ((Spelling.composeText l).inner 1).chars .kotlin := by
      rw [String.toList_append, Line.chars_inner_one]
      exact congrArg _ (Spelling.spells_compose.text l)
    exact List.cons_eq_cons.mpr ⟨haction, List.cons_eq_cons.mpr ⟨hlabel,
      congrArg (fun cs => [cs]) (closer_toList .kotlin)⟩⟩

theorem exists_prints {d : Dialect} (hd : d ∈ Dialect.all) :
    ∃ p ∈ all, p.toDialect = d ∧ ∃ sp, Prints p sp ∧ sp.Tidy := by
  simp only [Dialect.all, List.mem_cons, List.not_mem_nil, or_false] at hd
  rcases hd with rfl | rfl | rfl
  · exact ⟨swiftui, .head _, rfl, _, prints_swiftui, Spelling.tidy_swiftui⟩
  · exact ⟨swiftuiCompact, .tail _ (.head _), rfl, _, prints_swiftuiCompact,
      Spelling.tidy_swiftuiCompact⟩
  · exact ⟨compose, .tail _ (.tail _ (.head _)), rfl, _, prints_compose, Spelling.tidy_compose⟩

/-- In every dialect lowering gives the lines of one pass, joined. Each row of siblings stands in
them without a gap and in order: the lines of each tree of the row, as it is lowered by itself, as
many levels further in as there are stacks around it. -/
theorem lower_eq_emit {d : Dialect} (hd : d ∈ Dialect.all) :
    ∃ p ∈ all, p.toDialect = d ∧ ∀ n,
      lower d n = "\n".intercalate (p.emit 0 n) ∧
        ∀ row ∈ (0, [n]) :: rows 0 n,
          row.2.flatMap (fun m => (Text.lines (lower d m)).map (inset row.1)) <:+: p.emit 0 n := by
  obtain ⟨p, hp, rfl, sp, h, ht⟩ := exists_prints hd
  refine ⟨p, hp, rfl, fun n => ⟨lower_eq_intercalate h ht n, fun row hrow => ?_⟩⟩
  have hblock : p.emitAll row.1 row.2 =
      row.2.flatMap fun m => (Text.lines (lower p.toDialect m)).map (inset row.1) := by
    rw [emitAll_eq_flatMap]
    exact congrArg (List.flatMap · row.2) (funext (emit_eq_map_inset h ht row.1))
  rw [← hblock]
  rcases List.mem_cons.mp hrow with rfl | hrow
  · exact infix_of_singleton p 0 n
  · exact emitAll_infix_emit p 0 n row hrow

def nestedTree : Node :=
  ⟨none, .column, [],
    [⟨none, .ui, [], [⟨none, .row, [], [⟨none, .button, [("action", .string "go\n")], []⟩]⟩]⟩,
      ⟨none, .text, [("content", .string "\x7d")], []⟩]⟩

theorem eq_swiftui {p : Printer} (hp : p ∈ all) (h : p.toDialect = .swiftui) : p = swiftui := by
  simp only [all, List.mem_cons, List.not_mem_nil, or_false] at hp
  rcases hp with rfl | rfl | rfl
  · rfl
  · exact absurd (congrArg Dialect.name h) (by decide)
  · exact absurd (congrArg Dialect.name h) (by decide)

theorem lower_eq_emit_nestedTree :
    Dialect.swiftui ∈ Dialect.all ∧ lower .swiftui nestedTree = "\n".intercalate [
      "VStack \x7b",
      "    HStack \x7b",
      "        Button(action: \x7b print(\"Action: go\\n\") \x7d) \x7b",
      "            Text(\"Button\")",
      "        \x7d",
      "    \x7d",
      "    Text(\"\x7d\")",
      "\x7d"] := by
  have hd : Dialect.swiftui ∈ Dialect.all := .head _
  obtain ⟨p, hp, he, h⟩ := lower_eq_emit hd
  obtain rfl := eq_swiftui hp he
  refine ⟨hd, (h nestedTree).1.trans (congrArg _ ?_)⟩
  decide +kernel

end Printer
end NativeUi.Source
