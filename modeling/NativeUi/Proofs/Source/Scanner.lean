import NativeUi.Proofs.Source.Lexical

/-!
# Files under a scanner

A scanner for whole files. It takes steps of the lexer, passes over line comments, and refuses three
quotes in a row, since they would open a literal of several lines. The lines of a source take it
from code to code, whatever their literals hold.
-/
namespace NativeUi.Source

namespace Language

/-! ### The scanner -/

/-- What the last characters belong to: code, a slash that may open a comment, a comment, a quote
that has just opened a literal, the inside of one, an escape in it, or the quote that has just
closed an empty one. -/
inductive Phase where
  | code
  | slash
  | comment
  | quote
  | literal
  | escape
  | empty
deriving DecidableEq

def Phase.mode : Phase → Mode
  | .quote | .literal => .literal
  | .escape => .escape
  | _ => .code

def Phase.ofMode : Mode → Phase
  | .code => .code
  | .literal => .literal
  | .escape => .escape

structure Scanner where
  phase : Phase
  brackets : List Char
deriving DecidableEq

namespace Scanner

def start : Scanner := ⟨.code, []⟩

def lexer (s : Scanner) : Lexer := ⟨s.phase.mode, s.brackets⟩

def ofLexer (t : Lexer) : Scanner := ⟨.ofMode t.mode, t.brackets⟩

end Scanner

def advance (l : Language) (s : Scanner) (c : Char) : Option Scanner :=
  if s.phase = .comment then some ⟨if c = '\n' then .code else .comment, s.brackets⟩
  else if s.phase.mode = .code ∧ c = '/' then
    some ⟨if s.phase = .slash then .comment else .slash, s.brackets⟩
  else if s.phase.mode = .code ∧ c = '"' then
    if s.phase = .empty then none else some ⟨.quote, s.brackets⟩
  else if s.phase = .quote ∧ c = '"' then some ⟨.empty, s.brackets⟩
  else (l.step s.lexer c).map .ofLexer

def scan (l : Language) (s : Scanner) (cs : List Char) : Option Scanner := cs.foldlM l.advance s

/-- A file in which brackets match, and in which every literal is closed where a line ends. -/
structure Balanced (l : Language) (content : List Char) : Prop where
  closed : l.scan .start content = some .start
  lines : ∀ before after, content = before ++ '\n' :: after →
    ∃ s, l.scan .start before = some s ∧ s.phase.mode = .code

/-! ### Runs of the scanner -/

theorem scan_cons (l : Language) (s : Scanner) (c : Char) (cs : List Char) :
    l.scan s (c :: cs) = (l.advance s c).bind fun t => l.scan t cs := rfl

theorem scan_append (l : Language) (s : Scanner) (cs ds : List Char) :
    l.scan s (cs ++ ds) = (l.scan s cs).bind fun t => l.scan t ds :=
  List.foldlM_append

theorem scan_append_of_eq {l : Language} {s t : Scanner} {cs : List Char}
    (h : l.scan s cs = some t) (ds : List Char) : l.scan s (cs ++ ds) = l.scan t ds := by
  rw [scan_append, h, Option.bind_some]

theorem mode_of_advance_newline {l : Language} {s t : Scanner} (h : l.advance s '\n' = some t) :
    s.phase.mode = .code := by
  have hn : Text.isControl '\n' = true := by decide
  obtain ⟨phase, brackets⟩ := s
  cases phase with
  | quote => simp [advance, Phase.mode, Scanner.lexer, step, hn] at h
  | literal => simp [advance, Phase.mode, Scanner.lexer, step, hn] at h
  | escape => simp [advance, Phase.mode, Scanner.lexer, step, hn] at h
  | _ => rfl

theorem balanced_of_scan {l : Language} {content : List Char}
    (h : l.scan .start content = some .start) : l.Balanced content := by
  refine ⟨h, ?_⟩
  rintro before after rfl
  rw [scan_append] at h
  obtain ⟨s, hs, h⟩ := Option.bind_eq_some_iff.mp h
  obtain ⟨t, ht, -⟩ := Option.bind_eq_some_iff.mp h
  exact ⟨s, hs, mode_of_advance_newline ht⟩

/-! ### Code -/

theorem advance_code {l : Language} {phase : Phase} (hp : phase = .code ∨ phase = .empty)
    {c : Char} (hs : c ≠ '/') (hq : c ≠ '"') (br : List Char) :
    l.advance ⟨phase, br⟩ c = (l.step ⟨.code, br⟩ c).map .ofLexer := by
  rcases hp with rfl | rfl <;> simp [advance, Phase.mode, Scanner.lexer, hs, hq]

theorem scan_code {l : Language} {cs : List Char} (hs : '/' ∉ cs) (hq : '"' ∉ cs)
    {br mid : List Char} (h : l.run ⟨.code, br⟩ cs = some ⟨.code, mid⟩) :
    l.scan ⟨.code, br⟩ cs = some ⟨.code, mid⟩ := by
  induction cs generalizing br with
  | nil =>
    obtain rfl : br = mid := by simpa [run] using h
    rfl
  | cons c cs ih =>
    simp only [List.mem_cons, not_or] at hs hq
    obtain ⟨u, hu, h⟩ := Option.bind_eq_some_iff.mp h
    have hc : l.run ⟨.code, br⟩ [c] = some u := by simp [run, hu]
    obtain ⟨br', rfl⟩ := Line.mode_of_run_code (by simpa using Ne.symm hq.1) hc
    rw [scan_cons, advance_code (.inl rfl) (Ne.symm hs.1) (Ne.symm hq.1), hu]
    exact ih hs.2 hq.2 h

theorem scan_code_of_ne_nil {l : Language} {cs : List Char} (hne : cs ≠ []) (hs : '/' ∉ cs)
    (hq : '"' ∉ cs) {phase : Phase} (hp : phase = .code ∨ phase = .empty) {br mid : List Char}
    (h : l.run ⟨.code, br⟩ cs = some ⟨.code, mid⟩) :
    l.scan ⟨phase, br⟩ cs = some ⟨.code, mid⟩ := by
  have hcode := scan_code hs hq h
  obtain ⟨c, cs, rfl⟩ := List.exists_cons_of_ne_nil hne
  simp only [List.mem_cons, not_or] at hs hq
  rw [scan_cons, advance_code (.inl rfl) (Ne.symm hs.1) (Ne.symm hq.1)] at hcode
  rw [scan_cons, advance_code hp (Ne.symm hs.1) (Ne.symm hq.1)]
  exact hcode

/-! ### Literals -/

theorem advance_literal {l : Language} {phase : Phase} (hp : phase = .quote ∨ phase = .literal)
    {c : Char} (hq : c ≠ '"') (br : List Char) :
    l.advance ⟨phase, br⟩ c = (l.step ⟨.literal, br⟩ c).map .ofLexer := by
  rcases hp with rfl | rfl <;> simp [advance, Phase.mode, Scanner.lexer, hq]

theorem scan_plain {l : Language} {cs : List Char} (h : ∀ c ∈ cs, l.isPlain c = true)
    (br : List Char) : l.scan ⟨.literal, br⟩ cs = some ⟨.literal, br⟩ := by
  induction cs with
  | nil => rfl
  | cons c cs ih =>
    have hc := h c (.head _)
    rw [scan_cons, advance_literal (.inr rfl) (ne_quote_of_isPlain hc), step_isPlain hc]
    exact ih fun x hx => h x (.tail _ hx)

theorem scan_escapeUnit {l : Language} {phase : Phase} (hp : phase = .quote ∨ phase = .literal)
    (c : Char) (br : List Char) :
    l.scan ⟨phase, br⟩ (l.escapeUnit c) = some ⟨.literal, br⟩ := by
  rcases l.escapeUnit_cases c with ⟨he, hc⟩ | ⟨x, tail, he, hx, hc, ht⟩
  · rw [he, scan_cons, advance_literal hp (ne_quote_of_isPlain hc), step_isPlain hc]
    rfl
  · have hb : l.advance ⟨phase, br⟩ '\\' = some ⟨.escape, br⟩ := by
      rw [advance_literal hp (by decide)]
      simp [step, Scanner.ofLexer, Phase.ofMode]
    have hs : l.advance ⟨.escape, br⟩ x = some ⟨.literal, br⟩ := by
      simp [advance, Phase.mode, Scanner.lexer, step, hc, hx, Scanner.ofLexer, Phase.ofMode]
    rw [he, scan_cons, hb, Option.bind_some, scan_cons, hs, Option.bind_some, scan_plain ht]

theorem scan_escaped {l : Language} {phase : Phase} (hp : phase = .quote ∨ phase = .literal)
    {cs : List Char} (hne : cs ≠ []) (br : List Char) :
    l.scan ⟨phase, br⟩ (cs.flatMap l.escapeUnit) = some ⟨.literal, br⟩ := by
  induction cs generalizing phase with
  | nil => exact absurd rfl hne
  | cons c cs ih =>
    rw [List.flatMap_cons, scan_append_of_eq (scan_escapeUnit hp c br)]
    cases cs with
    | nil => rfl
    | cons d cs => exact ih (.inr rfl) (List.cons_ne_nil d cs)

theorem scan_literal (l : Language) (s : String) (br : List Char) :
    ∃ phase, (phase = .code ∨ phase = .empty) ∧
      l.scan ⟨.code, br⟩ ('"' :: s.toList.flatMap l.escapeUnit ++ ['"']) = some ⟨phase, br⟩ := by
  have ho : l.advance ⟨.code, br⟩ '"' = some ⟨.quote, br⟩ := by simp [advance, Phase.mode]
  cases hs : s.toList with
  | nil =>
    refine ⟨.empty, .inr rfl, ?_⟩
    rw [List.flatMap_nil, List.cons_append, scan_cons, ho]
    simp [scan, advance, Phase.mode]
  | cons c cs =>
    refine ⟨.code, .inl rfl, ?_⟩
    have hi := scan_escaped (l := l) (.inl rfl) (List.cons_ne_nil c cs) br
    rw [List.cons_append, scan_cons, ho, Option.bind_some, scan_append_of_eq hi]
    simp [scan, advance, Phase.mode, Scanner.lexer, step, Scanner.ofLexer, Phase.ofMode]

end Language

/-! ### Lines -/

namespace Line

theorem slash_not_mem_code {s : String} (h : isCode s = true) : '/' ∉ s.toList := by
  intro hm
  simp only [isCode, Bool.and_eq_true, List.all_eq_true] at h
  simpa using (h.2 _ hm).2

theorem scan_literals (l : Language) {xs : List (String × String)}
    (h : ∀ x ∈ xs, isCode x.2 = true) {br mid : List Char}
    (hr : l.run ⟨.code, br⟩ (xs.flatMap fun x => x.2.toList) = some ⟨.code, mid⟩) :
    l.scan ⟨.code, br⟩ (xs.flatMap (literalChars l)) = some ⟨.code, mid⟩ := by
  induction xs generalizing br with
  | nil =>
    obtain rfl : br = mid := by simpa [Language.run] using hr
    rfl
  | cons x xs ih =>
    have hx := h x (.head _)
    have hs : literalChars l x = ('"' :: x.1.toList.flatMap l.escapeUnit ++ ['"']) ++
        x.2.toList := by simp [literalChars]
    rw [List.flatMap_cons, Language.run_append] at hr
    obtain ⟨t, ht, hr⟩ := Option.bind_eq_some_iff.mp hr
    have hq (c : Char) (hc : c ∈ x.2.toList) := ne_quote_of_mem_code hx hc
    obtain ⟨br', rfl⟩ := mode_of_run_code hq ht
    obtain ⟨phase, hp, hl⟩ := l.scan_literal x.1 br
    have hcode := Language.scan_code_of_ne_nil (ne_nil_of_isCode hx) (slash_not_mem_code hx)
      (fun hm => hq _ hm rfl) hp ht
    rw [List.flatMap_cons, hs, List.append_assoc, Language.scan_append_of_eq hl,
      Language.scan_append_of_eq hcode]
    exact ih (fun y hy => h y (.tail _ hy)) hr

theorem scan_body {line : Line} (h : line.Tidy) {l : Language} {br mid : List Char}
    (hr : l.run ⟨.code, br⟩ (line.body l) = some ⟨.code, mid⟩) :
    l.scan ⟨.code, br⟩ (line.body l) = some ⟨.code, mid⟩ := by
  have hh := h.codes line.head (.head _)
  have hrest : ∀ x ∈ line.rest, isCode x.2 = true := fun x hx =>
    h.codes x.2 (.tail _ (List.mem_map_of_mem hx))
  rw [run_body h, codes, List.flatMap_cons, List.flatMap_map, Language.run_append] at hr
  obtain ⟨t, ht, hr⟩ := Option.bind_eq_some_iff.mp hr
  have hq (c : Char) (hc : c ∈ line.head.toList) := ne_quote_of_mem_code hh hc
  obtain ⟨br', rfl⟩ := mode_of_run_code hq ht
  rw [body, Language.scan_append_of_eq
    (Language.scan_code (slash_not_mem_code hh) (fun hm => hq _ hm rfl) ht)]
  exact scan_literals l hrest hr

theorem scan_chars {line : Line} (h : line.Tidy) {l : Language} {br mid : List Char}
    (hr : l.run ⟨.code, br⟩ (line.body l) = some ⟨.code, mid⟩) :
    l.scan ⟨.code, br⟩ (line.chars l) = some ⟨.code, mid⟩ := by
  have hb : l.scan ⟨.code, br⟩ (List.replicate (4 * line.depth) ' ') = some ⟨.code, br⟩ :=
    Language.scan_code (by simp [List.mem_replicate]) (by simp [List.mem_replicate])
      (l.run_blanks br _)
  rw [chars, Language.scan_append_of_eq hb, scan_body h hr]

theorem Nests.scan {l : Language} {br last : List Char} {ls : List Line} (h : Nests l br ls last)
    (ht : ∀ line ∈ ls, line.Tidy) :
    l.scan ⟨.code, br⟩ (Text.joinLines (ls.map (chars l))) = some ⟨.code, last⟩ := by
  induction h with
  | nil br => rfl
  | @cons br mid last line ls body depth rest ih =>
    have hline := scan_chars (ht line (.head _)) body
    have hrest := ih fun x hx => ht x (.tail _ hx)
    cases ls with
    | nil =>
      cases rest
      simpa [Text.joinLines] using hline
    | cons next ls =>
      have hfeed : l.scan ⟨.code, mid⟩ ['\n'] = some ⟨.code, mid⟩ :=
        Language.scan_code (by decide) (by decide) (by simp [Language.run, Language.step])
      rw [Text.joinLines, List.map_cons, List.map_cons, List.intercalate_cons_cons,
        List.append_assoc, Language.scan_append_of_eq hline, Language.scan_append_of_eq hfeed]
      exact hrest

theorem chars_inner (l : Language) (k : Nat) (line : Line) :
    (line.inner k).chars l = List.replicate (4 * k) ' ' ++ line.chars l := by
  rw [chars, chars, body_inner, inner, Nat.mul_add, ← List.replicate_append_replicate,
    List.append_assoc]

end Line

namespace Spelling

theorem lines_eq_map_inner (sp : Spelling) (k : Nat) (f : Form) :
    sp.lines k f = (sp.lines 0 f).map (Line.inner k) := by
  induction k with
  | zero => rw [Line.map_inner_zero]
  | succ k ih =>
    have hi : Line.inner 1 ∘ Line.inner k = Line.inner (k + 1) := by
      funext line
      rw [Function.comp_apply, Line.inner_inner, Nat.add_comm]
    rw [lines_succ, ih, List.map_map, hi]

end Spelling

end NativeUi.Source
