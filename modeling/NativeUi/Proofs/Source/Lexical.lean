import NativeUi.Proofs.Source.Form

/-!
# Sources under a lexer

A lexer that tells literals from code and keeps the brackets that are open. It refuses a raw
control character inside a literal (so a literal ends on its line), code put into a text, and a
bracket that closes another one. Whatever a tree holds, the lexer goes through its source and stops
as it started, and every line stands as far in as there are braces open before it.
-/
namespace NativeUi.Source

namespace Language

/-! ### The lexer -/

inductive Mode where
  | code
  | literal
  | escape
deriving DecidableEq

structure Lexer where
  mode : Mode
  brackets : List Char
deriving DecidableEq

def start : Lexer := ⟨.code, []⟩

def close (bracket : Char) : List Char → Option Lexer
  | [] => none
  | b :: bs => if b = bracket then some ⟨.code, bs⟩ else none

def step (l : Language) (s : Lexer) (c : Char) : Option Lexer :=
  match s.mode with
  | .code =>
    if c = '"' then some ⟨.literal, s.brackets⟩
    else if c = '(' ∨ c = '\x7b' then some ⟨.code, c :: s.brackets⟩
    else if c = ')' then close '(' s.brackets
    else if c = '\x7d' then close '\x7b' s.brackets
    else some s
  | .literal =>
    if c = '"' then some ⟨.code, s.brackets⟩
    else if c = '\\' then some ⟨.escape, s.brackets⟩
    else if Text.isControl c then none
    else if l = .kotlin ∧ c = '$' then none
    else some s
  | .escape =>
    if Text.isControl c then none
    else if l = .swift ∧ c = '(' then none
    else some ⟨.literal, s.brackets⟩

def run (l : Language) (s : Lexer) : List Char → Option Lexer
  | [] => some s
  | c :: cs => (l.step s c).bind fun t => l.run t cs

def blanks (line : List Char) : Nat := (line.takeWhile (· = ' ')).length

/-- How many braces a line stands in: one that starts by closing a brace stands outside it. -/
def level (s : Lexer) (line : List Char) : Nat :=
  s.brackets.count '\x7b' - if (line.dropWhile (· = ' ')).head? = some '\x7d' then 1 else 0

/-- Before each of these lines the lexer is in code, and the line is indented by four blanks for
each brace it stands in. -/
def Indented (l : Language) (s : Lexer) (ls : List (List Char)) : Prop :=
  ∀ before line after, ls = before ++ line :: after →
    ∃ t, l.run s (Text.feedAll before) = some t ∧ t.mode = .code ∧
      blanks line = 4 * level t line

def tripleQuote : List Char := ['"', '"', '"']

/-- Source that the lexer accepts, from code without open brackets to such code. -/
structure Sound (l : Language) (code : List Char) : Prop where
  closed : l.run start code = some start
  noTripleQuote : ¬ tripleQuote <:+: code
  feeds : Text.joinLines (Text.splitLines code) = code
  indented : l.Indented start (Text.splitLines code)

/-! ### Runs of the lexer -/

theorem run_append (l : Language) (s : Lexer) (cs ds : List Char) :
    l.run s (cs ++ ds) = (l.run s cs).bind fun t => l.run t ds := by
  induction cs generalizing s with
  | nil => rfl
  | cons c cs ih =>
    simp only [List.cons_append, run, Option.bind_assoc]
    congr 1
    funext t
    exact ih t

theorem run_append_of_eq {l : Language} {s t : Lexer} {cs : List Char} (h : l.run s cs = some t)
    (ds : List Char) : l.run s (cs ++ ds) = l.run t ds := by
  rw [run_append, h, Option.bind_some]

def marks : List Char := ['"', '(', ')', '\x7b', '\x7d']

theorem run_still {l : Language} {cs : List Char} (h : ∀ c ∈ cs, c ∉ marks) (br : List Char) :
    l.run ⟨.code, br⟩ cs = some ⟨.code, br⟩ := by
  induction cs with
  | nil => rfl
  | cons c cs ih =>
    have hc : c ∉ marks := h c (by simp)
    simp only [marks, List.mem_cons, List.not_mem_nil, or_false, not_or] at hc
    have hs : l.step ⟨.code, br⟩ c = some ⟨.code, br⟩ := by simp [step, hc]
    rw [run, hs, Option.bind_some, ih fun x hx => h x (by simp [hx])]

theorem run_blanks (l : Language) (br : List Char) (n : Nat) :
    l.run ⟨.code, br⟩ (List.replicate n ' ') = some ⟨.code, br⟩ := by
  apply run_still
  intro c hc
  obtain ⟨-, rfl⟩ := List.mem_replicate.mp hc
  decide

theorem step_isPlain {l : Language} {c : Char} (h : l.isPlain c = true) (br : List Char) :
    l.step ⟨.literal, br⟩ c = some ⟨.literal, br⟩ := by
  simp only [isPlain, Bool.and_eq_true, decide_eq_true_eq, Bool.not_eq_true'] at h
  obtain ⟨⟨⟨hq, hb⟩, hc⟩, hd⟩ := h
  have hd : ¬ (l = .kotlin ∧ c = '$') := by simpa using hd
  simp [step, hq, hb, hc, hd]

theorem run_plain {l : Language} {cs : List Char} (h : ∀ c ∈ cs, l.isPlain c = true)
    (br : List Char) : l.run ⟨.literal, br⟩ cs = some ⟨.literal, br⟩ := by
  induction cs with
  | nil => rfl
  | cons c cs ih =>
    rw [run, step_isPlain (h c (by simp)), Option.bind_some, ih fun x hx => h x (by simp [hx])]

theorem run_escapeUnit (l : Language) (c : Char) (br : List Char) :
    l.run ⟨.literal, br⟩ (l.escapeUnit c) = some ⟨.literal, br⟩ := by
  rcases l.escapeUnit_cases c with ⟨he, hp⟩ | ⟨x, tail, he, hx, hc, ht⟩
  · rw [he]
    exact run_plain (by simpa using hp) br
  · have hb : l.step ⟨.literal, br⟩ '\\' = some ⟨.escape, br⟩ := by simp [step]
    have hs : l.step ⟨.escape, br⟩ x = some ⟨.literal, br⟩ := by simp [step, hc, hx]
    rw [he, run, hb, Option.bind_some, run, hs, Option.bind_some, run_plain ht]

theorem run_literal (l : Language) (s : String) (br : List Char) :
    l.run ⟨.code, br⟩ ('"' :: s.toList.flatMap l.escapeUnit ++ ['"']) = some ⟨.code, br⟩ := by
  have hu (cs : List Char) :
      l.run ⟨.literal, br⟩ (cs.flatMap l.escapeUnit) = some ⟨.literal, br⟩ := by
    induction cs with
    | nil => rfl
    | cons c cs ih => rw [List.flatMap_cons, run_append_of_eq (run_escapeUnit l c br), ih]
  have ho : l.step ⟨.code, br⟩ '"' = some ⟨.literal, br⟩ := by simp [step]
  rw [List.cons_append, run, ho, Option.bind_some, run_append_of_eq (hu s.toList)]
  simp [run, step]

theorem step_newline {l : Language} {s t : Lexer} (h : l.step s '\n' = some t) : s = t := by
  have hn : Text.isControl '\n' = true := by decide
  cases hm : s.mode with
  | code => simpa [step, hm] using h
  | literal => simp [step, hm, hn] at h
  | escape => simp [step, hm, hn] at h

theorem Indented.append {l : Language} {s t : Lexer} {ks ls : List (List Char)}
    (hk : l.Indented s ks) (hr : l.run s (Text.feedAll ks) = some t) (hl : l.Indented t ls) :
    l.Indented s (ks ++ ls) := by
  intro before line after h
  rcases List.append_eq_append_iff.mp h with ⟨more, rfl, hm⟩ | ⟨more, rfl, hm⟩
  · obtain ⟨u, hu, hc⟩ := hl more line after hm
    exact ⟨u, by rw [Text.feedAll_append, run_append_of_eq hr, hu], hc⟩
  · cases more with
    | nil =>
      obtain ⟨u, hu, hc⟩ := hl [] line after (by simpa using hm.symm)
      rw [List.append_nil] at hr
      refine ⟨u, ?_, hc⟩
      rw [hr, ← hu]
      rfl
    | cons first more =>
      obtain ⟨rfl, -⟩ := List.cons.inj hm
      exact hk before line more rfl

/-! ### No triple quotes -/

theorem noTriple_append {xs ys : List Char} {c : Char} (hx : ¬ tripleQuote <:+: xs)
    (hc : c ≠ '"') (hy : ¬ tripleQuote <:+: ys) : ¬ tripleQuote <:+: xs ++ c :: ys := by
  induction xs with
  | nil =>
    intro h
    rcases List.infix_cons_iff.mp h with h | h
    · exact hc (List.cons_prefix_cons.mp h).1.symm
    · exact hy h
  | cons x xs ih =>
    have ht : ¬ tripleQuote <:+: xs := fun h => hx (h.trans (List.suffix_cons x xs).isInfix)
    intro h
    rw [List.cons_append] at h
    rcases List.infix_cons_iff.mp h with h | h
    · rcases xs with - | ⟨y, - | ⟨z, zs⟩⟩
      · simp [tripleQuote, Ne.symm hc] at h
      · simp [tripleQuote, Ne.symm hc] at h
      · simp only [tripleQuote, List.cons_append, List.cons_prefix_cons] at h
        obtain ⟨rfl, rfl, rfl, -⟩ := h
        exact hx ⟨[], zs, rfl⟩
    · exact ih ht h

theorem noTriple_of_length {xs : List Char} (h : xs.length < 3) : ¬ tripleQuote <:+: xs := by
  intro hi
  have hl := hi.length_le
  simp only [tripleQuote, List.length_cons, List.length_nil] at hl
  omega

theorem noTriple_append_of_forall {xs ys : List Char} (hx : ∀ c ∈ xs, c ≠ '"')
    (hy : ¬ tripleQuote <:+: ys) : ¬ tripleQuote <:+: xs ++ ys := by
  induction xs with
  | nil => exact hy
  | cons x xs ih =>
    have hn : ¬ tripleQuote <:+: [] := noTriple_of_length (by simp)
    exact noTriple_append hn (hx x (by simp)) (ih fun c hc => hx c (by simp [hc]))

theorem ne_quote_of_isPlain {l : Language} {c : Char} (h : l.isPlain c = true) : c ≠ '"' := by
  rintro rfl
  exact absurd h (by cases l <;> decide)

/-- An escaped text, closed by a quote and with at most one character before it, which may be the
opening quote. -/
theorem noTriple_escaped (l : Language) (cs : List Char) :
    ∀ before : List Char, before.length ≤ 1 →
      ¬ tripleQuote <:+: before ++ (cs.flatMap l.escapeUnit ++ ['"']) := by
  induction cs with
  | nil =>
    intro before hb
    apply noTriple_of_length
    simp
    omega
  | cons c cs ih =>
    intro before hb
    have hn : ¬ tripleQuote <:+: before := noTriple_of_length (by omega)
    rw [List.flatMap_cons, List.append_assoc]
    rcases l.escapeUnit_cases c with ⟨he, hp⟩ | ⟨x, tail, he, -, -, ht⟩
    · rw [he]
      exact noTriple_append hn (ne_quote_of_isPlain hp) (ih [] (by simp))
    · rw [he]
      apply noTriple_append hn (by decide)
      cases tail with
      | nil => exact ih [x] (by simp)
      | cons y tail =>
        have hx : ¬ tripleQuote <:+: [x] := noTriple_of_length (by simp)
        apply noTriple_append hx (ne_quote_of_isPlain (ht y (by simp)))
        apply noTriple_append_of_forall
        · exact fun z hz => ne_quote_of_isPlain (ht z (by simp [hz]))
        · exact ih [] (by simp)

end Language

namespace Line

theorem ne_quote_of_mem_code {s : String} (h : isCode s = true) {c : Char} (hc : c ∈ s.toList) :
    c ≠ '"' := by
  simp only [isCode, Bool.and_eq_true, List.all_eq_true] at h
  simpa using (h.2 c hc).1.2

theorem noTriple_literals (l : Language) {xs : List (String × String)}
    (h : ∀ x ∈ xs, isCode x.2 = true) :
    ¬ Language.tripleQuote <:+: xs.flatMap (literalChars l) := by
  induction xs with
  | nil => exact Language.noTriple_of_length (by simp)
  | cons x xs ih =>
    have hx := h x (by simp)
    have ht := ih fun y hy => h y (by simp [hy])
    -- the code behind a literal is not empty, so its first character keeps the quotes apart
    obtain ⟨c, code, hc⟩ := List.exists_cons_of_ne_nil (ne_nil_of_isCode hx)
    have hq (y : Char) (hy : y ∈ c :: code) : y ≠ '"' := ne_quote_of_mem_code hx (hc ▸ hy)
    have he := Language.noTriple_escaped l x.1.toList ['"'] (by simp)
    have hr : ¬ Language.tripleQuote <:+: code ++ xs.flatMap (literalChars l) :=
      Language.noTriple_append_of_forall (fun y hy => hq y (by simp [hy])) ht
    have := Language.noTriple_append he (hq c (by simp)) hr
    simpa [literalChars, hc] using this

theorem noTriple_chars {line : Line} (h : line.Tidy) (l : Language) :
    ¬ Language.tripleQuote <:+: line.chars l := by
  apply Language.noTriple_append_of_forall
  · intro c hc
    obtain ⟨-, rfl⟩ := List.mem_replicate.mp hc
    decide
  apply Language.noTriple_append_of_forall
  · exact fun c hc => ne_quote_of_mem_code (h.codes line.head (by simp [codes])) hc
  · exact noTriple_literals l fun x hx => h.codes x.2 (.tail _ (List.mem_map_of_mem hx))

theorem noTriple_feedAll {ls : List Line} (h : ∀ line ∈ ls, line.Tidy) (l : Language) :
    ¬ Language.tripleQuote <:+: Text.feedAll (ls.map (chars l)) := by
  induction ls with
  | nil => exact Language.noTriple_of_length (by simp)
  | cons line ls ih =>
    have hl := noTriple_chars (h line (by simp)) l
    have ht := ih fun x hx => h x (by simp [hx])
    rw [List.map_cons, Text.feedAll_cons]
    exact Language.noTriple_append hl (by decide) ht

/-! ### Lines in brackets -/

theorem mode_of_run_code {l : Language} {cs : List Char} (h : ∀ c ∈ cs, c ≠ '"')
    {br : List Char} {t : Language.Lexer} (ht : l.run ⟨.code, br⟩ cs = some t) :
    ∃ mid, t = ⟨.code, mid⟩ := by
  induction cs generalizing br with
  | nil => exact ⟨br, (Option.some.inj ht).symm⟩
  | cons c cs ih =>
    obtain ⟨u, hu, hr⟩ := Option.bind_eq_some_iff.mp ht
    have hm : ∃ mid, u = ⟨.code, mid⟩ := by
      have close_code {b : Char} {bs : List Char} (hc : Language.close b bs = some u) :
          ∃ mid, u = ⟨.code, mid⟩ := by
        cases bs with
        | nil => simp [Language.close] at hc
        | cons a bs =>
          simp only [Language.close, Option.ite_none_right_eq_some, Option.some.injEq] at hc
          exact ⟨bs, hc.2.symm⟩
      simp only [Language.step, h c (by simp), if_false] at hu
      split_ifs at hu with h1 h2 h3
      · exact ⟨_, (Option.some.inj hu).symm⟩
      · exact close_code hu
      · exact close_code hu
      · exact ⟨_, (Option.some.inj hu).symm⟩
    obtain ⟨mid, rfl⟩ := hm
    exact ih (fun x hx => h x (by simp [hx])) hr

theorem run_literals (l : Language) {xs : List (String × String)}
    (h : ∀ x ∈ xs, isCode x.2 = true) (br : List Char) :
    l.run ⟨.code, br⟩ (xs.flatMap (literalChars l)) =
      l.run ⟨.code, br⟩ (xs.flatMap fun x => x.2.toList) := by
  induction xs generalizing br with
  | nil => rfl
  | cons x xs ih =>
    have hs : literalChars l x = ('"' :: x.1.toList.flatMap l.escapeUnit ++ ['"']) ++
        x.2.toList := by simp [literalChars]
    rw [List.flatMap_cons, List.flatMap_cons, hs, List.append_assoc,
      Language.run_append_of_eq (l.run_literal x.1 br), Language.run_append, Language.run_append]
    cases hr : l.run ⟨.code, br⟩ x.2.toList with
    | none => rfl
    | some t =>
      obtain ⟨mid, rfl⟩ :=
        mode_of_run_code (fun c hc => ne_quote_of_mem_code (h x (by simp)) hc) hr
      exact ih (fun y hy => h y (by simp [hy])) mid

theorem run_body {line : Line} (h : line.Tidy) (l : Language) (br : List Char) :
    l.run ⟨.code, br⟩ (line.body l) =
      l.run ⟨.code, br⟩ (line.codes.flatMap String.toList) := by
  have hr : ∀ x ∈ line.rest, isCode x.2 = true := fun x hx =>
    h.codes x.2 (.tail _ (List.mem_map_of_mem hx))
  rw [body, codes, List.flatMap_cons, List.flatMap_map, Language.run_append, Language.run_append]
  cases hh : l.run ⟨.code, br⟩ line.head.toList with
  | none => rfl
  | some t =>
    obtain ⟨mid, rfl⟩ := mode_of_run_code
      (fun c hc => ne_quote_of_mem_code (h.codes line.head (by simp [codes])) hc) hh
    exact run_literals l hr mid

/-- Lines that take the lexer from some open brackets to others, each at the depth of its braces. -/
inductive Nests (l : Language) : List Char → List Line → List Char → Prop where
  | nil (br : List Char) : Nests l br [] br
  | cons {br mid last : List Char} {line : Line} {ls : List Line}
      (body : l.run ⟨.code, br⟩ (line.body l) = some ⟨.code, mid⟩)
      (depth : line.depth = Language.level ⟨.code, br⟩ (line.body l))
      (rest : Nests l mid ls last) : Nests l br (line :: ls) last

theorem Nests.append {l : Language} {br mid last : List Char} {ks ls : List Line}
    (hk : Nests l br ks mid) (hl : Nests l mid ls last) : Nests l br (ks ++ ls) last := by
  induction hk with
  | nil br => exact hl
  | cons body depth _ ih => exact .cons body depth (ih hl)

theorem run_chars {l : Language} {br mid : List Char} {line : Line}
    (h : l.run ⟨.code, br⟩ (line.body l) = some ⟨.code, mid⟩) :
    l.run ⟨.code, br⟩ (line.chars l ++ ['\n']) = some ⟨.code, mid⟩ := by
  rw [chars, List.append_assoc, Language.run_append_of_eq (l.run_blanks br _),
    Language.run_append_of_eq h]
  simp [Language.run, Language.step]

theorem Nests.run {l : Language} {br last : List Char} {ls : List Line} (h : Nests l br ls last) :
    l.run ⟨.code, br⟩ (Text.feedAll (ls.map (chars l))) = some ⟨.code, last⟩ := by
  induction h with
  | nil br => rfl
  | cons body depth _ ih =>
    rw [List.map_cons, Text.feedAll_cons, List.append_cons,
      Language.run_append_of_eq (run_chars body), ih]

theorem body_eq_cons {line : Line} (h : line.Tidy) (l : Language) :
    ∃ c cs, line.body l = c :: cs ∧ c ≠ ' ' := by
  obtain ⟨c, code, hc, hb⟩ := h.head_eq_cons
  exact ⟨c, code ++ line.rest.flatMap (literalChars l), by simp [body, hc], ne_space_of_isBlank hb⟩

theorem blanks_chars {line : Line} (h : line.Tidy) (l : Language) :
    Language.blanks (line.chars l) = 4 * line.depth := by
  obtain ⟨c, cs, hb, hc⟩ := body_eq_cons h l
  simp [Language.blanks, chars, hb, hc]

theorem level_chars {line : Line} (h : line.Tidy) (l : Language) (s : Language.Lexer) :
    Language.level s (line.chars l) = Language.level s (line.body l) := by
  obtain ⟨c, cs, hb, hc⟩ := body_eq_cons h l
  simp [Language.level, chars, hb, hc]

theorem Nests.indented {l : Language} {br last : List Char} {ls : List Line}
    (h : Nests l br ls last) (ht : ∀ line ∈ ls, line.Tidy) :
    l.Indented ⟨.code, br⟩ (ls.map (chars l)) := by
  induction h with
  | nil br => intro before line after h; simp at h
  | @cons br mid last line ls body depth _ ih =>
    have hl := ht line (by simp)
    have first : l.Indented ⟨.code, br⟩ [line.chars l] := by
      intro before x after he
      obtain ⟨rfl, rfl, rfl⟩ : before = [] ∧ x = line.chars l ∧ after = [] := by
        cases before <;> simp_all
      refine ⟨_, rfl, rfl, ?_⟩
      rw [level_chars hl, ← depth, blanks_chars hl]
    exact first.append (by simpa [Text.feedAll] using run_chars body)
      (ih fun x hx => ht x (by simp [hx]))

theorem Nests.of_codes {l : Language} {br last : List Char} {line : Line} (ht : line.Tidy)
    (hr : l.run ⟨.code, br⟩ (line.codes.flatMap String.toList) = some ⟨.code, last⟩)
    (hd : line.depth =
      br.count '\x7b' - if line.head.toList.head? = some '\x7d' then 1 else 0) :
    Nests l br [line] last := by
  obtain ⟨c, cs, hb, hc⟩ := body_eq_cons ht l
  have hh : line.head.toList.head? = some c := by
    have hs := congrArg List.head? hb
    rw [body, List.head?_append] at hs
    cases he : line.head.toList with
    | nil => exact absurd he ht.head_ne_nil
    | cons x xs => simpa [he] using hs
  refine .cons ((run_body ht l br).trans hr) ?_ (.nil last)
  rw [hd, hh, Language.level, hb]
  simp [hc]

end Line

namespace Spelling

open Line (Nests)

structure Nested (sp : Spelling) : Prop where
  vertical : ∀ br, Nests sp.language br [opener (br.count '\x7b') sp.vertical] ('\x7b' :: br)
  horizontal : ∀ br, Nests sp.language br [opener (br.count '\x7b') sp.horizontal] ('\x7b' :: br)
  text : ∀ s br, Nests sp.language br [(sp.text s).inner (br.count '\x7b')] br
  button : ∀ l a br,
    Nests sp.language br ((sp.button l a).map (Line.inner (br.count '\x7b'))) br

theorem nests_closer (l : Language) (br : List Char) :
    Nests l ('\x7b' :: br) [closer (br.count '\x7b')] br :=
  .of_codes (tidy_closer _)
    (by simp [closer, Line.codes, Language.run, Language.step, Language.close])
    (by simp [closer])

theorem nests_stack {l : Language} {br : List Char} {name : String} {ls : List Line}
    (ho : Nests l br [opener (br.count '\x7b') name] ('\x7b' :: br))
    (hl : Nests l ('\x7b' :: br) ls ('\x7b' :: br)) :
    Nests l br (opener (br.count '\x7b') name :: ls ++ [closer (br.count '\x7b')]) br :=
  (ho.append hl).append (nests_closer l br)

mutual

theorem Nested.lines {sp : Spelling} (h : sp.Nested) :
    ∀ f br, Nests sp.language br (sp.lines (br.count '\x7b') f) br
  | .text content, br => by
    rw [Spelling.lines]
    exact h.text content br
  | .button label action, br => by
    rw [Spelling.lines]
    exact h.button label action br
  | .vertical children, br => by
    have hc := Nested.linesAll h children ('\x7b' :: br)
    rw [List.count_cons_self] at hc
    rw [Spelling.lines]
    exact nests_stack (h.vertical br) hc
  | .horizontal children, br => by
    have hc := Nested.linesAll h children ('\x7b' :: br)
    rw [List.count_cons_self] at hc
    rw [Spelling.lines]
    exact nests_stack (h.horizontal br) hc

theorem Nested.linesAll {sp : Spelling} (h : sp.Nested) :
    ∀ fs br, Nests sp.language br (sp.linesAll (br.count '\x7b') fs) br
  | [], br => .nil br
  | f :: fs, br => (Nested.lines h f br).append (Nested.linesAll h fs br)

end

theorem nests_swiftText (s : String) (br : List Char) :
    Nests .swift br [(swiftText s).inner (br.count '\x7b')] br :=
  .of_codes ((tidy_swiftText s).inner _)
    (by simp only [swiftText, Line.inner, Line.codes, List.map_cons, List.map_nil]; rfl)
    (by simp [swiftText, Line.inner])

theorem nests_composeText (s : String) (br : List Char) :
    Nests .kotlin br [(composeText s).inner (br.count '\x7b')] br :=
  .of_codes ((tidy_composeText s).inner _)
    (by simp only [composeText, Line.inner, Line.codes, List.map_cons, List.map_nil]; rfl)
    (by simp [composeText, Line.inner])

theorem nests_button {l : Language} {first text : Line} {br : List Char}
    (hf : Nests l br [first.inner (br.count '\x7b')] ('\x7b' :: br))
    (ht : Nests l ('\x7b' :: br) [text.inner (br.count '\x7b' + 1)] ('\x7b' :: br)) :
    Nests l br ([first, text.inner 1, closer 0].map (Line.inner (br.count '\x7b'))) br := by
  have hc : (closer 0).inner (br.count '\x7b') = closer (br.count '\x7b') := rfl
  simp only [List.map_cons, List.map_nil, Line.inner_inner, hc]
  exact (hf.append ht).append (nests_closer l br)

theorem run_letters (l : Language) (br : List Char) {cs : List Char}
    (h : cs.all Char.isAlpha = true) : l.run ⟨.code, br⟩ cs = some ⟨.code, br⟩ := by
  apply Language.run_still
  intro c hc hm
  have hmarks : (Language.marks.all fun x => !x.isAlpha) = true := by decide
  exact absurd (List.all_eq_true.mp h c hc) (by simpa using List.all_eq_true.mp hmarks c hm)

theorem nests_opener (l : Language) (br : List Char) {name : String}
    (ht : (opener 0 name).Tidy) (h : name.toList.all Char.isAlpha = true) :
    Nests l br [opener (br.count '\x7b') name] ('\x7b' :: br) := by
  refine .of_codes ⟨ht.codes, ht.start⟩ ?_ ?_
  · simp only [opener, Line.codes, List.map_nil, List.flatMap_cons, List.flatMap_nil,
      String.toList_append, List.append_nil, Language.run_append_of_eq (run_letters l br h)]
    simp [Language.run, Language.step]
  · have hn : (name ++ " \x7b").toList.head? ≠ some '\x7d' := by
      cases hc : name.toList with
      | nil => simp [hc]
      | cons c cs =>
        have ha : c.isAlpha = true := by
          rw [hc, List.all_cons, Bool.and_eq_true] at h
          exact h.1
        simp only [String.toList_append, hc, List.cons_append, List.head?_cons, ne_eq,
          Option.some.injEq]
        rintro rfl
        exact absurd ha (by decide)
    rw [opener, if_neg hn, Nat.sub_zero]

theorem nested_swiftui : swiftui.Nested where
  vertical br := nests_opener .swift br tidy_swiftui.vertical (by decide)
  horizontal br := nests_opener .swift br tidy_swiftui.horizontal (by decide)
  text := nests_swiftText
  button l a br := by
    have hb := tidy_swiftui.button l a
    have ht := nests_swiftText l ('\x7b' :: br)
    rw [List.count_cons_self] at ht
    refine nests_button (.of_codes ((hb _ (by simp [swiftui])).inner _) ?_ ?_) ht
    · simp only [swiftui, Line.inner, Line.codes, List.map_cons, List.map_nil]
      rfl
    · simp [Line.inner]

theorem nested_swiftuiCompact : swiftuiCompact.Nested where
  vertical br := nests_opener .swift br tidy_swiftuiCompact.vertical (by decide)
  horizontal br := nests_opener .swift br tidy_swiftuiCompact.horizontal (by decide)
  text := nests_swiftText
  button l a br := by
    have hb := tidy_swiftuiCompact.button l a
    refine .of_codes ((hb _ (by simp [swiftuiCompact])).inner _) ?_ ?_
    · simp only [swiftuiCompact, Line.inner, Line.codes, List.map_cons, List.map_nil]
      rfl
    · simp [Line.inner]

theorem nested_compose : compose.Nested where
  vertical br := nests_opener .kotlin br tidy_compose.vertical (by decide)
  horizontal br := nests_opener .kotlin br tidy_compose.horizontal (by decide)
  text := nests_composeText
  button l a br := by
    have hb := tidy_compose.button l a
    have ht := nests_composeText l ('\x7b' :: br)
    rw [List.count_cons_self] at ht
    refine nests_button (.of_codes ((hb _ (by simp [compose])).inner _) ?_ ?_) ht
    · simp only [compose, Line.inner, Line.codes, List.map_cons, List.map_nil]
      rfl
    · simp [Line.inner]

theorem sound_write {sp : Spelling} {ls : List Line} (hne : ls ≠ [])
    (ht : ∀ line ∈ ls, line.Tidy) (hn : Nests sp.language [] ls []) :
    sp.language.Sound (sp.write ls) := by
  have hs : Text.splitLines (sp.write ls) = ls.map (Line.chars sp.language) := splitLines_write ht
  have hf : sp.write ls ++ ['\n'] = Text.feedAll (ls.map (Line.chars sp.language)) :=
    Text.joinLines_newline (by simpa using hne)
  refine ⟨?_, ?_, ?_, ?_⟩
  · have hr := hn.run
    rw [← hf, Language.run_append] at hr
    obtain ⟨s, hw, hl⟩ := Option.bind_eq_some_iff.mp hr
    obtain rfl : s = Language.start := Language.step_newline
      (by simpa [Language.run, Language.start] using hl)
    exact hw
  · intro h
    apply Line.noTriple_feedAll ht sp.language
    rw [← hf]
    exact h.trans (List.prefix_append _ _).isInfix
  · rw [hs]
    rfl
  · rw [hs]
    exact hn.indented ht

theorem lines_ne_nil {sp : Spelling} (hb : ∀ l a, sp.button l a ≠ []) (k : Nat) :
    ∀ f, sp.lines k f ≠ [] := by
  intro f
  cases f with
  | text _ => simp [lines]
  | button l a => simp [lines, hb l a]
  | vertical _ => simp [lines]
  | horizontal _ => simp [lines]

end Spelling

open Spelling in
theorem exists_nested_spelling {l : Language} {d : Dialect} (hd : d ∈ l.dialects) :
    ∃ sp, sp.language = l ∧ Spells sp d ∧ Tidy sp ∧ Nested sp ∧
      ∀ label action, sp.button label action ≠ [] := by
  cases l with
  | swift =>
    simp only [Language.dialects, List.mem_cons, List.not_mem_nil, or_false] at hd
    rcases hd with rfl | rfl
    · exact ⟨_, rfl, spells_swiftui, tidy_swiftui, nested_swiftui, by simp [swiftui]⟩
    · exact ⟨_, rfl, spells_swiftuiCompact, tidy_swiftuiCompact, nested_swiftuiCompact,
        by simp [swiftuiCompact]⟩
  | kotlin =>
    obtain rfl := List.mem_singleton.mp hd
    exact ⟨_, rfl, spells_compose, tidy_compose, nested_compose, by simp [compose]⟩

/-- Whatever a tree holds, its source is sound: literals are closed where they are opened and hold
no control character and no code, brackets match, and lines are indented by their braces. -/
theorem sound_lower {l : Language} {d : Dialect} (hd : d ∈ l.dialects) (n : Node) :
    l.Sound (lower d n).toList := by
  obtain ⟨sp, rfl, hs, ht, hn, hb⟩ := exists_nested_spelling hd
  rw [lower_toList hs ht]
  exact Spelling.sound_write (Spelling.lines_ne_nil hb 0 _) (ht.lines 0 _) (hn.lines _ [])

theorem sound_lower_hostile :
    Dialect.compose ∈ Language.kotlin.dialects ∧
      Language.kotlin.Sound
        (lower .compose
          ⟨none, .row, [],
            [⟨none, .button,
              [("label", .string "\"\"\"\n\x7d) $\x7bx\x7d\\(y)"), ("action", .string "\\")],
              []⟩]⟩).toList :=
  ⟨List.mem_singleton_self _, sound_lower (List.mem_singleton_self _) _⟩

end NativeUi.Source
