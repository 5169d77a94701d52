import NativeUi.Proofs.Source.Scanner
import NativeUi.Proofs.Template.Splice

/-!
# Templates of source

A template of source is looked at once, with its placeholders in it. Where they stand so that what
belongs there can do no harm, the scanner takes the filled template as it takes the template. Lines
that start with a given text are found in the template, too.
-/
namespace NativeUi

open Source (Language)

namespace Source.Language

theorem escapeUnit_of_isPlain {l : Language} {c : Char} (h : l.isPlain c = true) :
    l.escapeUnit c = [c] := by
  simp only [isPlain, Bool.and_eq_true, decide_eq_true_eq, Bool.not_eq_true'] at h
  obtain ⟨⟨⟨hq, hb⟩, hc⟩, hd⟩ := h
  have ne_of_isControl {x : Char} (hx : Text.isControl x = true) : c ≠ x := by
    rintro rfl
    exact absurd hc (by simp [hx])
  have hd : ¬(l = .kotlin ∧ c = '$') := by simpa using hd
  rw [escapeUnit, if_neg hd, escapeChar, if_neg hb, if_neg hq,
    if_neg (ne_of_isControl (by decide)), if_neg (ne_of_isControl (by decide)),
    if_neg (ne_of_isControl (by decide)), hc]
  rfl

theorem flatMap_escapeUnit_of_isPlain {l : Language} {cs : List Char}
    (h : ∀ c ∈ cs, l.isPlain c = true) : cs.flatMap l.escapeUnit = cs := by
  induction cs with
  | nil => rfl
  | cons c cs ih =>
    rw [List.flatMap_cons, escapeUnit_of_isPlain (h c (.head _)), ih fun x hx => h x (.tail _ hx)]
    rfl

end Source.Language

/-! ### Lines that start with a text -/

namespace Source

def headed (word : String) (content : List Char) : List (List Char) :=
  (content.splitOn '\n').filterMap (Template.afterText? (word.toList ++ [' ']))

def assigned (l : Language) (name : String) (content : List Char) :
    List (Option (List Char × List Char)) :=
  (content.splitOn '\n').filterMap fun line =>
    (Template.afterText? (name.toList ++ [' ', '=', ' ', '"'])
      (line.dropWhile (· = ' '))).map l.read

end Source

namespace Template

/-! ### Placeholders under the scanner -/

def isPackageChar (c : Char) : Bool := c.isAlphanum || c = '_' || c = '.'

theorem ne_of_isPackageChar {c x : Char} (h : isPackageChar c = true)
    (hx : isPackageChar x = false) : c ≠ x := by
  rintro rfl
  exact absurd h (by simp [hx])

/-- What can be put into source: a package with its own characters only, a name that has been
escaped, and lines behind a margin that leave the scanner in as many braces as they stand in. -/
structure Slot.Fits (l : Language) (margin : Nat) (value : Slot → List Char) : Prop where
  package_ne_nil : value .package ≠ []
  package : ∀ c ∈ value .package, isPackageChar c = true
  name : ∃ cs, cs ≠ [] ∧ value .kotlinName = cs.flatMap Language.kotlin.escapeUnit
  content : ∀ br : List Char, 4 * br.count '\x7b' = margin →
    l.scan ⟨.code, br⟩ (value .content) = some ⟨.code, br⟩
  lines : ∀ line ∈ (value .content).splitOn '\n', line.head? = some ' '

/-- One token under the scanner. A placeholder is taken as a whole, without its text. -/
def pass (l : Language) (margin : Nat) (s : Language.Scanner) : Token → Option Language.Scanner
  | .char c => l.advance s c
  | .slot .package =>
    if s.phase = .code then some s
    else if s.phase = .quote ∨ s.phase = .literal then some ⟨.literal, s.brackets⟩
    else none
  | .slot .kotlinName =>
    if l = .kotlin ∧ (s.phase = .quote ∨ s.phase = .literal) then some ⟨.literal, s.brackets⟩
    else none
  | .slot .content =>
    if s.phase = .code ∧ 4 * s.brackets.count '\x7b' = margin then some s else none
  | .slot _ => none

def passes (l : Language) (margin : Nat) (ts : List Token) : Bool :=
  ts.foldlM (pass l margin) Language.Scanner.start = some .start

variable {l : Language} {margin : Nat} {value : Slot → List Char}

theorem run_package {cs : List Char} (h : ∀ c ∈ cs, isPackageChar c = true) (br : List Char) :
    l.run ⟨.code, br⟩ cs = some ⟨.code, br⟩ := by
  apply Language.run_still
  intro c hc hm
  have hmarks : (Language.marks.all fun x => !isPackageChar x) = true := by decide
  exact absurd (h c hc) (by simpa using List.all_eq_true.mp hmarks c hm)

theorem isPackageChar_of_isControl {c : Char} (h : Text.isControl c = true) :
    isPackageChar c = false := by
  have hall : ∀ n < 256, Text.isControl (Char.ofNat n) = true →
      isPackageChar (Char.ofNat n) = false := by decide +kernel
  have hc := hall c.toNat (Language.isControl_lt h)
  rw [Char.ofNat_toNat] at hc
  exact hc h

theorem isPlain_of_isPackageChar {c : Char} (h : isPackageChar c = true) : l.isPlain c = true := by
  have hc : Text.isControl c = false := by
    cases hc : Text.isControl c with
    | false => rfl
    | true => exact absurd h (by simp [isPackageChar_of_isControl hc])
  have other (x : Char) (hx : isPackageChar x = false) := ne_of_isPackageChar h hx
  simp [Language.isPlain, hc, other '"' (by decide), other '\\' (by decide),
    other '$' (by decide)]

namespace Slot.Fits

/-- The step: what takes the place of a token goes where the token goes. -/
theorem scan_of_pass (h : Fits l margin value) {s t : Language.Scanner} {token : Token}
    (hp : pass l margin s token = some t) : l.scan s (token.chars value) = some t := by
  obtain ⟨phase, br⟩ := s
  have hplain (c : Char) (hc : c ∈ value .package) : l.isPlain c = true :=
    isPlain_of_isPackageChar (h.package c hc)
  cases token with
  | char c => simpa [Token.chars, Language.scan, pass] using hp
  | slot s =>
    cases s with
    | package =>
      simp only [pass] at hp
      split_ifs at hp with hcode hlit
      · obtain rfl : phase = .code := hcode
        obtain rfl := Option.some.inj hp
        refine Language.scan_code (fun hm => ?_) (fun hm => ?_) (run_package h.package br)
        · exact absurd (h.package _ hm) (by decide)
        · exact absurd (h.package _ hm) (by decide)
      · obtain rfl := Option.some.inj hp
        have hs := Language.scan_escaped (l := l) hlit h.package_ne_nil br
        rwa [Language.flatMap_escapeUnit_of_isPlain hplain] at hs
    | kotlinName =>
      simp only [pass, Option.ite_none_right_eq_some] at hp
      obtain ⟨⟨rfl, hlit⟩, hp⟩ := hp
      obtain rfl := Option.some.inj hp
      obtain ⟨cs, hne, hv⟩ := h.name
      rw [Token.chars, hv]
      exact Language.scan_escaped hlit hne br
    | content =>
      simp only [pass, Option.ite_none_right_eq_some] at hp
      obtain ⟨⟨rfl, hbr⟩, hp⟩ := hp
      obtain rfl := Option.some.inj hp
      exact h.content br hbr
    | packagePath => cases hp
    | xmlName => cases hp
    | xmlPackage => cases hp

/-- The run: a filled template is scanned as the template is passed. -/
theorem scan_of_foldlM (h : Fits l margin value) {s t : Language.Scanner} {ts : List Token}
    (hp : ts.foldlM (pass l margin) s = some t) :
    l.scan s (ts.flatMap (Token.chars value)) = some t := by
  induction ts generalizing s with
  | nil => exact hp
  | cons token ts ih =>
    rw [List.foldlM_cons] at hp
    obtain ⟨u, hu, hp⟩ := Option.bind_eq_some_iff.mp hp
    rw [List.flatMap_cons, Language.scan_append_of_eq (h.scan_of_pass hu), ih hp]

theorem balanced (h : Fits l margin value) {ts : List Token} (hp : passes l margin ts = true) :
    l.Balanced (ts.flatMap (Token.chars value)) :=
  Language.balanced_of_scan (h.scan_of_foldlM (by simpa [passes] using hp))

end Slot.Fits

/-! ### Lines of a template -/

theorem flatMap_chars_char (value : Slot → List Char) (cs : List Char) :
    (cs.map Token.char).flatMap (Token.chars value) = cs := by
  rw [List.flatMap_map]
  exact List.flatMap_singleton' cs

theorem splitOn_flatMap_intercalate (value : Slot → List Char) {ls : List (List Token)}
    (hne : ls ≠ []) :
    ((List.intercalate [.char '\n'] ls).flatMap (Token.chars value)).splitOn '\n' =
      ls.flatMap fun line => (line.flatMap (Token.chars value)).splitOn '\n' := by
  induction ls with
  | nil => exact absurd rfl hne
  | cons line ls ih =>
    cases ls with
    | nil => simp
    | cons next ls =>
      rw [List.intercalate_cons_cons, List.flatMap_append, List.flatMap_append, List.append_assoc,
        @List.flatMap_cons _ _ line (next :: ls), ← ih (List.cons_ne_nil _ _)]
      exact List.splitOn_append_cons_self _ _

theorem splitOn_flatMap_chars (value : Slot → List Char) (ts : List Token) :
    (ts.flatMap (Token.chars value)).splitOn '\n' =
      (ts.splitOn (.char '\n')).flatMap fun line =>
        (line.flatMap (Token.chars value)).splitOn '\n' := by
  rw [← splitOn_flatMap_intercalate value (List.splitOn_ne_nil _ ts), List.intercalate_splitOn]

def findLines (find : List Token → Option (List (List Token))) (ts : List Token) :
    Option (List (List Token)) :=
  ((ts.splitOn (.char '\n')).mapM find).map List.flatten

theorem filterMap_lines {α : Type} {look : List Char → Option α}
    {find : List Token → Option (List (List Token))} (read : List Char → α)
    (hf : ∀ line found, find line = some found →
      ((line.flatMap (Token.chars value)).splitOn '\n').filterMap look =
        found.map fun rest => read (rest.flatMap (Token.chars value)))
    {ts : List Token} {found : List (List Token)} (h : findLines find ts = some found) :
    ((ts.flatMap (Token.chars value)).splitOn '\n').filterMap look =
      found.map fun rest => read (rest.flatMap (Token.chars value)) := by
  obtain ⟨found, hm, rfl⟩ := Option.map_eq_some_iff.mp h
  clear h
  rw [splitOn_flatMap_chars]
  generalize ts.splitOn (.char '\n') = lines at hm
  induction lines generalizing found with
  | nil =>
    obtain rfl : found = [] := by simpa using hm.symm
    rfl
  | cons line lines ih =>
    rw [List.mapM_cons] at hm
    obtain ⟨first, hfirst, hm⟩ := Option.bind_eq_some_iff.mp hm
    obtain ⟨more, hmore, hm⟩ := Option.bind_eq_some_iff.mp hm
    obtain rfl := Option.some.inj hm
    rw [List.flatMap_cons, List.filterMap_append, hf line first hfirst, ih more hmore,
      List.flatten_cons, List.map_append]

def strip : List Char → List Token → Option (Option (List Token))
  | [], ts => some (some ts)
  | _ :: _, [] => some none
  | c :: cs, .char d :: ts => if c = d then strip cs ts else some none
  | _ :: _, .slot _ :: _ => none

theorem afterText?_of_strip {cs : List Char} {ts : List Token} {r : Option (List Token)}
    (h : strip cs ts = some r) (value : Slot → List Char) :
    afterText? cs (ts.flatMap (Token.chars value)) =
      r.map (List.flatMap (Token.chars value)) := by
  induction cs generalizing ts with
  | nil =>
    obtain rfl := Option.some.inj h
    simp [afterText?]
  | cons c cs ih =>
    cases ts with
    | nil =>
      obtain rfl := Option.some.inj h
      rfl
    | cons token ts =>
      cases token with
      | slot s => cases h
      | char d =>
        rw [strip] at h
        rw [List.flatMap_cons, Token.chars, List.singleton_append]
        split at h
        · next hcd =>
          subst hcd
          rw [← ih h]
          simp [afterText?]
        · next hcd =>
          obtain rfl := Option.some.inj h
          simp [afterText?, hcd]

def Token.isInline : Token → Bool
  | .char c => c ≠ '\n'
  | .slot .package | .slot .kotlinName => true
  | .slot _ => false

theorem Slot.Fits.not_mem_of_isInline (h : Fits l margin value) {line : List Token}
    (hl : line.all Token.isInline = true) : '\n' ∉ line.flatMap (Token.chars value) := by
  intro hm
  obtain ⟨token, ht, hm⟩ := List.mem_flatMap.mp hm
  have hi := List.all_eq_true.mp hl token ht
  cases token with
  | char c =>
    obtain rfl := List.mem_singleton.mp hm
    exact absurd hi (by decide)
  | slot s =>
    cases s with
    | package => exact absurd (h.package _ hm) (by decide)
    | kotlinName =>
      obtain ⟨cs, -, hv⟩ := h.name
      rw [Token.chars, hv] at hm
      exact absurd (Language.isControl_of_mem_escape _ hm) (by decide)
    | packagePath => cases hi
    | xmlName => cases hi
    | xmlPackage => cases hi
    | content => cases hi

def lineHead (start : List Char) (line : List Token) : Option (List (List Token)) :=
  if line = [.slot .content] then some []
  else if line.all Token.isInline then (strip start line).map Option.toList
  else none

theorem Slot.Fits.filterMap_of_lineHead (h : Fits l margin value) {start : List Char}
    (hs : start.head?.any (· ≠ ' ') = true) {line : List Token} {found : List (List Token)}
    (hf : lineHead start line = some found) :
    ((line.flatMap (Token.chars value)).splitOn '\n').filterMap (afterText? start) =
      found.map (List.flatMap (Token.chars value)) := by
  rw [lineHead] at hf
  split_ifs at hf with hc hl
  · subst hc
    obtain rfl := Option.some.inj hf
    rw [List.map_nil, List.filterMap_eq_nil_iff, List.flatMap_singleton, Token.chars]
    intro x hx
    obtain ⟨x, rfl⟩ := List.head?_eq_some_iff.mp (h.lines x hx)
    cases start with
    | nil => cases hs
    | cons c start =>
      have hc : c ≠ ' ' := by simpa using hs
      simp [afterText?, hc]
  · obtain ⟨r, hr, rfl⟩ := Option.map_eq_some_iff.mp hf
    rw [List.splitOn_eq_singleton (h.not_mem_of_isInline hl)]
    cases r with
    | none => simp [afterText?_of_strip hr]
    | some rest => simp [afterText?_of_strip hr]

def lineInset (start : List Char) (line : List Token) : Option (List (List Token)) :=
  if line.all Token.isInline then
    (strip start (line.dropWhile (· = .char ' '))).map Option.toList
  else none

theorem dropWhile_of_strip {start : List Char} (hs : start ≠ []) {line : List Token}
    {r : Option (List Token)} (h : strip start (line.dropWhile (· = .char ' ')) = some r)
    (value : Slot → List Char) :
    (line.flatMap (Token.chars value)).dropWhile (· = ' ') =
      (line.dropWhile (· = .char ' ')).flatMap (Token.chars value) := by
  induction line with
  | nil => rfl
  | cons token line ih =>
    cases token with
    | slot s =>
      obtain ⟨c, cs, rfl⟩ := List.exists_cons_of_ne_nil hs
      cases h
    | char c =>
      rw [List.flatMap_cons, Token.chars, List.singleton_append]
      by_cases hc : c = ' '
      · subst hc
        rw [List.dropWhile_cons_of_pos (by simp)] at h ⊢
        rw [ih h, List.dropWhile_cons_of_pos (by simp)]
      · rw [List.dropWhile_cons_of_neg (by simpa using hc),
          List.dropWhile_cons_of_neg (by simpa using hc), List.flatMap_cons]
        rfl

theorem Slot.Fits.filterMap_of_lineInset (h : Fits l margin value) {start : List Char}
    (hs : start ≠ []) {α : Type} (read : List Char → α) {line : List Token}
    {found : List (List Token)} (hf : lineInset start line = some found) :
    ((line.flatMap (Token.chars value)).splitOn '\n').filterMap
        (fun line => (afterText? start (line.dropWhile (· = ' '))).map read) =
      found.map fun rest => read (rest.flatMap (Token.chars value)) := by
  simp only [lineInset, Option.ite_none_right_eq_some] at hf
  obtain ⟨hl, hf⟩ := hf
  obtain ⟨r, hr, rfl⟩ := Option.map_eq_some_iff.mp hf
  rw [List.splitOn_eq_singleton (h.not_mem_of_isInline hl)]
  cases r with
  | none => simp [dropWhile_of_strip hs hr, afterText?_of_strip hr]
  | some rest => simp [dropWhile_of_strip hs hr, afterText?_of_strip hr]

theorem Slot.Fits.headed (h : Fits l margin value) {word : String} {cs : List Char}
    (hw : word = String.ofList cs) (hs : cs.head?.any (· ≠ ' ') = true) {ts : List Token}
    {found : List (List Token)} (hf : findLines (lineHead (cs ++ [' '])) ts = some found) :
    Source.headed word (ts.flatMap (Token.chars value)) =
      found.map (List.flatMap (Token.chars value)) := by
  have hs : (cs ++ [' ']).head?.any (· ≠ ' ') = true := by
    cases cs with
    | nil => cases hs
    | cons c cs => exact hs
  rw [Source.headed, hw, String.toList_ofList]
  exact filterMap_lines id (fun _ _ hl => h.filterMap_of_lineHead hs hl) hf

theorem Slot.Fits.assigned (h : Fits l margin value) {name : String} {cs : List Char}
    (hn : name = String.ofList cs) {ts : List Token} {found : List (List Token)}
    (hf : findLines (lineInset (cs ++ [' ', '=', ' ', '"'])) ts = some found) (k : Language) :
    Source.assigned k name (ts.flatMap (Token.chars value)) =
      found.map fun rest => k.read (rest.flatMap (Token.chars value)) := by
  rw [Source.assigned, hn, String.toList_ofList]
  exact filterMap_lines k.read (fun _ _ hl => h.filterMap_of_lineInset (by simp) k.read hl) hf

end Template

end NativeUi
