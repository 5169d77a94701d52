import NativeUi.Project
import NativeUi.Proofs.Job
import NativeUi.Proofs.Text.Lines

/-!
# Splicing

What a template of the program comes to, without reading tags: its text is kept, and each
placeholder in it gives way to what belongs there. Nothing that has been put in is looked at again.
Filling a template gives just this.
-/
namespace NativeUi

def Platform.margin : Platform → Nat
  | .android => 4
  | .ios => 8
  | .macos => 12

namespace Template

inductive Slot where
  | package
  | packagePath
  | xmlName
  | xmlPackage
  | kotlinName
  | content
deriving DecidableEq

namespace Slot

def all : List Slot := [.package, .packagePath, .xmlName, .xmlPackage, .kotlinName, .content]

def label (p : Platform) : Slot → List Char
  | .package => "package_id".toList
  | .packagePath => "package_path".toList
  | .xmlName => "xml_escape app_name".toList
  | .xmlPackage => "xml_escape package_id".toList
  | .kotlinName => "kotlin_string app_name".toList
  | .content => "indent content ".toList ++ Nat.toDigits 10 p.margin

def place (p : Platform) (s : Slot) : List Char := opening ++ (s.label p ++ closing)

def value (o : ProjectOptions) (region : List Char) : Slot → List Char
  | .package => o.packageId.toList
  | .packagePath => o.packageId.toList.map fun c => if c = '.' then '/' else c
  | .xmlName => (Source.escapeXml o.appName).toList
  | .xmlPackage => (Source.escapeXml o.packageId).toList
  | .kotlinName => (Source.escapeKotlin o.appName).toList
  | .content => region

end Slot

/-- A template and what comes of it. Where two braces open there is a placeholder, and it is
replaced as a whole; all else stays. -/
inductive Spliced (p : Platform) (value : Slot → List Char) : List Char → List Char → Prop where
  | nil : Spliced p value [] []
  | keep {c : Char} {cs out : List Char} (plain : ¬opening <+: c :: cs)
      (rest : Spliced p value cs out) : Spliced p value (c :: cs) (c :: out)
  | replace (s : Slot) {cs out : List Char} (rest : Spliced p value cs out) :
      Spliced p value (s.place p ++ cs) (value s ++ out)

theorem Slot.place_append_inj {p : Platform} {s t : Slot} {cs ds : List Char}
    (h : s.place p ++ cs = t.place p ++ ds) : s = t ∧ cs = ds := by
  have hb : ∀ s : Slot, '\x7d' ∉ s.label p := by
    intro s
    cases p <;> cases s <;> decide
  have hl : ∀ s t : Slot, s.label p = t.label p → s = t := by
    intro s t
    cases p <;> cases s <;> cases t <;> decide
  simp only [place, List.append_assoc, List.append_cancel_left_eq, closing, List.cons_append,
    List.nil_append] at h
  obtain ⟨hst, hrest⟩ := Text.append_cons_inj (hb s) (hb t) h
  exact ⟨hl s t hst, (List.cons.inj hrest).2⟩

theorem Spliced.unique {p : Platform} {value : Slot → List Char} {cs a b : List Char}
    (ha : Spliced p value cs a) (hb : Spliced p value cs b) : a = b := by
  induction ha generalizing b with
  | nil =>
    generalize hc : ([] : List Char) = cs at hb
    cases hb with
    | nil => rfl
    | keep plain rest => cases hc
    | replace s rest => cases hc
  | @keep c cs a plain rest ih =>
    generalize hc : c :: cs = ds at hb
    cases hb with
    | nil => cases hc
    | keep _ rest =>
      obtain ⟨rfl, rfl⟩ := List.cons.inj hc
      rw [ih rest]
    | replace s rest => exact absurd ⟨_, hc.symm⟩ plain
  | @replace s cs a rest ih =>
    generalize hc : s.place p ++ cs = ds at hb
    cases hb with
    | nil => cases hc
    | keep plain rest => exact absurd ⟨_, hc⟩ plain
    | replace t rest =>
      obtain ⟨rfl, rfl⟩ := Slot.place_append_inj hc
      rw [ih rest]

/-! ### Tags -/

namespace Slot

def expression (p : Platform) : Slot → Expression
  | .package => .reference (.data ["package_id"])
  | .packagePath => .reference (.data ["package_path"])
  | .xmlName => .call "xml_escape" [.reference (.data ["app_name"])] []
  | .xmlPackage => .call "xml_escape" [.reference (.data ["package_id"])] []
  | .kotlinName => .call "kotlin_string" [.reference (.data ["app_name"])] []
  | .content => .call "indent" [.reference (.data ["content"]), .literal (countJson p.margin)] []

end Slot

theorem before_append (cs rest : List Char) : before (cs ++ rest) rest = cs := by
  simp [before]

theorem scanArgument?_literal {digits rest : List Char} {v : Json} {k : Nat}
    (hr : isReserved (digits ++ rest) = false) (ha : afterLiteral? k (digits ++ rest) = some rest)
    (hl : literalText digits = digits) (hv : Json.parse (String.ofList digits) = .ok v) :
    scanArgument? (k + 1) (digits ++ rest) = some (.literal v, rest) := by
  simp [scanArgument?, hr, scanLiteral?, ha, before_append, hl, hv]

theorem scanArguments_cons {one : List Char → Option (Expression × List Char)} {k : Nat}
    {cs rest : List Char} {e : Expression} (hl : scanLabel? (skipSpaces cs) = none)
    (ho : one (skipSpaces cs) = some (e, rest)) :
    scanArguments one (k + 1) cs =
      (⟨e :: (scanArguments one k rest).1.places, (scanArguments one k rest).1.named⟩,
        (scanArguments one k rest).2) := by
  rw [scanArguments]
  simp only [hl, ho]

theorem scanArgument?_margin (p : Platform) (k : Nat) (rest : List Char) :
    scanArgument? (k + 14) (Nat.toDigits 10 p.margin ++ (closing ++ rest)) =
      some (.literal (countJson p.margin), closing ++ rest) := by
  have hv : Json.parse (String.ofList (Nat.toDigits 10 p.margin)) =
      .ok (countJson p.margin) := by cases p <;> rfl
  apply scanArgument?_literal _ _ _ hv
  · cases p <;> rfl
  · cases p <;> rfl
  · cases p <;> rfl

theorem scanCall?_indent (p : Platform) (k : Nat) (rest : List Char) :
    scanCall? (scanArgument? (k + 14)) (k + 14) (Slot.content.label p ++ (closing ++ rest)) =
      some (Slot.content.expression p, closing ++ rest) := by
  have hend : scanArguments (scanArgument? (k + 14)) (k + 12) (closing ++ rest) =
      (⟨[], []⟩, closing ++ rest) := rfl
  have hnumber : scanArguments (scanArgument? (k + 14)) (k + 13)
      (' ' :: Nat.toDigits 10 p.margin ++ (closing ++ rest)) =
        (⟨[.literal (countJson p.margin)], []⟩, closing ++ rest) := by
    have hs : skipSpaces (' ' :: Nat.toDigits 10 p.margin ++ (closing ++ rest)) =
        Nat.toDigits 10 p.margin ++ (closing ++ rest) := by cases p <;> rfl
    have hl : scanLabel? (Nat.toDigits 10 p.margin ++ (closing ++ rest)) = none := by
      cases p <;> rfl
    rw [scanArguments_cons (hs ▸ hl) (hs ▸ scanArgument?_margin p k rest), hend]
  have harguments : scanArguments (scanArgument? (k + 14)) (k + 14)
      (" content ".toList ++ Nat.toDigits 10 p.margin ++ (closing ++ rest)) =
        (⟨[.reference (.data ["content"]), .literal (countJson p.margin)], []⟩,
          closing ++ rest) := by
    have hl : scanLabel? (skipSpaces (" content ".toList ++ Nat.toDigits 10 p.margin ++
        (closing ++ rest))) = none := by cases p <;> rfl
    have ho : scanArgument? (k + 14) (skipSpaces (" content ".toList ++
        Nat.toDigits 10 p.margin ++ (closing ++ rest))) =
          some (.reference (.data ["content"]),
            ' ' :: Nat.toDigits 10 p.margin ++ (closing ++ rest)) := by cases p <;> rfl
    rw [scanArguments_cons hl ho, hnumber]
  have hname : scanName? (Slot.content.label p ++ (closing ++ rest)) =
      some ("indent", " content ".toList ++ Nat.toDigits 10 p.margin ++ (closing ++ rest)) := rfl
  rw [scanCall?, hname]
  simp only [harguments]
  rfl

theorem scanPlainTag?_of_expression {limit : Nat} {cs rest : List Char} {e : Expression}
    (hs : skipSpaces cs = cs) (ht : scanTilde cs = (false, cs))
    (he : scanExpression? limit cs = some (e, closing ++ rest)) :
    scanPlainTag? limit cs = some (.tag e false false, rest) := by
  have hend : scanEnd? (closing ++ rest) = some (false, rest) := rfl
  simp [scanPlainTag?, hs, ht, he, hend]

theorem scanTag_of_plainTag {limit : Nat} {cs : List Char} {x : Piece × List Char}
    (hc : cs.head? ≠ some '!') (hi : isElse limit cs = false)
    (hp : scanPlainTag? limit cs = some x) : scanTag limit cs = .ok x := by
  unfold scanTag
  split
  · exact absurd rfl hc
  · simp only [hi, hp, Bool.false_eq_true, if_false]

theorem scanTag_label (p : Platform) (s : Slot) (k : Nat) (rest : List Char) :
    scanTag (k + 14) (s.label p ++ (closing ++ rest)) =
      .ok (.tag (s.expression p) false false, rest) := by
  cases s with
  | content =>
    have he : scanExpression? (k + 14) (Slot.content.label p ++ (closing ++ rest)) =
        some (Slot.content.expression p, closing ++ rest) := by
      unfold scanExpression?
      rw [scanCall?_indent]
    have hc : (Slot.content.label p ++ (closing ++ rest)).head? = some 'i' := rfl
    have hp := scanPlainTag?_of_expression rfl rfl he
    exact scanTag_of_plainTag (by rw [hc]; decide) rfl hp
  | _ => rfl

theorem fillSegment_place (p : Platform) (o : ProjectOptions) (code : String) (s : Slot) :
    fillSegment (Generator.templateData o code) (.place (s.expression p)) =
      .ok (s.value o (indentLines p.margin code).toList) := by
  cases s with
  | content => cases p <;> rfl
  | packagePath =>
    rw [Slot.value, ← String.toList_map]
    rfl
  | _ => rfl

/-! ### Pieces -/

def Piece.IsPlain : Piece → Prop
  | .text _ => True
  | .comment => False
  | .tag _ trimsBefore trimsAfter => trimsBefore = false ∧ trimsAfter = false

def Piece.segment : Piece → Segment
  | .text cs => .text cs
  | .comment => .text []
  | .tag e _ _ => .place e

theorem cutEnd_plain {ps : List Piece} (h : ∀ q ∈ ps, q.IsPlain) (alone : Bool) (cs : List Char) :
    cutEnd alone ps cs = cs := by
  unfold cutEnd
  split
  · exact (h _ (.head _)).elim
  · exact absurd (h _ (.head _)).1 (by decide)
  · rfl

theorem arrange_plain {ps : List Piece} (h : ∀ q ∈ ps, q.IsPlain) (lineStart first : Bool) :
    arrange lineStart first false .nothing ps = ps.map Piece.segment := by
  induction ps generalizing lineStart first with
  | nil => rfl
  | cons q ps ih =>
    have hps : ∀ r ∈ ps, r.IsPlain := fun r hr => h r (.tail _ hr)
    cases q with
    | text cs => simp only [arrange, Cut.apply, cutEnd_plain hps, List.map_cons, Piece.segment,
        Bool.false_eq_true, if_false, ih hps]
    | comment => exact (h _ (.head _)).elim
    | tag e trimsBefore trimsAfter =>
      obtain ⟨-, rfl⟩ := h _ (.head _)
      simp only [arrange, List.map_cons, Piece.segment, Bool.false_eq_true, if_false, ih hps]

theorem isPlain_consText {ps : List Piece} (h : ∀ q ∈ ps, q.IsPlain) (c : Char) :
    ∀ q ∈ consText c ps, q.IsPlain := by
  unfold consText
  split
  · exact List.forall_mem_cons.mpr ⟨trivial, fun q hq => h q (.tail _ hq)⟩
  · exact List.forall_mem_cons.mpr ⟨trivial, h⟩

theorem fill_consText {data : Json} {ps : List Piece} {out : List Char}
    (h : fill data (ps.map Piece.segment) = .ok out) (c : Char) :
    fill data ((consText c ps).map Piece.segment) = .ok (c :: out) := by
  unfold consText
  split
  · rw [List.map_cons, Piece.segment, fill] at h ⊢
    obtain ⟨cs, hcs, h⟩ := bind_eq_ok_iff.mp h
    obtain ⟨rest, hrest, h⟩ := bind_eq_ok_iff.mp h
    obtain rfl := Except.ok.inj hcs
    obtain rfl := Except.ok.inj h
    rw [hrest]
    rfl
  · rw [List.map_cons, Piece.segment, fill, h]
    rfl

theorem Slot.length_place (p : Platform) (s : Slot) : 14 ≤ (s.place p).length := by
  cases p <;> cases s <;> decide

variable {p : Platform} {value : Slot → List Char} {data : Json}

theorem Spliced.pieces
    (ht : ∀ s : Slot, fillSegment data (.place (s.expression p)) = .ok (value s))
    {cs out : List Char} (h : Spliced p value cs out) (hb : '\\' ∉ cs) {fuel : Nat}
    (hf : cs.length < fuel) :
    ∃ ps, pieces fuel cs = .ok ps ∧ (∀ q ∈ ps, q.IsPlain) ∧
      fill data (ps.map Piece.segment) = .ok out := by
  obtain ⟨fuel, rfl⟩ := Nat.exists_eq_add_one_of_ne_zero (Nat.ne_zero_of_lt hf)
  induction h generalizing fuel with
  | nil => exact ⟨[], rfl, by simp, rfl⟩
  | @keep c cs out plain rest ih =>
    obtain ⟨hc, hb⟩ : c ≠ '\\' ∧ _ := by simpa [eq_comm] using hb
    have hn : backslashes? (c :: cs) = none := by simp [backslashes?, hc]
    have hlt : cs.length < fuel := Nat.lt_of_succ_lt_succ hf
    obtain ⟨fuel, rfl⟩ := Nat.exists_eq_add_one_of_ne_zero (Nat.ne_zero_of_lt hlt)
    obtain ⟨ps, hps, hplain, hfill⟩ := ih hb fuel hlt
    refine ⟨consText c ps, ?_, isPlain_consText hplain c, fill_consText hfill c⟩
    rw [Template.pieces]
    · simp only [hn, hps, ok_bind]
    · rintro ds rfl rfl
      exact plain ⟨ds, rfl⟩
  | @replace s cs out rest ih =>
    have hlen := s.length_place p
    rw [List.length_append] at hf
    obtain ⟨k, rfl⟩ := Nat.exists_eq_add_of_le' (show 14 ≤ fuel by omega)
    obtain ⟨ps, hps, hplain, hfill⟩ :=
      ih (fun hm => hb (List.mem_append_right _ hm)) (k + 13) (by omega)
    refine ⟨.tag (s.expression p) false false :: ps, ?_, ?_, ?_⟩
    · rw [Slot.place, List.append_assoc, List.append_assoc]
      change Template.pieces (k + 14 + 1) ('\x7b' :: '\x7b' :: (s.label p ++ (closing ++ cs))) = _
      rw [Template.pieces, scanTag_label, ok_bind]
      simp only [hps, ok_bind]
    · exact List.forall_mem_cons.mpr ⟨⟨rfl, rfl⟩, hplain⟩
    · rw [List.map_cons, Piece.segment, fill, ht, ok_bind, hfill, ok_bind]

theorem Spliced.render
    (ht : ∀ s : Slot, fillSegment data (.place (s.expression p)) = .ok (value s))
    {template : String} {out : List Char} (h : Spliced p value template.toList out)
    (hb : '\\' ∉ template.toList) : render template data = .ok (String.ofList out) := by
  obtain ⟨ps, hps, hplain, hfill⟩ := h.pieces ht hb (Nat.lt_succ_self _)
  rw [Template.render, parse, hps, ok_bind, ok_bind, arrange_plain hplain, hfill, ok_bind]

/-! ### Tokens -/

inductive Token where
  | char (c : Char)
  | slot (s : Slot)
deriving DecidableEq

def Token.chars (value : Slot → List Char) : Token → List Char
  | .char c => [c]
  | .slot s => value s

/-- The characters and placeholders of a template; none if two braces open something else. The
number bounds how many there are. -/
def tokens (p : Platform) : Nat → List Char → Option (List Token)
  | _, [] => some []
  | 0, _ :: _ => none
  | fuel + 1, c :: cs =>
    if opening.isPrefixOf (c :: cs) then
      match Slot.all.find? fun s => (s.place p).isPrefixOf (c :: cs) with
      | some s => (tokens p fuel ((c :: cs).drop (s.place p).length)).map (.slot s :: ·)
      | none => none
    else (tokens p fuel cs).map (.char c :: ·)

theorem spliced_of_tokens {fuel : Nat} {cs : List Char} {ts : List Token}
    (h : tokens p fuel cs = some ts) (value : Slot → List Char) :
    Spliced p value cs (ts.flatMap (Token.chars value)) := by
  fun_induction tokens p fuel cs generalizing ts with
  | case1 =>
    obtain rfl := Option.some.inj h
    exact .nil
  | case2 => cases h
  | case3 fuel c cs hopen s hs ih =>
    obtain ⟨us, hus, rfl⟩ := Option.map_eq_some_iff.mp h
    obtain ⟨rest, hrest⟩ : s.place p <+: c :: cs := by simpa using List.find?_some hs
    have hd : (c :: cs).drop (s.place p).length = rest := by rw [← hrest, List.drop_left]
    rw [← hrest]
    exact .replace s (hd ▸ ih hus)
  | case4 => cases h
  | case5 fuel c cs hopen ih =>
    obtain ⟨us, hus, rfl⟩ := Option.map_eq_some_iff.mp h
    exact .keep (by simpa using hopen) (ih hus)

end Template

end NativeUi
