import NativeUi.Proofs.Project.Rendering
import NativeUi.Proofs.Source.Lexical
import NativeUi.Proofs.Template.Splice

/-!
# Projects are spliced templates

With the templates of the program itself, a bundle that has a tree gives a file for every entry of
the manifest. A file is its template, with the names of the project and the source of the trees in
their places; the lines of the source stand behind the margin of the platform, and are found again
behind it.
-/
namespace NativeUi

/-! ### Margins -/

namespace Text

/-- A text has the lines of another one, each behind so many spaces. -/
def Indents (n : Nat) (code region : List Char) : Prop :=
  region.splitOn '\n' = (code.splitOn '\n').map (List.replicate n ' ' ++ ·)

def unindent (n : Nat) (region : List Char) : List Char :=
  joinLines ((region.splitOn '\n').map (List.drop n))

theorem Indents.unindent_eq {n : Nat} {code region : List Char} (h : Indents n code region) :
    unindent n region = code := by
  have hd : List.drop n ∘ (List.replicate n ' ' ++ ·) = id := by
    funext line
    simp
  rw [unindent, h, List.map_map, hd, List.map_id]
  exact List.intercalate_splitOn '\n'

theorem splitOn_joinLines {ls : List (List Char)} (h : ∀ line ∈ ls, IsLine line) (hne : ls ≠ []) :
    (joinLines ls).splitOn '\n' = ls :=
  List.splitOn_intercalate '\n' (fun line hl hm => (h line hl _ hm).1 rfl) hne

end Text

namespace Source

open Spelling

theorem indentLines_write {sp : Spelling} {ls : List Line} (h : ∀ line ∈ ls, line.Tidy)
    {code : String} (hc : code.toList = sp.write ls) (n : Nat) :
    (Template.indentLines n code).toList =
      Text.joinLines (ls.map fun line => List.replicate n ' ' ++ line.chars sp.language) := by
  have hlines : ((Text.lines code).map fun line =>
      if Text.allBlank line then line else Text.spaces n ++ line).map String.toList =
        ls.map fun line => List.replicate n ' ' ++ line.chars sp.language := by
    rw [Text.lines, hc, splitLines_write h, List.map_map, List.map_map, List.map_map]
    apply List.map_congr_left
    intro line hl
    obtain ⟨c, cs, hhead, hb⟩ := (h line hl).head_eq_cons
    have hv : Text.allBlank (String.ofList (line.chars sp.language)) = false := by
      simp [Text.allBlank, Line.chars, Line.body, hhead, hb]
    simp [hv, Text.spaces]
  rw [Template.indentLines, String.toList_intercalate, hlines]
  rfl

theorem indents_lower {l : Language} {d : Dialect} (hd : d ∈ l.dialects) (n : Node) (k : Nat) :
    Text.Indents k (lower d n).toList (Template.indentLines k (lower d n)).toList := by
  obtain ⟨sp, rfl, hs, ht, -, hb⟩ := exists_nested_spelling hd
  have htidy := ht.lines 0 (form d n)
  have hne := lines_ne_nil hb 0 (form d n)
  have hcode := lower_toList hs ht n
  rw [Text.Indents, indentLines_write htidy hcode, hcode, write, Text.splitOn_joinLines,
    Text.splitOn_joinLines, List.map_map]
  · rfl
  · simpa using fun line hl => Line.isLine_chars (htidy line hl) sp.language
  · simpa using hne
  · simp only [List.forall_mem_map]
    intro line hl c hc
    rcases List.mem_append.mp hc with hc | hc
    · obtain ⟨-, rfl⟩ := List.mem_replicate.mp hc
      decide
    · exact Line.isLine_chars (htidy line hl) sp.language c hc
  · simpa using hne

end Source

/-! ### Templates of the program -/

namespace Template

def isReadable (p : Platform) (cs : List Char) : Bool :=
  !cs.contains '\\' && (tokens p cs.length cs).isSome

theorem isReadable_ofLines {p : Platform} {ls : List String} {css : List (List Char)}
    (h : List.Forall₂ (fun s cs => s = String.ofList cs) ls css)
    (hr : isReadable p (Text.feedAll css) = true) :
    isReadable p (Text.ofLines ls).toList = true := by
  rwa [Text.toList_ofLines_of_forall₂ h]

theorem isReadable_of_eq {p : Platform} {s : String} {cs : List Char} (h : s = String.ofList cs)
    (hr : isReadable p cs = true) : isReadable p s.toList = true := by
  rwa [h, String.toList_ofList]

theorem exists_spliced {p : Platform} {template : String}
    (h : isReadable p template.toList = true) (o : ProjectOptions) (code : String) :
    ∃ out, render template (Generator.templateData o code) = .ok out ∧
      Spliced p (Slot.value o (indentLines p.margin code).toList) template.toList out.toList := by
  simp only [isReadable, Bool.and_eq_true, Bool.not_eq_true', List.contains_eq_mem,
    decide_eq_false_iff_not] at h
  obtain ⟨ts, hts⟩ := Option.isSome_iff_exists.mp h.2
  have hs := spliced_of_tokens hts (Slot.value o (indentLines p.margin code).toList)
  exact ⟨_, hs.render (fillSegment_place p o code) h.1, by rwa [String.toList_ofList]⟩

end Template

structure ManifestEntry.Readable (p : Platform) (entry : ManifestEntry) : Prop where
  output : Template.isReadable p entry.output.toList = true
  source : ∃ source, p.builtin? entry.template = some source ∧
    (entry.verbatim = false → Template.isReadable p source.toList = true)

section

open Template

variable {p : Platform} {template output source : String} {cs : List Char} {ls : List String}
  {css : List (List Char)}

theorem ManifestEntry.readable_copied (ho : output = String.ofList cs)
    (hr : isReadable p cs = true) (hs : p.builtin? template = some source) :
    Readable p ⟨template, output, true⟩ :=
  ⟨isReadable_of_eq ho hr, source, hs, by simp⟩

theorem ManifestEntry.readable_filled (ho : output = String.ofList cs)
    (hr : isReadable p cs = true) (hs : p.builtin? template = some (Text.ofLines ls))
    (hl : List.Forall₂ (fun s cs => s = String.ofList cs) ls css)
    (hlr : isReadable p (Text.feedAll css) = true) : Readable p ⟨template, output, false⟩ :=
  ⟨isReadable_of_eq ho hr, _, hs, fun _ => isReadable_ofLines hl hlr⟩

end

open ManifestEntry in
theorem Platform.readable_manifest (p : Platform) : ∀ entry ∈ p.manifest, entry.Readable p := by
  cases p with
  | android =>
    simp only [manifest, List.forall_mem_cons]
    exact ⟨readable_filled rfl (by decide +kernel) rfl (by repeat constructor) (by decide +kernel),
      readable_filled rfl (by decide +kernel) rfl (by repeat constructor) (by decide +kernel),
      readable_filled rfl (by decide +kernel) rfl (by repeat constructor) (by decide +kernel),
      readable_filled rfl (by decide +kernel) rfl (by repeat constructor) (by decide +kernel),
      readable_filled rfl (by decide +kernel) rfl (by repeat constructor) (by decide +kernel),
      by simp⟩
  | ios =>
    simp only [manifest, List.forall_mem_cons]
    exact ⟨readable_filled rfl (by decide +kernel) rfl (by repeat constructor) (by decide +kernel),
      readable_copied rfl (by decide +kernel) rfl,
      readable_filled rfl (by decide +kernel) rfl (by repeat constructor) (by decide +kernel),
      by simp⟩
  | macos =>
    simp only [manifest, List.forall_mem_cons]
    exact ⟨readable_filled rfl (by decide +kernel) rfl (by repeat constructor) (by decide +kernel),
      readable_copied rfl (by decide +kernel) rfl, readable_copied rfl (by decide +kernel) rfl,
      by simp⟩

def Platform.language : Platform → Source.Language
  | .android => .kotlin
  | .ios => .swift
  | .macos => .swift

theorem Platform.dialect_mem (p : Platform) : p.dialect ∈ p.language.dialects := by
  cases p <;> simp [dialect, language, Source.Language.dialects]

namespace Generator

theorem exists_lowerRoots (d : Source.Dialect) (policy : RootPolicy) {ns : List Node}
    (h : ns ≠ []) : ∃ n, lowerRoots d policy ns = some (Source.lower d n) := by
  obtain ⟨n, ns, rfl⟩ := List.exists_cons_of_ne_nil h
  cases policy with
  | first => exact ⟨n, rfl⟩
  | stack =>
    cases ns with
    | nil => exact ⟨n, rfl⟩
    | cons m ns =>
      refine ⟨⟨none, .column, [], n :: m :: ns⟩, ?_⟩
      rw [Source.lower]
      rfl

/-- A file of a project comes of the templates of its entry. -/
structure Splices (g : Generator) (region : List Char) (entry : ManifestEntry)
    (file : GeneratedFile) : Prop where
  path : Template.Spliced g.platform (Template.Slot.value g.options region) entry.output.toList
    file.path.text.toList
  content : ∃ source, g.platform.builtin? entry.template = some source ∧
    if entry.verbatim then file.content = source
    else Template.Spliced g.platform (Template.Slot.value g.options region) source.toList
      file.content.toList

theorem Splices.unique {g : Generator} {region : List Char} {entry : ManifestEntry}
    {a b : GeneratedFile} (ha : g.Splices region entry a) (hb : g.Splices region entry b) :
    a = b := by
  obtain ⟨⟨path⟩, content⟩ := a
  obtain ⟨⟨path'⟩, content'⟩ := b
  obtain rfl : path = path' := String.toList_inj.mp (ha.path.unique hb.path)
  obtain ⟨source, hs, ha⟩ := ha.content
  obtain ⟨source', hs', hb⟩ := hb.content
  obtain rfl := Option.some.inj (hs.symm.trans hs')
  have hcontent : content = content' := by
    split at ha
    · rw [if_pos ‹_›] at hb
      exact ha.trans hb.symm
    · rw [if_neg ‹_›] at hb
      exact String.toList_inj.mp (ha.unique hb)
  rw [hcontent]

theorem exists_generateFile {g : Generator} (hg : g.templates = .builtin) (code : String)
    (t : FileTree) {entry : ManifestEntry} (h : entry.Readable g.platform) :
    ∃ file, (g.generateFile (templateData g.options code) entry t).result = .ok file ∧
      g.Splices (Template.indentLines g.platform.margin code).toList entry file := by
  obtain ⟨path, hpath, hsp⟩ := Template.exists_spliced h.output g.options code
  obtain ⟨source, hsource, hr⟩ := h.source
  cases hv : entry.verbatim with
  | true =>
    refine ⟨⟨⟨path⟩, source⟩, generateFile_of_builtin hg hsource hpath ?_ t, hsp, source,
      hsource, ?_⟩
    · rw [hv]
      rfl
    · rw [if_pos hv]
  | false =>
    obtain ⟨content, hcontent, hsc⟩ := Template.exists_spliced (hr hv) g.options code
    refine ⟨⟨⟨path⟩, content⟩, generateFile_of_builtin hg hsource hpath ?_ t, hsp, source,
      hsource, ?_⟩
    · rw [hv]
      exact hcontent
    · rw [hv]
      exact hsc

theorem exists_forall₂ {α β : Type} {R : α → β → Prop} {as : List α} (h : ∀ a ∈ as, ∃ b, R a b) :
    ∃ bs, List.Forall₂ R as bs := by
  induction as with
  | nil => exact ⟨[], .nil⟩
  | cons a as ih =>
    obtain ⟨b, hb⟩ := h a (.head _)
    obtain ⟨bs, hbs⟩ := ih fun x hx => h x (.tail _ hx)
    exact ⟨b :: bs, .cons hb hbs⟩

theorem exists_splices {g : Generator} (hg : g.templates = .builtin) {b : Bundle}
    (h : b.roots ≠ []) (t : FileTree) :
    ∃ n files, lowerRoots g.platform.dialect g.options.roots b.roots =
        some (Source.lower g.platform.dialect n) ∧
      (g.generateFiles b t).result = .ok files ∧
      List.Forall₂ (g.Splices (Template.indentLines g.platform.margin
        (Source.lower g.platform.dialect n)).toList) g.platform.manifest files := by
  obtain ⟨n, hn⟩ := exists_lowerRoots g.platform.dialect g.options.roots h
  obtain ⟨files, hfiles⟩ := exists_forall₂ fun entry he =>
    exists_generateFile hg (Source.lower g.platform.dialect n) t
      (g.platform.readable_manifest entry he)
  exact ⟨n, files, hn, generateFiles_of_forall₂ hn (hfiles.imp fun _ _ h => h.1),
    hfiles.imp fun _ _ h => h.2⟩

/-- With the templates of the program, a project fails only without a tree. Its files are the only
ones that come of the templates by replacing placeholders, and the region of the trees is their
source, indented line by line. -/
theorem generateFiles_splices {g : Generator} (hg : g.templates = .builtin) (b : Bundle)
    (t : FileTree) :
    ((∃ e, (g.generateFiles b t).result = .error e) ↔ b.roots = []) ∧
      (b.roots = [] → (g.generateFiles b t).result = .error .noRoot) ∧
      (b.roots ≠ [] → ∃ code region files,
        (g.lowerBundle b t).result = .ok code ∧
          Text.Indents g.platform.margin code.toList region ∧
          Text.unindent g.platform.margin region = code.toList ∧
          (g.generateFiles b t).result = .ok files ∧
          ∀ fs, List.Forall₂ (g.Splices region) g.platform.manifest fs ↔ fs = files) := by
  have hfail (h : b.roots = []) : (g.generateFiles b t).result = .error .noRoot := by
    rw [generateFiles_result, h]
    rfl
  refine ⟨⟨?_, fun h => ⟨_, hfail h⟩⟩, hfail, fun h => ?_⟩
  · rintro ⟨e, he⟩
    by_contra h
    obtain ⟨-, files, -, hfiles, -⟩ := exists_splices hg h t
    cases he.symm.trans hfiles
  · obtain ⟨n, files, hn, hfiles, hs⟩ := exists_splices hg h t
    have hcode : (g.lowerBundle b t).result = .ok (Source.lower g.platform.dialect n) := by
      rw [lowerBundle_result, hn]
      rfl
    have hi := Source.indents_lower g.platform.dialect_mem n g.platform.margin
    refine ⟨_, _, files, hcode, hi, hi.unindent_eq, hfiles, fun fs => ⟨?_, ?_⟩⟩
    · have hu : Relator.RightUnique (g.Splices (Template.indentLines g.platform.margin
          (Source.lower g.platform.dialect n)).toList) := fun _ _ _ => Splices.unique
      exact fun hfs => hu.forall₂ hfs hs
    · rintro rfl
      exact hs

def hostileGenerator : Generator :=
  ⟨.android, .builtin,
    ⟨"\x7b\x7bpackage_id\x7d\x7d\\", "\\\x7b\x7bindent content 4\x7d\x7d", .stack⟩⟩

def hostileTrees : List Node := [⟨none, .text, [("content", .string "a\n\r\n  b")], []⟩,
  ⟨none, .row, [], [⟨none, .other "\x7b\x7bapp_name\x7d\x7d", [], []⟩]⟩]

theorem generateFiles_splices_hostile :
    hostileGenerator.templates = .builtin ∧ (Bundle.ofRoots hostileTrees).roots ≠ [] ∧
      ∀ t, ∃ code region files,
        (hostileGenerator.lowerBundle (.ofRoots hostileTrees) t).result = .ok code ∧
          Text.Indents 4 code.toList region ∧ Text.unindent 4 region = code.toList ∧
          (hostileGenerator.generateFiles (.ofRoots hostileTrees) t).result = .ok files ∧
          ∀ fs, List.Forall₂ (hostileGenerator.Splices region) Platform.android.manifest fs ↔
            fs = files := by
  have hroots : (Bundle.ofRoots hostileTrees).roots ≠ [] := List.cons_ne_nil _ _
  exact ⟨rfl, hroots, fun t => (generateFiles_splices rfl _ t).2.2 hroots⟩

end Generator

end NativeUi
