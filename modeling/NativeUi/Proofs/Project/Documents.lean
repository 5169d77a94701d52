import NativeUi.Proofs.Config.Validation
import NativeUi.Proofs.Project.Containment
import NativeUi.Proofs.Source.Xml

/-!
# Characters of the documents in a project

An iOS project and an Android project have one XML document each, with the name of the project in
it. The name of an accepted configuration has no control characters. But there are two more
characters that may not stand in a document, U+FFFE and U+FFFF, and escaping leaves them as they
are. So a document has legal characters only just if neither of the two is in the name.
-/
namespace NativeUi

namespace Source.Xml

/-! ### Legal characters -/

def isLegal (c : Char) : Bool :=
  let n := c.toNat
  n == 0x09 || n == 0x0A || n == 0x0D || (0x20 ≤ n && n ≤ 0xD7FF) ||
    (0xE000 ≤ n && n ≤ 0xFFFD) || (0x10000 ≤ n && n ≤ 0x10FFFF)

/-- Two characters are neither legal nor control characters. -/
theorem isLegal_iff_of_isControl {c : Char} (h : Text.isControl c = false) :
    isLegal c = true ↔ c ≠ '\ufffe' ∧ c ≠ '\uffff' := by
  have hvalid : c.toNat.isValidChar := c.valid
  have hfirst : c = '\ufffe' ↔ c.toNat = 0xFFFE := Char.toNat_inj.symm
  have hsecond : c = '\uffff' ↔ c.toNat = 0xFFFF := Char.toNat_inj.symm
  simp only [Text.isControl, Bool.or_eq_false_iff, Bool.and_eq_false_iff,
    decide_eq_false_iff_not] at h
  simp only [isLegal, Bool.or_eq_true, Bool.and_eq_true, beq_iff_eq, decide_eq_true_eq, ne_eq,
    hfirst, hsecond]
  -- What is left between the control characters and the illegal ones is a question of numbers.
  rcases hvalid with hvalid | hvalid <;> omega

theorem isLegal_escapeXmlChar_iff (c : Char) :
    (∀ x ∈ escapeXmlChar c, isLegal x = true) ↔ isLegal c = true := by
  rcases escapeXmlChar_cases c with ⟨e, rfl, he⟩ | ⟨he, -, -⟩
  · have hentity : (e.reference.all isLegal && isLegal e.char) = true := by
      cases e <;> decide
    rw [Bool.and_eq_true, List.all_eq_true] at hentity
    rw [he]
    exact ⟨fun _ => hentity.2, fun _ => hentity.1⟩
  · rw [he, List.forall_mem_singleton]

theorem isLegal_escapeXml_iff (s : String) :
    (∀ x ∈ (escapeXml s).toList, isLegal x = true) ↔ ∀ x ∈ s.toList, isLegal x = true := by
  rw [escapeXml, String.toList_ofList, List.forall_mem_flatMap]
  simp only [isLegal_escapeXmlChar_iff]

theorem isLegal_of_isPackageChar {c : Char} (h : Template.isPackageChar c = true) :
    isLegal c = true := by
  have hcontrol : Text.isControl c = false := by
    cases hc : Text.isControl c with
    | false => rfl
    | true => exact absurd h (by simp [Template.isPackageChar_of_isControl hc])
  exact (isLegal_iff_of_isControl hcontrol).mpr
    ⟨Template.ne_of_isPackageChar h (by decide), Template.ne_of_isPackageChar h (by decide)⟩

end Source.Xml

open NativeUi.Source.Xml

/-! ### Templates of documents -/

namespace Template

def Token.isLegal : Token → Bool
  | .char c => Source.Xml.isLegal c
  | .slot s => s = .xmlName || s = .xmlPackage

def isDocument (ts : List Token) : Bool := ts.contains (.slot .xmlName) && ts.all Token.isLegal

theorem isLegal_document_iff {ts : List Token} (h : isDocument ts = true) {o : ProjectOptions}
    (hid : Config.isDotted o.packageId = true) (region : List Char) :
    (∀ x ∈ ts.flatMap (Token.chars (Slot.value o region)), isLegal x = true) ↔
      ∀ x ∈ o.appName.toList, isLegal x = true := by
  rw [isDocument, Bool.and_eq_true, List.contains_iff_mem, List.all_eq_true] at h
  rw [List.forall_mem_flatMap, ← isLegal_escapeXml_iff]
  constructor
  · intro hall
    exact hall (.slot .xmlName) h.1
  · intro hname token htoken
    have hlegal := h.2 token htoken
    cases token with
    | char c => exact List.forall_mem_singleton.mpr hlegal
    | slot s =>
      rw [Token.isLegal, Bool.or_eq_true, decide_eq_true_eq, decide_eq_true_eq] at hlegal
      rcases hlegal with rfl | rfl
      · exact hname
      · rw [Token.chars, Slot.value, Config.escapeXml_package hid]
        exact fun x hx => isLegal_of_isPackageChar (Config.isPackageChar_of_isDotted hid x hx)

end Template

/-! ### Documents of a project -/

def Platform.documents : List (Platform × String) :=
  [(.ios, "Info.plist"), (.android, "app/src/main/AndroidManifest.xml")]

namespace Generator

open Template

section

variable {p : Platform} {templates : TemplateSource} {o : ProjectOptions} {region : List Char}
  {template output : String} {file : GeneratedFile} {cs : List Char} {ls : List String}
  {css : List (List Char)}

theorem Splices.path_eq {verbatim : Bool}
    (h : Splices ⟨p, templates, o⟩ region ⟨template, output, verbatim⟩ file)
    (ho : output = String.ofList cs)
    (hc : (tokens p cs.length cs).any (· = cs.map Token.char) = true) : file.path = ⟨output⟩ := by
  have hpath := h.path
  rw [ho, String.toList_ofList] at hpath
  obtain ⟨ts, hts, hout⟩ := exists_tokens hc hpath
  obtain rfl := of_decide_eq_true hts
  rw [flatMap_chars_char] at hout
  rw [ho, ← hout, String.ofList_toList]

theorem Splices.isLegal_iff (h : Splices ⟨p, templates, o⟩ region ⟨template, output, false⟩ file)
    (hid : Config.isDotted o.packageId = true)
    (hs : p.builtin? template = some (Text.ofLines ls))
    (hl : List.Forall₂ (fun s cs => s = String.ofList cs) ls css)
    (hc : (tokens p (Text.feedAll css).length (Text.feedAll css)).any isDocument = true) :
    (∀ x ∈ file.content.toList, isLegal x = true) ↔ ∀ x ∈ o.appName.toList, isLegal x = true := by
  obtain ⟨ts, hts, hcontent⟩ := h.content_tokens hs hl hc
  rw [hcontent, isLegal_document_iff hts hid]

end

theorem exists_document {p : Platform} {path : String} (hp : (p, path) ∈ Platform.documents)
    {templates : TemplateSource} {o : ProjectOptions} {region : List Char}
    (hid : Config.isDotted o.packageId = true) {files : List GeneratedFile}
    (h : List.Forall₂ (Splices ⟨p, templates, o⟩ region) p.manifest files) :
    ∃ file ∈ files, file.path = ⟨path⟩ ∧
      ((∀ x ∈ file.content.toList, isLegal x = true) ↔
        ∀ x ∈ o.appName.toList, isLegal x = true) := by
  simp only [Platform.documents, List.mem_cons, List.not_mem_nil, or_false, Prod.mk.injEq] at hp
  -- On both platforms the document is the third file.
  rcases hp with ⟨rfl, rfl⟩ | ⟨rfl, rfl⟩
  · rw [Platform.manifest] at h
    rcases h with - | ⟨-, - | ⟨-, - | ⟨hdocument, -⟩⟩⟩
    exact ⟨_, by simp, hdocument.path_eq rfl (by decide +kernel),
      hdocument.isLegal_iff hid rfl (by repeat constructor) (by decide +kernel)⟩
  · rw [Platform.manifest] at h
    rcases h with - | ⟨-, - | ⟨-, - | ⟨hdocument, -⟩⟩⟩
    exact ⟨_, by simp, hdocument.path_eq rfl (by decide +kernel),
      hdocument.isLegal_iff hid rfl (by repeat constructor) (by decide +kernel)⟩

theorem exists_findFile?_document {p : Platform} {path : String}
    (hp : (p, path) ∈ Platform.documents) {o : ProjectOptions}
    (hid : Config.isDotted o.packageId = true) {b : Bundle} (hb : b.roots ≠ []) (t : FileTree) :
    ∃ files file, (generateFiles ⟨p, .builtin, o⟩ b t).result = .ok files ∧
      findFile? files ⟨path⟩ = some file ∧
      ((∀ x ∈ file.content.toList, isLegal x = true) ↔
        ∀ x ∈ o.appName.toList, isLegal x = true) := by
  obtain ⟨n, files, -, hfiles, hs⟩ := exists_splices (g := ⟨p, .builtin, o⟩) rfl hb t
  obtain ⟨file, hmem, hpath, hlegal⟩ := exists_document hp hid hs
  refine ⟨files, file, hfiles, ?_, hlegal⟩
  rw [(housed_of_generateFiles hfiles).findFile?_iff hmem, hpath, Path.sameAs, beq_self_eq_true]

/-- With an accepted configuration and a bundle that has a tree, the document of a project is there,
and all its characters are legal just if the name of the project has neither of the two characters
that are neither legal nor control characters. -/
theorem documents_legal_iff {c : Config} (hc : c.validate = .ok ()) {b : Bundle} (hb : b.roots ≠ [])
    {p : Platform} {path : String} (hp : (p, path) ∈ Platform.documents) (t : FileTree) :
    ∃ files file, (generateFiles ⟨p, .builtin, c.projectOptions⟩ b t).result = .ok files ∧
      findFile? files ⟨path⟩ = some file ∧
      ((∀ x ∈ file.content.toList, isLegal x = true) ↔
        ∀ x ∈ c.project.name.toList, x ≠ '\ufffe' ∧ x ≠ '\uffff') := by
  have hplain := (Config.isProjectName_iff.mp (Config.isProjectName_of_validate hc)).2
  obtain ⟨files, file, hfiles, hfind, hlegal⟩ := exists_findFile?_document hp
    (o := c.projectOptions) (Config.isDotted_of_validate hc) hb t
  refine ⟨files, file, hfiles, hfind, hlegal.trans ?_⟩
  exact forall₂_congr fun x hx => isLegal_iff_of_isControl (hplain x hx)

def markupConfig : Config := ⟨"0.1.0", ⟨"\"<&>\x27\ud7ff", some "a.b"⟩, .default⟩

theorem documents_legal_iff_markupConfig :
    markupConfig.validate = .ok () ∧
      ∃ files file, (generateFiles ⟨.android, .builtin, markupConfig.projectOptions⟩
          (.ofRoots [.ofKind "text"]) .empty).result = .ok files ∧
        findFile? files ⟨"app/src/main/AndroidManifest.xml"⟩ = some file ∧
        ∀ x ∈ file.content.toList, isLegal x = true := by
  have hc : markupConfig.validate = .ok () := by rfl
  have hname : (markupConfig.project.name.toList.all fun x => x ≠ '\ufffe' && x ≠ '\uffff') =
      true := by decide +kernel
  obtain ⟨files, file, hfiles, hfind, hlegal⟩ := documents_legal_iff hc
    (b := .ofRoots [.ofKind "text"]) (List.cons_ne_nil _ _)
    (p := .android) (List.mem_cons_of_mem _ List.mem_cons_self) .empty
  refine ⟨hc, files, file, hfiles, hfind, hlegal.mpr fun x hx => ?_⟩
  simpa using List.all_eq_true.mp hname x hx

def illegalConfig : Config := ⟨"0.1.0", ⟨"a\uffff", none⟩, .default⟩

/-- The configuration is accepted, and no document of its projects is legal. -/
theorem documents_illegalConfig :
    illegalConfig.validate = .ok () ∧
      ∀ p path, (p, path) ∈ Platform.documents →
        ∃ files file, (generateFiles ⟨p, .builtin, illegalConfig.projectOptions⟩
            (.ofRoots [.ofKind "text"]) .empty).result = .ok files ∧
          findFile? files ⟨path⟩ = some file ∧
          ¬ ∀ x ∈ file.content.toList, isLegal x = true := by
  have hc : illegalConfig.validate = .ok () := by rfl
  have hname : illegalConfig.project.name.toList.all isLegal = false := by decide +kernel
  refine ⟨hc, fun p path hp => ?_⟩
  obtain ⟨files, file, hfiles, hfind, hlegal⟩ := exists_findFile?_document hp
    (o := illegalConfig.projectOptions) (Config.isDotted_of_validate hc)
    (b := .ofRoots [.ofKind "text"]) (List.cons_ne_nil _ _) .empty
  refine ⟨files, file, hfiles, hfind, fun hall => ?_⟩
  exact Bool.eq_false_iff.mp hname (List.all_eq_true.mpr (hlegal.mp hall))

end Generator

end NativeUi
