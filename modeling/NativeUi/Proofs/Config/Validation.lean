import NativeUi.Proofs.Project.Balance

/-!
# Accepted configurations

A configuration is accepted for its package, its name and its command. The package of an accepted
one can stand in sources and documents as it is, and it names the directories of the main source of
an Android project.
-/
namespace NativeUi

open NativeUi.Source

namespace Config

/-! ### The checks -/

theorem isIdentifier_iff {cs : List Char} :
    isIdentifier cs = true ↔ ∃ first rest, cs = first :: rest ∧ first.isAlpha = true ∧
      ∀ x ∈ rest, x.isAlphanum = true ∨ x = '_' := by
  cases cs with
  | nil => simp [isIdentifier]
  | cons first rest =>
    simp only [isIdentifier, Bool.and_eq_true, List.all_eq_true, Bool.or_eq_true, beq_iff_eq]
    constructor
    · rintro ⟨hfirst, hrest⟩
      exact ⟨first, rest, rfl, hfirst, hrest⟩
    · rintro ⟨_, _, h, hfirst, hrest⟩
      obtain ⟨rfl, rfl⟩ := List.cons.inj h
      exact ⟨hfirst, hrest⟩

theorem isProjectName_iff {name : String} :
    isProjectName name = true ↔ (∃ x ∈ name.toList, Text.isBlank x = false) ∧
      ∀ x ∈ name.toList, Text.isControl x = false := by
  simp [isProjectName, Text.allBlank]

/-! ### The package in sources -/

theorem escapeKotlin_package {id : String} (h : isDotted id = true) : escapeKotlin id = id := by
  apply String.toList_inj.mp
  have hplain : ∀ c ∈ id.toList, Language.kotlin.isPlain c = true := by
    intro c hc
    exact Template.isPlain_of_isPackageChar (isPackageChar_of_isDotted h c hc)
  rw [← Language.flatMap_escapeUnit_of_isPlain hplain]
  exact Language.escape_toList .kotlin id

theorem escapeXmlChar_of_isPackageChar {c : Char} (h : Template.isPackageChar c = true) :
    escapeXmlChar c = [c] := by
  have other (x : Char) (hx : Template.isPackageChar x = false) := Template.ne_of_isPackageChar h hx
  simp [escapeXmlChar, other '&' (by decide), other '<' (by decide), other '>' (by decide),
    other '"' (by decide), other '\x27' (by decide)]

theorem escapeXml_package {id : String} (h : isDotted id = true) : escapeXml id = id := by
  have keep {cs : List Char} (hcs : ∀ c ∈ cs, Template.isPackageChar c = true) :
      cs.flatMap escapeXmlChar = cs := by
    induction cs with
    | nil => rfl
    | cons c cs ih =>
      obtain ⟨hc, hcs⟩ := List.forall_mem_cons.mp hcs
      rw [List.flatMap_cons, escapeXmlChar_of_isPackageChar hc, ih hcs]
      rfl
  rw [escapeXml, keep (isPackageChar_of_isDotted h), String.ofList_toList]

def mainSource (package : List String) : List String :=
  ["app", "src", "main", "java"] ++ package ++ ["MainActivity.kt"]

theorem mainSource_of_generateFiles {g : Generator} (hp : g.platform = .android)
    (hd : isDotted g.options.packageId = true) {b : Bundle} {t : FileTree}
    {files : List GeneratedFile} (h : (g.generateFiles b t).result = .ok files) :
    (∃ f ∈ files, f.path.pieces = mainSource (segments g.options.packageId)) ∧
      ∀ f ∈ files, f.path.pieces.getLast? = some "MainActivity.kt" →
        f.path.pieces = mainSource (segments g.options.packageId) := by
  constructor
  · exact Generator.mem_of_layout hd h
      (x := (["app", "src", "main", "java"] ++ segments g.options.packageId, "MainActivity.kt"))
      (by simp [hp, Platform.layout])
  · intro f hf hlast
    obtain ⟨x, hx, hpath⟩ := Generator.exists_layout hd h hf
    rw [hpath, List.getLast?_concat] at hlast
    obtain ⟨dirs, name⟩ := x
    obtain rfl := Option.some.inj hlast
    have hdirs : dirs = ["app", "src", "main", "java"] ++ segments g.options.packageId := by
      simpa [hp, Platform.layout] using hx
    rw [hpath, hdirs]
    rfl

/-- A configuration is accepted if its package is cut at the dots into two segments or more, each a
letter with letters, digits and underscores behind it, if its name has a character that is not blank
and none that is a control character, and if there is a command; and only then. The package of an
accepted configuration needs no escapes, and its segments are the directories in which an Android
project has its main source. -/
theorem validate_accepts (c : Config) :
    (c.validate = .ok () ↔
      (2 ≤ (c.packageId.toList.splitOn '.').length ∧
        ∀ piece ∈ c.packageId.toList.splitOn '.', ∃ first rest, piece = first :: rest ∧
          first.isAlpha = true ∧ ∀ x ∈ rest, x.isAlphanum = true ∨ x = '_') ∧
      ((∃ x ∈ c.project.name.toList, Text.isBlank x = false) ∧
        ∀ x ∈ c.project.name.toList, Text.isControl x = false) ∧
      c.build.webCommand ≠ []) ∧
    (c.validate = .ok () →
      escapeKotlin c.packageId = c.packageId ∧ escapeXml c.packageId = c.packageId ∧
      ∀ (templates : TemplateSource) (b : Bundle) (t : FileTree),
        (templates = .builtin → b.roots ≠ [] → ∃ files,
          (Generator.generateFiles ⟨.android, templates, c.projectOptions⟩ b t).result =
            .ok files) ∧
        ∀ files, (Generator.generateFiles ⟨.android, templates, c.projectOptions⟩ b t).result =
            .ok files →
          (∃ f ∈ files, f.path.pieces = ["app", "src", "main", "java"] ++
            (c.packageId.toList.splitOn '.').map String.ofList ++ ["MainActivity.kt"]) ∧
          ∀ f ∈ files, f.path.pieces.getLast? = some "MainActivity.kt" →
            f.path.pieces = ["app", "src", "main", "java"] ++
              (c.packageId.toList.splitOn '.').map String.ofList ++ ["MainActivity.kt"]) := by
  constructor
  · simp only [validate_eq_ok_iff, isDotted_iff, isIdentifier_iff, isProjectName_iff]
  · intro hv
    have hd := (validate_eq_ok_iff.mp hv).1
    refine ⟨escapeKotlin_package hd, escapeXml_package hd, fun templates b t => ⟨?_, ?_⟩⟩
    · rintro rfl hb
      obtain ⟨-, files, -, hfiles, -⟩ := Generator.exists_splices
        (g := ⟨.android, .builtin, c.projectOptions⟩) rfl hb t
      exact ⟨files, hfiles⟩
    · intro files hfiles
      exact mainSource_of_generateFiles (g := ⟨.android, templates, c.projectOptions⟩) rfl hd hfiles

def sparseConfig : Config := ⟨"", ⟨" é ", some "aZ_.b9_.C"⟩, ⟨[""], none, .first⟩⟩

theorem validate_accepts_sparseConfig :
    sparseConfig.validate = .ok () ∧ escapeXml "aZ_.b9_.C" = "aZ_.b9_.C" ∧
      ∃ files, (Generator.generateFiles ⟨.android, .builtin, sparseConfig.projectOptions⟩
          (.ofRoots [.ofKind "text"]) .empty).result = .ok files ∧
        ∃ f ∈ files, f.path.pieces =
          ["app", "src", "main", "java", "aZ_", "b9_", "C", "MainActivity.kt"] := by
  have hv : sparseConfig.validate = .ok () := by rfl
  obtain ⟨-, hxml, hfiles⟩ := (validate_accepts sparseConfig).2 hv
  obtain ⟨hmade, hpaths⟩ := hfiles .builtin (.ofRoots [.ofKind "text"]) .empty
  obtain ⟨files, hok⟩ := hmade rfl (List.cons_ne_nil _ _)
  exact ⟨hv, hxml, files, hok, (hpaths files hok).1⟩

end Config

end NativeUi
