import NativeUi.Proofs.Project.Splicing
import NativeUi.Proofs.Template.Scanning

/-!
# Sources of a project

Whatever an accepted configuration and a bundle hold, the source files of a project are balanced:
literals are closed on their lines and brackets match. An Android project is called by the name of
the configuration and belongs to its package, in its build files and in its sources.
-/
namespace NativeUi

open Source (Language)

/-! ### Languages of files -/

namespace Source.Language

def ofExtension? (extension : List Char) : Option Language :=
  if extension = ['k', 't'] ∨ extension = ['k', 't', 's'] then some .kotlin
  else if extension = ['s', 'w', 'i', 'f', 't'] then some .swift
  else none

def ofFile? (path : List Char) : Option Language := (path.splitOn '.').getLast?.bind ofExtension?

theorem ofFile?_append_dot (path : List Char) {extension : List Char} (h : '.' ∉ extension) :
    ofFile? (path ++ '.' :: extension) = ofExtension? extension := by
  rw [ofFile?, List.splitOn_append_cons_self, List.splitOn_eq_singleton h, List.getLast?_append,
    List.getLast?_singleton]
  rfl

end Source.Language

def GeneratedFile.IsBalanced (file : GeneratedFile) : Prop :=
  ∀ l, Language.ofFile? file.path.text.toList = some l → l.Balanced file.content.toList

/-! ### What is put into the templates -/

namespace Config

theorem isProjectName_of_validate {c : Config} (h : c.validate = .ok ()) :
    isProjectName c.project.name = true :=
  (validate_eq_ok_iff.mp h).2.1

theorem isPackageChar_of_isDotted {id : String} (h : isDotted id = true) :
    ∀ c ∈ id.toList, Template.isPackageChar c = true := by
  intro c hc
  by_cases hdot : c = '.'
  · subst hdot
    decide
  · obtain ⟨piece, hp, hc⟩ := Path.mem_splitOn hdot hc
    have hi : isIdentifier piece = true := (isDotted_iff.mp h).2 piece hp
    have hm := mem_identifier hi hc
    simp only [Bool.or_eq_true, beq_iff_eq] at hm
    simpa [Template.isPackageChar, hdot] using hm

theorem ne_nil_of_isDotted {id : String} (h : isDotted id = true) : id.toList ≠ [] := by
  intro hn
  have hlen := (isDotted_iff.mp h).1
  simp [hn] at hlen

theorem ne_nil_of_isProjectName {name : String} (h : isProjectName name = true) :
    name.toList ≠ [] := by
  intro hn
  simp [isProjectName, Text.allBlank, hn] at h

end Config

namespace Source

open Spelling

theorem scan_indentLines {l : Language} {d : Dialect} (hd : d ∈ l.dialects) (n : Node)
    (br : List Char) :
    l.scan ⟨.code, br⟩ (Template.indentLines (4 * br.count '\x7b') (lower d n)).toList =
      some ⟨.code, br⟩ := by
  obtain ⟨sp, rfl, hs, ht, hn, -⟩ := exists_nested_spelling hd
  have hlines : ((sp.lines 0 (form d n)).map fun line =>
      List.replicate (4 * br.count '\x7b') ' ' ++ line.chars sp.language) =
        (sp.lines (br.count '\x7b') (form d n)).map (Line.chars sp.language) := by
    rw [lines_eq_map_inner sp (br.count '\x7b'), List.map_map]
    exact List.map_congr_left fun line _ => (Line.chars_inner _ _ line).symm
  rw [indentLines_write (ht.lines 0 _) (lower_toList hs ht n), hlines]
  exact (hn.lines _ br).scan (ht.lines _ _)

end Source

namespace Template

theorem Slot.fits_value {o : ProjectOptions} (hid : Config.isDotted o.packageId = true)
    (hname : Config.isProjectName o.appName = true) (p : Platform) (n : Node) :
    Slot.Fits p.language p.margin
      (Slot.value o (indentLines p.margin (Source.lower p.dialect n)).toList) where
  package_ne_nil := Config.ne_nil_of_isDotted hid
  package := Config.isPackageChar_of_isDotted hid
  name := ⟨o.appName.toList, Config.ne_nil_of_isProjectName hname,
    Language.escape_toList .kotlin o.appName⟩
  content br hbr := by
    rw [value, ← hbr]
    exact Source.scan_indentLines p.dialect_mem n br
  lines line hl := by
    rw [value, Source.indents_lower p.dialect_mem n p.margin] at hl
    obtain ⟨x, -, rfl⟩ := List.mem_map.mp hl
    cases p <;> rfl

theorem exists_tokens {p : Platform} {value : Slot → List Char} {cs out : List Char}
    {check : List Token → Bool} (h : (tokens p cs.length cs).any check = true)
    (hs : Spliced p value cs out) :
    ∃ ts, check ts = true ∧ out = ts.flatMap (Token.chars value) := by
  obtain ⟨ts, hts, hc⟩ := (Option.any_eq_true _ _).mp h
  exact ⟨ts, hc, hs.unique (spliced_of_tokens hts value)⟩

def hasExtension (extension : List Char) (ts : List Token) : Bool :=
  !extension.contains '.' && (Token.char '.' :: extension.map Token.char).isSuffixOf ts

theorem ofFile?_of_hasExtension {extension : List Char} {ts : List Token}
    (h : hasExtension extension ts = true) (value : Slot → List Char) :
    Language.ofFile? (ts.flatMap (Token.chars value)) = Language.ofExtension? extension := by
  simp only [hasExtension, Bool.and_eq_true, Bool.not_eq_true', List.contains_eq_mem,
    decide_eq_false_iff_not, List.isSuffixOf_iff_suffix] at h
  obtain ⟨hd, path, rfl⟩ := h
  rw [List.flatMap_append, List.flatMap_cons, flatMap_chars_char]
  exact Language.ofFile?_append_dot _ hd

end Template

/-! ### Files -/

namespace Generator

open Template

section

variable {p : Platform} {templates : TemplateSource} {o : ProjectOptions} {region : List Char}
  {template output : String} {file : GeneratedFile} {cs : List Char} {ls : List String}
  {css : List (List Char)} {check : List Token → Bool}

theorem Splices.ofFile? {verbatim : Bool}
    (h : Splices ⟨p, templates, o⟩ region ⟨template, output, verbatim⟩ file)
    (ho : output = String.ofList cs) (extension : List Char)
    (he : (tokens p cs.length cs).any (hasExtension extension) = true) :
    Language.ofFile? file.path.text.toList = Language.ofExtension? extension := by
  have hp := h.path
  rw [ho, String.toList_ofList] at hp
  obtain ⟨ts, hts, hout⟩ := exists_tokens he hp
  rw [hout, ofFile?_of_hasExtension hts]

theorem Splices.content_tokens (h : Splices ⟨p, templates, o⟩ region ⟨template, output, false⟩ file)
    (hs : p.builtin? template = some (Text.ofLines ls))
    (hl : List.Forall₂ (fun s cs => s = String.ofList cs) ls css)
    (hc : (tokens p (Text.feedAll css).length (Text.feedAll css)).any check = true) :
    ∃ ts, check ts = true ∧
      file.content.toList = ts.flatMap (Token.chars (Slot.value o region)) := by
  obtain ⟨source, hsource, hcontent⟩ := h.content
  obtain rfl := Option.some.inj (hs.symm.trans hsource)
  rw [Text.toList_ofLines_of_forall₂ hl] at hcontent
  exact exists_tokens hc hcontent

theorem Splices.balanced_filled
    (h : Splices ⟨p, templates, o⟩ region ⟨template, output, false⟩ file)
    (hf : Slot.Fits p.language p.margin (Slot.value o region)) (ho : output = String.ofList cs)
    (extension : List Char) (he : (tokens p cs.length cs).any (hasExtension extension) = true)
    (hx : Language.ofExtension? extension = some p.language)
    (hs : p.builtin? template = some (Text.ofLines ls))
    (hl : List.Forall₂ (fun s cs => s = String.ofList cs) ls css)
    (hc : (tokens p (Text.feedAll css).length (Text.feedAll css)).any
      (passes p.language p.margin) = true) : file.IsBalanced := by
  intro l hlang
  rw [h.ofFile? ho extension he, hx] at hlang
  obtain rfl := Option.some.inj hlang
  obtain ⟨ts, hts, hcontent⟩ := h.content_tokens hs hl hc
  rw [hcontent]
  exact hf.balanced hts

theorem Splices.balanced_copied
    (h : Splices ⟨p, templates, o⟩ region ⟨template, output, true⟩ file)
    (ho : output = String.ofList cs) (extension : List Char)
    (he : (tokens p cs.length cs).any (hasExtension extension) = true)
    (hx : Language.ofExtension? extension = some p.language)
    (hs : p.builtin? template = some (Text.ofLines ls))
    (hl : List.Forall₂ (fun s cs => s = String.ofList cs) ls css)
    (hc : p.language.scan .start (Text.feedAll css) = some .start) : file.IsBalanced := by
  intro l hlang
  rw [h.ofFile? ho extension he, hx] at hlang
  obtain rfl := Option.some.inj hlang
  obtain ⟨source, hsource, hcontent⟩ := h.content
  obtain rfl := Option.some.inj (hs.symm.trans hsource)
  have hcontent : file.content = Text.ofLines ls := hcontent
  rw [hcontent, Text.toList_ofLines_of_forall₂ hl]
  exact Language.balanced_of_scan hc

theorem Splices.balanced_other {verbatim : Bool}
    (h : Splices ⟨p, templates, o⟩ region ⟨template, output, verbatim⟩ file)
    (ho : output = String.ofList cs) (extension : List Char)
    (he : (tokens p cs.length cs).any (hasExtension extension) = true)
    (hx : Language.ofExtension? extension = none) : file.IsBalanced := by
  intro l hlang
  rw [h.ofFile? ho extension he, hx] at hlang
  cases hlang

end

theorem balanced_of_splices {p : Platform} {templates : TemplateSource} {o : ProjectOptions}
    {region : List Char} (hf : Slot.Fits p.language p.margin (Slot.value o region)) :
    ∀ entry ∈ p.manifest, ∀ file, Splices ⟨p, templates, o⟩ region entry file →
      file.IsBalanced := by
  -- paths and templates are looked at as lists of characters: the kernel is slow on strings
  cases p with
  | android =>
    simp only [Platform.manifest, List.forall_mem_cons]
    refine ⟨fun file h => ?_, fun file h => ?_, fun file h => ?_, fun file h => ?_,
      fun file h => ?_, by simp⟩
    · exact h.balanced_filled hf rfl ['k', 't'] (by decide +kernel) rfl rfl
        (by repeat constructor) (by decide +kernel)
    · exact h.balanced_filled hf rfl ['k', 't'] (by decide +kernel) rfl rfl
        (by repeat constructor) (by decide +kernel)
    · exact h.balanced_other rfl ['x', 'm', 'l'] (by decide +kernel) rfl
    · exact h.balanced_filled hf rfl ['k', 't', 's'] (by decide +kernel) rfl rfl
        (by repeat constructor) (by decide +kernel)
    · exact h.balanced_filled hf rfl ['k', 't', 's'] (by decide +kernel) rfl rfl
        (by repeat constructor) (by decide +kernel)
  | ios =>
    simp only [Platform.manifest, List.forall_mem_cons]
    refine ⟨fun file h => ?_, fun file h => ?_, fun file h => ?_, by simp⟩
    · exact h.balanced_filled hf rfl ['s', 'w', 'i', 'f', 't'] (by decide +kernel) rfl rfl
        (by repeat constructor) (by decide +kernel)
    · exact h.balanced_copied rfl ['s', 'w', 'i', 'f', 't'] (by decide +kernel) rfl rfl
        (by repeat constructor) (by decide +kernel)
    · exact h.balanced_other rfl ['p', 'l', 'i', 's', 't'] (by decide +kernel) rfl
  | macos =>
    simp only [Platform.manifest, List.forall_mem_cons]
    refine ⟨fun file h => ?_, fun file h => ?_, fun file h => ?_, by simp⟩
    · exact h.balanced_filled hf rfl ['s', 'w', 'i', 'f', 't'] (by decide +kernel) rfl rfl
        (by repeat constructor) (by decide +kernel)
    · exact h.balanced_copied rfl ['s', 'w', 'i', 'f', 't'] (by decide +kernel) rfl rfl
        (by repeat constructor) (by decide +kernel)
    · exact h.balanced_copied rfl ['s', 'w', 'i', 'f', 't'] (by decide +kernel) rfl rfl
        (by repeat constructor) (by decide +kernel)

/-! ### Names -/

def screenImports : List String := [
  "android.os.Bundle",
  "android.util.Log",
  "androidx.activity.ComponentActivity",
  "androidx.activity.compose.setContent",
  "androidx.compose.foundation.layout.*",
  "androidx.compose.material3.*",
  "androidx.compose.runtime.Composable",
  "androidx.compose.ui.Modifier",
  "androidx.compose.ui.tooling.preview.Preview"]

/-- What the files of an Android project say of its name and of its package. -/
structure Names (o : ProjectOptions) (screen theme script settings : GeneratedFile) : Prop where
  name : Source.assigned .kotlin "rootProject.name" settings.content.toList =
    [some (o.appName.toList, [])]
  scriptNamespace : Source.assigned .kotlin "namespace" script.content.toList =
    [some (o.packageId.toList, [])]
  applicationId : Source.assigned .kotlin "applicationId" script.content.toList =
    [some (o.packageId.toList, [])]
  screenPackage : Source.headed "package" screen.content.toList = [o.packageId.toList]
  screenImport : Source.headed "import" screen.content.toList =
    screenImports.map String.toList ++ [o.packageId.toList ++ ".ui.theme.AppTheme".toList]
  themePackage : Source.headed "package" theme.content.toList =
    [o.packageId.toList ++ ".ui.theme".toList]

section

variable {templates : TemplateSource} {o : ProjectOptions} {region : List Char}
  {template output : String} {file : GeneratedFile} {cs : List Char} {ls : List String}
  {css : List (List Char)}

theorem Splices.headed_eq
    (h : Splices ⟨.android, templates, o⟩ region ⟨template, output, false⟩ file)
    (hf : Slot.Fits .kotlin 4 (Slot.value o region))
    (hs : Platform.android.builtin? template = some (Text.ofLines ls))
    (hl : List.Forall₂ (fun s cs => s = String.ofList cs) ls css) {word : String}
    (hw : word = String.ofList cs) (hb : cs.head?.any (· ≠ ' ') = true)
    {fixed : List String} {fs : List (List Char)}
    (hfixed : List.Forall₂ (fun s cs => s = String.ofList cs) fixed fs)
    {tail : String} {ts : List Char} (htail : tail = String.ofList ts)
    (hc : (tokens .android (Text.feedAll css).length (Text.feedAll css)).any
      (fun us => findLines (lineHead (cs ++ [' '])) us = some
        (fs.map (List.map Token.char) ++ [.slot .package :: ts.map Token.char])) = true) :
    Source.headed word file.content.toList =
      fixed.map String.toList ++ [o.packageId.toList ++ tail.toList] := by
  obtain ⟨us, hus, hcontent⟩ := h.content_tokens hs hl hc
  have hkeep : (List.flatMap (Token.chars (Slot.value o region))) ∘ List.map Token.char = id :=
    funext (flatMap_chars_char _)
  rw [hcontent, hf.headed hw hb (of_decide_eq_true hus), List.map_append, List.map_map, hkeep,
    List.map_id, Text.map_toList_of_forall₂ hfixed, htail, String.toList_ofList, List.map_singleton,
    List.flatMap_cons, flatMap_chars_char]
  rfl

theorem Splices.assigned_eq
    (h : Splices ⟨.android, templates, o⟩ region ⟨template, output, false⟩ file)
    (hf : Slot.Fits .kotlin 4 (Slot.value o region))
    (hs : Platform.android.builtin? template = some (Text.ofLines ls))
    (hl : List.Forall₂ (fun s cs => s = String.ofList cs) ls css) {name : String}
    (hn : name = String.ofList cs) (s : Template.Slot)
    (hc : (tokens .android (Text.feedAll css).length (Text.feedAll css)).any
      (fun us => findLines (lineInset (cs ++ [' ', '=', ' ', '"'])) us =
        some [[.slot s, .char '"']]) = true)
    {text : List Char}
    (hr : Language.kotlin.read (Slot.value o region s ++ ['"']) = some (text, [])) :
    Source.assigned .kotlin name file.content.toList = [some (text, [])] := by
  obtain ⟨us, hus, hcontent⟩ := h.content_tokens hs hl hc
  rw [hcontent, hf.assigned hn (of_decide_eq_true hus), ← hr]
  rfl

end

theorem read_package {o : ProjectOptions} (hid : Config.isDotted o.packageId = true)
    (l : Language) : l.read (o.packageId.toList ++ ['"']) = some (o.packageId.toList, []) := by
  have hp : ∀ c ∈ o.packageId.toList, l.isPlain c = true := fun c hc =>
    isPlain_of_isPackageChar (Config.isPackageChar_of_isDotted hid c hc)
  have hr := l.read_flatMap_escapeUnit o.packageId.toList []
  rwa [Language.flatMap_escapeUnit_of_isPlain hp] at hr

theorem read_name (o : ProjectOptions) :
    Language.kotlin.read ((Source.escapeKotlin o.appName).toList ++ ['"']) =
      some (o.appName.toList, []) := by
  have hr := Language.kotlin.read_flatMap_escapeUnit o.appName.toList []
  rwa [← Language.escape_toList] at hr

theorem names_of_splices {templates : TemplateSource} {o : ProjectOptions} {region : List Char}
    (hid : Config.isDotted o.packageId = true)
    (hf : Slot.Fits .kotlin 4 (Slot.value o region)) {files : List GeneratedFile}
    (h : List.Forall₂ (Splices ⟨.android, templates, o⟩ region) Platform.android.manifest files) :
    ∃ screen theme manifest script settings,
      files = [screen, theme, manifest, script, settings] ∧
        Names o screen theme script settings := by
  rw [Platform.manifest] at h
  rcases h with - | ⟨hscreen, - | ⟨htheme, - | ⟨-, - | ⟨hscript, - | ⟨hsettings, - | -⟩⟩⟩⟩⟩
  refine ⟨_, _, _, _, _, rfl, ?_, ?_, ?_, ?_, ?_, ?_⟩
  · exact hsettings.assigned_eq hf rfl (by repeat constructor) rfl .kotlinName (by decide +kernel)
      (read_name o)
  · exact hscript.assigned_eq hf rfl (by repeat constructor) rfl .package (by decide +kernel)
      (read_package hid .kotlin)
  · exact hscript.assigned_eq hf rfl (by repeat constructor) rfl .package (by decide +kernel)
      (read_package hid .kotlin)
  · simpa using hscreen.headed_eq hf rfl (by repeat constructor) rfl rfl .nil
      (show "" = String.ofList [] from rfl) (by decide +kernel)
  · exact hscreen.headed_eq hf rfl (by repeat constructor) rfl rfl (by repeat constructor) rfl
      (by decide +kernel)
  · exact htheme.headed_eq hf rfl (by repeat constructor) rfl rfl .nil rfl (by decide +kernel)

theorem forall_mem_of_forall₂ {α β : Type} {R : α → β → Prop} {P : β → Prop} {as : List α}
    {bs : List β} (h : List.Forall₂ R as bs) (hp : ∀ a ∈ as, ∀ b, R a b → P b) : ∀ b ∈ bs, P b := by
  induction h with
  | nil => simp
  | cons hab _ ih =>
    exact List.forall_mem_cons.mpr ⟨hp _ (.head _) _ hab, ih fun a ha => hp a (.tail _ ha)⟩

/-- Whatever an accepted configuration and a bundle with a tree hold, the project is made, its files
stand where they belong, its sources are balanced, and an Android project says its own name and its
own package. -/
theorem generateFiles_balanced {c : Config} (hc : c.validate = .ok ()) (p : Platform) {b : Bundle}
    (hb : b.roots ≠ []) (t : FileTree) :
    ∃ files, (generateFiles ⟨p, .builtin, c.projectOptions⟩ b t).result = .ok files ∧
      (files.map fun f => f.path.pieces) =
        ((p.layout (Config.segments c.packageId)).map fun x => x.1 ++ [x.2]) ∧
      (∀ f ∈ files, f.IsBalanced) ∧
      (p = .android → ∃ screen theme manifest script settings,
        files = [screen, theme, manifest, script, settings] ∧
          Names c.projectOptions screen theme script settings) := by
  have hid := Config.isDotted_of_validate hc
  have hname := Config.isProjectName_of_validate hc
  obtain ⟨n, files, -, hfiles, hs⟩ := exists_splices (g := ⟨p, .builtin, c.projectOptions⟩) rfl hb t
  have hf := Slot.fits_value (o := c.projectOptions) hid hname p n
  have hpaths := pieces_of_generateFiles (g := ⟨p, .builtin, c.projectOptions⟩) hid hfiles
  refine ⟨files, hfiles, hpaths, fun f hm => ?_, ?_⟩
  · exact forall_mem_of_forall₂ hs (balanced_of_splices hf) f hm
  · rintro rfl
    exact names_of_splices (o := c.projectOptions) hid hf hs

def hostileConfig : Config :=
  ⟨"0.1.0",
    ⟨"\"\"\"\x7d) $\x7bx\x7d \x7b\x7bpackage_id\x7d\x7d // \\", some "com.example.app_1"⟩,
    .default⟩

theorem generateFiles_balanced_hostile :
    hostileConfig.validate = .ok () ∧ (Bundle.ofRoots hostileTrees).roots ≠ [] ∧
      ∀ t, ∃ screen theme manifest script settings,
        (generateFiles ⟨.android, .builtin, hostileConfig.projectOptions⟩
          (.ofRoots hostileTrees) t).result = .ok [screen, theme, manifest, script, settings] ∧
        screen.path.pieces = ["app", "src", "main", "java", "com", "example", "app_1",
          "MainActivity.kt"] ∧ screen.IsBalanced ∧ settings.IsBalanced ∧
        Source.assigned .kotlin "rootProject.name" settings.content.toList =
          [some (hostileConfig.project.name.toList, [])] := by
  have hc : hostileConfig.validate = .ok () := by rfl
  have hsegments : Config.segments hostileConfig.packageId = ["com", "example", "app_1"] := by
    decide +kernel
  have hroots : (Bundle.ofRoots hostileTrees).roots ≠ [] := List.cons_ne_nil _ _
  refine ⟨hc, hroots, fun t => ?_⟩
  obtain ⟨files, hfiles, hpaths, hbalanced, hnames⟩ := generateFiles_balanced hc .android hroots t
  obtain ⟨screen, theme, manifest, script, settings, rfl, names⟩ := hnames rfl
  rw [hsegments] at hpaths
  refine ⟨screen, theme, manifest, script, settings, hfiles, (List.cons.inj hpaths).1, ?_, ?_,
    names.name⟩
  · exact hbalanced screen (by simp)
  · exact hbalanced settings (by simp)

end Generator

end NativeUi
