import Mathlib.Data.List.Pairwise
import NativeUi.Proofs.Config.Package
import NativeUi.Proofs.Job
import NativeUi.Proofs.Path

/-!
# The files of a project

To make the files of a project changes nothing. Their paths are names below the directory of the
project, and no file stands where another one needs a directory.
-/
namespace NativeUi

/-! ### Templates of paths -/

namespace Template

theorem pieces_plain {cs : List Char} (hb : '\x7b' ∉ cs) (hs : '\\' ∉ cs) (fuel : Nat) :
    pieces (cs.length + 1 + fuel) cs = .ok (cs.foldr consText []) := by
  induction cs with
  | nil =>
    rw [Nat.add_right_comm]
    rfl
  | cons c cs ih =>
    obtain ⟨hbc, hb⟩ : c ≠ '\x7b' ∧ _ := by simpa [eq_comm] using hb
    obtain ⟨hsc, hs⟩ : c ≠ '\\' ∧ _ := by simpa [eq_comm] using hs
    have hn : backslashes? (c :: cs) = none := by simp [backslashes?, hsc]
    rw [List.length_cons, Nat.add_right_comm, pieces]
    · simp only [hn, ih hb hs, ok_bind, List.foldr_cons]
    · intro _ h
      exact absurd h hbc

theorem foldr_consText (c : Char) (cs : List Char) :
    (c :: cs).foldr consText [] = [.text (c :: cs)] := by
  induction cs generalizing c with
  | nil => rfl
  | cons d cs ih => rw [List.foldr_cons, ih d, consText]

theorem render_plain {s : String} (hb : '\x7b' ∉ s.toList) (hs : '\\' ∉ s.toList) (data : Json) :
    render s data = .ok s := by
  have hp := pieces_plain hb hs 0
  rw [render, parse, ← Nat.add_zero (s.toList.length + 1), hp, ok_bind, ok_bind]
  cases hcs : s.toList with
  | nil =>
    obtain rfl := String.toList_eq_nil_iff.mp hcs
    rfl
  | cons c cs =>
    rw [foldr_consText, ← hcs]
    simp [arrange, cutEnd, Cut.apply, fill, fillSegment]

theorem showValue_string (s : String) : showValue (.string s) = s.toList := rfl

theorem render_place {s : String} {before after : List Char} {e : Expression} {data v : Json}
    (hp : parse s = .ok [.text before, .place e, .text after])
    (hv : evaluate data e = .ok (some v)) :
    render s data = .ok (String.ofList (before ++ showValue v ++ after)) := by
  rw [render, hp, ok_bind]
  simp only [fill, fillSegment, hv, ok_bind, List.append_nil, List.append_assoc]

end Template

namespace Generator

theorem looks_log {σ ε : Type} (level : Log.Level) (message : String)
    (details : List (String × String)) : Job.Looks (log level message details : Job σ ε Unit) :=
  Job.looks_log _ _ _ _

theorem looks_lowerBundle (g : Generator) (b : Bundle) : Job.Looks (g.lowerBundle b) := by
  unfold lowerBundle
  apply Job.Looks.bind (looks_log _ _ _)
  intro _
  cases lowerRoots g.platform.dialect g.options.roots b.roots with
  | none =>
    dsimp only
    split
    · exact Job.Looks.bind (looks_log _ _ _) fun _ => Job.looks_fail _
    · exact Job.looks_fail _
  | some code =>
    dsimp only
    split
    · exact Job.Looks.bind (looks_log _ _ _) fun _ => Job.looks_pure _
    · exact Job.looks_pure _

theorem looks_loadTemplate (source : TemplateSource) (p : Platform) (name : String) :
    Job.Looks (loadTemplate source p name) := by
  unfold loadTemplate
  cases source with
  | builtin =>
    dsimp only
    split
    · exact Job.looks_pure _
    · exact Job.looks_fail _
  | directory root =>
    apply Job.Looks.bind (Job.looks_ask _)
    intro _
    exact Job.Looks.bind (looks_log _ _ _) fun _ => Job.looks_ask _

theorem looks_fillTemplate (template : String) (data : Json) :
    Job.Looks (fillTemplate template data) :=
  Job.looks_ofExcept _

theorem looks_generateFile (g : Generator) (data : Json) (entry : ManifestEntry) :
    Job.Looks (g.generateFile data entry) := by
  unfold generateFile
  apply Job.Looks.bind (looks_loadTemplate _ _ _)
  intro source
  apply Job.Looks.bind (looks_fillTemplate _ _)
  intro path
  have hend (content : String) :
      Job.Looks (Job.pure ⟨⟨path⟩, content⟩ : Work GeneratedFile) := Job.looks_pure _
  split
  · exact Job.Looks.bind (Job.looks_pure _) hend
  · exact Job.Looks.bind (looks_fillTemplate _ _) hend

theorem looks_warnUnsupported (g : Generator) (n : Node) : Job.Looks (g.warnUnsupported n) := by
  unfold warnUnsupported
  split
  · exact Job.looks_pure _
  · exact looks_log _ _ _

theorem looks_generateFiles (g : Generator) (b : Bundle) : Job.Looks (g.generateFiles b) := by
  unfold generateFiles
  apply Job.Looks.bind (Job.looks_forAll g.looks_warnUnsupported _)
  intro _
  apply Job.Looks.bind (g.looks_lowerBundle b)
  intro content
  exact Job.looks_collect (g.looks_generateFile _) _

theorem looks_loadBundle (path : Path) : Job.Looks (loadBundle path) := by
  unfold loadBundle
  apply Job.Looks.bind (Job.looks_ask _)
  intro loaded
  apply Job.Looks.bind
  · exact Job.looks_forAll (fun _ => Job.looks_log _ _ _ _) _
  · exact fun _ => Job.looks_pure _

theorem path_of_generateFile {g : Generator} {data : Json} {entry : ManifestEntry} {t : FileTree}
    {file : GeneratedFile} (h : (g.generateFile data entry t).result = .ok file) :
    Template.render entry.output data = .ok file.path.text := by
  unfold generateFile at h
  obtain ⟨source, -, h⟩ := (looks_loadTemplate _ _ _).bind_ok_iff.mp h
  obtain ⟨path, hpath, h⟩ := (looks_fillTemplate _ _).bind_ok_iff.mp h
  have hfile : file.path = ⟨path⟩ := by
    split at h
    · obtain ⟨content, -, h⟩ := (Job.looks_pure _).bind_ok_iff.mp h
      exact congrArg GeneratedFile.path (Except.ok.inj h).symm
    · obtain ⟨content, -, h⟩ := (looks_fillTemplate _ _).bind_ok_iff.mp h
      exact congrArg GeneratedFile.path (Except.ok.inj h).symm
  rw [hfile]
  cases hr : Template.render entry.output data with
  | error e =>
    rw [fillTemplate, hr] at hpath
    cases hpath
  | ok s =>
    rw [fillTemplate, hr] at hpath
    rw [Except.ok.inj hpath]

end Generator

/-! ### Packages -/

namespace Config

theorem splitOn_map_dot {cs : List Char} (h : '/' ∉ cs) :
    (cs.map fun c => if c = '.' then '/' else c).splitOn '/' = cs.splitOn '.' := by
  induction cs with
  | nil => rfl
  | cons c cs ih =>
    obtain ⟨hc, h⟩ : c ≠ '/' ∧ _ := by simpa [eq_comm] using h
    rw [List.map_cons, List.splitOn_cons_eq_if_modifyHead, List.splitOn_cons_eq_if_modifyHead, ih h]
    by_cases hd : c = '.'
    · simp [hd]
    · simp [hd, hc]

def segments (id : String) : List String := (id.toList.splitOn '.').map String.ofList

theorem isIdentifier_of_mem {id : String} (h : isDotted id = true) {s : String}
    (hs : s ∈ segments id) : isIdentifier s.toList = true := by
  obtain ⟨cs, hcs, rfl⟩ := List.mem_map.mp hs
  rw [String.toList_ofList]
  exact (isDotted_iff.mp h).2 cs hcs

theorem dot_not_mem_segment {id : String} (h : isDotted id = true) {s : String}
    (hs : s ∈ segments id) : '.' ∉ s.toList :=
  dot_not_mem_identifier (isIdentifier_of_mem h hs)

theorem isName_segment {id : String} (h : isDotted id = true) {s : String}
    (hs : s ∈ segments id) : Path.IsName s := by
  have hi := isIdentifier_of_mem h hs
  have hdot := dot_not_mem_segment h hs
  refine ⟨?_, ?_, ?_, ?_, ?_⟩
  · rintro rfl
    cases hi
  · rintro rfl
    exact hdot (by simp)
  · rintro rfl
    exact hdot (by simp)
  · exact fun hc => absurd (mem_identifier hi hc) (by decide)
  · exact fun hc => absurd (mem_identifier hi hc) (by decide)

def packagePieces (id : String) : List String :=
  (⟨id.map fun c => if c = '.' then '/' else c⟩ : Path).pieces

theorem dot_not_mem_packagePiece {id s : String} (hs : s ∈ packagePieces id) : '.' ∉ s.toList := by
  intro hc
  have hm := (Path.of_mem_piece hs hc).1
  rw [String.toList_map] at hm
  obtain ⟨c, -, hc⟩ := List.mem_map.mp hm
  split at hc
  · exact absurd hc (by decide)
  · exact absurd hc ‹_›

theorem pieces_package {id : String} (h : isDotted id = true) :
    packagePieces id = segments id := by
  have hslash : '/' ∉ id.toList := by
    intro hc
    obtain ⟨piece, hp, hc⟩ := Path.mem_splitOn (a := '.') (by decide) hc
    have hi : isIdentifier piece = true := (isDotted_iff.mp h).2 piece hp
    exact absurd (mem_identifier hi hc) (by decide)
  rw [packagePieces, Path.pieces, String.toList_map, splitOn_map_dot hslash, segments]

theorem isDotted_of_validate {c : Config} (h : c.validate = .ok ()) :
    isDotted c.packageId = true :=
  (validate_eq_ok_iff.mp h).1

end Config

/-! ### The layout of a project -/

def Platform.layout (package : List String) : Platform → List (List String × String)
  | .android => [
    (["app", "src", "main", "java"] ++ package, "MainActivity.kt"),
    (["app", "src", "main", "java"] ++ package ++ ["ui", "theme"], "Theme.kt"),
    (["app", "src", "main"], "AndroidManifest.xml"), (["app"], "build.gradle.kts"),
    ([], "settings.gradle.kts")]
  | .ios => [([], "ContentView.swift"), ([], "ForgeApp.swift"), ([], "Info.plist")]
  | .macos => [(["ForgeApp"], "ContentView.swift"), (["ForgeApp"], "App.swift"),
    (["ForgeApp"], "Theme.swift")]

namespace Generator

def namesOf (template : String) (data : Json) : Except Template.Fault (List String) :=
  (Template.render template data).map fun s => (⟨s⟩ : Path).pieces

theorem namesOf_plain {s : String} {ns : List String} (hb : '\x7b' ∉ s.toList)
    (hs : '\\' ∉ s.toList) (hns : (⟨s⟩ : Path).pieces = ns) (data : Json) :
    namesOf s data = .ok ns := by
  rw [namesOf, Template.render_plain hb hs]
  exact congrArg Except.ok hns

theorem evaluate_package (o : ProjectOptions) (content : String) :
    Template.evaluate (templateData o content) (.reference (.data ["package_path"])) =
      .ok (some (.string (o.packageId.map fun c => if c = '.' then '/' else c))) :=
  rfl

theorem namesOf_package (o : ProjectOptions) (content : String) {s before after : String}
    (hp : Template.parse s = .ok [.text (before ++ "/").toList,
      .place (.reference (.data ["package_path"])), .text ("/" ++ after).toList]) :
    namesOf s (templateData o content) =
      .ok ((⟨before⟩ : Path).pieces ++ Config.packagePieces o.packageId ++
        (⟨after⟩ : Path).pieces) := by
  rw [namesOf, Template.render_place hp (evaluate_package o content), Template.showValue_string,
    Config.packagePieces]
  refine congrArg Except.ok ?_
  generalize o.packageId.map (fun c => if c = '.' then '/' else c) = package
  have hs : (⟨before ++ "/" ++ package⟩ : Path).pieces =
      (⟨before⟩ : Path).pieces ++ (⟨package⟩ : Path).pieces :=
    Path.pieces_append_slash _ ⟨package⟩ rfl
  rw [← hs]
  apply Path.pieces_append_slash
  rw [← String.toList_inj]
  simp

end Generator

namespace Platform

open Generator

theorem namesOf_manifest (p : Platform) (o : ProjectOptions) (content : String) :
    List.Forall₂ (fun x e => namesOf e.output (templateData o content) = .ok (x.1 ++ [x.2]))
      (p.layout (Config.packagePieces o.packageId)) p.manifest := by
  cases p with
  | android =>
    have hmain : Template.parse "app/src/main/java/\x7b\x7bpackage_path\x7d\x7d/MainActivity.kt" =
        .ok [.text ("app/src/main/java" ++ "/").toList,
          .place (.reference (.data ["package_path"])),
          .text ("/" ++ "MainActivity.kt").toList] := rfl
    have htheme :
        Template.parse "app/src/main/java/\x7b\x7bpackage_path\x7d\x7d/ui/theme/Theme.kt" =
        .ok [.text ("app/src/main/java" ++ "/").toList,
          .place (.reference (.data ["package_path"])),
          .text ("/" ++ "ui/theme/Theme.kt").toList] := rfl
    have hjava : (⟨"app/src/main/java"⟩ : Path).pieces = ["app", "src", "main", "java"] := by decide
    have hkt : (⟨"MainActivity.kt"⟩ : Path).pieces = ["MainActivity.kt"] := by decide
    have hui : (⟨"ui/theme/Theme.kt"⟩ : Path).pieces = ["ui", "theme"] ++ ["Theme.kt"] := by decide
    refine .cons ?_ (.cons ?_ (.cons ?_ (.cons ?_ (.cons ?_ .nil))))
    · rw [namesOf_package o content hmain, hjava, hkt]
    · rw [namesOf_package o content htheme, hjava, hui, List.append_assoc _ ["ui", "theme"]]
    · exact namesOf_plain (by decide) (by decide) (by decide) _
    · exact namesOf_plain (by decide) (by decide) (by decide) _
    · exact namesOf_plain (by decide) (by decide) (by decide) _
  | ios =>
    refine .cons ?_ (.cons ?_ (.cons ?_ .nil)) <;>
      exact namesOf_plain (by decide) (by decide) (by decide) _
  | macos =>
    refine .cons ?_ (.cons ?_ (.cons ?_ .nil)) <;>
      exact namesOf_plain (by decide) (by decide) (by decide) _

structure Orderly (x : List String × String) : Prop where
  dirs : ∀ n ∈ x.1, Path.IsName n ∧ '.' ∉ n.toList
  file : Path.IsName x.2 ∧ '.' ∈ x.2.toList

theorem orderly_layout (p : Platform) {package : List String}
    (h : ∀ n ∈ package, Path.IsName n ∧ '.' ∉ n.toList) : ∀ x ∈ p.layout package, Orderly x := by
  have hjava : ∀ n ∈ ["app", "src", "main", "java"], Path.IsName n ∧ '.' ∉ n.toList := by decide
  have hui : ∀ n ∈ ["ui", "theme"], Path.IsName n ∧ '.' ∉ n.toList := by decide
  cases p with
  | android =>
    simp only [layout, List.forall_mem_cons]
    refine ⟨⟨?_, by dsimp only; decide⟩, ⟨?_, by dsimp only; decide⟩, ⟨by decide, by decide⟩,
      ⟨by decide, by decide⟩, ⟨by decide, by decide⟩, by simp⟩
    · exact List.forall_mem_append.mpr ⟨hjava, h⟩
    · exact List.forall_mem_append.mpr ⟨List.forall_mem_append.mpr ⟨hjava, h⟩, hui⟩
  | ios =>
    simp only [layout, List.forall_mem_cons]
    exact ⟨⟨by decide, by decide⟩, ⟨by decide, by decide⟩, ⟨by decide, by decide⟩, by simp⟩
  | macos =>
    simp only [layout, List.forall_mem_cons]
    exact ⟨⟨by decide, by decide⟩, ⟨by decide, by decide⟩, ⟨by decide, by decide⟩, by simp⟩

theorem layout_distinct (p : Platform) (package : List String) :
    (p.layout package).Pairwise fun x y => x.2 ≠ y.2 := by
  cases p <;> simp [layout]

/-- Where no directory has a dot in its name and every file has one, no file stands on the way to
another one. -/
theorem eq_of_isPrefix_of_dot {dirs dirs' : List String} {file file' : String}
    (hf : '.' ∈ file.toList) (hd : ∀ n ∈ dirs', '.' ∉ n.toList)
    (h : dirs ++ [file] <+: dirs' ++ [file']) : file = file' := by
  rcases List.prefix_concat_iff.mp h with h | h
  · exact (List.cons.inj (List.append_inj_right' h rfl)).1
  · exact absurd hf (hd file (h.subset (by simp)))

theorem Orderly.eq_of_isPrefix {x y : List String × String} (hx : Orderly x) (hy : Orderly y)
    (h : x.1 ++ [x.2] <+: y.1 ++ [y.2]) : x.2 = y.2 :=
  eq_of_isPrefix_of_dot hx.file.2 (fun n hn => (hy.dirs n hn).2) h

end Platform

structure Spread (files : List GeneratedFile) : Prop where
  ne_nil : files ≠ []
  names : ∀ f ∈ files, f.path.IsNames
  apart : files.Pairwise fun f g =>
    ¬f.path.pieces <+: g.path.pieces ∧ ¬g.path.pieces <+: f.path.pieces

theorem Spread.eq_of_isPrefix {files : List GeneratedFile} (h : Spread files) {f g : GeneratedFile}
    (hf : f ∈ files) (hg : g ∈ files) (hp : f.path.pieces <+: g.path.pieces) : f = g := by
  have hsymm : Std.Symm fun f g : GeneratedFile =>
      ¬f.path.pieces <+: g.path.pieces ∧ ¬g.path.pieces <+: f.path.pieces :=
    ⟨fun _ _ h => ⟨h.2, h.1⟩⟩
  by_contra hne
  exact (h.apart.forall hf hg hne).1 hp

open Platform in
theorem spread_of_layout {xs : List (List String × String)} {files : List GeneratedFile}
    (h : files.map (fun f => f.path.pieces) = xs.map fun x => x.1 ++ [x.2]) (hne : xs ≠ [])
    (hx : ∀ x ∈ xs, Orderly x) (hd : xs.Pairwise fun x y => x.2 ≠ y.2) : Spread files where
  ne_nil := by
    rintro rfl
    exact hne (List.map_eq_nil_iff.mp h.symm)
  names f hf := by
    have hm : f.path.pieces ∈ files.map fun f => f.path.pieces := List.mem_map_of_mem hf
    rw [h] at hm
    obtain ⟨x, hxs, he⟩ := List.mem_map.mp hm
    intro n hn
    rw [← he] at hn
    rcases List.mem_append.mp hn with hn | hn
    · exact ((hx x hxs).dirs n hn).1
    · exact List.mem_singleton.mp hn ▸ (hx x hxs).file.1
  apart := by
    have hp : (files.map fun f => f.path.pieces).Pairwise fun p q => ¬p <+: q ∧ ¬q <+: p := by
      rw [h, List.pairwise_map]
      refine hd.imp_of_mem fun {x y} hxs hys hxy => ⟨fun hp => ?_, fun hp => ?_⟩
      · exact hxy ((hx x hxs).eq_of_isPrefix (hx y hys) hp)
      · exact hxy ((hx y hys).eq_of_isPrefix (hx x hxs) hp).symm
    exact List.pairwise_map.mp hp

namespace Generator

theorem pieces_of_entries {g : Generator} {data : Json} {t : FileTree}
    {xs : List (List String × String)} {entries : List ManifestEntry} {files : List GeneratedFile}
    (hx : List.Forall₂ (fun x e => namesOf e.output data = .ok (x.1 ++ [x.2])) xs entries)
    (hf : List.Forall₂ (fun e f => (g.generateFile data e t).result = .ok f) entries files) :
    files.map (fun f => f.path.pieces) = xs.map fun x => x.1 ++ [x.2] := by
  induction hx generalizing files with
  | nil =>
    cases hf
    rfl
  | cons hx _ ih =>
    cases hf with
    | cons hf hfs =>
      rw [List.map_cons, List.map_cons, ih hfs]
      rw [namesOf, path_of_generateFile hf] at hx
      rw [← Except.ok.inj hx]

theorem layout_of_generateFiles {g : Generator} {b : Bundle} {t : FileTree}
    {files : List GeneratedFile} (h : (g.generateFiles b t).result = .ok files) :
    files.map (fun f => f.path.pieces) =
      (g.platform.layout (Config.packagePieces g.options.packageId)).map fun x =>
        x.1 ++ [x.2] := by
  unfold generateFiles at h
  obtain ⟨-, -, h⟩ := (Job.looks_forAll g.looks_warnUnsupported _).bind_ok_iff.mp h
  obtain ⟨content, -, h⟩ := (g.looks_lowerBundle b).bind_ok_iff.mp h
  exact pieces_of_entries (g.platform.namesOf_manifest g.options content)
    (Job.forall₂_of_collect (g.looks_generateFile _) h)

theorem pieces_of_generateFiles {g : Generator} (hd : Config.isDotted g.options.packageId = true)
    {b : Bundle} {t : FileTree} {files : List GeneratedFile}
    (h : (g.generateFiles b t).result = .ok files) :
    files.map (fun f => f.path.pieces) =
      (g.platform.layout (Config.segments g.options.packageId)).map fun x => x.1 ++ [x.2] := by
  rw [layout_of_generateFiles h, Config.pieces_package hd]

theorem exists_layout {g : Generator} (hd : Config.isDotted g.options.packageId = true)
    {b : Bundle} {t : FileTree} {files : List GeneratedFile}
    (h : (g.generateFiles b t).result = .ok files) {f : GeneratedFile} (hf : f ∈ files) :
    ∃ x ∈ g.platform.layout (Config.segments g.options.packageId),
      f.path.pieces = x.1 ++ [x.2] := by
  have hm : f.path.pieces ∈ files.map fun f => f.path.pieces := List.mem_map_of_mem hf
  rw [pieces_of_generateFiles hd h] at hm
  obtain ⟨x, hx, he⟩ := List.mem_map.mp hm
  exact ⟨x, hx, he.symm⟩

theorem mem_of_layout {g : Generator} (hd : Config.isDotted g.options.packageId = true)
    {b : Bundle} {t : FileTree} {files : List GeneratedFile}
    (h : (g.generateFiles b t).result = .ok files) {x : List String × String}
    (hx : x ∈ g.platform.layout (Config.segments g.options.packageId)) :
    ∃ f ∈ files, f.path.pieces = x.1 ++ [x.2] := by
  have hm : x.1 ++ [x.2] ∈
      (g.platform.layout (Config.segments g.options.packageId)).map fun x => x.1 ++ [x.2] :=
    List.mem_map_of_mem hx
  rw [← pieces_of_generateFiles hd h] at hm
  exact List.mem_map.mp hm

theorem exists_package_file {g : Generator} (hp : g.platform = .android)
    (hd : Config.isDotted g.options.packageId = true) {b : Bundle} {t : FileTree}
    {files : List GeneratedFile} (h : (g.generateFiles b t).result = .ok files) :
    ∃ f ∈ files, ∀ n ∈ Config.segments g.options.packageId, n ∈ f.path.pieces := by
  obtain ⟨f, hm, hf⟩ := mem_of_layout hd h
    (x := (["app", "src", "main", "java"] ++ Config.segments g.options.packageId,
      "MainActivity.kt")) (by simp [hp, Platform.layout])
  refine ⟨f, hm, fun n hn => ?_⟩
  rw [hf]
  exact List.mem_append_left _ (List.mem_append_right _ hn)

theorem orderly_of_options {g : Generator} (hd : Config.isDotted g.options.packageId = true) :
    ∀ x ∈ g.platform.layout (Config.segments g.options.packageId), Platform.Orderly x :=
  Platform.orderly_layout _ fun _ hn =>
    ⟨Config.isName_segment hd hn, Config.dot_not_mem_segment hd hn⟩

theorem spread_of_generateFiles {g : Generator} (hd : Config.isDotted g.options.packageId = true)
    {b : Bundle} {t : FileTree} {files : List GeneratedFile}
    (h : (g.generateFiles b t).result = .ok files) : Spread files := by
  apply spread_of_layout (pieces_of_generateFiles hd h)
  · cases g.platform <;> simp [Platform.layout]
  · exact orderly_of_options hd
  · exact Platform.layout_distinct _ _

end Generator

end NativeUi
