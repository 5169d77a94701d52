import NativeUi.Proofs.Project.Generation

/-!
# A generation is all or nothing

A generation that fails leaves the tree as it was, and one that succeeds replaces the output of its
platform and nothing else. The old output is removed before the new one is written, and two things
could go wrong in between: a path may be too long for the system, and the path of the working
directory may itself lead through the old output.
-/
namespace NativeUi

open NativeUi.FileTree NativeUi.Workspace
open NativeUi.Path (Step)

/-- Nothing that a project needs is too long, and the path of the working directory leads through
the output only by directories that the project has itself. -/
structure Feasible (t : FileTree) (dir : Path) (p : Platform) (package : List String) : Prop where
  fits : ∀ x ∈ p.layout package, Fits ((outputDir p dir).joinAll (x.1 ++ [x.2]))
  through : ∀ r, t.target (outputDir p dir) ++ r ∈ t.passed dir → ∃ x ∈ p.layout package, r <+: x.1

structure Renewed (t : FileTree) (dir : Path) (p : Platform) (files : List GeneratedFile)
    (u : FileTree) : Prop where
  plain : u.Plain
  base : u.base = t.base
  inside : ∀ r, u.get? (t.target (outputDir p dir) ++ r) = entryAt files r
  outside : ∀ q, ¬t.target (outputDir p dir) <+: q →
    u.get? q = t.get? q ∨
      (q <+: t.target (outputDir p dir) ∧ t.get? q = none ∧ u.get? q = some .directory)
  bundle : u.get? (t.target (bundlePath dir)) = t.get? (t.target (bundlePath dir))
  others : ∀ p', p' ≠ p → ∀ q, t.target (outputDir p' dir) <+: q → u.get? q = t.get? q

/-- Why a generation fails. -/
inductive Fault (g : Generator) (dir : Path) (t : FileTree) : ProjectError → Prop
  | bundle {e : BundleError} (h : Bundle.load t (bundlePath dir) = .error e) :
      Fault g dir t (.bundle e)
  | files {lb : LoadedBundle} {e : ProjectError} (load : Bundle.load t (bundlePath dir) = .ok lb)
      (h : (g.generateFiles lb.bundle t).result = .error e) : Fault g dir t e
  | blocked {k : Nat} {q : Path} (h : t.isFile (outputAncestor g.platform dir k) = true) :
      Fault g dir t (.write q .notADirectory)

section

variable {t : FileTree} {dir : Path} {g : Generator}
  (hd : Config.isDotted g.options.packageId = true)
  (hF : Feasible t dir g.platform (Config.segments g.options.packageId))
  {lb : LoadedBundle} {files : List GeneratedFile}
  (hf : (g.generateFiles lb.bundle t).result = .ok files)

theorem mem_passed_inside {p : Platform} {r : Place}
    (h : t.target (outputDir p dir) ++ r ∈ t.passed (outputDir p dir)) :
    r = [] ∨ t.target (outputDir p dir) ++ r ∈ t.passed dir := by
  rcases mem_passed_outputDir.mp h with h | ⟨r', hr, he⟩
  · exact .inr h
  · left
    rw [target_outputDir, List.append_assoc] at he
    have hl := hr.length_le
    rw [← List.append_cancel_left he, List.length_append] at hl
    exact List.eq_nil_of_length_eq_zero (by omega)

include hd hF hf

theorem exists_folder {r : Place}
    (h : t.target (outputDir g.platform dir) ++ r ∈ t.passed (outputDir g.platform dir)) :
    ∃ f ∈ files, r <+: f.path.pieces ∧ r ≠ f.path.pieces := by
  rcases mem_passed_inside h with rfl | h
  · have hspread := Generator.spread_of_generateFiles hd hf
    obtain ⟨f, hm⟩ := List.exists_mem_of_ne_nil files hspread.ne_nil
    exact ⟨f, hm, List.nil_prefix, f.path.pieces_ne_nil.symm⟩
  · obtain ⟨x, hx, hr⟩ := hF.through r h
    obtain ⟨f, hm, hp⟩ := Generator.mem_of_layout hd hf hx
    have hdrop : (x.1 ++ [x.2]).dropLast = x.1 := List.dropLast_concat
    rw [← hdrop, ← hp] at hr
    exact ⟨f, hm, (isPrefix_dropLast_iff f.path.pieces_ne_nil).mp hr⟩

theorem placeable_of_feasible :
    ∀ f ∈ files, Generator.Placeable t (outputDir g.platform dir) f := by
  intro f hm
  have hspread := Generator.spread_of_generateFiles hd hf
  have hnames := hspread.names f hm
  constructor
  · obtain ⟨x, hx, hp⟩ := Generator.exists_layout hd hf hm
    rw [Path.join_eq_joinAll (endsInName_outputDir _ dir) hnames, hp]
    exact hF.fits x hx
  · intro h
    obtain ⟨f', hm', hp, hne⟩ := exists_folder hd hF hf h
    exact hne (hspread.eq_of_isPrefix hm hm' hp ▸ rfl)

theorem renewed_of_replaced (ht : t.Plain) (hl : Bundle.load t (bundlePath dir) = .ok lb)
    (hfree : ∀ q ∈ t.passed (outputDir g.platform dir), t.Free q) {u : FileTree}
    (hu : Replaced t (outputDir g.platform dir) files u) : Renewed t dir g.platform files u := by
  have hsettled := settled_of_isFile (ht.unlinked _) (isFile_of_load hl)
  have hinside (r : Place) :
      u.get? (t.target (outputDir g.platform dir) ++ r) = entryAt files r := by
    by_cases hp : t.target (outputDir g.platform dir) ++ r ∈ t.passed (outputDir g.platform dir)
    · obtain ⟨f, hm, hr, hne⟩ := exists_folder hd hF hf hp
      rw [hu.passed _ hp, entryAt_of_folder (Generator.spread_of_generateFiles hd hf) hm hr hne]
    · exact hu.inside r hp
  have houtside (q : Place) (hq : ¬t.target (outputDir g.platform dir) <+: q) :
      u.get? q = t.get? q ∨ (q <+: t.target (outputDir g.platform dir) ∧ t.get? q = none ∧
        u.get? q = some .directory) := by
    by_cases hp : q ∈ t.passed (outputDir g.platform dir)
    · rcases hfree q hp with hn | hn
      · right
        refine ⟨?_, hn, hu.passed q hp⟩
        rcases mem_passed_outputDir.mp hp with h | ⟨r, hr, rfl⟩
        · exact absurd (hn.symm.trans (directory_of_reach hsettled.reach q h)) (by simp)
        · rw [target_outputDir]
          exact (List.prefix_append_right_inj _).mpr hr
      · exact .inl ((hu.passed q hp).trans hn.symm)
    · exact .inl (hu.outside q hp hq)
  refine ⟨⟨fun q target hq => ?_, hu.closed⟩, hu.base, hinside, houtside, ?_, ?_⟩
  · by_cases hp : t.target (outputDir g.platform dir) <+: q
    · obtain ⟨r, rfl⟩ := hp
      rw [hinside r] at hq
      exact entryAt_ne_link hq
    · rcases houtside q hp with h | ⟨-, -, h⟩
      · exact ht.noLink q target (h.symm.trans hq)
      · rw [h] at hq
        cases hq
  · obtain ⟨c, r, hr⟩ := hsettled.bundle
    have hfile := (reach_ok hr).2
    have hout : ¬t.target (outputDir g.platform dir) <+: t.target (bundlePath dir) := by
      rw [target_extends (extends_bundlePath dir)]
      exact bundle_apart (List.prefix_refl bundleNames)
    rcases houtside _ hout with h | ⟨-, hn, -⟩
    · exact h
    · exact absurd (hn.symm.trans hfile) (by simp)
  · intro p' hne q hq
    have hnot : ¬t.target (outputDir g.platform dir) <+: q := by
      intro h
      rcases List.prefix_or_prefix_of_prefix h hq with h | h
      · exact hne (outputs_apart h).symm
      · exact hne (outputs_apart h)
    rcases houtside q hnot with h | ⟨h, -⟩
    · exact h
    · exact absurd (outputs_apart (hq.trans h)) hne

end

theorem generate_loses_output {t : FileTree} {dir : Path} {g : Generator} (ht : t.Plain)
    (hd : Config.isDotted g.options.packageId = true)
    (hO : ¬t.StartsBelow (outputDir g.platform dir)) {lb : LoadedBundle}
    (hl : Bundle.load t (bundlePath dir) = .ok lb) {files : List GeneratedFile}
    (hf : (g.generateFiles lb.bundle t).result = .ok files)
    (hsize : (outputDir g.platform dir).text.utf8ByteSize ≤ pathLimit)
    (hold : t.get? (t.target (outputDir g.platform dir)) = some .directory)
    (hnot : ¬∀ f ∈ files, Generator.Placeable t (outputDir g.platform dir) f) :
    (∃ e, (g.generate dir t).result = .error e) ∧
      Lost t (outputDir g.platform dir) files (g.generate dir t).state := by
  obtain ⟨hr, hs⟩ := Generator.generate_of_files hl hf
  have hsettled := settled_of_isFile (ht.unlinked _) (isFile_of_load hl)
  rw [hr, hs]
  rcases replaceOutput_cases ht.closed (ht.unlinked _) hsettled hO
      (Generator.spread_of_generateFiles hd hf) with
    ⟨-, ⟨e, he⟩, hlost⟩ | ⟨⟨k, hk⟩, -, -⟩ | ⟨hall, -⟩
  · exact ⟨⟨e, by rw [he]; rfl⟩, hlost hsize hold⟩
  · have hfile := not_isFile_of_free (room_of_directory ht.closed hsettled hold) k
    exact absurd (hk.symm.trans hfile) (by simp)
  · exact absurd hall hnot

/-- A generation whose paths and names are not too long, and for which the path of the working
directory neither starts below the output nor leads through what the project lacks, fails and leaves
the tree as it was, or puts the whole project in place of what was there. -/
theorem generate_all_or_nothing {t : FileTree} {dir : Path} {g : Generator} {c : Config}
    (ht : t.Plain) (hc : c.validate = .ok ()) (hg : g.options = c.projectOptions)
    (hO : ¬t.StartsBelow (outputDir g.platform dir))
    (hF : Feasible t dir g.platform (Config.segments c.packageId)) :
    (∃ e, (g.generate dir t).result = .error e ∧ Fault g dir t e ∧
      (g.generate dir t).state = t) ∨
    ∃ lb files, Bundle.load t (bundlePath dir) = .ok lb ∧
      (g.generateFiles lb.bundle t).result = .ok files ∧
      (∀ k, t.isFile (outputAncestor g.platform dir k) = false) ∧
      (g.generate dir t).result = .ok (outputDir g.platform dir) ∧
      Renewed t dir g.platform files (g.generate dir t).state := by
  have hp : g.options.packageId = c.packageId := by rw [hg]; rfl
  have hd : Config.isDotted g.options.packageId = true := by
    rw [hp]
    exact Config.isDotted_of_validate hc
  rw [← hp] at hF
  cases hl : Bundle.load t (bundlePath dir) with
  | error e =>
    obtain ⟨hr, hs⟩ := Generator.generate_of_load_error (g := g) hl
    exact .inl ⟨_, hr, .bundle hl, hs⟩
  | ok lb =>
    cases hf : (g.generateFiles lb.bundle t).result with
    | error e =>
      obtain ⟨hr, hs⟩ := Generator.generate_of_files_error hl hf
      exact .inl ⟨e, hr, .files hl hf, hs⟩
    | ok files =>
      obtain ⟨hr, hs⟩ := Generator.generate_of_files hl hf
      have hsettled := settled_of_isFile (ht.unlinked _) (isFile_of_load hl)
      rw [hr, hs]
      rcases replaceOutput_cases ht.closed (ht.unlinked _) hsettled hO
        (Generator.spread_of_generateFiles hd hf) with
        ⟨hnot, -⟩ | ⟨⟨k, hk⟩, ⟨q, he⟩, hsame⟩ | ⟨-, hfree, hok, hu⟩
      · exact absurd (placeable_of_feasible hd hF hf) hnot
      · exact .inl ⟨_, by rw [he]; rfl, .blocked hk, hsame⟩
      · exact .inr ⟨lb, files, rfl, hf, not_isFile_of_free hfree, by rw [hok]; rfl,
          renewed_of_replaced hd hF hf ht hl hfree hu⟩

def wornTree : FileTree := .ofTexts
  [[".forge"], [".forge", "semantic"], [".forge", "native"], [".forge", "native", "android"],
    [".forge", "native", "ios"], [".forge", "native", "ios", "Info.plist"], ["t"],
    ["t", "android"], ["t", "ios"]]
  [([".forge", "semantic", "semantic.json"],
      "\x7b\"ui\":\x7b\"components\":[\x7b\"type\":\"text\"\x7d]\x7d\x7d"),
    ([".forge", "native", "android", "old.txt"], "old"),
    ([".forge", "native", "ios", "Info.plist", "old.txt"], "old"),
    (["t", "android", "MainActivity.kt.hbs"], ""), (["t", "android", "Theme.kt.hbs"], ""),
    (["t", "android", "AndroidManifest.xml.hbs"], ""),
    (["t", "android", "app.build.gradle.kts.hbs"], ""),
    (["t", "android", "settings.gradle.kts.hbs"], ""), (["t", "ios", "ContentView.swift.hbs"], ""),
    (["t", "ios", "ForgeApp.swift"], ""), (["t", "ios", "Info.plist.hbs"], "")]

theorem plain_wornTree : wornTree.Plain := plain_of_isPlain (by decide)

def longName : List Char := List.replicate 256 'a'

def longNamed : Config :=
  ⟨"0.1.0", ⟨"app", some (String.ofList ("com.".toList ++ longName))⟩, .default⟩

theorem package_longNamed :
    longNamed.packageId.toList.splitOn '.' = ["com".toList, longName] ∧
      ["com".toList, longName].all Config.isIdentifier = true ∧
      isShort (.name (String.ofList longName)) = false := by
  have htext : longNamed.packageId.toList = "com.".toList ++ longName := String.toList_ofList
  rw [htext]
  decide +kernel

theorem validate_longNamed : longNamed.validate = .ok () := by
  obtain ⟨hsplit, hall, -⟩ := package_longNamed
  have hd : Config.isDotted longNamed.packageId = true := by
    rw [Config.isDotted_iff, hsplit]
    exact ⟨by decide, List.all_eq_true.mp hall⟩
  rw [Config.validate, hd]
  rfl

theorem segments_longNamed :
    Config.segments longNamed.packageId = ["com", String.ofList longName] := by
  rw [Config.segments, package_longNamed.1]
  rfl

def emptyTemplates (p : Platform) (c : Config) : Generator :=
  ⟨p, .directory ⟨"t"⟩, c.projectOptions⟩

theorem exists_files (g : Generator) (dir : Path) (t : FileTree)
    (h : ((Bundle.load t (bundlePath dir)).mapError ProjectError.bundle >>= fun lb =>
      (g.generateFiles lb.bundle t).result).isOk = true) :
    ∃ lb files, Bundle.load t (bundlePath dir) = .ok lb ∧
      (g.generateFiles lb.bundle t).result = .ok files := by
  obtain ⟨files, h⟩ := exists_of_isOk h
  obtain ⟨lb, hl, hf⟩ := bind_eq_ok_iff.mp h
  cases hload : Bundle.load t (bundlePath dir) with
  | error e =>
    rw [hload] at hl
    cases hl
  | ok lb' =>
    rw [hload] at hl
    obtain rfl := Except.ok.inj hl
    exact ⟨lb', files, rfl, hf⟩

theorem not_placeable_of_long {t : FileTree} {out : Path} {f : GeneratedFile}
    (hf : f.path.IsNames) {n : String} (hn : n ∈ f.path.pieces)
    (hlong : isShort (.name n) = false) : ¬Generator.Placeable t out f := by
  intro h
  have hs := h.1.2 (.name n) (by simp [(hf.extends_join out).steps, hn])
  exact absurd (hs.symm.trans hlong) (by simp)

theorem Lost.ne {t u : FileTree} {out : Path} {files : List GeneratedFile}
    (h : Lost t out files u) {r : Place} (hr : t.target out ++ r ∉ t.passed out)
    (hfiles : ∀ f ∈ files, ¬r <+: f.path.pieces) (hsome : t.get? (t.target out ++ r) ≠ none) :
    u ≠ t := by
  rintro rfl
  exact hsome (h r hr hfiles)

theorem generate_longNamed :
    (∃ e, ((emptyTemplates .android longNamed).generate ⟨"."⟩ wornTree).result = .error e) ∧
      ((emptyTemplates .android longNamed).generate ⟨"."⟩ wornTree).state ≠ wornTree := by
  have hid : (emptyTemplates .android longNamed).options.packageId = longNamed.packageId := rfl
  have hd : Config.isDotted (emptyTemplates .android longNamed).options.packageId = true := by
    rw [hid]
    exact Config.isDotted_of_validate validate_longNamed
  obtain ⟨lb, files, hl, hf⟩ := exists_files (emptyTemplates .android longNamed) ⟨"."⟩ wornTree
    (by decide +kernel)
  have hnot : ¬∀ f ∈ files, Generator.Placeable wornTree (outputDir .android ⟨"."⟩) f := by
    intro hall
    obtain ⟨f, hm, hp⟩ := Generator.exists_package_file rfl hd hf
    rw [hid, segments_longNamed] at hp
    have hn := hp (String.ofList longName) (List.mem_cons_of_mem _ List.mem_cons_self)
    exact not_placeable_of_long ((Generator.spread_of_generateFiles hd hf).names f hm) hn
      package_longNamed.2.2 (hall f hm)
  obtain ⟨he, hlost⟩ := generate_loses_output plain_wornTree hd (by decide) hl hf (by decide)
    (by decide) hnot
  refine ⟨he, hlost.ne (r := ["old.txt"]) (by decide) ?_ (by decide)⟩
  intro f hm
  obtain ⟨x, hx, hp⟩ := Generator.exists_layout hd hf hm
  have hlayout (package : List String) : ∀ x ∈ Platform.layout package .android,
      ¬["old.txt"] <+: x.1 ++ [x.2] := by simp [Platform.layout]
  rw [hp]
  exact hlayout _ x hx

def detour : Path := ⟨".forge/native/ios/Info.plist/../../../.."⟩

theorem generate_detour :
    (∃ e, ((emptyTemplates .ios .default).generate detour wornTree).result = .error e) ∧
      ((emptyTemplates .ios .default).generate detour wornTree).state ≠ wornTree := by
  have hd : Config.isDotted (emptyTemplates .ios .default).options.packageId = true := by decide
  obtain ⟨lb, files, hl, hf⟩ := exists_files (emptyTemplates .ios .default) detour wornTree
    (by decide +kernel)
  have hnot : ¬∀ f ∈ files, Generator.Placeable wornTree (outputDir .ios detour) f := by
    intro hall
    obtain ⟨f, hm, hp⟩ := Generator.mem_of_layout hd hf (x := ([], "Info.plist")) (by decide)
    have hnew := (hall f hm).2
    rw [hp] at hnew
    exact hnew (by decide)
  obtain ⟨he, hlost⟩ := generate_loses_output plain_wornTree hd (by decide) hl hf (by decide)
    (by decide) hnot
  refine ⟨he, hlost.ne (r := ["Info.plist", "old.txt"]) (by decide) ?_ (by decide)⟩
  intro f hm
  obtain ⟨x, hx, hp⟩ := Generator.exists_layout hd hf hm
  have hlayout (package : List String) : ∀ x ∈ Platform.layout package .ios,
      ¬["Info.plist", "old.txt"] <+: x.1 ++ [x.2] := by simp [Platform.layout]
  rw [hp]
  exact hlayout _ x hx

def strandedTree : FileTree :=
  { (wornTree.put ["work", ".forge", "native", "android", "app"] .directory).put
      ["work", ".forge", "native", "android", "app", "src"] .directory with
    base := ["work", ".forge", "native", "android", "app"] }

def wayOut : Path := ⟨"src/../../../../.."⟩

def farTemplates (p : Platform) (c : Config) : Generator :=
  ⟨p, .directory ⟨"/work/t"⟩, c.projectOptions⟩

theorem generate_wayOut :
    (∃ e, ((farTemplates .android .default).generate wayOut strandedTree).result = .error e) ∧
      ((farTemplates .android .default).generate wayOut strandedTree).state ≠ strandedTree := by
  have hd : Config.isDotted (farTemplates .android .default).options.packageId = true := by decide
  have hplain : strandedTree.Plain := plain_of_isPlain (by decide)
  obtain ⟨lb, files, hl, hf⟩ := exists_files (farTemplates .android .default) wayOut strandedTree
    (by decide +kernel)
  obtain ⟨hr, hs⟩ := Generator.generate_of_files hl hf
  obtain ⟨⟨e, he⟩, hstate⟩ := replaceOutput_of_start (p := .android) hplain.closed
    (settled_of_isFile (hplain.unlinked _) (isFile_of_load hl)) (by decide)
    (Generator.spread_of_generateFiles hd hf)
  have hlost : (strandedTree.removeDirAll (outputDir .android wayOut)).toOption.map
      FileTree.lost = some 1 := by decide +kernel
  refine ⟨⟨e, by rw [hr]; exact congrArg (Except.map _) he⟩, fun h => ?_⟩
  have hsame : (Generator.replaceOutput (outputDir .android wayOut) files strandedTree).state =
      strandedTree := hs.symm.trans h
  rw [hstate (by decide), hsame] at hlost
  cases hlost

/-- A generation may fail and leave less than it found, if a name is too long or if the path of the
working directory starts below the output or leads through it. -/
theorem generate_not_all_or_nothing :
    wornTree.Plain ∧
    (longNamed.validate = .ok () ∧
      (∃ e, ((emptyTemplates .android longNamed).generate ⟨"."⟩ wornTree).result = .error e) ∧
      ((emptyTemplates .android longNamed).generate ⟨"."⟩ wornTree).state ≠ wornTree) ∧
    (Config.default.validate = .ok () ∧
      (∃ e, ((emptyTemplates .ios .default).generate detour wornTree).result = .error e) ∧
      ((emptyTemplates .ios .default).generate detour wornTree).state ≠ wornTree) ∧
    (∃ e, ((farTemplates .android .default).generate wayOut strandedTree).result = .error e) ∧
      ((farTemplates .android .default).generate wayOut strandedTree).state ≠ strandedTree :=
  ⟨plain_wornTree, ⟨validate_longNamed, generate_longNamed⟩, ⟨rfl, generate_detour⟩,
    generate_wayOut⟩

theorem feasible_wornTree :
    Feasible wornTree ⟨"."⟩ .ios (Config.segments Config.default.packageId) where
  fits := by decide
  through := by
    intro r h
    have hpassed : wornTree.passed ⟨"."⟩ = [["work"]] := by decide
    have htarget : wornTree.target (outputDir .ios ⟨"."⟩) =
        ["work", ".forge", "native", "ios"] := by decide
    rw [hpassed, htarget] at h
    simp at h

theorem generate_all_or_nothing_wornTree :
    wornTree.Plain ∧ Config.default.validate = .ok () ∧
      Feasible wornTree ⟨"."⟩ .ios (Config.segments Config.default.packageId) ∧
      ∃ files, Renewed wornTree ⟨"."⟩ .ios files
        ((emptyTemplates .ios .default).generate ⟨"."⟩ wornTree).state := by
  have hok : ((emptyTemplates .ios .default).generate ⟨"."⟩ wornTree).result.isOk = true := by
    decide +kernel
  refine ⟨plain_wornTree, rfl, feasible_wornTree, ?_⟩
  rcases generate_all_or_nothing (g := emptyTemplates .ios .default) plain_wornTree
      (c := .default) rfl rfl (by decide) feasible_wornTree with
    ⟨e, he, -⟩ | ⟨lb, files, -, -, -, -, hu⟩
  · rw [he] at hok
    cases hok
  · exact ⟨files, hu⟩

end NativeUi
