import NativeUi.Proofs.Project.Writing
import NativeUi.Proofs.Workspace

/-!
# Generating a project in a tree

A generation makes its files first, then clears the old output, then puts the files in place. It
succeeds if the files can be made, if there is a place for each of them and if only directories are
in the way. What the path of the working directory passes in the old output is removed with it and
comes back as directories.
-/
namespace NativeUi

open NativeUi.FileTree NativeUi.Workspace
open NativeUi.Path (Step)

/-! ### The stages of a generation -/

namespace Generator

theorem reportIgnored_result {σ ε : Type} (ignored : List IgnoredSection) (s : σ) :
    (reportIgnored ignored s : Outcome σ ε Unit).result = .ok () :=
  Job.forAll_result (fun _ _ => rfl) ignored s

theorem loadBundle_eq (path : Path) :
    loadBundle path =
      Job.bind (Job.ask fun t => Bundle.load t path) fun loaded =>
        Job.bind (reportIgnored loaded.ignored) fun _ => Job.pure loaded.bundle := rfl

theorem loadBundle_result (path : Path) (t : FileTree) :
    (loadBundle path t).result = (Bundle.load t path).map LoadedBundle.bundle := by
  have hask : ((Job.ask fun t => Bundle.load t path : Job FileTree BundleError _) t).result =
      Bundle.load t path := rfl
  rw [loadBundle_eq]
  cases h : Bundle.load t path with
  | error e =>
    rw [h] at hask
    rw [Job.bind_eq_of_error hask]
    rfl
  | ok lb =>
    rw [h] at hask
    rw [Job.bind_eq_of_ok hask, Job.bind_eq_of_ok (reportIgnored_result lb.ignored _)]
    rfl

theorem generate_eq (g : Generator) (dir : Path) :
    g.generate dir =
      Job.bind ((loadBundle (bundlePath dir)).mapError .bundle) fun bundle =>
        Job.bind (g.generateFiles bundle) fun files =>
          Job.bind (clearOutput (outputDir g.platform dir)) fun _ =>
            Job.bind (writeFiles (outputDir g.platform dir) files) fun _ =>
              Job.bind (log .info (g.platform.framework ++ " project generated")
                [("backend", g.platform.name), ("files", Text.decimal files.length),
                  ("out_dir", (outputDir g.platform dir).text)])
                fun _ => Job.pure (outputDir g.platform dir) := rfl

def replaceOutput (out : Path) (files : List GeneratedFile) : Work Unit :=
  Job.bind (clearOutput out) fun _ => writeFiles out files

variable {g : Generator} {dir : Path} {t : FileTree}

theorem generate_of_load_error {e : BundleError} (h : Bundle.load t (bundlePath dir) = .error e) :
    (g.generate dir t).result = .error (.bundle e) ∧ (g.generate dir t).state = t := by
  have hl : ((loadBundle (bundlePath dir)).mapError ProjectError.bundle t).result =
      .error (.bundle e) := by
    rw [Job.mapError_result, loadBundle_result, h]
    rfl
  rw [generate_eq, Job.bind_eq_of_error hl, (looks_loadBundle (bundlePath dir)).mapError _ t]
  exact ⟨rfl, rfl⟩

section

variable {lb : LoadedBundle} (hl : Bundle.load t (bundlePath dir) = .ok lb)

include hl

theorem generate_of_load :
    ∃ notes, g.generate dir t =
      let o := Job.bind (g.generateFiles lb.bundle) (fun files =>
        Job.bind (clearOutput (outputDir g.platform dir)) fun _ =>
          Job.bind (writeFiles (outputDir g.platform dir) files) fun _ =>
            Job.bind (log .info (g.platform.framework ++ " project generated")
              [("backend", g.platform.name), ("files", Text.decimal files.length),
                ("out_dir", (outputDir g.platform dir).text)])
              fun _ => Job.pure (outputDir g.platform dir)) t
      ⟨notes ++ o.notes, o.result, o.state⟩ := by
  have hok : ((loadBundle (bundlePath dir)).mapError ProjectError.bundle t).result =
      .ok lb.bundle := by
    rw [Job.mapError_result, loadBundle_result, hl]
    rfl
  rw [generate_eq, Job.bind_eq_of_ok hok, (looks_loadBundle (bundlePath dir)).mapError _ t]
  exact ⟨_, rfl⟩

theorem generate_of_files_error {e : ProjectError}
    (hf : (g.generateFiles lb.bundle t).result = .error e) :
    (g.generate dir t).result = .error e ∧ (g.generate dir t).state = t := by
  obtain ⟨notes, hg⟩ := generate_of_load (g := g) hl
  rw [hg, Job.bind_eq_of_error hf, g.looks_generateFiles lb.bundle t]
  exact ⟨rfl, rfl⟩

theorem generate_of_files {files : List GeneratedFile}
    (hf : (g.generateFiles lb.bundle t).result = .ok files) :
    (g.generate dir t).result =
        (replaceOutput (outputDir g.platform dir) files t).result.map
          (fun _ => outputDir g.platform dir) ∧
      (g.generate dir t).state = (replaceOutput (outputDir g.platform dir) files t).state := by
  obtain ⟨notes, hg⟩ := generate_of_load (g := g) hl
  rw [hg, Job.bind_eq_of_ok hf, g.looks_generateFiles lb.bundle t, replaceOutput]
  cases hc : (clearOutput (outputDir g.platform dir) t).result with
  | error e =>
    rw [Job.bind_eq_of_error hc, Job.bind_eq_of_error hc]
    exact ⟨rfl, rfl⟩
  | ok _ =>
    rw [Job.bind_eq_of_ok hc, Job.bind_eq_of_ok hc]
    generalize (clearOutput (outputDir g.platform dir) t).state = u
    cases hw : (writeFiles (outputDir g.platform dir) files u).result with
    | error e =>
      rw [Job.bind_eq_of_error hw]
      exact ⟨rfl, rfl⟩
    | ok _ =>
      rw [Job.bind_eq_of_ok hw]
      exact ⟨rfl, rfl⟩

end

/-! ### Clearing the old output -/

theorem clearOutput_eq (out : Path) :
    clearOutput out =
      Job.bind (Job.ask fun t => .ok (t.pathExists out)) fun there =>
        if there then
          Job.bind (log .debug "clearing previous output" [("out_dir", out.text)]) fun _ =>
            Job.change fun t => (t.removeDirAll out).mapError (.write out)
        else Job.pure () := rfl

theorem clearOutput_of_error {out : Path} {e : FileError} (h : t.find out = .error e) :
    (clearOutput out t).result = .ok () ∧ (clearOutput out t).state = t := by
  have hask : (Job.ask (fun t => .ok (t.pathExists out)) t : Outcome FileTree ProjectError _).result
      = .ok false := by
    rw [Job.ask, pathExists, h]
  rw [clearOutput_eq, Job.bind_eq_of_ok hask]
  exact ⟨rfl, rfl⟩

theorem clearOutput_of_ok {out : Path} {x : Place × Entry} (h : t.find out = .ok x) :
    ∃ notes, clearOutput out t =
      let o := Job.change (fun t => (t.removeDirAll out).mapError (ProjectError.write out)) t
      ⟨notes ++ o.notes, o.result, o.state⟩ := by
  have hask : (Job.ask (fun t => .ok (t.pathExists out)) t : Outcome FileTree ProjectError _).result
      = .ok true := by
    rw [Job.ask, pathExists, h]
  rw [clearOutput_eq, Job.bind_eq_of_ok hask]
  exact ⟨[_], rfl⟩

theorem clearOutput_of_removed {out : Path} {x : Place × Entry} (h : t.find out = .ok x)
    {u : FileTree} (hu : t.removeDirAll out = .ok u) :
    (clearOutput out t).result = .ok () ∧ (clearOutput out t).state = u := by
  obtain ⟨notes, hc⟩ := clearOutput_of_ok h
  rw [hc, Job.change, hu]
  exact ⟨rfl, rfl⟩

theorem clearOutput_of_file {out : Path} (hl : t.Unlinked (t.passed out)) (hp : out.EndsInName)
    {q : Place} {c : Content} {r : Rights} (h : t.find out = .ok (q, .file c r)) :
    (clearOutput out t).result = .error (.write out .notADirectory) ∧
      (clearOutput out t).state = t := by
  obtain ⟨notes, hc⟩ := clearOutput_of_ok h
  rw [hc, Job.change, removeDirAll_file hl hp h]
  exact ⟨rfl, rfl⟩

theorem replaceOutput_of_ok {out : Path} {u : FileTree} (files : List GeneratedFile)
    (h : (clearOutput out t).result = .ok () ∧ (clearOutput out t).state = u) :
    (replaceOutput out files t).result = (writeFiles out files u).result ∧
      (replaceOutput out files t).state = (writeFiles out files u).state := by
  rw [replaceOutput, Job.bind_eq_of_ok h.1, h.2]
  exact ⟨rfl, rfl⟩

theorem replaceOutput_of_error {out : Path} {files : List GeneratedFile} {e : ProjectError}
    (h : (clearOutput out t).result = .error e ∧ (clearOutput out t).state = t) :
    (replaceOutput out files t).result = .error e ∧ (replaceOutput out files t).state = t := by
  rw [replaceOutput, Job.bind_eq_of_error h.1]
  exact ⟨rfl, h.2⟩

theorem replaceOutput_error {out : Path} {files : List GeneratedFile} (t : FileTree)
    (h : ∀ u, ∃ e, (writeFiles out files u).result = .error e) :
    ∃ e, (replaceOutput out files t).result = .error e := by
  rw [replaceOutput]
  cases hc : (clearOutput out t).result with
  | error e =>
    rw [Job.bind_eq_of_error hc]
    exact ⟨e, rfl⟩
  | ok _ =>
    rw [Job.bind_eq_of_ok hc]
    exact h _

theorem writeFiles_of_error {out parent : Path} {f : GeneratedFile} {rest : List GeneratedFile}
    (h : (out.join f.path).parent? = some parent) {e : FileError}
    (he : (createDirAll parent t).result = .error e) (hs : (createDirAll parent t).state = t) :
    (writeFiles out (f :: rest) t).result = .error (.write parent e) ∧
      (writeFiles out (f :: rest) t).state = t := by
  obtain ⟨hr, hu⟩ := writeOne_of_error h he
  have hcons : writeFiles out (f :: rest) =
      Job.bind (writeOne out f) fun _ => writeFiles out rest := rfl
  rw [hcons, Job.bind_eq_of_error hr]
  dsimp only
  exact ⟨rfl, hu.trans hs⟩

end Generator

def entryAt (files : List GeneratedFile) (r : Place) : Option Entry :=
  match files.find? fun f => f.path.pieces = r with
  | some f => some (.file (.text f.content) .plain)
  | none => if files.any fun f => r.isPrefixOf f.path.pieces then some .directory else none

/-- Files stand in place of what was in a directory. All that the path of the directory passes is a
directory, wherever it lies. -/
structure Replaced (t : FileTree) (out : Path) (files : List GeneratedFile) (u : FileTree) :
    Prop where
  closed : u.Closed
  base : u.base = t.base
  departs : u.Departs out
  passed : ∀ q ∈ t.passed out, u.get? q = some .directory
  inside : ∀ r, t.target out ++ r ∉ t.passed out → u.get? (t.target out ++ r) = entryAt files r
  outside : ∀ q, q ∉ t.passed out → ¬t.target out <+: q → u.get? q = t.get? q

def Lost (t : FileTree) (out : Path) (files : List GeneratedFile) (u : FileTree) : Prop :=
  ∀ r, t.target out ++ r ∉ t.passed out → (∀ f ∈ files, ¬r <+: f.path.pieces) →
    u.get? (t.target out ++ r) = none

structure Cleared (t : FileTree) (out : Path) (u : FileTree) : Prop where
  ground : Ground u out
  base : u.base = t.base
  outside : ∀ q, ¬t.target out <+: q → u.get? q = t.get? q
  room : ∀ q ∈ t.passed out, t.Free q

theorem entryAt_of_folder {files : List GeneratedFile} (hf : Spread files) {f : GeneratedFile}
    (hm : f ∈ files) {r : Place} (hr : r <+: f.path.pieces) (hne : r ≠ f.path.pieces) :
    entryAt files r = some .directory := by
  have hfind : files.find? (fun f => f.path.pieces = r) = none := by
    rw [List.find?_eq_none]
    rintro g hg hgr
    obtain rfl : g.path.pieces = r := by simpa using hgr
    exact hne (congrArg (fun f : GeneratedFile => f.path.pieces)
      (hf.eq_of_isPrefix hg hm hr))
  have hany : files.any (fun f => r.isPrefixOf f.path.pieces) = true :=
    List.any_eq_true.mpr ⟨f, hm, List.isPrefixOf_iff_prefix.mpr hr⟩
  rw [entryAt, hfind, if_pos hany]

theorem entryAt_of_apart {files : List GeneratedFile} {r : Place}
    (h : ∀ f ∈ files, ¬r <+: f.path.pieces) : entryAt files r = none := by
  have hfind : files.find? (fun f => f.path.pieces = r) = none := by
    rw [List.find?_eq_none]
    rintro g hg hgr
    obtain rfl : g.path.pieces = r := by simpa using hgr
    exact h g hg (List.prefix_refl _)
  have hany : files.any (fun f => r.isPrefixOf f.path.pieces) = false := by
    rw [List.any_eq_false]
    exact fun f hf hr => h f hf (List.isPrefixOf_iff_prefix.mp hr)
  rw [entryAt, hfind, hany]
  rfl

theorem entryAt_of_file {files : List GeneratedFile} (hf : Spread files) {f : GeneratedFile}
    (hm : f ∈ files) : entryAt files f.path.pieces = some (.file (.text f.content) .plain) := by
  rw [entryAt]
  cases hfind : files.find? (fun g => g.path.pieces = f.path.pieces) with
  | none => simpa using List.find?_eq_none.mp hfind f hm
  | some g =>
    have hg : g.path.pieces = f.path.pieces := by simpa using List.find?_some hfind
    rw [hf.eq_of_isPrefix (List.mem_of_find?_eq_some hfind) hm (hg ▸ List.prefix_refl _)]

theorem entryAt_ne_link {files : List GeneratedFile} {r : Place} {target : String} :
    entryAt files r ≠ some (.link target) := by
  unfold entryAt
  split
  · simp
  · split <;> simp

theorem replaced_of_written {t u w : FileTree} {out : Path} {files : List GeneratedFile}
    (hc : Cleared t out u) (hf : Spread files) (hw : Written u out files w) :
    Replaced t out files w := by
  have htarget := target_congr hc.base
  have hpassed := passed_congr hc.base
  have haround (f : GeneratedFile) (hm : f ∈ files) (q : Place) : q ∈ around u out f ↔
      q ∈ t.passed out ∨
        ∃ r, (r <+: f.path.pieces ∧ r ≠ f.path.pieces) ∧ q = t.target out ++ r := by
    rw [mem_around (hf.names f hm), hpassed, htarget]
  have hkept (q : Place) (hq : q ∉ t.passed out)
      (hfiles : ∀ f ∈ files, ∀ r, r <+: f.path.pieces → q ≠ t.target out ++ r) :
      w.get? q = u.get? q := by
    apply hw.kept
    intro f hm
    rw [haround f hm, htarget]
    refine ⟨?_, hfiles f hm _ (List.prefix_refl _)⟩
    rintro (hp | ⟨r, hr, rfl⟩)
    · exact hq hp
    · exact hfiles f hm r hr.1 rfl
  refine ⟨hw.closed, hw.base.trans hc.base, hc.ground.departs.congr hw.lost, ?_, ?_, ?_⟩
  · intro q hq
    obtain ⟨f, hm⟩ := List.exists_mem_of_ne_nil files hf.ne_nil
    exact hw.dirs f hm q ((haround f hm q).mpr (.inl hq))
  · intro r hr
    by_cases hfile : ∃ f ∈ files, f.path.pieces = r
    · obtain ⟨f, hm, rfl⟩ := hfile
      rw [entryAt_of_file hf hm, ← htarget]
      exact hw.files f hm
    · by_cases hfolder : ∃ f ∈ files, r <+: f.path.pieces
      · obtain ⟨f, hm, hp⟩ := hfolder
        have hne : r ≠ f.path.pieces := fun he => hfile ⟨f, hm, he.symm⟩
        rw [entryAt_of_folder hf hm hp hne]
        exact hw.dirs f hm _ ((haround f hm _).mpr (.inr ⟨r, ⟨hp, hne⟩, rfl⟩))
      · have hapart : ∀ f ∈ files, ¬r <+: f.path.pieces := fun f hm hp => hfolder ⟨f, hm, hp⟩
        have hne : r ≠ [] := by
          rintro rfl
          obtain ⟨f, hm⟩ := List.exists_mem_of_ne_nil files hf.ne_nil
          exact hapart f hm List.nil_prefix
        rw [entryAt_of_apart hapart, hkept _ hr, ← htarget, hc.ground.bare r hne]
        · intro f hm r' hr' he
          exact hapart f hm (List.append_cancel_left he ▸ hr')
  · intro q hq hout
    rw [hkept q hq, hc.outside q hout]
    rintro f hm r hr rfl
    exact hout (List.prefix_append _ r)

section

variable {t : FileTree} {dir : Path} {p : Platform} (ht : t.Closed)
  (hl : t.Unlinked (t.passed (outputDir p dir))) (h : Settled t dir)
  (hO : ¬t.StartsBelow (outputDir p dir))

include h

theorem room_of_way (hway : ∀ q ∈ stations (t.target dir) ((way p).map Step.name), t.Free q) :
    ∀ q ∈ t.passed (outputDir p dir), t.Free q := by
  intro q hq
  rcases mem_passed_outputDir.mp hq with hq | hq
  · exact .inr (directory_of_reach h.reach q hq)
  · exact hway q (mem_stations_names.mpr hq)

theorem departs_outputDir : t.Departs (outputDir p dir) :=
  (departs_extends (extends_outputDir p dir)).mpr h.departs

theorem writeFiles_tooLong {f : GeneratedFile} (hf : f.path.IsNames)
    (hs : pathLimit <
      ((outputDir p dir).joinAll f.path.pieces.dropLast).text.utf8ByteSize)
    (rest : List GeneratedFile) :
    ¬Fits ((outputDir p dir).join f.path) ∧
      ∀ u, ∃ e, (Generator.writeFiles (outputDir p dir) (f :: rest) u).result = .error e := by
  have hdirs : ∀ n ∈ f.path.pieces.dropLast, Path.IsName n := fun n hn =>
    isName_of_mem_dropLast hf hn
  have hout := endsInName_outputDir p dir
  have hext := (extends_outputDir p dir).trans (Path.extends_joinAll _ hdirs)
  obtain ⟨n, hlast⟩ := Path.extends_parent hout hf
  refine ⟨fun hfits => absurd hs (Nat.not_lt.mpr (hfits.of_extends hlast).1), fun u => ?_⟩
  obtain ⟨he, hu⟩ := createDirAll_tooLong (t := u) (hout.joinAll hdirs).1
    (mt hext.zero.mp h.zero) hs
  exact ⟨_, (Generator.writeFiles_of_error (Path.parent?_join hout hf) he hu).1⟩

include ht

omit h in
theorem none_of_reach_error {e : FileError}
    (hr : t.reach (t.target dir) ((way p).map Step.name) = .error e) :
    t.get? (t.target (outputDir p dir)) = none := by
  cases hg : t.get? (t.target (outputDir p dir)) with
  | none => rfl
  | some e =>
    rw [target_outputDir] at hg
    rw [ht.reach_names (isShort_way p) hg] at hr
    cases hr

include hl

theorem writeFiles_blocked
    (hr : t.reach (t.target dir) ((way p).map Step.name) = .error .notADirectory)
    {f : GeneratedFile} (hf : f.path.IsNames)
    (hs : ((outputDir p dir).joinAll f.path.pieces.dropLast).text.utf8ByteSize ≤ pathLimit)
    (rest : List GeneratedFile) :
    (∃ q, (Generator.writeFiles (outputDir p dir) (f :: rest) t).result =
        .error (.write q .notADirectory)) ∧
      (Generator.writeFiles (outputDir p dir) (f :: rest) t).state = t := by
  have hdirs : ∀ n ∈ f.path.pieces.dropLast, Path.IsName n := fun n hn =>
    isName_of_mem_dropLast hf hn
  have hout := endsInName_outputDir p dir
  have hparent := Path.extends_joinAll (outputDir p dir) hdirs
  have hext := (extends_outputDir p dir).trans hparent
  have hunlinked : t.Unlinked (t.passed ((outputDir p dir).joinAll f.path.pieces.dropLast)) := by
    intro q hq
    rcases (mem_passed_extends hparent).mp hq with hq | ⟨r, -, rfl⟩
    · exact hl q hq
    · -- nothing stands below what is not there
      simp [ht.none_below (List.prefix_append _ r) (none_of_reach_error ht hr)]
  have hreach : t.reach (t.start ((outputDir p dir).joinAll f.path.pieces.dropLast))
      ((outputDir p dir).joinAll f.path.pieces.dropLast).way = .error .notADirectory := by
    rw [h.reach_extends hext (by simp [way]), List.map_append]
    exact reach_append_of_error hr _
  obtain ⟨he, hu⟩ := createDirAll_blocked hunlinked (hout.joinAll hdirs).1
    (mt hext.zero.mp h.zero) hs ((departs_extends hext).mpr h.departs) hreach
  obtain ⟨hres, hstate⟩ := Generator.writeFiles_of_error (Path.parent?_join hout hf) he hu
  exact ⟨⟨_, hres⟩, hstate⟩

omit hl
include hO

omit hO in
theorem room_of_directory (hd : t.get? (t.target (outputDir p dir)) = some .directory) :
    ∀ q ∈ t.passed (outputDir p dir), t.Free q := by
  rw [target_outputDir] at hd
  have hr := ht.reach_names (isShort_way p) hd
  exact room_of_way h fun q hq => .inr (directory_of_reach hr q hq)

omit ht in
theorem cleared_of_removed (hroom : ∀ q ∈ t.passed (outputDir p dir), t.Free q) {u : FileTree}
    (hu : Removed t (outputDir p dir) u) : Cleared t (outputDir p dir) u := by
  have hzero := mt (extends_outputDir p dir).zero.mp h.zero
  refine ⟨⟨hu.closed, endsInName_outputDir p dir, hzero, hu.departs.mpr hO, ?_, ?_, ?_⟩, hu.base,
    hu.kept, hroom⟩
  · rw [start_congr hu.base]
    exact hu.start hO
  · intro q hq
    rw [passed_congr hu.base] at hq
    by_cases hin : t.target (outputDir p dir) <+: q
    · obtain ⟨r, rfl⟩ := hin
      by_cases hr : r = []
      · rw [hr, List.append_nil]
        exact hu.free
      · exact .inl (hu.bare r hr)
    · rw [Free, hu.kept q hin]
      exact hroom q hq
  · rw [target_congr hu.base]
    exact hu.bare

omit hO in
theorem cleared_of_missing
    (hr : t.reach (t.target dir) ((way p).map Step.name) = .error .notFound) :
    Cleared t (outputDir p dir) t := by
  have hext := extends_outputDir p dir
  have hroom := room_of_way h (ht.free_of_reach hr)
  have hstart : t.get? (t.start (outputDir p dir)) = some .directory := by
    rw [start_extends hext, h.start]
  refine ⟨⟨ht, endsInName_outputDir p dir, mt hext.zero.mp h.zero, departs_outputDir h, hstart,
    hroom, fun r _ => ?_⟩, rfl, fun _ _ => rfl, hroom⟩
  exact ht.none_below (List.prefix_append _ r) (none_of_reach_error ht hr)

omit ht h hO in
theorem replaceOutput_of_cleared {out : Path} {u : FileTree} (hu : Cleared t out u)
    (hc : (Generator.clearOutput out t).result = .ok () ∧ (Generator.clearOutput out t).state = u)
    {files : List GeneratedFile} (hf : Spread files) :
    let o := Generator.replaceOutput out files t
    (¬(∀ f ∈ files, Generator.Placeable t out f) ∧ (∃ e, o.result = .error e) ∧
      Lost t out files o.state) ∨
    ((∀ f ∈ files, Generator.Placeable t out f) ∧ o.result = .ok () ∧
      Replaced t out files o.state) := by
  obtain ⟨hr, hs⟩ := Generator.replaceOutput_of_ok files hc
  dsimp only
  rw [hr, hs]
  have hnil := written_nil hu.ground.closed out
  rcases Generator.writeFiles_cases hu.ground hnil hf.names hf.apart with
    ⟨hnot, he, hk⟩ | ⟨hall, hok, hw⟩
  · refine .inl ⟨fun h => hnot fun f hm => (h f hm).congr hu.base.symm, he, fun r hr hfiles => ?_⟩
    rw [← target_congr hu.base] at hr ⊢
    rw [← passed_congr hu.base] at hr
    rw [hk _ fun f hm => ⟨?_, ?_⟩]
    · refine hu.ground.bare r ?_
      rintro rfl
      obtain ⟨f, hm⟩ := List.exists_mem_of_ne_nil files hf.ne_nil
      exact hfiles f hm List.nil_prefix
    · intro h
      rcases (mem_around (hf.names f hm)).mp h with h | ⟨r', hr', he⟩
      · exact hr h
      · exact hfiles f hm (List.append_cancel_left he ▸ hr'.1)
    · exact fun he => hfiles f hm (List.append_cancel_left he ▸ List.prefix_refl _)
  · exact .inr ⟨fun f hm => (hall f hm).congr hu.base, hok, replaced_of_written hu hf hw⟩

omit hO in
include hl in
/-- Where a file stands in the way of the output nothing happens, unless the path of the first
directory to be made is too long before anything is looked at. -/
theorem replaceOutput_of_blocked (hsize : (outputDir p dir).text.utf8ByteSize ≤ pathLimit)
    (hr : t.reach (t.target dir) ((way p).map Step.name) = .error .notADirectory)
    (hclear : (Generator.clearOutput (outputDir p dir) t).result = .ok () ∧
      (Generator.clearOutput (outputDir p dir) t).state = t)
    {f : GeneratedFile} (hf : f.path.IsNames) (rest : List GeneratedFile) :
    let o := Generator.replaceOutput (outputDir p dir) (f :: rest) t
    (¬Generator.Placeable t (outputDir p dir) f ∧ ∃ e, o.result = .error e) ∨
    ((∃ k, t.isFile (outputAncestor p dir k) = true) ∧
      (∃ q, o.result = .error (.write q .notADirectory)) ∧ o.state = t) := by
  by_cases hs : ((outputDir p dir).joinAll f.path.pieces.dropLast).text.utf8ByteSize ≤ pathLimit
  · obtain ⟨⟨q, hres⟩, hstate⟩ := writeFiles_blocked ht hl h hr hf hs rest
    obtain ⟨hores, hostate⟩ := Generator.replaceOutput_of_ok (f :: rest) hclear
    refine .inr ⟨?_, ⟨q, hores.trans hres⟩, hostate.trans hstate⟩
    have hway : t.Unlinked (stations (t.target dir) ((way p).map Step.name)) :=
      fun q hq => hl q (mem_passed_outputDir.mpr (.inr (mem_stations_names.mp hq)))
    obtain ⟨ss, s, rest, q, c, r, hss, hq⟩ := file_of_reach hway hr
    obtain ⟨ns, ms, hns, rfl, -⟩ := List.map_eq_append_iff.mp hss
    exact h.blocked hl hns hsize hq
  · obtain ⟨hfits, herror⟩ := writeFiles_tooLong h hf (Nat.lt_of_not_le hs) rest
    exact .inl ⟨fun hp => hfits hp.1, Generator.replaceOutput_error t herror⟩

omit ht hO in
theorem replaceOutput_tooLong (hsize : pathLimit < (outputDir p dir).text.utf8ByteSize)
    {files : List GeneratedFile} (hf : Spread files) :
    ¬(∀ f ∈ files, Generator.Placeable t (outputDir p dir) f) ∧
      ∃ e, (Generator.replaceOutput (outputDir p dir) files t).result = .error e := by
  obtain ⟨f, rest, rfl⟩ := List.exists_cons_of_ne_nil hf.ne_nil
  have hnames := hf.names f (by simp)
  have hparent := Path.extends_joinAll (outputDir p dir) fun n hn =>
    isName_of_mem_dropLast hnames hn
  obtain ⟨hfits, herror⟩ := writeFiles_tooLong h hnames (Nat.lt_of_lt_of_le hsize hparent.size) rest
  exact ⟨fun hall => hfits (hall f (by simp)).1, Generator.replaceOutput_error t herror⟩

omit hO in
theorem removed_outputDir (hsize : (outputDir p dir).text.utf8ByteSize ≤ pathLimit)
    (hd : t.get? (t.target (outputDir p dir)) = some .directory) :
    ∃ u, t.removeDirAll (outputDir p dir) = .ok u ∧ Removed t (outputDir p dir) u ∧
      (Generator.clearOutput (outputDir p dir) t).result = .ok () ∧
      (Generator.clearOutput (outputDir p dir) t).state = u := by
  have hout := endsInName_outputDir p dir
  have hext := extends_outputDir p dir
  have hl := unlinked_of_free (room_of_directory ht h hd)
  have hfind : t.find (outputDir p dir) = .ok (t.target (outputDir p dir), .directory) := by
    rw [target_outputDir] at hd
    rw [find_eq hl hout (mt hext.zero.mp h.zero), if_neg (Nat.not_lt.mpr hsize),
      if_pos (departs_outputDir h), h.reach_extends hext (by simp [way]),
      ht.reach_names (isShort_way p) hd, target_outputDir]
  obtain ⟨u, hu, hr⟩ := ht.removeDirAll_directory hl hout (target_outputDir_ne_nil t dir p) hfind
  exact ⟨u, hu, hr, Generator.clearOutput_of_removed hfind hu⟩

omit hO in
theorem replaceOutput_of_stuck (hsize : (outputDir p dir).text.utf8ByteSize ≤ pathLimit)
    (hd : t.get? (t.target (outputDir p dir)) = some .directory)
    {f : GeneratedFile} (hf : f.path.IsNames) (rest : List GeneratedFile)
    (hmake : ∀ u, Removed t (outputDir p dir) u →
      ∃ e, (createDirAll ((outputDir p dir).joinAll f.path.pieces.dropLast) u).result = .error e ∧
        (createDirAll ((outputDir p dir).joinAll f.path.pieces.dropLast) u).state = u) :
    let o := Generator.replaceOutput (outputDir p dir) (f :: rest) t
    (∃ e, o.result = .error e) ∧ t.removeDirAll (outputDir p dir) = .ok o.state := by
  obtain ⟨u, hu, hremoved, hclear⟩ := removed_outputDir ht h hsize hd
  obtain ⟨hres, hstate⟩ := Generator.replaceOutput_of_ok (f :: rest) hclear
  obtain ⟨e, he, hs⟩ := hmake u hremoved
  obtain ⟨hwrite, hkept⟩ :=
    Generator.writeFiles_of_error (Path.parent?_join (endsInName_outputDir p dir) hf) he hs
  exact ⟨⟨_, hres.trans hwrite⟩, hu.trans (congrArg _ (hstate.trans hkept).symm)⟩

omit hO in
/-- Where the way starts below the old output, there is no way left once that is gone. -/
theorem replaceOutput_of_start (hO : t.StartsBelow (outputDir p dir))
    {files : List GeneratedFile} (hf : Spread files) :
    (∃ e, (Generator.replaceOutput (outputDir p dir) files t).result = .error e) ∧
      ((outputDir p dir).text.utf8ByteSize ≤ pathLimit →
        t.removeDirAll (outputDir p dir) =
          .ok (Generator.replaceOutput (outputDir p dir) files t).state) := by
  have hd : t.get? (t.target (outputDir p dir)) = some .directory :=
    ht.directory_above hO.1 hO.2 (by rw [start_extends (extends_outputDir p dir), h.start])
  by_cases hsize : (outputDir p dir).text.utf8ByteSize ≤ pathLimit
  · obtain ⟨f, rest, rfl⟩ := List.exists_cons_of_ne_nil hf.ne_nil
    have hnames := hf.names f (by simp)
    have hdirs : ∀ n ∈ f.path.pieces.dropLast, Path.IsName n := fun n hn =>
      isName_of_mem_dropLast hnames hn
    have hparent := Path.extends_joinAll (outputDir p dir) hdirs
    have hzero := mt ((extends_outputDir p dir).trans hparent).zero.mp h.zero
    obtain ⟨he, hstate⟩ := replaceOutput_of_stuck ht h hsize hd hnames rest fun u hu =>
      createDirAll_lost ((endsInName_outputDir p dir).joinAll hdirs).1 hzero
        fun hdeparts => hu.departs.mp ((departs_extends hparent).mp hdeparts) hO
    exact ⟨he, fun _ => hstate⟩
  · exact ⟨(replaceOutput_tooLong h (Nat.lt_of_not_le hsize) hf).2, fun hs => absurd hs hsize⟩

include hl in
/-- Putting files in place: there is no place for one of them and the old output is lost, or a file
stands in the way and nothing happens, or the files take the place of the old output. -/
theorem replaceOutput_cases {files : List GeneratedFile} (hf : Spread files) :
    let o := Generator.replaceOutput (outputDir p dir) files t
    (¬(∀ f ∈ files, Generator.Placeable t (outputDir p dir) f) ∧ (∃ e, o.result = .error e) ∧
      ((outputDir p dir).text.utf8ByteSize ≤ pathLimit →
        t.get? (t.target (outputDir p dir)) = some .directory →
        Lost t (outputDir p dir) files o.state)) ∨
    ((∃ k, t.isFile (outputAncestor p dir k) = true) ∧
      (∃ q, o.result = .error (.write q .notADirectory)) ∧ o.state = t) ∨
    ((∀ f ∈ files, Generator.Placeable t (outputDir p dir) f) ∧
      (∀ q ∈ t.passed (outputDir p dir), t.Free q) ∧ o.result = .ok () ∧
      Replaced t (outputDir p dir) files o.state) := by
  dsimp only
  have hout := endsInName_outputDir p dir
  have hext := extends_outputDir p dir
  have hfind := find_eq hl hout (mt hext.zero.mp h.zero)
  by_cases hsize : (outputDir p dir).text.utf8ByteSize ≤ pathLimit
  · rw [if_neg (Nat.not_lt.mpr hsize), if_pos (departs_outputDir h),
      h.reach_extends hext (by simp [way])] at hfind
    cases hr : t.reach (t.target dir) ((way p).map Step.name) with
    | ok x =>
      obtain ⟨q, e⟩ := x
      obtain ⟨rfl, hq⟩ := reach_ok hr
      rw [arrival_names, ← target_outputDir] at hr hq
      rw [hr] at hfind
      cases e with
      | directory =>
        obtain ⟨u, -, hu, hclear⟩ := removed_outputDir ht h hsize hq
        have hc := cleared_of_removed h hO (room_of_directory ht h hq) hu
        rcases replaceOutput_of_cleared hc hclear hf with ⟨hnot, he, hlost⟩ | ⟨hall, hok, hu⟩
        · exact .inl ⟨hnot, he, fun _ _ => hlost⟩
        · exact .inr (.inr ⟨hall, hc.room, hok, hu⟩)
      | file c r =>
        obtain ⟨hres, hstate⟩ :=
          Generator.replaceOutput_of_error (Generator.clearOutput_of_file hl hout hfind)
        exact .inr (.inl ⟨h.blocked hl (List.append_nil _).symm hsize hr, ⟨_, hres⟩, hstate⟩)
      | link l => exact absurd hq (hl _ (arrival_mem_stations _ _) l)
    | error e =>
      rw [hr] at hfind
      have hclear := Generator.clearOutput_of_error hfind
      rcases reach_error (isShort_way p) hr with rfl | rfl
      · have hc := cleared_of_missing ht h hr
        rcases replaceOutput_of_cleared hc hclear hf with ⟨hnot, he, hlost⟩ | ⟨hall, hok, hu⟩
        · exact .inl ⟨hnot, he, fun _ _ => hlost⟩
        · exact .inr (.inr ⟨hall, hc.room, hok, hu⟩)
      · obtain ⟨f, rest, rfl⟩ := List.exists_cons_of_ne_nil hf.ne_nil
        rcases replaceOutput_of_blocked ht hl h hsize hr hclear (hf.names f (by simp)) rest with
          ⟨hnot, he⟩ | hblocked
        · refine .inl ⟨fun hall => hnot (hall f (by simp)), he, fun _ hd => ?_⟩
          exact absurd ((none_of_reach_error ht hr).symm.trans hd) (by simp)
        · exact .inr (.inl hblocked)
  · obtain ⟨hnot, he⟩ := replaceOutput_tooLong h (Nat.lt_of_not_le hsize) hf
    exact .inl ⟨hnot, he, fun hs => absurd hs hsize⟩

end

/-! ### When a generation succeeds -/

structure Ready (g : Generator) (dir : Path) (t : FileTree) (files : List GeneratedFile) :
    Prop where
  made : ∃ lb, Bundle.load t (bundlePath dir) = .ok lb ∧
    (g.generateFiles lb.bundle t).result = .ok files
  apart : ¬t.StartsBelow (outputDir g.platform dir)
  placeable : ∀ f ∈ files, Generator.Placeable t (outputDir g.platform dir) f
  room : ∀ q ∈ t.passed (outputDir g.platform dir), t.Free q

section

variable {t : FileTree} {dir : Path} {g : Generator} (ht : t.Closed)
  (hbundle : t.Unlinked (t.passed (bundlePath dir)))
  (hout : t.Unlinked (t.passed (outputDir g.platform dir)))
  (hd : Config.isDotted g.options.packageId = true)

include ht hbundle hout hd

theorem replaced_of_ready {files : List GeneratedFile} (h : Ready g dir t files) :
    (∃ out, (g.generate dir t).result = .ok out) ∧
      Replaced t (outputDir g.platform dir) files (g.generate dir t).state := by
  obtain ⟨lb, hl, hf⟩ := h.made
  obtain ⟨hr, hs⟩ := Generator.generate_of_files hl hf
  have hsettled := settled_of_isFile hbundle (isFile_of_load hl)
  rw [hr, hs]
  rcases replaceOutput_cases ht hout hsettled h.apart (Generator.spread_of_generateFiles hd hf) with
    ⟨hnot, -⟩ | ⟨⟨k, hk⟩, -⟩ | ⟨-, -, hok, hu⟩
  · exact absurd h.placeable hnot
  · have hfile := not_isFile_of_free h.room k
    exact absurd (hk.symm.trans hfile) (by simp)
  · exact ⟨⟨_, by rw [hok]; rfl⟩, hu⟩

theorem ready_of_generate {out : Path} (h : (g.generate dir t).result = .ok out) :
    ∃ files, Ready g dir t files := by
  cases hl : Bundle.load t (bundlePath dir) with
  | error e =>
    rw [(Generator.generate_of_load_error hl).1] at h
    cases h
  | ok lb =>
    cases hf : (g.generateFiles lb.bundle t).result with
    | error e =>
      rw [(Generator.generate_of_files_error hl hf).1] at h
      cases h
    | ok files =>
      rw [(Generator.generate_of_files hl hf).1] at h
      have hsettled := settled_of_isFile hbundle (isFile_of_load hl)
      have hspread := Generator.spread_of_generateFiles hd hf
      have hO : ¬t.StartsBelow (outputDir g.platform dir) := by
        intro hO
        obtain ⟨e, he⟩ := (replaceOutput_of_start ht hsettled hO hspread).1
        rw [he] at h
        cases h
      rcases replaceOutput_cases ht hout hsettled hO hspread with
        ⟨-, ⟨e, he⟩, -⟩ | ⟨-, ⟨q, he⟩, -⟩ | ⟨hall, hfree, -⟩
      · rw [he] at h
        cases h
      · rw [he] at h
        cases h
      · exact ⟨files, ⟨lb, hl, hf⟩, hO, hall, hfree⟩

end

end NativeUi
