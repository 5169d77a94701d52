import NativeUi.Bundle.Loader
import NativeUi.Proofs.FileTree.Change
import NativeUi.Workspace

/-!
# The paths of a workspace

The bundle and the outputs of all platforms stand in one directory below the working directory.
Where a bundle can be loaded, this directory is there, and only what stands between it and an output
can keep the output from being made.
-/
namespace NativeUi

theorem Bundle.load_of_readText {t : FileTree} {path : Path} {text : String}
    (h : t.readText path = .ok text) : load t path = parse text := by
  rw [load, readRaw, FileTree.isFile_of_readText h, if_neg (by decide), h, parse]
  cases hp : Json.parse text with
  | error e =>
    simp only [hp]
    rfl
  | ok v =>
    simp only [hp]
    rfl

namespace Workspace

open NativeUi.FileTree
open NativeUi.Path (Step)

def way (p : Platform) : List String := ".forge" :: "native" :: p.outputNames

def bundleNames : List String := [".forge", "semantic", "semantic.json"]

theorem isShort_way (p : Platform) : ∀ s ∈ (way p).map Step.name, isShort s = true := by
  cases p <;> decide

theorem isName_outputNames (p : Platform) : ∀ n ∈ p.outputNames, Path.IsName n := by
  cases p <;> decide

theorem configPath_eq (dir : Path) : configPath dir = dir.joinAll ["forge.config.json"] := rfl

theorem bundlePath_eq (dir : Path) : bundlePath dir = dir.joinAll bundleNames := by
  simp only [bundlePath, bundleNames, Path.joinAll, List.foldl_cons, List.foldl_nil]

theorem outputDir_eq (p : Platform) (dir : Path) : outputDir p dir = dir.joinAll (way p) := by
  simp only [outputDir, nativeRoot, way, Path.joinAll, List.foldl_cons]

theorem extends_bundlePath (dir : Path) : dir.Extends (bundlePath dir) bundleNames := by
  rw [bundlePath_eq]
  exact Path.extends_joinAll dir (by decide)

theorem extends_nativeRoot (dir : Path) : dir.Extends (nativeRoot dir) [".forge", "native"] :=
  (Path.extends_div dir (by decide)).trans (Path.extends_div _ (by decide))

theorem endsInName_bundlePath (dir : Path) : (bundlePath dir).EndsInName :=
  Path.endsInName_div _ (by decide)

theorem endsInName_nativeRoot (dir : Path) : (nativeRoot dir).EndsInName :=
  Path.endsInName_div _ (by decide)

theorem extends_outputDir (p : Platform) (dir : Path) : dir.Extends (outputDir p dir) (way p) :=
  (extends_nativeRoot dir).trans (Path.extends_joinAll _ (isName_outputNames p))

theorem endsInName_outputDir (p : Platform) (dir : Path) : (outputDir p dir).EndsInName :=
  ((endsInName_nativeRoot dir).joinAll (isName_outputNames p)).1

def outputAncestor (p : Platform) (dir : Path) (k : Nat) : Path :=
  (nativeRoot dir).joinAll (p.outputNames.take k)

theorem isName_take (p : Platform) (k : Nat) : ∀ n ∈ p.outputNames.take k, Path.IsName n :=
  fun n hn => isName_outputNames p n (List.mem_of_mem_take hn)

theorem extends_outputAncestor (p : Platform) (dir : Path) (k : Nat) :
    dir.Extends (outputAncestor p dir k) ((way p).take (k + 2)) :=
  (extends_nativeRoot dir).trans (Path.extends_joinAll _ (isName_take p k))

theorem endsInName_outputAncestor (p : Platform) (dir : Path) (k : Nat) :
    (outputAncestor p dir k).EndsInName :=
  ((endsInName_nativeRoot dir).joinAll (isName_take p k)).1

theorem outputAncestor_size (p : Platform) (dir : Path) (k : Nat) :
    (outputAncestor p dir k).text.utf8ByteSize ≤ (outputDir p dir).text.utf8ByteSize := by
  have hdrop : ∀ n ∈ p.outputNames.drop k, Path.IsName n := fun n hn =>
    isName_outputNames p n (List.mem_of_mem_drop hn)
  have hj : outputDir p dir = (outputAncestor p dir k).joinAll (p.outputNames.drop k) := by
    rw [outputDir, outputAncestor, Path.joinAll, Path.joinAll, Path.joinAll, ← List.foldl_append,
      List.take_append_drop]
  rw [hj]
  exact (Path.extends_joinAll _ hdrop).size

theorem mem_passed_outputDir {t : FileTree} {dir : Path} {p : Platform} {q : Place} :
    q ∈ t.passed (outputDir p dir) ↔ q ∈ t.passed dir ∨ ∃ r, r <+: way p ∧ q = t.target dir ++ r :=
  mem_passed_extends (extends_outputDir p dir)

theorem passed_outputAncestor {t : FileTree} {p : Platform} {dir : Path} {k : Nat} {q : Place}
    (hq : q ∈ t.passed (outputAncestor p dir k)) : q ∈ t.passed (outputDir p dir) := by
  rw [mem_passed_outputDir]
  refine ((mem_passed_extends (extends_outputAncestor p dir k)).mp hq).imp_right ?_
  rintro ⟨r, hr, rfl⟩
  exact ⟨r, hr.trans (List.take_prefix _ _), rfl⟩

/-! ### Outputs and other places of a workspace -/

theorem target_outputDir (t : FileTree) (dir : Path) (p : Platform) :
    t.target (outputDir p dir) = t.target dir ++ way p :=
  target_extends (extends_outputDir p dir)

theorem target_outputDir_ne_nil (t : FileTree) (dir : Path) (p : Platform) :
    t.target (outputDir p dir) ≠ [] := by
  simp [target_outputDir, way]

theorem eq_of_way_isPrefix {p p' : Platform} (h : way p <+: way p') : p = p' := by
  revert h
  cases p <;> cases p' <;> decide

theorem way_isPrefix {t : FileTree} {dir : Path} {p : Platform} {r ns : List String}
    (hr : r <+: ns) (h : t.target (outputDir p dir) <+: t.target dir ++ r) : way p <+: ns := by
  rw [target_outputDir, List.prefix_append_right_inj] at h
  exact h.trans hr

theorem outputs_apart {t : FileTree} {dir : Path} {p p' : Platform}
    (h : t.target (outputDir p dir) <+: t.target (outputDir p' dir)) : p = p' := by
  rw [target_outputDir t dir p'] at h
  exact eq_of_way_isPrefix (way_isPrefix (List.prefix_refl _) h)

theorem bundle_apart {t : FileTree} {dir : Path} {p : Platform} {r : List String}
    (hr : r <+: bundleNames) : ¬t.target (outputDir p dir) <+: t.target dir ++ r := by
  intro h
  have hway := way_isPrefix hr h
  revert hway
  cases p <;> decide

theorem extends_configPath (dir : Path) : dir.Extends (configPath dir) ["forge.config.json"] :=
  Path.extends_div dir (by decide)

theorem endsInName_configPath (dir : Path) : (configPath dir).EndsInName :=
  Path.endsInName_div _ (by decide)

theorem mem_passed_of_isPrefix {t : FileTree} {dir : Path} {p p' : Platform} {q : Place}
    (hq : q ∈ t.passed (outputDir p' dir)) (h : t.target (outputDir p dir) <+: q) :
    q ∈ t.passed (outputDir p dir) := by
  rcases mem_passed_outputDir.mp hq with hq' | ⟨r, hr, rfl⟩
  · exact mem_passed_outputDir.mpr (.inl hq')
  · obtain rfl := eq_of_way_isPrefix (way_isPrefix hr h)
    exact hq

theorem config_apart {t : FileTree} {dir : Path} {p : Platform} {q : Place}
    (hq : q ∈ t.passed (configPath dir)) (hnot : q ∉ t.passed dir) :
    q ∉ t.passed (outputDir p dir) ∧ ¬t.target (outputDir p dir) <+: q := by
  obtain ⟨r, hr, rfl⟩ := ((mem_passed_extends (extends_configPath dir)).mp hq).resolve_left hnot
  obtain rfl : r = ["forge.config.json"] := by
    rcases List.prefix_cons_iff.mp hr with rfl | ⟨r, rfl, hnil⟩
    · exact absurd (arrival_mem_stations _ _) (by rwa [List.append_nil] at hnot)
    · rw [List.prefix_nil.mp hnil]
  refine ⟨fun h => ?_, fun h => ?_⟩
  · obtain ⟨r, hr, he⟩ := (mem_passed_outputDir.mp h).resolve_left hnot
    rw [← List.append_cancel_left he] at hr
    revert hr
    cases p <;> decide
  · have hway := way_isPrefix (List.prefix_refl _) h
    revert hway
    cases p <;> decide

/-! ### What a bundle tells about the tree -/

theorem isFile_iff {t : FileTree} {p : Path} :
    t.isFile p = true ↔ ∃ q c r, t.find p = .ok (q, .file c r) := by
  unfold isFile
  constructor
  · intro h
    split at h
    · next hf => exact ⟨_, _, _, hf⟩
    · cases h
  · rintro ⟨q, c, r, h⟩
    rw [h]

theorem isFile_of_load {t : FileTree} {p : Path} {lb : LoadedBundle}
    (h : Bundle.load t p = .ok lb) : t.isFile p = true := by
  cases hf : t.isFile p with
  | true => rfl
  | false =>
    rw [Bundle.load, Bundle.readRaw, hf] at h
    cases h

structure Settled (t : FileTree) (dir : Path) : Prop where
  zero : '\x00' ∉ dir.text.toList
  departs : t.Departs dir
  reach : t.reach (t.start dir) dir.way = .ok (t.target dir, .directory)
  own : t.get? (t.target dir ++ [".forge"]) = some .directory
  bundle : ∃ c r, t.reach (t.target dir) (bundleNames.map Step.name) =
    .ok (t.target (bundlePath dir), .file c r)

variable {t : FileTree} {dir : Path}

theorem settled_of_isFile (hl : t.Unlinked (t.passed (bundlePath dir)))
    (hb : t.isFile (bundlePath dir) = true) : Settled t dir := by
  obtain ⟨q, c, r, hf⟩ := isFile_iff.mp hb
  have hext := extends_bundlePath dir
  obtain ⟨hz, -, hdeparts, hr⟩ := find_ok hl (endsInName_bundlePath dir) hf
  have hq : q = t.target (bundlePath dir) := (reach_ok hr).1
  have hnames : bundleNames.map Step.name =
      .name ".forge" :: ["semantic", "semantic.json"].map Step.name := rfl
  rw [hext.way, start_extends hext, hnames, reach_append] at hr
  cases hd : t.reach (t.start dir) dir.way with
  | error e =>
    rw [hd] at hr
    cases hr
  | ok x =>
    obtain ⟨p, e⟩ := x
    obtain ⟨rfl, hp⟩ := reach_ok hd
    rw [hd] at hr
    obtain ⟨hdir, -, hown⟩ := reach_cons_ok.mp hr
    obtain ⟨hown, -, -⟩ := reach_cons_ok.mp hown
    obtain rfl := Option.some.inj (hp.symm.trans hdir)
    rw [← hnames, hq] at hr
    exact ⟨mt hext.zero.mpr hz, (departs_extends hext).mp hdeparts, hd, hown, c, r, hr⟩

theorem Settled.start (h : Settled t dir) : t.get? (t.start dir) = some .directory :=
  directory_of_reach h.reach _ (start_mem_stations _ _)

theorem Settled.reach_extends (h : Settled t dir) {q : Path} {ns : List String}
    (hq : dir.Extends q ns) (hns : ns ≠ []) :
    t.reach (t.start q) q.way = t.reach (t.target dir) (ns.map Step.name) := by
  obtain ⟨n, ns, rfl⟩ := List.exists_cons_of_ne_nil hns
  rw [hq.way, start_extends hq, List.map_cons, reach_append, h.reach]

theorem Settled.blocked (h : Settled t dir) {p : Platform}
    (hl : t.Unlinked (t.passed (outputDir p dir))) {ns ms : List String}
    (hway : way p = ns ++ ms) (hs : (outputDir p dir).text.utf8ByteSize ≤ pathLimit) {q : Place}
    {c : Content} {r : Rights}
    (hq : t.reach (t.target dir) (ns.map Step.name) = .ok (q, .file c r)) :
    ∃ k, t.isFile (outputAncestor p dir k) = true := by
  obtain ⟨rfl, hfile⟩ := reach_ok hq
  match ns with
  | [] =>
    have hd : t.get? (t.target dir) = some .directory := (reach_ok h.reach).2
    exact absurd (hfile.symm.trans hd) (by simp)
  | [n] =>
    obtain rfl : n = ".forge" := (List.cons.inj hway).1.symm
    exact absurd (hfile.symm.trans h.own) (by simp)
  | n :: m :: ns =>
    have htake : (way p).take (ns.length + 2) = n :: m :: ns := by
      rw [hway]
      simp
    have hext := extends_outputAncestor p dir ns.length
    rw [htake] at hext
    have hl' : t.Unlinked (t.passed (outputAncestor p dir ns.length)) :=
      fun q hq => hl q (passed_outputAncestor hq)
    have hfind : t.find (outputAncestor p dir ns.length) =
        .ok (arrival (t.target dir) ((n :: m :: ns).map Step.name), .file c r) := by
      rw [find_eq hl' (endsInName_outputAncestor p dir _) (mt hext.zero.mp h.zero),
        if_neg (Nat.not_lt.mpr (Nat.le_trans (outputAncestor_size p dir _) hs)),
        if_pos ((departs_extends hext).mpr h.departs), h.reach_extends hext (by simp), hq]
    exact ⟨ns.length, isFile_iff.mpr ⟨_, _, _, hfind⟩⟩

theorem not_isFile_of_free {p : Platform} (h : ∀ q ∈ t.passed (outputDir p dir), t.Free q)
    (k : Nat) : t.isFile (outputAncestor p dir k) = false := by
  rw [← Bool.not_eq_true]
  intro hk
  obtain ⟨q, c, r, hf⟩ := isFile_iff.mp hk
  have hfree (q : Place) (hq : q ∈ t.passed (outputAncestor p dir k)) : t.Free q :=
    h q (passed_outputAncestor hq)
  have hr := (find_ok (unlinked_of_free hfree) (endsInName_outputAncestor p dir k) hf).2.2.2
  obtain ⟨rfl, hfile⟩ := reach_ok hr
  rcases hfree _ (arrival_mem_stations _ _) with hn | hn
  · exact absurd (hn.symm.trans hfile) (by simp)
  · exact absurd (hn.symm.trans hfile) (by simp)

end Workspace

end NativeUi
