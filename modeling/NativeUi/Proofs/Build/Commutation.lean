import NativeUi.Proofs.Build.Native
import NativeUi.Proofs.Project.Rendering
import NativeUi.Proofs.Project.Replacement
import NativeUi.Proofs.Project.Splicing

/-!
# Native builds commute

The build of a native target writes to places of its own and makes the directories around them. What
a row of builds leaves can be told from the first tree and from the set of the targets, and no build
that has succeeded has a say in whether another one does.
-/
namespace NativeUi

open NativeUi.FileTree NativeUi.Workspace
open NativeUi.Path (Step)

theorem Bundle.load_congr {t u : FileTree} {p : Path} (h : u.find p = t.find p) :
    load u p = load t p := by
  rw [load, load, readRaw, readRaw, isFile, isFile, readText, readText, h]

theorem Ready.unique {g : Generator} {dir : Path} {t : FileTree} {files files' : List GeneratedFile}
    (h : Ready g dir t files) (h' : Ready g dir t files') : files = files' := by
  obtain ⟨lb, hl, hf⟩ := h.made
  obtain ⟨lb', hl', hf'⟩ := h'.made
  obtain rfl := Except.ok.inj (hl.symm.trans hl')
  exact Except.ok.inj (hf.symm.trans hf')

/-- The tree after the builds of some platforms. Nothing in it hangs on the order of the builds. -/
structure Built (c : Config) (dir : Path) (t : FileTree) (ps : List Platform) (u : FileTree) :
    Prop where
  closed : u.Closed
  base : u.base = t.base
  departs : u.Departs dir ↔ t.Departs dir
  ready : ∀ p ∈ ps, ∃ files, Ready (c.generator dir p) dir t files
  passed : ∀ p ∈ ps, ∀ q ∈ t.passed (outputDir p dir), u.get? q = some .directory
  inside : ∀ p ∈ ps, ∀ files, Ready (c.generator dir p) dir t files →
    ∀ r, (∀ p' ∈ ps, t.target (outputDir p dir) ++ r ∉ t.passed (outputDir p' dir)) →
      u.get? (t.target (outputDir p dir) ++ r) = entryAt files r
  outside : ∀ q, (∀ p ∈ ps, q ∉ t.passed (outputDir p dir) ∧ ¬t.target (outputDir p dir) <+: q) →
    u.get? q = t.get? q

theorem built_nil (c : Config) (dir : Path) {t : FileTree} (ht : t.Closed) : Built c dir t [] t :=
  ⟨ht, rfl, .rfl, by simp, by simp, by simp, fun _ _ => rfl⟩

namespace Built

variable {c : Config} {dir : Path} {t u v : FileTree} {ps qs : List Platform}

theorem get?_eq (hu : Built c dir t ps u) (hv : Built c dir t qs v) (h : ∀ p, p ∈ ps ↔ p ∈ qs)
    (q : Place) : u.get? q = v.get? q := by
  by_cases hpassed : ∃ p ∈ ps, q ∈ t.passed (outputDir p dir)
  · obtain ⟨p, hp, hq⟩ := hpassed
    rw [hu.passed p hp q hq, hv.passed p ((h p).mp hp) q hq]
  · have hnew : ∀ p ∈ ps, q ∉ t.passed (outputDir p dir) := fun p hp hq => hpassed ⟨p, hp, hq⟩
    have hnew' : ∀ p ∈ qs, q ∉ t.passed (outputDir p dir) := fun p hp => hnew p ((h p).mpr hp)
    by_cases hinside : ∃ p ∈ ps, t.target (outputDir p dir) <+: q
    · obtain ⟨p, hp, r, rfl⟩ := hinside
      obtain ⟨files, hready⟩ := hu.ready p hp
      rw [hu.inside p hp files hready r hnew, hv.inside p ((h p).mp hp) files hready r hnew']
    · have hout : ∀ p ∈ ps, ¬t.target (outputDir p dir) <+: q := fun p hp hq => hinside ⟨p, hp, hq⟩
      rw [hu.outside q fun p hp => ⟨hnew p hp, hout p hp⟩,
        hv.outside q fun p hp => ⟨hnew' p hp, hout p ((h p).mpr hp)⟩]

/-! ### What builds leave alone -/

theorem get?_of_some (h : Built c dir t ps u) {q : Place} {e : Entry} (hq : t.get? q = some e)
    (hout : ∀ p ∈ ps, ¬t.target (outputDir p dir) <+: q) : u.get? q = some e := by
  by_cases hpassed : ∃ p ∈ ps, q ∈ t.passed (outputDir p dir)
  · obtain ⟨p, hp, hqp⟩ := hpassed
    obtain ⟨files, hready⟩ := h.ready p hp
    rcases hready.room q hqp with hn | hd
    · exact absurd (hn.symm.trans hq) (by simp)
    · rw [h.passed p hp q hqp, ← hd, hq]
  · rw [h.outside q fun p hp => ⟨fun hqp => hpassed ⟨p, hp, hqp⟩, hout p hp⟩, hq]

theorem get?_of_passed (h : Built c dir t ps u) {q : Place} (hq : q ∈ t.passed dir)
    (hd : t.get? q = some .directory) : u.get? q = some .directory := by
  cases ps with
  | nil => rw [h.outside q (by simp), hd]
  | cons p ps => exact h.passed p (by simp) q (mem_passed_outputDir.mpr (.inl hq))

theorem get?_of_output (h : Built c dir t ps u) {p : Platform} {q : Place}
    (hq : q ∈ t.passed (outputDir p dir)) :
    (t.Free q ∧ u.get? q = some .directory) ∨ u.get? q = t.get? q := by
  by_cases hpassed : ∃ p' ∈ ps, q ∈ t.passed (outputDir p' dir)
  · obtain ⟨p', hp', hqp⟩ := hpassed
    obtain ⟨files, hready⟩ := h.ready p' hp'
    exact .inl ⟨hready.room q hqp, h.passed p' hp' q hqp⟩
  · right
    refine h.outside q fun p' hp' => ⟨fun hqp => hpassed ⟨p', hp', hqp⟩, fun hprefix => ?_⟩
    exact hpassed ⟨p', hp', mem_passed_of_isPrefix hq hprefix⟩

theorem free_iff (h : Built c dir t ps u) {p : Platform} {q : Place}
    (hq : q ∈ t.passed (outputDir p dir)) : u.Free q ↔ t.Free q := by
  rcases h.get?_of_output hq with ⟨hfree, hd⟩ | hsame
  · exact ⟨fun _ => hfree, fun _ => .inr hd⟩
  · rw [Free, Free, hsame]

theorem unlinked_outputDir (h : Built c dir t ps u) {p : Platform}
    (hl : t.Unlinked (t.passed (outputDir p dir))) : u.Unlinked (u.passed (outputDir p dir)) := by
  rw [passed_congr h.base]
  intro q hq target
  rcases h.get?_of_output hq with ⟨-, hd⟩ | hsame
  · simp [hd]
  · rw [hsame]
    exact hl q hq target

variable (hbundle : t.Unlinked (t.passed (bundlePath dir)))

include hbundle

theorem settled_or_same (h : Built c dir t ps u) : Settled t dir ∨ ∀ q, u.get? q = t.get? q := by
  cases ps with
  | nil => exact .inr fun q => h.outside q (by simp)
  | cons p ps =>
    obtain ⟨files, hready⟩ := h.ready p (by simp)
    obtain ⟨lb, hl, -⟩ := hready.made
    exact .inl (settled_of_isFile hbundle (isFile_of_load hl))

theorem get?_of_bundle (h : Built c dir t ps u) {q : Place}
    (hq : q ∈ t.passed (bundlePath dir)) : u.get? q = t.get? q := by
  rcases h.settled_or_same hbundle with hs | hsame
  · rcases (mem_passed_extends (extends_bundlePath dir)).mp hq with hq | ⟨r, hr, rfl⟩
    · have hd := directory_of_reach hs.reach q hq
      rw [hd, h.get?_of_passed hq hd]
    · obtain ⟨content, rights, hreach⟩ := hs.bundle
      obtain ⟨e, he⟩ : ∃ e, t.get? (t.target dir ++ r) = some e := by
        rcases directory_or_end_of_reach hreach _ (mem_stations_names.mpr ⟨r, hr, rfl⟩) with
          hd | he
        · exact ⟨_, hd⟩
        · exact ⟨_, he ▸ (reach_ok hreach).2⟩
      rw [he, h.get?_of_some he fun p _ => bundle_apart hr]
  · exact hsame q

theorem get?_of_config (h : Built c dir t ps u) {q : Place}
    (hq : q ∈ t.passed (configPath dir)) : u.get? q = t.get? q := by
  rcases h.settled_or_same hbundle with hs | hsame
  · by_cases hdir : q ∈ t.passed dir
    · have hd := directory_of_reach hs.reach q hdir
      rw [hd, h.get?_of_passed hdir hd]
    · exact h.outside q fun p _ => config_apart hq hdir
  · exact hsame q

theorem find_bundle (h : Built c dir t ps u) :
    u.find (bundlePath dir) = t.find (bundlePath dir) := by
  have hext := extends_bundlePath dir
  refine find_congr hbundle h.base ?_ (endsInName_bundlePath dir) fun q => h.get?_of_bundle hbundle
  rw [departs_extends hext, departs_extends hext, h.departs]

theorem find_config (hconfig : t.Unlinked (t.passed (configPath dir))) (h : Built c dir t ps u) :
    u.find (configPath dir) = t.find (configPath dir) := by
  have hext := extends_configPath dir
  refine find_congr hconfig h.base ?_ (endsInName_configPath dir) fun q => h.get?_of_config hbundle
  rw [departs_extends hext, departs_extends hext, h.departs]

theorem ready_iff (hb : c.build.templatesDir = none) (h : Built c dir t ps u) {p : Platform}
    {files : List GeneratedFile} :
    Ready (c.generator dir p) dir u files ↔ Ready (c.generator dir p) dir t files := by
  have hload := Bundle.load_congr (h.find_bundle hbundle)
  have hbuiltin : (c.generator dir p).templates = .builtin := by
    change c.templateSource dir = _
    rw [Config.templateSource, hb]
  have hpassed := passed_congr h.base
  constructor
  · rintro ⟨⟨lb, hl, hf⟩, hnot, hplace, hroom⟩
    refine ⟨⟨lb, hload.symm.trans hl, ?_⟩, mt (startsBelow_congr h.base).mpr hnot,
      fun f hm => (hplace f hm).congr h.base, fun q hq => ?_⟩
    · rw [← hf, Generator.generateFiles_builtin hbuiltin]
    · exact (h.free_iff hq).mp (hroom q (hpassed ▸ hq))
  · rintro ⟨⟨lb, hl, hf⟩, hnot, hplace, hroom⟩
    refine ⟨⟨lb, hload.trans hl, ?_⟩, mt (startsBelow_congr h.base).mp hnot,
      fun f hm => (hplace f hm).congr h.base.symm, fun q hq => ?_⟩
    · rw [← hf, Generator.generateFiles_builtin hbuiltin]
    · rw [hpassed] at hq
      exact (h.free_iff hq).mpr (hroom q hq)

/-! ### One more build -/

theorem snoc (h : Built c dir t ps u) {p : Platform} {files : List GeneratedFile}
    (hready : Ready (c.generator dir p) dir t files)
    (hv : Replaced u (outputDir p dir) files v) : Built c dir t (ps ++ [p]) v := by
  obtain ⟨hclosed, hbase, hdeparts, hpassed, hinside, houtside⟩ := hv
  rw [target_congr h.base, passed_congr h.base] at *
  refine ⟨hclosed, hbase.trans h.base, ?_, ?_, ?_, ?_, ?_⟩
  · obtain ⟨lb, hl, -⟩ := hready.made
    exact iff_of_true ((departs_extends (extends_outputDir p dir)).mp hdeparts)
      (settled_of_isFile hbundle (isFile_of_load hl)).departs
  · rw [List.forall_mem_append, List.forall_mem_singleton]
    exact ⟨h.ready, files, hready⟩
  · intro p' hp' q hq
    by_cases hqp : q ∈ t.passed (outputDir p dir)
    · exact hpassed q hqp
    · rcases List.mem_append.mp hp' with hp' | hp'
      · rw [houtside q hqp fun hprefix => hqp (mem_passed_of_isPrefix hq hprefix)]
        exact h.passed p' hp' q hq
      · obtain rfl := List.mem_singleton.mp hp'
        exact absurd hq hqp
  · intro p' hp' files' hready' r hr
    rw [List.forall_mem_append, List.forall_mem_singleton] at hr
    by_cases he : p' = p
    · obtain rfl := he
      rw [hready'.unique hready]
      exact hinside r hr.2
    · have hp' : p' ∈ ps := (List.mem_append.mp hp').resolve_right (by simpa using he)
      rw [houtside _ hr.2]
      · exact h.inside p' hp' files' hready' r hr.1
      · intro hprefix
        rcases List.prefix_or_prefix_of_prefix hprefix (List.prefix_append _ r) with hp | hp
        · exact he (outputs_apart hp).symm
        · exact he (outputs_apart hp)
  · intro q hq
    rw [List.forall_mem_append, List.forall_mem_singleton] at hq
    rw [houtside q hq.2.1 hq.2.2, h.outside q hq.1]

end Built

def Job.Succeeds {σ ε α : Type} (x : Job σ ε α) (s : σ) : Prop := ∃ a, (x s).result = .ok a

def FileTree.Same (t u : FileTree) : Prop := t.base = u.base ∧ ∀ q, t.get? q = u.get? q

namespace Cli

def buildAll (dir : Path) (ps : List Platform) :
    Job FileTree BuildError (List (List StageReport)) :=
  Job.collect (buildNative dir) ps

/-- No link stands on the way to the configuration, to the bundle or to an output. -/
structure Direct (t : FileTree) (dir : Path) : Prop where
  config : t.Unlinked (t.passed (configPath dir))
  bundle : t.Unlinked (t.passed (bundlePath dir))
  output : ∀ p, t.Unlinked (t.passed (outputDir p dir))

section

variable {c : Config} {dir : Path} {t u : FileTree} (hl : Direct t dir)
  (hc : (Config.load dir t).result = .ok c) (hb : c.build.templatesDir = none)

include hl hc hb

theorem buildNative_of_built {ps : List Platform} (h : Built c dir t ps u) (p : Platform) :
    ((buildNative dir p).Succeeds u ↔ ∃ files, Ready (c.generator dir p) dir t files) ∧
      ((buildNative dir p).Succeeds u →
        Built c dir t (ps ++ [p]) (buildNative dir p u).state) := by
  have hcu : (Config.load dir u).result = .ok c :=
    (Config.load_congr (h.find_config hl.bundle hl.config)).trans hc
  have hd : Config.isDotted (c.generator dir p).options.packageId = true :=
    Config.isDotted_of_validate (Config.validate_of_load hc)
  have hbundle : u.Unlinked (u.passed (bundlePath dir)) := by
    rw [passed_congr h.base]
    exact hl.bundle.congr fun q => h.get?_of_bundle hl.bundle
  have hout := h.unlinked_outputDir (hl.output p)
  have hreplaced (files : List GeneratedFile)
      (hfiles : Ready (c.generator dir p) dir t files) :=
    replaced_of_ready (g := c.generator dir p) h.closed hbundle hout hd
      ((h.ready_iff hl.bundle hb).mpr hfiles)
  obtain ⟨hok, hstate⟩ := buildNative_iff hcu p
  have hready : (buildNative dir p).Succeeds u ↔
      ∃ files, Ready (c.generator dir p) dir t files := by
    rw [Job.Succeeds, hok]
    constructor
    · rintro ⟨out, hgen⟩
      obtain ⟨files, hfiles⟩ :=
        ready_of_generate (g := c.generator dir p) h.closed hbundle hout hd hgen
      exact ⟨files, (h.ready_iff hl.bundle hb).mp hfiles⟩
    · rintro ⟨files, hfiles⟩
      exact (hreplaced files hfiles).1
  refine ⟨hready, fun hs => ?_⟩
  obtain ⟨files, hfiles⟩ := hready.mp hs
  obtain ⟨out, hgen⟩ := hok.mp hs
  rw [hstate (isFile_of_generate hgen)]
  exact h.snoc hl.bundle hfiles (hreplaced files hfiles).2

theorem buildAll_of_built {ps : List Platform} (h : Built c dir t ps u) (qs : List Platform) :
    ((buildAll dir qs).Succeeds u ↔
      ∀ p ∈ qs, ∃ files, Ready (c.generator dir p) dir t files) ∧
      ((buildAll dir qs).Succeeds u → Built c dir t (ps ++ qs) (buildAll dir qs u).state) := by
  induction qs generalizing ps u with
  | nil =>
    rw [List.append_nil]
    exact ⟨⟨fun _ => by simp, fun _ => ⟨[], rfl⟩⟩, fun _ => h⟩
  | cons p qs ih =>
    obtain ⟨hok, hbuilt⟩ := buildNative_of_built hl hc hb h p
    rw [List.forall_mem_cons, ← hok]
    cases hr : (buildNative dir p u).result with
    | error e =>
      have hfail : ¬(buildNative dir p).Succeeds u := fun ⟨_, ha⟩ => nomatch hr.symm.trans ha
      have hfails : ¬(buildAll dir (p :: qs)).Succeeds u := fun ⟨_, ha⟩ =>
        nomatch (Job.collect_cons_of_error hr qs).1.symm.trans ha
      exact ⟨iff_of_false hfails fun hs => hfail hs.1, fun hs => absurd hs hfails⟩
    | ok reports =>
      have hs : (buildNative dir p).Succeeds u := ⟨reports, hr⟩
      obtain ⟨hres, hstate⟩ := Job.collect_cons_of_ok hr qs
      obtain ⟨hrest, hfinal⟩ := ih (hbuilt hs)
      rw [List.append_assoc, List.singleton_append] at hfinal
      have hcons : (buildAll dir (p :: qs)).Succeeds u ↔
          (buildAll dir qs).Succeeds (buildNative dir p u).state := by
        rw [Job.Succeeds, buildAll, hres]
        exact exists_map_ok_iff _
      rw [hcons, hrest, buildAll, hstate, ← hrest]
      exact ⟨⟨fun hqs => ⟨hs, hqs⟩, fun hqs => hqs.2⟩, hfinal⟩

end

/-- Where no link stands on the way to the configuration, the bundle or an output, a row of builds
succeeds if each of them would alone, and what it leaves hangs on the set of the targets only.
Whether a target can be built does not hang on the builds that have succeeded before. -/
theorem native_builds_commute {c : Config} {dir : Path} {t : FileTree} (ht : t.Closed)
    (hl : Direct t dir) (hc : (Config.load dir t).result = .ok c)
    (hb : c.build.templatesDir = none) :
    (∀ ps, (buildAll dir ps).Succeeds t ↔ ∀ p ∈ ps, (buildNative dir p).Succeeds t) ∧
    (∀ ps qs, (∀ p, p ∈ ps ↔ p ∈ qs) →
      (buildAll dir ps).Succeeds t → (buildAll dir qs).Succeeds t →
      (buildAll dir ps t).state.Same (buildAll dir qs t).state) ∧
    ∀ (ps : List Platform) (p : Platform), (buildAll dir ps).Succeeds t →
      ((buildNative dir p).Succeeds (buildAll dir ps t).state ↔
        (buildNative dir p).Succeeds t) := by
  have hnil := built_nil c dir ht
  have hone (p : Platform) := (buildNative_of_built hl hc hb hnil p).1
  have hrow (ps : List Platform) := buildAll_of_built hl hc hb hnil ps
  refine ⟨fun ps => ?_, fun ps qs h hps hqs => ?_, fun ps p hps => ?_⟩
  · simp only [hone]
    exact (hrow ps).1
  · have hu := (hrow ps).2 hps
    have hv := (hrow qs).2 hqs
    exact ⟨hu.base.trans hv.base.symm, hu.get?_eq hv h⟩
  · rw [hone]
    exact (buildNative_of_built hl hc hb ((hrow ps).2 hps) p).1

end Cli

/-! ### A bundle with one text -/

def oneTextSource : String :=
  "\x7b\"ui\":\x7b\"components\":[\x7b\"type\":\"text\"\x7d]\x7d\x7d"

def oneText : List Node := [⟨none, .text, [], []⟩]

def isOneText : List Node → Bool
  | [⟨none, .text, [], []⟩] => true
  | _ => false

theorem eq_of_isOneText {ns : List Node} (h : isOneText ns = true) : ns = oneText := by
  unfold isOneText at h
  split at h
  · rfl
  · cases h

def hasOneText (t : FileTree) : Bool :=
  !t.isFile (configPath ⟨"."⟩) &&
    (Bundle.load t (bundlePath ⟨"."⟩)).toOption.any fun lb => isOneText lb.bundle.roots

theorem load_of_hasOneText {t : FileTree} (h : hasOneText t = true) :
    (Config.load ⟨"."⟩ t).result = .ok .default ∧
      ∃ lb, Bundle.load t (bundlePath ⟨"."⟩) = .ok lb ∧ lb.bundle.roots = oneText := by
  obtain ⟨hconfig, hroots⟩ := (Bool.and_eq_true _ _).mp h
  refine ⟨by rw [Config.load_result, if_neg (by simpa using hconfig)], ?_⟩
  cases hl : Bundle.load t (bundlePath ⟨"."⟩) with
  | error e =>
    rw [hl] at hroots
    cases hroots
  | ok lb =>
    rw [hl] at hroots
    exact ⟨lb, rfl, eq_of_isOneText hroots⟩

def plainGenerator (p : Platform) : Generator := Config.default.generator ⟨"."⟩ p

def textData (p : Platform) : Json :=
  Generator.templateData ProjectOptions.default (Source.lower p.dialect ⟨none, .text, [], []⟩)

def textFiles : Platform → List GeneratedFile
  | .android => []
  | .ios =>
    [⟨⟨"ContentView.swift"⟩, Template.filled Platform.Ios.contentView (textData .ios)⟩,
      ⟨⟨"ForgeApp.swift"⟩, Platform.Ios.app⟩,
      ⟨⟨"Info.plist"⟩, Template.filled Platform.Ios.infoPlist (textData .ios)⟩]
  | .macos =>
    [⟨⟨"ForgeApp/ContentView.swift"⟩, Template.filled Platform.MacOs.contentView (textData .macos)⟩,
      ⟨⟨"ForgeApp/App.swift"⟩, Platform.MacOs.app⟩,
      ⟨⟨"ForgeApp/Theme.swift"⟩, Platform.MacOs.theme⟩]

theorem render_text :
    (Template.render Platform.Ios.contentView (textData .ios) =
        .ok (Template.filled Platform.Ios.contentView (textData .ios)) ∧
      Template.render Platform.Ios.infoPlist (textData .ios) =
        .ok (Template.filled Platform.Ios.infoPlist (textData .ios))) ∧
    Template.render Platform.MacOs.contentView (textData .macos) =
      .ok (Template.filled Platform.MacOs.contentView (textData .macos)) := by
  refine ⟨⟨?_, ?_⟩, ?_⟩
  · exact Template.render_eq_filled (by decide +kernel)
  · exact Template.render_eq_filled (by decide +kernel)
  · exact Template.render_eq_filled (by decide +kernel)

theorem generateFiles_text {p : Platform} (hp : p ≠ .android) {b : Bundle} (hb : b.roots = oneText)
    (t : FileTree) : ((plainGenerator p).generateFiles b t).result = .ok (textFiles p) := by
  have hl : Generator.lowerRoots p.dialect .first b.roots =
      some (Source.lower p.dialect ⟨none, .text, [], []⟩) := by
    rw [hb]
    rfl
  refine Generator.generateFiles_of_forall₂ hl ?_
  have hmade {entry : ManifestEntry} {source content : String}
      (hs : p.builtin? entry.template = some source) (hb : '\x7b' ∉ entry.output.toList)
      (he : '\\' ∉ entry.output.toList)
      (hc : (if entry.verbatim then .ok source else Template.render source (textData p)) =
        .ok content) :
      ((plainGenerator p).generateFile (textData p) entry t).result =
        .ok ⟨⟨entry.output⟩, content⟩ :=
    Generator.generateFile_of_builtin rfl hs (Template.render_plain hb he _) hc t
  cases p with
  | android => exact absurd rfl hp
  | ios =>
    refine .cons ?_ (.cons ?_ (.cons ?_ .nil))
    · exact hmade rfl (by decide) (by decide) render_text.1.1
    · exact hmade rfl (by decide) (by decide) rfl
    · exact hmade rfl (by decide) (by decide) render_text.1.2
  | macos =>
    refine .cons ?_ (.cons ?_ (.cons ?_ .nil))
    · exact hmade rfl (by decide) (by decide) render_text.2
    · exact hmade rfl (by decide) (by decide) rfl
    · exact hmade rfl (by decide) (by decide) rfl

theorem buildNative_text {t : FileTree} (h : hasOneText t = true) {p : Platform}
    (hp : p ≠ .android) :
    let o := Generator.replaceOutput (outputDir p ⟨"."⟩) (textFiles p) t
    ((Cli.buildNative ⟨"."⟩ p).Succeeds t ↔ o.result.isOk = true) ∧
      (Cli.buildNative ⟨"."⟩ p t).state = o.state := by
  obtain ⟨hc, lb, hl, hb⟩ := load_of_hasOneText h
  obtain ⟨hok, hstate⟩ := Cli.buildNative_iff hc p
  obtain ⟨hr, hs⟩ := Generator.generate_of_files hl (generateFiles_text hp hb t)
  have hiff : (∃ out, ((plainGenerator p).generate ⟨"."⟩ t).result = .ok out) ↔
      (Generator.replaceOutput (outputDir p ⟨"."⟩) (textFiles p) t).result.isOk = true := by
    rw [hr, exists_map_ok_iff]
    exact isOk_iff.symm
  exact ⟨hok.trans hiff, (hstate (isFile_of_load hl)).trans hs⟩

def freshTree : FileTree := .ofTexts [[".forge"], [".forge", "semantic"]]
  [([".forge", "semantic", "semantic.json"], oneTextSource)]

def linkedTree : FileTree :=
  (freshTree.put ["work", ".forge", "native"] .directory).put
    ["work", ".forge", "native", "apple"] (.link "ios")

theorem buildNative_linkedTree :
    (Cli.buildNative ⟨"."⟩ .ios).Succeeds linkedTree ∧
      ¬(Cli.buildNative ⟨"."⟩ .macos).Succeeds linkedTree ∧
      (Cli.buildNative ⟨"."⟩ .macos).Succeeds (Cli.buildNative ⟨"."⟩ .ios linkedTree).state := by
  have htext : hasOneText linkedTree = true := by decide +kernel
  obtain ⟨hios, hstate⟩ := buildNative_text htext (p := .ios) nofun
  have hput : (Generator.replaceOutput (outputDir .ios ⟨"."⟩) (textFiles .ios)
      linkedTree).result.isOk = true := by decide +kernel
  refine ⟨hios.mpr hput, ?_, ?_⟩
  · rw [(buildNative_text htext (p := .macos) nofun).1]
    decide +kernel
  · rw [hstate]
    exact (buildNative_text (by decide +kernel) (p := .macos) nofun).1.mpr (by decide +kernel)

/-! ### A path that is too long in an output -/

def winding : Path := ⟨".forge/native/android/x/../../../.."⟩

@[irreducible] def longWinding : Path := .dotted 2005 winding

def windingWay : List Step :=
  [.name ".forge", .name "native", .name "android", .name "x", .up, .up, .up, .up]

theorem way_longWinding : longWinding.way = windingWay := by
  rw [longWinding, Path.way_dotted _ (by decide)]
  decide

theorem zero_longWinding : '\x00' ∉ longWinding.text.toList := by
  rw [longWinding]
  exact Path.zero_dotted _ (by decide)

theorem size_longWinding {ns : List String} (h : ∀ n ∈ ns, Path.IsName n) :
    (longWinding.joinAll ns).text.utf8ByteSize = 4045 + Path.namesSize ns := by
  have ht : winding.text ≠ "" := by decide
  have hs : winding.text.utf8ByteSize = 35 := by decide
  rw [longWinding, Path.size_joinAll (Path.dotted_text_ne ht _)
    ((Path.endsInSlash_dotted ht _).trans (by decide)) h, Path.size_dotted, hs]

def windingTree : FileTree := .ofTexts
  [[".forge"], [".forge", "semantic"], [".forge", "native"], [".forge", "native", "android"],
    [".forge", "native", "android", "x"]]
  [([".forge", "semantic", "semantic.json"], oneTextSource)]

theorem start_longWinding {t : FileTree} (hb : t.base = ["work"]) (hlost : t.lost = 0) :
    t.start longWinding = ["work"] ∧ t.Departs longWinding := by
  rw [longWinding, start_dotted (by decide), departs_dotted (by decide), start, hb]
  exact ⟨rfl, .inr (by rw [hlost]; exact Nat.zero_le _)⟩

theorem find_longWinding {t : FileTree} (ht : t.Plain) (hb : t.base = ["work"])
    (hlost : t.lost = 0) {n : String} {ns : List String} (h : ∀ m ∈ n :: ns, Path.IsName m)
    (hs : 4045 + Path.namesSize (n :: ns) ≤ pathLimit) :
    t.find (longWinding.joinAll (n :: ns)) =
      t.reach ["work"] (windingWay ++ (n :: ns).map Step.name) := by
  obtain ⟨hn, hns⟩ := List.forall_mem_cons.mp h
  have hext := Path.extends_joinAll longWinding h
  have hname : (longWinding.joinAll (n :: ns)).EndsInName :=
    ((Path.endsInName_div longWinding hn).joinAll hns).1
  have hz : '\x00' ∉ (longWinding.joinAll (n :: ns)).text.toList :=
    mt hext.zero.mp zero_longWinding
  obtain ⟨hstart, hdeparts⟩ := start_longWinding hb hlost
  rw [find_eq (ht.unlinked _) hname hz, size_longWinding h, if_neg (Nat.not_lt.mpr hs),
    if_pos ((departs_extends hext).mpr hdeparts), start_extends hext, hstart, hext.way,
    way_longWinding]

theorem plain_windingTree : windingTree.Plain := plain_of_isPlain (by decide)

theorem load_windingTree : (Config.load longWinding windingTree).result = .ok .default ∧
    ∃ lb, Bundle.load windingTree (bundlePath longWinding) = .ok lb ∧ lb.bundle.roots ≠ [] := by
  have hconfig : windingTree.find (configPath longWinding) = .error .notFound := by
    rw [configPath_eq, find_longWinding plain_windingTree rfl rfl (by decide) (by decide)]
    rfl
  have hbundle : windingTree.readText (bundlePath longWinding) = .ok oneTextSource := by
    rw [readText, bundlePath_eq, bundleNames,
      find_longWinding plain_windingTree rfl rfl (by decide) (by decide)]
    rfl
  refine ⟨by rw [Config.load_result, isFile, hconfig]; rfl, ?_⟩
  rw [Bundle.load_of_readText hbundle]
  have hroots : ((Bundle.parse oneTextSource).toOption.any fun lb =>
      !lb.bundle.roots.isEmpty) = true := by decide +kernel
  cases hl : Bundle.parse oneTextSource with
  | error e =>
    rw [hl] at hroots
    cases hroots
  | ok lb =>
    rw [hl] at hroots
    exact ⟨lb, rfl, by simpa [Except.toOption] using hroots⟩

theorem target_windingTree :
    windingTree.target longWinding = ["work"] ∧
      windingTree.passed longWinding = stations ["work"] windingWay := by
  obtain ⟨hstart, -⟩ := start_longWinding (t := windingTree) rfl rfl
  rw [target, passed, hstart, way_longWinding]
  exact ⟨by decide, rfl⟩

theorem feasible_windingTree :
    Feasible windingTree longWinding .ios (Config.segments Config.default.packageId) where
  fits := by
    intro x hx
    have hnames : ∀ n ∈ way .ios ++ (x.1 ++ [x.2]), Path.IsName n := by
      revert x
      decide
    rw [outputDir_eq, ← Path.joinAll_append, Fits, size_longWinding hnames, ← short_way,
      (Path.extends_joinAll longWinding hnames).way, way_longWinding, Short]
    clear hnames
    revert x
    decide
  through := by
    intro r h
    rw [target_outputDir, target_windingTree.1, target_windingTree.2] at h
    simp [windingWay, stations, step, way, Platform.outputNames] at h

theorem isDotted_default : Config.isDotted Config.default.packageId = true := by decide

theorem exists_files_windingTree (p : Platform) :
    ∃ lb files, Bundle.load windingTree (bundlePath longWinding) = .ok lb ∧
      ((Config.default.generator longWinding p).generateFiles lb.bundle windingTree).result =
        .ok files := by
  obtain ⟨-, lb, hl, hroots⟩ := load_windingTree
  obtain ⟨-, files, -, hf, -⟩ := Generator.exists_splices
    (g := Config.default.generator longWinding p) rfl hroots windingTree
  exact ⟨lb, files, hl, hf⟩

theorem exists_ready_windingTree :
    ∃ files, Ready (Config.default.generator longWinding .ios) longWinding windingTree files := by
  obtain ⟨lb, files, hl, hf⟩ := exists_files_windingTree .ios
  have hplaceable := placeable_of_feasible isDotted_default feasible_windingTree hf
  refine ⟨files, ⟨lb, hl, hf⟩, ?_, hplaceable, ?_⟩
  · rintro ⟨hbelow, -⟩
    change windingTree.target (outputDir .ios longWinding) <+:
      windingTree.start (outputDir .ios longWinding) at hbelow
    rw [target_outputDir, target_windingTree.1, start_extends (extends_outputDir .ios longWinding),
      (start_longWinding rfl rfl).1] at hbelow
    exact absurd hbelow (by decide)
  · change ∀ q ∈ windingTree.passed (outputDir .ios longWinding), _
    rw [passed, start_extends (extends_outputDir .ios longWinding),
      (extends_outputDir .ios longWinding).way, (start_longWinding rfl rfl).1, way_longWinding]
    unfold Free
    decide

def clearedTree : FileTree := windingTree.clear ["work", ".forge", "native", "android"]

theorem plain_clearedTree : clearedTree.Plain := plain_of_isPlain (by decide)

theorem removeDirAll_windingTree :
    windingTree.removeDirAll (outputDir .android longWinding) = .ok clearedTree := by
  have hname := endsInName_outputDir .android longWinding
  have hfind : windingTree.find (outputDir .android longWinding) =
      .ok (["work", ".forge", "native", "android"], .directory) := by
    rw [outputDir_eq, way, find_longWinding plain_windingTree rfl rfl (by decide) (by decide)]
    rfl
  have hgone : clearedTree.find (outputDir .android longWinding) = .error .notFound := by
    rw [outputDir_eq, way, find_longWinding plain_clearedTree rfl rfl (by decide) (by decide)]
    rfl
  rw [(removeDirAll_eq (plain_windingTree.unlinked _) hname hfind).2, ← clearedTree, hgone]
  rfl

theorem createDirAll_longWinding (u : FileTree) :
    (createDirAll ((outputDir .android longWinding).joinAll
        ["app", "src", "main", "java", "com", "forge", "app"]) u).result = .error .nameTooLong ∧
      (createDirAll ((outputDir .android longWinding).joinAll
        ["app", "src", "main", "java", "com", "forge", "app"]) u).state = u := by
  have hnames : ∀ n ∈ ["app", "src", "main", "java", "com", "forge", "app"], Path.IsName n := by
    decide
  have hext := (extends_outputDir .android longWinding).trans (Path.extends_joinAll _ hnames)
  have hlong : pathLimit < ((outputDir .android longWinding).joinAll
      ["app", "src", "main", "java", "com", "forge", "app"]).text.utf8ByteSize := by
    rw [outputDir_eq, ← Path.joinAll_append, size_longWinding (by decide)]
    decide
  exact createDirAll_tooLong ((endsInName_outputDir .android longWinding).joinAll hnames).1
    (mt hext.zero.mp zero_longWinding) hlong

theorem generate_windingTree :
    let o := (Config.default.generator longWinding .android).generate longWinding windingTree
    (∃ e, o.result = .error e) ∧ o.state = clearedTree := by
  obtain ⟨lb, files, hl, hf⟩ := exists_files_windingTree .android
  have hsettled := settled_of_isFile (plain_windingTree.unlinked _) (isFile_of_load hl)
  have hspread := Generator.spread_of_generateFiles isDotted_default hf
  have hpieces := Generator.pieces_of_generateFiles isDotted_default hf
  obtain ⟨f, rest, rfl⟩ := List.exists_cons_of_ne_nil hspread.ne_nil
  have hparent : f.path.pieces.dropLast = ["app", "src", "main", "java", "com", "forge", "app"] :=
    (congrArg List.dropLast (List.cons.inj hpieces).1).trans (by decide)
  have hold : windingTree.get? (windingTree.target (outputDir .android longWinding)) =
      some .directory := by
    rw [target_outputDir, target_windingTree.1]
    decide
  have hsize : (outputDir .android longWinding).text.utf8ByteSize ≤ pathLimit := by
    rw [outputDir_eq, size_longWinding (by decide)]
    decide
  obtain ⟨⟨e, he⟩, hs⟩ := replaceOutput_of_stuck plain_windingTree.closed hsettled hsize hold
    (hspread.names f (by simp)) rest fun u _ => ⟨_, hparent ▸ createDirAll_longWinding u⟩
  obtain ⟨hr, hst⟩ := Generator.generate_of_files hl hf
  rw [removeDirAll_windingTree] at hs
  exact ⟨⟨e, hr.trans (congrArg (Except.map _) he)⟩, hst.trans (Except.ok.inj hs).symm⟩

theorem buildNative_clearedTree : ¬(Cli.buildNative longWinding .ios).Succeeds clearedTree := by
  have hconfig : clearedTree.find (configPath longWinding) = .error .notFound := by
    rw [configPath_eq, find_longWinding plain_clearedTree rfl rfl (by decide) (by decide)]
    rfl
  have hbundle : clearedTree.find (bundlePath longWinding) = .error .notFound := by
    rw [bundlePath_eq, bundleNames,
      find_longWinding plain_clearedTree rfl rfl (by decide) (by decide)]
    rfl
  have hload : (Config.load longWinding clearedTree).result = .ok .default := by
    rw [Config.load_result, isFile, hconfig]
    rfl
  rw [Job.Succeeds, (Cli.buildNative_iff hload .ios).1]
  rintro ⟨out, hout⟩
  have hfile := isFile_of_generate hout
  rw [isFile, hbundle] at hfile
  cases hfile

/-- The build of one target clears its old output and fails. The working directory is then out of
reach, and no other target can be built. -/
theorem buildNative_windingTree :
    (Cli.buildNative longWinding .ios).Succeeds windingTree ∧
      ¬(Cli.buildNative longWinding .android).Succeeds windingTree ∧
      ¬(Cli.buildNative longWinding .ios).Succeeds
        (Cli.buildNative longWinding .android windingTree).state := by
  obtain ⟨hc, lb, hl, -⟩ := load_windingTree
  obtain ⟨hok, hstate⟩ := Cli.buildNative_iff hc .android
  obtain ⟨⟨e, he⟩, hcleared⟩ := generate_windingTree
  obtain ⟨files, hready⟩ := exists_ready_windingTree
  refine ⟨?_, ?_, ?_⟩
  · exact (Cli.buildNative_iff hc .ios).1.mpr (replaced_of_ready plain_windingTree.closed
      (plain_windingTree.unlinked _) (plain_windingTree.unlinked _) isDotted_default hready).1
  · rw [Job.Succeeds, hok]
    rintro ⟨out, hout⟩
    exact absurd (he.symm.trans hout) (by simp)
  · rw [hstate (isFile_of_load hl), hcleared]
    exact buildNative_clearedTree

/-- It matters which targets have been built before where a link leads from one output to another
one, and where one of the builds has failed. -/
theorem native_builds_depend_on_links_and_failures :
    ((Config.load ⟨"."⟩ linkedTree).result = .ok .default ∧
      Config.default.build.templatesDir = none ∧
      (Cli.buildNative ⟨"."⟩ .ios).Succeeds linkedTree ∧
      ¬(Cli.buildNative ⟨"."⟩ .macos).Succeeds linkedTree ∧
      (Cli.buildNative ⟨"."⟩ .macos).Succeeds (Cli.buildNative ⟨"."⟩ .ios linkedTree).state) ∧
    windingTree.Plain ∧ (Config.load longWinding windingTree).result = .ok .default ∧
      (Cli.buildNative longWinding .ios).Succeeds windingTree ∧
      ¬(Cli.buildNative longWinding .android).Succeeds windingTree ∧
      ¬(Cli.buildNative longWinding .ios).Succeeds
        (Cli.buildNative longWinding .android windingTree).state := by
  have htext : hasOneText linkedTree = true := by decide +kernel
  exact ⟨⟨(load_of_hasOneText htext).1, rfl, buildNative_linkedTree⟩, plain_windingTree,
    load_windingTree.1, buildNative_windingTree⟩

def strayTree : FileTree :=
  (freshTree.put ["work", "node_modules"] .directory).put
    ["work", "node_modules", "forge"] (.link "/tmp")

theorem native_builds_commute_strayTree :
    strayTree.Closed ∧ Cli.Direct strayTree ⟨"."⟩ ∧
      (Config.load ⟨"."⟩ strayTree).result = .ok .default ∧
      Config.default.build.templatesDir = none ∧
      (Cli.buildAll ⟨"."⟩ [.ios, .macos]).Succeeds strayTree ∧
      (Cli.buildAll ⟨"."⟩ [.ios, .macos] strayTree).state.Same
        (Cli.buildAll ⟨"."⟩ [.macos, .ios, .macos] strayTree).state := by
  have htext : hasOneText strayTree = true := by decide +kernel
  have hclosed : strayTree.Closed := closed_of_isClosed (by decide)
  have hdirect : Cli.Direct strayTree ⟨"."⟩ :=
    ⟨by decide, by decide, fun p => by cases p <;> decide⟩
  have hios := (buildNative_text htext (p := .ios) nofun).1.mpr (by decide +kernel)
  have hmacos := (buildNative_text htext (p := .macos) nofun).1.mpr (by decide +kernel)
  have hc := (load_of_hasOneText htext).1
  obtain ⟨hrow, hsame, -⟩ := Cli.native_builds_commute hclosed hdirect hc rfl
  have hone := (hrow [.ios, .macos]).mpr (by simp [hios, hmacos])
  have htwo := (hrow [.macos, .ios, .macos]).mpr (by simp [hios, hmacos])
  exact ⟨hclosed, hdirect, hc, rfl, hone, hsame _ _ (by simp [or_comm]) hone htwo⟩

end NativeUi
