import NativeUi.Cli.Run
import NativeUi.Proofs.Build.Registry
import NativeUi.Proofs.Project.Generation

/-!
# Builds of native targets

The build of one native target is the generation of its project, once the configuration is loaded.
-/
namespace NativeUi

open NativeUi.Workspace

namespace Config

theorem looks_load (dir : Path) : Job.Looks (load dir) := by
  unfold load
  apply Job.Looks.bind (Job.looks_ask _)
  intro there
  split
  · exact Job.Looks.bind (Job.looks_ask _) fun _ => Job.looks_ofExcept _
  · exact Job.Looks.bind (Job.looks_log _ _ _ _) fun _ => Job.looks_pure _

theorem load_result (dir : Path) (t : FileTree) :
    (load dir t).result =
      if t.isFile (configPath dir) then
        (t.readText (configPath dir)).mapError BuildError.io >>= fun text =>
          (check text).mapError fun fault => .config (configPath dir) fault.message
      else .ok default := by
  unfold load
  change (Job.bind _ _ t).result = _
  rw [(Job.looks_ask _).bind_result]
  change (Except.ok (t.isFile (configPath dir)) >>= _) = _
  rw [ok_bind]
  cases t.isFile (configPath dir) with
  | true => exact (Job.looks_ask _).bind_result _ t
  | false => rfl

theorem load_congr {dir : Path} {t u : FileTree}
    (h : u.find (configPath dir) = t.find (configPath dir)) :
    (load dir u).result = (load dir t).result := by
  rw [load_result, load_result, FileTree.isFile, FileTree.isFile, FileTree.readText,
    FileTree.readText, h]

theorem validate_of_check {text : String} {c : Config} (h : check text = .ok c) :
    c.validate = .ok () := by
  unfold check at h
  obtain ⟨c', -, h⟩ := bind_eq_ok_iff.mp h
  obtain ⟨u, hv, h⟩ := bind_eq_ok_iff.mp h
  obtain rfl := Except.ok.inj h
  exact hv

theorem validate_of_load {dir : Path} {t : FileTree} {c : Config}
    (h : (load dir t).result = .ok c) : c.validate = .ok () := by
  rw [load_result] at h
  split at h
  · obtain ⟨text, -, h⟩ := bind_eq_ok_iff.mp h
    cases hc : check text with
    | error fault =>
      rw [hc] at h
      cases h
    | ok c' =>
      rw [hc] at h
      obtain rfl := Except.ok.inj h
      exact validate_of_check hc
  · obtain rfl := Except.ok.inj h
    rfl

theorem webCommand_of_validate {c : Config} (h : c.validate = .ok ()) :
    c.build.webCommand ≠ [] :=
  (validate_eq_ok_iff.mp h).2.2

def generator (c : Config) (dir : Path) (p : Platform) : Generator :=
  ⟨p, c.templateSource dir, c.projectOptions⟩

end Config

theorem isFile_of_generate {g : Generator} {dir out : Path} {t : FileTree}
    (h : (g.generate dir t).result = .ok out) : t.isFile (bundlePath dir) = true := by
  cases hl : Bundle.load t (bundlePath dir) with
  | error e =>
    rw [(Generator.generate_of_load_error hl).1] at h
    cases h
  | ok lb => exact isFile_of_load hl

namespace Orchestrator

theorem ofConfig_eq {c : Config} {program : String} {arguments : List String}
    (h : c.build.webCommand = program :: arguments) (dir : Path) :
    ofConfig dir c = .ok ((ofProducer dir (Workspace.bundleExists dir)
        (Producer.produce ⟨program, arguments⟩ dir)).registerAll
      (Platform.all.map fun p => (c.generator dir p).stage dir)) := by
  unfold ofConfig
  rw [h]
  rfl

theorem ofConfig_stage {c : Config} (hc : c.build.webCommand ≠ []) (dir : Path) :
    ∃ o, ofConfig dir c = .ok o ∧ o.dir = dir ∧ o.bundleExists = Workspace.bundleExists dir ∧
      ∀ p, o.stage? (.native p) = some ((c.generator dir p).stage dir) := by
  obtain ⟨program, arguments, hw⟩ := List.exists_cons_of_ne_nil hc
  refine ⟨_, ofConfig_eq hw dir, ?_, ?_, fun p => ?_⟩
  · rw [registerAll_eq, ofProducer]
  · rw [registerAll_eq, ofProducer]
  · rw [stage?_registerAll]
    cases p <;> rfl

theorem build_name {σ : Type} (o : Orchestrator σ) (p : Platform) (s : σ) :
    (o.build (some p.name) s).result =
        (o.runNative (.native p) s).result.map (fun output => [⟨.native p, some output⟩]) ∧
      (o.build (some p.name) s).state = (o.runNative (.native p) s).state := by
  have hplan : Target.plan (some p.name) = .ok [.native p] := (Planned.named (.native p)).plan_eq
  rw [o.build_of_plan hplan]
  obtain ⟨hr, hst⟩ := o.runTarget_native p s
  rw [← hst]
  cases h : (o.runNative (.native p) s).result with
  | error e =>
    rw [h] at hr
    exact Job.collect_cons_of_error hr []
  | ok output =>
    rw [h] at hr
    exact Job.collect_cons_of_ok hr []

theorem build_native {o : Orchestrator FileTree} {p : Platform} {stage : NativeStage FileTree}
    (hs : o.stage? (.native p) = some stage) (t : FileTree) :
    ((∃ reports, (o.build (some p.name) t).result = .ok reports) ↔
      o.bundleExists t = true ∧ ∃ out, (stage.generate t).result = .ok out) ∧
    (o.bundleExists t = true →
      (o.build (some p.name) t).state = (stage.generate t).state) := by
  obtain ⟨hr, hst⟩ := o.build_name p t
  rw [hr, hst, exists_map_ok_iff]
  cases hb : o.bundleExists t with
  | false =>
    rw [o.runNative_of_missing hs hb]
    exact ⟨by simp, nofun⟩
  | true =>
    obtain ⟨hr', hst'⟩ := o.runNative_of_bundle hs hb
    rw [hr', hst']
    exact ⟨by simp, fun _ => rfl⟩

end Orchestrator

namespace Cli

theorem build_eq {dir : Path} {t : FileTree} {c : Config}
    (hc : (Config.load dir t).result = .ok c) {o : Orchestrator FileTree}
    (ho : Orchestrator.ofConfig dir c = .ok o) (target : Option String) :
    (build dir target t).result = (o.build target t).result ∧
      (build dir target t).state = (o.build target t).state := by
  have hbuild : build dir target =
      Job.bind (Config.load dir) fun c =>
        Job.bind (Job.ofExcept (Orchestrator.ofConfig dir c)) fun o => o.build target := rfl
  rw [hbuild, Job.bind_eq_of_ok hc, Config.looks_load dir t, ho]
  exact ⟨rfl, rfl⟩

def buildNative (dir : Path) (p : Platform) : Job FileTree BuildError (List StageReport) :=
  build dir (some p.name)

theorem buildNative_iff {dir : Path} {t : FileTree} {c : Config}
    (hc : (Config.load dir t).result = .ok c) (p : Platform) :
    ((∃ reports, (buildNative dir p t).result = .ok reports) ↔
      ∃ out, ((c.generator dir p).generate dir t).result = .ok out) ∧
    (t.isFile (bundlePath dir) = true →
      (buildNative dir p t).state = ((c.generator dir p).generate dir t).state) := by
  obtain ⟨o, ho, -, hexists, hstage⟩ :=
    Orchestrator.ofConfig_stage (Config.webCommand_of_validate (Config.validate_of_load hc)) dir
  obtain ⟨hr, hst⟩ := build_eq hc ho (some p.name)
  obtain ⟨hok, hstate⟩ := Orchestrator.build_native (hstage p) t
  rw [buildNative, hr, hst, hok, hexists]
  rw [hexists] at hstate
  have hgen (out : Path) : (((c.generator dir p).stage dir).generate t).result = .ok out ↔
      ((c.generator dir p).generate dir t).result = .ok out := by
    rw [Generator.stage, Job.mapError_result]
    cases ((c.generator dir p).generate dir t).result <;> simp [Except.mapError]
  simp only [hgen]
  refine ⟨⟨fun h => h.2, fun ⟨out, h⟩ => ⟨isFile_of_generate h, out, h⟩⟩, fun h => ?_⟩
  rw [hstate h, Generator.stage, Job.mapError_state]

end Cli

end NativeUi
