import NativeUi.Build.Target

/-!
# Running a build

A build runs the stages of its plan in order, and the first failure ends it. The producer has to
leave a bundle behind, and no native stage is started without one. The stages may do anything to
the state; all that is asked of it is whether the bundle is there.
-/
namespace NativeUi

/-- Any target may be named, but no build calls a stage for the web. -/
structure NativeStage (σ : Type) where
  target : Target
  generate : Job σ BuildError Path

structure Orchestrator (σ : Type) where
  dir : Path
  bundleExists : σ → Bool
  produce : Job σ String Unit
  stages : List (NativeStage σ)

structure StageReport where
  target : Target
  output : Option Path

namespace Orchestrator

variable {σ : Type}

def ofProducer (dir : Path) (bundleExists : σ → Bool) (produce : Job σ String Unit) :
    Orchestrator σ :=
  ⟨dir, bundleExists, produce, []⟩

def withNative (o : Orchestrator σ) (stage : NativeStage σ) : Orchestrator σ :=
  ⟨o.dir, o.bundleExists, o.produce,
    o.stages.filter (fun s => s.target != stage.target) ++ [stage]⟩

def stage? (o : Orchestrator σ) (t : Target) : Option (NativeStage σ) :=
  o.stages.find? fun s => s.target == t

def info (message : String) : Job σ BuildError Unit := Job.log .info .build message []

def requireBundle (o : Orchestrator σ) (error : BuildError) : Job σ BuildError Unit :=
  Job.ask fun s => if o.bundleExists s then .ok () else .error error

def bundleNotWritten (o : Orchestrator σ) : BuildError :=
  .failure "web" ("semantic producer did not write " ++ (Workspace.bundlePath o.dir).text)

def runWeb (o : Orchestrator σ) : Job σ BuildError Unit := do
  info "starting web semantic build"
  o.produce.mapError (.failure "web")
  o.requireBundle o.bundleNotWritten
  info "web semantic build completed"

def runNative (o : Orchestrator σ) (t : Target) : Job σ BuildError Path :=
  match o.stage? t with
  | none => Job.fail (.failure t.name "no native stage registered")
  | some stage => do
    o.requireBundle (.bundleNotFound (Workspace.bundlePath o.dir))
    info ("starting " ++ t.name ++ " native build")
    let output ← stage.generate
    info (t.name ++ " native build completed")
    Job.pure output

def runTarget (o : Orchestrator σ) : Target → Job σ BuildError StageReport
  | .web => do
    o.runWeb
    Job.pure ⟨.web, none⟩
  | .native p => do
    let output ← o.runNative (.native p)
    Job.pure ⟨.native p, some output⟩

def build (o : Orchestrator σ) (target : Option String) : Job σ BuildError (List StageReport) := do
  let plan ← Job.ofExcept (Target.plan target)
  Job.collect o.runTarget plan

end Orchestrator

end NativeUi
