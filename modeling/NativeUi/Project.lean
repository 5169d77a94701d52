import NativeUi.Bundle.Loader
import NativeUi.Source.Lowering
import NativeUi.Template.Render
import NativeUi.Workspace

/-!
# Generating projects

A bundle is lowered in the dialect of a platform and put into the platform's templates. A project is
complete before anything is written; then it takes the place of what an earlier run has left.
-/
namespace NativeUi

inductive RootPolicy where
  | first
  | stack
deriving DecidableEq

namespace RootPolicy

def name : RootPolicy → String
  | .first => "first"
  | .stack => "stack"

def read (d : Json.Draft) : Except Json.ReadError RootPolicy := do
  let name ← d.readVariant ["first", "stack"]
  .ok (if name = "stack" then .stack else .first)

end RootPolicy

structure ProjectOptions where
  appName : String
  packageId : String
  roots : RootPolicy

def defaultAppName : String := "forge-project"

def defaultPackageId : String := "com.forge.app"

def ProjectOptions.default : ProjectOptions := ⟨defaultAppName, defaultPackageId, .first⟩

/-- Where templates come from: the program itself, or a directory with one below it for each
platform. -/
inductive TemplateSource where
  | builtin
  | directory (root : Path)

inductive ProjectError where
  | bundle (error : BundleError)
  | noRoot
  | templateMissing (path : Path)
  | template (fault : Template.Fault)
  | write (path : Path) (error : FileError)
  | io (error : FileError)

def ProjectError.message : ProjectError → String
  | .bundle error => error.message
  | .noRoot => "semantic bundle has no root component in `ui.components`"
  | .templateMissing path => "template missing: " ++ path.text
  | .template fault => "Template error: " ++ fault.message
  | .write path error => "failed to write " ++ path.text ++ ": " ++ error.message
  | .io error => "IO error: " ++ error.message

structure GeneratedFile where
  path : Path
  content : String

structure Generator where
  platform : Platform
  templates : TemplateSource
  options : ProjectOptions

namespace Generator

abbrev Work (α : Type) := Job FileTree ProjectError α

def log {σ ε : Type} (level : Log.Level) (message : String) (details : List (String × String)) :
    Job σ ε Unit :=
  Job.log level .generation message details

def lowerRoots (d : Source.Dialect) : RootPolicy → List Node → Option String
  | _, [] => none
  | .first, n :: _ => some (Source.lower d n)
  | .stack, [n] => some (Source.lower d n)
  | .stack, ns => some (Source.lowerStack d ns)

def lowerBundle (g : Generator) (b : Bundle) : Work String := do
  let d := g.platform.dialect
  log .debug "lowering bundle"
    [("dialect", Text.quoted d.name), ("roots", Text.decimal b.roots.length)]
  if g.options.roots = .first && 1 < b.roots.length then
    log .warn "bundle has several root components; lowering only the first"
      [("backend", g.platform.name), ("ignored", Text.decimal (b.roots.length - 1))]
  match lowerRoots d g.options.roots b.roots with
  | none => Job.fail .noRoot
  | some code => Job.pure code

def templateData (o : ProjectOptions) (content : String) : Json :=
  .object [("content", .string content), ("app_name", .string o.appName),
    ("package_id", .string o.packageId),
    ("package_path", .string (o.packageId.map fun c => if c = '.' then '/' else c))]

def loadTemplate (source : TemplateSource) (p : Platform) (name : String) : Work String :=
  match source with
  | .builtin =>
    match p.builtin? name with
    | some text => Job.pure text
    | none => Job.fail (.templateMissing ((⟨p.name⟩ : Path) / name))
  | .directory root => do
    let path := root / p.name / name
    Job.ask fun t => if t.isFile path then .ok () else .error (.templateMissing path)
    log .debug "loading template" [("path", path.text)]
    Job.ask fun t => (t.readText path).mapError .io

def fillTemplate (template : String) (data : Json) : Work String :=
  Job.ofExcept ((Template.render template data).mapError .template)

def generateFile (g : Generator) (data : Json) (entry : ManifestEntry) : Work GeneratedFile := do
  let source ← loadTemplate g.templates g.platform entry.template
  let path ← fillTemplate entry.output data
  let content ← if entry.verbatim then Job.pure source else fillTemplate source data
  Job.pure ⟨⟨path⟩, content⟩

def warnUnsupported (g : Generator) (n : Node) : Work Unit :=
  match n.unsupportedKinds with
  | [] => Job.pure ()
  | kinds =>
    log .warn "rendering unsupported node kinds as placeholders"
      [("backend", g.platform.name), ("kinds", Text.quotedList kinds)]

def generateFiles (g : Generator) (b : Bundle) : Work (List GeneratedFile) := do
  Job.forAll g.warnUnsupported b.roots
  let content ← g.lowerBundle b
  Job.collect (g.generateFile (templateData g.options content)) g.platform.manifest

def writeOne (outDir : Path) (file : GeneratedFile) : Work Unit := do
  let path := outDir.join file.path
  match path.parent? with
  | none => Job.pure ()
  | some parent => (FileTree.createDirAll parent).mapError (.write parent)
  Job.change fun t => (t.writeFile path (.text file.content)).mapError (.write path)
  log .debug "wrote file" [("path", path.text)]

def writeFiles (outDir : Path) (files : List GeneratedFile) : Work Unit :=
  Job.forAll (writeOne outDir) files

def clearOutput (outDir : Path) : Work Unit := do
  let there ← Job.ask fun t => .ok (t.pathExists outDir)
  if there then
    log .debug "clearing previous output" [("out_dir", outDir.text)]
    Job.change fun t => (t.removeDirAll outDir).mapError (.write outDir)

def reportIgnored {σ ε : Type} (ignored : List IgnoredSection) : Job σ ε Unit :=
  Job.forAll
    (fun s => Job.log .warn .bundle "treating malformed bundle section as empty"
      [("section", Text.quoted s.name), ("err", s.error.message)])
    ignored

/-- Loads the bundle at a path, with a warning for each section that could not be used. -/
def loadBundle (path : Path) : Job FileTree BundleError Bundle := do
  let loaded ← Job.ask fun t => Bundle.load t path
  reportIgnored loaded.ignored
  Job.pure loaded.bundle

def generate (g : Generator) (dir : Path) : Work Path := do
  let bundle ← (loadBundle (Workspace.bundlePath dir)).mapError .bundle
  let files ← g.generateFiles bundle
  let outDir := Workspace.outputDir g.platform dir
  clearOutput outDir
  writeFiles outDir files
  log .info (g.platform.framework ++ " project generated")
    [("backend", g.platform.name), ("files", Text.decimal files.length), ("out_dir", outDir.text)]
  Job.pure outDir

end Generator

def findFile? (files : List GeneratedFile) (path : Path) : Option GeneratedFile :=
  files.find? fun f => f.path.sameAs path

end NativeUi
