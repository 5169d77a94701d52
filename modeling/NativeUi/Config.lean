import NativeUi.Build.Error
import NativeUi.Text.Pattern

/-!
# Project configuration

Every field of `forge.config.json` may be missing, and what is missing has a default. A
configuration is checked when it is loaded, so that its values can be put into sources as they are.
-/
namespace NativeUi

structure ProjectConfig where
  name : String
  packageId : Option String
deriving DecidableEq

structure BuildConfig where
  webCommand : List String
  templatesDir : Option Path
  roots : RootPolicy
deriving DecidableEq

structure Config where
  version : String
  project : ProjectConfig
  build : BuildConfig
deriving DecidableEq

inductive ConfigFault where
  | json (error : Json.ReadError)
  | badPackageId (id : String)
  | badName (name : String)
  | noCommand

def ConfigFault.message : ConfigFault → String
  | .json error => error.message
  | .badPackageId id => "project.package_id `" ++ id ++ "` is not a dotted identifier"
  | .badName name =>
    "project.name " ++ Text.quoted name ++ " must be non-empty text without control characters"
  | .noCommand => "build.web_command is empty"

def ProjectConfig.default : ProjectConfig := ⟨defaultAppName, none⟩

def BuildConfig.default : BuildConfig := ⟨["forge-web-builder"], none, .first⟩

namespace Config

def default : Config := ⟨"0.1.0", .default, .default⟩

def optionalField (name : String) : Option String → Fields Json
  | none => []
  | some s => [(name, .string s)]

def projectJson (p : ProjectConfig) : Json :=
  .object (("name", .string p.name) :: optionalField "package_id" p.packageId)

def buildJson (b : BuildConfig) : Json :=
  .object ([("web_command", .list (b.webCommand.map .string))] ++
    optionalField "templates_dir" (b.templatesDir.map Path.text) ++
    [("roots", .string b.roots.name)])

def toJson (c : Config) : Json :=
  .object ([("version", .string c.version), ("project", projectJson c.project)] ++
    if c.build = .default then [] else [("build", buildJson c.build)])

structure ProjectParts where
  name : Option String
  packageId : Option (Option String)

def projectFields : List (Json.FieldReader ProjectParts) := [
  ⟨"name", fun p => p.name.isSome, fun p d => do
    let s ← d.readString "a string"
    .ok ⟨some s, p.packageId⟩⟩,
  ⟨"package_id", fun p => p.packageId.isSome, fun p d => do
    let s ← d.readOptional (Json.Draft.readString "a string")
    .ok ⟨p.name, some s⟩⟩]

def readProject (d : Json.Draft) : Except Json.ReadError ProjectConfig := do
  let p ← Json.readRecord "struct ProjectConfig" projectFields ⟨none, none⟩ d
  .ok ⟨p.name.getD ProjectConfig.default.name, p.packageId.getD none⟩

structure BuildParts where
  webCommand : Option (List String)
  templatesDir : Option (Option String)
  roots : Option RootPolicy

def buildFields : List (Json.FieldReader BuildParts) := [
  ⟨"web_command", fun p => p.webCommand.isSome, fun p d => do
    let words ← d.readSequence (Json.Draft.readString "a string")
    .ok ⟨some words, p.templatesDir, p.roots⟩⟩,
  ⟨"templates_dir", fun p => p.templatesDir.isSome, fun p d => do
    let s ← d.readOptional (Json.Draft.readString "path string")
    .ok ⟨p.webCommand, some s, p.roots⟩⟩,
  ⟨"roots", fun p => p.roots.isSome, fun p d => do
    let r ← RootPolicy.read d
    .ok ⟨p.webCommand, p.templatesDir, some r⟩⟩]

def readBuild (d : Json.Draft) : Except Json.ReadError BuildConfig := do
  let p ← Json.readRecord "struct BuildConfig" buildFields ⟨none, none, none⟩ d
  .ok ⟨p.webCommand.getD BuildConfig.default.webCommand, (p.templatesDir.getD none).map Path.mk,
    p.roots.getD .first⟩

structure Parts where
  version : Option String
  project : Option ProjectConfig
  build : Option BuildConfig

def fieldReaders : List (Json.FieldReader Parts) := [
  ⟨"version", fun p => p.version.isSome, fun p d => do
    let s ← d.readString "a string"
    .ok ⟨some s, p.project, p.build⟩⟩,
  ⟨"project", fun p => p.project.isSome, fun p d => do
    let c ← readProject d
    .ok ⟨p.version, some c, p.build⟩⟩,
  ⟨"build", fun p => p.build.isSome, fun p d => do
    let c ← readBuild d
    .ok ⟨p.version, p.project, some c⟩⟩]

def read (d : Json.Draft) : Except Json.ReadError Config := do
  let p ← Json.readRecord "struct ForgeConfig" fieldReaders ⟨none, none, none⟩ d
  .ok ⟨p.version.getD default.version, p.project.getD .default, p.build.getD .default⟩

def parse (text : String) : Except Json.ReadError Config := Json.readText read text

def packageId (c : Config) : String := c.project.packageId.getD defaultPackageId

def identifierPattern : Text.Pattern :=
  .chain (.oneOf [('A', 'Z'), ('a', 'z')])
    (.many (.oneOf [('A', 'Z'), ('a', 'z'), ('0', '9'), ('_', '_')]))

def packagePattern : Text.Pattern :=
  .chain identifierPattern (.oneOrMore (.chain (.oneOf [('.', '.')]) identifierPattern))

def isDotted (id : String) : Bool := packagePattern.accepts id.toList

def isProjectName (name : String) : Bool :=
  !Text.allBlank name && !name.toList.any Text.isControl

def validate (c : Config) : Except ConfigFault Unit :=
  if !isDotted c.packageId then .error (.badPackageId c.packageId)
  else if !isProjectName c.project.name then .error (.badName c.project.name)
  else if c.build.webCommand.isEmpty then .error .noCommand
  else .ok ()

def projectOptions (c : Config) : ProjectOptions := ⟨c.project.name, c.packageId, c.build.roots⟩

def templateSource (c : Config) (dir : Path) : TemplateSource :=
  match c.build.templatesDir with
  | none => .builtin
  | some templates => .directory (dir.join templates)

def check (text : String) : Except ConfigFault Config := do
  let c ← (parse text).mapError .json
  c.validate
  .ok c

def load (dir : Path) : Job FileTree BuildError Config := do
  let path := Workspace.configPath dir
  let there ← Job.ask fun t => .ok (t.isFile path)
  if there then
    let text ← Job.ask fun t => (t.readText path).mapError .io
    Job.ofExcept ((check text).mapError fun fault => .config path fault.message)
  else
    Job.log .debug .build "no config file, using defaults" [("path", path.text)]
    Job.pure default

def create (dir : Path) : Job FileTree BuildError Path := do
  let path := Workspace.configPath dir
  Job.change fun t => (t.writeFile path (.text default.toJson.pretty)).mapError .io
  Job.log .info .build "Created forge.config.json" []
  Job.pure path

end Config

end NativeUi
