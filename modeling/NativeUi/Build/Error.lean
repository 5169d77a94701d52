import NativeUi.Project

/-!
# Errors of a build

Whatever ends a build or an inspection is one of these. Each has a stable code and a message.
-/
namespace NativeUi

inductive BuildError where
  | bundleNotFound (path : Path)
  | invalidBundle (reason : String)
  | templateMissing (target : String) (path : Path)
  | unknownTarget (name : String)
  | unknownInspectTarget (name : String)
  | failure (stage : String) (message : String)
  | config (path : Path) (message : String)
  | io (error : FileError)
deriving DecidableEq

namespace BuildError

def code : BuildError → String
  | .bundleNotFound _ => "BundleNotFound"
  | .invalidBundle _ => "InvalidBundle"
  | .templateMissing _ _ => "TemplateMissing"
  | .unknownTarget _ => "UnknownTarget"
  | .unknownInspectTarget _ => "UnknownInspectTarget"
  | .failure _ _ => "BackendFailure"
  | .config _ _ => "Config"
  | .io _ => "Io"

def message : BuildError → String
  | .bundleNotFound path =>
    "semantic bundle not found at " ++ path.text ++ "; run \"forge build web\" first"
  | .invalidBundle reason => "invalid semantic bundle: " ++ reason
  | .templateMissing target path => target ++ " template missing: " ++ path.text
  | .unknownTarget name =>
    "unknown build target: " ++ name ++ " (available targets: web, android, ios, macos)"
  | .unknownInspectTarget name =>
    "Unknown inspect target: " ++ name ++ " (available targets: ui, semantic)"
  | .failure stage message => stage ++ " build failed: " ++ message
  | .config path message => "invalid config " ++ path.text ++ ": " ++ message
  | .io error => "io error: " ++ error.message

def ofBundleError : BundleError → BuildError
  | .notFound path => .bundleNotFound path
  | .malformed reason => .invalidBundle reason.message
  | .json error => .invalidBundle error.message
  | .io error => .io error

def ofProjectError (target : String) : ProjectError → BuildError
  | .bundle error => ofBundleError error
  | .noRoot => .invalidBundle ProjectError.noRoot.message
  | .templateMissing path => .templateMissing target path
  | error => .failure target error.message

end BuildError

end NativeUi
