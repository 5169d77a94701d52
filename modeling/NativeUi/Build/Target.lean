import NativeUi.Build.Error

/-!
# Build targets

The web target makes the semantic bundle, a native target makes a project from it.
-/
namespace NativeUi

inductive Target where
  | web
  | native (p : Platform)
deriving DecidableEq

namespace Target

def all : List Target := .web :: Platform.all.map .native

def name : Target → String
  | .web => "web"
  | .native p => p.name

def platform? : Target → Option Platform
  | .web => none
  | .native p => some p

def ofName (name : String) : Except BuildError Target :=
  match all.find? fun t => t.name == name with
  | some t => .ok t
  | none => .error (.unknownTarget name)

def defaultPlan : List Target := [.web, .native .android, .native .ios]

def plan : Option String → Except BuildError (List Target)
  | none => .ok defaultPlan
  | some name => do
    let t ← ofName name
    .ok [t]

end Target

end NativeUi
