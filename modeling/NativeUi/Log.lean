import NativeUi.Text.Quoted

/-!
# Log lines

A log entry has a level, the area of the program it comes from, a message and named details. A
filter admits entries by area and level.
-/
namespace NativeUi.Log

inductive Level where
  | error
  | warn
  | info
  | debug
  | trace
deriving DecidableEq

def Level.rank : Level → Nat
  | .error => 1
  | .warn => 2
  | .info => 3
  | .debug => 4
  | .trace => 5

def Level.label : Level → String
  | .error => "ERROR"
  | .warn => " WARN"
  | .info => " INFO"
  | .debug => "DEBUG"
  | .trace => "TRACE"

inductive Area where
  | commandLine
  | build
  | generation
  | bundle
deriving DecidableEq

def Area.name : Area → String
  | .commandLine => "forge"
  | .build => "forge_build"
  | .generation => "forge_codegen"
  | .bundle => "forge_core"

structure Entry where
  level : Level
  area : Area
  message : String
  details : List (String × String)

def Entry.line (e : Entry) : String :=
  e.level.label ++ " " ++ e.message ++
    String.join (e.details.map fun d => " " ++ d.1 ++ "=" ++ d.2)

/-- The most talkative level that is admitted for the areas whose names start with a text; `none`
admits nothing. -/
structure Directive where
  area : String
  level : Option Level

abbrev Filter := List Directive

namespace Filter

def default : Filter := [⟨"forge", some .info⟩]

/-- Of the directives that fit, the one with the longest area counts, and of these the last. -/
def directiveFor (f : Filter) (area : String) : Option Directive :=
  f.foldl
    (fun best d =>
      if d.area.toList.isPrefixOf area.toList then
        match best with
        | none => some d
        | some b => if b.area.length ≤ d.area.length then some d else some b
      else best)
    none

def admits (f : Filter) (e : Entry) : Bool :=
  match f.directiveFor e.area.name with
  | some ⟨_, some level⟩ => e.level.rank ≤ level.rank
  | _ => false

def level? (s : String) : Option (Option Level) :=
  match s.toLower with
  | "off" => some none
  | "error" => some (some .error)
  | "warn" => some (some .warn)
  | "info" => some (some .info)
  | "debug" => some (some .debug)
  | "trace" => some (some .trace)
  | _ => none

/-- A directive: a level for all areas, an area with everything, or both with a sign between. -/
def directive? (s : String) : Option Directive :=
  match s.splitOn "=" with
  | [word] =>
    match level? word with
    | some level => some ⟨"", level⟩
    | none => some ⟨word, some .trace⟩
  | [area, word] => (level? word).map fun level => ⟨area, level⟩
  | _ => none

def ofString (s : String) : Filter :=
  (((s.splitOn ",").filter fun w => !w.isEmpty).mapM directive?).getD default

end Filter

end NativeUi.Log
