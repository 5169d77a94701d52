import NativeUi.Path

/-!
# The command line

Options may stand before and after the command; behind it they count more. Whatever cannot be
understood is a misuse of the program.
-/
namespace NativeUi.Cli

inductive CommandName where
  | init
  | build
  | inspect
deriving DecidableEq

def CommandName.name : CommandName → String
  | .init => "init"
  | .build => "build"
  | .inspect => "inspect"

def CommandName.ofName? (s : String) : Option CommandName :=
  [CommandName.init, .build, .inspect].find? fun c => c.name == s

inductive Topic where
  | program
  | command (c : CommandName)
  | help
deriving DecidableEq

structure Invocation where
  dir : Path
  command : CommandName
  target : Option String

inductive Request where
  | run (i : Invocation)
  | help (topic : Topic)
  | version
  | misuse

/-- The directory of one side of the command: one that is settled, and one that has been read behind
its option but not been looked at. -/
structure GivenDir where
  settled : Option String
  pending : Option String

namespace GivenDir

def none_ : GivenDir := ⟨none, none⟩

def take (d : GivenDir) (value : String) : Option GivenDir :=
  if value.isEmpty || d.settled.isSome then none else some ⟨some value, none⟩

def settle (d : GivenDir) : Option GivenDir :=
  match d.pending with
  | none => some d
  | some value => d.take value

end GivenDir

/-- What has been read so far: the directory given before the command, the command, the directory
given behind it, and its argument. -/
structure Progress where
  outer : GivenDir
  command : Option CommandName
  inner : GivenDir
  target : Option String

namespace Progress

def start : Progress := ⟨.none_, none, .none_, none⟩

def topic (p : Progress) : Topic :=
  match p.command with
  | none => .program
  | some c => .command c

def changeDir (p : Progress) (f : GivenDir → Option GivenDir) : Option Progress :=
  match p.command with
  | none => (f p.outer).map fun d => { p with outer := d }
  | some _ => (f p.inner).map fun d => { p with inner := d }

def settle (p : Progress) : Option Progress := p.changeDir GivenDir.settle

def setDir (p : Progress) (value : String) : Option Progress := do
  let p ← p.settle
  p.changeDir fun d => d.take value

def awaitDir (p : Progress) (value : String) : Option Progress :=
  p.changeDir fun d => some ⟨d.settled, some value⟩

def addArgument (p : Progress) (value : String) : Option Progress := do
  let p ← p.settle
  match p.command, p.target with
  | some .init, _ => none
  | some _, none => some { p with target := some value }
  | _, _ => none

/-- The directory: the inner one, the outer one, that of the environment, or the current one. An
empty one in the environment is refused wherever it would be looked at. -/
def dir? (p : Progress) (environment : Option String) : Option Path := do
  let inner ← p.inner.settle
  let outer ← p.outer.settle
  if environment = some "" && (outer.settled.isNone || inner.settled.isNone) then none
  else some ⟨(inner.settled <|> outer.settled <|> environment).getD "."⟩

def finish (p : Progress) (environment : Option String) : Request :=
  match p.command, p.dir? environment with
  | some c, some dir => .run ⟨dir, c, p.target⟩
  | _, _ => .misuse

end Progress

/-- What one argument leads to: reading on, waiting for a directory, or an answer at once. -/
inductive Move where
  | next (p : Progress)
  | awaitDir (p : Progress)
  | answer (r : Request)

def Move.ofOption : Option Progress → Move
  | some p => .next p
  | none => .answer .misuse

def Move.settled (p : Progress) (r : Request) : Move :=
  .answer (if p.settle.isSome then r else .misuse)

def Move.await (p : Progress) : Move :=
  match p.settle with
  | some p => .awaitDir p
  | none => .answer .misuse

def versionRequest (p : Progress) : Request := if p.command.isNone then .version else .misuse

def shortOptions (p : Progress) : List Char → Move
  | [] => .next p
  | 'h' :: _ => .settled p (.help p.topic)
  | 'V' :: _ => .settled p (versionRequest p)
  | ['C'] => .await p
  | 'C' :: '=' :: value => .ofOption (p.setDir (String.ofList value))
  | 'C' :: value => .ofOption (p.setDir (String.ofList value))
  | _ => .answer .misuse

def longOption (p : Progress) (option : List Char) : Move :=
  let name := String.ofList (option.takeWhile (· ≠ '='))
  match name, option.dropWhile (· ≠ '=') with
  | "dir", [] => .await p
  | "dir", _ :: value => .ofOption (p.setDir (String.ofList value))
  | "help", [] => .settled p (.help p.topic)
  | "version", [] => .settled p (versionRequest p)
  | _, _ => .answer .misuse

def helpRequest : List String → Request
  | [] => .help .program
  | ["help"] => .help .help
  | [name] =>
    match CommandName.ofName? name with
    | some c => .help (.command c)
    | none => .misuse
  | _ => .misuse

def plainArgument (p : Progress) (value : String) (rest : List String) : Move :=
  match p.command with
  | some _ => .ofOption (p.addArgument value)
  | none =>
    if value = "help" then .answer (helpRequest rest)
    else
      match CommandName.ofName? value with
      | some c => .next { p with command := some c }
      | none => .answer .misuse

def readArguments (environment : Option String) : Progress → List String → Request
  | p, [] => p.finish environment
  | p, a :: as =>
    match p.addArgument a with
    | some p => readArguments environment p as
    | none => .misuse

def argument (p : Progress) (a : String) (rest : List String) : Move :=
  match a.toList with
  | ['-', '-'] => .next p
  | '-' :: '-' :: option => longOption p option
  | '-' :: c :: cs => shortOptions p (c :: cs)
  | _ => plainArgument p a rest

def read (environment : Option String) : Progress → List String → Request
  | p, [] => p.finish environment
  | p, [a] =>
    match argument p a [] with
    | .next p => p.finish environment
    | .awaitDir _ => .misuse
    | .answer r => r
  | p, a :: b :: rest =>
    if a = "--" then readArguments environment p (b :: rest)
    else
      match argument p a (b :: rest) with
      | .next p => read environment p (b :: rest)
      | .awaitDir p =>
        if b.toList.head? = some '-' && b ≠ "-" then .misuse
        else
          match p.awaitDir b with
          | some p => read environment p rest
          | none => .misuse
      | .answer r => r

def Request.ofArguments (environment : Option String) (arguments : List String) : Request :=
  read environment .start arguments

end NativeUi.Cli
