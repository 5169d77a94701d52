import NativeUi.Text.Digits

/-!
# Shell scripts

The commands of a shell script. A word is a list of parts, each of them quoted or not; what they
stand for is known only when the command runs.
-/
namespace NativeUi.Shell

inductive Parameter where
  | named (name : String)
  | positional (index : Nat)
  | all
  | joined
  | count
  | status
  | process
  | job
  | flags
deriving DecidableEq

inductive Form where
  | plain
  | length
  | default (alsoEmpty : Bool)
  | assign (alsoEmpty : Bool)
  | alternative (alsoEmpty : Bool)
  | require (alsoEmpty : Bool)
  | trimStart (longest : Bool)
  | trimEnd (longest : Bool)
  | bad
deriving DecidableEq

inductive Opening where
  | read
  | write
  | overwrite
  | append
  | both
deriving DecidableEq

mutual

inductive Part where
  | text (cs : List Char) (quoted : Bool)
  | parameter (p : Parameter) (form : Form) (argument : List Part) (quoted : Bool)
  | substitution (c : Command) (quoted : Bool)
  | arithmetic (expression : List Part) (quoted : Bool)

/-- A redirection of a descriptor: to a file, to another descriptor, or from a here-document, which
is known by its number. -/
inductive Redirection where
  | file (descriptor : Nat) (opening : Opening) (name : List Part)
  | copy (descriptor : Nat) (source : List Part)
  | document (descriptor : Nat) (number : Nat)

inductive Command where
  | nothing
  | simple (line : Nat) (assignments : List (String × List Part)) (words : List (List Part))
      (redirections : List Redirection)
  | sequence (first second : Command)
  | both (first second : Command)
  | either (first second : Command)
  | negation (c : Command)
  | pipeline (commands : List Command)
  | background (c : Command)
  | subshell (line : Nat) (c : Command) (redirections : List Redirection)
  | redirected (line : Nat) (c : Command) (redirections : List Redirection)
  | branch (condition whenTrue whenFalse : Command)
  | loop (untilTrue : Bool) (condition body : Command)
  | each (line : Nat) (name : String) (words : List (List Part)) (body : Command)
  | choice (line : Nat) (subject : List Part) (cases : List (List (List Part) × Command))
  | function (name : String) (line : Nat) (body : Command)

end

abbrev Word := List Part

abbrev Documents := List (Nat × Word)

def Command.isNothing : Command → Bool
  | .nothing => true
  | _ => false

def Command.andThen : Command → Command → Command
  | .nothing, c => c
  | a, b => .sequence a b

def isBlank (c : Char) : Bool := c = ' ' || c = '\t'

def isNameStart (c : Char) : Bool := c.isAlpha || c = '_'

def isNameChar (c : Char) : Bool := c.isAlphanum || c = '_'

def isName (s : String) : Bool :=
  match s.toList with
  | c :: cs => isNameStart c && cs.all isNameChar
  | [] => false

def splitAssignment? (cs : List Char) : Option (String × List Char) :=
  let name := String.ofList (cs.takeWhile isNameChar)
  match cs.dropWhile isNameChar with
  | '=' :: value => if isName name then some (name, value) else none
  | _ => none

def consChar (c : Char) (quoted : Bool) : List Part → List Part
  | .text cs q :: rest =>
    if q = quoted then .text (c :: cs) q :: rest else .text [c] quoted :: .text cs q :: rest
  | rest => .text [c] quoted :: rest

def assignment? : Word → Option (String × Word)
  | .text cs false :: rest =>
    match splitAssignment? cs with
    | some (name, value) => some (name, if value.isEmpty then rest else .text value false :: rest)
    | none => none
  | _ => none

def plainText? : Word → Option String
  | [.text cs false] => some (String.ofList cs)
  | _ => none

abbrev Aliases := List (String × String)

inductive ScriptFault where
  | unexpected (token : String)
  | unexpectedFor (token expected : String)
  | unclosedQuote
  | unclosedBackquote
  | unclosedBrace
  | unclosedArithmetic
  | badLoopVariable
  | badFunctionName
  | tooDeep

def ScriptFault.message : ScriptFault → String
  | .unexpected token => token ++ " unexpected"
  | .unexpectedFor token expected => token ++ " unexpected (expecting " ++ expected ++ ")"
  | .unclosedQuote => "Unterminated quoted string"
  | .unclosedBackquote => "EOF in backquote substitution"
  | .unclosedBrace => "Missing '\x7d'"
  | .unclosedArithmetic => "Missing '))'"
  | .badLoopVariable => "Bad for loop variable"
  | .badFunctionName => "Bad function name"
  | .tooDeep => "too many levels"

structure ScriptError where
  line : Nat
  fault : ScriptFault

end NativeUi.Shell
