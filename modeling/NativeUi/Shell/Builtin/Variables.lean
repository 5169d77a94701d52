import NativeUi.Shell.Builtin.Basic

/-!
# Commands for variables

Marking, reading and removing variables, the positional parameters and the options of the shell.
-/
namespace NativeUi.Shell.Builtin

open Run

def checkName (name : String) : Run Unit :=
  if isName name then pure () else failWith (name ++ ": bad variable name")

def listVariables (start : String) (marked : Variable → Bool) : Run Unit := do
  let s ← get
  let vs := (s.bindings.filter marked).mergeSort fun a b => a.name.toList ≤ b.name.toList
  forEachOf
    (fun v =>
      match v.value with
      | some x => printLine (start ++ assignmentText v.name x)
      | none => if start.isEmpty then pure () else printLine (start ++ v.name))
    vs

def markVariables (start : String) (marked : Variable → Bool) (mark : Variable → Variable) :
    Builtin := fun _ _ arguments => do
  let (given, names) ← optionsOf "p" "" arguments
  if names.isEmpty || Tool.has given 'p' then listVariables start marked
  else
    forEachOf
      (fun a => do
        let (name, value) := splitArgument a
        checkName name
        match value with
        | some x => changeVariable name fun v => mark { v with value := some x }
        | none =>
          let v ← findVariable? name
          replaceVariable (mark (v.getD ⟨name, none, false, false⟩)))
      names
  succeed

def export_ : Builtin :=
  markVariables "export " Variable.exported fun v => { v with exported := true }

def readonly : Builtin :=
  markVariables "readonly " Variable.readOnly fun v => { v with readOnly := true }

def unset : Builtin := fun _ _ arguments => do
  let (given, names) ← optionsOf "vf" "" arguments
  forEachOf
    (fun name => do
      if Tool.has given 'f' then
        modify fun s => { s with functions := s.functions.filter fun f => f.1 != name }
      else
        checkName name
        let v ← findVariable? name
        match v with
        | none => pure ()
        | some v =>
          if v.readOnly then failWith (name ++ ": is read only") else removeVariable name)
    names
  succeed

def local_ : Builtin := fun _ _ arguments => do
  let s ← get
  if s.functionDepth = 0 then failWith "not in a function"
  else
    forEachOf
      (fun a => do
        let (name, value) := splitArgument a
        checkName name
        let v ← findVariable? name
        modify fun s =>
          if s.locals.any fun x => x.1 == name then s
          else { s with locals := (name, v) :: s.locals }
        match value with
        | some x => assign name x
        | none => replaceVariable (v.getD ⟨name, none, false, false⟩))
      arguments
    succeed

/-! ### Options of the shell -/

def optionNames : List (String × Char) := [
  ("errexit", 'e'), ("noglob", 'f'), ("ignoreeof", 'I'), ("interactive", 'i'), ("monitor", 'm'),
  ("noexec", 'n'), ("stdin", 's'), ("xtrace", 'x'), ("verbose", 'v'), ("vi", 'V'),
  ("emacs", 'E'), ("noclobber", 'C'), ("allexport", 'a'), ("notify", 'b'), ("nounset", 'u'),
  ("privileged", 'p'), ("nolog", '\x01'), ("debug", '\x02')]

def setOption (on : Bool) (c : Char) : Run Unit :=
  if optionNames.any fun x => x.2 == c then
    modify fun s =>
      let others := s.options.filter fun x => x != c
      { s with options := if on then c :: others else others }
  else failWith ("Illegal option -" ++ c.toString)

def listOptions (on : Bool) : Run Unit := do
  let s ← get
  if on then printLine "Current option settings"
  forEachOf
    (fun (name, c) =>
      let isSet := s.options.contains c
      if on then
        printLine (name ++ Text.spaces (16 - name.length) ++ if isSet then "on" else "off")
      else printLine ("set " ++ (if isSet then "-o " else "+o ") ++ name))
    optionNames

def setNamedOption (on : Bool) (name : String) : Run Unit :=
  match optionNames.find? fun x => x.1 == name with
  | some x => setOption on x.2
  | none => failWith ("Illegal option " ++ (if on then "-" else "+") ++ "o " ++ name)

def setLetters (on : Bool) : List Char → Run Bool
  | [] => return false
  | 'o' :: cs => do
    let _ ← setLetters on cs
    return true
  | c :: cs => do
    setOption on c
    setLetters on cs

/-- Takes the options of the shell from arguments; none as the rest if there are no others. -/
def takeOptions : Nat → List String → Run (Option (List String))
  | 0, rest => return some rest
  | fuel + 1, arguments => do
    match arguments with
    | [] => return none
    | a :: rest =>
      match a.toList with
      | ['-'] =>
        setOption false 'x'
        setOption false 'v'
        return if rest.isEmpty then none else some rest
      | ['-', '-'] => return some rest
      | c :: letters =>
        if c = '-' || c = '+' then
          let waits ← setLetters (c = '-') letters
          if waits then
            match rest with
            | [] =>
              listOptions (c = '-')
              return none
            | name :: rest =>
              setNamedOption (c = '-') name
              takeOptions fuel rest
          else takeOptions fuel rest
        else return some arguments
      | [] => return some arguments

def set_ : Builtin := fun _ _ arguments => do
  if arguments.isEmpty then listVariables "" fun _ => true
  else
    let rest ← takeOptions (arguments.length + 1) arguments
    match rest with
    | some rest => modify fun s => { s with arguments := rest, optionPlace := 0 }
    | none => pure ()
  succeed

/-! ### Reading -/

/-- A line of input: its characters, each with whether a backslash protects it, the rest of the
input, and whether the line has an end. -/
def scanLine (raw : Bool) : List Char → List (Char × Bool) × List Char × Bool
  | [] => ([], [], false)
  | '\n' :: rest => ([], rest, true)
  | '\\' :: cs =>
    if raw then
      let (line, rest, ended) := scanLine raw cs
      (('\\', false) :: line, rest, ended)
    else
      match cs with
      | [] => ([], [], false)
      | '\n' :: cs => scanLine raw cs
      | c :: cs =>
        let (line, rest, ended) := scanLine raw cs
        ((c, true) :: line, rest, ended)
  | c :: cs =>
    let (line, rest, ended) := scanLine raw cs
    ((c, false) :: line, rest, ended)

namespace Field

def isSeparator (separators : List Char) (x : Char × Bool) : Bool :=
  !x.2 && separators.contains x.1

def isBlankSeparator (separators : List Char) (x : Char × Bool) : Bool :=
  isSeparator separators x && (isBlank x.1 || x.1 = '\n')

def skipBlanks (separators : List Char) (xs : List (Char × Bool)) : List (Char × Bool) :=
  xs.dropWhile (isBlankSeparator separators)

def first (separators : List Char) (xs : List (Char × Bool)) :
    List (Char × Bool) × List (Char × Bool) :=
  let field := xs.takeWhile fun x => !isSeparator separators x
  let rest := skipBlanks separators (xs.dropWhile fun x => !isSeparator separators x)
  match rest with
  | x :: more =>
    if isSeparator separators x then (field, skipBlanks separators more) else (field, rest)
  | [] => (field, [])

def textOf (xs : List (Char × Bool)) : String := String.ofList (xs.map Prod.fst)

/-- What is left for the last name: one field without its separator, or all of them as they are. -/
def last (separators : List Char) (xs : List (Char × Bool)) : String :=
  let (field, rest) := first separators xs
  if rest.isEmpty then textOf field
  else textOf (xs.reverse.dropWhile (isBlankSeparator separators)).reverse

end Field

def assignFields (separators : List Char) : List String → List (Char × Bool) → Run Unit
  | [], _ => pure ()
  | [name], xs => assign name (Field.last separators xs)
  | name :: names, xs => do
    let (field, rest) := Field.first separators xs
    assign name (Field.textOf field)
    assignFields separators names rest

def read : Builtin := fun _ _ arguments => do
  let (given, names) ← optionsOf "r" "p" arguments
  if names.isEmpty then failWith "arg count"
  else
    forEachOf checkName names
    let input ← inputLeft
    let (line, rest, ended) := scanLine (Tool.has given 'r') input.toList
    leaveInput (String.ofList rest)
    let separators ← separators
    assignFields separators.toList names (Field.skipBlanks separators.toList line)
    setStatus (if ended then 0 else 1)

/-! ### Options of scripts -/

/-- What is known of an option letter: whether it takes a value; none if it is unknown. -/
def letterTakesValue? (letters : List Char) (c : Char) : Option Bool :=
  if c = ':' then none
  else
    match letters.dropWhile (· ≠ c) with
    | [] => none
    | _ :: ':' :: _ => some true
    | _ => some false

def setIndex (n place : Nat) : Run Unit := do
  assign "OPTIND" (Text.decimal n)
  modify fun s => { s with optionPlace := place }

def reportOption (letters : List Char) (name : String) (index place : Nat) (c : Char)
    (more : List Char) (rest : List String) : Run Unit := do
  let silent := letters.head? = some ':'
  let step : Run Unit := if more.isEmpty then setIndex (index + 1) 0 else setIndex index (place + 1)
  match letterTakesValue? letters c with
  | none =>
    if silent then assign "OPTARG" c.toString
    else
      printTo 2 ("Illegal option -" ++ c.toString ++ "\n")
      removeVariable "OPTARG"
    step
    assign name "?"
    setStatus 0
  | some false =>
    step
    removeVariable "OPTARG"
    assign name c.toString
    setStatus 0
  | some true =>
    match more, rest with
    | _ :: _, _ =>
      assign "OPTARG" (String.ofList more)
      setIndex (index + 1) 0
      assign name c.toString
    | [], v :: _ =>
      assign "OPTARG" v
      setIndex (index + 2) 0
      assign name c.toString
    | [], [] =>
      setIndex (index + 1) 0
      if silent then
        assign "OPTARG" c.toString
        assign name ":"
      else
        printTo 2 ("No arg for -" ++ c.toString ++ " option\n")
        removeVariable "OPTARG"
        assign name "?"
    setStatus 0

def getopts : Builtin := fun _ _ arguments => do
  match arguments with
  | letters :: name :: words =>
    let s ← get
    let words := if words.isEmpty then s.arguments else words
    let index ← valueOr "OPTIND" "1"
    let index := max ((Tool.natural? index).getD 1) 1
    let finish (n : Nat) : Run Unit := do
      setIndex n 0
      assign name "?"
      setStatus 1
    match words.drop (index - 1) with
    | [] => finish index
    | w :: rest =>
      let cs := w.toList.drop (max s.optionPlace 1)
      if s.optionPlace = 0 && (w.toList.head? ≠ some '-' || w.length < 2) then finish index
      else if s.optionPlace = 0 && w = "--" then finish (index + 1)
      else
        match cs with
        | [] => finish index
        | c :: more =>
          reportOption letters.toList name index (max s.optionPlace 1) c more rest
  | _ => failWith "Usage: getopts optstring var [arg...]"

end NativeUi.Shell.Builtin
