import NativeUi.Shell.Builtin.Basic

/-!
# Commands for aliases

Aliases are listed by a number that their names have, and those with the same number in the order in
which they were made.
-/
namespace NativeUi.Shell.Builtin

open Run

def aliasGroups : Nat := 39

def aliasGroup (name : String) : Nat :=
  let codes := name.toList.map Char.toNat
  (codes.headD 0 * 16 + codes.foldl (· + ·) 0) % aliasGroups

def setAlias (name value : String) : Aliases → Aliases
  | [] => [(name, value)]
  | x :: xs => if x.1 == name then (name, value) :: xs else x :: setAlias name value xs

def splitAlias (a : String) : String × Option String :=
  match a.toList with
  | [] => ("", none)
  | c :: cs =>
    let (name, value) := splitArgument (String.ofList cs)
    (String.ofList [c] ++ name, value)

def alias_ : Builtin := fun _ _ arguments => do
  let s ← get
  setStatus 0
  if arguments.isEmpty then
    forEachOf (fun (x : String × String) => printLine (assignmentText x.1 x.2))
      (s.aliases.mergeSort fun a b => aliasGroup a.1 ≤ aliasGroup b.1)
  else
    forEachOf
      (fun a => do
        let s ← get
        match splitAlias a with
        | (name, some value) => set { s with aliases := setAlias name value s.aliases }
        | (name, none) =>
          match s.aliases.find? fun x => x.1 == name with
          | some x => printLine (assignmentText x.1 x.2)
          | none =>
            printTo 2 ("alias: " ++ name ++ " not found\n")
            setStatus 1)
      arguments

def unalias : Builtin := fun _ _ arguments => do
  let (given, names) ← optionsOf "a" "" arguments
  setStatus 0
  if Tool.has given 'a' then modify fun s => { s with aliases := [] }
  else
    forEachOf
      (fun name => do
        let s ← get
        if s.aliases.any fun x => x.1 == name then
          set { s with aliases := s.aliases.filter fun x => x.1 != name }
        else
          printTo 2 ("unalias: " ++ name ++ " not found\n")
          setStatus 1)
      names

end NativeUi.Shell.Builtin
