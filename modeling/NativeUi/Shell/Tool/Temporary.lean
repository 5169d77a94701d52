import NativeUi.Shell.Tool.Files

/-!
# Temporary files

Files and directories under names that nothing else has yet.
-/
namespace NativeUi.Shell.Tool.Temporary

def lettersOf : Nat → Nat → List Char
  | 0, _ => []
  | width + 1, n => lettersOf width (n / 26) ++ [Char.ofNat ('a'.toNat + n % 26)]

/-- What stands before the last run of marks, the length of the run, and what stands behind. -/
def marks (template : List Char) : List Char × Nat × List Char :=
  let behind := (template.reverse.takeWhile (· ≠ 'X')).reverse
  let start := template.take (template.length - behind.length)
  let run := (start.reverse.takeWhile (· = 'X')).length
  (start.take (start.length - run), run, behind)

def freeName (t : FileTree) (c : Call) (before behind : List Char) (width : Nat) :
    Nat → Nat → String
  | 0, n => String.ofList (before ++ lettersOf width n ++ behind)
  | fuel + 1, n =>
    let name := String.ofList (before ++ lettersOf width n ++ behind)
    if t.pathExists (c.locate name) then freeName t c before behind width fuel (n + 1) else name

def options : Options :=
  (Options.flags "dqutT" [("directory", 'd'), ("dry-run", 'u'), ("quiet", 'q'), ("suffix", 's'),
    ("tmpdir", 'T')]).withValues "ps"

def make (c : Call) (isDirectory : Bool) (name : String) (t : FileTree) :
    Except FileError FileTree := do
  if isDirectory then
    let (start, steps) ← t.route (c.locate name)
    t.createDir start steps
  else t.writeFileWith 0o600 (c.locate name) (.text "")

end Temporary

def mktemp : Tool := withOptions Temporary.options 1 fun c given operands => do
  match operands with
  | _ :: _ :: _ => misuse c 1 "too many templates"
  | operands =>
    let usual := ((c.setting? "TMPDIR").filter (· ≠ "")).getD "/tmp"
    let given? : Option String :=
      match (valueOf? given 'T').filter (· ≠ ""), valueOf? given 'p' with
      | some dir, _ => some dir
      | none, some dir => some dir
      | none, none =>
        if has given 'T' || has given 't' || operands.isEmpty then some usual else none
    let template := operands.headD "tmp.XXXXXXXXXX"
    let path := (given?.elim template fun d => joinName d template) ++ (valueOf? given 's').getD ""
    let (before, width, behind) := Temporary.marks path.toList
    if width < 3 then
      failWith c 1 ("too few X's in template " ++ quote template)
    else
      let t ← getTree
      let name := Temporary.freeName t c before behind width (t.slots.length + 1) 0
      let kind := if has given 'd' then "directory" else "file"
      if has given 'u' then
        printLine name
        return 0
      else
        match Temporary.make c (has given 'd') name t with
        | .ok t =>
          changeTree fun _ => t
          printLine name
          return 0
        | .error e =>
          if has given 'q' then return 1
          else
            failWith c 1 ("failed to create " ++ kind ++ " via template " ++ quote path ++ ": " ++
              e.reason)

end NativeUi.Shell.Tool
