import NativeUi.Shell.Tool.Modes

/-!
# Listings

What stands in directories, and what is known of files.
-/
namespace NativeUi.Shell.Tool

def indicator (given : List Given) (e : Entry) : String :=
  match e with
  | .directory => if has given 'p' || has given 'F' then "/" else ""
  | .file _ rights => if rights.runs && has given 'F' then "*" else ""
  | .link _ => if has given 'F' && !has given 'l' then "@" else ""

def sizeOfEntry : Entry → Nat
  | .directory => 4096
  | .file content _ => content.size
  | .link target => target.utf8ByteSize

def permissions : Entry → String
  | .directory => "drwxr-xr-x"
  | .file _ rights => "-" ++ rightsText rights
  | .link _ => "lrwxrwxrwx"

/-- How many names a file has; those of a directory are in it and in the directories below. -/
def nameCount (t : FileTree) (p : Place) : Entry → Nat
  | .directory => ((t.children p).filter fun x => x.2 = .directory).length + 2
  | _ => max 1 (t.namesOf p).length

structure Item where
  name : String
  place : Place
  entry : Entry

def arrange (given : List Given) (items : List Item) : List Item :=
  let byName := items.mergeSort fun a b => a.name.toList ≤ b.name.toList
  let sorted :=
    if has given 'U' || has given 'f' then items
    else if has given 'S' then
      byName.mergeSort fun a b => sizeOfEntry b.entry ≤ sizeOfEntry a.entry
    else byName
  if has given 'r' then sorted.reverse else sorted

def blockCount (e : Entry) : Nat :=
  match e with
  | .link _ => 0
  | e => (sizeOfEntry e + 4095) / 4096 * 4

def longLine (t : FileTree) (widths : Nat × Nat) (i : Item) : String :=
  permissions i.entry ++ " " ++ padLeft widths.1 (Text.decimal (nameCount t i.place i.entry)) ++
    " root root " ++ padLeft widths.2 (Text.decimal (sizeOfEntry i.entry)) ++ " Jan  1 00:00 "

def printNames (given : List Given) (items : List Item) : Work Unit := do
  let t ← getTree
  let number (i : Item) : String :=
    if has given 'i' then
      Text.decimal (t.slots.findIdx (fun h => t.sameFile h.place i.place) + 100) ++ " "
    else ""
  let shown (i : Item) : String :=
    let name := if has given 'Q' then "\"" ++ i.name ++ "\"" else i.name
    match i.entry with
    | .link target =>
      if has given 'l' then name ++ " -> " ++ Octets.ofString target
      else name ++ indicator given i.entry
    | e => name ++ indicator given e
  let widest (f : Item → Nat) : Nat :=
    (items.map fun i => (Text.decimal (f i)).length).foldl max 0
  let widths := (widest fun i => nameCount t i.place i.entry, widest fun i => sizeOfEntry i.entry)
  if has given 'l' then
    forM items fun i => printLine (number i ++ longLine t widths i ++ shown i)
  else if has given 'm' then
    if items.isEmpty then pure () else printLine (", ".intercalate (items.map shown))
  else forM items fun i => printLine (number i ++ shown i)

def listed (given : List Given) (t : FileTree) (p : Place) : List Item :=
  let seen (n : String) (e : Entry) : Entry :=
    if has given 'L' then
      match t.follow true FileTree.linkLimit [] ((p ++ [n]).map .name) with
      | .ok (_, e) => e
      | .error _ => e
    else e
  let children : List Item :=
    (t.children p).map fun x => ⟨Octets.ofString x.1, p ++ [x.1], seen x.1 x.2⟩
  let all := has given 'a' || has given 'f'
  let visible := children.filter fun i => all || has given 'A' || i.name.toList.head? ≠ some '.'
  arrange given
    (if all then ⟨".", p, .directory⟩ :: ⟨"..", p.dropLast, .directory⟩ :: visible else visible)

/-- Lists a directory, and those below it if that is asked for. Each but the first comes behind an
empty line. -/
def listDirectory (given : List Given) (headed : Bool) : Nat → Bool → String → Place → Work Unit
  | 0, _, _, _ => pure ()
  | fuel + 1, first, name, p => do
    let t ← getTree
    let items := listed given t p
    if headed then print ((if first then "" else "\n") ++ name ++ ":\n")
    if has given 'l' || has given 's' then
      printLine ("total " ++ Text.decimal ((items.map fun i => blockCount i.entry).foldl (· + ·) 0))
    printNames given items
    if has given 'R' then
      forM items fun i =>
        match i.entry with
        | .directory =>
          if i.name = "." || i.name = ".." then pure ()
          else listDirectory given headed fuel false (joinName name i.name) i.place
        | _ => pure ()

def listDirectories (given : List Given) (headed : Bool) :
    Bool → List (String × Place) → Work Unit
  | _, [] => pure ()
  | first, (name, p) :: rest => do
    listDirectory given headed (p.length + 200) first name p
    listDirectories given headed false rest

def ls : Tool :=
  withOptions ((Options.flags "aAlRFpr1tSdChixmnsgoQUfckuLHGNqXvBDZ"
    [("all", 'a'), ("almost-all", 'A'), ("recursive", 'R'), ("classify", 'F'), ("reverse", 'r'),
      ("directory", 'd'), ("color", 'G'), ("quote-name", 'Q')]).withValues "IwT")
    2 fun c given operands => do
    let names := if operands.isEmpty then ["."] else operands
    let names := names.mergeSort fun a b => a.toList ≤ b.toList
    let t ← getTree
    let follows := has given 'L' || has given 'H' ||
      !(has given 'l' || has given 'd' || has given 'F')
    let seek (n : String) : Except FileError (Place × Entry) :=
      match t.find (c.locate n), t.findNamed (c.locate n) with
      | .ok (p, .directory), named => if follows then .ok (p, .directory) else named
      | found, named => if has given 'L' then found else named
    let found := names.map fun n => (n, seek n)
    let status ← forEach
      (fun (x : String × Except FileError (Place × Entry)) =>
        match x.2 with
        | .ok _ => pure 0
        | .error e => failWith c 2 ("cannot access " ++ quote x.1 ++ ": " ++ e.reason))
      found
    let isListed (e : Entry) : Bool :=
      match e with
      | .directory => !has given 'd'
      | _ => false
    let files := found.filterMap fun x =>
      match x.2 with
      | .ok (p, e) => if isListed e then none else some (⟨x.1, p, e⟩ : Item)
      | .error _ => none
    let directories := found.filterMap fun x =>
      match x.2 with
      | .ok (p, e) => if isListed e then some (x.1, p) else none
      | .error _ => none
    let directories := if has given 'r' then directories.reverse else directories
    printNames given (arrange given files)
    listDirectories given (1 < names.length || has given 'R') files.isEmpty directories
    return status

/-! ### Facts about files -/

def fact (t : FileTree) (name : String) (p : Place) (e : Entry) (c : Char) : String :=
  match c with
  | 'n' => name
  | 'N' =>
    match e with
    | .link target => quote name ++ " -> " ++ quote (Octets.ofString target)
    | _ => quote name
  | 's' => Text.decimal (sizeOfEntry e)
  | 'F' => kindOf e
  | 'a' =>
    match e with
    | .file _ rights => String.ofList (Nat.toDigits 8 rights)
    | .directory => "755"
    | .link _ => "777"
  | 'A' => permissions e
  | 'U' => "root"
  | 'G' => "root"
  | 'u' => "0"
  | 'g' => "0"
  | 'h' => Text.decimal (nameCount t p e)
  | '%' => "%"
  | _ => "?"

def factsOf (directive : Char → String) (escapes : Bool) : List Char → List Char
  | [] => []
  | '%' :: c :: cs => (directive c).toList ++ factsOf directive escapes cs
  | '\\' :: 'n' :: cs =>
    if escapes then '\n' :: factsOf directive escapes cs
    else '\\' :: 'n' :: factsOf directive escapes cs
  | c :: cs => c :: factsOf directive escapes cs

def stat : Tool :=
  withOptions
    ((Options.flags "Lft" [("dereference", 'L'), ("format", 'c'), ("printf", 'P')]).withValues
    "cP") 1 fun c given operands => do
    if operands.isEmpty then misuse c 1 "missing operand"
    else
      forEach
        (fun name => do
          let found ← if has given 'L' then look c name else lookNamed c name
          let t ← getTree
          match found with
          | .error e => failWith c 1 ("cannot statx " ++ quote name ++ ": " ++ e.reason)
          | .ok (p, e) =>
            match valueOf? given 'c', valueOf? given 'P' with
            | some format, _ =>
              printLine (String.ofList (factsOf (fact t name p e) false format.toList))
              return 0
            | none, some format =>
              print (String.ofList (factsOf (fact t name p e) true format.toList))
              return 0
            | none, none =>
              printLine ("  File: " ++ name)
              return 0)
        operands

end NativeUi.Shell.Tool
