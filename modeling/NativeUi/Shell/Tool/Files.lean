import NativeUi.Shell.Tool.Modes

/-!
# Tools for files

Making, copying, moving and removing files and directories.
-/
namespace NativeUi.Shell.Tool

def overOperands (c : Call) (missing : String) (operands : List String)
    (f : String → Work Nat) : Work Nat :=
  if operands.isEmpty then misuse c 1 missing else forEach f operands

def attempt (c : Call) (message : String) (change : FileTree → Except FileError FileTree) :
    Work Bool := do
  let t ← getTree
  match change t with
  | .ok t =>
    setTree t
    return true
  | .error e =>
    complain c (message ++ ": " ++ e.reason)
    return false

def statusOf (success : Bool) : Nat := if success then 0 else 1

/-! ### Directories -/

def makeParents (c : Call) (verbose : Bool) (start : String) : List String → Work Nat
  | [] => return 0
  | name :: names => do
    let path := start ++ name
    let found ← look c path
    let shown := "cannot create directory " ++ quote path
    let andMore : Work Nat := makeParents c verbose (path ++ "/") names
    match found with
    | .ok (_, .directory) => andMore
    | .ok _ => failWith c 1 (shown ++ ": " ++
        (if names.all String.isEmpty then FileError.alreadyExists else .notADirectory).reason)
    | .error _ =>
      let made ← attempt c shown fun t => t.createDir [] (c.locate path).steps
      if made then
        if verbose then printLine (c.name ++ ": created directory " ++ quote path)
        andMore
      else return 1

def mkdir : Tool :=
  withOptions
    ((Options.flags "pvZ" [("parents", 'p'), ("verbose", 'v'), ("mode", 'm')]).withValues "m")
    1 fun c given operands =>
    overOperands c "missing operand" operands fun name => do
      if has given 'p' && !name.isEmpty then
        let start := String.ofList (name.toList.takeWhile (· = '/'))
        let rest := (String.ofList (name.toList.dropWhile (· = '/'))).splitOn "/"
        makeParents c (has given 'v') start (rest.filter fun s => !s.isEmpty)
      else
        let made ← attempt c ("cannot create directory " ++ quote name) fun t => do
          let (start, steps) ← t.route (c.locate name)
          t.createDir start steps
        if made && has given 'v' then printLine (c.name ++ ": created directory " ++ quote name)
        return statusOf made

def removeEmpty (t : FileTree) (p : Path) : Except FileError FileTree := do
  let (place, e) ← t.findNamed p
  match e with
  | .directory => if (t.children place).isEmpty then .ok (t.prune place) else .error .notEmpty
  | _ => .error .notADirectory

def removeParents (c : Call) : Nat → String → Work Nat
  | 0, _ => return 0
  | fuel + 1, name => do
    let parent := parentName name
    if parent = "." || parent = "/" then return 0
    else
      let t ← getTree
      match removeEmpty t (c.locate parent) with
      | .ok t =>
        setTree t
        removeParents c fuel parent
      | .error e =>
        let kind := if e = .notADirectory then "" else "directory "
        failWith c 1 ("failed to remove " ++ kind ++ quote parent ++ ": " ++ e.reason)

def rmdir : Tool :=
  withOptions (.flags "pvi"
    [("parents", 'p'), ("verbose", 'v'), ("ignore-fail-on-non-empty", 'i')])
    1 fun c given operands =>
    overOperands c "missing operand" operands fun name => do
      if has given 'v' then printLine (c.name ++ ": removing directory, " ++ quote name)
      let t ← getTree
      let removed := if isSlashedLink t c name && t.isDirectory (c.locate name) then
          .error (.other "Symbolic link not followed")
        else removeEmpty t (c.locate name)
      match removed with
      | .ok t =>
        setTree t
        if has given 'p' then removeParents c name.length name else return 0
      | .error e =>
        if e = .notEmpty && has given 'i' then return 0
        else failWith c 1 ("failed to remove " ++ quote name ++ ": " ++ e.reason)

/-! ### Removing -/

def removalNotes (name : String) (below : List (Place × Entry)) : List String :=
  below.reverse.map fun x =>
    match x.2 with
    | .directory => "removed directory " ++ quote (pathBelow name x.1)
    | _ => "removed " ++ quote (pathBelow name x.1)

def rm : Tool :=
  withOptions (.flags "rRfvidIo"
    [("recursive", 'r'), ("force", 'f'), ("verbose", 'v'), ("dir", 'd'), ("preserve-root", 'o'),
      ("one-file-system", 'o')])
    1 fun c given operands => do
    let recursive := has given 'r' || has given 'R'
    let force := has given 'f'
    if operands.isEmpty && force then return 0
    else
      overOperands c "missing operand" operands fun name => do
        let shown := "cannot remove " ++ quote name ++ ": "
        let last := lastName name
        let found ← lookNamed c name
        match found with
        | .error e =>
          if force && (e = .notFound || e = .notADirectory) then return 0
          else failWith c 1 (shown ++ e.reason)
        | .ok (place, .directory) =>
          let t ← getTree
          let below := entriesBelow t place
          if !recursive && !has given 'd' then failWith c 1 (shown ++ FileError.isADirectory.reason)
          else if isSlashedLink t c name then
            if recursive then
              setTree ((t.children place).foldl (fun t x => t.prune (place ++ [x.1])) t)
            failWith c 1 (shown ++ FileError.notADirectory.reason)
          else if last = "." || last = ".." then
            failWith c 1 ("refusing to remove '.' or '..' directory: skipping " ++ quote name)
          else if place = [] then
            failWith c 1 "it is dangerous to operate recursively on '/'"
          else if !recursive && !below.isEmpty then
            failWith c 1 (shown ++ FileError.notEmpty.reason)
          else
            setTree (t.prune place)
            if has given 'v' then
              forEach
                (fun note => do
                  printLine note
                  return 0)
                (removalNotes name below ++ ["removed directory " ++ quote name])
            else return 0
        | .ok (place, entry) =>
          let agreed ←
            if has given 'i' && !force then
              confirm c ("remove " ++ kindOf entry ++ " " ++ quote name)
            else pure true
          if agreed then
            changeTree fun t => t.prune place
            if has given 'v' then printLine ("removed " ++ quote name)
          return 0

def unlink : Tool := withOptions (.flags "" []) 1 fun c _ operands =>
  match operands with
  | [] => misuse c 1 "missing operand"
  | [name] => do
    let removed ← attempt c ("cannot unlink " ++ quote name)
      fun t => t.removeFile (c.locate name)
    return statusOf removed
  | _ :: extra :: _ => misuse c 1 ("extra operand " ++ quote extra)

/-! ### Targets -/

/-- The pairs of names that operands ask for: one onto another, or several into a directory. A link
to a directory counts as one if `follows` says so. -/
def pairsOf (c : Call) (follows : Bool) (given : List Given) (operands : List String) :
    Work (Except Nat (List (String × String))) := do
  let into (dir : String) (names : List String) : List (String × String) :=
    names.map fun n => (n, joinName dir (lastName n))
  let isDirectory (name : String) : Work Bool := do
    let found ← if follows then look c name else lookNamed c name
    match found with
    | .ok (_, .directory) => return true
    | _ => return false
  let faulty (message : String) : Work (Except Nat (List (String × String))) := do
    let n ← failWith c 1 message
    return .error n
  match valueOf? given 't', operands with
  | _, [] =>
    let n ← misuse c 1 "missing file operand"
    return .error n
  | some dir, names =>
    let found ← look c dir
    match found with
    | .ok (_, .directory) => return .ok (into dir names)
    | .ok _ => faulty ("target directory " ++ quote dir ++ ": " ++ FileError.notADirectory.reason)
    | .error e => faulty ("target directory " ++ quote dir ++ ": " ++ e.reason)
  | none, [a] =>
    let n ← misuse c 1 ("missing destination file operand after " ++ quote a)
    return .error n
  | none, [a, b] =>
    let within ← isDirectory b
    return .ok (if within && !has given 'T' then into b [a] else [(a, b)])
  | none, names =>
    let dir := names.getLastD ""
    if has given 'T' then
      let n ← misuse c 1 ("extra operand " ++ quote ((names[2]?).getD ""))
      return .error n
    else
      let found ← look c dir
      match found with
      | .ok (_, .directory) => return .ok (into dir names.dropLast)
      | .ok _ => faulty ("target " ++ quote dir ++ ": " ++ FileError.notADirectory.reason)
      | .error e => faulty ("target " ++ quote dir ++ ": " ++ e.reason)

def overPairs (c : Call) (follows : Bool) (given : List Given) (operands : List String)
    (f : String → String → Work Nat) : Work Nat := do
  let pairs ← pairsOf c follows given operands
  match pairs with
  | .error n => return n
  | .ok pairs => forEach (fun x => f x.1 x.2) pairs

/-! ### Copying -/

def note (verbose : Bool) (text : String) : Work Unit :=
  if verbose then printLine text else pure ()

def copyRights (c : Call) (given : List Given) (rights : Rights) : Rights :=
  if has given 'p' || has given 'a' then rights else c.newRights rights

def mayOverwrite (c : Call) (given : List Given) (onto : String) : Work Bool :=
  if has given 'i' then confirm c ("overwrite " ++ quote onto) else pure true

def placeLink (c : Call) (given : List Given) (target from_ onto : String) : Work Nat := do
  let t ← getTree
  let put (t : FileTree) : Work Nat := do
    match t.newPlace (c.locate onto) with
    | .error e =>
      failWith c 1 ("cannot create symbolic link " ++ quote onto ++ ": " ++ e.reason)
    | .ok q =>
      setTree (t.put q (.link target))
      note (has given 'v') (quote from_ ++ " -> " ++ quote onto)
      return 0
  match t.findNamed (c.locate onto) with
  | .ok (_, .directory) =>
    failWith c 1 ("cannot overwrite directory " ++ quote onto ++ " with non-directory")
  | .ok (q, _) =>
    if has given 'n' then return 0
    else
      let agreed ← mayOverwrite c given onto
      if agreed then put (t.prune q) else return 1
  | .error _ => put t

/-- Copies a file to a name, which may get a second name of the file or a link to it instead. -/
def copyFile (c : Call) (given : List Given) (source : Place × Entry) (from_ onto : String) :
    Work Nat := do
  let (place, entry) := source
  let done : Work Nat := do
    note (has given 'v') (quote from_ ++ " -> " ++ quote onto)
    return 0
  let create (content : Content) (rights : Rights) : Work Nat := do
    let t ← getTree
    let placeOf (name : String) : Option Place := (t.find (c.locate name)).toOption.map Prod.fst
    let elsewhere := from_.toList.head? ≠ some '/' && placeOf (parentName onto) ≠ placeOf "."
    let result :=
      if has given 'l' then (t.newPlace (c.locate onto)).map fun q => t.share place q
      else if has given 's' then
        (t.newPlace (c.locate onto)).map fun q => t.put q (.link (Octets.toText from_))
      else t.writeFileWith (copyRights c given rights) (c.locate onto) content
    match result with
    | .error e =>
      failWith c 1 ("cannot create regular file " ++ quote onto ++ ": " ++
        (if endsInSlash onto then FileError.notADirectory else e).reason)
    | .ok t =>
      if has given 's' && elsewhere then
        failWith c 1 (onto ++ ": can make relative symbolic links only in current directory")
      else
        setTree t
        done
  match entry with
  | .file content rights =>
    let t ← getTree
    match t.find (c.locate onto), t.findNamed (c.locate onto) with
    | .ok (q, .file _ old), named =>
      if t.sameFile q place then
        failWith c 1 (quote from_ ++ " and " ++ quote onto ++ " are the same file")
      else if has given 'n' then return 0
      else if q = nullDevice then return 0
      else
        let agreed ← mayOverwrite c given onto
        let preserves := has given 'p' || has given 'a'
        if !agreed then return 1
        else if has given 'l' || has given 's' || has given 'D' then
          match named with
          | .ok (name, _) => setTree (t.prune name)
          | .error _ => pure ()
          create content rights
        else
          setTree (t.fill q content (if preserves then rights else old))
          done
    | .ok _, _ =>
      failWith c 1 ("cannot overwrite directory " ++ quote onto ++ " with non-directory")
    | .error .notADirectory, _ =>
      failWith c 1 ("cannot stat " ++ quote onto ++ ": " ++ FileError.notADirectory.reason)
    | .error .tooManyLinks, _ =>
      failWith c 1 ("cannot stat " ++ quote onto ++ ": " ++ FileError.tooManyLinks.reason)
    | .error _, .ok (_, .link _) =>
      failWith c 1 ("not writing through dangling symlink " ++ quote onto)
    | .error _, _ => create content rights
  | .link target => placeLink c given target from_ onto
  | .directory => return 0

def copyBelow (c : Call) (given : List Given) (from_ onto : String) (source target : Place) :
    List (Place × Entry) → Work Nat
  | [] => return 0
  | (p, e) :: rest => do
    let a := pathBelow from_ p
    let b := pathBelow onto p
    let q := target ++ p
    let t ← getTree
    let status ←
      match e, t.get? q with
      | .directory, some .directory => pure 0
      | .directory, some _ =>
        failWith c 1 ("cannot overwrite non-directory " ++ quote b ++ " with directory " ++ quote a)
      | .directory, none => do
        setTree (t.put q .directory)
        note (has given 'v') (quote a ++ " -> " ++ quote b)
        pure 0
      | .link target, _ =>
        if has given 'L' then
          failWith c 1 ("cannot stat " ++ quote a ++ ": " ++ FileError.notFound.reason)
        else copyFile c given (source ++ p, .link target) a b
      | e, _ => copyFile c given (source ++ p, e) a b
    let more ← copyBelow c given from_ onto source target rest
    return max status more

def brokenBelow (t : FileTree) (place : Place) : List (Place × Entry) :=
  (entriesBelow t place).filter fun x =>
    match x.2, t.follow true FileTree.linkLimit [] ((place ++ x.1).map .name) with
    | .link _, .error _ => true
    | _, _ => false

def copyDirectory (c : Call) (given : List Given) (place : Place) (from_ onto : String) :
    Work Nat := do
  let t ← getTree
  let below :=
    if has given 'L' then
      (t.below (t.slots.length + 1) [place] place ++ brokenBelow t place).mergeSort
        fun a b => a.1 ≤ b.1
    else entriesBelow t place
  let run (target : Place) : Work Nat := do
    let within := place.isPrefixOf target && target ≠ place
    let inner := target.drop place.length
    let kept := if within then below.filter fun x => !inner.isPrefixOf x.1 else below
    let status ← copyBelow c given from_ onto place target kept
    if within then
      failWith c 1 ("cannot copy a directory, " ++ quote from_ ++ ", into itself, " ++ quote onto)
    else return status
  match t.findNamed (c.locate onto) with
  | .ok (target, .directory) =>
    if target = place then
      failWith c 1 (quote from_ ++ " and " ++ quote onto ++ " are the same file")
    else run target
  | .ok _ =>
    failWith c 1
      ("cannot overwrite non-directory " ++ quote onto ++ " with directory " ++ quote from_)
  | .error _ =>
    let made ← attempt c ("cannot create directory " ++ quote onto)
      fun t => t.createDir [] (c.locate onto).steps
    if made then
      note (has given 'v') (quote from_ ++ " -> " ++ quote onto)
      let t ← getTree
      match t.find (c.locate onto) with
      | .ok (target, _) => run target
      | .error _ => return 1
    else return 1

def followsLinks (given : List Given) : Bool :=
  let recursive := has given 'r' || has given 'R' || has given 'a'
  match given.reverse.find? fun x => ['P', 'd', 'a', 'L', 'H'].contains x.1 with
  | some x => x.1 = 'L' || x.1 = 'H'
  | none => !recursive || has given 'l'

def copyOne (c : Call) (given : List Given) (from_ onto : String) : Work Nat := do
  let recursive := has given 'r' || has given 'R' || has given 'a'
  let found ← if followsLinks given then look c from_ else lookNamed c from_
  match found with
  | .error e => failWith c 1 ("cannot stat " ++ quote from_ ++ ": " ++ e.reason)
  | .ok (place, .directory) =>
    if recursive then copyDirectory c given place from_ onto
    else failWith c 1 ("-r not specified; omitting directory " ++ quote from_)
  | .ok source => copyFile c given source from_ onto

def cp : Tool :=
  withOptions ((Options.flags "rRafvnupdPHLilsTxbD"
    [("recursive", 'r'), ("archive", 'a'), ("force", 'f'), ("verbose", 'v'), ("no-clobber", 'n'),
      ("update", 'u'), ("preserve", 'p'), ("no-target-directory", 'T'), ("target-directory", 't'),
      ("no-dereference", 'P'), ("dereference", 'L'), ("link", 'l'), ("symbolic-link", 's'),
      ("remove-destination", 'D'), ("interactive", 'i')]).withValues "tS")
    1 fun c given operands => overPairs c true given operands (copyOne c given)

/-! ### Moving -/

def moveOne (c : Call) (given : List Given) (from_ onto : String) : Work Nat := do
  let t ← getTree
  let cannotMove (e : FileError) : Work Nat :=
    failWith c 1 ("cannot move " ++ quote from_ ++ " to " ++ quote onto ++ ": " ++ e.reason)
  let same : Work Nat :=
    failWith c 1 (quote from_ ++ " and " ++ quote onto ++ " are the same file")
  let move (p q : Place) : Work Nat := do
    setTree (t.move p q)
    note (has given 'v') ("renamed " ++ quote from_ ++ " -> " ++ quote onto)
    return 0
  match t.findNamed (c.locate from_) with
  | .error e => failWith c 1 ("cannot stat " ++ quote from_ ++ ": " ++ e.reason)
  | .ok (p, entry) =>
    let last := lastName from_
    if last = "." || last = ".." then cannotMove (.other "Device or resource busy")
    else
      match t.findNamed (c.locate onto), entry with
      | .ok (q, .directory), .directory =>
        if p = q then same
        else if p.isPrefixOf q then
          failWith c 1
            ("cannot move " ++ quote from_ ++ " to a subdirectory of itself, " ++ quote onto)
        else if !(t.children q).isEmpty then cannotMove .notEmpty
        else move p q
      | .ok (_, .directory), _ =>
        failWith c 1 ("cannot overwrite directory " ++ quote onto ++ " with non-directory")
      | .ok _, .directory =>
        failWith c 1
          ("cannot overwrite non-directory " ++ quote onto ++ " with directory " ++ quote from_)
      | .ok (q, _), _ =>
        if p = q then same
        else if has given 'n' then return 0
        else
          let agreed ← mayOverwrite c given onto
          if !agreed then return 1
          else if t.sameFile p q then same
          else move p q
      | .error .notFound, entry =>
        match t.newPlace (c.locate onto) with
        | .error e => cannotMove e
        | .ok q =>
          let isDirectory : Bool :=
            match entry with
            | .directory => true
            | _ => false
          if endsInSlash onto && !isDirectory then cannotMove .notADirectory
          else if p.isPrefixOf q then
            failWith c 1
              ("cannot move " ++ quote from_ ++ " to a subdirectory of itself, " ++ quote onto)
          else move p q
      | .error e, _ => cannotMove e

def mv : Tool :=
  withOptions ((Options.flags "fvnuiTb"
    [("force", 'f'), ("verbose", 'v'), ("no-clobber", 'n'), ("update", 'u'), ("interactive", 'i'),
      ("no-target-directory", 'T'), ("target-directory", 't')]).withValues "tS")
    1 fun c given operands => overPairs c true given operands (moveOne c given)

/-! ### Links -/

def relativeTarget (c : Call) (target onto : String) : Work String := do
  let start ← fullPath c .anyName (parentName onto)
  let goal ← fullPath c .anyName target
  match start, goal with
  | .ok start, .ok goal => return relativeText start goal
  | _, _ => return target

def linkOne (c : Call) (given : List Given) (target onto : String) : Work Nat := do
  let symbolic := has given 's'
  let cannotLink (e : FileError) : Work Nat :=
    let kind := if symbolic then "symbolic" else "hard"
    let goal :=
      if symbolic then if target.isEmpty then " -> " ++ quote target else ""
      else if e = .alreadyExists then "" else " => " ++ quote target
    failWith c 1
      ("failed to create " ++ kind ++ " link " ++ quote onto ++ goal ++ ": " ++ e.reason)
  let text ← if has given 'r' then relativeTarget c target onto else pure target
  let t ← getTree
  let source := if has given 'L' then t.find (c.locate target) else t.findNamed (c.locate target)
  let link (t : FileTree) : Work Nat := do
    match t.newPlace (c.locate onto), source with
    | .error e, _ => cannotLink e
    | .ok q, .ok (p, _) =>
      setTree (if symbolic then t.put q (.link (Octets.toText text)) else t.share p q)
      let arrow := if symbolic then " -> " else " => "
      note (has given 'v') (quote onto ++ arrow ++ quote text)
      return 0
    | .ok q, .error _ =>
      setTree (t.put q (.link (Octets.toText text)))
      note (has given 'v') (quote onto ++ " -> " ++ quote text)
      return 0
  match source, symbolic with
  | .error e, false => failWith c 1 ("failed to access " ++ quote target ++ ": " ++ e.reason)
  | .ok (_, .directory), false =>
    failWith c 1 (target ++ ": hard link not allowed for directory")
  | _, _ =>
    if symbolic && target.isEmpty then cannotLink .notFound
    else
      match t.findNamed (c.locate onto), source with
      | .ok (_, .directory), _ =>
        if has given 'f' then failWith c 1 (onto ++ ": cannot overwrite directory")
        else cannotLink .alreadyExists
      | .ok (q, _), .ok (p, _) =>
        if !has given 'f' then cannotLink .alreadyExists
        else if p = q || t.sameFile p q && (t.namesOf p).length = 1 then
          failWith c 1 (quote target ++ " and " ++ quote onto ++ " are the same file")
        else link (t.prune q)
      | .ok (q, _), .error _ =>
        if has given 'f' then link (t.prune q) else cannotLink .alreadyExists
      | .error _, _ => link t

def ln : Tool :=
  withOptions ((Options.flags "sfvnrTLPi"
    [("symbolic", 's'), ("force", 'f'), ("verbose", 'v'), ("no-dereference", 'n'),
      ("no-target-directory", 'T'), ("target-directory", 't'), ("relative", 'r'),
      ("logical", 'L'), ("physical", 'P'), ("interactive", 'i')]).withValues "t")
    1 fun c given operands =>
      match operands, valueOf? given 't' with
      | [a], none => linkOne c given a (joinName "." (lastName a))
      | operands, _ => overPairs c (!has given 'n') given operands (linkOne c given)

def link : Tool := withOptions (.flags "" []) 1 fun c _ operands =>
  match operands with
  | [] => misuse c 1 "missing operand"
  | [a] => misuse c 1 ("missing operand after " ++ quote a)
  | [a, b] => do
    let t ← getTree
    let cannotLink (e : FileError) : Work Nat :=
      failWith c 1 ("cannot create link " ++ quote b ++ " to " ++ quote a ++ ": " ++ e.reason)
    match t.findNamed (c.locate a), t.findNamed (c.locate b), t.newPlace (c.locate b) with
    | .error e, _, _ => cannotLink e
    | .ok (_, .directory), _, _ => cannotLink (.other "Operation not permitted")
    | .ok _, .ok _, _ => cannotLink .alreadyExists
    | .ok _, .error _, .error e => cannotLink e
    | .ok (p, _), .error _, .ok q =>
      setTree (t.share p q)
      return 0
  | _ :: _ :: extra :: _ => misuse c 1 ("extra operand " ++ quote extra)

/-! ### Making and marking files -/

def touch : Tool :=
  withOptions ((Options.flags "acmfh"
    [("no-create", 'c'), ("date", 'd'), ("reference", 'r')]).withValues "dtr")
    1 fun c given operands =>
    overOperands c "missing file operand" operands fun name => do
      let found ← look c name
      match found with
      | .ok _ => return 0
      | .error .notFound =>
        if has given 'c' then return 0
        else if endsInSlash name then
          failWith c 1 ("setting times of " ++ quote name ++ ": " ++ FileError.notFound.reason)
        else
          let made ← attempt c ("cannot touch " ++ quote name)
            fun t => t.writeFileWith (c.newRights .open_) (c.locate name) (.text "")
          return statusOf made
      | .error e => failWith c 1 ("cannot touch " ++ quote name ++ ": " ++ e.reason)

def sizeOf? (s : String) : Option Nat :=
  let digits := s.toList.takeWhile Char.isDigit
  if digits.isEmpty then none
  else
    let n := Text.digitsValue digits
    match String.ofList (s.toList.dropWhile Char.isDigit) with
    | "" => some n
    | "b" => some (n * 512)
    | "K" => some (n * 1024)
    | "k" => some (n * 1024)
    | "KiB" => some (n * 1024)
    | "KB" => some (n * 1000)
    | "kB" => some (n * 1000)
    | "M" => some (n * 1024 ^ 2)
    | "MiB" => some (n * 1024 ^ 2)
    | "MB" => some (n * 1000 ^ 2)
    | "G" => some (n * 1024 ^ 3)
    | _ => none

def newSize? (s : String) (old : Nat) : Option Nat :=
  match s.toList with
  | '+' :: rest => (sizeOf? (String.ofList rest)).map fun n => old + n
  | '-' :: rest => (sizeOf? (String.ofList rest)).map fun n => old - n
  | '<' :: rest => (sizeOf? (String.ofList rest)).map fun n => min old n
  | '>' :: rest => (sizeOf? (String.ofList rest)).map fun n => max old n
  | _ => sizeOf? s

def truncate : Tool :=
  withOptions
    ((Options.flags "co" [("no-create", 'c'), ("size", 's'), ("reference", 'r')]).withValues "sr")
    1 fun c given operands =>
    match valueOf? given 's' with
    | none => misuse c 1 "you must specify either '--size' or '--reference'"
    | some size =>
      if (newSize? size 0).isNone then failWith c 1 ("Invalid number: " ++ quote size)
      else
        overOperands c "missing file operand" operands fun name => do
          let t ← getTree
          let old := (readOctets t (c.locate name)).toOption.getD ""
          if has given 'c' && !t.pathExists (c.locate name) then return 0
          else
            let n := (newSize? size old.length).getD 0
            let text := String.ofList (old.toList.take n ++ List.replicate (n - old.length) '\x00')
            let done ← attempt c ("cannot open " ++ quote name ++ " for writing")
              fun t => writeOctets c t (c.locate name) text
            return statusOf done

def makeAll (c : Call) (name : String) : Work Nat :=
  let start := String.ofList (name.toList.takeWhile (· = '/'))
  makeParents c false start ((name.splitOn "/").filter fun s => !s.isEmpty)

def installOne (c : Call) (given : List Given) (from_ onto : String) : Work Nat := do
  let mode := (valueOf? given 'm').getD "755"
  let ready ← if has given 'D' then makeAll c (parentName onto) else pure 0
  if ready ≠ 0 then return ready
  else
    let found ← look c from_
    match found with
    | .error e => failWith c 1 ("cannot stat " ++ quote from_ ++ ": " ++ e.reason)
    | .ok (_, .directory) => failWith c 1 ("omitting directory " ++ quote from_)
    | .ok source =>
      let kept := given.filter fun x => x.1 = 'v'
      let status ← copyFile c (('D', "") :: kept) source from_ onto
      if status = 0 then
        let t ← getTree
        match t.find (c.locate onto) with
        | .ok (q, _) => setTree (setMode 0 mode t q)
        | .error _ => pure ()
      return status

def install : Tool :=
  withOptions ((Options.flags "dDvCpsT" [("directory", 'd'), ("mode", 'm'), ("verbose", 'v'),
      ("target-directory", 't'), ("no-target-directory", 'T')]).withValues "mogt")
    1 fun c given operands =>
    if has given 'd' then overOperands c "missing file operand" operands (makeAll c)
    else overPairs c true given operands (installOne c given)

end NativeUi.Shell.Tool
