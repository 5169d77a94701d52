import NativeUi.Shell.Tool.Texts

/-!
# Orders of words

Words are put behind those that have to come before them, as far as they do not wait for each other,
or left in the order in which they come.
-/
namespace NativeUi.Shell.Tool

namespace Precedence

/-- A word, for how many words it waits, and the words that wait for it, the latest first. -/
structure Item where
  name : String
  count : Nat
  followers : List String
  link : Option String
  printed : Bool

abbrev Items := List Item

def item? (items : Items) (name : String) : Option Item := items.find? fun i => i.name == name

def change (name : String) (f : Item → Item) (items : Items) : Items :=
  items.map fun i => if i.name = name then f i else i

def ofWords (words : List String) : Items :=
  (words.mergeSort fun a b => a.toList ≤ b.toList).eraseDups.map fun w => ⟨w, 0, [], none, false⟩

def relate (first second : String) (items : Items) : Items :=
  if first = second then items
  else
    change first (fun i => { i with followers := second :: i.followers })
      (change second (fun i => { i with count := i.count + 1 }) items)

/-- The first of each two words comes before the second; none if a word is left over. -/
def relateAll : List String → Items → Option Items
  | [], items => some items
  | [_], _ => none
  | a :: b :: rest, items => relateAll rest (relate a b items)

/-- Takes words that wait for nothing from a queue, and puts those that wait no longer behind it. -/
def release : Nat → List String → Items → List String × Items
  | 0, _, items => ([], items)
  | _, [], items => ([], items)
  | fuel + 1, name :: queue, items =>
    let followers := ((item? items name).map Item.followers).getD []
    let items := change name (fun i => { i with printed := true }) items
    let (items, freed) := followers.foldl
      (fun (items, freed) f =>
        let items := change f (fun i => { i with count := i.count - 1 }) items
        let free := (item? items f).any fun i => i.count = 0
        (items, if free then freed ++ [f] else freed))
      (items, [])
    let (names, items) := release fuel (queue ++ freed) items
    (name :: names, items)

def chain (items : Items) (last : String) : Nat → String → List String
  | 0, _ => []
  | fuel + 1, name =>
    if name = last then [name]
    else
      match (item? items name).bind Item.link with
      | some next => name :: chain items last fuel next
      | none => [name]

structure Search where
  items : Items
  loop : Option String
  found : Option (List String)

def Search.visit (s : Search) (name : String) : Search :=
  match s.found, item? s.items name, s.loop with
  | none, some i, none => if 0 < i.count then { s with loop := some name } else s
  | none, some i, some l =>
    if i.count = 0 || !i.followers.contains l then s
    else if i.link.isNone then
      { s with items := change name (fun i => { i with link := some l }) s.items,
               loop := some name }
    else
      let words := chain s.items name (s.items.length + 1) l
      let items := change name (fun i => { i with followers := i.followers.erase l })
        (change l (fun i => { i with count := i.count - 1 }) s.items)
      ⟨items.map fun i => { i with link := none }, none, some words⟩
  | _, _, _ => s

def breakLoop : Nat → Search → Search
  | 0, s => s
  | fuel + 1, s =>
    let s := (s.items.map Item.name).foldl Search.visit s
    if s.found.isSome then s else breakLoop fuel s

inductive Outcome where
  | word (name : String)
  | loop (names : List String)

def sorted : Nat → Items → List Outcome
  | 0, _ => []
  | fuel + 1, items =>
    let free := (items.filter fun i => i.count = 0 && !i.printed).map Item.name
    let (names, items) := release (items.length + 1) free items
    names.map .word ++
      if items.all Item.printed then []
      else
        let s := breakLoop (items.length + 1) ⟨items, none, none⟩
        .loop (s.found.getD []) :: sorted fuel s.items

end Precedence

def tsort : Tool := withOptions (.flags "" []) 1 fun c _ operands =>
  match operands with
  | _ :: extra :: _ => misuse c 1 ("extra operand " ++ quote extra)
  | _ => do
    let name := operands.headD "-"
    let text ← readOperand c name
    match text with
    | .error e => failWith c 1 (name ++ ": " ++ e.reason)
    | .ok text =>
      let words := (text.splitToList fun c => c = ' ' || c = '\t' || c = '\n').filter
        fun w => !w.isEmpty
      match Precedence.relateAll words (Precedence.ofWords words) with
      | none => failWith c 1 (name ++ ": input contains an odd number of tokens")
      | some items =>
        let found := Precedence.sorted (words.length + 1) items
        let status ← forEach
          (fun o =>
            match o with
            | .word w => do
              printLine w
              return 0
            | .loop names => do
              complain c (name ++ ": input contains a loop:")
              forM names fun n => complain c n
              return 1)
          found
        return status

def shuf : Tool :=
  withOptions ((Options.flags "erz"
    [("echo", 'e'), ("repeat", 'r'), ("zero-terminated", 'z'), ("head-count", 'n'),
      ("input-range", 'i'), ("output", 'o'), ("random-source", 'R')]).withValues "nioR")
    1 fun c given operands => do
    let range? := (valueOf? given 'i').bind fun r =>
      match (r.splitOn "-").map natural? with
      | [some low, some high] => if low ≤ high + 1 then some (low, high) else none
      | _ => none
    let limit? := (valueOf? given 'n').bind natural?
    match valueOf? given 'i', range?, valueOf? given 'n', limit? with
    | some r, none, _, _ => failWith c 1 ("invalid input range: " ++ quote r)
    | _, _, some n, none => failWith c 1 ("invalid line count: " ++ quote n)
    | _, _, _, _ =>
      let ends := exchangeEnds (has given 'z')
      let text ←
        match range? with
        | some (low, high) =>
          pure (.ok (ofLines ((List.range (high + 1 - low)).map fun k => Text.decimal (low + k))))
        | none =>
          if has given 'e' then pure (.ok (ofLines operands))
          else readOperand c (operands.headD "-")
      match text with
      | .error e => failWith c 1 (operands.headD "-" ++ ": " ++ e.reason)
      | .ok text =>
        let plain := (valueOf? given 'i').isSome || has given 'e'
        let lines := linesOf (if plain then text else ends text)
        let out := ends (ofLines (lines.take (limit?.getD lines.length)))
        match valueOf? given 'o' with
        | none =>
          print out
          return 0
        | some file =>
          let t ← getTree
          match writeOctets c t (c.locate file) out with
          | .ok t =>
            setTree t
            return 0
          | .error e => failWith c 1 (file ++ ": " ++ e.reason)

end NativeUi.Shell.Tool
