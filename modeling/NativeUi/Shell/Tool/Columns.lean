import NativeUi.Shell.Pattern
import NativeUi.Shell.Tool.Texts

/-!
# Parts of lines and characters

Cutting fields and characters out of lines, and exchanging characters.
-/
namespace NativeUi.Shell.Tool

structure Span where
  first : Nat
  last : Option Nat

def Span.holds (s : Span) (n : Nat) : Bool :=
  s.first ≤ n &&
    match s.last with
    | some last => n ≤ last
    | none => true

inductive SpanFault where
  | zero
  | bad (text : String)
  | decreasing
  | noEnds

def spanOf (s : String) : Except SpanFault Span :=
  let cs := s.toList
  let first := cs.takeWhile Char.isDigit
  let number (ds : List Char) : Nat := Text.digitsValue ds
  match cs.dropWhile Char.isDigit with
  | [] =>
    if first.isEmpty then .error (.bad s)
    else if number first = 0 then .error .zero
    else .ok ⟨number first, some (number first)⟩
  | '-' :: rest =>
    if !rest.all Char.isDigit then .error (.bad s)
    else if first.isEmpty && rest.isEmpty then .error .noEnds
    else if !first.isEmpty && number first = 0 then .error .zero
    else if rest.isEmpty then .ok ⟨number first, none⟩
    else if number rest < (if first.isEmpty then 1 else number first) then .error .decreasing
    else .ok ⟨if first.isEmpty then 1 else number first, some (number rest)⟩
  | _ => .error (.bad s)

def spansOf (s : String) : Except SpanFault (List Span) := (s.splitOn ",").mapM spanOf

def SpanFault.message (fields : Bool) : SpanFault → String
  | .zero =>
    if fields then "fields are numbered from 1" else "byte/character positions are numbered from 1"
  | .bad s =>
    if fields then "invalid field value " ++ quote s
    else "invalid byte or character position " ++ quote s
  | .decreasing => "invalid decreasing range"
  | .noEnds => "invalid range with no endpoint: -"

def chosen {α : Type} (complement : Bool) (spans : List Span) (xs : List α) : List α :=
  (xs.zipIdx 1).filterMap fun x =>
    if (spans.any fun s => s.holds x.2) != complement then some x.1 else none

def cut : Tool :=
  withOptions ((Options.flags "snzC"
    [("fields", 'f'), ("delimiter", 'd'), ("characters", 'c'), ("bytes", 'b'),
      ("only-delimited", 's'), ("complement", 'C'), ("output-delimiter", 'O'),
      ("zero-terminated", 'z')]).withValues "fdcbO")
    1 fun c given operands => do
    let complement := has given 'C'
    let delimiter := (valueOf? given 'd').getD "\t"
    let run (fields : Bool) (list : String) : Work Nat :=
      match spansOf list with
      | .error f => misuse c 1 (f.message fields)
      | .ok spans =>
        if delimiter.length ≠ 1 then misuse c 1 "the delimiter must be a single character"
        else
          let joint := (valueOf? given 'O').getD (if fields then delimiter else "")
          let line (s : String) : Option String :=
            if fields then
              let parts := s.splitOn delimiter
              if parts.length = 1 then if has given 's' then none else some s
              else some (joint.intercalate (chosen complement spans parts))
            else some (String.ofList (chosen complement spans s.toList))
          overTexts c operands fun _ text => do
            let ends := exchangeEnds (has given 'z')
            print (ends (ofLines ((linesOf (ends text)).filterMap line)))
            return 0
    match valueOf? given 'f', valueOf? given 'c', valueOf? given 'b' with
    | some list, none, none => run true list
    | none, some list, none => run false list
    | none, none, some list => run false list
    | none, none, none =>
      misuse c 1 "you must specify a list of bytes, characters, or fields"
    | _, _, _ => misuse c 1 "only one list may be specified"

/-! ### Exchanging characters -/

inductive SetItem where
  | chars (cs : List Char)
  | filled (c : Char) (times : Option Nat)

def classChars (name : String) : List Char :=
  ((List.range 256).map Char.ofNat).filter (inClass name)

def setChar (cs : List Char) : Option (Char × List Char) :=
  match cs with
  | [] => none
  | '\\' :: rest =>
    match Format.escape .shell rest with
    | ([c], more) =>
      if c = '\\' && more.length = rest.length then
        match rest with
        | x :: more => some (x, more)
        | [] => some ('\\', [])
      else some (c, more)
    | _ => some ('\\', rest)
  | c :: rest => some (c, rest)

def charRange (low high : Char) : List Char :=
  (List.range (high.toNat + 1 - low.toNat)).map fun k => Char.ofNat (low.toNat + k)

def setItems : Nat → List Char → Except String (List SetItem)
  | 0, _ => .ok []
  | _, [] => .ok []
  | fuel + 1, cs =>
    let single : Except String (List SetItem) :=
      match setChar cs with
      | none => .ok []
      | some (low, rest) =>
        match rest with
        | '-' :: more =>
          match setChar more with
          | none => do
            let items ← setItems fuel rest
            .ok (.chars [low] :: items)
          | some (high, rest) =>
            if high < low then
              .error ("range-endpoints of '" ++ low.toString ++ "-" ++ high.toString ++
                "' are in reverse collating sequence order")
            else do
              let items ← setItems fuel rest
              .ok (.chars (charRange low high) :: items)
        | rest => do
          let items ← setItems fuel rest
          .ok (.chars [low] :: items)
    match cs with
    | '[' :: ':' :: rest =>
      let name := rest.takeWhile Char.isAlpha
      match rest.drop name.length with
      | ':' :: ']' :: rest =>
        let members := classChars (String.ofList name)
        if members.isEmpty then .error ("invalid character class " ++ quote (String.ofList name))
        else do
          let items ← setItems fuel rest
          .ok (.chars members :: items)
      | _ => single
    | '[' :: '=' :: c :: '=' :: ']' :: rest => do
      let items ← setItems fuel rest
      .ok (.chars [c] :: items)
    | '[' :: rest =>
      match setChar rest with
      | some (c, '*' :: more) =>
        let digits := more.takeWhile Char.isDigit
        match more.drop digits.length with
        | ']' :: rest => do
          let base := if digits.head? = some '0' then 8 else 10
          let n := Expr.valueIn base digits
          let items ← setItems fuel rest
          .ok (.filled c (if digits.isEmpty || n = 0 then none else some n) :: items)
        | _ => single
      | _ => single
    | _ => single

def setChars (length : Nat) (items : List SetItem) : List Char :=
  let fixed := (items.map fun i =>
    match i with
    | .chars cs => cs.length
    | .filled _ (some n) => n
    | .filled _ none => 0).foldl (· + ·) 0
  items.flatMap fun i =>
    match i with
    | .chars cs => cs
    | .filled c (some n) => List.replicate n c
    | .filled c none => List.replicate (length - fixed) c

def squeeze (inSet : Char → Bool) : Option Char → List Char → List Char
  | _, [] => []
  | last, c :: cs =>
    if last = some c && inSet c then squeeze inSet last cs else c :: squeeze inSet (some c) cs

def tr : Tool := fun c =>
  let options := Options.flags "dscCt"
    [("delete", 'd'), ("squeeze-repeats", 's'), ("complement", 'c'), ("truncate-set1", 't')]
  match options.sort false c.arguments with
  | .error e => misuse c 1 e.message
  | .ok (given, operands) =>
    let deletes := has given 'd'
    let squeezes := has given 's'
    let complement := has given 'c' || has given 'C'
    let needed := if deletes = squeezes then 2 else 1
    let most := if deletes && !squeezes then 1 else 2
    match operands with
    | [] => misuse c 1 "missing operand"
    | first :: others =>
      if operands.length < needed then
        misuse c 1 ("missing operand after " ++ quote first ++ "\n" ++
          (if deletes then "Two strings must be given when both deleting and squeezing repeats."
          else "Two strings must be given when translating."))
      else if most < operands.length then
        misuse c 1 ("extra operand " ++ quote ((operands[most]?).getD "") ++
          if deletes && !squeezes && operands.length = 2 then
            "\nOnly one string may be given when deleting without squeezing repeats."
          else "")
      else
        match setItems (first.length + 1) first.toList,
            setItems ((others.headD "").length + 1) (others.headD "").toList with
        | .error message, _ => failWith c 1 message
        | _, .error message => failWith c 1 message
        | .ok items, .ok newItems => do
          let plain := setChars 0 items
          let old :=
            if complement then
              ((List.range 256).map Char.ofNat).filter fun x => !plain.contains x
            else plain
          let new := setChars old.length newItems
          let inOld (x : Char) : Bool := old.contains x
          let text ← takeInput
          if deletes then
            let kept := text.toList.filter fun x => !inOld x
            let out := if squeezes then squeeze (fun x => new.contains x) none kept else kept
            print (String.ofList out)
            return 0
          else if others.isEmpty then
            print (String.ofList (squeeze inOld none text.toList))
            return 0
          else if new.isEmpty then
            failWith c 1 "when not truncating set1, string2 must be non-empty"
          else
            let filled := new ++ List.replicate (old.length - new.length) (new.getLastD ' ')
            let pairs := (if has given 't' then old.zip new else old.zip filled).reverse
            let change (x : Char) : Char :=
              ((pairs.find? fun p => p.1 == x).map fun p => p.2).getD x
            let out := text.toList.map change
            let out := if squeezes then squeeze (fun x => new.contains x) none out else out
            print (String.ofList out)
            return 0

end NativeUi.Shell.Tool
