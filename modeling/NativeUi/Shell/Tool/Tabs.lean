import NativeUi.Shell.Tool.Texts

/-!
# Tabs

Tabs as blanks and blanks as tabs. The stops for tabs are at the multiples of a width, or at places
that are listed.
-/
namespace NativeUi.Shell.Tool.Tabs

/-- Where tabs stop: at listed places, and behind them at the multiples of a width, counted from the
last place if it is to be so. -/
structure Stops where
  places : List Nat
  every : Option Nat
  fromLast : Bool

def Stops.after? (s : Stops) (place : Nat) : Option Nat :=
  match s.places.find? (place < ·) with
  | some stop => some stop
  | none =>
    match s.every with
    | none => none
    | some width =>
      let start := if s.fromLast then s.places.getLastD 0 else 0
      some (start + ((place - start) / width + 1) * width)

inductive StopsFault where
  | zero
  | descending
  | invalid (text : String)

def StopsFault.message : StopsFault → String
  | .zero => "tab size cannot be 0"
  | .descending => "tab sizes must be ascending"
  | .invalid text => "tab size contains invalid character(s): " ++ quote text

def Stops.add (s : Stops) (word : String) : Except StopsFault Stops :=
  let number (cs : List Char) : Except StopsFault Nat :=
    match Text.natOf? cs with
    | none => .error (.invalid (String.ofList (cs.dropWhile Char.isDigit)))
    | some 0 => .error .zero
    | some n => .ok n
  match word.toList with
  | [] => .ok s
  | '/' :: cs => do
    let n ← number cs
    .ok { s with every := some n, fromLast := false }
  | '+' :: cs => do
    let n ← number cs
    .ok { s with every := some n, fromLast := true }
  | cs => do
    let n ← number cs
    if n ≤ s.places.getLastD 0 then .error .descending
    else .ok { s with places := s.places ++ [n] }

def wordsOf (s : String) : List String :=
  (s.toList.splitBy fun a b => a ≠ ',' && a ≠ ' ' && b ≠ ',' && b ≠ ' ').map String.ofList
    |>.filter fun w => w ≠ "," && w ≠ " "

def Stops.ofTexts (texts : List String) : Except StopsFault Stops := do
  let s ← (texts.flatMap wordsOf).foldlM Stops.add ⟨[], none, false⟩
  match s.places, s.every with
  | [], none => .ok ⟨[], some 8, false⟩
  | [n], none => .ok ⟨[], some n, false⟩
  | _, _ => .ok s

def expandFrom (s : Stops) (leading : Bool) : Nat → Bool → List Char → List Char
  | _, _, [] => []
  | place, inside, c :: cs =>
    if c = '\n' then c :: expandFrom s leading 0 false cs
    else if leading && inside then c :: expandFrom s leading (place + 1) true cs
    else if c = '\t' then
      let stop := (s.after? place).getD (place + 1)
      List.replicate (stop - place) ' ' ++ expandFrom s leading stop inside cs
    else if c = '\x08' then c :: expandFrom s leading (place - 1) true cs
    else c :: expandFrom s leading (place + 1) (inside || c ≠ ' ') cs

/-- The blanks between two places, with tabs as far as they fit. A single blank before a stop stays
unless a tab stood there or more blanks follow. -/
structure Blanks where
  start : Nat
  stop : Nat
  hadTab : Bool

def tabbed (s : Stops) : Nat → Nat → Nat → List Char
  | 0, _, _ => []
  | fuel + 1, place, stop =>
    match s.after? place with
    | some next =>
      if next ≤ stop then '\t' :: tabbed s fuel next stop else List.replicate (stop - place) ' '
    | none => List.replicate (stop - place) ' '

def Blanks.text (s : Stops) (b : Blanks) : List Char :=
  let single := b.stop = b.start + 1 && !b.hadTab
  if single then [' '] else tabbed s (b.stop - b.start + 1) b.start b.stop

def unexpandFrom (s : Stops) (leading : Bool) : Blanks → Bool → List Char → List Char
  | b, _, [] => b.text s
  | b, inside, c :: cs =>
    if c = '\n' then b.text s ++ c :: unexpandFrom s leading ⟨0, 0, false⟩ false cs
    else if leading && inside then c :: unexpandFrom s leading ⟨0, 0, false⟩ true cs
    else if c = ' ' then unexpandFrom s leading { b with stop := b.stop + 1 } inside cs
    else if c = '\t' then
      let stop := (s.after? b.stop).getD (b.stop + 1)
      unexpandFrom s leading { b with stop := stop, hadTab := true } inside cs
    else
      let place := if c = '\x08' then b.stop - 1 else b.stop + 1
      b.text s ++ c :: unexpandFrom s leading ⟨place, place, false⟩ true cs

def settleNumber (a : String) : String :=
  match a.toList with
  | '-' :: c :: _ => if c.isDigit then "-t" ++ String.ofList (a.toList.drop 1) else a
  | _ => a

def run (c : Call) (options : Options) (change : List Given → Stops → List Char → List Char) :
    Work Nat :=
  match options.sort true (c.arguments.map settleNumber) with
  | .error e => misuse c 1 e.message
  | .ok (given, operands) =>
    match Stops.ofTexts ((given.filter fun x => x.1 = 't').map Prod.snd) with
    | .error f => failWith c 1 f.message
    | .ok stops => do
      let (text, status) ← joinTexts c operands
      print (String.ofList (change given stops text.toList))
      return status

end Tabs

def expand : Tool := fun c =>
  Tabs.run c ((Options.flags "i" [("initial", 'i'), ("tabs", 't')]).withValues "t")
    fun given stops => Tabs.expandFrom stops (has given 'i') 0 false

def unexpand : Tool := fun c =>
  Tabs.run c
    ((Options.flags "af" [("all", 'a'), ("first-only", 'f'), ("tabs", 't')]).withValues "t")
    fun given stops =>
      let everywhere := (has given 'a' || has given 't') && !has given 'f'
      Tabs.unexpandFrom stops (!everywhere) ⟨0, 0, false⟩ false

end NativeUi.Shell.Tool
