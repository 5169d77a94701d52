import NativeUi.Instances

/-!
# Aligning two sequences

Which members of two sequences are changed, so that the others are the same in both and as many as
can be. The search goes from both ends towards the middle. Members that the other sequence does not
have at all are set aside before, and runs of changed members are moved as far as they go.
-/
namespace NativeUi.Shell.Tool.Alignment

structure Pair where
  left : Array Nat
  right : Array Nat

structure Marks where
  left : Array Bool
  right : Array Bool

structure Box where
  fromLeft : Nat
  toLeft : Nat
  fromRight : Nat
  toRight : Nat

namespace Pair

def same (p : Pair) (x y : Nat) : Bool := p.left[x]? == p.right[y]?

def runDown (p : Pair) : Nat → Nat → Nat → Nat
  | 0, _, _ => 0
  | most + 1, x, y => if p.same x y then p.runDown most (x + 1) (y + 1) + 1 else 0

def runUp (p : Pair) : Nat → Nat → Nat → Nat
  | most + 1, x + 1, y + 1 => if p.same x y then p.runUp most x y + 1 else 0
  | _, _, _ => 0

end Pair

/-! ### The middle of a way -/

structure Front where
  low : Int
  high : Int
  reached : Array Int

namespace Front

/-- Where a diagonal is kept, in boxes of sequences of which the right one has so many members. -/
def index (size : Nat) (d : Int) : Nat := (d + size + 1).toNat

def at_ (f : Front) (size : Nat) (d : Int) : Int := f.reached.getD (index size d) 0

def put (f : Front) (size : Nat) (d x : Int) : Front :=
  { f with reached := f.reached.setIfInBounds (index size d) x }

def widen (f : Front) (size : Nat) (least most outside : Int) : Front :=
  let f :=
    if least < f.low then { f with low := f.low - 1 }.put size (f.low - 2) outside
    else { f with low := f.low + 1 }
  if f.high < most then { f with high := f.high + 1 }.put size (f.high + 2) outside
  else { f with high := f.high - 1 }

def includes (f : Front) (d : Int) : Bool := f.low ≤ d && d ≤ f.high

def count (f : Front) : Nat := ((f.high - f.low) / 2 + 1).toNat

end Front

/-- One step of the search from the start, on the diagonals from one downwards; it ends where it
meets the search from the end. -/
def searchDown (p : Pair) (b : Box) (odd : Bool) (other : Front) :
    Nat → Int → Front → Front × Option (Nat × Nat)
  | 0, _, f => (f, none)
  | n + 1, d, f =>
    let size := p.right.size
    let low := f.at_ size (d - 1)
    let high := f.at_ size (d + 1)
    let x := (if low < high then high else low + 1).toNat
    let y := ((x : Int) - d).toNat
    let run := p.runDown (min (b.toLeft - x) (b.toRight - y)) x y
    let f := f.put size d ((x + run : Nat) : Int)
    if odd && other.includes d && other.at_ size d ≤ ((x + run : Nat) : Int) then
      (f, some (x + run, y + run))
    else searchDown p b odd other n (d - 2) f

def searchUp (p : Pair) (b : Box) (odd : Bool) (other : Front) :
    Nat → Int → Front → Front × Option (Nat × Nat)
  | 0, _, f => (f, none)
  | n + 1, d, f =>
    let size := p.right.size
    let low := f.at_ size (d - 1)
    let high := f.at_ size (d + 1)
    let x := (if low < high then low else high - 1).toNat
    let y := ((x : Int) - d).toNat
    let run := p.runUp (min (x - b.fromLeft) (y - b.fromRight)) x y
    let f := f.put size d ((x - run : Nat) : Int)
    if !odd && other.includes d && ((x - run : Nat) : Int) ≤ other.at_ size d then
      (f, some (x - run, y - run))
    else searchUp p b odd other n (d - 2) f

def meet (p : Pair) (b : Box) : Nat → Front → Front → Option (Nat × Nat)
  | 0, _, _ => none
  | fuel + 1, down, up =>
    let size := p.right.size
    let least : Int := b.fromLeft - b.toRight
    let most : Int := b.toLeft - b.fromRight
    let odd := ((b.fromLeft : Int) - b.fromRight - (b.toLeft - b.toRight)) % 2 ≠ 0
    let down := down.widen size least most (-1)
    match searchDown p b odd up down.count down.high down with
    | (_, some found) => some found
    | (down, none) =>
      let up := up.widen size least most (p.left.size + p.right.size + 2)
      match searchUp p b odd down up.count up.high up with
      | (_, some found) => some found
      | (up, none) => meet p b fuel down up

def middle? (p : Pair) (b : Box) : Option (Nat × Nat) :=
  let size := p.right.size
  let none_ : Array Int := Array.replicate (p.left.size + size + 3) 0
  let first : Int := b.fromLeft - b.fromRight
  let last : Int := b.toLeft - b.toRight
  let down : Front := Front.put ⟨first, first, none_⟩ size first b.fromLeft
  let up : Front := Front.put ⟨last, last, none_⟩ size last b.toLeft
  meet p b (p.left.size + size + 2) down up

/-! ### Changed members -/

def markAll (marks : Array Bool) (start stop : Nat) : Array Bool :=
  (List.range (stop - start)).foldl (fun a k => a.setIfInBounds (start + k) true) marks

def compare (p : Pair) : Nat → Box → Marks → Marks
  | 0, _, m => m
  | fuel + 1, b, m =>
    let head :=
      p.runDown (min (b.toLeft - b.fromLeft) (b.toRight - b.fromRight)) b.fromLeft b.fromRight
    let x := b.fromLeft + head
    let y := b.fromRight + head
    let tail := p.runUp (min (b.toLeft - x) (b.toRight - y)) b.toLeft b.toRight
    let b : Box := ⟨x, b.toLeft - tail, y, b.toRight - tail⟩
    if b.fromLeft = b.toLeft then
      { m with right := markAll m.right b.fromRight b.toRight }
    else if b.fromRight = b.toRight then
      { m with left := markAll m.left b.fromLeft b.toLeft }
    else
      match middle? p b with
      | none => m
      | some (x, y) =>
        compare p fuel ⟨x, b.toLeft, y, b.toRight⟩
          (compare p fuel ⟨b.fromLeft, x, b.fromRight, y⟩ m)

/-! ### Members that are set aside -/

/-- What is thought of a member: it is compared, set aside, or set aside if its neighbours are. -/
inductive Standing where
  | kept
  | aside
  | doubtful
deriving DecidableEq

def halvings : Nat → Nat → Nat
  | 0, _ => 0
  | fuel + 1, n => if n / 4 = 0 then 0 else halvings fuel (n / 4) + 1

def firstStanding (own other : Array Nat) : Array Standing :=
  let many := 5 * 2 ^ halvings own.size (own.size / 64)
  own.map fun x =>
    let n := (other.toList.filter fun y => y = x).length
    if n = 0 then .aside else if many < n then .doubtful else .kept

def cancel (s : Array Standing) (places : List Nat) : Array Standing :=
  places.foldl
    (fun s i => if s.getD i .kept = .doubtful then s.setIfInBounds i .kept else s) s

def largeGroups (s : Array Standing) (least : Nat) : List Nat → List Nat → List Nat
  | group, [] => if least ≤ group.length then group else []
  | group, i :: is =>
    if s.getD i .kept = .doubtful then largeGroups s least (i :: group) is
    else (if least ≤ group.length then group else []) ++ largeGroups s least [] is

/-- The places at the start of a run up to three members in a row that are set aside, or up to one
that is and has eight places before it. -/
def settledStart (s : Array Standing) : Nat → Nat → List Nat → List Nat
  | _, _, [] => []
  | passed, inRow, i :: is =>
    let standing := s.getD i .kept
    if 8 ≤ passed && standing = .aside then []
    else
      let inRow := if standing = .aside then inRow + 1 else 0
      if inRow = 3 then [i] else i :: settledStart s (passed + 1) inRow is

def settleRun (s : Array Standing) (start stop : Nat) : Array Standing :=
  let length := stop - start
  let places := (List.range length).map fun k => start + k
  let doubtful := (places.filter fun i => s.getD i .kept = .doubtful).length
  if length < doubtful * 4 then cancel s places
  else
    let least := 2 ^ halvings length (length / 4) + 1
    let s := cancel s (largeGroups s least [] places)
    let s := cancel s (settledStart s 0 0 places)
    cancel s (settledStart s 0 0 places.reverse)

def runEnd (s : Array Standing) : Nat → Nat → Nat
  | 0, i => i
  | fuel + 1, i => if s.getD i .kept = .kept then i else runEnd s fuel (i + 1)

def trimRun (s : Array Standing) (start : Nat) : Nat → Nat
  | 0 => 0
  | j + 1 => if start ≤ j && s.getD j .kept = .doubtful then trimRun s start j else j + 1

def settle : Nat → Nat → Array Standing → Array Standing
  | 0, _, s => s
  | fuel + 1, i, s =>
    if s.size ≤ i then s
    else
      match s.getD i .kept with
      | .kept => settle fuel (i + 1) s
      | .doubtful => settle fuel (i + 1) (s.setIfInBounds i .kept)
      | .aside =>
        let stop := runEnd s s.size i
        let inner := trimRun s i stop
        let s := cancel s ((List.range (stop - inner)).map fun k => inner + k)
        settle fuel (max (i + 1) inner) (settleRun s i inner)

def setAside (own other : Array Nat) : Array Bool :=
  let s := firstStanding own other
  (settle (s.size + 1) 0 s).map fun x => x = .aside

/-! ### Moving runs -/

/-- A run of changed members that is being moved: the marks, its start and end, and the place in the
other sequence that its end corresponds to. -/
structure Slide where
  marks : Array Bool
  start : Nat
  stop : Nat
  across : Nat

def isMarked (marks : Array Bool) (i : Nat) : Bool := marks.getD i false

def pass (marks : Array Bool) : Nat → Nat → Nat
  | 0, i => i
  | fuel + 1, i => if isMarked marks i then pass marks fuel (i + 1) else i

def passBack (marks : Array Bool) : Nat → Nat
  | 0 => 0
  | i + 1 => if isMarked marks i then passBack marks i else i + 1

def unmarkedBefore (marks : Array Bool) : Nat → Nat
  | 0 => 0
  | i + 1 => if isMarked marks i then unmarkedBefore marks i else i

namespace Slide

def back (s : Slide) (other : Array Bool) : Slide :=
  let marks := (s.marks.setIfInBounds (s.start - 1) true).setIfInBounds (s.stop - 1) false
  ⟨marks, s.start - 1, s.stop - 1, unmarkedBefore other s.across⟩

/-- Moves the run back as long as that changes nothing; it may take in runs before it. -/
def allBack (keys : Array Nat) (other : Array Bool) : Nat → Slide → Slide
  | 0, s => s
  | fuel + 1, s =>
    if 0 < s.start && keys[s.start - 1]? == keys[s.stop - 1]? then
      let s := s.back other
      allBack keys other fuel { s with start := passBack s.marks s.start }
    else s

/-- Moves the run forward as long as that changes nothing, and keeps the last end that corresponds
to a run in the other sequence. -/
def allForward (keys : Array Nat) (other : Array Bool) : Nat → Nat → Slide → Slide × Nat
  | 0, matching, s => (s, matching)
  | fuel + 1, matching, s =>
    if s.stop < keys.size && keys[s.start]? == keys[s.stop]? then
      let marks := (s.marks.setIfInBounds s.start false).setIfInBounds s.stop true
      let stop := pass marks keys.size (s.stop + 1)
      let across := pass other other.size (s.across + 1)
      let matching := if across = s.across + 1 then matching else stop
      allForward keys other fuel matching ⟨marks, s.start + 1, stop, across⟩
    else (s, matching)

def grow (keys : Array Nat) (other : Array Bool) : Nat → Slide → Slide × Nat
  | 0, s => (s, keys.size)
  | fuel + 1, s =>
    let length := s.stop - s.start
    let s := allBack keys other keys.size s
    let matching := if 0 < s.across && isMarked other (s.across - 1) then s.stop else keys.size
    let (s, matching) := allForward keys other keys.size matching s
    if s.stop - s.start = length then (s, matching) else grow keys other fuel s

def backTo (other : Array Bool) (stop : Nat) : Nat → Slide → Slide
  | 0, s => s
  | fuel + 1, s => if stop < s.stop then backTo other stop fuel (s.back other) else s

end Slide

def shiftFrom (keys : Array Nat) (other : Array Bool) : Nat → Nat → Nat → Array Bool → Array Bool
  | 0, _, _, marks => marks
  | fuel + 1, i, j, marks =>
    if keys.size ≤ i then marks
    else if !isMarked marks i then
      shiftFrom keys other fuel (i + 1) (pass other other.size j + 1) marks
    else
      let stop := pass marks keys.size i
      let (s, matching) :=
        Slide.grow keys other (keys.size + 1) ⟨marks, i, stop, pass other other.size j⟩
      let s := Slide.backTo other matching keys.size s
      shiftFrom keys other fuel s.stop s.across s.marks

def shift (keys : Array Nat) (other marks : Array Bool) : Array Bool :=
  shiftFrom keys other (2 * keys.size + 2) 0 0 marks

/-! ### Everything together -/

def remaining (keys : Array Nat) (aside : Array Bool) : Array (Nat × Nat) :=
  (((List.range keys.size).zip keys.toList).filter fun x => !isMarked aside x.1).toArray

def spread (aside : Array Bool) (rest : Array (Nat × Nat)) (marks : Array Bool) : Array Bool :=
  (rest.toList.zip marks.toList).foldl (fun a x => a.setIfInBounds x.1.1 x.2) aside

def changedInside (p : Pair) : Marks :=
  let asideLeft := setAside p.left p.right
  let asideRight := setAside p.right p.left
  let restLeft := remaining p.left asideLeft
  let restRight := remaining p.right asideRight
  let inner : Pair := ⟨restLeft.map Prod.snd, restRight.map Prod.snd⟩
  let marks := compare inner (restLeft.size + restRight.size + 1)
    ⟨0, restLeft.size, 0, restRight.size⟩
    ⟨Array.replicate restLeft.size false, Array.replicate restRight.size false⟩
  let left := spread asideLeft restLeft marks.left
  let right := spread asideRight restRight marks.right
  let left := shift p.left right left
  ⟨left, shift p.right left right⟩

/-- Marks the changed members of two sequences. What they share at both ends is told by other keys,
and so many members of the shared end take part in the comparison. -/
def changed (ends p : Pair) (horizon : Nat) : Marks :=
  let least := min p.left.size p.right.size
  let head := ends.runDown least 0 0
  let shared := ends.runUp (least - head) p.left.size p.right.size
  let tail := shared - horizon
  let inner : Pair :=
    ⟨p.left.extract head (p.left.size - tail), p.right.extract head (p.right.size - tail)⟩
  let marks := changedInside inner
  let around (m : Array Bool) : Array Bool :=
    Array.replicate head false ++ m ++ Array.replicate tail false
  ⟨around marks.left, around marks.right⟩

end NativeUi.Shell.Tool.Alignment
