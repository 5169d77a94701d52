import NativeUi.FileTree.Entry

/-!
# File trees

The files, directories and links of a system, as a value, with the current directory. A place is the
list of names that leads to it from the root. A file may have several names: then it is kept apart
under a number, and its names lead to the number. Most trees have no such files.

A current directory that has been removed stays the current directory. Only two dots lead out of it
then, to the nearest directory above it that is still there; what may be made anew in its old place
is another directory. Rights of directories are not kept, so that no search is refused.
-/
namespace NativeUi

abbrev Place := List String

/-- What is kept at a place: an entry of its own, or the number of a file that is kept apart. -/
inductive Slot where
  | own (e : Entry)
  | shared (file : Nat)
deriving DecidableEq

/-- A slot with its place. The number of names tells most places apart at once. -/
structure Held where
  depth : Nat
  place : Place
  slot : Slot

def Held.at (p : Place) (s : Slot) : Held := ⟨p.length, p, s⟩

/-- The base is the place of the current directory. So many of the last directories on the way to it
are lost. -/
structure FileTree where
  slots : List Held
  shared : List (Content × Rights)
  base : Place
  lost : Nat

namespace FileTree

def lookupAt (depth : Nat) (p : Place) : List Held → Option Slot
  | [] => none
  | h :: hs => if h.depth == depth && h.place == p then some h.slot else lookupAt depth p hs

def lookup (hs : List Held) (p : Place) : Option Slot := lookupAt p.length p hs

def file? (t : FileTree) (n : Nat) : Option Entry := (t.shared[n]?).map fun x => .file x.1 x.2

def entryOf? (t : FileTree) : Slot → Option Entry
  | .own e => some e
  | .shared n => t.file? n

def get? (t : FileTree) (p : Place) : Option Entry :=
  if p.isEmpty then some .directory else (lookup t.slots p).bind t.entryOf?

def entries (t : FileTree) : List (Place × Entry) :=
  t.slots.filterMap fun h => (t.entryOf? h.slot).map fun e => (h.place, e)

def setSlot (t : FileTree) (p : Place) (s : Slot) : FileTree :=
  let depth := p.length
  { t with slots := .at p s :: t.slots.filter fun h => !(h.depth == depth && h.place == p) }

def put (t : FileTree) (p : Place) (e : Entry) : FileTree := t.setSlot p (.own e)

/-- Removes a place and everything below it, which may be the current directory. -/
def prune (t : FileTree) (p : Place) : FileTree :=
  { t with
    slots := t.slots.filter fun h => !p.isPrefixOf h.place
    lost := if p.isPrefixOf t.base then max t.lost (t.base.length - (p.length - 1)) else t.lost }

/-- Removes all that stands below a place; the place itself stays as it is. -/
def clear (t : FileTree) (p : Place) : FileTree :=
  { t with
    slots := t.slots.filter fun h => h.place = p || !p.isPrefixOf h.place
    lost := if p.isPrefixOf t.base then max t.lost (t.base.length - p.length) else t.lost }

theorem lookupAt_filter (hs : List Held) (keep : Held → Bool) (depth : Nat) (p : Place) (b : Bool)
    (h : ∀ s, keep ⟨depth, p, s⟩ = b) :
    lookupAt depth p (hs.filter keep) = if b then lookupAt depth p hs else none := by
  induction hs with
  | nil => simp [lookupAt]
  | cons x hs ih =>
    obtain ⟨d, q, s⟩ := x
    by_cases hq : d = depth ∧ q = p
    · obtain ⟨rfl, rfl⟩ := hq
      cases b <;> simp [lookupAt, h, ih]
    · cases hk : keep ⟨d, q, s⟩ <;> simp [lookupAt, hk, hq, ih]

theorem entryOf?_congr {t u : FileTree} (h : u.shared = t.shared) : u.entryOf? = t.entryOf? := by
  funext s
  cases s with
  | own e => rfl
  | shared n => simp only [entryOf?, file?, h]

theorem get?_put_self (t : FileTree) {p : Place} (h : p ≠ []) (e : Entry) :
    (t.put p e).get? p = some e := by
  simp [get?, put, setSlot, h, lookup, lookupAt, Held.at, entryOf?]

theorem get?_put_ne (t : FileTree) {p q : Place} (h : q ≠ p) (e : Entry) :
    (t.put p e).get? q = t.get? q := by
  have hk := lookupAt_filter t.slots (fun x => !(x.depth == p.length && x.place == p)) q.length q
    true (by simp [h])
  have he : (t.put p e).entryOf? = t.entryOf? := entryOf?_congr rfl
  simp_all [get?, put, setSlot, lookup, lookupAt, Held.at, Ne.symm h]

theorem get?_prune (t : FileTree) (p : Place) {q : Place} (hq : q ≠ []) :
    (t.prune p).get? q = if p.isPrefixOf q then none else t.get? q := by
  have hk := lookupAt_filter t.slots (fun x => !p.isPrefixOf x.place) q.length q
    (!p.isPrefixOf q) (fun _ => rfl)
  have he : (t.prune p).entryOf? = t.entryOf? := entryOf?_congr rfl
  by_cases h : p.isPrefixOf q <;> simp_all [get?, prune, lookup]

theorem get?_clear (t : FileTree) (p : Place) {q : Place} (hq : q ≠ []) :
    (t.clear p).get? q = if q ≠ p ∧ p.isPrefixOf q then none else t.get? q := by
  have hk := lookupAt_filter t.slots (fun x => decide (x.place = p) || !p.isPrefixOf x.place)
    q.length q (decide (q = p) || !p.isPrefixOf q) (fun _ => rfl)
  have he : (t.clear p).entryOf? = t.entryOf? := entryOf?_congr rfl
  by_cases h : q = p <;> by_cases h' : p.isPrefixOf q <;> simp_all [get?, clear, lookup]

/-! ### Files with several names -/

def setFile (t : FileTree) (n : Nat) (c : Content) (r : Rights) : FileTree :=
  { t with shared := t.shared.set n (c, r) }

def fill (t : FileTree) (p : Place) (c : Content) (r : Rights) : FileTree :=
  match lookup t.slots p with
  | some (.shared n) => t.setFile n c r
  | _ => t.put p (.file c r)

/-- The number of the file at a place, which is kept apart from now on. -/
def number? (t : FileTree) (p : Place) : Option (Nat × FileTree) :=
  match lookup t.slots p with
  | some (.shared n) => some (n, t)
  | some (.own (.file c r)) =>
    let n := t.shared.length
    some (n, { t.setSlot p (.shared n) with shared := t.shared ++ [(c, r)] })
  | _ => none

def share (t : FileTree) (p q : Place) : FileTree :=
  match t.number? p with
  | some (n, t) => t.setSlot q (.shared n)
  | none =>
    match t.get? p with
    | some e => t.put q e
    | none => t

def sameFile (t : FileTree) (p q : Place) : Bool :=
  p = q ||
    match lookup t.slots p, lookup t.slots q with
    | some (.shared m), some (.shared n) => m = n
    | _, _ => false

def namesOf (t : FileTree) (p : Place) : List Place :=
  match lookup t.slots p with
  | some (.shared n) => (t.slots.filter fun h => h.slot = .shared n).map fun h => h.place
  | _ => [p]

def settle (t : FileTree) : FileTree :=
  let slots := t.slots.map fun h =>
    match h.slot, t.entryOf? h.slot with
    | .shared n, some e =>
      if (t.slots.filter fun x => x.slot = .shared n).length = 1 then { h with slot := .own e }
      else h
    | _, _ => h
  let plain := slots.all fun h =>
    match h.slot with
    | .own _ => true
    | .shared _ => false
  { t with slots := slots, shared := if plain then [] else t.shared }

/-- Moves a place with everything below it to another one, in place of what stands there. The
current directory moves with the directories around it. -/
def move (t : FileTree) (p q : Place) : FileTree :=
  let moved := t.slots.filterMap fun h =>
    if p.isPrefixOf h.place then some (.at (q ++ h.place.drop p.length) h.slot) else none
  let u := t.prune q
  let others := u.slots.filter fun h => !p.isPrefixOf h.place
  let around := t.base.take (t.base.length - t.lost)
  if p.isPrefixOf around then
    { t with slots := moved ++ others, base := q ++ t.base.drop p.length }
  else { u with slots := moved ++ others }

end FileTree

end NativeUi
