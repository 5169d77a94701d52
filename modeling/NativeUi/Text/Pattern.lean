import NativeUi.Instances

/-!
# Patterns

A text is matched against a pattern as a whole, character by character: what may follow a first
character is a pattern again. Parts that nothing can match are dropped on the way, so that the
pattern does not grow.
-/
namespace NativeUi.Text

inductive Pattern where
  | never
  | empty
  | oneOf (ranges : List (Char × Char))
  | chain (first rest : Pattern)
  | either (left right : Pattern)
  | many (body : Pattern)

namespace Pattern

def oneOrMore (body : Pattern) : Pattern := .chain body (.many body)

def inRanges (ranges : List (Char × Char)) (c : Char) : Bool :=
  ranges.any fun r => r.1 ≤ c && c ≤ r.2

def followedBy : Pattern → Pattern → Pattern
  | .never, _ => .never
  | .empty, rest => rest
  | first, rest => .chain first rest

def orElse : Pattern → Pattern → Pattern
  | .never, right => right
  | left, .never => left
  | left, right => .either left right

def matchesEmpty : Pattern → Bool
  | .never => false
  | .empty => true
  | .oneOf _ => false
  | .chain first rest => first.matchesEmpty && rest.matchesEmpty
  | .either left right => left.matchesEmpty || right.matchesEmpty
  | .many _ => true

def after (c : Char) : Pattern → Pattern
  | .never => .never
  | .empty => .never
  | .oneOf ranges => if inRanges ranges c then .empty else .never
  | .chain first rest =>
    let inside := (after c first).followedBy rest
    if first.matchesEmpty then inside.orElse (after c rest) else inside
  | .either left right => (after c left).orElse (after c right)
  | .many body => (after c body).followedBy (.many body)

def accepts : Pattern → List Char → Bool
  | p, [] => p.matchesEmpty
  | p, c :: cs => (p.after c).accepts cs

end Pattern

end NativeUi.Text
