import NativeUi.Fields
import NativeUi.Number

/-!
# JSON values

Objects keep the order of their members. `Json.same` compares values with objects taken as maps.
-/
namespace NativeUi

inductive Json where
  | null
  | bool (b : Bool)
  | number (n : Number)
  | string (s : String)
  | list (items : List Json)
  | object (fields : List (String × Json))

namespace Json

instance : Inhabited Json := ⟨.null⟩

def emptyObject : Json := .object []

mutual

def same : Json → Json → Bool
  | .null, .null => true
  | .bool a, .bool b => a == b
  | .number a, .number b => a == b
  | .string a, .string b => a == b
  | .list xs, .list ys => sameItems xs ys
  | .object fs, .object gs => fs.length == gs.length && sameFields fs gs
  | _, _ => false

def sameItems : List Json → List Json → Bool
  | [], [] => true
  | x :: xs, y :: ys => same x y && sameItems xs ys
  | _, _ => false

def sameFields : List (String × Json) → Fields Json → Bool
  | [], _ => true
  | (name, x) :: fs, gs =>
    (match Fields.find? gs name with
      | none => false
      | some y => same x y) && sameFields fs gs

end

mutual

def depth : Json → Nat
  | .list items => 1 + depthItems items
  | .object fields => 1 + depthFields fields
  | _ => 0

def depthItems : List Json → Nat
  | [] => 0
  | x :: xs => max (depth x) (depthItems xs)

def depthFields : List (String × Json) → Nat
  | [] => 0
  | (_, x) :: fs => max (depth x) (depthFields fs)

end

def asString? : Json → Option String
  | .string s => some s
  | _ => none

end Json

end NativeUi
