import NativeUi.Json.Parser

/-!
# Reading values of a given type

Readers draw typed values from drafts in the order of the text. A record stands as an object or,
where it may, as a list of its fields in order; each known field stands at most once.
-/
namespace NativeUi.Json

/-- Where a draft comes from: a text, or a value that has been read before. -/
inductive Origin where
  | text
  | value

namespace Draft

def readString (expected : String) : Draft → Except ReadError String
  | .string l => l.text
  | d => .error (d.mismatch expected)

def readUnit : Draft → Except ReadError Unit
  | .null => .ok ()
  | d => .error (d.mismatch "unit")

def readOptional {α : Type} (read : Draft → Except ReadError α) :
    Draft → Except ReadError (Option α)
  | .null => .ok none
  | d => do
    let a ← read d
    .ok (some a)

def readItems {α : Type} (read : Draft → Except ReadError α) :
    List Draft → Except ReadError (List α)
  | [] => .ok []
  | d :: ds => do
    let a ← read d
    let as ← readItems read ds
    .ok (a :: as)

def readSequence {α : Type} (read : Draft → Except ReadError α) : Draft → Except ReadError (List α)
  | .list deep items ending =>
    if deep then .error .tooDeep
    else do
      let as ← readItems read items
      ending.listReading
      .ok as
  | d => .error (d.mismatch "a sequence")

def readMap : Draft → Except ReadError (Fields Json)
  | .object deep members ending =>
    if deep then .error .tooDeep
    else do
      let fs ← valueMembers [] members
      ending.objectReading
      .ok fs
  | d => .error (d.mismatch "a map")

def knownVariant (variants : List String) (name : String) : Except ReadError String :=
  if name ∈ variants then .ok name else .error (.unknownVariant name variants)

/-- One of some names: as a string, or as the one name of an object whose value is null. -/
def readVariant (variants : List String) : Draft → Except ReadError String
  | .string l => do
    let name ← l.text
    knownVariant variants name
  | .object deep members ending =>
    if deep then .error .tooDeep
    else
      match members, ending with
      | [], .cut => .error .endOfObject
      | [], .badKey => .error .keyNotString
      | [], _ => .error .expectedValue
      | (l, d) :: rest, ending => do
        let name ← l.text
        let name ← knownVariant variants name
        readUnit d
        if rest.isEmpty then ending.objectClosing else .error .expectedValue
        .ok name
  | .fault .absent => .error .endOfValue
  | .fault (.colon cut) => .error (Fault.colon cut).reading
  | _ => .error .expectedValue

end Draft

/-- A field of a record that is read into a state: whether it has been read, and how to. -/
structure FieldReader (σ : Type) where
  name : String
  seen : σ → Bool
  read : σ → Draft → Except ReadError σ

/-- Reads the members of a record in order; `other` takes those that are no known fields. -/
def readMembers {σ : Type} (fields : List (FieldReader σ))
    (other : σ → String → Draft → Except ReadError σ) :
    σ → List (Literal × Draft) → Except ReadError σ
  | s, [] => .ok s
  | s, (l, d) :: ms => do
    let name ← l.text
    match fields.find? fun f => f.name == name with
    | some f =>
      if f.seen s then .error (.duplicateField name)
      else do
        let s ← f.read s d
        readMembers fields other s ms
    | none => do
      let s ← other s name d
      readMembers fields other s ms

def readPlaces {σ : Type} (ending : Ending) :
    List (FieldReader σ) → σ → List Draft → Except ReadError σ
  | [], s, [] => do
    ending.listClosing
    .ok s
  | [], _, _ :: _ => .error .trailingCharacters
  | _ :: _, s, [] => do
    ending.listReading
    .ok s
  | f :: fs, s, d :: ds => do
    let s ← f.read s d
    readPlaces ending fs s ds

def skipOther {σ : Type} (s : σ) (_ : String) (d : Draft) : Except ReadError σ := do
  d.skip
  .ok s

/-- A record of a text, as an object or a list; members of other names are passed over. -/
def readRecord {σ : Type} (expected : String) (fields : List (FieldReader σ)) (start : σ) :
    Draft → Except ReadError σ
  | .list deep items ending =>
    if deep then .error .tooDeep else readPlaces ending fields start items
  | .object deep members ending =>
    if deep then .error .tooDeep
    else do
      let s ← readMembers fields skipOther start members
      ending.objectReading
      .ok s
  | d => .error (d.mismatch expected)

/-- A record that keeps the members of other names; it stands as an object only. -/
def readOpenRecord {σ : Type} (expected : String) (fields : List (FieldReader σ))
    (other : σ → String → Json → σ) (start : σ) : Draft → Except ReadError σ
  | .object deep members ending =>
    if deep then .error .tooDeep
    else do
      let s ← readMembers fields
        (fun s name d => do
          let v ← d.value
          .ok (other s name v))
        start members
      ending.objectReading
      .ok s
  | d => .error (d.mismatch expected)

end NativeUi.Json
