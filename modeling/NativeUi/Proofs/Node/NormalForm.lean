import NativeUi.Proofs.Node.Merging

/-!
# The value a node comes back as

A node that is read from a value and written again is an object with its identifier, its type, its
properties and its children. This is said here of the value alone: which of its members are kept and
what stands for a missing one.
-/
namespace NativeUi.Node

open NativeUi.Json

/-! ### The form of a node -/

def orEmpty : Option Json → Json
  | none => .emptyObject
  | some .null => .emptyObject
  | some v => v

def idEntry : Option Json → Fields Json
  | some (.string s) => [("id", .string s)]
  | _ => []

def childrenEntry : List Json → Fields Json
  | [] => []
  | xs => [("children", .list xs)]

def assemble (id kind props : Option Json) (children : List Json) : Json :=
  .object (idEntry id ++ [("type", kind.getD .null), ("props", orEmpty props)] ++
    childrenEntry children)

mutual

/-- The object that a value comes back as when it is a node. -/
def normalForm : Json → Json
  | .object fields =>
    assemble (Fields.find? fields "id") (Fields.find? fields "type") (Fields.find? fields "props")
      (childForms fields)
  | .list [i, k] => assemble (some i) (some k) none []
  | .list [i, k, p] => assemble (some i) (some k) (some p) []
  | .list [i, k, p, c] => assemble (some i) (some k) (some p) (listForms c)
  | v => v

def listForms : Json → List Json
  | .list items => normalForms items
  | _ => []

def normalForms : List Json → List Json
  | [] => []
  | x :: xs => normalForm x :: normalForms xs

def childForms : List (String × Json) → List Json
  | [] => []
  | (name, x) :: fs => if name = "children" then listForms x else childForms fs

end

theorem childForms_eq (fs : Fields Json) :
    childForms fs = ((Fields.find? fs "children").map listForms).getD [] := by
  induction fs with
  | nil => simp [childForms]
  | cons f fs ih =>
    obtain ⟨name, x⟩ := f
    by_cases hk : name = "children"
    · simp [childForms, Fields.find?, hk]
    · simp [childForms, Fields.find?, hk, ih]

/-! ### Single fields -/

theorem idFields_of_readId {v : Json} {id : Option String} (h : readId (.ofJson v) = .ok id) :
    idFields id = idEntry (some v) := by
  cases exists_readId_iff.mp ⟨id, h⟩ with
  | null =>
    obtain rfl := Except.ok.inj h
    rfl
  | string s =>
    simp only [readId, Draft.ofJson, Draft.readOptional, Draft.readString,
      Draft.faithful_ofString s] at h
    obtain rfl := Except.ok.inj h
    rfl

theorem string_of_readKind {v : Json} {kind : Kind} (h : readKind (.ofJson v) = .ok kind) :
    .string kind.name = v := by
  obtain ⟨s, rfl⟩ := exists_readKind_iff.mp ⟨kind, h⟩
  rw [readKind, Draft.ofJson, Draft.readString, Draft.faithful_ofString, ok_bind] at h
  rw [← Except.ok.inj h, Kind.name_ofName]

theorem object_of_readProps {v : Json} {props : Fields Json} (hu : v.Unique)
    (h : readProps (.ofJson v) = .ok props) : .object props = orEmpty (some v) := by
  cases (exists_readProps_iff hu).mp ⟨props, h⟩ with
  | null =>
    obtain rfl := Except.ok.inj h
    rfl
  | object fields =>
    rw [Draft.ofJson_eq_spelt] at h
    rw [Except.ok.inj ((readProps_spelt Draft.faithful_ofString hu).symm.trans h)]
    rfl

theorem toJson_eq_assemble {n : Node} {id kind props : Option Json} {children : List Json}
    (hi : idFields n.id = idEntry id) (hk : some (.string n.kind.name) = kind)
    (hp : .object n.props = orEmpty props) (hc : toJsonAll n.children = children) :
    n.toJson = assemble id kind props children := by
  subst hk hc
  obtain ⟨i, k, p, cs⟩ := n
  rw [toJson_eq, assemble, hi, ← hp]
  cases cs <;> rfl

theorem Parts.Of.toJson {p : Parts} {fs : Fields Json} (h : p.Of fs)
    (hu : Json.Unique (.object fs)) {n : Node} (hn : p.finish = .ok n)
    (hc : ∀ v ∈ Fields.find? fs "children", ∀ ns, readChildren .value (.ofJson v) = .ok ns →
      toJsonAll ns = listForms v) :
    n.toJson = normalForm (.object fs) := by
  obtain ⟨id, kind, props, children⟩ := p
  obtain ⟨hid, hkind, hprops, hchildren⟩ := h
  cases kind with
  | none => cases hn
  | some kind =>
    obtain rfl := Except.ok.inj hn
    rw [normalForm, childForms_eq]
    apply toJson_eq_assemble
    · generalize Fields.find? fs "id" = v at hid
      cases hid with
      | none => rfl
      | some hx => exact idFields_of_readId hx
    · generalize Fields.find? fs "type" = v at hkind
      cases hkind with
      | some hx => exact congrArg some (string_of_readKind hx)
    · generalize hv : Fields.find? fs "props" = v at hprops
      cases hprops with
      | none => rfl
      | some hx =>
        exact object_of_readProps (uniqueFields_iff.mp hu.2 _ (Fields.mem_of_find? hv)) hx
    · generalize hv : Fields.find? fs "children" = v at hchildren
      cases hchildren with
      | none => rfl
      | some hx => exact hc _ hv _ hx

/-! ### Whole nodes -/

mutual

/-- A node that is read from a value is written in the normal form of the value. -/
theorem toJson_of_read : ∀ {v : Json} {n : Node}, v.Unique → read .value (.ofJson v) = .ok n →
    n.toJson = normalForm v
  | .null, _, _, h => by cases h
  | .bool _, _, _, h => by cases h
  | .number _, _, _, h => by cases h
  | .string _, _, _, h => by cases h
  | .list [], _, _, h => by cases h
  | .list [_], _, _, h => by cases readsItems_of_read h
  | .list [i, k], _, _, h => by
    rw [normalForm]
    cases readsItems_of_read h with
    | pair hi hk =>
      exact toJson_eq_assemble (idFields_of_readId hi) (congrArg some (string_of_readKind hk))
        rfl rfl
  | .list [i, k, p], _, hu, h => by
    rw [normalForm]
    cases readsItems_of_read h with
    | triple hi hk hp =>
      exact toJson_eq_assemble (idFields_of_readId hi) (congrArg some (string_of_readKind hk))
        (object_of_readProps hu.2.2.1 hp) rfl
  | .list [i, k, p, c], _, hu, h => by
    rw [normalForm]
    cases readsItems_of_read h with
    | full hi hk hp hc =>
      exact toJson_eq_assemble (idFields_of_readId hi) (congrArg some (string_of_readKind hk))
        (object_of_readProps hu.2.2.1 hp) (toJsonAll_of_readChildren hu.2.2.2.1 hc)
  | .list (_ :: _ :: _ :: _ :: _ :: _), _, _, h => by cases readsItems_of_read h
  | .object fields, n, hu, h => by
    -- the children stand in one of the members, so theirs is the fact about all members
    have hc := @toJsonAll_of_member fields hu.2
    rw [Draft.ofJson, read, if_neg (by decide)] at h
    obtain ⟨p, hp, hn⟩ := bind_eq_ok_iff.mp h
    refine (Parts.of_readMembers hu hp).toJson hu hn ?_
    intro v hv ns hns
    exact hc _ (Fields.mem_of_find? hv) hns

theorem toJsonAll_of_readChildren : ∀ {v : Json} {ns : List Node}, v.Unique →
    readChildren .value (.ofJson v) = .ok ns → toJsonAll ns = listForms v
  | .null, _, _, h => by
    obtain rfl := Except.ok.inj h
    rfl
  | .bool _, _, _, h => by cases h
  | .number _, _, _, h => by cases h
  | .string _, _, _, h => by cases h
  | .object _, _, _, h => by cases h
  | .list items, ns, hu, h => by
    have hall := @toJsonAll_of_readAll items
    rw [Draft.ofJson, readChildren, if_neg (by decide)] at h
    obtain ⟨ns', hns, h⟩ := bind_eq_ok_iff.mp h
    obtain rfl := Except.ok.inj h
    rw [listForms]
    exact hall hu hns

theorem toJsonAll_of_readAll : ∀ {xs : List Json} {ns : List Node}, UniqueItems xs →
    readAll .value (Draft.ofItems xs) = .ok ns → toJsonAll ns = normalForms xs
  | [], _, _, h => by
    obtain rfl := Except.ok.inj h
    rfl
  | x :: xs, _, hu, h => by
    have hx := @toJson_of_read x
    have hxs := @toJsonAll_of_readAll xs
    rw [Draft.ofItems, readAll] at h
    obtain ⟨n, hn, h⟩ := bind_eq_ok_iff.mp h
    obtain ⟨ns, hns, h⟩ := bind_eq_ok_iff.mp h
    obtain rfl := Except.ok.inj h
    rw [toJsonAll, normalForms, hx hu.1 hn, hxs hu.2 hns]

theorem toJsonAll_of_member : ∀ {fs : List (String × Json)}, UniqueFields fs → ∀ f ∈ fs,
    ∀ {ns : List Node}, readChildren .value (.ofJson f.2) = .ok ns → toJsonAll ns = listForms f.2
  | [], _, f, hf => by cases hf
  | (name, x) :: fs, hu, f, hf => by
    have hx := @toJsonAll_of_readChildren x
    have hfs := @toJsonAll_of_member fs
    rcases List.mem_cons.mp hf with rfl | hf
    · exact hx hu.1
    · exact hfs hu.2 f hf

end

end NativeUi.Node
