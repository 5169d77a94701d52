import NativeUi.Node.Reader
import NativeUi.Proofs.Json.Draft

/-!
# Nodes read back

The value of a node is read as the node. It may be nested more deeply than the value the node was
read from, for it spells out what was left out there; but nodes stand two levels apart, so it never
goes beyond the next even depth.
-/
namespace NativeUi.Node

open NativeUi.Json

/-! ### Nodes that can be written -/

mutual

/-- Kinds have their own names, and no property is named twice, not even inside another. -/
def Unique : Node → Prop
  | ⟨_, kind, props, children⟩ =>
    Kind.ofName kind.name = kind ∧ Json.Unique (.object props) ∧ UniqueAll children

def UniqueAll : List Node → Prop
  | [] => True
  | n :: ns => Unique n ∧ UniqueAll ns

end

theorem ofName_name_ofName (s : String) : Kind.ofName (Kind.ofName s).name = Kind.ofName s := by
  rw [Kind.name_ofName]

def idFields : Option String → Fields Json
  | none => []
  | some id => [("id", .string id)]

def childrenFields : List Node → Fields Json
  | [] => []
  | n :: ns => [("children", .list (toJsonAll (n :: ns)))]

theorem toJson_eq (id : Option String) (kind : Kind) (props : Fields Json) (children : List Node) :
    toJson ⟨id, kind, props, children⟩ =
      .object (idFields id ++ [("type", .string kind.name), ("props", .object props)] ++
        childrenFields children) := by
  cases id <;> cases children <;> simp [toJson, idFields, childrenFields, toJsonAll]

variable {literal : String → Literal}

theorem readKind_spelt (hl : Draft.Faithful literal) {k : Kind} (hk : Kind.ofName k.name = k) :
    readKind (.string (literal k.name)) = .ok k := by
  rw [readKind, Draft.readString, hl, ok_bind, hk]

theorem readProps_spelt (hl : Draft.Faithful literal) {props : Fields Json}
    (h : Json.Unique (.object props)) :
    readProps (.object false (Draft.speltFields literal props) .closed) = .ok props := by
  have hm : Draft.valueMembers [] (Draft.speltFields literal props) = .ok props :=
    Draft.valueMembers_spelt hl h.1 h.2
  simp only [readProps, Draft.readOptional, Draft.readMap, hm, Bool.false_eq_true, if_false]
  rfl

section Members

variable {origin : Origin} {parts : Parts} {d : Draft} (ms : List (Literal × Draft))

theorem readMembers_id (hl : Draft.Faithful literal) {id : Option String} (hp : parts.id = none)
    (hd : readId d = .ok id) :
    readMembers origin parts ((literal "id", d) :: ms) =
      readMembers origin ⟨some id, parts.kind, parts.props, parts.children⟩ ms := by
  rw [readMembers, hl, ok_bind, if_pos rfl]
  simp [hp, hd]

theorem readMembers_type (hl : Draft.Faithful literal) {kind : Kind} (hp : parts.kind = none)
    (hd : readKind d = .ok kind) :
    readMembers origin parts ((literal "type", d) :: ms) =
      readMembers origin ⟨parts.id, some kind, parts.props, parts.children⟩ ms := by
  rw [readMembers, hl, ok_bind, if_neg (by decide), if_pos rfl]
  simp [hp, hd]

theorem readMembers_props (hl : Draft.Faithful literal) {props : Fields Json}
    (hp : parts.props = none) (hd : readProps d = .ok props) :
    readMembers origin parts ((literal "props", d) :: ms) =
      readMembers origin ⟨parts.id, parts.kind, some props, parts.children⟩ ms := by
  rw [readMembers, hl, ok_bind, if_neg (by decide), if_neg (by decide), if_pos rfl]
  simp [hp, hd]

theorem readMembers_children (hl : Draft.Faithful literal) {children : List Node}
    (hp : parts.children = none) (hd : readChildren origin d = .ok children) :
    readMembers origin parts ((literal "children", d) :: ms) =
      readMembers origin ⟨parts.id, parts.kind, parts.props, some children⟩ ms := by
  rw [readMembers, hl, ok_bind, if_neg (by decide), if_neg (by decide), if_neg (by decide),
    if_pos rfl]
  simp [hp, hd]

end Members

theorem readMembers_optionalId (hl : Draft.Faithful literal) (origin : Origin)
    (id : Option String) (ms : List (Literal × Draft)) :
    readMembers origin .empty (Draft.speltFields literal (idFields id) ++ ms) =
      readMembers origin ⟨id.map some, none, none, none⟩ ms := by
  cases id with
  | none => rfl
  | some s =>
    have hs := hl s
    have hd : readId (.string (literal s)) = .ok (some s) := by
      simp [readId, Draft.readOptional, Draft.readString, hs]
    simp only [idFields, Draft.speltFields, Draft.spelt, List.cons_append, List.nil_append]
    exact readMembers_id ms hl rfl hd

mutual

theorem read_spelt (hl : Draft.Faithful literal) (origin : Origin) :
    ∀ {n : Node}, n.Unique → read origin (Draft.spelt literal n.toJson) = .ok n
  | ⟨id, kind, props, children⟩, h => by
    obtain ⟨hk, hp, hc⟩ := h
    have hkind := readKind_spelt hl hk
    have hprops := readProps_spelt hl hp
    rw [toJson_eq, Draft.spelt, read, if_neg (by decide), Draft.speltFields_append,
      Draft.speltFields_append, List.append_assoc, readMembers_optionalId hl]
    simp only [Draft.speltFields, Draft.spelt, List.cons_append, List.nil_append]
    rw [readMembers_type _ hl rfl hkind, readMembers_props _ hl rfl hprops]
    cases children with
    | nil => cases id <;> rfl
    | cons child rest =>
      have hall := readAll_spelt hl origin hc
      have hchildren : readChildren origin (Draft.spelt literal
          (.list (toJsonAll (child :: rest)))) = .ok (child :: rest) := by
        rw [Draft.spelt, readChildren, if_neg (by decide), hall]
        rfl
      rw [childrenFields, Draft.speltFields, readMembers_children _ hl rfl hchildren]
      cases id <;> rfl

theorem readAll_spelt (hl : Draft.Faithful literal) (origin : Origin) :
    ∀ {ns : List Node}, UniqueAll ns →
      readAll origin (Draft.speltItems literal (toJsonAll ns)) = .ok ns
  | [], _ => rfl
  | n :: ns, h => by
    rw [toJsonAll, Draft.speltItems, readAll, read_spelt hl origin h.1, ok_bind,
      readAll_spelt hl origin h.2, ok_bind]

end

mutual

theorem unique_toJson : ∀ {n : Node}, n.Unique → n.toJson.Unique
  | ⟨id, kind, props, []⟩, h => by
    obtain ⟨-, ⟨hd, hp⟩, -⟩ := h
    rw [toJson_eq]
    cases id <;>
      simp [idFields, childrenFields, Json.Unique, UniqueFields, Fields.Distinct, hp] <;>
      exact hd
  | ⟨id, kind, props, child :: rest⟩, h => by
    obtain ⟨-, ⟨hd, hp⟩, hc⟩ := h
    have hall := unique_toJsonAll hc
    rw [toJson_eq]
    cases id <;>
      simp [idFields, childrenFields, Json.Unique, UniqueFields, Fields.Distinct, hp, hall] <;>
      exact hd

theorem unique_toJsonAll : ∀ {ns : List Node}, UniqueAll ns → UniqueItems (toJsonAll ns)
  | [], _ => trivial
  | _ :: _, h => ⟨unique_toJson h.1, unique_toJsonAll h.2⟩

end

mutual

theorem same_self : ∀ {n : Node}, n.Unique → same n n = true
  | ⟨_, _, _, _⟩, ⟨_, hp, hc⟩ => by simp [same, Json.same_self hp, sameAll_self hc]

theorem sameAll_self : ∀ {ns : List Node}, UniqueAll ns → sameAll ns ns = true
  | [], _ => rfl
  | _ :: _, h => by rw [sameAll, same_self h.1, sameAll_self h.2, Bool.and_true]

end

/-! ### Nodes that have been read -/

theorem depth_toJson (id : Option String) (kind : Kind) (props : Fields Json)
    (children : List Node) :
    (toJson ⟨id, kind, props, children⟩).depth =
      2 + max (depthFields props) (depthItems (toJsonAll children)) := by
  cases id <;> cases children <;>
    simp [toJson_eq, idFields, childrenFields, Json.depth, depthFields, depthItems, toJsonAll] <;>
    omega

structure Parts.Good (p : Parts) (k : Nat) : Prop where
  kind : ∀ x ∈ p.kind, Kind.ofName x.name = x
  props : ∀ x ∈ p.props, Json.Unique (.object x) ∧ depthFields x ≤ k - 1
  children : ∀ x ∈ p.children, UniqueAll x ∧ depthItems (toJsonAll x) ≤ 2 * (k / 2)

theorem Parts.good_empty (k : Nat) : Parts.empty.Good k := by
  constructor <;> simp [Parts.empty]

theorem Parts.Good.finish {p : Parts} {k : Nat} (h : p.Good k) {n : Node}
    (hn : p.finish = .ok n) : n.Unique ∧ n.toJson.depth ≤ 2 * ((k + 2) / 2) := by
  unfold Parts.finish at hn
  split at hn
  · cases hn
  · next kind hk =>
    obtain rfl := Except.ok.inj hn
    have hp : Json.Unique (.object (p.props.getD [])) ∧ depthFields (p.props.getD []) ≤ k - 1 := by
      cases hx : p.props with
      | none => exact ⟨⟨Fields.distinct_nil, trivial⟩, Nat.zero_le _⟩
      | some x => exact h.props x hx
    have hc : UniqueAll (p.children.getD []) ∧
        depthItems (toJsonAll (p.children.getD [])) ≤ 2 * (k / 2) := by
      cases hx : p.children with
      | none => exact ⟨trivial, Nat.zero_le _⟩
      | some x => exact h.children x hx
    refine ⟨⟨h.kind kind hk, hp.1, hc.1⟩, ?_⟩
    rw [depth_toJson]
    omega

theorem Parts.Good.finish_list {p : Parts} {items : List Json} (h : p.Good (depthItems items))
    {n : Node} (hn : p.finish = .ok n) :
    n.Unique ∧ n.toJson.depth ≤ 2 * (((Json.list items).depth + 1) / 2) := by
  have hf := h.finish hn
  rw [Json.depth]
  exact ⟨hf.1, by omega⟩

inductive ReadsItems (origin : Origin) : List Draft → Node → Prop
  | pair {i k : Draft} {id : Option String} {kind : Kind} (hi : readId i = .ok id)
      (hk : readKind k = .ok kind) : ReadsItems origin [i, k] ⟨id, kind, [], []⟩
  | triple {i k p : Draft} {id : Option String} {kind : Kind} {props : Fields Json}
      (hi : readId i = .ok id) (hk : readKind k = .ok kind) (hp : readProps p = .ok props) :
      ReadsItems origin [i, k, p] ⟨id, kind, props, []⟩
  | full {i k p c : Draft} {id : Option String} {kind : Kind} {props : Fields Json}
      {children : List Node} (hi : readId i = .ok id) (hk : readKind k = .ok kind)
      (hp : readProps p = .ok props) (hc : readChildren origin c = .ok children) :
      ReadsItems origin [i, k, p, c] ⟨id, kind, props, children⟩

theorem readsItems_of_read {origin : Origin} {deep : Bool} {items : List Draft} {ending : Ending}
    {n : Node} (h : read origin (.list deep items ending) = .ok n) : ReadsItems origin items n := by
  cases deep with
  | true => simp [read] at h
  | false =>
    rcases items with _ | ⟨i, _ | ⟨k, _ | ⟨p, _ | ⟨c, rest⟩⟩⟩⟩ <;>
      simp only [read, Bool.false_eq_true, if_false, bind_eq_ok_iff] at h
    · obtain ⟨-, -, h⟩ := h
      cases h
    · obtain ⟨-, -, -, -, h⟩ := h
      cases h
    · obtain ⟨id, hi, kind, hk, -, -, h⟩ := h
      obtain rfl := Except.ok.inj h
      exact .pair hi hk
    · obtain ⟨id, hi, kind, hk, props, hp, -, -, h⟩ := h
      obtain rfl := Except.ok.inj h
      exact .triple hi hk hp
    · obtain ⟨id, hi, kind, hk, props, hp, children, hc, h⟩ := h
      split_ifs at h with hr
      · obtain ⟨-, -, h⟩ := bind_eq_ok_iff.mp h
        obtain rfl := Except.ok.inj h
        obtain rfl := List.isEmpty_iff.mp hr
        exact .full hi hk hp hc
      · cases h

theorem ReadsItems.read {origin : Origin} {items : List Draft} {n : Node}
    (h : ReadsItems origin items n) : Node.read origin (.list false items .closed) = .ok n := by
  cases h with
  | pair hi hk =>
    simp only [Node.read, hi, hk, ok_bind, Bool.false_eq_true, if_false]
    rfl
  | triple hi hk hp =>
    simp only [Node.read, hi, hk, hp, ok_bind, Bool.false_eq_true, if_false]
    rfl
  | full hi hk hp hc =>
    simp only [Node.read, hi, hk, hp, hc, ok_bind, Bool.false_eq_true, if_false]
    rfl

theorem readMembers_cons {origin : Origin} {parts p : Parts} {l : Literal} {d : Draft}
    {ms : List (Literal × Draft)} (h : readMembers origin parts ((l, d) :: ms) = .ok p) :
    ∃ name, l.text = .ok name ∧
      ((name = "id" ∧ ∃ id, readId d = .ok id ∧
        readMembers origin ⟨some id, parts.kind, parts.props, parts.children⟩ ms = .ok p) ∨
      (name = "type" ∧ ∃ kind, readKind d = .ok kind ∧
        readMembers origin ⟨parts.id, some kind, parts.props, parts.children⟩ ms = .ok p) ∨
      (name = "props" ∧ ∃ props, readProps d = .ok props ∧
        readMembers origin ⟨parts.id, parts.kind, some props, parts.children⟩ ms = .ok p) ∨
      (name = "children" ∧ ∃ children, readChildren origin d = .ok children ∧
        readMembers origin ⟨parts.id, parts.kind, parts.props, some children⟩ ms = .ok p) ∨
      (name ∉ ["id", "type", "props", "children"] ∧ readMembers origin parts ms = .ok p)) := by
  rw [readMembers, bind_eq_ok_iff] at h
  obtain ⟨name, hn, h⟩ := h
  refine ⟨name, hn, ?_⟩
  split_ifs at h with h1 h2 h3 h4 h5 h6 h7 h8
  · cases h
  · exact .inl ⟨h1, bind_eq_ok_iff.mp h⟩
  · cases h
  · exact .inr (.inl ⟨h3, bind_eq_ok_iff.mp h⟩)
  · cases h
  · exact .inr (.inr (.inl ⟨h5, bind_eq_ok_iff.mp h⟩))
  · cases h
  · exact .inr (.inr (.inr (.inl ⟨h7, bind_eq_ok_iff.mp h⟩)))
  · obtain ⟨-, -, h⟩ := bind_eq_ok_iff.mp h
    exact .inr (.inr (.inr (.inr ⟨by simp [h1, h3, h5, h7], h⟩)))

theorem name_of_readKind {d : Draft} {k : Kind} (h : readKind d = .ok k) :
    Kind.ofName k.name = k := by
  rw [readKind, bind_eq_ok_iff] at h
  obtain ⟨name, -, hk⟩ := h
  obtain rfl := Except.ok.inj hk
  exact ofName_name_ofName name

theorem good_of_readProps (hl : Draft.Faithful literal) {v : Json} {props : Fields Json} {k : Nat}
    (hu : v.Unique) (hd : v.depth ≤ k) (h : readProps (Draft.spelt literal v) = .ok props) :
    Json.Unique (.object props) ∧ depthFields props ≤ k - 1 := by
  match v with
  | .null =>
    obtain rfl := Except.ok.inj h
    exact ⟨⟨Fields.distinct_nil, trivial⟩, Nat.zero_le _⟩
  | .object fields =>
    rw [Draft.spelt, readProps_spelt hl hu] at h
    obtain rfl := Except.ok.inj h
    rw [Json.depth] at hd
    exact ⟨hu, by omega⟩
  | .bool _ => cases h
  | .number _ => cases h
  | .string s =>
    simp [readProps, Draft.readOptional, Draft.readMap, Draft.spelt] at h
  | .list _ => cases h

mutual

/-- A node that has been read can be written; its value is at most as deep as the one it was read
from, rounded up to the next even depth. -/
theorem unique_of_read (hl : Draft.Faithful literal) (origin : Origin) :
    ∀ {v : Json} {n : Node}, v.Unique → read origin (Draft.spelt literal v) = .ok n →
      n.Unique ∧ n.toJson.depth ≤ 2 * ((v.depth + 1) / 2)
  | .null, n, _, h => by cases h
  | .bool _, n, _, h => by cases h
  | .number _, n, _, h => by cases h
  | .string s, n, _, h => by cases h
  | .list [], _, _, h => by cases readsItems_of_read h
  | .list [_], _, _, h => by cases readsItems_of_read h
  | .list [i, x], _, _, h => by
    cases readsItems_of_read h with
    | @pair _ _ id kind _ hk =>
      have hg : Parts.Good ⟨some id, some kind, none, none⟩ (depthItems [i, x]) :=
        ⟨by simpa using name_of_readKind hk, by simp, by simp⟩
      exact hg.finish_list rfl
  | .list [i, x, p], _, hu, h => by
    have hle := depthItems_le_iff.mp (Nat.le_refl (depthItems [i, x, p]))
    cases readsItems_of_read h with
    | @triple _ _ _ id kind props _ hk hp =>
      have hp := good_of_readProps hl hu.2.2.1 (hle p (by simp)) hp
      have hg : Parts.Good ⟨some id, some kind, some props, none⟩ (depthItems [i, x, p]) :=
        ⟨by simpa using name_of_readKind hk, by simpa using hp, by simp⟩
      exact hg.finish_list rfl
  | .list [i, x, p, c], _, hu, h => by
    have hle := depthItems_le_iff.mp (Nat.le_refl (depthItems [i, x, p, c]))
    cases readsItems_of_read h with
    | @full _ _ _ _ id kind props children _ hk hp hc =>
      have hp := good_of_readProps hl hu.2.2.1 (hle p (by simp)) hp
      have hc := unique_of_readChildren hl origin hu.2.2.2.1 (hle c (by simp)) hc
      have hg : Parts.Good ⟨some id, some kind, some props, some children⟩
          (depthItems [i, x, p, c]) :=
        ⟨by simpa using name_of_readKind hk, by simpa using hp, by simpa using hc⟩
      exact hg.finish_list rfl
  | .list (_ :: _ :: _ :: _ :: _ :: _), _, _, h => by cases readsItems_of_read h
  | .object fields, n, hu, h => by
    rw [Draft.spelt, read, if_neg (by decide), bind_eq_ok_iff] at h
    obtain ⟨parts, hp, hn⟩ := h
    have hg := good_of_readMembers hl origin hu.2 (Nat.le_refl _) hp (Parts.good_empty _)
    have hf := hg.finish hn
    rw [Json.depth]
    exact ⟨hf.1, by omega⟩

theorem good_of_readMembers (hl : Draft.Faithful literal) (origin : Origin) {k : Nat} :
    ∀ {fs : List (String × Json)} {parts p : Parts}, UniqueFields fs → depthFields fs ≤ k →
      readMembers origin parts (Draft.speltFields literal fs) = .ok p → parts.Good k → p.Good k
  | [], parts, p, _, _, h, hg => by
    rw [Draft.speltFields, readMembers] at h
    obtain rfl := Except.ok.inj h
    exact hg
  | (name, x) :: fs, parts, p, hu, hd, h, hg => by
    rw [depthFields, Nat.max_le] at hd
    rw [Draft.speltFields] at h
    obtain ⟨-, -, ⟨-, id, -, h⟩ | ⟨-, kind, hk, h⟩ | ⟨-, props, hp, h⟩ | ⟨-, cs, hc, h⟩ | ⟨-, h⟩⟩ :=
      readMembers_cons h
    · exact good_of_readMembers hl origin hu.2 hd.2 h ⟨hg.kind, hg.props, hg.children⟩
    · have hk := name_of_readKind hk
      exact good_of_readMembers hl origin hu.2 hd.2 h ⟨by simpa using hk, hg.props, hg.children⟩
    · have hp := good_of_readProps hl hu.1 hd.1 hp
      exact good_of_readMembers hl origin hu.2 hd.2 h ⟨hg.kind, by simpa using hp, hg.children⟩
    · have hc := unique_of_readChildren hl origin hu.1 hd.1 hc
      exact good_of_readMembers hl origin hu.2 hd.2 h ⟨hg.kind, hg.props, by simpa using hc⟩
    · exact good_of_readMembers hl origin hu.2 hd.2 h hg

theorem unique_of_readChildren (hl : Draft.Faithful literal) (origin : Origin) {k : Nat} :
    ∀ {v : Json} {ns : List Node}, v.Unique → v.depth ≤ k →
      readChildren origin (Draft.spelt literal v) = .ok ns →
      UniqueAll ns ∧ depthItems (toJsonAll ns) ≤ 2 * (k / 2)
  | .null, ns, _, _, h => by
    rw [Draft.spelt, readChildren] at h
    obtain rfl := Except.ok.inj h
    exact ⟨trivial, Nat.zero_le _⟩
  | .bool _, ns, _, _, h => by cases h
  | .number _, ns, _, _, h => by cases h
  | .string _, ns, _, _, h => by cases h
  | .list items, ns, hu, hd, h => by
    rw [Draft.spelt, readChildren, if_neg (by decide), bind_eq_ok_iff] at h
    obtain ⟨ms, hm, hn⟩ := h
    obtain rfl := Except.ok.inj hn
    have hi := unique_of_readAll hl origin hu hm
    rw [Json.depth] at hd
    exact ⟨hi.1, by omega⟩
  | .object _, ns, _, _, h => by cases h

theorem unique_of_readAll (hl : Draft.Faithful literal) (origin : Origin) :
    ∀ {xs : List Json} {ns : List Node}, UniqueItems xs →
      readAll origin (Draft.speltItems literal xs) = .ok ns →
      UniqueAll ns ∧ depthItems (toJsonAll ns) ≤ 2 * ((depthItems xs + 1) / 2)
  | [], ns, _, h => by
    rw [Draft.speltItems, readAll] at h
    obtain rfl := Except.ok.inj h
    exact ⟨trivial, Nat.zero_le _⟩
  | x :: xs, ns, hu, h => by
    simp only [Draft.speltItems, readAll, bind_eq_ok_iff] at h
    obtain ⟨m, hm, ms, hms, hn⟩ := h
    obtain rfl := Except.ok.inj hn
    have hx := unique_of_read hl origin hu.1 hm
    have hxs := unique_of_readAll hl origin hu.2 hms
    refine ⟨⟨hx.1, hxs.1⟩, ?_⟩
    rw [toJsonAll, depthItems, depthItems]
    omega

end

end NativeUi.Node
