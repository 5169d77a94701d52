import NativeUi.Proofs.Node.Grammar

/-!
# Nodes of a draft and of its value

A node that is read from a draft is read from the value of the draft as well. In the value, members
that repeat a name have become one; but the members that a node knows stand once, and the others do
not matter to it.
-/
namespace NativeUi

open NativeUi.Json

/-! ### Named values and what is read from them -/

section Rel

variable {α β ε : Type} {R : α → β → Prop} {fs : Fields α} {name key : String} {x : α}

theorem rel_insert_self {b : β} (h : R x b) :
    Option.Rel R (Fields.find? (Fields.insert fs name x) name) (some b) := by
  rw [Fields.find?_insert_self]
  exact .some h

theorem rel_insert_ne {o : Option β} (hk : name ≠ key)
    (h : Option.Rel R (Fields.find? fs key) o) :
    Option.Rel R (Fields.find? (Fields.insert fs name x) key) o := by
  rwa [Fields.find?_insert_ne fs x hk]

theorem rel_unique {read : α → Except ε β} {o : Option α} {b c : Option β}
    (hb : Option.Rel (fun v b => read v = .ok b) o b)
    (hc : Option.Rel (fun v b => read v = .ok b) o c) : b = c := by
  cases hb with
  | none =>
    cases hc
    rfl
  | some hb =>
    cases hc with
    | some hc => rw [Except.ok.inj (hb.symm.trans hc)]

theorem exists_of_rel_some {o : Option β} {v : α} (h : Option.Rel R (some v) o) :
    ∃ b, o = some b ∧ R v b := by
  cases h with
  | some h => exact ⟨_, rfl, h⟩

theorem eq_none_of_rel {o : Option β} (h : Option.Rel R none o) : o = none := by
  cases h
  rfl

end Rel

namespace Json.Draft

theorem value_of_readString {expected s : String} {d : Draft} {v : Json}
    (h : d.readString expected = .ok s) (hv : d.value = .ok v) : v = .string s := by
  cases d with
  | string l =>
    rw [readString] at h
    rw [value, h, ok_bind] at hv
    exact (Except.ok.inj hv).symm
  | _ => cases h

theorem readOptional_cases {α : Type} {read : Draft → Except ReadError α} {d : Draft}
    {x : Option α} (h : d.readOptional read = .ok x) :
    d = .null ∧ x = none ∨ ∃ a, read d = .ok a ∧ x = some a := by
  by_cases hd : d = .null
  · subst hd
    exact .inl ⟨rfl, (Except.ok.inj h).symm⟩
  · rw [readOptional.eq_2 _ _ hd, bind_eq_ok_iff] at h
    obtain ⟨a, ha, hx⟩ := h
    exact .inr ⟨a, ha, (Except.ok.inj hx).symm⟩

theorem value_of_readMap {d : Draft} {v : Json} {fs : Fields Json} (h : d.readMap = .ok fs)
    (hv : d.value = .ok v) : v = .object fs := by
  cases d with
  | object deep members ending =>
    cases deep with
    | true => cases h
    | false =>
      rw [readMap, if_neg Bool.false_ne_true] at h
      rw [value, if_neg Bool.false_ne_true] at hv
      obtain ⟨gs, hg, h⟩ := bind_eq_ok_iff.mp h
      obtain ⟨u, he, h⟩ := bind_eq_ok_iff.mp h
      rw [hg, ok_bind, he, ok_bind] at hv
      rw [← Except.ok.inj hv, Except.ok.inj h]
  | _ => cases h

theorem value_null {v : Json} (hv : value .null = .ok v) : v = .null := (Except.ok.inj hv).symm

theorem items_of_value {deep : Bool} {items : List Draft} {ending : Ending} {v : Json}
    (hv : (list deep items ending).value = .ok v) :
    ∃ xs, valueItems items = .ok xs ∧ v = .list xs := by
  cases deep with
  | true => cases hv
  | false =>
    rw [value, if_neg Bool.false_ne_true] at hv
    obtain ⟨xs, hx, hv⟩ := bind_eq_ok_iff.mp hv
    obtain ⟨-, -, hv⟩ := bind_eq_ok_iff.mp hv
    exact ⟨xs, hx, (Except.ok.inj hv).symm⟩

theorem members_of_value {deep : Bool} {members : List (Literal × Draft)} {ending : Ending}
    {v : Json} (hv : (object deep members ending).value = .ok v) :
    ∃ fs, valueMembers [] members = .ok fs ∧ v = .object fs := by
  cases deep with
  | true => cases hv
  | false =>
    rw [value, if_neg Bool.false_ne_true] at hv
    obtain ⟨fs, hf, hv⟩ := bind_eq_ok_iff.mp hv
    obtain ⟨-, -, hv⟩ := bind_eq_ok_iff.mp hv
    exact ⟨fs, hf, (Except.ok.inj hv).symm⟩

theorem valueItems_cons {d : Draft} {ds : List Draft} {xs : List Json}
    (h : valueItems (d :: ds) = .ok xs) :
    ∃ y ys, d.value = .ok y ∧ valueItems ds = .ok ys ∧ xs = y :: ys := by
  rw [valueItems] at h
  obtain ⟨y, hy, h⟩ := bind_eq_ok_iff.mp h
  obtain ⟨ys, hys, h⟩ := bind_eq_ok_iff.mp h
  exact ⟨y, ys, hy, hys, (Except.ok.inj h).symm⟩

theorem valueItems_nil {xs : List Json} (h : valueItems [] = .ok xs) : xs = [] :=
  (Except.ok.inj h).symm

theorem valueItems_pair {d e : Draft} {xs : List Json} (h : valueItems [d, e] = .ok xs) :
    ∃ x y, d.value = .ok x ∧ e.value = .ok y ∧ xs = [x, y] := by
  obtain ⟨x, ys, hx, hys, rfl⟩ := valueItems_cons h
  obtain ⟨y, zs, hy, hzs, rfl⟩ := valueItems_cons hys
  obtain rfl := valueItems_nil hzs
  exact ⟨x, y, hx, hy, rfl⟩

theorem value_ofJson {v : Json} (hu : v.Unique) : (ofJson v).value = .ok v := by
  rw [ofJson_eq_spelt]
  exact value_spelt faithful_ofString hu

theorem exists_of_mem_ofFields {fs : Fields Json} {m : Literal × Draft} (h : m ∈ ofFields fs) :
    ∃ f ∈ fs, m.2 = ofJson f.2 := by
  induction fs with
  | nil => cases h
  | cons f fs ih =>
    rcases List.mem_cons.mp h with rfl | h
    · exact ⟨f, .head _, rfl⟩
    · obtain ⟨g, hg, he⟩ := ih h
      exact ⟨g, .tail _ hg, he⟩

theorem valueMembers_ofFields {fs : Fields Json} (hu : Json.Unique (.object fs)) :
    valueMembers [] (ofFields fs) = .ok fs := by
  rw [ofFields_eq_spelt]
  exact valueMembers_spelt faithful_ofString hu.1 hu.2

end Json.Draft

namespace Node

/-! ### Single fields -/

variable {d : Draft} {v : Json}

theorem readId_value {id : Option String} (h : readId d = .ok id) (hv : d.value = .ok v) :
    readId (.ofJson v) = .ok id := by
  rcases Draft.readOptional_cases h with ⟨rfl, rfl⟩ | ⟨s, hs, rfl⟩
  · rw [Draft.value_null hv]
    rfl
  · rw [Draft.value_of_readString hs hv]
    simp [readId, Draft.ofJson, Draft.readOptional, Draft.readString, Draft.faithful_ofString s]

theorem readKind_value {kind : Kind} (h : readKind d = .ok kind) (hv : d.value = .ok v) :
    readKind (.ofJson v) = .ok kind := by
  rw [readKind, bind_eq_ok_iff] at h
  obtain ⟨s, hs, hk⟩ := h
  rw [Draft.value_of_readString hs hv, readKind, Draft.ofJson, Draft.readString,
    Draft.faithful_ofString, ok_bind, hk]

theorem readProps_value {props : Fields Json} (h : readProps d = .ok props)
    (hv : d.value = .ok v) : readProps (.ofJson v) = .ok props := by
  rw [readProps, bind_eq_ok_iff] at h
  obtain ⟨x, hx, hp⟩ := h
  obtain rfl := Except.ok.inj hp
  rcases Draft.readOptional_cases hx with ⟨rfl, rfl⟩ | ⟨fs, hfs, rfl⟩
  · rw [Draft.value_null hv]
    rfl
  · have hu := Draft.unique_of_value hv
    obtain rfl := Draft.value_of_readMap hfs hv
    rw [Draft.ofJson_eq_spelt]
    exact readProps_spelt Draft.faithful_ofString hu

/-! ### Members -/

structure Parts.Of (p : Parts) (fs : Fields Json) : Prop where
  id : Option.Rel (fun v x => readId (.ofJson v) = .ok x) (Fields.find? fs "id") p.id
  kind : Option.Rel (fun v x => readKind (.ofJson v) = .ok x) (Fields.find? fs "type") p.kind
  props : Option.Rel (fun v x => readProps (.ofJson v) = .ok x) (Fields.find? fs "props") p.props
  children : Option.Rel (fun v x => readChildren .value (.ofJson v) = .ok x)
    (Fields.find? fs "children") p.children

theorem Parts.of_empty : Parts.empty.Of [] := ⟨.none, .none, .none, .none⟩

theorem Parts.Of.unique {p q : Parts} {fs : Fields Json} (hp : p.Of fs) (hq : q.Of fs) :
    p = q := by
  obtain ⟨i, k, ps, cs⟩ := p
  obtain ⟨j, l, qs, ds⟩ := q
  obtain rfl : i = j := rel_unique hp.id hq.id
  obtain rfl : k = l := rel_unique hp.kind hq.kind
  obtain rfl : ps = qs := rel_unique hp.props hq.props
  obtain rfl : cs = ds := rel_unique hp.children hq.children
  rfl

theorem Parts.Of.isNode {p : Parts} {fs : Fields Json} (h : p.Of fs)
    (hu : Json.Unique (.object fs)) (hk : p.kind.isSome = true) : IsNode (.object fs) := by
  have unique {name : String} {v : Json} (hv : Fields.find? fs name = some v) : v.Unique :=
    uniqueFields_iff.mp hu.2 _ (Fields.mem_of_find? hv)
  obtain ⟨id, kind, props, children⟩ := h
  cases ht : Fields.find? fs "type" with
  | none =>
    rw [ht] at kind
    rw [eq_none_of_rel kind] at hk
    cases hk
  | some v =>
    rw [ht] at kind
    obtain ⟨k, -, hr⟩ := exists_of_rel_some kind
    obtain ⟨s, rfl⟩ := exists_readKind_iff.mp ⟨k, hr⟩
    refine .object ht ?_ ?_ ?_
    · intro v hv
      rw [Option.mem_def.mp hv] at id
      obtain ⟨x, -, hx⟩ := exists_of_rel_some id
      exact exists_readId_iff.mp ⟨x, hx⟩
    · intro v hv
      rw [Option.mem_def.mp hv] at props
      obtain ⟨x, -, hx⟩ := exists_of_rel_some props
      exact (exists_readProps_iff (unique hv)).mp ⟨x, hx⟩
    · intro v hv
      rw [Option.mem_def.mp hv] at children
      obtain ⟨x, -, hx⟩ := exists_of_rel_some children
      exact (exists_readChildren_iff .value (unique hv)).mp ⟨x, hx⟩

/-- Members that are read one after the other, and the record of their values: what has been met is
what stands in the record. -/
theorem Parts.Of.readMembers {origin : Origin} {ms : List (Literal × Draft)}
    (hc : ∀ m ∈ ms, ∀ {ns v}, readChildren origin m.2 = .ok ns → m.2.value = .ok v →
      readChildren .value (.ofJson v) = .ok ns)
    {parts p : Parts} {seen fs : Fields Json} (h : parts.Of seen)
    (hp : Node.readMembers origin parts ms = .ok p) (hv : Draft.valueMembers seen ms = .ok fs) :
    p.Of fs := by
  induction ms generalizing parts seen with
  | nil =>
    obtain rfl := Except.ok.inj hp
    obtain rfl := Except.ok.inj hv
    exact h
  | cons m ms ih =>
    obtain ⟨l, d⟩ := m
    have hc' : ∀ m ∈ ms, ∀ {ns v}, readChildren origin m.2 = .ok ns → m.2.value = .ok v →
        readChildren .value (.ofJson v) = .ok ns := fun m hm => hc m (.tail _ hm)
    rw [Draft.valueMembers] at hv
    obtain ⟨name, hn, hv⟩ := bind_eq_ok_iff.mp hv
    obtain ⟨x, hx, hv⟩ := bind_eq_ok_iff.mp hv
    obtain ⟨_, hn', hp⟩ := readMembers_cons hp
    obtain rfl := Except.ok.inj (hn.symm.trans hn')
    rcases hp with ⟨rfl, id, hr, hp⟩ | ⟨rfl, kind, hr, hp⟩ | ⟨rfl, props, hr, hp⟩ |
      ⟨rfl, children, hr, hp⟩ | ⟨hk, hp⟩
    · refine ih hc' ?_ hp hv
      exact ⟨rel_insert_self (readId_value hr hx), rel_insert_ne (by decide) h.kind,
        rel_insert_ne (by decide) h.props, rel_insert_ne (by decide) h.children⟩
    · refine ih hc' ?_ hp hv
      exact ⟨rel_insert_ne (by decide) h.id, rel_insert_self (readKind_value hr hx),
        rel_insert_ne (by decide) h.props, rel_insert_ne (by decide) h.children⟩
    · refine ih hc' ?_ hp hv
      exact ⟨rel_insert_ne (by decide) h.id, rel_insert_ne (by decide) h.kind,
        rel_insert_self (readProps_value hr hx), rel_insert_ne (by decide) h.children⟩
    · refine ih hc' ?_ hp hv
      exact ⟨rel_insert_ne (by decide) h.id, rel_insert_ne (by decide) h.kind,
        rel_insert_ne (by decide) h.props, rel_insert_self (hc _ (.head _) hr hx)⟩
    · refine ih hc' ?_ hp hv
      simp only [List.mem_cons, List.not_mem_nil, or_false, not_or] at hk
      exact ⟨rel_insert_ne hk.1 h.id, rel_insert_ne hk.2.1 h.kind,
        rel_insert_ne hk.2.2.1 h.props, rel_insert_ne hk.2.2.2 h.children⟩

theorem Parts.of_readMembers {p : Parts} {fs : Fields Json} (hu : Json.Unique (.object fs))
    (h : Node.readMembers .value .empty (Draft.ofFields fs) = .ok p) : p.Of fs := by
  refine Parts.of_empty.readMembers ?_ h (Draft.valueMembers_ofFields hu)
  intro m hm ns v hr hv
  obtain ⟨f, hf, he⟩ := Draft.exists_of_mem_ofFields hm
  rw [he, Draft.value_ofJson (uniqueFields_iff.mp hu.2 f hf)] at hv
  rw [he] at hr
  exact Except.ok.inj hv ▸ hr

theorem Parts.Of.read {p : Parts} {fs : Fields Json} (h : p.Of fs)
    (hu : Json.Unique (.object fs)) {n : Node} (hn : p.finish = .ok n) :
    Node.read .value (.ofJson (.object fs)) = .ok n := by
  have hk : p.kind.isSome = true := by
    cases hk : p.kind with
    | none => simp [Parts.finish, hk] at hn
    | some kind => rfl
  obtain ⟨m, hm⟩ := (exists_read_iff .value hu).mpr (h.isNode hu hk)
  rw [Draft.ofJson, Node.read, if_neg Bool.false_ne_true] at hm ⊢
  obtain ⟨q, hq, hm⟩ := bind_eq_ok_iff.mp hm
  rw [hq, (Parts.of_readMembers hu hq).unique h]
  exact hn

/-! ### Whole nodes -/

mutual

theorem read_value (origin : Origin) : ∀ {d : Draft} {n : Node} {v : Json},
    read origin d = .ok n → d.value = .ok v → read .value (.ofJson v) = .ok n
  | .null, _, _, h, _ => by cases h
  | .bool _, _, _, h, _ => by cases h
  | .number _, _, _, h, _ => by cases h
  | .string _, _, _, h, _ => by cases h
  | .fault _, _, _, h, _ => by cases h
  | .list _ [] _, _, _, h, _ => by cases readsItems_of_read h
  | .list _ [_] _, _, _, h, _ => by cases readsItems_of_read h
  | .list _ [i, k] _, _, _, h, hv => by
    obtain ⟨xs, hxs, rfl⟩ := Draft.items_of_value hv
    obtain ⟨x, y, hx, hy, rfl⟩ := Draft.valueItems_pair hxs
    cases readsItems_of_read h with
    | pair hi hk =>
      exact (ReadsItems.pair (readId_value hi hx) (readKind_value hk hy)).read
  | .list _ [i, k, p] _, _, _, h, hv => by
    obtain ⟨xs, hxs, rfl⟩ := Draft.items_of_value hv
    obtain ⟨x, ys, hx, hys, rfl⟩ := Draft.valueItems_cons hxs
    obtain ⟨y, z, hy, hz, rfl⟩ := Draft.valueItems_pair hys
    cases readsItems_of_read h with
    | triple hi hk hp =>
      exact (ReadsItems.triple (readId_value hi hx) (readKind_value hk hy)
        (readProps_value hp hz)).read
  | .list _ [i, k, p, c] _, _, _, h, hv => by
    obtain ⟨xs, hxs, rfl⟩ := Draft.items_of_value hv
    obtain ⟨x, ys, hx, hys, rfl⟩ := Draft.valueItems_cons hxs
    obtain ⟨y, zs, hy, hzs, rfl⟩ := Draft.valueItems_cons hys
    obtain ⟨z, w, hz, hw, rfl⟩ := Draft.valueItems_pair hzs
    cases readsItems_of_read h with
    | full hi hk hp hc =>
      exact (ReadsItems.full (readId_value hi hx) (readKind_value hk hy) (readProps_value hp hz)
        (readChildren_value origin hc hw)).read
  | .list _ (_ :: _ :: _ :: _ :: _ :: _) _, _, _, h, _ => by cases readsItems_of_read h
  | .object true _ _, _, _, h, _ => by
    rw [read, if_pos rfl] at h
    cases h
  | .object false ms _, _, _, h, hv => by
    have hu := Draft.unique_of_value hv
    have hc := @members_value origin ms
    obtain ⟨fs, hfs, rfl⟩ := Draft.members_of_value hv
    simp only [read, Bool.false_eq_true, if_false, bind_eq_ok_iff] at h
    obtain ⟨p, hp, -, -, hn⟩ := h
    exact (Parts.of_empty.readMembers hc hp hfs).read hu hn

theorem readChildren_value (origin : Origin) : ∀ {d : Draft} {ns : List Node} {v : Json},
    readChildren origin d = .ok ns → d.value = .ok v → readChildren .value (.ofJson v) = .ok ns
  | .null, _, _, h, hv => by
    rw [Draft.value_null hv]
    exact h
  | .bool _, _, _, h, _ => by cases h
  | .number _, _, _, h, _ => by cases h
  | .string _, _, _, h, _ => by cases h
  | .object _ _ _, _, _, h, _ => by cases h
  | .list true _ _, _, _, h, _ => by
    rw [readChildren, if_pos rfl] at h
    cases h
  | .list false items _, _, _, h, hv => by
    obtain ⟨xs, hxs, rfl⟩ := Draft.items_of_value hv
    simp only [readChildren, Bool.false_eq_true, if_false, bind_eq_ok_iff] at h
    obtain ⟨ns, hns, -, -, h⟩ := h
    have hns := readAll_value origin hns hxs
    simp only [Draft.ofJson, readChildren, Bool.false_eq_true, if_false, bind_eq_ok_iff]
    exact ⟨ns, hns, (), rfl, h⟩

theorem readAll_value (origin : Origin) : ∀ {ds : List Draft} {ns : List Node} {xs : List Json},
    readAll origin ds = .ok ns → Draft.valueItems ds = .ok xs →
      readAll .value (Draft.ofItems xs) = .ok ns
  | [], _, _, h, hv => by
    rw [Draft.valueItems_nil hv]
    exact h
  | d :: ds, _, _, h, hv => by
    obtain ⟨y, ys, hy, hys, rfl⟩ := Draft.valueItems_cons hv
    simp only [readAll, bind_eq_ok_iff] at h
    obtain ⟨n, hn, ns, hns, h⟩ := h
    have hn := read_value origin hn hy
    have hns := readAll_value origin hns hys
    simp only [Draft.ofItems, readAll, bind_eq_ok_iff]
    exact ⟨n, hn, ns, hns, h⟩

theorem members_value (origin : Origin) : ∀ {ms : List (Literal × Draft)}, ∀ m ∈ ms, ∀ {ns v},
    readChildren origin m.2 = .ok ns → m.2.value = .ok v →
      readChildren .value (.ofJson v) = .ok ns
  | [], m, hm => by cases hm
  | (l, d) :: ms, m, hm => by
    have hd := @readChildren_value origin d
    have hms := @members_value origin ms
    rcases List.mem_cons.mp hm with rfl | hm
    · exact hd
    · exact hms m hm

end

end Node

end NativeUi
