import NativeUi.Proofs.Node.RoundTrip

/-!
# The values that are nodes

A value is read as a node exactly if it has the form of one: an object with the known members, or a
list of two to four items in their order. Members of other names may hold anything.
-/
namespace NativeUi.Node

open NativeUi.Json

inductive IsId : Json → Prop
  | null : IsId .null
  | string (s : String) : IsId (.string s)

inductive IsProps : Json → Prop
  | null : IsProps .null
  | object (fields : Fields Json) : IsProps (.object fields)

mutual

inductive IsNode : Json → Prop
  | object {fields : Fields Json} {kind : String}
      (type : Fields.find? fields "type" = some (.string kind))
      (id : ∀ v ∈ Fields.find? fields "id", IsId v)
      (props : ∀ v ∈ Fields.find? fields "props", IsProps v)
      (children : ∀ v ∈ Fields.find? fields "children", IsChildren v) : IsNode (.object fields)
  | pair {i : Json} {kind : String} (id : IsId i) : IsNode (.list [i, .string kind])
  | triple {i p : Json} {kind : String} (id : IsId i) (props : IsProps p) :
      IsNode (.list [i, .string kind, p])
  | full {i p c : Json} {kind : String} (id : IsId i) (props : IsProps p)
      (children : IsChildren c) : IsNode (.list [i, .string kind, p, c])

inductive IsChildren : Json → Prop
  | null : IsChildren .null
  | list {items : List Json} (nodes : ∀ x ∈ items, IsNode x) : IsChildren (.list items)

end

/-! ### Members -/

theorem exists_readId_iff {v : Json} : (∃ id, readId (.ofJson v) = .ok id) ↔ IsId v := by
  constructor
  · rintro ⟨id, h⟩
    cases v with
    | null => exact .null
    | string s => exact .string s
    | _ => cases h
  · rintro (_ | s)
    · exact ⟨none, rfl⟩
    · refine ⟨some s, ?_⟩
      simp [readId, Draft.ofJson, Draft.readOptional, Draft.readString, Draft.faithful_ofString s]

theorem exists_readKind_iff {v : Json} :
    (∃ kind, readKind (.ofJson v) = .ok kind) ↔ ∃ s, v = .string s := by
  constructor
  · rintro ⟨kind, h⟩
    cases v with
    | string s => exact ⟨s, rfl⟩
    | _ => cases h
  · rintro ⟨s, rfl⟩
    refine ⟨.ofName s, ?_⟩
    rw [readKind, Draft.ofJson, Draft.readString, Draft.faithful_ofString, ok_bind]

theorem exists_readProps_iff {v : Json} (hu : v.Unique) :
    (∃ props, readProps (.ofJson v) = .ok props) ↔ IsProps v := by
  constructor
  · rintro ⟨props, h⟩
    cases v with
    | null => exact .null
    | object fields => exact .object fields
    | string s => simp [readProps, Draft.ofJson, Draft.readOptional, Draft.readMap] at h
    | _ => cases h
  · rintro (_ | fields)
    · exact ⟨[], rfl⟩
    · refine ⟨fields, ?_⟩
      rw [Draft.ofJson_eq_spelt]
      exact readProps_spelt Draft.faithful_ofString hu

mutual

theorem skip_ofJson : ∀ v : Json, (Draft.ofJson v).skip = .ok ()
  | .null => rfl
  | .bool _ => rfl
  | .number _ => rfl
  | .string _ => rfl
  | .list items => by
    rw [Draft.ofJson, Draft.skip, skipItems_ofItems items]
    rfl
  | .object fields => by
    rw [Draft.ofJson, Draft.skip, skipMembers_ofFields fields]
    rfl

theorem skipItems_ofItems : ∀ xs : List Json, Draft.skipItems (Draft.ofItems xs) = .ok ()
  | [] => rfl
  | x :: xs => by rw [Draft.ofItems, Draft.skipItems, skip_ofJson x, ok_bind, skipItems_ofItems xs]

theorem skipMembers_ofFields :
    ∀ fs : List (String × Json), Draft.skipMembers (Draft.ofFields fs) = .ok ()
  | [] => rfl
  | (name, x) :: fs => by
    rw [Draft.ofFields, Draft.skipMembers, skip_ofJson x, skipMembers_ofFields fs]
    rfl

end

structure Admits (f : String × Json) : Prop where
  id : f.1 = "id" → IsId f.2
  type : f.1 = "type" → ∃ s, f.2 = .string s
  props : f.1 = "props" → IsProps f.2
  children : f.1 = "children" → IsChildren f.2

structure Parts.Fresh (p : Parts) (fs : Fields Json) : Prop where
  id : "id" ∈ Fields.names fs → p.id = none
  kind : "type" ∈ Fields.names fs → p.kind = none
  props : "props" ∈ Fields.names fs → p.props = none
  children : "children" ∈ Fields.names fs → p.children = none

theorem Parts.fresh_empty (fs : Fields Json) : Parts.empty.Fresh fs :=
  ⟨fun _ => rfl, fun _ => rfl, fun _ => rfl, fun _ => rfl⟩

theorem Parts.Fresh.tail {p : Parts} {f : String × Json} {fs : Fields Json}
    (h : p.Fresh (f :: fs)) : p.Fresh fs :=
  ⟨fun hm => h.id (.tail _ hm), fun hm => h.kind (.tail _ hm), fun hm => h.props (.tail _ hm),
    fun hm => h.children (.tail _ hm)⟩

theorem isNode_object_iff {fields : Fields Json} (hd : Fields.Distinct fields) :
    IsNode (.object fields) ↔
      (∀ f ∈ fields, Admits f) ∧ "type" ∈ Fields.names fields := by
  constructor
  · rintro (⟨type, id, props, children⟩)
    refine ⟨?_, Fields.mem_names (Fields.mem_of_find? type)⟩
    rintro ⟨name, v⟩ hf
    have hv := Fields.find?_of_mem hd hf
    refine ⟨?_, ?_, ?_, ?_⟩
    · rintro rfl
      exact id v hv
    · rintro rfl
      exact ⟨_, Option.some.inj (hv.symm.trans type)⟩
    · rintro rfl
      exact props v hv
    · rintro rfl
      exact children v hv
  · rintro ⟨h, htype⟩
    obtain ⟨⟨name, v⟩, hf, rfl⟩ := List.mem_map.mp htype
    obtain ⟨kind, rfl⟩ := (h _ hf).type rfl
    refine .object (Fields.find?_of_mem hd hf) ?_ ?_ ?_
    · exact fun v hv => (h _ (Fields.mem_of_find? hv)).id rfl
    · exact fun v hv => (h _ (Fields.mem_of_find? hv)).props rfl
    · exact fun v hv => (h _ (Fields.mem_of_find? hv)).children rfl

theorem admits_id {v : Json} : Admits ("id", v) ↔ IsId v := by
  refine ⟨fun h => h.id rfl, fun h => ⟨fun _ => h, ?_, ?_, ?_⟩⟩ <;> simp

theorem admits_type {v : Json} : Admits ("type", v) ↔ ∃ s, v = .string s := by
  refine ⟨fun h => h.type rfl, fun h => ⟨?_, fun _ => h, ?_, ?_⟩⟩ <;> simp

theorem admits_props {v : Json} : Admits ("props", v) ↔ IsProps v := by
  refine ⟨fun h => h.props rfl, fun h => ⟨?_, ?_, fun _ => h, ?_⟩⟩ <;> simp

theorem admits_children {v : Json} : Admits ("children", v) ↔ IsChildren v := by
  refine ⟨fun h => h.children rfl, fun h => ⟨?_, ?_, ?_, fun _ => h⟩⟩ <;> simp

theorem isChildren_list_iff {items : List Json} :
    IsChildren (.list items) ↔ ∀ x ∈ items, IsNode x := by
  constructor
  · rintro (_ | h)
    exact h
  · exact .list

/-! ### Reading -/

theorem exists_bind_iff {ε α β : Type} {x : Except ε α} {f : α → Except ε β} {P : β → Prop}
    {A : Prop} (h : ∀ a, (∃ b, f a = .ok b ∧ P b) ↔ A) :
    (∃ b, x >>= f = .ok b ∧ P b) ↔ (∃ a, x = .ok a) ∧ A := by
  constructor
  · rintro ⟨b, hb, hP⟩
    obtain ⟨a, ha, hb⟩ := bind_eq_ok_iff.mp hb
    exact ⟨⟨a, ha⟩, (h a).mp ⟨b, hb, hP⟩⟩
  · rintro ⟨⟨a, ha⟩, hA⟩
    obtain ⟨b, hb, hP⟩ := (h a).mpr hA
    exact ⟨b, bind_eq_ok_iff.mpr ⟨a, ha, hb⟩, hP⟩

theorem exists_bind_ok_iff {ε α β : Type} {x : Except ε α} {f : α → Except ε β} {A : Prop}
    (h : ∀ a, (∃ b, f a = .ok b) ↔ A) : (∃ b, x >>= f = .ok b) ↔ (∃ a, x = .ok a) ∧ A := by
  have hP : ∀ a, (∃ b, f a = .ok b ∧ True) ↔ A := by simpa only [and_true] using h
  simpa only [and_true] using exists_bind_iff hP

theorem exists_bind_of_ok {ε α β : Type} {x : Except ε α} {f : α → Except ε β}
    (h : ∀ a, ∃ b, f a = .ok b) : (∃ b, x >>= f = .ok b) ↔ ∃ a, x = .ok a :=
  (exists_bind_ok_iff fun a => iff_true_intro (h a)).trans (and_iff_left trivial)

section Members

variable {origin : Origin} {parts : Parts} (d : Draft) (ms : List (Literal × Draft))

theorem readMembers_id_bind (h : parts.id = none) :
    readMembers origin parts ((.ofString "id", d) :: ms) =
      readId d >>= fun id =>
        readMembers origin ⟨some id, parts.kind, parts.props, parts.children⟩ ms := by
  rw [readMembers, Draft.faithful_ofString, ok_bind, if_pos rfl]
  simp [h]

theorem readMembers_type_bind (h : parts.kind = none) :
    readMembers origin parts ((.ofString "type", d) :: ms) =
      readKind d >>= fun kind =>
        readMembers origin ⟨parts.id, some kind, parts.props, parts.children⟩ ms := by
  rw [readMembers, Draft.faithful_ofString, ok_bind, if_neg (by decide), if_pos rfl]
  simp [h]

theorem readMembers_props_bind (h : parts.props = none) :
    readMembers origin parts ((.ofString "props", d) :: ms) =
      readProps d >>= fun props =>
        readMembers origin ⟨parts.id, parts.kind, some props, parts.children⟩ ms := by
  rw [readMembers, Draft.faithful_ofString, ok_bind, if_neg (by decide), if_neg (by decide),
    if_pos rfl]
  simp [h]

theorem readMembers_children_bind (h : parts.children = none) :
    readMembers origin parts ((.ofString "children", d) :: ms) =
      readChildren origin d >>= fun children =>
        readMembers origin ⟨parts.id, parts.kind, parts.props, some children⟩ ms := by
  rw [readMembers, Draft.faithful_ofString, ok_bind, if_neg (by decide), if_neg (by decide),
    if_neg (by decide), if_pos rfl]
  simp [h]

theorem readMembers_other {name : String} (v : Json)
    (h : name ≠ "id" ∧ name ≠ "type" ∧ name ≠ "props" ∧ name ≠ "children") :
    readMembers origin parts ((.ofString name, .ofJson v) :: ms) = readMembers origin parts ms := by
  rw [readMembers, Draft.faithful_ofString, ok_bind, if_neg h.1, if_neg h.2.1, if_neg h.2.2.1,
    if_neg h.2.2.2, skip_ofJson, ok_bind]

end Members

mutual

theorem exists_read_iff (origin : Origin) :
    ∀ {v : Json}, v.Unique → ((∃ n, read origin (.ofJson v) = .ok n) ↔ IsNode v)
  | .null, _ => ⟨nofun, nofun⟩
  | .bool _, _ => ⟨nofun, nofun⟩
  | .number _, _ => ⟨nofun, nofun⟩
  | .string _, _ => ⟨nofun, nofun⟩
  | .list [], _ => ⟨nofun, nofun⟩
  | .list [_], _ => by
    refine ⟨?_, nofun⟩
    rintro ⟨n, h⟩
    cases readsItems_of_read h
  | .list [i, x], _ => by
    constructor
    · rintro ⟨n, h⟩
      cases readsItems_of_read h with
      | pair hi hk =>
        obtain ⟨s, rfl⟩ := exists_readKind_iff.mp ⟨_, hk⟩
        exact .pair (exists_readId_iff.mp ⟨_, hi⟩)
    · rintro (_ | hi)
      obtain ⟨id, hi⟩ := exists_readId_iff.mpr hi
      obtain ⟨kind, hk⟩ := exists_readKind_iff.mpr ⟨_, rfl⟩
      exact ⟨_, (ReadsItems.pair hi hk).read⟩
  | .list [i, x, p], hu => by
    have hprops := exists_readProps_iff hu.2.2.1
    constructor
    · rintro ⟨n, h⟩
      cases readsItems_of_read h with
      | triple hi hk hp =>
        obtain ⟨s, rfl⟩ := exists_readKind_iff.mp ⟨_, hk⟩
        exact .triple (exists_readId_iff.mp ⟨_, hi⟩) (hprops.mp ⟨_, hp⟩)
    · rintro (_ | _ | ⟨hi, hp⟩)
      obtain ⟨id, hi⟩ := exists_readId_iff.mpr hi
      obtain ⟨kind, hk⟩ := exists_readKind_iff.mpr ⟨_, rfl⟩
      obtain ⟨props, hp⟩ := hprops.mpr hp
      exact ⟨_, (ReadsItems.triple hi hk hp).read⟩
  | .list [i, x, p, c], hu => by
    have hprops := exists_readProps_iff hu.2.2.1
    have hchildren := exists_readChildren_iff origin hu.2.2.2.1
    constructor
    · rintro ⟨n, h⟩
      cases readsItems_of_read h with
      | full hi hk hp hc =>
        obtain ⟨s, rfl⟩ := exists_readKind_iff.mp ⟨_, hk⟩
        exact .full (exists_readId_iff.mp ⟨_, hi⟩) (hprops.mp ⟨_, hp⟩) (hchildren.mp ⟨_, hc⟩)
    · rintro (_ | _ | _ | ⟨hi, hp, hc⟩)
      obtain ⟨id, hi⟩ := exists_readId_iff.mpr hi
      obtain ⟨kind, hk⟩ := exists_readKind_iff.mpr ⟨_, rfl⟩
      obtain ⟨props, hp⟩ := hprops.mpr hp
      obtain ⟨children, hc⟩ := hchildren.mpr hc
      exact ⟨_, (ReadsItems.full hi hk hp hc).read⟩
  | .list (_ :: _ :: _ :: _ :: _ :: _), _ => by
    refine ⟨?_, nofun⟩
    rintro ⟨n, h⟩
    cases readsItems_of_read h
  | .object fields, hu => by
    have hm := exists_readMembers_iff origin hu.1 hu.2 (Parts.fresh_empty fields)
    rw [isNode_object_iff hu.1]
    refine Iff.trans ?_ (hm.trans (and_congr_right' (or_iff_right (by decide))))
    rw [Draft.ofJson, read, if_neg (by decide)]
    simp only [bind_eq_ok_iff]
    constructor
    · rintro ⟨n, parts, hp, -, -, hn⟩
      refine ⟨parts, hp, ?_⟩
      cases hk : parts.kind with
      | none => simp [Parts.finish, hk] at hn
      | some kind => rfl
    · rintro ⟨parts, hp, hk⟩
      obtain ⟨kind, hk⟩ := Option.isSome_iff_exists.mp hk
      exact ⟨_, parts, hp, (), rfl, by rw [Parts.finish, hk]⟩

/-- The members of an object are read exactly if each is what its name asks for; the type has been
met then if it was there. -/
theorem exists_readMembers_iff (origin : Origin) :
    ∀ {fs : List (String × Json)} {parts : Parts}, Fields.Distinct fs → UniqueFields fs →
      parts.Fresh fs →
      ((∃ p, readMembers origin parts (Draft.ofFields fs) = .ok p ∧ p.kind.isSome = true) ↔
        (∀ f ∈ fs, Admits f) ∧ (parts.kind.isSome = true ∨ "type" ∈ Fields.names fs))
  | [], parts, _, _, _ => by simp [Draft.ofFields, readMembers]
  | (name, x) :: fs, parts, hd, hu, hf => by
    obtain ⟨hn, hd⟩ := List.nodup_cons.mp hd
    have hx := hu.1
    have ht := hf.tail
    have ih {p : Parts} (hp : p.Fresh fs) := exists_readMembers_iff origin hd hu.2 hp
    -- a member of another name leaves the type as it is
    have keep {p : Parts} (hp : p.Fresh fs) (hk : p.kind = parts.kind) := hk ▸ ih hp
    rw [Draft.ofFields, List.forall_mem_cons, Fields.names_cons, List.mem_cons, and_assoc]
    by_cases h1 : name = "id"
    · subst h1
      have hp (id : Option String) :
          Parts.Fresh ⟨some id, parts.kind, parts.props, parts.children⟩ fs :=
        ⟨fun h => absurd h hn, ht.kind, ht.props, ht.children⟩
      rw [readMembers_id_bind _ _ (hf.id (.head _)), admits_id]
      rw [or_iff_right (by decide : ¬"type" = "id")]
      exact (exists_bind_iff fun id => keep (hp id) rfl).trans (and_congr_left' exists_readId_iff)
    by_cases h2 : name = "type"
    · subst h2
      have hp (kind : Kind) :
          Parts.Fresh ⟨parts.id, some kind, parts.props, parts.children⟩ fs :=
        ⟨ht.id, fun h => absurd h hn, ht.props, ht.children⟩
      rw [readMembers_type_bind _ _ (hf.kind (.head _)), admits_type]
      have hrest (kind : Kind) := (ih (hp kind)).trans
        (and_iff_left_of_imp fun _ => .inl rfl : _ ↔ ∀ f ∈ fs, Admits f)
      rw [exists_bind_iff hrest, exists_readKind_iff]
      simp
    by_cases h3 : name = "props"
    · subst h3
      have hp (props : Fields Json) :
          Parts.Fresh ⟨parts.id, parts.kind, some props, parts.children⟩ fs :=
        ⟨ht.id, ht.kind, fun h => absurd h hn, ht.children⟩
      rw [readMembers_props_bind _ _ (hf.props (.head _)), admits_props]
      rw [or_iff_right (by decide : ¬"type" = "props")]
      exact (exists_bind_iff fun props => keep (hp props) rfl).trans
        (and_congr_left' (exists_readProps_iff hx))
    by_cases h4 : name = "children"
    · subst h4
      have hp (children : List Node) :
          Parts.Fresh ⟨parts.id, parts.kind, parts.props, some children⟩ fs :=
        ⟨ht.id, ht.kind, ht.props, fun h => absurd h hn⟩
      rw [readMembers_children_bind _ _ (hf.children (.head _)), admits_children]
      rw [or_iff_right (by decide : ¬"type" = "children")]
      exact (exists_bind_iff fun children => keep (hp children) rfl).trans
        (and_congr_left' (exists_readChildren_iff origin hx))
    · have ha : Admits (name, x) := ⟨(absurd · h1), (absurd · h2), (absurd · h3), (absurd · h4)⟩
      rw [readMembers_other _ x ⟨h1, h2, h3, h4⟩, keep ht rfl]
      simp [ha, Ne.symm h2]

theorem exists_readChildren_iff (origin : Origin) :
    ∀ {v : Json}, v.Unique →
      ((∃ ns, readChildren origin (.ofJson v) = .ok ns) ↔ IsChildren v)
  | .null, _ => ⟨fun _ => .null, fun _ => ⟨[], rfl⟩⟩
  | .bool _, _ => ⟨nofun, nofun⟩
  | .number _, _ => ⟨nofun, nofun⟩
  | .string _, _ => ⟨nofun, nofun⟩
  | .object _, _ => ⟨nofun, nofun⟩
  | .list items, hu => by
    rw [isChildren_list_iff, ← exists_readAll_iff origin hu, Draft.ofJson, readChildren,
      if_neg (by decide)]
    exact exists_bind_of_ok fun ns => ⟨ns, rfl⟩

theorem exists_readAll_iff (origin : Origin) :
    ∀ {xs : List Json}, UniqueItems xs →
      ((∃ ns, readAll origin (Draft.ofItems xs) = .ok ns) ↔ ∀ x ∈ xs, IsNode x)
  | [], _ => ⟨fun _ => nofun, fun _ => ⟨[], rfl⟩⟩
  | x :: xs, hu => by
    rw [List.forall_mem_cons, ← exists_read_iff origin hu.1, ← exists_readAll_iff origin hu.2]
    exact exists_bind_ok_iff fun n => exists_bind_of_ok fun ns => ⟨n :: ns, rfl⟩

end

end NativeUi.Node
