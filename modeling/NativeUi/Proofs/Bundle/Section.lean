import NativeUi.Bundle.Basic
import NativeUi.Proofs.Json.Record

/-!
# Sections read back

A section that has been read can be written, and the value of such a section is read as the section.
-/
namespace NativeUi

open NativeUi.Json

/-! ### Shapes -/

structure SectionShape.Lawful {α : Type} (shape : SectionShape α) : Prop where
  names : shape.firstName ≠ shape.secondName
  default : (shape.toJson shape.default).Unique ∧ (shape.toJson shape.default).depth ≤ 1
  read_spelt : ∀ {literal : String → Literal}, Draft.Faithful literal → ∀ {a : α},
    (shape.toJson a).Unique → shape.read (Draft.spelt literal (shape.toJson a)) = .ok a
  of_read : ∀ {literal : String → Literal}, Draft.Faithful literal → ∀ {v : Json} {a : α},
    v.Unique → shape.read (Draft.spelt literal v) = .ok a → shape.toJson a = v

theorem readItems_value (ds : List Draft) :
    Draft.readItems Draft.value ds = Draft.valueItems ds := by
  induction ds with
  | nil => rfl
  | cons d ds ih => rw [Draft.readItems, Draft.valueItems, ih]

variable {literal : String → Literal}

theorem readSequence_spelt (hl : Draft.Faithful literal) {xs : List Json} (h : UniqueItems xs) :
    Draft.readSequence Draft.value (Draft.spelt literal (.list xs)) = .ok xs := by
  rw [Draft.spelt, Draft.readSequence, if_neg (by decide), readItems_value,
    Draft.valueItems_spelt hl h]
  rfl

theorem list_of_readSequence (hl : Draft.Faithful literal) {v : Json} {xs : List Json}
    (hu : v.Unique) (h : Draft.readSequence Draft.value (Draft.spelt literal v) = .ok xs) :
    .list xs = v := by
  match v with
  | .list ys =>
    rw [readSequence_spelt hl hu] at h
    rw [Except.ok.inj h]
  | .null => cases h
  | .bool _ => cases h
  | .number _ => cases h
  | .string _ => cases h
  | .object _ => cases h

theorem lawful_state : SectionShape.state.Lawful where
  names := by decide
  default := ⟨trivial, Nat.le_refl 1⟩
  read_spelt hl := readSequence_spelt hl
  of_read hl := list_of_readSequence hl

theorem lawful_action : SectionShape.action.Lawful where
  names := by decide
  default := ⟨trivial, Nat.le_refl 1⟩
  read_spelt hl := readSequence_spelt hl
  of_read hl := list_of_readSequence hl

theorem lawful_design : SectionShape.design.Lawful where
  names := by decide
  default := ⟨⟨Fields.distinct_nil, trivial⟩, Nat.le_refl 1⟩
  read_spelt hl := Draft.value_spelt hl
  of_read hl _ _ hu h := (Except.ok.inj ((Draft.value_spelt hl hu).symm.trans h)).symm

/-! ### Sections that have been read -/

theorem depthFields_insert {fs : Fields Json} {x : Json} {k : Nat} (h : depthFields fs ≤ k)
    (hx : x.depth ≤ k) (name : String) : depthFields (Fields.insert fs name x) ≤ k := by
  rw [depthFields_le_iff] at h ⊢
  intro f hf
  rcases Fields.mem_insert hf with rfl | hf
  · exact hx
  · exact h f hf

namespace Section

variable {α : Type} {shape : SectionShape α}

structure Parts.Good (shape : SectionShape α) (p : Parts α) (k : Nat) : Prop where
  first : ∀ a ∈ p.first, (shape.toJson a).Unique ∧ (shape.toJson a).depth ≤ k
  second : ∀ a ∈ p.second, (shape.toJson a).Unique ∧ (shape.toJson a).depth ≤ k
  extra : Json.Unique (.object p.extra)
  depth : depthFields p.extra ≤ k
  names : ∀ name ∈ Fields.names p.extra, name ≠ shape.firstName ∧ name ≠ shape.secondName

abbrev readFields (shape : SectionShape α) :
    Parts α → List (Literal × Draft) → Except ReadError (Parts α) :=
  readMembers (fieldReaders shape) fun p name d => do
    let v ← d.value
    .ok ⟨p.first, p.second, Fields.insert p.extra name v⟩

theorem read_object (members : List (Literal × Draft)) :
    read shape (.object false members .closed) = (do
      let p ← readFields shape ⟨none, none, []⟩ members
      .ok ⟨p.first.getD shape.default, p.second.getD shape.default, p.extra⟩) := by
  rw [read, readOpenRecord, if_neg (by decide), readFields]
  generalize readMembers _ _ _ members = r
  cases r with
  | error e => rfl
  | ok p => rfl

theorem readFields_cons {p q : Parts α} {l : Literal} {d : Draft} {ms : List (Literal × Draft)}
    (h : readFields shape p ((l, d) :: ms) = .ok q) :
    ∃ name, l.text = .ok name ∧
      ((∃ a, shape.read d = .ok a ∧ readFields shape ⟨some a, p.second, p.extra⟩ ms = .ok q) ∨
        (∃ a, shape.read d = .ok a ∧ readFields shape ⟨p.first, some a, p.extra⟩ ms = .ok q) ∨
        (name ≠ shape.firstName ∧ name ≠ shape.secondName ∧ ∃ v, d.value = .ok v ∧
          readFields shape ⟨p.first, p.second, Fields.insert p.extra name v⟩ ms = .ok q)) := by
  rw [readFields, readMembers, bind_eq_ok_iff] at h
  obtain ⟨name, hn, h⟩ := h
  refine ⟨name, hn, ?_⟩
  by_cases h1 : shape.firstName = name
  · subst h1
    simp only [fieldReaders, List.find?_cons, beq_self_eq_true] at h
    split at h
    · cases h
    · simp only [bind_eq_ok_iff] at h
      obtain ⟨r, ⟨a, ha, hr⟩, h⟩ := h
      obtain rfl := Except.ok.inj hr
      exact .inl ⟨a, ha, h⟩
  by_cases h2 : shape.secondName = name
  · subst h2
    simp only [fieldReaders, List.find?_cons, beq_eq_false_iff_ne.mpr h1, beq_self_eq_true] at h
    split at h
    · cases h
    · simp only [bind_eq_ok_iff] at h
      obtain ⟨r, ⟨a, ha, hr⟩, h⟩ := h
      obtain rfl := Except.ok.inj hr
      exact .inr (.inl ⟨a, ha, h⟩)
  · simp only [fieldReaders, List.find?_cons, List.find?_nil, beq_eq_false_iff_ne.mpr h1,
      beq_eq_false_iff_ne.mpr h2, bind_eq_ok_iff] at h
    obtain ⟨r, ⟨v, hv, hr⟩, h⟩ := h
    obtain rfl := Except.ok.inj hr
    exact .inr (.inr ⟨Ne.symm h1, Ne.symm h2, v, hv, h⟩)

theorem good_of_readFields (hs : shape.Lawful) (hl : Draft.Faithful literal) {k : Nat}
    {fs : List (String × Json)} (hu : UniqueFields fs) (hd : depthFields fs ≤ k) :
    ∀ {p q : Parts α}, readFields shape p (Draft.speltFields literal fs) = .ok q →
      p.Good shape k → q.Good shape k := by
  induction fs with
  | nil =>
    intro p q h hg
    exact Except.ok.inj h ▸ hg
  | cons f fs ih =>
    intro p q h hg
    obtain ⟨name, x⟩ := f
    obtain ⟨hx, hu⟩ := hu
    rw [depthFields, Nat.max_le] at hd
    rw [Draft.speltFields] at h
    have field {a : α} (ha : shape.read (Draft.spelt literal x) = .ok a) :
        (shape.toJson a).Unique ∧ (shape.toJson a).depth ≤ k := by
      rw [hs.of_read hl hx ha]
      exact ⟨hx, hd.1⟩
    obtain ⟨name', hn, ⟨a, ha, h⟩ | ⟨a, ha, h⟩ | ⟨h1, h2, v, hv, h⟩⟩ := readFields_cons h
    · exact ih hu hd.2 h ⟨by simpa using field ha, hg.second, hg.extra, hg.depth, hg.names⟩
    · exact ih hu hd.2 h ⟨hg.first, by simpa using field ha, hg.extra, hg.depth, hg.names⟩
    · obtain rfl := Except.ok.inj ((Draft.value_spelt hl hx).symm.trans hv)
      refine ih hu hd.2 h ⟨hg.first, hg.second, ?_, depthFields_insert hg.depth hd.1 _, ?_⟩
      · exact ⟨hg.extra.1.insert _ _, hg.extra.2.insert _ hx⟩
      · intro y hy
        rw [Fields.names_insert] at hy
        split at hy
        · exact hg.names y hy
        · rcases List.mem_append.mp hy with hy | hy
          · exact hg.names y hy
          · rw [List.mem_singleton.mp hy]
            exact ⟨h1, h2⟩

theorem unique_toJson {s : Section α} (hs : shape.Lawful) (h1 : (shape.toJson s.first).Unique)
    (h2 : (shape.toJson s.second).Unique) (he : Json.Unique (.object s.extra))
    (hn : ∀ name ∈ Fields.names s.extra, name ≠ shape.firstName ∧ name ≠ shape.secondName) :
    (s.toJson shape).Unique := by
  refine ⟨?_, h1, h2, he.2⟩
  refine List.nodup_cons.mpr ⟨?_, List.nodup_cons.mpr ⟨fun h => (hn _ h).2 rfl, he.1⟩⟩
  intro h
  rcases List.mem_cons.mp h with h | h
  · exact hs.names h
  · exact (hn _ h).1 rfl

theorem unique_of_read (hs : shape.Lawful) (hl : Draft.Faithful literal) {v : Json}
    {s : Section α} (hu : v.Unique) (h : read shape (Draft.spelt literal v) = .ok s) :
    (s.toJson shape).Unique ∧ (s.toJson shape).depth ≤ max 2 v.depth := by
  match v with
  | .object fields =>
    rw [Draft.spelt, read_object, bind_eq_ok_iff] at h
    obtain ⟨p, hp, h⟩ := h
    obtain rfl := Except.ok.inj h
    have hg : p.Good shape (depthFields fields) :=
      good_of_readFields hs hl hu.2 (Nat.le_refl _) hp
        ⟨by simp, by simp, ⟨Fields.distinct_nil, trivial⟩, Nat.zero_le _, by simp⟩
    have part (o : Option α) (ho : ∀ a ∈ o, (shape.toJson a).Unique ∧
        (shape.toJson a).depth ≤ depthFields fields) :
        (shape.toJson (o.getD shape.default)).Unique ∧
          (shape.toJson (o.getD shape.default)).depth ≤ max 1 (depthFields fields) := by
      cases o with
      | none => exact ⟨hs.default.1, Nat.le_trans hs.default.2 (Nat.le_max_left _ _)⟩
      | some a => exact ⟨(ho a rfl).1, Nat.le_trans (ho a rfl).2 (Nat.le_max_right _ _)⟩
    have h1 := part p.first hg.first
    have h2 := part p.second hg.second
    refine ⟨unique_toJson hs h1.1 h2.1 hg.extra hg.names, ?_⟩
    have he := hg.depth
    simp only [toJson, Json.depth, List.cons_append, List.nil_append, depthFields]
    omega
  | .null => cases h
  | .bool _ => cases h
  | .number _ => cases h
  | .string s => cases h
  | .list _ => cases h

/-! ### Sections that are written -/

theorem readFields_first (hl : Draft.Faithful literal) {p : Parts α} {d : Draft} {a : α}
    (hp : p.first = none) (hd : shape.read d = .ok a) (ms : List (Literal × Draft)) :
    readFields shape p ((literal shape.firstName, d) :: ms) =
      readFields shape ⟨some a, p.second, p.extra⟩ ms := by
  rw [readFields, readMembers, hl, ok_bind]
  simp [fieldReaders, hp, hd]

theorem readFields_second (hs : shape.Lawful) (hl : Draft.Faithful literal) {p : Parts α}
    {d : Draft} {a : α} (hp : p.second = none) (hd : shape.read d = .ok a)
    (ms : List (Literal × Draft)) :
    readFields shape p ((literal shape.secondName, d) :: ms) =
      readFields shape ⟨p.first, some a, p.extra⟩ ms := by
  rw [readFields, readMembers, hl, ok_bind]
  simp [fieldReaders, hp, hd, hs.names]

theorem read_spelt (hs : shape.Lawful) (hl : Draft.Faithful literal) {s : Section α}
    (hu : (s.toJson shape).Unique) : read shape (Draft.spelt literal (s.toJson shape)) = .ok s := by
  obtain ⟨hd, h1, h2, he⟩ := hu
  rw [read, toJson, readOpenRecord_spelt hl
    (fun fs => Parts.mk (some s.first) (some s.second) fs) (fun _ _ _ => rfl) rfl ?_ hd he]
  · rfl
  · intro ms
    exact (readFields_first hl rfl (hs.read_spelt hl h1) _).trans
      (readFields_second hs hl rfl (hs.read_spelt hl h2) ms)

end Section

end NativeUi
