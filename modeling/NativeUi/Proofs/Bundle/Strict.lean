import NativeUi.Proofs.Bundle.RoundTrip
import NativeUi.Proofs.Node.Merging

/-!
# Strict and lenient reading

A text can be read as a bundle member by member, where every section has to be well-formed, or as a
value of which the sections are taken out afterwards. Where the first succeeds on a document, so
does the second, nothing is passed over, and the bundles are the same, but for a layout that is
null.
-/
namespace NativeUi

open NativeUi.Json

/-! ### Records -/

namespace Json

variable {σ : Type} {fields : List (FieldReader σ)} {other : σ → String → Json → σ}
  {Inv : σ → Fields Json → Prop}

/-- Each known field, and each member of another name, takes a state that agrees with a record to
one that agrees with the record in which the member is set. -/
structure Follows (fields : List (FieldReader σ)) (other : σ → String → Json → σ)
    (Inv : σ → Fields Json → Prop) : Prop where
  known : ∀ f ∈ fields, ∀ {s t : σ} {d : Draft} {v : Json} {fs : Fields Json}, Inv s fs →
    f.read s d = .ok t → d.value = .ok v → Inv t (Fields.insert fs f.name v)
  unknown : ∀ {s : σ} {name : String} (v : Json) {fs : Fields Json},
    name ∉ fields.map FieldReader.name → Inv s fs → Inv (other s name v) (Fields.insert fs name v)

theorem Follows.readMembers (hF : Follows fields other Inv) {ms : List (Literal × Draft)} {s t : σ}
    {seen fs : Fields Json} (h : Inv s seen)
    (ht : readMembers fields (fun s name d => do
      let v ← d.value
      .ok (other s name v)) s ms = .ok t)
    (hv : Draft.valueMembers seen ms = .ok fs) : Inv t fs := by
  induction ms generalizing s seen with
  | nil =>
    obtain rfl := Except.ok.inj ht
    obtain rfl := Except.ok.inj hv
    exact h
  | cons m ms ih =>
    obtain ⟨l, d⟩ := m
    rw [Draft.valueMembers] at hv
    obtain ⟨name, hn, hv⟩ := bind_eq_ok_iff.mp hv
    obtain ⟨x, hx, hv⟩ := bind_eq_ok_iff.mp hv
    rw [Json.readMembers, hn, ok_bind] at ht
    cases hf : fields.find? fun f => f.name == name with
    | some f =>
      have hname : f.name = name := by simpa using List.find?_some hf
      subst hname
      simp only [hf] at ht
      split at ht
      · cases ht
      · obtain ⟨u, hu, ht⟩ := bind_eq_ok_iff.mp ht
        exact ih (hF.known f (List.mem_of_find?_eq_some hf) h hu hx) ht hv
    | none =>
      have hname : name ∉ fields.map FieldReader.name := by
        simpa [List.find?_eq_none] using hf
      simp only [hf, hx, ok_bind] at ht
      exact ih (hF.unknown x hname h) ht hv

theorem Follows.readOpenRecord (hF : Follows fields other Inv) {expected : String} {start t : σ}
    {d : Draft} {v : Json} (h : Inv start [])
    (ht : readOpenRecord expected fields other start d = .ok t) (hv : d.value = .ok v) :
    ∃ fs, v = .object fs ∧ Inv t fs := by
  cases d with
  | object deep members ending =>
    obtain ⟨fs, hfs, rfl⟩ := Draft.members_of_value hv
    cases deep with
    | true => cases ht
    | false =>
      rw [Json.readOpenRecord, if_neg Bool.false_ne_true] at ht
      obtain ⟨u, hu, ht⟩ := bind_eq_ok_iff.mp ht
      obtain ⟨-, -, ht⟩ := bind_eq_ok_iff.mp ht
      obtain rfl := Except.ok.inj ht
      exact ⟨fs, rfl, hF.readMembers h hu hfs⟩
  | _ => cases ht

theorem Draft.value_of_readSequence {d : Draft} {xs : List Json} {v : Json}
    (h : d.readSequence Draft.value = .ok xs) (hv : d.value = .ok v) : v = .list xs := by
  cases d with
  | list deep items ending =>
    obtain ⟨ys, hys, rfl⟩ := items_of_value hv
    cases deep with
    | true => cases h
    | false =>
      rw [readSequence, if_neg Bool.false_ne_true, readItems_value, hys, ok_bind] at h
      obtain ⟨-, -, h⟩ := bind_eq_ok_iff.mp h
      rw [Except.ok.inj h]
  | _ => cases h

end Json

/-! ### Sections -/

def SectionShape.Settled {α : Type} (shape : SectionShape α) : Prop :=
  ∀ {d : Draft} {a : α} {v : Json}, shape.read d = .ok a → d.value = .ok v →
    shape.read (.ofJson v) = .ok a

theorem readSequence_value {d : Draft} {xs : List Json} {v : Json}
    (h : d.readSequence Draft.value = .ok xs) (hv : d.value = .ok v) :
    (Draft.ofJson v).readSequence Draft.value = .ok xs := by
  have hu := Draft.unique_of_value hv
  obtain rfl := Draft.value_of_readSequence h hv
  rw [Draft.ofJson_eq_spelt]
  exact readSequence_spelt Draft.faithful_ofString hu

theorem settled_state : SectionShape.state.Settled := readSequence_value

theorem settled_action : SectionShape.action.Settled := readSequence_value

theorem settled_design : SectionShape.design.Settled := by
  intro d a v h hv
  obtain rfl := Except.ok.inj (h.symm.trans hv)
  exact Draft.value_ofJson (Draft.unique_of_value hv)

namespace Section

variable {α : Type} {shape : SectionShape α}

structure Parts.Of (shape : SectionShape α) (p : Parts α) (fs : Fields Json) : Prop where
  first : Option.Rel (fun v a => shape.read (.ofJson v) = .ok a)
    (Fields.find? fs shape.firstName) p.first
  second : Option.Rel (fun v a => shape.read (.ofJson v) = .ok a)
    (Fields.find? fs shape.secondName) p.second
  extra : p.extra = Fields.others [shape.firstName, shape.secondName] fs

theorem Parts.of_empty : Parts.Of shape ⟨none, none, []⟩ [] := ⟨.none, .none, rfl⟩

theorem Parts.Of.unique {p q : Parts α} {fs : Fields Json} (hp : p.Of shape fs)
    (hq : q.Of shape fs) : p = q := by
  obtain ⟨a, b, es⟩ := p
  obtain ⟨c, d, gs⟩ := q
  obtain rfl : a = c := rel_unique hp.first hq.first
  obtain rfl : b = d := rel_unique hp.second hq.second
  obtain rfl : es = gs := hp.extra.trans hq.extra.symm
  rfl

section Step

variable {p : Parts α} {fs : Fields Json} {v : Json} {a : α}

theorem Parts.Of.setFirst (hs : shape.Lawful) (h : p.Of shape fs)
    (ha : shape.read (.ofJson v) = .ok a) :
    Parts.Of shape ⟨some a, p.second, p.extra⟩ (Fields.insert fs shape.firstName v) :=
  ⟨rel_insert_self ha, rel_insert_ne hs.names h.second,
    h.extra.trans (Fields.others_insert_of_mem (by simp) fs v).symm⟩

theorem Parts.Of.setSecond (hs : shape.Lawful) (h : p.Of shape fs)
    (ha : shape.read (.ofJson v) = .ok a) :
    Parts.Of shape ⟨p.first, some a, p.extra⟩ (Fields.insert fs shape.secondName v) :=
  ⟨rel_insert_ne hs.names.symm h.first, rel_insert_self ha,
    h.extra.trans (Fields.others_insert_of_mem (by simp) fs v).symm⟩

theorem Parts.Of.setOther (h : p.Of shape fs) {name : String}
    (hn : name ∉ [shape.firstName, shape.secondName]) :
    Parts.Of shape ⟨p.first, p.second, Fields.insert p.extra name v⟩
      (Fields.insert fs name v) := by
  refine ⟨rel_insert_ne ?_ h.first, rel_insert_ne ?_ h.second, ?_⟩
  · rintro rfl
    exact hn (.head _)
  · rintro rfl
    exact hn (.tail _ (.head _))
  · exact (congrArg (Fields.insert · name v) h.extra).trans
      (Fields.others_insert_of_not_mem hn fs v).symm

end Step

theorem follows_of (hs : shape.Lawful) (hr : shape.Settled) :
    Follows (fieldReaders shape) (fun p name v => ⟨p.first, p.second, Fields.insert p.extra name v⟩)
      (Parts.Of shape) where
  known f hf p q d v fs h hq hv := by
    rcases List.mem_pair.mp hf with rfl | rfl
    · obtain ⟨a, ha, hq⟩ := bind_eq_ok_iff.mp hq
      obtain rfl := Except.ok.inj hq
      exact h.setFirst hs (hr ha hv)
    · obtain ⟨a, ha, hq⟩ := bind_eq_ok_iff.mp hq
      obtain rfl := Except.ok.inj hq
      exact h.setSecond hs (hr ha hv)
  unknown v fs hn h := h.setOther hn

theorem Parts.Of.readFields (hs : shape.Lawful) {fs : Fields Json} (hu : UniqueFields fs)
    {p q : Parts α} {seen : Fields Json} (hp : p.Of shape seen)
    (hd : Fields.Distinct (seen ++ fs)) (hq : q.Of shape (seen ++ fs)) :
    Section.readFields shape p (Draft.ofFields fs) = .ok q := by
  induction fs generalizing p seen with
  | nil =>
    rw [List.append_nil] at hq
    rw [hp.unique hq]
    rfl
  | cons f fs ih =>
    obtain ⟨name, v⟩ := f
    have hn : name ∉ Fields.names seen :=
      (Fields.distinct_append_iff.mp hd).2.2 (name, v) (.head _)
    have hfind : Fields.find? (seen ++ (name, v) :: fs) name = some v :=
      Fields.find?_of_mem hd (List.mem_append_right seen (.head _))
    have hi : Fields.insert seen name v ++ fs = seen ++ (name, v) :: fs :=
      Fields.insert_append_of_distinct hd
    have hnone := Fields.find?_eq_none_iff.mpr hn
    rw [← hi] at hd hq
    by_cases h1 : name = shape.firstName
    · subst h1
      have hfirst := hp.first
      have hread := hq.first
      rw [hi, hfind] at hread
      rw [hnone] at hfirst
      obtain ⟨a, -, ha⟩ := exists_of_rel_some hread
      rw [Draft.ofFields, readFields_first Draft.faithful_ofString (eq_none_of_rel hfirst) ha]
      exact ih hu.2 (hp.setFirst hs ha) hd hq
    by_cases h2 : name = shape.secondName
    · subst h2
      have hsecond := hp.second
      have hread := hq.second
      rw [hi, hfind] at hread
      rw [hnone] at hsecond
      obtain ⟨a, -, ha⟩ := exists_of_rel_some hread
      rw [Draft.ofFields, readFields_second hs Draft.faithful_ofString (eq_none_of_rel hsecond) ha]
      exact ih hu.2 (hp.setSecond hs ha) hd hq
    · have hv := Draft.value_ofJson hu.1
      have ht := ih hu.2 (hp.setOther (by simp [h1, h2])) hd hq
      rw [Draft.ofFields, Section.readFields, readMembers, Draft.faithful_ofString, ok_bind, ← ht]
      simp [fieldReaders, Ne.symm h1, Ne.symm h2, hv]
      rfl

theorem read_value (hs : shape.Lawful) (hr : shape.Settled) {d : Draft} {s : Section α} {v : Json}
    (h : read shape d = .ok s) (hv : d.value = .ok v) : read shape (.ofJson v) = .ok s := by
  have hu := Draft.unique_of_value hv
  obtain ⟨p, hp, h⟩ := bind_eq_ok_iff.mp h
  obtain ⟨fs, rfl, hof⟩ := (follows_of hs hr).readOpenRecord Parts.of_empty hp hv
  rw [Draft.ofJson, read_object, Parts.of_empty.readFields hs hu.2 hu.1 hof, ok_bind]
  exact h

end Section

/-! ### The trees and what stands beside them -/

theorem readItems_read (origin : Origin) (ds : List Draft) :
    Draft.readItems (Node.read origin) ds = Node.readAll origin ds := by
  induction ds with
  | nil => rw [Draft.readItems, Node.readAll]
  | cons d ds ih => rw [Draft.readItems, Node.readAll, ih]

theorem Bundle.readComponents_of_readAll (index : Nat) {items : List Json} {nodes : List Node}
    (h : Node.readAll .value (Draft.ofItems items) = .ok nodes) :
    readComponents index items = .ok nodes := by
  induction items generalizing index nodes with
  | nil =>
    obtain rfl := Except.ok.inj h
    rfl
  | cons v items ih =>
    rw [Draft.ofItems, Node.readAll] at h
    obtain ⟨n, hn, h⟩ := bind_eq_ok_iff.mp h
    obtain ⟨ns, hns, h⟩ := bind_eq_ok_iff.mp h
    obtain rfl := Except.ok.inj h
    rw [readComponents, Node.ofJson, hn]
    simp only [ih _ hns, ok_bind]

namespace UiSection

def Trees (v : Json) (nodes : List Node) : Prop :=
  ∃ items, v = .list items ∧ Node.readAll .value (Draft.ofItems items) = .ok nodes

theorem trees_of_readSequence {d : Draft} {nodes : List Node} {v : Json}
    (h : d.readSequence (Node.read .text) = .ok nodes) (hv : d.value = .ok v) : Trees v nodes := by
  cases d with
  | list deep items ending =>
    obtain ⟨xs, hxs, rfl⟩ := Draft.items_of_value hv
    cases deep with
    | true => cases h
    | false =>
      rw [Draft.readSequence, if_neg Bool.false_ne_true, readItems_read] at h
      obtain ⟨ns, hns, h⟩ := bind_eq_ok_iff.mp h
      obtain ⟨-, -, h⟩ := bind_eq_ok_iff.mp h
      obtain rfl := Except.ok.inj h
      exact ⟨xs, rfl, Node.readAll_value .text hns hxs⟩
  | _ => cases h

structure Parts.Of (p : Parts) (fs : Fields Json) : Prop where
  components : Option.Rel Trees (Fields.find? fs "components") p.components
  layout : Option.Rel Eq (Fields.find? fs "layout") p.layout
  extra : p.extra = Fields.others ["components", "layout"] fs

theorem follows_of : Follows fieldReaders
    (fun p name v => ⟨p.components, p.layout, Fields.insert p.extra name v⟩) Parts.Of where
  known f hf p q d v fs h hq hv := by
    rcases List.mem_pair.mp hf with rfl | rfl
    · obtain ⟨nodes, hn, hq⟩ := bind_eq_ok_iff.mp hq
      obtain rfl := Except.ok.inj hq
      exact ⟨rel_insert_self (trees_of_readSequence hn hv), rel_insert_ne (by decide) h.layout,
        h.extra.trans (Fields.others_insert_of_mem (by simp) fs v).symm⟩
    · obtain ⟨w, hw, hq⟩ := bind_eq_ok_iff.mp hq
      obtain rfl := Except.ok.inj hq
      exact ⟨rel_insert_ne (by decide) h.components,
        rel_insert_self (Except.ok.inj (hv.symm.trans hw)),
        h.extra.trans (Fields.others_insert_of_mem (by simp) fs v).symm⟩
  unknown v fs hn h := by
    refine ⟨rel_insert_ne ?_ h.components, rel_insert_ne ?_ h.layout, ?_⟩
    · rintro rfl
      exact hn (.head _)
    · rintro rfl
      exact hn (.tail _ (.head _))
    · exact (congrArg (Fields.insert · _ v) h.extra).trans
        (Fields.others_insert_of_not_mem hn fs v).symm

def settledLayout : Json → Json
  | .null => .emptyObject
  | v => v

theorem layoutOf_of_rel {v o : Option Json} (h : Option.Rel Eq v o) :
    Bundle.layoutOf v = settledLayout (o.getD .emptyObject) := by
  cases h with
  | none => rfl
  | some h =>
    subst h
    cases ‹Json› <;> rfl

def TakenFrom (v : Json) (s : UiSection) : Prop :=
  ∃ fields extra, v = .object fields ∧
    Bundle.readUi fields = .ok ⟨s.components, settledLayout s.layout, extra⟩ ∧ extra.Perm s.extra

theorem takenFrom_of_read {d : Draft} {s : UiSection} {v : Json} (h : read d = .ok s)
    (hv : d.value = .ok v) : TakenFrom v s := by
  have hu := Draft.unique_of_value hv
  obtain ⟨p, hp, h⟩ := bind_eq_ok_iff.mp h
  obtain ⟨fields, rfl, hof⟩ := follows_of.readOpenRecord ⟨.none, .none, rfl⟩ hp hv
  obtain ⟨components, layout, extra⟩ := p
  cases components with
  | none => cases h
  | some nodes =>
    obtain rfl := Except.ok.inj h
    have hc := hof.components
    cases hf : Fields.find? fields "components" with
    | none =>
      rw [hf] at hc
      cases hc
    | some w =>
      rw [hf] at hc
      obtain ⟨_, hn, items, rfl, hall⟩ := exists_of_rel_some hc
      obtain rfl := Option.some.inj hn
      refine ⟨fields, ["components", "layout"].foldl Fields.swapErase fields, rfl, ?_, ?_⟩
      · simp only [Bundle.readUi, hf, Bundle.readComponents_of_readAll 0 hall, ok_bind,
          Fields.find?_swapErase_ne hu.1 (by decide : "layout" ≠ "components"),
          layoutOf_of_rel hof.layout]
        rfl
      · exact hof.extra ▸ Fields.swapErase_all_perm hu.1 ["components", "layout"]

end UiSection

/-! ### Bundles -/

namespace Bundle

structure Parts.Of (p : Parts) (fs : Fields Json) : Prop where
  ui : Option.Rel UiSection.TakenFrom (Fields.find? fs "ui") p.ui
  state : Option.Rel (fun v s => Section.read .state (.ofJson v) = .ok s)
    (Fields.find? fs "state") p.state
  action : Option.Rel (fun v s => Section.read .action (.ofJson v) = .ok s)
    (Fields.find? fs "action") p.action
  design : Option.Rel (fun v s => Section.read .design (.ofJson v) = .ok s)
    (Fields.find? fs "design") p.design
  extra : p.extra = Fields.others ["ui", "state", "action", "design"] fs

theorem follows_of : Follows fieldReaders
    (fun p name v => ⟨p.ui, p.state, p.action, p.design, Fields.insert p.extra name v⟩)
    Parts.Of where
  known f hf p q d v fs h hq hv := by
    simp only [fieldReaders, List.mem_cons, List.not_mem_nil, or_false] at hf
    rcases hf with rfl | rfl | rfl | rfl
    · obtain ⟨s, hs, hq⟩ := bind_eq_ok_iff.mp hq
      obtain rfl := Except.ok.inj hq
      exact ⟨rel_insert_self (UiSection.takenFrom_of_read hs hv), rel_insert_ne (by decide) h.state,
        rel_insert_ne (by decide) h.action, rel_insert_ne (by decide) h.design,
        h.extra.trans (Fields.others_insert_of_mem (by simp) fs v).symm⟩
    · obtain ⟨s, hs, hq⟩ := bind_eq_ok_iff.mp hq
      obtain rfl := Except.ok.inj hq
      have hs := Section.read_value lawful_state settled_state hs hv
      exact ⟨rel_insert_ne (by decide) h.ui, rel_insert_self hs,
        rel_insert_ne (by decide) h.action, rel_insert_ne (by decide) h.design,
        h.extra.trans (Fields.others_insert_of_mem (by simp) fs v).symm⟩
    · obtain ⟨s, hs, hq⟩ := bind_eq_ok_iff.mp hq
      obtain rfl := Except.ok.inj hq
      have hs := Section.read_value lawful_action settled_action hs hv
      exact ⟨rel_insert_ne (by decide) h.ui, rel_insert_ne (by decide) h.state,
        rel_insert_self hs, rel_insert_ne (by decide) h.design,
        h.extra.trans (Fields.others_insert_of_mem (by simp) fs v).symm⟩
    · obtain ⟨s, hs, hq⟩ := bind_eq_ok_iff.mp hq
      obtain rfl := Except.ok.inj hq
      have hs := Section.read_value lawful_design settled_design hs hv
      exact ⟨rel_insert_ne (by decide) h.ui, rel_insert_ne (by decide) h.state,
        rel_insert_ne (by decide) h.action, rel_insert_self hs,
        h.extra.trans (Fields.others_insert_of_mem (by simp) fs v).symm⟩
  unknown v fs hn h := by
    have extra := (congrArg (Fields.insert · _ v) h.extra).trans
      (Fields.others_insert_of_not_mem hn fs v).symm
    simp only [fieldReaders, List.map_cons, List.map_nil, List.mem_cons, List.not_mem_nil, or_false,
      not_or] at hn
    exact ⟨rel_insert_ne hn.1 h.ui, rel_insert_ne hn.2.1 h.state, rel_insert_ne hn.2.2.1 h.action,
      rel_insert_ne hn.2.2.2 h.design, extra⟩

theorem lenientSection_of_rel {α : Type} {shape : SectionShape α} {v : Option Json}
    {s : Option (Section α)}
    (h : Option.Rel (fun v s => Section.read shape (.ofJson v) = .ok s) v s) :
    lenientSection shape v = (s.getD (.empty shape), []) := by
  cases h with
  | none => rfl
  | some h =>
    rename_i v s
    cases v with
    | null => cases h
    | _ => simp only [lenientSection, h, Option.getD_some]

def settled (b : Bundle) : Bundle :=
  ⟨⟨b.ui.components, UiSection.settledLayout b.ui.layout, b.ui.extra⟩, b.state, b.action, b.design,
    b.extra⟩

/-- A bundle that is read strictly from a draft is taken from its value, and no section of it is
passed over. -/
theorem ofJson_of_read {d : Draft} {b : Bundle} {v : Json} (h : read d = .ok b)
    (hv : d.value = .ok v) : ∃ c, ofJson v = .ok ⟨c, []⟩ ∧ b.settled.Matches c := by
  have hu := Draft.unique_of_value hv
  obtain ⟨p, hp, h⟩ := bind_eq_ok_iff.mp h
  obtain ⟨root, rfl, hof⟩ := follows_of.readOpenRecord ⟨.none, .none, .none, .none, rfl⟩ hp hv
  obtain ⟨ui, state, action, design, extra⟩ := p
  cases ui with
  | none => cases h
  | some ui =>
    obtain rfl := Except.ok.inj h
    have hui := hof.ui
    cases hf : Fields.find? root "ui" with
    | none =>
      rw [hf] at hui
      cases hui
    | some w =>
      rw [hf] at hui
      obtain ⟨_, hs, fields, uiExtra, rfl, hread, hperm⟩ := exists_of_rel_some hui
      obtain rfl := Option.some.inj hs
      -- each section is found as it stands in the root, for the names differ
      have h1 := hu.1.swapErase "ui"
      have h2 := h1.swapErase "state"
      have h3 := h2.swapErase "action"
      have hstate : lenientSection .state (Fields.find? (Fields.swapErase root "ui") "state") =
          (state.getD (.empty .state), []) := by
        rw [Fields.find?_swapErase_ne hu.1 (by decide)]
        exact lenientSection_of_rel hof.state
      have haction : lenientSection .action (Fields.find? (Fields.swapErase
          (Fields.swapErase root "ui") "state") "action") = (action.getD (.empty .action), []) := by
        rw [Fields.find?_swapErase_ne h1 (by decide), Fields.find?_swapErase_ne hu.1 (by decide)]
        exact lenientSection_of_rel hof.action
      have hdesign : lenientSection .design (Fields.find? (Fields.swapErase (Fields.swapErase
          (Fields.swapErase root "ui") "state") "action") "design") =
            (design.getD (.empty .design), []) := by
        rw [Fields.find?_swapErase_ne h2 (by decide), Fields.find?_swapErase_ne h1 (by decide),
          Fields.find?_swapErase_ne hu.1 (by decide)]
        exact lenientSection_of_rel hof.design
      have hextra := Fields.swapErase_all_perm hu.1 ["ui", "state", "action", "design"]
      refine ⟨⟨⟨ui.components, UiSection.settledLayout ui.layout, uiExtra⟩, state.getD _,
        action.getD _, design.getD _, ["ui", "state", "action", "design"].foldl Fields.swapErase
          root⟩, ?_, ⟨rfl, rfl, hperm.symm, rfl, rfl, rfl, ?_⟩⟩
      · simp only [ofJson, hf, hread, ok_bind, hstate, haction, hdesign]
        rfl
      · exact (hof.extra ▸ hextra).symm

/-- A text that the strict reading accepts is loaded as the same bundle, and no section of it is
passed over. Only a null layout counts as none. -/
theorem parse_of_strict {text : String} {v : Json} {b : Bundle} (hv : Json.parse text = .ok v)
    (hb : Json.readText read text = .ok b) :
    ∃ c, parse text = .ok ⟨c, []⟩ ∧ b.settled.Matches c ∧ same b.settled c = true := by
  obtain ⟨hu, hd⟩ := unique_of_parse hv
  obtain ⟨c, hc, hm⟩ := ofJson_of_read (root_of_readText hb) (root_of_readText hv)
  have hw := (wellFormed_of_ofJson hu hd hc).1
  refine ⟨c, ?_, hm, same_of_matches hw hm⟩
  rw [parse, hv]
  exact hc

def repetitiveText : String :=
  "\x7b\"z\":1,\"ui\":\x7b\"layout\":null,\"g\":0,\"components\":[\x7b\"type\":\"Text\",\"x\":1," ++
  "\"x\":2,\"props\":\x7b\"a\":1,\"b\":[],\"a\":\x7b\x7d\x7d\x7d],\"g\":1\x7d,\"z\":[]," ++
  "\"design\":\x7b\"k\":0,\"theme\":null,\"k\":1\x7d,\"a\":2\x7d"

theorem parse_of_strict_repetitiveText :
    ∃ v b c, Json.parse repetitiveText = .ok v ∧ Json.readText read repetitiveText = .ok b ∧
      parse repetitiveText = .ok ⟨c, []⟩ ∧ b.settled.Matches c ∧ same b.settled c = true := by
  have hv : (Json.parse repetitiveText).isOk = true := by decide +kernel
  have hb : (Json.readText read repetitiveText).isOk = true := by decide +kernel
  obtain ⟨v, hv⟩ := exists_of_isOk hv
  obtain ⟨b, hb⟩ := exists_of_isOk hb
  obtain ⟨c, hc⟩ := parse_of_strict hv hb
  exact ⟨v, b, c, hv, hb, hc⟩

end Bundle

end NativeUi
