import NativeUi.Bundle.Loader
import NativeUi.Proofs.Bundle.Section
import NativeUi.Proofs.Json.RoundTrip
import NativeUi.Proofs.Node.RoundTrip

/-!
# Bundles read back

A bundle that has been read from a text is read back from the text that is written for it. Nodes
start at the third level, and 127 levels may be open, so that a node has an even number of levels
for itself: what writing adds to a node always fits in.
-/
namespace NativeUi

open NativeUi.Json

theorem Bundle.readUi_ok {fields : Fields Json} {s : UiSection} (h : readUi fields = .ok s) :
    ∃ items nodes, Fields.find? fields "components" = some (.list items) ∧
      readComponents 0 items = .ok nodes ∧
      s = ⟨nodes, layoutOf (Fields.find? (Fields.swapErase fields "components") "layout"),
        Fields.swapErase (Fields.swapErase fields "components") "layout"⟩ := by
  unfold readUi at h
  split at h
  · cases h
  · next items hc =>
    obtain ⟨nodes, hn, h⟩ := bind_eq_ok_iff.mp h
    exact ⟨items, nodes, hc, hn, (Except.ok.inj h).symm⟩
  · cases h

/-- All that is taken from a value. Each section is looked for in what the ones before it have
left. -/
theorem Bundle.ofJson_ok {v : Json} {lb : LoadedBundle} (h : ofJson v = .ok lb) :
    ∃ root r₁ r₂ r₃ fields ui, v = .object root ∧
      r₁ = Fields.swapErase root "ui" ∧ r₂ = Fields.swapErase r₁ "state" ∧
      r₃ = Fields.swapErase r₂ "action" ∧
      Fields.find? root "ui" = some (.object fields) ∧ readUi fields = .ok ui ∧
      lb.bundle = ⟨ui, (lenientSection .state (Fields.find? r₁ "state")).1,
        (lenientSection .action (Fields.find? r₂ "action")).1,
        (lenientSection .design (Fields.find? r₃ "design")).1, Fields.swapErase r₃ "design"⟩ ∧
      lb.ignored = (lenientSection .state (Fields.find? r₁ "state")).2 ++
        (lenientSection .action (Fields.find? r₂ "action")).2 ++
        (lenientSection .design (Fields.find? r₃ "design")).2 := by
  cases v with
  | object root =>
    simp only [ofJson] at h
    split at h
    · cases h
    · next fields hf =>
      obtain ⟨ui, hui, h⟩ := bind_eq_ok_iff.mp h
      obtain rfl := Except.ok.inj h
      exact ⟨root, _, _, _, fields, ui, rfl, rfl, rfl, rfl, hf, hui, rfl, rfl⟩
    · cases h
  | _ => cases h

theorem Bundle.readComponents_eq (index : Nat) (items : List Json) {nodes : List Node}
    (h : readComponents index items = .ok nodes) :
    Node.readAll .value (Draft.speltItems .ofString items) = .ok nodes := by
  induction items generalizing index nodes with
  | nil =>
    obtain rfl := Except.ok.inj h
    rfl
  | cons v items ih =>
    rw [readComponents] at h
    split at h
    · cases h
    · next n hn =>
      obtain ⟨ns, hns, h⟩ := bind_eq_ok_iff.mp h
      rw [Node.ofJson, Draft.ofJson_eq_spelt] at hn
      obtain rfl := Except.ok.inj h
      rw [Draft.speltItems, Node.readAll, hn, ok_bind, ih _ hns, ok_bind]

theorem Bundle.readComponents_toJsonAll (index : Nat) {nodes : List Node}
    (h : Node.UniqueAll nodes) : readComponents index (Node.toJsonAll nodes) = .ok nodes := by
  induction nodes generalizing index with
  | nil => rfl
  | cons n ns ih =>
    have hn : Node.ofJson n.toJson = .ok n := by
      rw [Node.ofJson, Draft.ofJson_eq_spelt]
      exact Node.read_spelt Draft.faithful_ofString .value h.1
    rw [Node.toJsonAll, readComponents, hn]
    simp only [ih _ h.2, ok_bind]

/-! ### The trees and what stands beside them -/

namespace UiSection

structure WellFormed (s : UiSection) : Prop where
  components : Node.UniqueAll s.components
  layout : s.layout ≠ .null
  value : s.toJson.Unique

theorem layoutOf_ne_null (v : Option Json) : Bundle.layoutOf v ≠ .null := by
  unfold Bundle.layoutOf
  split
  · exact Json.noConfusion
  · exact Json.noConfusion
  · next h => exact h

theorem unique_layoutOf {v : Option Json} (h : ∀ x ∈ v, x.Unique) :
    (Bundle.layoutOf v).Unique := by
  unfold Bundle.layoutOf
  split
  · exact ⟨Fields.distinct_nil, trivial⟩
  · exact ⟨Fields.distinct_nil, trivial⟩
  · exact h _ rfl

theorem depth_layoutOf {v : Option Json} {k : Nat} (hk : 1 ≤ k) (h : ∀ x ∈ v, x.depth ≤ k) :
    (Bundle.layoutOf v).depth ≤ k := by
  unfold Bundle.layoutOf
  split
  · exact hk
  · exact hk
  · exact h _ rfl

theorem wellFormed_of_readUi {fields : Fields Json} {s : UiSection}
    (hu : Json.Unique (.object fields)) (h : Bundle.readUi fields = .ok s) :
    s.WellFormed ∧
      s.toJson.depth ≤ 1 + max (1 + 2 * (depthFields fields / 2)) (depthFields fields) := by
  obtain ⟨items, nodes, hc, hn, rfl⟩ := Bundle.readUi_ok h
  have hmem := Fields.mem_of_find? hc
  have hitems : UniqueItems items := uniqueFields_iff.mp hu.2 _ hmem
  have hdepth : 1 + depthItems items ≤ depthFields fields :=
    depthFields_le_iff.mp (Nat.le_refl _) _ hmem
  obtain ⟨hnodes, hd⟩ := Node.unique_of_readAll Draft.faithful_ofString .value hitems
    (Bundle.readComponents_eq 0 items hn)
  have hrest := hu.1.swapErase "components"
  have hin (f : String × Json) (hf : f ∈ Fields.swapErase fields "components") :
      f.2.Unique ∧ f.2.depth ≤ depthFields fields := by
    have hf := ((Fields.mem_swapErase hu.1).mp hf).1
    exact ⟨uniqueFields_iff.mp hu.2 f hf, depthFields_le_iff.mp (Nat.le_refl _) f hf⟩
  have hlay (x : Json) (hx : x ∈ Fields.find? (Fields.swapErase fields "components") "layout") :=
    hin _ (Fields.mem_of_find? hx)
  have hextra (f : String × Json)
      (hf : f ∈ Fields.swapErase (Fields.swapErase fields "components") "layout") :
      f ∈ Fields.swapErase fields "components" ∧ f.1 ≠ "components" ∧ f.1 ≠ "layout" := by
    have hl := (Fields.mem_swapErase hrest).mp hf
    exact ⟨hl.1, ((Fields.mem_swapErase hu.1).mp hl.1).2, hl.2⟩
  refine ⟨⟨hnodes, layoutOf_ne_null _, ?_, ?_⟩, ?_⟩
  · refine Fields.distinct_append_iff.mpr
      ⟨by simp [Fields.Distinct], hrest.swapErase "layout", ?_⟩
    intro f hf
    simpa using (hextra f hf).2
  · refine ⟨Node.unique_toJsonAll hnodes, unique_layoutOf fun x hx => (hlay x hx).1, ?_⟩
    exact uniqueFields_iff.mpr fun f hf => (hin f (hextra f hf).1).1
  · have h1 := depth_layoutOf (v := Fields.find? (Fields.swapErase fields "components") "layout")
      (by omega) fun x hx => (hlay x hx).2
    have h2 := depthFields_le_iff.mpr fun f hf => (hin f (hextra f hf).1).2
    simp only [toJson, Json.depth, List.cons_append, List.nil_append, depthFields]
    omega

theorem readUi_toJson {s : UiSection} (h : s.WellFormed) :
    ∃ fields, s.toJson = .object fields ∧
      ∃ extra, Bundle.readUi fields = .ok ⟨s.components, s.layout, extra⟩ ∧
        extra.Perm s.extra := by
  refine ⟨_, rfl, ?_⟩
  obtain ⟨hd, -, -⟩ := h.value
  obtain ⟨hc, hp, hd'⟩ := Fields.swapErase_of_perm_cons hd (.refl _)
  obtain ⟨hl, hp', -⟩ := Fields.swapErase_of_perm_cons hd' hp
  have hlayout : Bundle.layoutOf (some s.layout) = s.layout := by
    unfold Bundle.layoutOf
    split
    · next he => cases he
    · next he => exact absurd (Option.some.inj he) h.layout
    · next he => exact (Option.some.inj he).symm
  refine ⟨_, ?_, hp'⟩
  simp only [Bundle.readUi, hc, Bundle.readComponents_toJsonAll 0 h.components, ok_bind, hl,
    hlayout]

end UiSection

/-! ### Bundles -/

namespace Bundle

structure WellFormed (b : Bundle) : Prop where
  ui : b.ui.WellFormed
  value : b.toJson.Unique

/-- Equality but for the order of the entries that nothing but the bundle looks at. -/
structure Matches (a b : Bundle) : Prop where
  components : a.ui.components = b.ui.components
  layout : a.ui.layout = b.ui.layout
  uiExtra : a.ui.extra.Perm b.ui.extra
  state : a.state = b.state
  action : a.action = b.action
  design : a.design = b.design
  extra : a.extra.Perm b.extra

theorem lenientSection_toJson {α : Type} {shape : SectionShape α} (hs : shape.Lawful)
    {s : Section α} (h : (s.toJson shape).Unique) :
    lenientSection shape (some (s.toJson shape)) = (s, []) := by
  have hr : Section.read shape (Draft.ofJson (s.toJson shape)) = .ok s := by
    rw [Draft.ofJson_eq_spelt]
    exact Section.read_spelt hs Draft.faithful_ofString h
  rw [Section.toJson] at hr ⊢
  simp only [lenientSection, hr]

theorem ofJson_toJson {b : Bundle} (h : b.WellFormed) :
    ∃ c, ofJson b.toJson = .ok ⟨c, []⟩ ∧ c.Matches b := by
  obtain ⟨hd, -, hstate, haction, hdesign, -⟩ := h.value
  obtain ⟨fields, hui, extra, hread, hextra⟩ := UiSection.readUi_toJson h.ui
  obtain ⟨h1, hp1, hd1⟩ := Fields.swapErase_of_perm_cons hd (.refl _)
  obtain ⟨h2, hp2, hd2⟩ := Fields.swapErase_of_perm_cons hd1 hp1
  obtain ⟨h3, hp3, hd3⟩ := Fields.swapErase_of_perm_cons hd2 hp2
  obtain ⟨h4, hp4, -⟩ := Fields.swapErase_of_perm_cons hd3 hp3
  refine ⟨⟨⟨b.ui.components, b.ui.layout, extra⟩, b.state, b.action, b.design, _⟩, ?_,
    ⟨rfl, rfl, hextra, rfl, rfl, rfl, hp4⟩⟩
  have h1 := h1.trans (congrArg some hui)
  simp only [ofJson, toJson, h1, hread, ok_bind, h2, h3, h4,
    lenientSection_toJson lawful_state hstate, lenientSection_toJson lawful_action haction,
    lenientSection_toJson lawful_design hdesign]
  rfl

theorem unique_lenientSection {α : Type} {shape : SectionShape α} (hs : shape.Lawful)
    {v : Option Json} {k : Nat} (hk : 2 ≤ k) (hu : ∀ x ∈ v, x.Unique ∧ x.depth ≤ k) :
    ((lenientSection shape v).1.toJson shape).Unique ∧
      ((lenientSection shape v).1.toJson shape).depth ≤ k := by
  have hempty : ((Section.empty shape).toJson shape).Unique ∧
      ((Section.empty shape).toJson shape).depth ≤ k := by
    refine ⟨Section.unique_toJson hs hs.default.1 hs.default.1
      ⟨Fields.distinct_nil, trivial⟩ (by simp [Section.empty]), ?_⟩
    have hd := hs.default.2
    simp only [Section.empty, Section.toJson, Json.depth, List.append_nil, depthFields]
    omega
  unfold lenientSection
  split
  · exact hempty
  · exact hempty
  · next x hx =>
    obtain ⟨hx1, hx2⟩ := hu _ rfl
    split
    · next s hr =>
      rw [Draft.ofJson_eq_spelt] at hr
      have hw := Section.unique_of_read hs Draft.faithful_ofString hx1 hr
      exact ⟨hw.1, Nat.le_trans hw.2 (Nat.max_le.mpr ⟨hk, hx2⟩)⟩
    · exact hempty

/-- A record of which any part may stand in a document: no name twice, at any depth, and no value
deeper than `k`. -/
def Fits (k : Nat) (fs : Fields Json) : Prop :=
  fs.Distinct ∧ ∀ f ∈ fs, f.2.Unique ∧ f.2.depth ≤ k

theorem Fits.swapErase {k : Nat} {fs : Fields Json} (h : Fits k fs) (name : String) :
    Fits k (fs.swapErase name) :=
  ⟨h.1.swapErase name, fun f hf => h.2 f ((Fields.mem_swapErase h.1).mp hf).1⟩

theorem Fits.lenientSection {α : Type} {shape : SectionShape α} (hs : shape.Lawful) {k : Nat}
    (hk : 2 ≤ k) {fs : Fields Json} (h : Fits k fs) (name : String) :
    ((lenientSection shape (fs.find? name)).1.toJson shape).Unique ∧
      ((lenientSection shape (fs.find? name)).1.toJson shape).depth ≤ k :=
  unique_lenientSection hs hk fun _ hx => h.2 _ (Fields.mem_of_find? hx)

/-- A bundle that is taken from a value can be written. It may come out deeper by one level, as its
nodes may. -/
theorem wellFormed_of_depth_le {v : Json} {lb : LoadedBundle} {k : Nat} (hk : 2 ≤ k)
    (hu : v.Unique) (hd : v.depth ≤ k + 1) (h : ofJson v = .ok lb) :
    lb.bundle.WellFormed ∧ lb.bundle.toJson.depth ≤ 1 + 2 * ((k + 1) / 2) := by
  obtain ⟨root, r₁, r₂, r₃, fields, ui, rfl, rfl, rfl, rfl, hf, hui, hb, -⟩ := ofJson_ok h
  have hroot : depthFields root ≤ k := by
    rw [Json.depth] at hd
    omega
  have h0 : Fits k root :=
    ⟨hu.1, fun f hf => ⟨uniqueFields_iff.mp hu.2 f hf, depthFields_le_iff.mp hroot f hf⟩⟩
  obtain ⟨hfu, hfd⟩ := h0.2 _ (Fields.mem_of_find? hf)
  obtain ⟨hw, hwd⟩ := UiSection.wellFormed_of_readUi hfu hui
  -- what is left of the root, section by section
  have h1 := h0.swapErase "ui"
  have h2 := h1.swapErase "state"
  have h3 := h2.swapErase "action"
  have h4 := h3.swapErase "design"
  have hs := h1.lenientSection lawful_state hk "state"
  have ha := h2.lenientSection lawful_action hk "action"
  have hg := h3.lenientSection lawful_design hk "design"
  have hx := uniqueFields_iff.mpr fun f hf => (h4.2 f hf).1
  rw [hb]
  refine ⟨⟨hw, ?_, hw.value, hs.1, ha.1, hg.1, hx⟩, ?_⟩
  · refine Fields.distinct_append_iff.mpr ⟨by simp [Fields.Distinct], h4.1, ?_⟩
    intro f hf
    obtain ⟨hf, n4⟩ := (Fields.mem_swapErase h3.1).mp hf
    obtain ⟨hf, n3⟩ := (Fields.mem_swapErase h2.1).mp hf
    obtain ⟨hf, n2⟩ := (Fields.mem_swapErase h1.1).mp hf
    obtain ⟨-, n1⟩ := (Fields.mem_swapErase h0.1).mp hf
    simp [n1, n2, n3, n4]
  · have hxd := depthFields_le_iff.mpr fun f hf => (h4.2 f hf).2
    rw [Json.depth] at hfd
    simp only [toJson, Json.depth, List.cons_append, List.nil_append, depthFields]
    omega

theorem wellFormed_of_unique {v : Json} {lb : LoadedBundle} (hu : v.Unique)
    (h : ofJson v = .ok lb) : lb.bundle.WellFormed :=
  (wellFormed_of_depth_le (Nat.le_max_left 2 v.depth) hu
    (Nat.le_succ_of_le (Nat.le_max_right 2 v.depth)) h).1

theorem wellFormed_of_ofJson {v : Json} {lb : LoadedBundle} (hu : v.Unique)
    (hd : v.depth ≤ depthLimit) (h : ofJson v = .ok lb) :
    lb.bundle.WellFormed ∧ lb.bundle.toJson.depth ≤ depthLimit :=
  wellFormed_of_depth_le (by decide : 2 ≤ 126) hu hd h

theorem wellFormed_of_parse {text : String} {lb : LoadedBundle} (h : parse text = .ok lb) :
    lb.bundle.WellFormed ∧ lb.bundle.toJson.depth ≤ depthLimit := by
  rw [parse] at h
  split at h
  · cases h
  · next v hv =>
    obtain ⟨hu, hd⟩ := unique_of_parse hv
    exact wellFormed_of_ofJson hu hd h

theorem same_of_matches {a b : Bundle} (hb : b.WellFormed) (h : a.Matches b) :
    same a b = true := by
  have hu := hb.value
  have hui : Json.same a.ui.toJson b.ui.toJson = true := by
    rw [UiSection.toJson, h.components, h.layout]
    exact same_of_perm hb.ui.value (h.uiExtra.append_left _)
  rw [same, Bool.and_eq_true, roots, roots, h.components]
  refine ⟨Node.sameAll_self hb.ui.components, ?_⟩
  rw [toJson, h.state, h.action, h.design]
  apply same_object
  · simp [h.extra.length_eq]
  · intro f hf
    rcases List.mem_cons.mp hf with rfl | hf
    · exact ⟨_, Fields.find?_of_mem hu.1 (.head _), hui⟩
    · have hg : f ∈ _ := List.mem_cons_of_mem ("ui", b.ui.toJson)
        ((h.extra.append_left [_, _, _]).mem_iff.mp hf)
      exact ⟨f.2, Fields.find?_of_mem hu.1 hg, sameFields_self hu.2 f hg⟩

/-- A bundle that has been loaded is loaded again from the text that is written for it, with no
section passed over: the trees, the layout and the sections are the same, and so are all other
entries but for their order. The bundle is within the limit whatever writing adds to it. -/
theorem parse_pretty_of_parse {text : String} {lb : LoadedBundle} (h : parse text = .ok lb)
    (hr : lb.bundle.toJson.ReadsBack) :
    ∃ b, parse lb.bundle.pretty = .ok ⟨b, []⟩ ∧ b.Matches lb.bundle ∧
      same b lb.bundle = true := by
  obtain ⟨hw, hd⟩ := wellFormed_of_parse h
  obtain ⟨b, hb, hm⟩ := ofJson_toJson hw
  refine ⟨b, ?_, hm, same_of_matches hw hm⟩
  rw [parse, pretty, parse_pretty hr hw.value hd]
  exact hb

def sparseText : String :=
  "\x7b\"z\":1.50,\"ui\":\x7b\"gap\":8,\"components\":[\x7b\"type\":\"Text\"\x7d]\x7d," ++
    "\"state\":7,\"a\":[]\x7d"

theorem parse_pretty_of_parse_sparse :
    ∃ lb b, parse sparseText = .ok lb ∧ lb.bundle.toJson.ReadsBack ∧
      parse lb.bundle.pretty = .ok ⟨b, []⟩ ∧ b.Matches lb.bundle ∧ same b lb.bundle = true := by
  have hp : ((parse sparseText).toOption.any fun lb =>
      decide lb.bundle.toJson.ReadsBack) = true := by
    decide +kernel
  cases h : parse sparseText with
  | error e =>
    rw [h] at hp
    cases hp
  | ok lb =>
    rw [h] at hp
    have hr : lb.bundle.toJson.ReadsBack := of_decide_eq_true hp
    obtain ⟨b, hb⟩ := parse_pretty_of_parse h hr
    exact ⟨lb, b, rfl, hr, hb⟩

end Bundle

end NativeUi
