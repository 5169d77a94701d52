import NativeUi.Proofs.Bundle.Strict
import NativeUi.Proofs.Node.NormalForm

/-!
# The value a bundle comes back as

A bundle that is taken from a value and written again holds all that the value holds. What changes
is said of the value alone: missing parts are filled in, and the nodes take their normal form. The
entries that nothing but the bundle looks at come in another order, each once.
-/
namespace NativeUi

open NativeUi.Json

/-! ### Records with some entries set -/

namespace Json

/-- Each entry that is not one of the known stands in the second record as well, and its name only
there. -/
def Keeps (known : List String) (fs gs : Fields Json) : Prop :=
  ∀ f ∈ fs, f.1 ∉ known → gs.filter (fun g => g.1 = f.1) = [f]

section Update

variable {head new extra fs : Fields Json}

theorem keeps_append (hd : Fields.Distinct (head ++ extra))
    (hp : extra.Perm (Fields.others (Fields.names head) fs)) :
    Keeps (Fields.names head) fs (head ++ extra) := by
  intro f hf hn
  have hm : f ∈ extra := hp.mem_iff.mpr (List.mem_filter.mpr ⟨hf, decide_eq_true hn⟩)
  exact Fields.filter_name_eq hd (List.mem_append_right head hm)

theorem same_update (hu : Json.Unique (.object (head ++ extra))) (hd : Fields.Distinct fs)
    (hn : List.Forall₂ (fun f g => f.1 = g.1 ∧ same f.2 g.2 = true) head new)
    (hp : extra.Perm (Fields.others (Fields.names head) fs)) :
    same (.object (head ++ extra)) (.object (fs.update new)) = true := by
  have hnames : Fields.names head = Fields.names new := by
    clear hu hp
    induction hn with
    | nil => rfl
    | cons h _ ih => rw [Fields.names_cons, Fields.names_cons, h.1, ih]
  have hnew : Fields.Distinct new := by
    rw [Fields.Distinct, ← hnames]
    exact (Fields.distinct_append_iff.mp hu.1).1
  have hperm := Fields.update_perm hd hnew
  rw [hnames] at hp
  have find {g : String × Json} (hg : g ∈ new ++ Fields.others (Fields.names new) fs) :
      Fields.find? (fs.update new) g.1 = some g.2 :=
    Fields.find?_of_mem (hd.update new) (hperm.mem_iff.mpr hg)
  -- the known entries stand side by side, and all others are the same in both
  apply same_object
  · rw [hperm.length_eq, List.length_append, List.length_append, hn.length_eq, hp.length_eq]
  · intro f hf
    rcases List.mem_append.mp hf with hf | hf
    · obtain ⟨i, hi, rfl⟩ := List.getElem_of_mem hf
      have hi' : i < new.length := hn.length_eq ▸ hi
      obtain ⟨he, hs⟩ := hn.get hi hi'
      refine ⟨(new.get ⟨i, hi'⟩).2, ?_, hs⟩
      exact he ▸ find (List.mem_append_left _ (List.get_mem _ _))
    · have hx := uniqueFields_iff.mp hu.2 f (List.mem_append_right head hf)
      exact ⟨f.2, find (List.mem_append_right new (hp.mem_iff.mp hf)), same_self hx⟩

theorem same_update_self (hu : Json.Unique (.object (head ++ extra))) (hd : Fields.Distinct fs)
    (hp : extra.Perm (Fields.others (Fields.names head) fs)) :
    same (.object (head ++ extra)) (.object (fs.update head)) = true := by
  refine same_update hu hd (List.forall₂_same.mpr fun f hf => ⟨rfl, ?_⟩) hp
  exact same_self (uniqueFields_iff.mp hu.2 f (List.mem_append_left extra hf))

end Update

end Json

/-! ### Sections -/

namespace Section

variable {α : Type} {shape : SectionShape α}

def fields (shape : SectionShape α) (fs : Fields Json) : Fields Json :=
  [(shape.firstName, (Fields.find? fs shape.firstName).getD (shape.toJson shape.default)),
    (shape.secondName, (Fields.find? fs shape.secondName).getD (shape.toJson shape.default))]

def normalForm (shape : SectionShape α) (v : Option Json) : Json :=
  .object ((entries v).update (fields shape (entries v)))

inductive Formed (shape : SectionShape α) : Option Json → Prop
  | absent : Formed shape none
  | null : Formed shape (some .null)
  | object {fs : Fields Json}
      (first : ∀ v ∈ Fields.find? fs shape.firstName, ∃ a, shape.toJson a = v)
      (second : ∀ v ∈ Fields.find? fs shape.secondName, ∃ a, shape.toJson a = v) :
      Formed shape (some (.object fs))

theorem exists_rel (hs : shape.Lawful) {v : Option Json} (hu : ∀ x ∈ v, x.Unique)
    (h : ∀ x ∈ v, ∃ a, shape.toJson a = x) :
    ∃ o, Option.Rel (fun v a => shape.read (.ofJson v) = .ok a) v o ∧
      shape.toJson (o.getD shape.default) = v.getD (shape.toJson shape.default) := by
  cases v with
  | none => exact ⟨none, .none, rfl⟩
  | some v =>
    obtain ⟨a, rfl⟩ := h v rfl
    refine ⟨some a, .some ?_, rfl⟩
    rw [Draft.ofJson_eq_spelt]
    exact hs.read_spelt Draft.faithful_ofString (hu _ rfl)

theorem exists_read {fs : Fields Json} (hs : shape.Lawful) (hu : Json.Unique (.object fs))
    (h : Formed shape (some (.object fs))) :
    ∃ s, read shape (.ofJson (.object fs)) = .ok s ∧ s.toJson shape =
      .object (fields shape fs ++ Fields.others [shape.firstName, shape.secondName] fs) := by
  have unique (name : String) : ∀ x ∈ Fields.find? fs name, x.Unique :=
    fun _ hx => uniqueFields_iff.mp hu.2 _ (Fields.mem_of_find? hx)
  cases h with
  | object first second =>
    obtain ⟨a, ha, hfirst⟩ := exists_rel hs (unique _) first
    obtain ⟨b, hb, hsecond⟩ := exists_rel hs (unique _) second
    refine ⟨⟨a.getD shape.default, b.getD shape.default,
      Fields.others [shape.firstName, shape.secondName] fs⟩, ?_, ?_⟩
    · have hof : Parts.Of shape ⟨a, b, _⟩ ([] ++ fs) := ⟨ha, hb, rfl⟩
      rw [Draft.ofJson, read_object, Parts.of_empty.readFields hs hu.2 hu.1 hof]
      rfl
    · rw [toJson, hfirst, hsecond]
      rfl

theorem exists_lenientSection (hs : shape.Lawful) {v : Option Json} (hu : ∀ x ∈ v, x.Unique)
    (h : Formed shape v) :
    ∃ s, Bundle.lenientSection shape v = (s, []) ∧ s.toJson shape =
      .object (fields shape (entries v) ++
        Fields.others [shape.firstName, shape.secondName] (entries v)) := by
  cases h with
  | absent => exact ⟨.empty shape, rfl, rfl⟩
  | null => exact ⟨.empty shape, rfl, rfl⟩
  | object first second =>
    obtain ⟨s, hr, hj⟩ := exists_read hs (hu _ rfl) (.object first second)
    refine ⟨s, ?_, hj⟩
    simp only [Bundle.lenientSection, hr]

theorem same_normalForm {v : Option Json} {s : Section α} (hu : ∀ x ∈ v, x.Unique)
    (hw : (s.toJson shape).Unique)
    (h : s.toJson shape = .object (fields shape (entries v) ++
      Fields.others [shape.firstName, shape.secondName] (entries v))) :
    same (s.toJson shape) (normalForm shape v) = true ∧
      Keeps [shape.firstName, shape.secondName] (entries v) (entries (some (s.toJson shape))) := by
  rw [h] at hw ⊢
  exact ⟨same_update_self hw (distinct_entries hu) (.refl _), keeps_append hw.1 (.refl _)⟩

end Section

/-! ### The trees and what stands beside them -/

namespace UiSection

def fields (fs : Fields Json) : Fields Json :=
  [("components", .list (Node.listForms ((Fields.find? fs "components").getD .null))),
    ("layout", Node.orEmpty (Fields.find? fs "layout"))]

def normalForm (v : Option Json) : Json := .object ((entries v).update (fields (entries v)))

theorem layoutOf_eq (v : Option Json) : Bundle.layoutOf v = Node.orEmpty v := by
  match v with
  | none => rfl
  | some .null => rfl
  | some (.bool _) => rfl
  | some (.number _) => rfl
  | some (.string _) => rfl
  | some (.list _) => rfl
  | some (.object _) => rfl

theorem toJson_of_readUi {fs : Fields Json} {s : UiSection} (hu : Json.Unique (.object fs))
    (h : Bundle.readUi fs = .ok s) :
    s.toJson = .object (fields fs ++ s.extra) ∧
      s.extra.Perm (Fields.others ["components", "layout"] fs) := by
  obtain ⟨items, nodes, hc, hn, rfl⟩ := Bundle.readUi_ok h
  have hitems : UniqueItems items := uniqueFields_iff.mp hu.2 _ (Fields.mem_of_find? hc)
  have hnodes : Node.readAll .value (Draft.ofItems items) = .ok nodes := by
    rw [Draft.ofItems_eq_spelt]
    exact Bundle.readComponents_eq 0 items hn
  refine ⟨?_, Fields.swapErase_all_perm hu.1 ["components", "layout"]⟩
  rw [toJson, fields, hc, Option.getD_some, Node.listForms,
    ← Node.toJsonAll_of_readAll hitems hnodes, layoutOf_eq,
    Fields.find?_swapErase_ne hu.1 (by decide)]

theorem same_normalForm {fs : Fields Json} {s : UiSection} (hu : Json.Unique (.object fs))
    (hw : s.toJson.Unique) (h : Bundle.readUi fs = .ok s) :
    same s.toJson (normalForm (some (.object fs))) = true ∧
      Keeps ["components", "layout"] fs (entries (some s.toJson)) := by
  obtain ⟨hj, hp⟩ := toJson_of_readUi hu h
  rw [hj] at hw ⊢
  exact ⟨same_update_self hw hu.1 hp, keeps_append hw.1 hp⟩

end UiSection

/-! ### Bundles -/

namespace Bundle

def fields (v : Json) : Fields Json :=
  [("ui", UiSection.normalForm (v.member "ui")),
    ("state", Section.normalForm .state (v.member "state")),
    ("action", Section.normalForm .action (v.member "action")),
    ("design", Section.normalForm .design (v.member "design"))]

def normalForm (v : Json) : Json := .object ((entries (some v)).update (fields v))

def known : List (String × List String) :=
  [("ui", ["components", "layout"]), ("state", ["entities", "relationships"]),
    ("action", ["actions", "flows"]), ("design", ["theme", "tokens"])]

/-- The parts of a bundle are those that stand in the value, though each is taken out of what the
ones before it have left. -/
theorem exists_of_ofJson {v : Json} {lb : LoadedBundle} (hu : v.Unique) (h : ofJson v = .ok lb) :
    ∃ root fields ui, v = .object root ∧ Fields.find? root "ui" = some (.object fields) ∧
      readUi fields = .ok ui ∧
      lb.bundle = ⟨ui, (lenientSection .state (v.member "state")).1,
        (lenientSection .action (v.member "action")).1,
        (lenientSection .design (v.member "design")).1,
        ["ui", "state", "action", "design"].foldl Fields.swapErase root⟩ ∧
      lb.ignored = (lenientSection .state (v.member "state")).2 ++
        (lenientSection .action (v.member "action")).2 ++
        (lenientSection .design (v.member "design")).2 := by
  obtain ⟨root, r₁, r₂, r₃, fields, ui, rfl, rfl, rfl, rfl, hf, hui, hb, hi⟩ := ofJson_ok h
  -- taking one section out moves others, but does not hide them
  have h1 := hu.1.swapErase "ui"
  have h2 := h1.swapErase "state"
  rw [Fields.find?_swapErase_ne hu.1 (by decide), Fields.find?_swapErase_ne h1 (by decide),
    Fields.find?_swapErase_ne hu.1 (by decide), Fields.find?_swapErase_ne h2 (by decide),
    Fields.find?_swapErase_ne h1 (by decide), Fields.find?_swapErase_ne hu.1 (by decide)] at hb hi
  exact ⟨root, fields, ui, rfl, hf, hui, hb, hi⟩

/-- A bundle is written in the normal form of the value it is taken from, but for the order of
entries, if each of its sections is missing or well-formed. What is written is the text of this
value and of no other, and it is read as the value. -/
theorem same_toJson_normalForm {v : Json} {lb : LoadedBundle} (hu : v.Unique)
    (h : ofJson v = .ok lb) (state : Section.Formed .state (v.member "state"))
    (action : Section.Formed .action (v.member "action"))
    (design : Section.Formed .design (v.member "design")) :
    Json.same lb.bundle.toJson (normalForm v) = true ∧ lb.bundle.toJson.Unique ∧
      (∀ w : Json, w.pretty = lb.bundle.pretty ↔ w = lb.bundle.toJson) ∧
      (v.depth ≤ depthLimit → lb.bundle.toJson.ReadsBack →
        Json.parse lb.bundle.pretty = .ok lb.bundle.toJson) ∧
      lb.ignored = [] ∧
      Keeps ["ui", "state", "action", "design"] (entries (some v))
        (entries (some lb.bundle.toJson)) ∧
      ∀ s ∈ known, Keeps s.2 (entries (v.member s.1)) (entries (lb.bundle.toJson.member s.1)) := by
  have hw := (wellFormed_of_unique hu h).value
  have hown (w : Json) : w.pretty = lb.bundle.pretty ↔ w = lb.bundle.toJson :=
    ⟨pretty_inj, congrArg Json.pretty⟩
  have htext (hd : v.depth ≤ depthLimit) (hr : lb.bundle.toJson.ReadsBack) :
      Json.parse lb.bundle.pretty = .ok lb.bundle.toJson :=
    parse_pretty hr hw (wellFormed_of_ofJson hu hd h).2
  obtain ⟨root, fs, ui, rfl, hf, hui, hb, hi⟩ := exists_of_ofJson hu h
  have unique (name : String) : ∀ x ∈ (Json.object root).member name, x.Unique :=
    fun _ hx => unique_member hu hx
  obtain ⟨s, hs, hsj⟩ := Section.exists_lenientSection lawful_state (unique "state") state
  obtain ⟨a, ha, haj⟩ := Section.exists_lenientSection lawful_action (unique "action") action
  obtain ⟨d, hd, hdj⟩ := Section.exists_lenientSection lawful_design (unique "design") design
  rw [hs, ha, hd] at hb hi
  rw [hb] at hw hown htext ⊢
  have hp := Fields.swapErase_all_perm hu.1 ["ui", "state", "action", "design"]
  obtain ⟨hwu, hws, hwa, hwd, -⟩ := hw.2
  obtain ⟨hus, huk⟩ := UiSection.same_normalForm (unique "ui" _ hf) hwu hui
  obtain ⟨hss, hsk⟩ := Section.same_normalForm (unique "state") hws hsj
  obtain ⟨has, hak⟩ := Section.same_normalForm (unique "action") hwa haj
  obtain ⟨hds, hdk⟩ := Section.same_normalForm (unique "design") hwd hdj
  have hfs : (Json.object root).member "ui" = some (.object fs) := hf
  refine ⟨?_, hw, hown, htext, hi, keeps_append hw.1 hp, ?_⟩
  · refine same_update hw hu.1 ?_ hp
    rw [fields, hfs]
    exact .cons ⟨rfl, hus⟩ (.cons ⟨rfl, hss⟩ (.cons ⟨rfl, has⟩ (.cons ⟨rfl, hds⟩ .nil)))
  · intro s hs
    simp only [known, List.mem_cons, List.not_mem_nil, or_false] at hs
    rcases hs with rfl | rfl | rfl | rfl
    · rw [hfs]
      exact huk
    · exact hsk
    · exact hak
    · exact hdk

def mixedValue : Json :=
  .object [("version", .string "2"), ("state", .null),
    ("ui", .object [("grid", .list []),
      ("components", .list [.list [.string "root", .string "Column", .null,
        .list [.object [("note", .bool true), ("type", .string "Text"), ("children", .null)]]]]),
      ("layout", .null)]),
    ("design", .object [("palette", .string "dark"), ("tokens", .list [])]), ("notes", .object [])]

theorem unique_mixedValue : mixedValue.Unique := by
  simp [mixedValue, Json.Unique, UniqueItems, UniqueFields, Fields.Distinct]

theorem same_toJson_normalForm_mixedValue :
    ∃ lb, ofJson mixedValue = .ok lb ∧
      Json.same lb.bundle.toJson (.object [("version", .string "2"),
        ("state", .object [("entities", .list []), ("relationships", .list [])]),
        ("ui", .object [("grid", .list []),
          ("components", .list [.object [("id", .string "root"), ("type", .string "Column"),
            ("props", .object []),
            ("children", .list [.object [("type", .string "Text"), ("props", .object [])]])]]),
          ("layout", .object [])]),
        ("design", .object [("palette", .string "dark"), ("tokens", .list []),
          ("theme", .object [])]),
        ("notes", .object []),
        ("action", .object [("actions", .list []), ("flows", .list [])])]) = true := by
  have hp : (ofJson mixedValue).isOk = true := by decide +kernel
  obtain ⟨lb, h⟩ := exists_of_isOk hp
  have hd : Section.Formed .design (mixedValue.member "design") :=
    .object (fun v _ => ⟨v, rfl⟩) fun v _ => ⟨v, rfl⟩
  exact ⟨lb, h, (same_toJson_normalForm unique_mixedValue h .null .absent hd).1⟩

end Bundle

end NativeUi
