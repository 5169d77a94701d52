import NativeUi.Proofs.Bundle.Order
import NativeUi.Proofs.FileTree.Stored
import NativeUi.Proofs.Workspace

/-!
# Bundles that can be stored

Trees of any height are written, but a reader opens 127 levels at most. A bundle takes three of them
for itself, and each node takes two: one for the node and one for its properties or its children.
The values of properties take their own. So trees come back as long as they have 124 levels or less,
which is a height of 62 if no property is a list or an object.
-/
namespace NativeUi

open NativeUi.Json

def IsSetting (v : Json) : Prop := ∃ s : Setting, v = s.toJson

namespace Node

mutual

def height : Node → Nat
  | ⟨_, _, _, children⟩ => 1 + heightAll children

def heightAll : List Node → Nat
  | [] => 0
  | n :: ns => max (height n) (heightAll ns)

end

mutual

/-- How many lists and objects a node opens, one inside the other. -/
def levels : Node → Nat
  | ⟨_, _, props, children⟩ => 2 + max (depthFields props) (levelsAll children)

def levelsAll : List Node → Nat
  | [] => 0
  | n :: ns => max (levels n) (levelsAll ns)

end

/-- A node that is made step by step of kinds, children and properties with certain values. -/
inductive Built (value : Json → Prop) : Node → Prop
  | ofKind (kind : String) : Built value (.ofKind kind)
  | withProp {n : Node} (h : Built value n) (name : String) {v : Json} (hv : value v) :
      Built value (n.withProp name v)
  | withChild {n child : Node} (hn : Built value n) (hc : Built value child) :
      Built value (n.withChild child)

theorem uniqueAll_iff {ns : List Node} : UniqueAll ns ↔ ∀ n ∈ ns, n.Unique := by
  induction ns with
  | nil => simp [UniqueAll]
  | cons n ns ih => rw [UniqueAll, ih, List.forall_mem_cons]

theorem Built.unique {n : Node} (h : n.Built Json.Unique) : n.Unique := by
  induction h with
  | ofKind kind => exact ⟨ofName_name_ofName kind, ⟨Fields.distinct_nil, trivial⟩, trivial⟩
  | @withProp n _ name v hv ih =>
    obtain ⟨id, kind, props, children⟩ := n
    obtain ⟨hkind, hprops, hall⟩ := ih
    exact ⟨hkind, ⟨hprops.1.insert name _, hprops.2.insert name hv⟩, hall⟩
  | @withChild n child _ _ ih ihc =>
    obtain ⟨id, kind, props, children⟩ := n
    obtain ⟨hkind, hprops, hall⟩ := ih
    refine ⟨hkind, hprops, uniqueAll_iff.mpr ?_⟩
    exact List.forall_mem_append.mpr ⟨uniqueAll_iff.mp hall, by simpa using ihc⟩

/-! ### Levels -/

mutual

theorem depth_eq_levels : ∀ n : Node, n.toJson.depth = n.levels
  | ⟨id, kind, props, children⟩ => by rw [depth_toJson, depthItems_eq_levelsAll children, levels]

theorem depthItems_eq_levelsAll : ∀ ns : List Node, depthItems (toJsonAll ns) = levelsAll ns
  | [] => rfl
  | n :: ns => by
    rw [toJsonAll, depthItems, depth_eq_levels n, depthItems_eq_levelsAll ns, levelsAll]

end

theorem levelsAll_le_iff {ns : List Node} {k : Nat} :
    levelsAll ns ≤ k ↔ ∀ n ∈ ns, n.levels ≤ k := by
  induction ns with
  | nil => simp [levelsAll]
  | cons n ns ih => rw [levelsAll, Nat.max_le, ih, List.forall_mem_cons]

theorem heightAll_concat (ns : List Node) (n : Node) :
    heightAll (ns ++ [n]) = max (heightAll ns) n.height := by
  induction ns with
  | nil => simp [heightAll]
  | cons m ns ih => rw [List.cons_append, heightAll, heightAll, ih, Nat.max_assoc]

theorem levelsAll_concat (ns : List Node) (n : Node) :
    levelsAll (ns ++ [n]) = max (levelsAll ns) n.levels := by
  induction ns with
  | nil => simp [levelsAll]
  | cons m ns ih => rw [List.cons_append, levelsAll, levelsAll, ih, Nat.max_assoc]

structure Flat (n : Node) : Prop where
  props : depthFields n.props ≤ 0
  children : levelsAll n.children = 2 * heightAll n.children

theorem Flat.levels_eq {n : Node} (h : n.Flat) : n.levels = 2 * n.height := by
  obtain ⟨id, kind, props, children⟩ := n
  obtain ⟨hp, hc⟩ := h
  simp only at hp hc
  rw [levels, height]
  omega

theorem depth_setting (s : Setting) : s.toJson.depth = 0 := by
  match s with
  | .text _ => rfl
  | .flag _ => rfl
  | .integer _ => rfl
  | .double none => rfl
  | .double (some _) => rfl

theorem Built.flat {n : Node} (h : n.Built IsSetting) : n.Flat := by
  induction h with
  | ofKind kind => exact ⟨Nat.le_refl 0, rfl⟩
  | withProp _ name hv ih =>
    obtain ⟨s, rfl⟩ := hv
    exact ⟨depthFields_insert ih.props (Nat.le_of_eq (depth_setting s)) name, ih.children⟩
  | @withChild n child _ _ ih ihc =>
    refine ⟨ih.props, ?_⟩
    change levelsAll (n.children ++ [child]) = 2 * heightAll (n.children ++ [child])
    rw [levelsAll_concat, heightAll_concat, ih.children, ihc.levels_eq]
    omega

end Node

namespace Bundle

theorem wellFormed_of_uniqueAll {roots : List Node} (hall : Node.UniqueAll roots) :
    (ofRoots roots).WellFormed := by
  have hui : (ofRoots roots).ui.toJson.Unique :=
    ⟨by simp [ofRoots, Fields.Distinct], Node.unique_toJsonAll hall,
      ⟨Fields.distinct_nil, trivial⟩, trivial⟩
  have hempty {α : Type} {shape : SectionShape α} (hs : shape.Lawful) :
      ((Section.empty shape).toJson shape).Unique :=
    (unique_lenientSection hs (Nat.le_refl 2) (v := none) (by simp)).1
  exact ⟨⟨hall, Json.noConfusion, hui⟩, by simp [ofRoots, Fields.Distinct], hui,
    hempty lawful_state, hempty lawful_action, hempty lawful_design, trivial⟩

theorem depth_ofRoots (roots : List Node) :
    (ofRoots roots).toJson.depth = 3 + Node.levelsAll roots := by
  have hstate : ((Section.empty .state).toJson .state).depth = 2 := rfl
  have haction : ((Section.empty .action).toJson .action).depth = 2 := rfl
  have hdesign : ((Section.empty .design).toJson .design).depth = 2 := rfl
  have hlayout : Json.emptyObject.depth = 1 := rfl
  simp only [ofRoots, toJson, UiSection.toJson, List.append_nil, depth, depthFields, hstate,
    haction, hdesign, hlayout, Node.depthItems_eq_levelsAll]
  omega

theorem parse_pretty_ofRoots {roots : List Node} (h : ∀ n ∈ roots, n.Built Json.Unique)
    (hr : (ofRoots roots).toJson.ReadsBack) :
    parse (ofRoots roots).pretty =
      if ∀ n ∈ roots, n.levels ≤ 124 then .ok ⟨ofRoots roots, []⟩
      else .error (.json .tooDeep) := by
  have hw := wellFormed_of_uniqueAll (Node.uniqueAll_iff.mpr fun n hn => (h n hn).unique)
  have hd := depth_ofRoots roots
  have hlimit : depthLimit = 127 := rfl
  split
  · next hlow =>
    have hall := Node.levelsAll_le_iff.mpr hlow
    exact parse_pretty_eq_turned hw hr (by omega)
  · next hhigh =>
    have hall := mt Node.levelsAll_le_iff.mp hhigh
    rw [parse, pretty, parse_pretty_of_deep hr hw.value (by omega)]

theorem load_store {t : FileTree} (ht : t.Linkless) {path : Path} {b : Bundle}
    (h : (store path b t).result = .ok ()) : load (store path b t).state path = parse b.pretty :=
  load_of_readText (ht.readText_writeWithParents h)

/-- A bundle of trees that were built step by step is read back from its text if no tree has more
than 124 levels, and only then, though it can be written: whether a bundle can be stored does not
depend on what is in it, and what is loaded from its file is what is read from its text. For trees
whose properties were set to texts, flags and numbers, these are trees of a height up to 62. -/
theorem stored_up_to_levels {roots : List Node} (h : ∀ n ∈ roots, n.Built Json.Unique)
    (hr : (ofRoots roots).toJson.ReadsBack) :
    (parse (ofRoots roots).pretty =
      if ∀ n ∈ roots, n.levels ≤ 124 then .ok ⟨ofRoots roots, []⟩
      else .error (.json .tooDeep)) ∧
    (∀ n ∈ roots, n.Built IsSetting → (n.levels ≤ 124 ↔ n.height ≤ 62)) ∧
    ∀ (path : Path) (t : FileTree),
      (∀ b, (store path (ofRoots roots) t).result = (store path b t).result) ∧
      (t.Linkless → (store path (ofRoots roots) t).result = .ok () →
        load (store path (ofRoots roots) t).state path = parse (ofRoots roots).pretty) := by
  refine ⟨parse_pretty_ofRoots h hr, ?_, ?_⟩
  · intro n _ hn
    rw [hn.flat.levels_eq]
    omega
  · intro path t
    exact ⟨fun b => FileTree.writeWithParents_congr t path _ _, fun ht hs => load_store ht hs⟩

def spacing : Double := ⟨false, 3 * 2 ^ 51, 1022, by decide⟩

def tower : Nat → Node
  | 0 => ((Node.ofKind "text").withSetting "content" (.text "\"Hi\"")).withSetting "gap"
    (.double (some spacing))
  | k + 1 => (Node.ofKind "column").withChild (tower k)

theorem built_tower (k : Nat) : (tower k).Built Json.Unique := by
  induction k with
  | zero => exact .withProp (.withProp (.ofKind "text") "content" trivial) "gap" trivial
  | succ k ih => exact .withChild (.ofKind "column") ih

theorem levels_tower (k : Nat) : (tower k).levels = 2 * k + 2 := by
  induction k with
  | zero => rfl
  | succ k ih =>
    change 2 + max 0 (max (tower k).levels 0) = 2 * (k + 1) + 2
    omega

theorem height_tower (k : Nat) : (tower k).height = k + 1 := by
  induction k with
  | zero => rfl
  | succ k ih =>
    change 1 + max (tower k).height 0 = k + 1 + 1
    omega

def nested : Nat → Json
  | 0 => .list []
  | k + 1 => .list [nested k]

theorem unique_nested (k : Nat) : (nested k).Unique := by
  induction k with
  | zero => trivial
  | succ k ih => exact ⟨ih, trivial⟩

theorem depth_nested (k : Nat) : (nested k).depth = k + 1 := by
  induction k with
  | zero => rfl
  | succ k ih =>
    change 1 + max (nested k).depth 0 = k + 1 + 1
    omega

def nestedRoot (k : Nat) : Node := (Node.ofKind "text").withProp "rows" (nested k)

theorem built_nestedRoot (k : Nat) : (nestedRoot k).Built Json.Unique :=
  .withProp (.ofKind "text") "rows" (unique_nested k)

theorem levels_nestedRoot (k : Nat) : (nestedRoot k).levels = k + 3 := by
  change 2 + max (max (nested k).depth 0) 0 = k + 3
  rw [depth_nested]
  omega

theorem store_empty (b : Bundle) : (store ⟨"semantic.json"⟩ b .empty).result = .ok () := by
  have hw : (FileTree.writeWithParents ⟨"semantic.json"⟩ (.text "") .empty).result.isOk = true := by
    decide +kernel
  obtain ⟨_, hok⟩ := exists_of_isOk hw
  exact (FileTree.writeWithParents_congr .empty _ _ _).trans hok

theorem stored_up_to_levels_tower :
    (tower 61).height = 62 ∧ (nestedRoot 121).height = 1 ∧
      parse (ofRoots [tower 61, nestedRoot 121]).pretty =
        .ok ⟨ofRoots [tower 61, nestedRoot 121], []⟩ ∧
      (store ⟨"semantic.json"⟩ (ofRoots [tower 0, tower 62]) .empty).result = .ok () ∧
      load (store ⟨"semantic.json"⟩ (ofRoots [tower 0, tower 62]) .empty).state
        ⟨"semantic.json"⟩ = .error (.json .tooDeep) := by
  have hhigh := @stored_up_to_levels [tower 0, tower 62] (by simp [built_tower])
    (by decide +kernel)
  have hlow := @stored_up_to_levels [tower 61, nestedRoot 121]
    (by simp [built_tower, built_nestedRoot]) (by decide +kernel)
  have hempty : FileTree.empty.Linkless := (FileTree.plain_of_isPlain (by decide)).noLink
  refine ⟨height_tower 61, rfl, ?_, store_empty _, ?_⟩
  · rw [hlow.1, if_pos (by simp [levels_tower, levels_nestedRoot])]
  · rw [(hhigh.2.2 _ _).2 hempty (store_empty _), hhigh.1, if_neg (by simp [levels_tower])]

/-- A single node can be beyond the limit: a property of it is read back from its own text, but not
from that of the bundle. -/
theorem height_not_enough :
    (nestedRoot 122).Built Json.Unique ∧ (nestedRoot 122).height = 1 ∧
      Json.parse (nested 122).pretty = .ok (nested 122) ∧
      (store ⟨"semantic.json"⟩ (ofRoots [nestedRoot 122]) .empty).result = .ok () ∧
      parse (ofRoots [nestedRoot 122]).pretty = .error (.json .tooDeep) := by
  refine ⟨built_nestedRoot 122, rfl, ?_, store_empty _, ?_⟩
  · exact parse_pretty (by decide +kernel) (unique_nested 122) (by rw [depth_nested]; decide)
  · rw [parse_pretty_ofRoots (by simp [built_nestedRoot]) (by decide +kernel),
      if_neg (by simp [levels_nestedRoot])]

end Bundle

end NativeUi
