import NativeUi.Proofs.Node.Preorder
import NativeUi.Proofs.Source.Faithful
import NativeUi.Proofs.Source.Printing

/-!
# Placeholders of unknown kinds

Lowering goes from a stack on to its children, but it does not look below a text, a button or an
unknown node. An unknown kind shows in the source if lowering comes to a node of this kind, and only
then would the source change with the name of the kind. The kinds that a tree reports are those of
all its nodes. Every kind that shows is among them, and they all show just if none of them stands
only where lowering does not look.
-/
namespace NativeUi

namespace Kind

def isStack : Kind → Bool
  | .ui | .column | .row => true
  | .text | .button | .other _ => false

def rename (f : String → String) : Kind → Kind
  | .other name => .other (f name)
  | kind => kind

end Kind

namespace Node

mutual

def rename (f : String → String) : Node → Node
  | ⟨id, kind, props, children⟩ => ⟨id, kind.rename f, props, renameAll f children⟩

def renameAll (f : String → String) : List Node → List Node
  | [] => []
  | n :: ns => rename f n :: renameAll f ns

end

inductive Reaches : Node → Node → Prop
  | self (n : Node) : Reaches n n
  | child {n c m : Node} (hs : n.kind.isStack = true) (hc : c ∈ n.children) (h : Reaches c m) :
      Reaches n m

theorem Reaches.holds {n m : Node} (h : n.Reaches m) : n.Holds m := by
  induction h with
  | self n => exact .self n
  | child _ hc _ ih => exact .child hc ih

theorem forall_reaches_iff {P : Node → Prop} {n : Node} :
    (∀ m, n.Reaches m → P m) ↔
      P n ∧ (n.kind.isStack = true → ∀ c ∈ n.children, ∀ m, c.Reaches m → P m) := by
  constructor
  · intro h
    exact ⟨h n (.self n), fun hs c hc m hm => h m (.child hs hc hm)⟩
  · rintro ⟨hn, hchildren⟩ m hm
    cases hm with
    | self => exact hn
    | child hs hc hm => exact hchildren hs _ hc m hm

end Node

namespace Source

open NativeUi.Node

/-! ### Names in the source -/

mutual

theorem form_rename_eq_iff (d : Dialect) (f : String → String) : ∀ n : Node,
    form d (n.rename f) = form d n ↔ ∀ m, n.Reaches m → m.kind.rename f = m.kind
  | ⟨_, .text, props, children⟩ => by
    rw [forall_reaches_iff]
    simp [rename, form, Kind.rename, Kind.isStack, propText?, prop?]
  | ⟨_, .button, props, children⟩ => by
    rw [forall_reaches_iff]
    simp [rename, form, buttonForm, Kind.rename, Kind.isStack, propText?, prop?]
  | ⟨_, .column, props, children⟩ => by
    rw [forall_reaches_iff, rename, Kind.rename, form, form, Form.vertical.injEq,
      formAll_renameAll_eq_iff d f children]
    all_goals simp [Kind.isStack, Kind.rename]
  | ⟨_, .row, props, children⟩ => by
    rw [forall_reaches_iff, rename, Kind.rename, form, form, Form.horizontal.injEq,
      formAll_renameAll_eq_iff d f children]
    all_goals simp [Kind.isStack, Kind.rename]
  | ⟨_, .ui, props, [child]⟩ => by
    rw [forall_reaches_iff, rename, renameAll, renameAll, Kind.rename, form, form,
      form_rename_eq_iff d f child]
    all_goals simp [Kind.isStack, Kind.rename]
  | ⟨_, .ui, props, []⟩ => by
    rw [forall_reaches_iff]
    simp [rename, renameAll, Kind.rename]
  | ⟨_, .ui, props, first :: second :: rest⟩ => by
    -- The equation of the form needs two children in view, also after their names are changed.
    have hall := formAll_renameAll_eq_iff d f (first :: second :: rest)
    rw [renameAll, renameAll] at hall
    rw [forall_reaches_iff, rename, renameAll, renameAll, Kind.rename, form, form,
      Form.vertical.injEq, hall]
    all_goals simp [Kind.isStack, Kind.rename]
  | ⟨_, .other name, props, children⟩ => by
    rw [forall_reaches_iff]
    simp [rename, form, Kind.rename, Kind.isStack, String.append_right_inj]

theorem formAll_renameAll_eq_iff (d : Dialect) (f : String → String) : ∀ ns : List Node,
    formAll d (renameAll f ns) = formAll d ns ↔
      ∀ n ∈ ns, ∀ m, n.Reaches m → m.kind.rename f = m.kind
  | [] => by simp [renameAll]
  | n :: ns => by
    rw [renameAll, formAll, formAll, List.cons.injEq, form_rename_eq_iff d f n,
      formAll_renameAll_eq_iff d f ns, List.forall_mem_cons]

end

/-- The source of a tree has a placeholder for a kind: it would be another one if the unknown nodes
of this kind were called by some other name. -/
def HasPlaceholder (d : Dialect) (n : Node) (k : String) : Prop :=
  ∃ l, lower d (n.rename fun x => if x = k then l else x) ≠ lower d n

theorem hasPlaceholder_iff_reaches {d : Dialect} (hd : d ∈ Dialect.all) {n : Node} {k : String} :
    HasPlaceholder d n k ↔ ∃ m, n.Reaches m ∧ m.kind = .other k := by
  constructor
  · rintro ⟨l, hl⟩
    by_contra hnone
    refine hl (lower_eq_of_form_eq hd ((form_rename_eq_iff d _ n).mpr fun m hm => ?_))
    cases hk : m.kind with
    | other name =>
      have hne : name ≠ k := fun he => hnone ⟨m, hm, he ▸ hk⟩
      rw [Kind.rename, if_neg hne]
    | _ => rfl
  · rintro ⟨m, hm, hk⟩
    -- Any other name will do, and a longer one is another one.
    have hlonger : k ++ "?" ≠ k := by
      intro he
      have hlen := congrArg String.length he
      rw [String.length_append] at hlen
      exact absurd hlen (by simp)
    refine ⟨k ++ "?", fun hl => hlonger ?_⟩
    have hsame := (form_rename_eq_iff d _ n).mp (form_eq_of_lower_eq hd hl) m hm
    rw [hk, Kind.rename, if_pos rfl] at hsame
    exact Kind.other.inj hsame

/-! ### Lines of the placeholders -/

namespace Printer

theorem emit_infix_emitAll (p : Printer) (k : Nat) {n : Node} {ns : List Node} (h : n ∈ ns) :
    p.emit k n <:+: p.emitAll k ns := by
  obtain ⟨front, back, rfl⟩ := List.append_of_mem h
  rw [emitAll_eq_flatMap, List.flatMap_append, List.flatMap_cons]
  exact ⟨front.flatMap (p.emit k), back.flatMap (p.emit k), by rw [List.append_assoc]⟩

theorem exists_emit_infix (p : Printer) (i : Nat) {n c : Node} (hs : n.kind.isStack = true)
    (hc : c ∈ n.children) : ∃ j, p.emit j c <:+: p.emit i n := by
  obtain ⟨id, kind, props, children⟩ := n
  have hinner (opener : String) :
      p.emit (i + 1) c <:+: enclose i opener (p.emitAll (i + 1) children) :=
    (p.emit_infix_emitAll (i + 1) hc).trans (emitAll_infix_enclose i opener _)
  cases kind with
  | text => cases hs
  | button => cases hs
  | other name => cases hs
  | column =>
    rw [emit]
    exact ⟨i + 1, hinner p.vertical⟩
  | row =>
    rw [emit]
    exact ⟨i + 1, hinner p.horizontal⟩
  | ui =>
    rcases children with _ | ⟨first, _ | ⟨second, rest⟩⟩
    · cases hc
    · obtain rfl := List.mem_singleton.mp hc
      rw [emit]
      exact ⟨i, List.infix_refl _⟩
    · rw [emit]
      · exact ⟨i + 1, hinner p.vertical⟩
      · simp

theorem exists_emit_infix_of_reaches (p : Printer) {n m : Node} (h : n.Reaches m) :
    ∀ i, ∃ j, p.emit j m <:+: p.emit i n := by
  induction h with
  | self n => exact fun i => ⟨i, List.infix_refl _⟩
  | child hs hc _ ih =>
    intro i
    obtain ⟨j, hj⟩ := p.exists_emit_infix i hs hc
    obtain ⟨j', hj'⟩ := ih j
    exact ⟨j', hj'.trans hj⟩

end Printer

theorem exists_lines_infix {d : Dialect} (hd : d ∈ Dialect.all) {n m : Node} (h : n.Reaches m) :
    ∃ j, (Text.lines (lower d m)).map (inset j) <:+: Text.lines (lower d n) := by
  obtain ⟨p, -, rfl, sp, hp, ht⟩ := Printer.exists_prints hd
  obtain ⟨j, hj⟩ := p.exists_emit_infix_of_reaches h 0
  have hzero : (Text.lines (lower p.toDialect n)).map (inset 0) =
      Text.lines (lower p.toDialect n) :=
    (List.map_congr_left fun _ _ => String.empty_append).trans (List.map_id' _)
  rw [Printer.emit_eq_map_inset hp ht, Printer.emit_eq_map_inset hp ht, hzero] at hj
  exact ⟨j, hj⟩

/-- An unknown kind has a placeholder in the source just if lowering comes to a node of this kind;
then it is reported, and the lines of its placeholder stand in the source. The reported kinds are
those that have placeholders just if each unknown kind of the tree is also that of a node to which
lowering comes. -/
theorem reported_iff_reached {d : Dialect} (hd : d ∈ Dialect.all) (n : Node) :
    (∀ k, HasPlaceholder d n k ↔ ∃ m, n.Reaches m ∧ m.kind = .other k) ∧
      (∀ k, HasPlaceholder d n k → k ∈ n.unsupportedKinds ∧
        ∃ j, (Text.lines (lowerUnknown d k)).map (inset j) <:+: Text.lines (lower d n)) ∧
      ((∀ k, k ∈ n.unsupportedKinds ↔ HasPlaceholder d n k) ↔
        ∀ m, n.Holds m → m.kind.isSupported = false → ∃ m', n.Reaches m' ∧ m'.kind = m.kind) := by
  have hreported (k : String) (h : HasPlaceholder d n k) : k ∈ n.unsupportedKinds := by
    obtain ⟨m, hm, hk⟩ := (hasPlaceholder_iff_reaches hd).mp h
    exact mem_unsupportedKinds_iff.mpr ⟨m, hm.holds, hk⟩
  refine ⟨fun k => hasPlaceholder_iff_reaches hd, fun k h => ⟨hreported k h, ?_⟩, ?_, ?_⟩
  · obtain ⟨m, hm, hk⟩ := (hasPlaceholder_iff_reaches hd).mp h
    have hlower : lower d m = lowerUnknown d k := by
      obtain ⟨id, kind, props, children⟩ := m
      obtain rfl : kind = .other k := hk
      rw [lower]
    exact hlower ▸ exists_lines_infix hd hm
  · intro h m hm hs
    cases hk : m.kind with
    | other k =>
      exact (hasPlaceholder_iff_reaches hd).mp
        ((h k).mp (mem_unsupportedKinds_iff.mpr ⟨m, hm, hk⟩))
    | _ =>
      rw [hk] at hs
      cases hs
  · intro h k
    refine ⟨fun hk => ?_, hreported k⟩
    obtain ⟨m, hm, hk⟩ := mem_unsupportedKinds_iff.mp hk
    obtain ⟨m', hm', hk'⟩ := h m hm (by rw [hk]; rfl)
    exact (hasPlaceholder_iff_reaches hd).mpr ⟨m', hm', hk'.trans hk⟩

def captionTree (beside : List Node) : Node :=
  ⟨none, .row, [], ⟨none, .text, [], [.ofKind "carousel"]⟩ :: beside⟩

theorem holds_captionTree {beside : List Node} {m : Node} (h : (captionTree beside).Holds m)
    (hb : ∀ n ∈ beside, n = .ofKind "carousel") (hs : m.kind.isSupported = false) :
    m.kind = .other "carousel" := by
  have hleaf {x : Node} (hx : (Node.ofKind "carousel").Holds x) : x.kind = .other "carousel" := by
    cases hx with
    | self => rfl
    | child hc _ => cases hc
  cases h with
  | self => cases hs
  | child hc h =>
    rcases List.mem_cons.mp hc with rfl | hc
    · cases h with
      | self => cases hs
      | child hc h =>
        obtain rfl := List.mem_singleton.mp hc
        exact hleaf h
    · obtain rfl := hb _ hc
      exact hleaf h

theorem reported_iff_reached_captionTree :
    Dialect.compose ∈ Dialect.all ∧
      (captionTree [.ofKind "carousel"]).unsupportedKinds = ["carousel"] ∧
      (∀ m, (captionTree [.ofKind "carousel"]).Holds m → m.kind.isSupported = false →
        ∃ m', (captionTree [.ofKind "carousel"]).Reaches m' ∧ m'.kind = m.kind) ∧
      HasPlaceholder .compose (captionTree [.ofKind "carousel"]) "carousel" := by
  have hd : Dialect.compose ∈ Dialect.all := by simp [Dialect.all]
  have hkinds : (captionTree [.ofKind "carousel"]).unsupportedKinds = ["carousel"] := by
    decide +kernel
  have hreached (m : Node) (hm : (captionTree [.ofKind "carousel"]).Holds m)
      (hs : m.kind.isSupported = false) :
      ∃ m', (captionTree [.ofKind "carousel"]).Reaches m' ∧ m'.kind = m.kind := by
    have hroot : (captionTree [.ofKind "carousel"]).Reaches (.ofKind "carousel") :=
      .child rfl (List.mem_cons_of_mem _ List.mem_cons_self) (.self _)
    exact ⟨_, hroot, (holds_captionTree hm (by simp) hs).symm⟩
  refine ⟨hd, hkinds, hreached, ?_⟩
  apply ((reported_iff_reached hd _).2.2.mpr hreached "carousel").mp
  rw [hkinds]
  exact List.mem_cons_self

/-- A kind that stands only below a text is reported, but it has no placeholder. -/
theorem reported_without_placeholder :
    (captionTree []).unsupportedKinds = ["carousel"] ∧
      lower .swiftui (captionTree []) = "HStack \x7b\n    Text(\"\")\n\x7d" ∧
      ¬∀ k, k ∈ (captionTree []).unsupportedKinds ↔ HasPlaceholder .swiftui (captionTree []) k := by
  have hkinds : (captionTree []).unsupportedKinds = ["carousel"] := by decide +kernel
  refine ⟨hkinds, by decide +kernel, fun h => ?_⟩
  have hd : Dialect.swiftui ∈ Dialect.all := List.mem_cons_self
  obtain ⟨m, hm, hk⟩ := (hasPlaceholder_iff_reaches hd).mp
    ((h "carousel").mp (by rw [hkinds]; exact List.mem_cons_self))
  cases hm with
  | self => cases hk
  | child _ hc hm =>
    obtain rfl := List.mem_singleton.mp hc
    cases hm with
    | self => cases hk
    | child hs => cases hs

end Source

end NativeUi
