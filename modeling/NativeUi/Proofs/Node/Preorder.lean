import Mathlib.Data.List.Basic
import NativeUi.Node.Basic

/-!
# Unknown kinds in the order of the nodes

A walk through a tree comes to each node before its children. The unknown kinds are collected on
such a walk, and at every moment those collected are the unknown kinds of the nodes met so far, each
once and in the order in which they were first met. So in the end they are those of the whole tree.
-/
namespace NativeUi

namespace Node

/-! ### Nodes of a tree -/

inductive Holds : Node → Node → Prop
  | self (n : Node) : Holds n n
  | child {n c m : Node} (hc : c ∈ n.children) (h : Holds c m) : Holds n m

mutual

def preorder : Node → List Node
  | ⟨id, kind, props, children⟩ => ⟨id, kind, props, children⟩ :: preorderAll children

def preorderAll : List Node → List Node
  | [] => []
  | n :: ns => preorder n ++ preorderAll ns

end

def kinds (n : Node) : List Kind := n.preorder.map kind

theorem preorderAll_eq_flatMap (ns : List Node) : preorderAll ns = ns.flatMap preorder := by
  induction ns with
  | nil => rfl
  | cons n ns ih => rw [preorderAll, ih, List.flatMap_cons]

theorem preorder_eq (n : Node) : n.preorder = n :: n.children.flatMap preorder := by
  cases n
  rw [preorder, preorderAll_eq_flatMap]

theorem mem_preorder_of_holds {n m : Node} (h : n.Holds m) : m ∈ n.preorder := by
  induction h with
  | self n =>
    rw [preorder_eq]
    exact List.mem_cons_self
  | @child n c m hc _ ih =>
    rw [preorder_eq]
    exact List.mem_cons_of_mem n (List.mem_flatMap_of_mem hc ih)

mutual

theorem holds_of_mem_preorder {m : Node} : ∀ {n : Node}, m ∈ n.preorder → n.Holds m
  | ⟨id, kind, props, children⟩, h => by
    rw [preorder, List.mem_cons] at h
    rcases h with rfl | h
    · exact .self _
    · obtain ⟨c, hc, hm⟩ := holds_of_mem_preorderAll h
      exact .child hc hm

theorem holds_of_mem_preorderAll {m : Node} : ∀ {ns : List Node}, m ∈ preorderAll ns →
    ∃ c ∈ ns, c.Holds m
  | [], h => by simp [preorderAll] at h
  | n :: ns, h => by
    rw [preorderAll, List.mem_append] at h
    rcases h with h | h
    · exact ⟨n, List.mem_cons_self, holds_of_mem_preorder h⟩
    · obtain ⟨c, hc, hm⟩ := holds_of_mem_preorderAll h
      exact ⟨c, List.mem_cons_of_mem n hc, hm⟩

end

theorem mem_kinds_iff {n : Node} {k : Kind} : k ∈ n.kinds ↔ ∃ m, n.Holds m ∧ m.kind = k := by
  rw [kinds, List.mem_map]
  constructor
  · rintro ⟨m, hm, hk⟩
    exact ⟨m, holds_of_mem_preorder hm, hk⟩
  · rintro ⟨m, hm, hk⟩
    exact ⟨m, mem_preorder_of_holds hm, hk⟩

mutual

theorem isWellFormed_iff : ∀ n : Node,
    n.isWellFormed = true ↔ ∀ m ∈ n.preorder, m.kind.isSupported = true
  | ⟨id, kind, props, children⟩ => by
    rw [isWellFormed, Bool.and_eq_true, preorder, List.forall_mem_cons, allWellFormed_iff]

theorem allWellFormed_iff : ∀ ns : List Node,
    allWellFormed ns = true ↔ ∀ m ∈ preorderAll ns, m.kind.isSupported = true
  | [] => by simp [allWellFormed, preorderAll]
  | n :: ns => by
    rw [allWellFormed, Bool.and_eq_true, preorderAll, List.forall_mem_append, isWellFormed_iff,
      allWellFormed_iff]

end

/-! ### Collecting -/

/-- What has been collected from some kinds in their order: the unknown ones among them, in the
order of their first places. -/
structure Listing (met : List String) (seen : List Kind) : Prop where
  mem_iff : ∀ k, k ∈ met ↔ Kind.other k ∈ seen
  order : met.Pairwise fun k l => seen.idxOf (Kind.other k) < seen.idxOf (Kind.other l)

namespace Listing

variable {met : List String} {seen : List Kind}

theorem nodup (h : Listing met seen) : met.Nodup := by
  refine h.order.imp fun {k l} hlt => ?_
  rintro rfl
  exact Nat.lt_irrefl _ hlt

theorem idxOf_append (h : Listing met seen) (more : List Kind) {k : String} (hk : k ∈ met) :
    (seen ++ more).idxOf (Kind.other k) = seen.idxOf (Kind.other k) :=
  List.idxOf_append_of_mem ((h.mem_iff k).mp hk)

theorem order_append (h : Listing met seen) (more : List Kind) :
    met.Pairwise fun k l =>
      (seen ++ more).idxOf (Kind.other k) < (seen ++ more).idxOf (Kind.other l) := by
  refine h.order.imp_of_mem fun hk hl hlt => ?_
  rwa [h.idxOf_append more hk, h.idxOf_append more hl]

theorem old (h : Listing met seen) {kind : Kind} (hold : ∀ k, kind = .other k → k ∈ met) :
    Listing met (seen ++ [kind]) where
  mem_iff k := by
    rw [List.mem_append, List.mem_singleton, ← h.mem_iff]
    constructor
    · exact .inl
    · rintro (hk | hk)
      · exact hk
      · exact hold k hk.symm
  order := h.order_append [kind]

theorem new (h : Listing met seen) {name : String} (hnew : name ∉ met) :
    Listing (met ++ [name]) (seen ++ [.other name]) where
  mem_iff k := by
    rw [List.mem_append, List.mem_append, List.mem_singleton, List.mem_singleton, h.mem_iff,
      Kind.other.injEq]
  order := by
    refine List.pairwise_append.mpr ⟨h.order_append _, List.pairwise_singleton _ _, ?_⟩
    intro k hk l hl
    obtain rfl := List.mem_singleton.mp hl
    -- The new kind comes last in the kinds seen, behind the first places of all the others.
    have hunseen : Kind.other l ∉ seen := fun hm => hnew ((h.mem_iff l).mpr hm)
    calc (seen ++ [Kind.other l]).idxOf (Kind.other k)
        = seen.idxOf (Kind.other k) := h.idxOf_append _ hk
      _ < seen.length := List.idxOf_lt_length_of_mem ((h.mem_iff k).mp hk)
      _ ≤ (seen ++ [Kind.other l]).idxOf (Kind.other l) := by
        rw [List.idxOf_append_of_notMem hunseen]
        exact Nat.le_add_right _ _

theorem note (h : Listing met seen) (kind : Kind) :
    Listing (if kind.isSupported || met.contains kind.name then met else met ++ [kind.name])
      (seen ++ [kind]) := by
  cases kind with
  | other name =>
    by_cases hm : name ∈ met
    · have hin : met.contains name = true := by simpa using hm
      rw [Kind.name, hin, Bool.or_true, if_pos rfl]
      exact h.old fun k hk => Kind.other.inj hk ▸ hm
    · have hout : met.contains name = false := by simpa using hm
      rw [Kind.name, hout, Kind.isSupported, if_neg (by decide)]
      exact h.new hm
  | _ => exact h.old (by simp)

end Listing

mutual

theorem Listing.collect {met : List String} {seen : List Kind} (h : Listing met seen) :
    ∀ n : Node, Listing (collectUnsupported met n) (seen ++ n.kinds)
  | ⟨id, kind, props, children⟩ => by
    have hall := (h.note kind).collectAll children
    rw [List.append_assoc] at hall
    rw [collectUnsupported, kinds, preorder]
    exact hall

theorem Listing.collectAll {met : List String} {seen : List Kind} (h : Listing met seen) :
    ∀ ns : List Node,
      Listing (collectUnsupportedAll met ns) (seen ++ (preorderAll ns).map Node.kind)
  | [] => by
    rw [collectUnsupportedAll, preorderAll, List.map_nil, List.append_nil]
    exact h
  | n :: ns => by
    have hall := (h.collect n).collectAll ns
    rw [List.append_assoc, kinds, ← List.map_append] at hall
    rw [collectUnsupportedAll, preorderAll]
    exact hall

end

theorem listing_unsupportedKinds (n : Node) : Listing n.unsupportedKinds n.kinds := by
  have hnone : Listing [] [] := ⟨by simp, List.Pairwise.nil⟩
  exact hnone.collect n

theorem mem_unsupportedKinds_iff {n : Node} {k : String} :
    k ∈ n.unsupportedKinds ↔ ∃ m, n.Holds m ∧ m.kind = .other k := by
  rw [(listing_unsupportedKinds n).mem_iff, mem_kinds_iff]

theorem unsupportedKinds_eq_nil_iff (n : Node) :
    n.unsupportedKinds = [] ↔ n.isWellFormed = true := by
  rw [isWellFormed_iff, List.eq_nil_iff_forall_not_mem]
  constructor
  · intro h m hm
    cases hk : m.kind with
    | other k =>
      exact absurd (mem_unsupportedKinds_iff.mpr ⟨m, holds_of_mem_preorder hm, hk⟩) (h k)
    | _ => rfl
  · intro h k hk
    obtain ⟨m, hm, hk⟩ := mem_unsupportedKinds_iff.mp hk
    have hs := h m (mem_preorder_of_holds hm)
    rw [hk] at hs
    cases hs

/-- The unknown kinds of a tree are those of all its nodes, each once, in the order in which a walk
first comes to them. There are none in a well-formed tree, and only there. -/
theorem unsupportedKinds_listing (n : Node) :
    (∀ k, k ∈ n.unsupportedKinds ↔ ∃ m, n.Holds m ∧ m.kind = .other k) ∧
      n.unsupportedKinds.Nodup ∧
      n.unsupportedKinds.Pairwise (fun k l =>
        (n.preorder.map kind).idxOf (.other k) < (n.preorder.map kind).idxOf (.other l)) ∧
      (n.unsupportedKinds = [] ↔ n.isWellFormed = true) :=
  ⟨fun _ => mem_unsupportedKinds_iff, (listing_unsupportedKinds n).nodup,
    (listing_unsupportedKinds n).order, unsupportedKinds_eq_nil_iff n⟩

end Node

end NativeUi
