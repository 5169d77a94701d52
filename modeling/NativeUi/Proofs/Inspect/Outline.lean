import NativeUi.Proofs.Bundle.Storage
import NativeUi.Proofs.Inspect.Printing

/-!
# Trees read off their outline

An outline has one line for each node, set in by two spaces for each node above it. Where all kinds
are known, the lines can be told apart and each of them gives its row back; and the depths of the
rows in their order say which node stands below which. So two bundles have the same outline if their
trees are the same up to identifiers, and only then.
-/
namespace NativeUi

open NativeUi.Workspace

namespace Node

mutual

def anonymous : Node → Node
  | ⟨_, kind, props, children⟩ => ⟨none, kind, props, anonymousAll children⟩

def anonymousAll : List Node → List Node
  | [] => []
  | n :: ns => anonymous n :: anonymousAll ns

end

end Node

namespace Inspect

open NativeUi.Node

/-! ### Rows and trees -/

mutual

theorem outline_anonymous (depth : Nat) : ∀ n : Node, outline depth n.anonymous = outline depth n
  | ⟨_, kind, props, children⟩ => by
    rw [anonymous, outline, outline, outlineAll_anonymousAll]

theorem outlineAll_anonymousAll (depth : Nat) :
    ∀ ns : List Node, outlineAll depth (anonymousAll ns) = outlineAll depth ns
  | [] => rfl
  | n :: ns => by
    rw [anonymousAll, outlineAll, outlineAll, outline_anonymous, outlineAll_anonymousAll]

end

/-- What follows the rows of some trees stands further out than they do. -/
def Outer (depth : Nat) (rows : List Row) : Prop := ∀ r ∈ rows.head?, r.depth < depth

theorem head?_outline (depth : Nat) (n : Node) (rest : List Row) :
    ∃ r, (outline depth n ++ rest).head? = some r ∧ r.depth = depth := by
  cases n with
  | mk id kind props children =>
    rw [outline]
    exact ⟨_, rfl, rfl⟩

theorem not_outer_outline (depth : Nat) (n : Node) (rest : List Row) :
    ¬Outer depth (outline depth n ++ rest) := by
  intro h
  obtain ⟨r, hr, hd⟩ := head?_outline depth n rest
  exact absurd (h r hr) (by omega)

theorem Outer.succ {depth : Nat} {rest : List Row} (h : Outer depth rest) (ns : List Node) :
    Outer (depth + 1) (outlineAll depth ns ++ rest) := by
  intro r hr
  cases ns with
  | nil =>
    have hlt := h r hr
    omega
  | cons n ns =>
    rw [outlineAll, List.append_assoc] at hr
    obtain ⟨r', hr', hd⟩ := head?_outline depth n (outlineAll depth ns ++ rest)
    obtain rfl : r' = r := Option.some.inj (hr'.symm.trans hr)
    omega

mutual

/-- A tree ends where a row stands no deeper than its root, so that what follows it does not
matter. -/
theorem outline_append_inj {depth : Nat} : ∀ {n m : Node} {rest more : List Row},
    Outer (depth + 1) rest → Outer (depth + 1) more →
    outline depth n ++ rest = outline depth m ++ more → n.anonymous = m.anonymous ∧ rest = more
  | ⟨_, kind, props, children⟩, ⟨_, kind', props', children'⟩, rest, more, hr, hm, h => by
    rw [outline, outline, List.cons_append, List.cons_append, List.cons.injEq, Row.mk.injEq] at h
    obtain ⟨⟨-, rfl, rfl⟩, h⟩ := h
    obtain ⟨hc, rfl⟩ := outlineAll_append_inj hr hm h
    exact ⟨by rw [anonymous, anonymous, hc], rfl⟩

theorem outlineAll_append_inj {depth : Nat} : ∀ {ns ms : List Node} {rest more : List Row},
    Outer depth rest → Outer depth more →
    outlineAll depth ns ++ rest = outlineAll depth ms ++ more →
      anonymousAll ns = anonymousAll ms ∧ rest = more
  | [], [], rest, more, _, _, h => ⟨rfl, h⟩
  -- where one list has ended, the next row would stand both at this depth and further out
  | [], m :: ms, rest, more, hr, _, h => by
    rw [outlineAll, outlineAll, List.nil_append, List.append_assoc] at h
    exact absurd (h ▸ hr) (not_outer_outline depth m _)
  | n :: ns, [], rest, more, _, hm, h => by
    rw [outlineAll, outlineAll, List.nil_append, List.append_assoc] at h
    exact absurd (h ▸ hm) (not_outer_outline depth n _)
  | n :: ns, m :: ms, rest, more, hr, hm, h => by
    rw [outlineAll, outlineAll, List.append_assoc, List.append_assoc] at h
    obtain ⟨hn, h⟩ := outline_append_inj (hr.succ ns) (hm.succ ms) h
    obtain ⟨hns, rfl⟩ := outlineAll_append_inj hr hm h
    exact ⟨by rw [anonymousAll, anonymousAll, hn, hns], rfl⟩

end

theorem outlineAll_eq_iff (depth : Nat) {ns ms : List Node} :
    outlineAll depth ns = outlineAll depth ms ↔ anonymousAll ns = anonymousAll ms := by
  constructor
  · intro h
    have hnil : Outer depth [] := by simp [Outer]
    have happend : outlineAll depth ns ++ [] = outlineAll depth ms ++ [] := by rw [h]
    exact (outlineAll_append_inj hnil hnil happend).1
  · intro h
    rw [← outlineAll_anonymousAll depth ns, h, outlineAll_anonymousAll]

/-! ### Lines and rows -/

def propsChars (props : Fields Json) : List Char :=
  if props.isEmpty then [] else ' ' :: Json.compactChars (.object props)

def Row.chars (r : Row) : List Char :=
  List.replicate (2 * r.depth) ' ' ++ (r.kind.name.toList ++ propsChars r.props)

theorem Row.line_toList (r : Row) : r.line.toList = r.chars ++ ['\n'] := by
  have hfeed : "\n".toList = ['\n'] := rfl
  rw [line, nodeLine, chars, propsChars]
  cases r.props.isEmpty <;> simp [Text.spaces, Json.compact, hfeed]

theorem rowsText_toList (rows : List Row) :
    (rowsText rows).toList = Text.feedAll (rows.map Row.chars) := by
  rw [rowsText, String.toList_join, List.flatMap_map, Text.feedAll, List.flatMap_map]
  simp only [Row.line_toList]

theorem name_of_isSupported {k : Kind} (h : k.isSupported = true) :
    ' ' ∉ k.name.toList ∧ k.name.toList ≠ [] ∧ Text.IsLine k.name.toList := by
  cases k with
  | other name => cases h
  | _ => exact ⟨by decide, by decide, Text.isLine_of_all (by decide)⟩

theorem ofName_name_of_isSupported {k : Kind} (h : k.isSupported = true) : .ofName k.name = k := by
  cases k with
  | other name => cases h
  | _ => rfl

theorem isLine_propsChars (props : Fields Json) : Text.IsLine (propsChars props) := by
  rw [propsChars]
  split
  · exact Text.isLine_of_all rfl
  · exact (Json.isLine_compactChars _).cons (by decide)

theorem isLine_chars {r : Row} (h : Text.IsLine r.kind.name.toList) : Text.IsLine r.chars := by
  have hspaces : Text.IsLine (List.replicate (2 * r.depth) ' ') := by
    intro c hc
    obtain ⟨-, rfl⟩ := List.mem_replicate.mp hc
    decide
  exact hspaces.append (h.append (isLine_propsChars r.props))

theorem append_propsChars_inj {w w' : List Char} (hw : ' ' ∉ w) (hw' : ' ' ∉ w')
    {props props' : Fields Json} (h : w ++ propsChars props = w' ++ propsChars props') :
    w = w' ∧ props = props' := by
  have hmem {u v more : List Char} (he : u = v ++ ' ' :: more) : ' ' ∈ u := by
    rw [he]
    simp
  unfold propsChars at h
  cases props with
  | nil =>
    cases props' with
    | nil => simpa using h
    | cons f fs => exact absurd (hmem (by simpa using h)) hw
  | cons f fs =>
    cases props' with
    | nil => exact absurd (hmem (by simpa using h.symm)) hw'
    | cons g gs =>
      obtain ⟨hname, hprops⟩ := Text.append_cons_inj hw hw' h
      exact ⟨hname, Json.object.inj (Json.compactChars_inj hprops)⟩

theorem Row.chars_inj {r s : Row} (hr : r.kind.isSupported = true) (hs : s.kind.isSupported = true)
    (h : r.chars = s.chars) : r = s := by
  obtain ⟨hspace, hne, -⟩ := name_of_isSupported hr
  obtain ⟨hspace', hne', -⟩ := name_of_isSupported hs
  have hhead {w more : List Char} (hw : ' ' ∉ w) (hnil : w ≠ []) :
      (w ++ more).head? ≠ some ' ' := by
    rw [List.head?_append_of_ne_nil w hnil]
    exact fun hc => hw (List.mem_of_mem_head? hc)
  obtain ⟨hdepth, h⟩ := Text.replicate_append_inj (hhead hspace hne) (hhead hspace' hne') h
  obtain ⟨hname, hprops⟩ := append_propsChars_inj hspace hspace' h
  have hdepth : r.depth = s.depth := by omega
  have hkind : r.kind = s.kind := by
    rw [← ofName_name_of_isSupported hr, String.toList_inj.mp hname, ofName_name_of_isSupported hs]
  exact Row.ext hdepth hkind hprops

theorem rowsText_inj {rows more : List Row} (hr : ∀ r ∈ rows, r.kind.isSupported = true)
    (hm : ∀ r ∈ more, r.kind.isSupported = true) (h : rowsText rows = rowsText more) :
    rows = more := by
  have hlines {rs : List Row} (hs : ∀ r ∈ rs, r.kind.isSupported = true) :
      Text.splitLines (rowsText rs).toList = rs.map Row.chars := by
    have hall : ∀ line ∈ rs.map Row.chars, Text.IsLine line := by
      intro line hline
      obtain ⟨r, hr, rfl⟩ := List.mem_map.mp hline
      exact isLine_chars (name_of_isSupported (hs r hr)).2.2
    have hsplit := Text.splitLines_feedAll_append hall []
    rwa [List.append_nil, Text.splitLines, List.append_nil, ← rowsText_toList] at hsplit
  have hmap := hlines hr
  rw [h, hlines hm] at hmap
  exact Text.map_inj_of_forall (fun _ _ => Row.chars_inj) hr hm hmap.symm

mutual

theorem isSupported_of_outline {depth : Nat} : ∀ {n : Node}, n.isWellFormed = true →
    ∀ r ∈ outline depth n, r.kind.isSupported = true
  | ⟨_, kind, props, children⟩, h => by
    rw [isWellFormed, Bool.and_eq_true] at h
    rw [outline, List.forall_mem_cons]
    exact ⟨h.1, isSupported_of_outlineAll h.2⟩

theorem isSupported_of_outlineAll {depth : Nat} : ∀ {ns : List Node}, allWellFormed ns = true →
    ∀ r ∈ outlineAll depth ns, r.kind.isSupported = true
  | [], _ => by simp [outlineAll]
  | n :: ns, h => by
    rw [allWellFormed, Bool.and_eq_true] at h
    rw [outlineAll, List.forall_mem_append]
    exact ⟨isSupported_of_outline h.1, isSupported_of_outlineAll h.2⟩

end

theorem rowsText_eq_iff {ns ms : List Node} (hn : allWellFormed ns = true)
    (hm : allWellFormed ms = true) :
    rowsText (outlineAll 0 ns) = rowsText (outlineAll 0 ms) ↔
      anonymousAll ns = anonymousAll ms := by
  rw [← outlineAll_eq_iff 0]
  refine ⟨fun h => ?_, fun h => by rw [h]⟩
  exact rowsText_inj (isSupported_of_outlineAll hn) (isSupported_of_outlineAll hm) h

end Inspect

open NativeUi.Inspect

/-- Two bundles of which all kinds are known are printed as the same outline if their trees are the
same up to identifiers, and only then. -/
theorem inspect_ui_eq_iff {dir dir' : Path} {t t' : FileTree} {b b' : LoadedBundle}
    (hb : Bundle.load t (bundlePath dir) = .ok b) (hb' : Bundle.load t' (bundlePath dir') = .ok b')
    (hk : Node.allWellFormed b.bundle.roots = true)
    (hk' : Node.allWellFormed b'.bundle.roots = true) :
    (inspect dir .ui t).result = .ok () ∧ (inspect dir' .ui t').result = .ok () ∧
      ((inspect dir .ui t).printed = (inspect dir' .ui t').printed ↔
        Node.anonymousAll b.bundle.roots = Node.anonymousAll b'.bundle.roots) := by
  obtain ⟨hresult, hprinted⟩ := inspect_ui_of_load hb
  obtain ⟨hresult', hprinted'⟩ := inspect_ui_of_load hb'
  refine ⟨hresult, hresult', ?_⟩
  rw [hprinted, hprinted', ← rowsText_eq_iff hk hk', ← String.toList_inj, String.toList_append,
    String.toList_append, List.append_cancel_left_eq, String.toList_inj]

theorem load_textTree_ofRoots {roots : List Node} (hu : Node.UniqueAll roots)
    (hr : (Bundle.ofRoots roots).toJson.ReadsBack)
    (hd : (Bundle.ofRoots roots).toJson.depth ≤ Json.depthLimit) :
    Bundle.load (textTree (Bundle.ofRoots roots).pretty) (bundlePath ⟨"."⟩) =
      .ok ⟨Bundle.ofRoots roots, []⟩ := by
  rw [Bundle.load_of_readText (readText_textTree _)]
  exact Bundle.parse_pretty_eq_turned (Bundle.wellFormed_of_uniqueAll hu) hr hd

def namedRoots : List Node :=
  [⟨some "list", .column, [("wide", .bool true)],
    [⟨some "item", .text, [("content", .string "a\ntext \x7b\x7d")], []⟩]⟩,
   ⟨none, .text, [], []⟩]

def nestedRoots : List Node :=
  [⟨none, .column, [("wide", .bool true)],
    [⟨none, .text, [("content", .string "a\ntext \x7b\x7d")], []⟩, ⟨none, .text, [], []⟩]⟩]

theorem inspect_ui_eq_iff_namedRoots :
    (inspect ⟨"."⟩ .ui (textTree (Bundle.ofRoots namedRoots).pretty)).printed =
        (inspect ⟨"."⟩ .ui
          (textTree (Bundle.ofRoots (Node.anonymousAll namedRoots)).pretty)).printed ∧
      (inspect ⟨"."⟩ .ui (textTree (Bundle.ofRoots namedRoots).pretty)).printed ≠
        (inspect ⟨"."⟩ .ui (textTree (Bundle.ofRoots nestedRoots).pretty)).printed := by
  obtain ⟨hu, hu', hu''⟩ : Node.UniqueAll namedRoots ∧
      Node.UniqueAll (Node.anonymousAll namedRoots) ∧ Node.UniqueAll nestedRoots := by
    simp [namedRoots, nestedRoots, Node.anonymousAll, Node.anonymous, Node.UniqueAll, Node.Unique,
      Json.Unique, Json.UniqueFields, Fields.Distinct, Kind.ofName, Kind.name]
  have hnamed := load_textTree_ofRoots hu (by decide) (by decide)
  have hunnamed := load_textTree_ofRoots hu' (by decide) (by decide)
  have hnested := load_textTree_ofRoots hu'' (by decide) (by decide)
  refine ⟨?_, ?_⟩
  · exact (inspect_ui_eq_iff hnamed hunnamed rfl rfl).2.2.mpr rfl
  · intro h
    have hsame := (inspect_ui_eq_iff hnamed hnested rfl rfl).2.2.mp h
    cases hsame

end NativeUi
