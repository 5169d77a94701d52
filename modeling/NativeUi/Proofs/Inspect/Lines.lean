import NativeUi.Proofs.Inspect.Outline

/-!
# Lines of an outline

An outline is printed node by node. The name of a kind is printed as it is, while properties are
printed as JSON, which has no line feeds in it. So an outline has one line for each node, and the
line of a node starts with its depth and its kind, unless there is a line feed in a kind: each of
these makes one line more.
-/
namespace NativeUi

open NativeUi.Workspace

namespace Text

/-! ### Lines that end in feeds -/

theorem splitOn_feedAll (ls : List (List Char)) :
    (feedAll ls).splitOn '\n' = ls.flatMap (List.splitOn '\n') ++ [[]] := by
  induction ls with
  | nil => exact List.splitOn_nil '\n'
  | cons line ls ih =>
    rw [feedAll_cons, List.splitOn_append_cons_self, ih, List.flatMap_cons, List.append_assoc]

theorem length_splitOn (cs : List Char) : (cs.splitOn '\n').length = cs.count '\n' + 1 := by
  induction cs with
  | nil => rfl
  | cons c cs ih =>
    rw [List.splitOn_cons_eq_if_modifyHead, List.count_cons]
    split
    · rw [List.length_cons, ih]
    · rw [List.length_modifyHead, ih, Nat.add_zero]

theorem length_flatMap_splitOn (ls : List (List Char)) :
    (ls.flatMap (List.splitOn '\n')).length = ls.length + ls.flatten.count '\n' := by
  induction ls with
  | nil => rfl
  | cons line ls ih =>
    rw [List.flatMap_cons, List.length_append, length_splitOn, ih, List.length_cons,
      List.flatten_cons, List.count_append]
    omega

theorem length_flatMap_splitOn_eq_iff {ls : List (List Char)} :
    (ls.flatMap (List.splitOn '\n')).length = ls.length ↔ ∀ line ∈ ls, '\n' ∉ line := by
  rw [length_flatMap_splitOn, Nat.add_eq_left, List.count_eq_zero, List.mem_flatten]
  exact ⟨fun h line hl hm => h ⟨line, hl, hm⟩, fun h hm => hm.elim fun line hl => h line hl.1 hl.2⟩

theorem flatMap_splitOn_of_forall {ls : List (List Char)} (h : ∀ line ∈ ls, '\n' ∉ line) :
    ls.flatMap (List.splitOn '\n') = ls := by
  induction ls with
  | nil => rfl
  | cons line ls ih =>
    obtain ⟨hline, hls⟩ := List.forall_mem_cons.mp h
    rw [List.flatMap_cons, List.splitOn_eq_singleton hline, ih hls, List.singleton_append]

end Text

namespace Inspect

open NativeUi.Node

/-! ### Lines and nodes -/

mutual

theorem length_outline (depth : Nat) : ∀ n : Node, (outline depth n).length = count n
  | ⟨_, kind, props, children⟩ => by
    rw [outline, List.length_cons, length_outlineAll, count, Nat.add_comm]

theorem length_outlineAll (depth : Nat) :
    ∀ ns : List Node, (outlineAll depth ns).length = countAll ns
  | [] => rfl
  | n :: ns => by
    rw [outlineAll, List.length_append, length_outline, length_outlineAll, countAll]

end

theorem feed_mem_chars_iff (r : Row) : '\n' ∈ r.chars ↔ '\n' ∈ r.kind.name.toList := by
  have hspaces : '\n' ∉ List.replicate (2 * r.depth) ' ' := by simp
  have hprops : '\n' ∉ propsChars r.props := fun hm => (isLine_propsChars r.props _ hm).1 rfl
  rw [Row.chars, List.mem_append, List.mem_append]
  simp [hspaces, hprops]

def rowLines (rows : List Row) : List (List Char) :=
  (rows.map Row.chars).flatMap (List.splitOn '\n')

theorem splitOn_rowsText (rows : List Row) :
    ("UI Tree:\n\n" ++ rowsText rows).toList.splitOn '\n' =
      "UI Tree:".toList :: [] :: rowLines rows ++ [[]] := by
  have hheader : "UI Tree:\n\n".toList = Text.feedAll ["UI Tree:".toList, []] := rfl
  rw [String.toList_append, rowsText_toList, hheader, ← Text.feedAll_append,
    Text.splitOn_feedAll, List.flatMap_append]
  rfl

theorem length_rowLines_eq_iff {rows : List Row} :
    (rowLines rows).length = rows.length ↔ ∀ r ∈ rows, '\n' ∉ r.kind.name.toList := by
  rw [rowLines, ← List.length_map Row.chars, Text.length_flatMap_splitOn_eq_iff,
    List.forall_mem_map]
  simp only [feed_mem_chars_iff]

theorem rowLines_eq_map {rows : List Row} (h : ∀ r ∈ rows, '\n' ∉ r.kind.name.toList) :
    rowLines rows = rows.map Row.chars := by
  apply Text.flatMap_splitOn_of_forall
  rw [List.forall_mem_map]
  exact fun r hr hm => h r hr ((feed_mem_chars_iff r).mp hm)

end Inspect

open NativeUi.Inspect

/-- Below the header and a blank line, an outline has one line for each node just if no kind has a
line feed in its name. Then the lines are those of the nodes in their order, and each starts with
two spaces for every node above its node and with the name of the kind. -/
theorem inspect_ui_line_per_node {dir : Path} {t : FileTree} {b : LoadedBundle}
    (hb : Bundle.load t (bundlePath dir) = .ok b) :
    ∃ lines : List (List Char),
      (inspect dir .ui t).result = .ok () ∧
      (inspect dir .ui t).printed.toList.splitOn '\n' = "UI Tree:".toList :: [] :: lines ++ [[]] ∧
      (lines.length = Node.countAll b.bundle.roots ↔
        ∀ r ∈ outlineAll 0 b.bundle.roots, '\n' ∉ r.kind.name.toList) ∧
      ((∀ r ∈ outlineAll 0 b.bundle.roots, '\n' ∉ r.kind.name.toList) →
        ∀ (i : Nat) (r : Row), (outlineAll 0 b.bundle.roots)[i]? = some r →
          ∃ line, lines[i]? = some line ∧
            List.replicate (2 * r.depth) ' ' ++ r.kind.name.toList <+: line) := by
  obtain ⟨hresult, hprinted⟩ := inspect_ui_of_load hb
  refine ⟨rowLines (outlineAll 0 b.bundle.roots), hresult, ?_, ?_, ?_⟩
  · rw [hprinted, splitOn_rowsText]
  · rw [← length_outlineAll 0, length_rowLines_eq_iff]
  · intro hfeeds i r hr
    refine ⟨r.chars, ?_, propsChars r.props, ?_⟩
    · rw [rowLines_eq_map hfeeds, List.getElem?_map, hr]
      rfl
    · rw [Row.chars, List.append_assoc]

def mapRoots : List Node :=
  [⟨none, .other "map view", [("zoom", .bool true)],
    [⟨none, .text, [("content", .string "a\nb")], []⟩]⟩]

theorem load_mapRoots :
    Bundle.load (textTree (Bundle.ofRoots mapRoots).pretty) (bundlePath ⟨"."⟩) =
      .ok ⟨Bundle.ofRoots mapRoots, []⟩ := by
  refine load_textTree_ofRoots ?_ (by decide) (by decide)
  simp [mapRoots, Node.UniqueAll, Node.Unique, Json.Unique, Json.UniqueFields, Fields.Distinct,
    Kind.ofName, Kind.name]

theorem inspect_ui_line_per_node_mapRoots :
    Bundle.load (textTree (Bundle.ofRoots mapRoots).pretty) (bundlePath ⟨"."⟩) =
        .ok ⟨Bundle.ofRoots mapRoots, []⟩ ∧
      ∃ lines : List (List Char),
        (inspect ⟨"."⟩ .ui (textTree (Bundle.ofRoots mapRoots).pretty)).printed.toList.splitOn
          '\n' = "UI Tree:".toList :: [] :: lines ++ [[]] ∧
        lines.length = 2 ∧ ∃ line, lines[1]? = some line ∧ "  text".toList <+: line := by
  obtain ⟨lines, -, hlines, hlength, hstart⟩ := inspect_ui_line_per_node load_mapRoots
  have hfeeds : ∀ r ∈ outlineAll 0 mapRoots, '\n' ∉ r.kind.name.toList := by
    simp only [mapRoots, outlineAll, outline, List.append_nil, List.forall_mem_cons]
    exact ⟨by decide, by decide, by simp⟩
  exact ⟨load_mapRoots, lines, hlines, hlength.mpr hfeeds,
    hstart hfeeds 1 ⟨1, .text, [("content", .string "a\nb")]⟩ rfl⟩

def brokenRoots : List Node := [⟨none, .other "card\nlist", [], []⟩]

/-- The name of a kind is printed as it is, on two lines if there is a feed in it. -/
theorem inspect_ui_breaks_kind :
    Bundle.load (textTree (Bundle.ofRoots brokenRoots).pretty) (bundlePath ⟨"."⟩) =
        .ok ⟨Bundle.ofRoots brokenRoots, []⟩ ∧
      Node.countAll brokenRoots = 1 ∧
      (inspect ⟨"."⟩ .ui (textTree (Bundle.ofRoots brokenRoots).pretty)).printed =
        "UI Tree:\n\ncard\nlist\n" ∧
      ¬∃ line : List Char,
        (inspect ⟨"."⟩ .ui (textTree (Bundle.ofRoots brokenRoots).pretty)).printed.toList.splitOn
          '\n' = ["UI Tree:".toList, [], line, []] := by
  have hload : Bundle.load (textTree (Bundle.ofRoots brokenRoots).pretty) (bundlePath ⟨"."⟩) =
      .ok ⟨Bundle.ofRoots brokenRoots, []⟩ := by
    refine load_textTree_ofRoots ?_ (by decide) (by decide)
    simp [brokenRoots, Node.UniqueAll, Node.Unique, Json.Unique, Json.UniqueFields,
      Fields.Distinct, Kind.ofName, Kind.name]
  obtain ⟨-, hprinted⟩ := inspect_ui_of_load hload
  refine ⟨hload, rfl, ?_, ?_⟩
  · rw [hprinted]
    decide +kernel
  · rintro ⟨line, hline⟩
    rw [hprinted, splitOn_rowsText] at hline
    cases congrArg List.length hline

end NativeUi
