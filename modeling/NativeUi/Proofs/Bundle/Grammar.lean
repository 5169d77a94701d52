import NativeUi.Proofs.Bundle.RoundTrip
import NativeUi.Proofs.Node.Grammar

/-!
# The values that are bundles

Nothing but the trees decides whether a value is accepted as a bundle. Where one of them is not a
node, the first that is not is named.
-/
namespace NativeUi.Bundle

open NativeUi.Json
open NativeUi.Node (IsNode)

inductive IsBundle : Json → Prop
  | object {root fields : Fields Json} {items : List Json}
      (ui : Fields.find? root "ui" = some (.object fields))
      (components : Fields.find? fields "components" = some (.list items))
      (nodes : ∀ x ∈ items, IsNode x) : IsBundle (.object root)

structure FirstFault (items : List Json) (i : Nat) : Prop where
  fault : ∃ x, items[i]? = some x ∧ ¬IsNode x
  before : ∀ j, j < i → ∀ x ∈ items[j]?, IsNode x

theorem firstFault_zero {x : Json} {xs : List Json} (h : ¬IsNode x) : FirstFault (x :: xs) 0 :=
  ⟨⟨x, rfl, h⟩, nofun⟩

theorem FirstFault.succ {x : Json} {xs : List Json} {i : Nat} (hx : IsNode x)
    (h : FirstFault xs i) : FirstFault (x :: xs) (i + 1) := by
  refine ⟨h.fault, fun j hj y hy => ?_⟩
  cases j with
  | zero =>
    obtain rfl := Option.some.inj hy
    exact hx
  | succ j => exact h.before j (Nat.lt_of_succ_lt_succ hj) y hy

theorem FirstFault.not_forall {items : List Json} {i : Nat} (h : FirstFault items i) :
    ¬∀ x ∈ items, IsNode x := by
  obtain ⟨x, hx, hn⟩ := h.fault
  exact fun hall => hn (hall x (List.mem_of_getElem? hx))

theorem FirstFault.le {items : List Json} {i j : Nat} (hi : FirstFault items i)
    (hj : FirstFault items j) : i ≤ j := by
  obtain ⟨x, hx, hn⟩ := hj.fault
  by_contra h
  exact hn (hi.before j (Nat.lt_of_not_le h) x hx)

theorem readComponents_cases (index : Nat) {items : List Json} (hu : UniqueItems items) :
    (∃ ns, readComponents index items = .ok ns) ∧ (∀ x ∈ items, IsNode x) ∨
      ∃ i e, FirstFault items i ∧
        readComponents index items = .error (.malformed (.component (index + i) e)) := by
  induction items generalizing index with
  | nil => exact .inl ⟨⟨[], rfl⟩, by simp⟩
  | cons x xs ih =>
    have hx : (∃ n, Node.ofJson x = .ok n) ↔ IsNode x := Node.exists_read_iff .value hu.1
    rw [readComponents]
    cases hn : Node.ofJson x with
    | error e =>
      rw [hn] at hx
      have hn : ¬IsNode x := by simp [← hx]
      exact .inr ⟨0, e, firstFault_zero hn, rfl⟩
    | ok n =>
      have hx := hx.mp ⟨n, hn⟩
      rcases ih (index + 1) hu.2 with ⟨⟨ns, hns⟩, hall⟩ | ⟨i, e, hi, he⟩
      · left
        simp only [hns, ok_bind]
        exact ⟨⟨_, rfl⟩, List.forall_mem_cons.mpr ⟨hx, hall⟩⟩
      · right
        simp only [he, error_bind]
        exact ⟨i + 1, e, hi.succ hx, by rw [Nat.add_right_comm, Nat.add_assoc]⟩

theorem ofJson_components_cases {root fields : Fields Json} {items : List Json}
    (hu : UniqueItems items) (hui : Fields.find? root "ui" = some (.object fields))
    (hc : Fields.find? fields "components" = some (.list items)) :
    (∃ lb, ofJson (.object root) = .ok lb) ∧ (∀ x ∈ items, IsNode x) ∨
      ∃ i e, FirstFault items i ∧
        ofJson (.object root) = .error (.malformed (.component i e)) := by
  simp only [ofJson, hui, readUi, hc]
  rcases readComponents_cases 0 hu with ⟨⟨ns, hns⟩, hall⟩ | ⟨i, e, hi, he⟩
  · left
    simp only [hns, ok_bind]
    exact ⟨⟨_, rfl⟩, hall⟩
  · right
    simp only [he, error_bind, Nat.zero_add]
    exact ⟨i, e, hi, rfl⟩

theorem unique_components {root fields : Fields Json} {items : List Json}
    (hu : Json.Unique (.object root)) (hui : Fields.find? root "ui" = some (.object fields))
    (hc : Fields.find? fields "components" = some (.list items)) : UniqueItems items := by
  have hf : Json.Unique (.object fields) := uniqueFields_iff.mp hu.2 _ (Fields.mem_of_find? hui)
  exact uniqueFields_iff.mp hf.2 _ (Fields.mem_of_find? hc)

theorem components_of_ofJson {v : Json} {lb : LoadedBundle} (h : ofJson v = .ok lb) :
    ∃ root fields items, v = .object root ∧ Fields.find? root "ui" = some (.object fields) ∧
      Fields.find? fields "components" = some (.list items) := by
  obtain ⟨root, -, -, -, fields, ui, rfl, -, -, -, hui, hr, -⟩ := ofJson_ok h
  obtain ⟨items, -, hc, -⟩ := readUi_ok hr
  exact ⟨root, fields, items, rfl, hui, hc⟩

/-- The values that are accepted are those of the grammar, and of a list of components the first
that is not a node is reported. -/
theorem ofJson_accepts_iff {v : Json} (hu : v.Unique) :
    ((∃ lb, ofJson v = .ok lb) ↔ IsBundle v) ∧
      ∀ root fields items i, v = .object root →
        Fields.find? root "ui" = some (.object fields) →
        Fields.find? fields "components" = some (.list items) → FirstFault items i →
        ∃ e, ofJson v = .error (.malformed (.component i e)) ∧
          (BundleError.malformed (.component i e)).message = "malformed semantic bundle: " ++
            ("ui.components[" ++ Text.decimal i ++ "]: " ++ e.message) := by
  refine ⟨⟨?_, ?_⟩, ?_⟩
  · rintro ⟨lb, h⟩
    obtain ⟨root, fields, items, rfl, hui, hc⟩ := components_of_ofJson h
    rcases ofJson_components_cases (unique_components hu hui hc) hui hc with
      ⟨-, hall⟩ | ⟨i, e, -, he⟩
    · exact .object hui hc hall
    · cases h.symm.trans he
  · rintro ⟨hui, hc, hall⟩
    rcases ofJson_components_cases (unique_components hu hui hc) hui hc with
      ⟨hok, -⟩ | ⟨i, e, hi, -⟩
    · exact hok
    · exact absurd hall hi.not_forall
  · rintro root fields items i rfl hui hc hi
    rcases ofJson_components_cases (unique_components hu hui hc) hui hc with ⟨-, h⟩ | ⟨j, e, hj, he⟩
    · exact absurd h hi.not_forall
    · obtain rfl := Nat.le_antisymm (hi.le hj) (hj.le hi)
      exact ⟨e, he, rfl⟩

def mixedTrees : List Json := [
  .list [.null, .string "row", .null, .list [.object [("type", .string "text")]]],
  .object [("type", .string "chart"), ("props", .object [("a", .list [])]), ("x", .null)],
  .string "text"]

theorem firstFault_mixedTrees : FirstFault mixedTrees 2 := by
  have hchild : IsNode (.object [("type", .string "text")]) :=
    .object rfl (by simp [Fields.find?]) (by simp [Fields.find?]) (by simp [Fields.find?])
  have hlist : IsNode (.list [.null, .string "row", .null,
      .list [.object [("type", .string "text")]]]) :=
    .full .null .null (.list (by simpa using hchild))
  have hobject : IsNode (.object [("type", .string "chart"),
      ("props", .object [("a", .list [])]), ("x", .null)]) :=
    .object rfl (by simp [Fields.find?])
      (by simpa [Fields.find?] using Node.IsProps.object _) (by simp [Fields.find?])
  have htext : ¬IsNode (.string "text") := by rintro ⟨⟩
  exact .succ hlist (.succ hobject (firstFault_zero htext))

theorem ofJson_accepts_iff_mixedTrees :
    (Json.object [("ui", .object [("components", .list mixedTrees)])]).Unique ∧
      FirstFault mixedTrees 2 ∧
      ∃ e, ofJson (.object [("ui", .object [("components", .list mixedTrees)])]) =
        .error (.malformed (.component 2 e)) := by
  have hu : (Json.object [("ui", .object [("components", .list mixedTrees)])]).Unique := by
    simp [mixedTrees, Json.Unique, UniqueFields, UniqueItems, Fields.Distinct]
  obtain ⟨e, he, -⟩ := (ofJson_accepts_iff hu).2 _ _ _ 2 rfl rfl rfl firstFault_mixedTrees
  exact ⟨hu, firstFault_mixedTrees, e, he⟩

end NativeUi.Bundle
