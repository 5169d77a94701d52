import NativeUi.Proofs.Bundle.NormalForm
import NativeUi.Proofs.Json.Record

/-!
# The order of other entries

A bundle is loaded by taking its sections out of an object, each time with the last entry in the
place that becomes free. Where a bundle is loaded from the text that was written for it, the
sections stand in front, so that the last of the other entries come first and in reverse. A reader
that goes from member to member leaves them as they stand.
-/
namespace NativeUi

open NativeUi.Json

/-! ### Entries that move -/

namespace Fields

variable {α : Type}

/-- The last `n` entries in reverse, and then all before them. -/
def turned (n : Nat) (es : Fields α) : Fields α := es.reverse.take n ++ es.take (es.length - n)

theorem turned_nil (n : Nat) : turned n ([] : Fields α) = [] := by simp [turned]

theorem turned_concat (n : Nat) (es : Fields α) (e : String × α) :
    turned (n + 1) (es ++ [e]) = e :: turned n es := by
  have hlen : (es ++ [e]).length - (n + 1) = es.length - n := by
    rw [List.length_append, List.length_singleton]
    omega
  rw [turned, hlen, List.reverse_concat, List.take_succ_cons,
    List.take_append_of_le_length (Nat.sub_le _ _), List.cons_append, turned]

theorem turned_eq_self_iff {n : Nat} (hn : 0 < n) {es : Fields α} (hd : Distinct es) :
    turned n es = es ↔ es.length ≤ 1 := by
  obtain ⟨n, rfl⟩ : ∃ k, n = k + 1 := ⟨n - 1, by omega⟩
  rcases List.eq_nil_or_concat' es with rfl | ⟨front, last, rfl⟩
  · simp [turned_nil]
  rw [turned_concat]
  cases front with
  | nil => simp [turned_nil]
  | cons first rest =>
    constructor
    · intro h
      obtain ⟨rfl, -⟩ := List.cons.inj h
      have hm : last.1 ∈ names (rest ++ [last]) := by simp
      exact absurd hm (List.nodup_cons.mp hd).1
    · intro h
      simp at h

theorem swapErase_append {front : Fields α} {name : String} (h : name ∉ names front)
    (rest : Fields α) : swapErase (front ++ rest) name = front ++ swapErase rest name := by
  induction front with
  | nil => rfl
  | cons f front ih =>
    rw [names_cons, List.mem_cons, not_or] at h
    rw [List.cons_append, swapErase, if_neg (Ne.symm h.1), ih h.2, List.cons_append]

theorem foldl_swapErase_append {front : Fields α} {known : List String}
    (h : ∀ name ∈ known, name ∉ names front) (rest : Fields α) :
    known.foldl swapErase (front ++ rest) = front ++ known.foldl swapErase rest := by
  induction known generalizing rest with
  | nil => rfl
  | cons name known ih =>
    rw [List.foldl_cons, swapErase_append (h name (.head _)),
      ih fun name hm => h name (.tail _ hm)]
    rfl

theorem foldl_swapErase_names {fs : Fields α} (hd : Distinct fs) :
    (names fs).foldl swapErase fs = [] := by
  have hp := swapErase_all_perm hd (names fs)
  have hn : others (names fs) fs = [] := by
    apply List.filter_eq_nil_iff.mpr
    intro f hf
    simpa using mem_names hf
  rw [hn] at hp
  exact hp.eq_nil

/-- Taking out what stands in front turns the rest. -/
theorem foldl_swapErase_heads {heads es : Fields α} (hd : Distinct (heads ++ es)) :
    (names heads).foldl swapErase (heads ++ es) = turned heads.length es := by
  induction heads generalizing es with
  | nil => simp [turned]
  | cons h heads ih =>
    rcases List.eq_nil_or_concat' es with rfl | ⟨es, e, rfl⟩
    · rw [List.append_nil] at hd ⊢
      rw [foldl_swapErase_names hd, turned_nil]
    · -- the last entry comes to stand before the other heads, which do not have its name
      have hstep : swapErase (h :: heads ++ (es ++ [e])) h.1 = [e] ++ (heads ++ es) := by
        rw [List.cons_append, ← List.append_assoc, swapErase, if_pos rfl,
          List.getLast?_concat, List.dropLast_concat]
        rfl
      have hrest : Distinct (heads ++ es ++ [e]) := by
        rw [List.append_assoc]
        exact (List.nodup_cons.mp hd).2
      obtain ⟨hrest, -, hlast⟩ := distinct_append_iff.mp hrest
      have hne : ∀ name ∈ names heads, name ∉ names [e] := by
        intro name hm he
        obtain rfl : name = e.1 := List.mem_singleton.mp he
        exact hlast e (.head _) (names_append heads es ▸ List.mem_append_left _ hm)
      rw [names_cons, List.foldl_cons, hstep, foldl_swapErase_append hne, ih hrest,
        List.length_cons, turned_concat]
      rfl

end Fields

/-! ### Reading member by member -/

section Strict

variable {literal : String → Literal}

theorem UiSection.read_spelt (hl : Draft.Faithful literal) {s : UiSection} (h : s.WellFormed) :
    UiSection.read (.spelt literal s.toJson) = .ok s := by
  obtain ⟨hd, -, hlayout, hextra⟩ := h.value
  have hnodes : Draft.readSequence (Node.read .text)
      (.spelt literal (.list (Node.toJsonAll s.components))) = .ok s.components := by
    rw [Draft.spelt, Draft.readSequence, if_neg (by decide), readItems_read,
      Node.readAll_spelt hl .text h.components]
    rfl
  rw [UiSection.read, UiSection.toJson, readOpenRecord_spelt hl
    (fun fs => Parts.mk (some s.components) (some s.layout) fs) (fun _ _ _ => rfl) rfl ?_ hd hextra]
  · rfl
  · intro ms
    refine (readMembers_known hl (by rfl) (by rfl) (by rfl) hnodes _).trans ?_
    exact (readMembers_known hl (by rfl) (by rfl) (by rfl)
      (Draft.value_spelt hl hlayout) ms).trans rfl

namespace Bundle

theorem read_spelt (hl : Draft.Faithful literal) {b : Bundle} (h : b.WellFormed) :
    read (.spelt literal b.toJson) = .ok b := by
  obtain ⟨hd, -, hstate, haction, hdesign, hextra⟩ := h.value
  rw [read, toJson, readOpenRecord_spelt hl
    (fun fs => Parts.mk (some b.ui) (some b.state) (some b.action) (some b.design) fs)
    (fun _ _ _ => rfl) rfl ?_ hd hextra]
  · rfl
  · intro ms
    refine (readMembers_known hl (by rfl) (by rfl) (by rfl)
      (UiSection.read_spelt hl h.ui) _).trans ?_
    refine (readMembers_known hl (by rfl) (by rfl) (by rfl)
      (Section.read_spelt lawful_state hl hstate) _).trans ?_
    refine (readMembers_known hl (by rfl) (by rfl) (by rfl)
      (Section.read_spelt lawful_action hl haction) _).trans ?_
    exact (readMembers_known hl (by rfl) (by rfl) (by rfl)
      (Section.read_spelt lawful_design hl hdesign) ms).trans rfl

end Bundle

end Strict

/-! ### Loading what was written -/

namespace Bundle

def turned (b : Bundle) : Bundle :=
  ⟨⟨b.ui.components, b.ui.layout, b.ui.extra.turned 2⟩, b.state, b.action, b.design,
    b.extra.turned 4⟩

theorem extra_of_readUi {fs : Fields Json} {s : UiSection} (h : readUi fs = .ok s) :
    s.extra = ["components", "layout"].foldl Fields.swapErase fs := by
  obtain ⟨-, -, -, -, rfl⟩ := readUi_ok h
  rfl

theorem ofJson_toJson_eq_turned {b : Bundle} (h : b.WellFormed) :
    ofJson b.toJson = .ok ⟨b.turned, []⟩ := by
  obtain ⟨c, hc, hm⟩ := ofJson_toJson h
  obtain ⟨root, fs, ui, hroot, hf, hui, hb, -⟩ := exists_of_ofJson h.value hc
  obtain rfl := Json.object.inj hroot
  obtain rfl := Json.object.inj (Option.some.inj hf)
  have hextra : c.extra = b.extra.turned 4 :=
    (congrArg Bundle.extra hb).trans (Fields.foldl_swapErase_heads h.value.1)
  have huiExtra : c.ui.extra = b.ui.extra.turned 2 :=
    ((congrArg (fun b => b.ui.extra) hb).trans (extra_of_readUi hui)).trans
      (Fields.foldl_swapErase_heads h.ui.value.1)
  rw [hc]
  obtain ⟨⟨components, layout, uiExtra⟩, state, action, design, extra⟩ := c
  obtain ⟨rfl, rfl, -, rfl, rfl, rfl, -⟩ := hm
  obtain rfl := hextra
  obtain rfl := huiExtra
  rfl

theorem toJson_turned_iff {b : Bundle} (h : b.WellFormed) :
    b.turned.toJson = b.toJson ↔ b.ui.extra.length ≤ 1 ∧ b.extra.length ≤ 1 := by
  have hui := (Fields.distinct_append_iff.mp h.ui.value.1).2.1
  have hroot := (Fields.distinct_append_iff.mp h.value.1).2.1
  rw [← Fields.turned_eq_self_iff (by decide : 0 < 2) hui,
    ← Fields.turned_eq_self_iff (by decide : 0 < 4) hroot]
  constructor
  · intro he
    have hroot := Json.object.inj he
    simp only [List.cons_append, List.nil_append, List.cons.injEq, Prod.mk.injEq,
      true_and] at hroot
    have hui := Json.object.inj hroot.1
    simp only [List.cons_append, List.nil_append, List.cons.injEq] at hui
    exact ⟨hui.2.2, hroot.2.2.2.2⟩
  · rintro ⟨hui, hroot⟩
    rw [turned, hui, hroot]

theorem parse_pretty_eq_turned {b : Bundle} (h : b.WellFormed) (hr : b.toJson.ReadsBack)
    (hd : b.toJson.depth ≤ depthLimit) : parse b.pretty = .ok ⟨b.turned, []⟩ := by
  rw [parse, pretty, parse_pretty hr h.value hd]
  exact ofJson_toJson_eq_turned h

theorem pretty_turned_iff {b : Bundle} (h : b.WellFormed) :
    b.turned.pretty = b.pretty ↔ b.ui.extra.length ≤ 1 ∧ b.extra.length ≤ 1 := by
  rw [← toJson_turned_iff h]
  exact ⟨pretty_inj, congrArg Json.pretty⟩

/-- A bundle that is loaded, written and loaded again keeps all but the order of the entries that it
does not know: the last two beside the trees, and the last four beside the sections, come first and
in reverse. So a text that was written for a bundle comes back as it stands if there is at most one
such entry in either place, and only then. The strict reading keeps them in order. All of this is
about bundles whose doubles come back from their texts. -/
theorem rewritten_iff_few_extras {text : String} {lb : LoadedBundle} (h : parse text = .ok lb)
    (hr : lb.bundle.toJson.ReadsBack) :
    parse lb.bundle.pretty = .ok ⟨lb.bundle.turned, []⟩ ∧
      (lb.bundle.turned.pretty = lb.bundle.pretty ↔
        lb.bundle.ui.extra.length ≤ 1 ∧ lb.bundle.extra.length ≤ 1) ∧
      Json.readText read lb.bundle.pretty = .ok lb.bundle := by
  obtain ⟨hw, hd⟩ := wellFormed_of_parse h
  refine ⟨parse_pretty_eq_turned hw hr hd, pretty_turned_iff hw, ?_⟩
  rw [pretty, readText_pretty _ hr hd]
  exact read_spelt faithful_writtenLiteral hw

def strangeText : String :=
  "\x7b\"ui\":\x7b\"components\":[],\"x\":0,\"y\":1,\"z\":2\x7d,\"a\":1,\"b\":2\x7d"

theorem exists_parse_strangeText :
    ∃ lb, parse strangeText = .ok lb ∧ 1 < lb.bundle.extra.length ∧
      lb.bundle.toJson.ReadsBack := by
  have hp : ((parse strangeText).toOption.any fun lb =>
      decide (1 < lb.bundle.extra.length ∧ lb.bundle.toJson.ReadsBack)) = true := by
    decide +kernel
  cases h : parse strangeText with
  | error e =>
    rw [h] at hp
    cases hp
  | ok lb =>
    rw [h] at hp
    exact ⟨lb, rfl, of_decide_eq_true hp⟩

theorem rewritten_iff_few_extras_strangeText :
    ∃ lb, parse strangeText = .ok lb ∧ lb.bundle.toJson.ReadsBack ∧
      parse lb.bundle.pretty = .ok ⟨lb.bundle.turned, []⟩ ∧
      Json.readText read lb.bundle.pretty = .ok lb.bundle := by
  obtain ⟨lb, h, -, hr⟩ := exists_parse_strangeText
  obtain ⟨hlenient, -, hstrict⟩ := rewritten_iff_few_extras h hr
  exact ⟨lb, h, hr, hlenient, hstrict⟩

/-- A text that was written for a bundle, and is not what is written for it once it is loaded. -/
theorem pretty_not_canonical :
    ∃ lb lb', parse strangeText = .ok lb ∧ parse lb.bundle.pretty = .ok lb' ∧
      lb'.bundle.pretty ≠ lb.bundle.pretty := by
  obtain ⟨lb, h, hlen, hr⟩ := exists_parse_strangeText
  obtain ⟨hw, hd⟩ := wellFormed_of_parse h
  refine ⟨lb, ⟨lb.bundle.turned, []⟩, h, parse_pretty_eq_turned hw hr hd, ?_⟩
  rw [Ne, pretty_turned_iff hw]
  intro hfew
  exact absurd hlen (Nat.not_lt.mpr hfew.2)

end Bundle

end NativeUi
