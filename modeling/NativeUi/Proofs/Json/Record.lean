import NativeUi.Json.Reader
import NativeUi.Proofs.Json.Draft

/-!
# Records read back

Known members of a record go to their readers, and all other members are kept in their order. Both
hold for the members of a value, however their strings are spelt.
-/
namespace NativeUi.Json

section Members

variable {σ α : Type} {literal : String → Literal} {fields : List (FieldReader σ)} {s : σ}
  {name : String} {d : Draft}

theorem readMembers_known (hl : Draft.Faithful literal)
    {other : σ → String → Draft → Except ReadError σ} {f : FieldReader σ}
    {value : Except ReadError α} {set : α → σ} {a : α}
    (hf : fields.find? (fun f => f.name == name) = some f) (hs : f.seen s = false)
    (hr : f.read s d = value >>= fun a => .ok (set a)) (ha : value = .ok a)
    (ms : List (Literal × Draft)) :
    readMembers fields other s ((literal name, d) :: ms) = readMembers fields other (set a) ms := by
  rw [readMembers, hl name, ok_bind]
  simp only [hf, hs, hr, ha, Bool.false_eq_true, if_false]
  rfl

theorem readRecord_closed (expected : String) {start : σ} {ms : List (Literal × Draft)}
    (h : readMembers fields skipOther start ms = .ok s) :
    readRecord expected fields start (.object false ms .closed) = .ok s := by
  simp only [readRecord, Bool.false_eq_true, if_false, h]
  rfl

abbrev keepOther (other : σ → String → Json → σ) (s : σ) (name : String) (d : Draft) :
    Except ReadError σ := do
  let v ← d.value
  .ok (other s name v)

theorem readMembers_others (hl : Draft.Faithful literal) {other : σ → String → Json → σ}
    {keep : Fields Json → σ}
    (hk : ∀ fs name v, other (keep fs) name v = keep (Fields.insert fs name v))
    {fs es : Fields Json} (hn : ∀ e ∈ es, e.1 ∉ fields.map FieldReader.name)
    (hd : Fields.Distinct (fs ++ es)) (hu : UniqueFields es) :
    readMembers fields (keepOther other) (keep fs) (Draft.speltFields literal es) =
      .ok (keep (fs ++ es)) := by
  induction es generalizing fs with
  | nil =>
    rw [List.append_nil]
    rfl
  | cons e es ih =>
    obtain ⟨name, v⟩ := e
    have hnone : fields.find? (fun f => f.name == name) = none := by
      simpa [List.find?_eq_none] using hn (name, v) (.head _)
    have hs : Fields.insert fs name v ++ es = fs ++ (name, v) :: es :=
      Fields.insert_append_of_distinct hd
    rw [Draft.speltFields, readMembers, hl name, ok_bind]
    simp only [hnone, keepOther, Draft.value_spelt hl hu.1, ok_bind, hk]
    rw [← hs] at hd ⊢
    exact ih (fun e he => hn e (.tail _ he)) hd hu.2

theorem readOpenRecord_spelt (hl : Draft.Faithful literal) (keep : Fields Json → σ)
    {expected : String} {other : σ → String → Json → σ} {start : σ}
    (hk : ∀ fs name v, other (keep fs) name v = keep (Fields.insert fs name v))
    {heads es : Fields Json} (hnames : fields.map FieldReader.name = Fields.names heads)
    (hheads : ∀ ms, readMembers fields (keepOther other) start
      (Draft.speltFields literal heads ++ ms) = readMembers fields (keepOther other) (keep []) ms)
    (hd : Fields.Distinct (heads ++ es)) (hu : UniqueFields es) :
    readOpenRecord expected fields other start (.spelt literal (.object (heads ++ es))) =
      .ok (keep es) := by
  obtain ⟨-, hd, hn⟩ := Fields.distinct_append_iff.mp hd
  rw [← hnames] at hn
  have hm : readMembers fields (keepOther other) start
      (Draft.speltFields literal (heads ++ es)) = .ok (keep es) := by
    rw [Draft.speltFields_append, hheads]
    exact readMembers_others hl hk hn hd hu
  simp only [Draft.spelt, readOpenRecord, Bool.false_eq_true, if_false]
  rw [hm]
  rfl

end Members

namespace Draft

variable {literal : String → Literal}

theorem readString_spelt (hl : Faithful literal) (expected s : String) :
    readString expected (spelt literal (.string s)) = .ok s :=
  hl s

theorem readOptional_spelt (hl : Faithful literal) (expected s : String) :
    readOptional (readString expected) (spelt literal (.string s)) = .ok (some s) := by
  change (readString expected (spelt literal (.string s)) >>= fun a => .ok (some a)) = _
  rw [readString_spelt hl, ok_bind]

theorem readItems_strings (hl : Faithful literal) (expected : String) (words : List String) :
    readItems (readString expected) (speltItems literal (words.map .string)) = .ok words := by
  induction words with
  | nil => rfl
  | cons w words ih =>
    rw [List.map_cons, speltItems, readItems, readString_spelt hl, ok_bind, ih]
    rfl

theorem readSequence_strings (hl : Faithful literal) (expected : String) (words : List String) :
    readSequence (readString expected) (spelt literal (.list (words.map .string))) =
      .ok words := by
  simp only [spelt, readSequence, Bool.false_eq_true, if_false, readItems_strings hl]
  rfl

end Draft

end NativeUi.Json
