import NativeUi.Json.Draft
import NativeUi.Proofs.Fields
import NativeUi.Proofs.Job

/-!
# Drafts and their values

A value that was drawn from a draft has no object with a name twice. The other way round, such a
value is drawn from its own draft, however the draft spells its strings.
-/
namespace NativeUi.Json

/-! ### Values without repeated names -/

mutual

def Unique : Json → Prop
  | .list items => UniqueItems items
  | .object fields => Fields.Distinct fields ∧ UniqueFields fields
  | _ => True

def UniqueItems : List Json → Prop
  | [] => True
  | x :: xs => Unique x ∧ UniqueItems xs

def UniqueFields : List (String × Json) → Prop
  | [] => True
  | (_, x) :: fs => Unique x ∧ UniqueFields fs

end

theorem uniqueFields_iff {fs : List (String × Json)} : UniqueFields fs ↔ ∀ f ∈ fs, Unique f.2 := by
  induction fs with
  | nil => simp [UniqueFields]
  | cons f fs ih => simp [UniqueFields, ih]

theorem depthItems_le_iff {xs : List Json} {k : Nat} :
    depthItems xs ≤ k ↔ ∀ x ∈ xs, x.depth ≤ k := by
  induction xs with
  | nil => simp [depthItems]
  | cons x xs ih => rw [depthItems, Nat.max_le, ih, List.forall_mem_cons]

theorem depthFields_le_iff {fs : List (String × Json)} {k : Nat} :
    depthFields fs ≤ k ↔ ∀ f ∈ fs, f.2.depth ≤ k := by
  induction fs with
  | nil => simp [depthFields]
  | cons f fs ih => rw [depthFields, Nat.max_le, ih, List.forall_mem_cons]

theorem depthFields_append (fs gs : List (String × Json)) :
    depthFields (fs ++ gs) = max (depthFields fs) (depthFields gs) := by
  induction fs with
  | nil => simp [depthFields]
  | cons f fs ih => rw [List.cons_append, depthFields, depthFields, ih, Nat.max_assoc]

theorem UniqueFields.insert {fs : Fields Json} (h : UniqueFields fs) (name : String) {x : Json}
    (hx : x.Unique) : UniqueFields (Fields.insert fs name x) := by
  rw [uniqueFields_iff] at h ⊢
  intro f hf
  rcases Fields.mem_insert hf with rfl | hf
  · exact hx
  · exact h f hf

/-! ### Members of an object -/

def entries : Option Json → Fields Json
  | some (.object fs) => fs
  | _ => []

def member (v : Json) (name : String) : Option Json := Fields.find? (entries (some v)) name

theorem distinct_entries {v : Option Json} (hu : ∀ x ∈ v, x.Unique) :
    Fields.Distinct (entries v) := by
  unfold entries
  split
  · exact (hu _ rfl).1
  · exact Fields.distinct_nil

theorem unique_member {v x : Json} {name : String} (hu : v.Unique) (h : x ∈ v.member name) :
    x.Unique := by
  cases v with
  | object fs => exact uniqueFields_iff.mp hu.2 _ (Fields.mem_of_find? h)
  | _ => cases h

/-! ### Equality as maps -/

theorem sameFields_iff {fs : List (String × Json)} {gs : Fields Json} :
    sameFields fs gs = true ↔
      ∀ f ∈ fs, ∃ y, Fields.find? gs f.1 = some y ∧ same f.2 y = true := by
  induction fs with
  | nil => simp [sameFields]
  | cons f fs ih =>
    rw [sameFields, Bool.and_eq_true, ih, List.forall_mem_cons]
    cases Fields.find? gs f.1 <;> simp

theorem same_object {fs gs : Fields Json} (hl : fs.length = gs.length)
    (h : ∀ f ∈ fs, ∃ y, Fields.find? gs f.1 = some y ∧ same f.2 y = true) :
    same (.object fs) (.object gs) = true := by
  rw [same, Bool.and_eq_true, sameFields_iff]
  exact ⟨by simp [hl], h⟩

mutual

theorem same_self : ∀ {v : Json}, v.Unique → same v v = true
  | .null, _ => rfl
  | .bool b, _ => by simp [same]
  | .number n, _ => by simp [same]
  | .string s, _ => by simp [same]
  | .list items, h => by
    rw [same]
    exact sameItems_self h
  | .object fields, h => by
    apply same_object rfl
    intro f hf
    exact ⟨f.2, Fields.find?_of_mem h.1 hf, sameFields_self h.2 f hf⟩

theorem sameItems_self : ∀ {xs : List Json}, UniqueItems xs → sameItems xs xs = true
  | [], _ => rfl
  | x :: xs, h => by rw [sameItems, same_self h.1, sameItems_self h.2, Bool.and_true]

theorem sameFields_self : ∀ {fs : List (String × Json)}, UniqueFields fs →
    ∀ f ∈ fs, same f.2 f.2 = true
  | [], _ => by simp
  | (name, x) :: fs, h => by
    rw [List.forall_mem_cons]
    exact ⟨same_self h.1, sameFields_self h.2⟩

end

theorem same_of_perm {fs gs : Fields Json} (hu : (Json.object gs).Unique) (hp : fs.Perm gs) :
    same (.object fs) (.object gs) = true := by
  apply same_object hp.length_eq
  intro f hf
  have hg : f ∈ gs := hp.mem_iff.mp hf
  exact ⟨f.2, Fields.find?_of_mem hu.1 hg, sameFields_self hu.2 f hg⟩

namespace Draft

mutual

theorem unique_of_value : ∀ {d : Draft} {v : Json}, d.value = .ok v → v.Unique
  | .null, v, h => by
    rw [value, Except.ok.injEq] at h
    simp [← h, Unique]
  | .bool b, v, h => by
    rw [value, Except.ok.injEq] at h
    simp [← h, Unique]
  | .number none, v, h => by simp [value] at h
  | .number (some n), v, h => by
    rw [value, Except.ok.injEq] at h
    simp [← h, Unique]
  | .string l, v, h => by
    rw [value, bind_eq_ok_iff] at h
    obtain ⟨s, -, hs⟩ := h
    obtain rfl := Except.ok.inj hs
    simp [Unique]
  | .list deep items ending, v, h => by
    cases deep with
    | true => simp [value] at h
    | false =>
      simp only [value, Bool.false_eq_true, if_false, bind_eq_ok_iff] at h
      obtain ⟨xs, hx, -, -, hv⟩ := h
      obtain rfl := Except.ok.inj hv
      exact unique_of_valueItems hx
  | .object deep members ending, v, h => by
    cases deep with
    | true => simp [value] at h
    | false =>
      simp only [value, Bool.false_eq_true, if_false, bind_eq_ok_iff] at h
      obtain ⟨fs, hf, -, -, hv⟩ := h
      obtain rfl := Except.ok.inj hv
      exact unique_of_valueMembers Fields.distinct_nil trivial hf
  | .fault f, v, h => by simp [value] at h

theorem unique_of_valueItems : ∀ {ds : List Draft} {xs : List Json},
    valueItems ds = .ok xs → UniqueItems xs
  | [], xs, h => by
    rw [valueItems, Except.ok.injEq] at h
    simp [← h, UniqueItems]
  | d :: ds, xs, h => by
    simp only [valueItems, bind_eq_ok_iff] at h
    obtain ⟨y, hy, ys, hys, hx⟩ := h
    obtain rfl := Except.ok.inj hx
    exact ⟨unique_of_value hy, unique_of_valueItems hys⟩

theorem unique_of_valueMembers : ∀ {ms : List (Literal × Draft)} {seen fs : Fields Json},
    Fields.Distinct seen → UniqueFields seen → valueMembers seen ms = .ok fs →
      Fields.Distinct fs ∧ UniqueFields fs
  | [], seen, fs, hd, hu, h => by
    rw [valueMembers, Except.ok.injEq] at h
    exact h ▸ ⟨hd, hu⟩
  | (l, d) :: ms, seen, fs, hd, hu, h => by
    simp only [valueMembers, bind_eq_ok_iff] at h
    obtain ⟨name, -, x, hx, hm⟩ := h
    exact unique_of_valueMembers (hd.insert name x) (hu.insert name (unique_of_value hx)) hm

end

/-! ### The drafts of a value -/

mutual

def spelt (literal : String → Literal) : Json → Draft
  | .null => .null
  | .bool b => .bool b
  | .number n => .number (some n)
  | .string s => .string (literal s)
  | .list items => .list false (speltItems literal items) .closed
  | .object fields => .object false (speltFields literal fields) .closed

def speltItems (literal : String → Literal) : List Json → List Draft
  | [] => []
  | x :: xs => spelt literal x :: speltItems literal xs

def speltFields (literal : String → Literal) : List (String × Json) → List (Literal × Draft)
  | [] => []
  | (name, x) :: fs => (literal name, spelt literal x) :: speltFields literal fs

end

mutual

theorem ofJson_eq_spelt : ∀ v : Json, ofJson v = spelt .ofString v
  | .null => rfl
  | .bool _ => rfl
  | .number _ => rfl
  | .string _ => rfl
  | .list items => by rw [ofJson, spelt, ofItems_eq_spelt items]
  | .object fields => by rw [ofJson, spelt, ofFields_eq_spelt fields]

theorem ofItems_eq_spelt : ∀ xs : List Json, ofItems xs = speltItems .ofString xs
  | [] => rfl
  | x :: xs => by rw [ofItems, speltItems, ofJson_eq_spelt x, ofItems_eq_spelt xs]

theorem ofFields_eq_spelt : ∀ fs : List (String × Json), ofFields fs = speltFields .ofString fs
  | [] => rfl
  | (name, x) :: fs => by rw [ofFields, speltFields, ofJson_eq_spelt x, ofFields_eq_spelt fs]

end

theorem speltFields_append (literal : String → Literal) (fs gs : List (String × Json)) :
    speltFields literal (fs ++ gs) = speltFields literal fs ++ speltFields literal gs := by
  induction fs with
  | nil => rfl
  | cons f fs ih => simp [speltFields, ih]

def Faithful (literal : String → Literal) : Prop := ∀ s, (literal s).text = .ok s

theorem faithful_ofString : Faithful .ofString := by
  intro s
  have chars (cs : List Char) : Literal.charsOf none (cs.map .char) = .ok cs := by
    induction cs with
    | nil => rfl
    | cons c cs ih => simp [Literal.charsOf, ih]
  simp [Literal.text, Literal.ofString, chars]

variable {literal : String → Literal}

mutual

theorem value_spelt (hl : Faithful literal) :
    ∀ {v : Json}, v.Unique → (spelt literal v).value = .ok v
  | .null, _ => rfl
  | .bool _, _ => rfl
  | .number _, _ => rfl
  | .string s, _ => by rw [spelt, value, hl s]; rfl
  | .list items, h => by
    simp only [spelt, value, Bool.false_eq_true, if_false, valueItems_spelt hl h]
    rfl
  | .object fields, h => by
    have hm : valueMembers [] (speltFields literal fields) = .ok fields :=
      valueMembers_spelt hl h.1 h.2
    simp only [spelt, value, Bool.false_eq_true, if_false, hm]
    rfl

theorem valueItems_spelt (hl : Faithful literal) :
    ∀ {xs : List Json}, UniqueItems xs → valueItems (speltItems literal xs) = .ok xs
  | [], _ => rfl
  | x :: xs, h => by
    rw [speltItems, valueItems, value_spelt hl h.1, ok_bind, valueItems_spelt hl h.2]
    rfl

theorem valueMembers_spelt (hl : Faithful literal) :
    ∀ {fs seen : Fields Json}, Fields.Distinct (seen ++ fs) → UniqueFields fs →
      valueMembers seen (speltFields literal fs) = .ok (seen ++ fs)
  | [], seen, _, _ => by simp [speltFields, valueMembers]
  | (name, x) :: fs, seen, hd, hu => by
    have hs : Fields.insert seen name x ++ fs = seen ++ (name, x) :: fs :=
      Fields.insert_append_of_distinct hd
    rw [← hs] at hd ⊢
    rw [speltFields, valueMembers, hl name, ok_bind, value_spelt hl hu.1, ok_bind]
    exact valueMembers_spelt hl hd hu.2

end

end Draft

end NativeUi.Json
