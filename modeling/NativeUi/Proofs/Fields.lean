import Mathlib.Data.List.Basic
import NativeUi.Fields

/-!
# Records as maps

Where no name stands twice, a record is a map: the order of its entries does not matter to what is
found, and `swapErase` takes one name out and keeps all others.
-/
namespace NativeUi.Fields

variable {α : Type}

def Distinct (fs : Fields α) : Prop := (names fs).Nodup

@[simp] theorem names_nil : names ([] : Fields α) = [] := rfl

@[simp] theorem names_cons (f : String × α) (fs : Fields α) : names (f :: fs) = f.1 :: names fs :=
  rfl

@[simp] theorem names_append (fs gs : Fields α) : names (fs ++ gs) = names fs ++ names gs :=
  List.map_append

theorem mem_names {fs : Fields α} {f : String × α} (h : f ∈ fs) : f.1 ∈ names fs :=
  List.mem_map_of_mem h

theorem distinct_nil : Distinct ([] : Fields α) := List.nodup_nil

theorem Distinct.perm {fs gs : Fields α} (h : Distinct fs) (hp : fs.Perm gs) : Distinct gs :=
  (hp.map Prod.fst).nodup_iff.mp h

theorem distinct_append_iff {fs gs : Fields α} :
    Distinct (fs ++ gs) ↔ Distinct fs ∧ Distinct gs ∧ ∀ g ∈ gs, g.1 ∉ names fs := by
  rw [Distinct, names_append, List.nodup_append]
  refine and_congr_right fun _ => and_congr_right fun _ => ⟨?_, ?_⟩
  · intro h g hg hm
    exact h g.1 hm g.1 (mem_names hg) rfl
  · rintro h name hn _ hm rfl
    obtain ⟨g, hg, rfl⟩ := List.mem_map.mp hm
    exact h g hg hn

/-! ### Setting names -/

theorem insert_of_not_mem {fs : Fields α} {name : String} (h : name ∉ names fs) (value : α) :
    insert fs name value = fs ++ [(name, value)] := by
  induction fs with
  | nil => rfl
  | cons f fs ih =>
    simp only [names_cons, List.mem_cons, not_or] at h
    rw [insert, if_neg (Ne.symm h.1), ih h.2, List.cons_append]

theorem insert_append_of_distinct {fs gs : Fields α} {name : String} {value : α}
    (h : Distinct (fs ++ (name, value) :: gs)) :
    insert fs name value ++ gs = fs ++ (name, value) :: gs := by
  have hn : name ∉ names fs := (distinct_append_iff.mp h).2.2 (name, value) (.head _)
  rw [insert_of_not_mem hn, List.append_assoc, List.singleton_append]

theorem names_insert (fs : Fields α) (name : String) (value : α) :
    names (insert fs name value) =
      if name ∈ names fs then names fs else names fs ++ [name] := by
  induction fs with
  | nil => simp [insert]
  | cons f fs ih =>
    by_cases hk : f.1 = name
    · simp [insert, hk]
    · by_cases hm : name ∈ names fs <;> simp [insert, hk, Ne.symm hk, hm, ih]

theorem Distinct.insert {fs : Fields α} (h : Distinct fs) (name : String) (value : α) :
    Distinct (insert fs name value) := by
  unfold Distinct
  rw [names_insert]
  split
  · exact h
  · next hm => exact List.nodup_append.mpr ⟨h, by simp, by simp; grind⟩

theorem mem_insert {fs : Fields α} {name : String} {value : α} {f : String × α}
    (h : f ∈ insert fs name value) : f = (name, value) ∨ f ∈ fs := by
  induction fs with
  | nil => exact .inl (List.mem_singleton.mp h)
  | cons g fs ih =>
    by_cases hk : g.1 = name
    · rw [insert, if_pos hk] at h
      rcases List.mem_cons.mp h with rfl | h
      · exact .inl (by rw [hk])
      · exact .inr (.tail _ h)
    · rw [insert, if_neg hk] at h
      rcases List.mem_cons.mp h with rfl | h
      · exact .inr (.head _)
      · exact (ih h).imp_right (.tail _)

/-! ### Finding names -/

theorem find?_eq_none_iff {fs : Fields α} {name : String} :
    find? fs name = none ↔ name ∉ names fs := by
  induction fs with
  | nil => simp
  | cons f fs ih =>
    by_cases hk : f.1 = name
    · simp [find?, hk]
    · simp [find?, hk, Ne.symm hk, ih]

theorem mem_of_find? {fs : Fields α} {name : String} {value : α}
    (h : find? fs name = some value) : (name, value) ∈ fs := by
  induction fs with
  | nil => simp at h
  | cons f fs ih =>
    by_cases hk : f.1 = name
    · rw [find?, if_pos hk] at h
      obtain rfl := Option.some.inj h
      exact hk ▸ .head _
    · rw [find?, if_neg hk] at h
      exact .tail _ (ih h)

theorem find?_of_mem {fs : Fields α} (hd : Distinct fs) {name : String} {value : α}
    (h : (name, value) ∈ fs) : find? fs name = some value := by
  induction fs with
  | nil => simp at h
  | cons f fs ih =>
    obtain ⟨hf, hd⟩ := List.nodup_cons.mp hd
    rcases List.mem_cons.mp h with rfl | h
    · rw [find?, if_pos rfl]
    · have hk : f.1 ≠ name := fun he => hf (he ▸ mem_names h)
      rw [find?, if_neg hk, ih hd h]

/-! ### Taking names out -/

def without (fs : Fields α) (name : String) : Fields α := fs.filter fun f => f.1 ≠ name

theorem without_of_not_mem {fs : Fields α} {name : String} (h : name ∉ names fs) :
    without fs name = fs := by
  apply List.filter_eq_self.mpr
  intro f hf
  have hn : f.1 ≠ name := fun he => h (he ▸ mem_names hf)
  simp [hn]

theorem swapErase_perm {fs : Fields α} (hd : Distinct fs) (name : String) :
    (swapErase fs name).Perm (without fs name) := by
  induction fs with
  | nil => exact .refl _
  | cons f fs ih =>
    obtain ⟨hf, hd⟩ := List.nodup_cons.mp hd
    by_cases hk : f.1 = name
    · have hw : without (f :: fs) name = fs := by
        rw [without, List.filter_cons_of_neg (by simp [hk])]
        exact without_of_not_mem (hk ▸ hf)
      rw [hw, swapErase, if_pos hk]
      cases hl : fs.getLast? with
      | none => rw [List.getLast?_eq_none_iff.mp hl]
      | some last =>
        -- the last entry comes first and the others follow as they were
        have hc : fs.dropLast ++ [last] = fs := List.dropLast_append_getLast? last hl
        exact (List.perm_append_singleton last fs.dropLast).symm.trans (.of_eq hc)
    · have hw : without (f :: fs) name = f :: without fs name := by
        rw [without, List.filter_cons_of_pos (by simp [hk]), without]
      rw [hw, swapErase, if_neg hk]
      exact (ih hd).cons f

theorem Distinct.without {fs : Fields α} (hd : Distinct fs) (name : String) :
    Distinct (without fs name) :=
  (List.filter_sublist.map Prod.fst).nodup hd

theorem Distinct.swapErase {fs : Fields α} (hd : Distinct fs) (name : String) :
    Distinct (swapErase fs name) :=
  (hd.without name).perm (swapErase_perm hd name).symm

theorem mem_without {fs : Fields α} {name : String} {f : String × α} :
    f ∈ without fs name ↔ f ∈ fs ∧ f.1 ≠ name := by
  simp [without]

theorem mem_swapErase {fs : Fields α} (hd : Distinct fs) {name : String} {f : String × α} :
    f ∈ Fields.swapErase fs name ↔ f ∈ fs ∧ f.1 ≠ name :=
  (swapErase_perm hd name).mem_iff.trans mem_without

theorem swapErase_of_perm_cons {fs gs : Fields α} {name : String} {value : α} (hd : Distinct fs)
    (hp : fs.Perm ((name, value) :: gs)) :
    find? fs name = some value ∧ (Fields.swapErase fs name).Perm gs ∧
      Distinct (Fields.swapErase fs name) := by
  have hn : name ∉ names gs := (List.nodup_cons.mp (hd.perm hp)).1
  have hw : Fields.without ((name, value) :: gs) name = gs := by
    rw [Fields.without, List.filter_cons_of_neg (by simp)]
    exact without_of_not_mem hn
  refine ⟨find?_of_mem hd (hp.mem_iff.mpr (.head _)), ?_, hd.swapErase name⟩
  exact (swapErase_perm hd name).trans (hw ▸ hp.filter _)

theorem find?_swapErase_ne {fs : Fields α} (hd : Distinct fs) {name other : String}
    (h : other ≠ name) : find? (Fields.swapErase fs name) other = find? fs other := by
  cases hf : find? fs other with
  | none =>
    rw [find?_eq_none_iff] at hf ⊢
    intro hm
    obtain ⟨f, hg, rfl⟩ := List.mem_map.mp hm
    exact hf (mem_names ((mem_swapErase hd).mp hg).1)
  | some value =>
    exact find?_of_mem (hd.swapErase name) ((mem_swapErase hd).mpr ⟨mem_of_find? hf, h⟩)

/-! ### Names that are known -/

def others (known : List String) (fs : Fields α) : Fields α := fs.filter fun f => f.1 ∉ known

theorem others_cons (known : List String) (f : String × α) (fs : Fields α) :
    others known (f :: fs) = if f.1 ∈ known then others known fs else f :: others known fs := by
  by_cases h : f.1 ∈ known <;> simp [others, h]

theorem others_insert_of_mem {known : List String} {name : String} (h : name ∈ known)
    (fs : Fields α) (value : α) : others known (insert fs name value) = others known fs := by
  induction fs with
  | nil => simp [insert, others_cons, h]
  | cons f fs ih =>
    by_cases hk : f.1 = name
    · simp [insert, others_cons, hk, h]
    · simp [insert, others_cons, hk, ih]

theorem others_insert_of_not_mem {known : List String} {name : String} (h : name ∉ known)
    (fs : Fields α) (value : α) :
    others known (insert fs name value) = insert (others known fs) name value := by
  induction fs with
  | nil => simp [insert, others, h]
  | cons f fs ih =>
    by_cases hk : f.1 = name
    · simp [insert, others_cons, hk, h]
    · by_cases hf : f.1 ∈ known <;> simp [insert, others_cons, hk, hf, ih]

theorem swapErase_all_perm {fs : Fields α} (hd : Distinct fs) (known : List String) :
    (known.foldl Fields.swapErase fs).Perm (others known fs) := by
  induction known generalizing fs with
  | nil => simp [others]
  | cons name known ih =>
    have hw : others known (Fields.without fs name) = others (name :: known) fs := by
      simp [others, Fields.without, List.filter_filter, Bool.and_comm]
    rw [List.foldl_cons, ← hw]
    exact (ih (hd.swapErase name)).trans ((swapErase_perm hd name).filter _)

/-! ### Setting several names -/

theorem insert_perm {fs : Fields α} (hd : Distinct fs) (name : String) (value : α) :
    (insert fs name value).Perm ((name, value) :: others [name] fs) := by
  induction fs with
  | nil => exact .refl _
  | cons f fs ih =>
    obtain ⟨hf, hd⟩ := List.nodup_cons.mp hd
    by_cases hk : f.1 = name
    · have ho : others [name] fs = fs := by
        apply List.filter_eq_self.mpr
        intro g hg
        have hn : g.1 ≠ name := fun he => hf (hk.trans he.symm ▸ mem_names hg)
        simp [hn]
      rw [insert, if_pos hk, others_cons, if_pos (by simp [hk]), ho, hk]
    · rw [insert, if_neg hk, others_cons, if_neg (by simp [hk])]
      exact ((ih hd).cons f).trans (.swap _ _ _)

def update (fs new : Fields α) : Fields α := new.foldl (fun fs f => insert fs f.1 f.2) fs

theorem Distinct.update {fs : Fields α} (hd : Distinct fs) (new : Fields α) :
    Distinct (Fields.update fs new) := by
  induction new generalizing fs with
  | nil => exact hd
  | cons f new ih => exact ih (hd.insert f.1 f.2)

theorem update_perm {fs new : Fields α} (hd : Distinct fs) (hn : Distinct new) :
    (update fs new).Perm (new ++ others (names new) fs) := by
  induction new generalizing fs with
  | nil => simp [update, others]
  | cons f new ih =>
    obtain ⟨hf, hn⟩ : f.1 ∉ names new ∧ Distinct new := List.nodup_cons.mp hn
    have ho : others [f.1] (others (names new) fs) = others (names (f :: new)) fs := by
      simp [others, List.filter_filter]
    have hd' : Distinct (others (names new) fs) := (List.filter_sublist.map Prod.fst).nodup hd
    have hi := insert_perm hd' f.1 f.2
    rw [ho, ← others_insert_of_not_mem hf] at hi
    calc
      List.Perm (update fs (f :: new)) (new ++ others (names new) (insert fs f.1 f.2)) :=
        ih (hd.insert f.1 f.2) hn
      List.Perm _ (new ++ f :: others (names (f :: new)) fs) := hi.append_left new
      List.Perm _ (f :: new ++ others (names (f :: new)) fs) := List.perm_middle

theorem filter_name_eq {fs : Fields α} (hd : Distinct fs) {f : String × α} (hf : f ∈ fs) :
    fs.filter (fun g => g.1 = f.1) = [f] := by
  induction fs with
  | nil => cases hf
  | cons g fs ih =>
    obtain ⟨hg, hd⟩ := List.nodup_cons.mp hd
    rcases List.mem_cons.mp hf with rfl | hf
    · have hnone : fs.filter (fun g => g.1 = f.1) = [] := by
        apply List.filter_eq_nil_iff.mpr
        intro g hm he
        exact hg (of_decide_eq_true he ▸ mem_names hm)
      simp [hnone]
    · have hne : g.1 ≠ f.1 := fun he => hg (he ▸ mem_names hf)
      rw [List.filter_cons_of_neg (by simp [hne]), ih hd hf]

end NativeUi.Fields
