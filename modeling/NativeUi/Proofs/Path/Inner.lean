import Mathlib.Data.List.Basic
import NativeUi.Proofs.Path

/-!
# Paths that lead inwards

A path may hold empty pieces, for slashes that stand together. Where it holds no dots it takes one
step for each piece that is not empty, from wherever it is joined. The parent of a path takes the
steps of the path but the last, and some dots may be gone.
-/
namespace NativeUi.Path

def names (p : Path) : List String := p.pieces.filter fun s => s ≠ ""

structure IsInner (p : Path) : Prop where
  relative : p.isAbsolute = false
  noDots : ∀ s ∈ p.pieces, s ≠ "." ∧ s ≠ ".."
  last : p.EndsInName

theorem stepsOf_noDots {ss : List String} (h : ∀ s ∈ ss, s ≠ "." ∧ s ≠ "..") :
    stepsOf ss = (ss.filter fun s => s ≠ "").map Step.name := by
  induction ss with
  | nil => rfl
  | cons s ss ih =>
    obtain ⟨⟨h1, h2⟩, h⟩ := List.forall_mem_cons.mp h
    rw [stepsOf, if_neg h1, if_neg h2, ih h]
    by_cases hs : s = ""
    · simp [hs]
    · simp [hs]

theorem componentsOf_noDots (first : Bool) {ss : List String}
    (h : ∀ s ∈ ss, s ≠ "." ∧ s ≠ "..") :
    componentsOf first ss = (ss.filter fun s => s ≠ "").map Component.name := by
  induction ss generalizing first with
  | nil => rfl
  | cons s ss ih =>
    obtain ⟨⟨h1, h2⟩, h⟩ := List.forall_mem_cons.mp h
    rw [componentsOf, if_neg h1, if_neg h2, ih _ h]
    by_cases hs : s = ""
    · simp [hs]
    · simp [hs]

theorem componentsOf_append (first : Bool) {ss : List String} (hne : ss ≠ []) (rest : List String) :
    componentsOf first (ss ++ rest) = componentsOf first ss ++ componentsOf false rest := by
  induction ss generalizing first with
  | nil => exact absurd rfl hne
  | cons s ss ih =>
    have hrest : componentsOf false (ss ++ rest) =
        componentsOf false ss ++ componentsOf false rest := by
      by_cases hss : ss = []
      · simp [hss, componentsOf]
      · exact ih false hss
    simp only [List.cons_append, componentsOf, hrest]
    split_ifs <;> rfl

namespace IsInner

variable {p : Path}

theorem steps (h : p.IsInner) : p.steps = p.names.map Step.name := stepsOf_noDots h.noDots

theorem components (h : p.IsInner) : p.components = p.names.map Component.name := by
  rw [Path.components, h.relative, if_neg Bool.false_ne_true, componentsOf_noDots _ h.noDots]
  rfl

theorem exists_last (h : p.IsInner) : ∃ ps n, p.pieces = ps ++ [n] ∧ IsName n ∧
    p.names = (ps.filter fun s => s ≠ "") ++ [n] := by
  obtain ⟨ps, n, hp, hn⟩ := h.last
  refine ⟨ps, n, hp, hn, ?_⟩
  rw [names, hp, List.filter_append]
  simp [hn.1]

theorem names_ne_nil (h : p.IsInner) : p.names ≠ [] := by
  obtain ⟨ps, n, -, -, hn⟩ := h.exists_last
  simp [hn]

theorem steps_join (h : p.IsInner) (out : Path) :
    (out.join p).steps = out.steps ++ p.names.map Step.name := by
  rw [Path.steps_join out h.relative, h.steps]

theorem endsInName_join (h : p.IsInner) (out : Path) : (out.join p).EndsInName := by
  obtain ⟨ps, hj, -⟩ := pieces_join out h.relative
  obtain ⟨qs, n, hq, hn⟩ := h.last
  exact ⟨ps ++ qs, n, by rw [hj, hq, List.append_assoc], hn⟩

end IsInner

theorem IsInner.components_join {p : Path} (h : p.IsInner) (out : Path) :
    (out.join p).components = out.components ++ p.components := by
  obtain ⟨ps, hj, hps⟩ := pieces_join_left out h.relative
  have hout (first : Bool) : componentsOf first out.pieces = componentsOf first ps := by
    rcases hps with hps | hps
    · rw [hps]
    · rw [hps]
      by_cases hne : ps = []
      · simp [hne, componentsOf]
      · simp [componentsOf_append first hne, componentsOf]
  have happ (first : Bool) : componentsOf first (ps ++ p.pieces) =
      componentsOf first ps ++ p.names.map Component.name := by
    by_cases hne : ps = []
    · rw [hne, List.nil_append, componentsOf_noDots _ h.noDots]
      rfl
    · rw [componentsOf_append first hne, componentsOf_noDots _ h.noDots]
      rfl
  rw [Path.components, Path.components, isAbsolute_join out h.relative, hj, happ, happ, hout, hout,
    h.components]
  split <;> rfl

/-! ### Parents -/

theorem pieces_intercalate {ss : List String} (hne : ss ≠ []) (h : ∀ s ∈ ss, '/' ∉ s.toList) :
    (⟨"/".intercalate ss⟩ : Path).pieces = ss := by
  have hsep : "/".toList = ['/'] := by decide
  have hsplit : (['/'].intercalate (ss.map String.toList)).splitOn '/' = ss.map String.toList :=
    List.splitOn_intercalate '/' (by simpa using h) (by simpa using hne)
  rw [pieces, String.toList_intercalate, hsep, hsplit, List.map_map]
  have hid : String.ofList ∘ String.toList = id := by
    funext s
    exact String.ofList_toList
  rw [hid, List.map_id]

theorem exists_trimmed (reversed : List String) :
    ∃ dropped, reversed = dropped ++ trimPieces reversed ∧ ∀ s ∈ dropped, s = "" ∨ s = "." := by
  fun_induction trimPieces reversed with
  | case1 => exact ⟨[], rfl, by simp⟩
  | case2 => exact ⟨[""], rfl, by simp⟩
  | case3 s hs => exact ⟨[], rfl, by simp⟩
  | case4 s rest hne hs ih =>
    obtain ⟨dropped, hd, h⟩ := ih
    refine ⟨s :: dropped, congrArg _ hd, List.forall_mem_cons.mpr ⟨by simpa using hs, h⟩⟩
  | case5 s rest hne hs => exact ⟨[], rfl, by simp⟩

theorem trimPieces_ne (reversed : List String) : trimPieces reversed ≠ [""] := by
  fun_induction trimPieces reversed with
  | case1 => simp
  | case2 => simp
  | case3 s hs => simpa using hs
  | case4 s rest hne hs ih => exact ih
  | case5 s rest hne hs =>
    rintro ⟨⟩
    exact hne rfl

theorem stepsOf_blank {ss : List String} (h : ∀ s ∈ ss, s = "" ∨ s = ".") :
    ∃ k, stepsOf ss = List.replicate k Step.here := by
  induction ss with
  | nil => exact ⟨0, rfl⟩
  | cons s ss ih =>
    obtain ⟨hs, h⟩ := List.forall_mem_cons.mp h
    obtain ⟨k, hk⟩ := ih h
    rcases hs with rfl | rfl
    · exact ⟨k, by rw [stepsOf, if_pos rfl, hk]⟩
    · exact ⟨k + 1, by rw [stepsOf, if_neg (by decide), if_pos rfl, hk]; rfl⟩

/-- A path whose text another one begins with, and which takes some steps but for dots at the
end. -/
structure Before (p q : Path) (ss : List Step) : Prop where
  steps : ∃ k, ss = p.steps ++ List.replicate k Step.here
  isAbsolute : p.isAbsolute = q.isAbsolute
  text : p.text.toList <+: q.text.toList

theorem Before.size {p q : Path} {ss : List Step} (h : Before p q ss) :
    p.text.utf8ByteSize ≤ q.text.utf8ByteSize := by
  obtain ⟨rest, hr⟩ := h.text
  have hq : q.text = p.text ++ String.ofList rest := by
    rw [← String.toList_inj, String.toList_append, String.toList_ofList, hr]
  rw [hq, String.utf8ByteSize_append]
  omega

theorem Before.climb_eq {p q out : Path} {ns : List String}
    (h : Before p q (out.steps ++ ns.map Step.name)) (ha : q.isAbsolute = out.isAbsolute) :
    (climb p.steps).1 = (climb out.steps).1 ∧
      ∃ k, out.way ++ ns.map Step.name = p.way ++ List.replicate k Step.here := by
  obtain ⟨k, hk⟩ := h.steps
  obtain ⟨j, hj⟩ := climb_append_heres p.steps k
  have hc := congrArg climb hk
  rw [climb_append_names, hj] at hc
  obtain ⟨hups, hsteps⟩ := Prod.mk.inj hc
  refine ⟨hups.symm, ?_⟩
  rw [way, way, h.isAbsolute, ha]
  split
  · exact ⟨k, hk⟩
  · exact ⟨j, hsteps⟩

theorem eq_of_append_heres {ss rest : List Step} {ns : List String} {k : Nat} (hne : ns ≠ [])
    (hk : rest ++ ns.map Step.name = ss ++ List.replicate k Step.here) :
    ss = rest ++ ns.map Step.name := by
  cases k with
  | zero => simpa using hk.symm
  | succ k =>
    have hl := congrArg List.getLast? hk
    rw [List.replicate_succ', ← List.append_assoc, List.getLast?_concat,
      List.getLast?_append_of_ne_nil _ (by simpa using hne), List.getLast?_map] at hl
    obtain ⟨n, -, hn⟩ := Option.map_eq_some_iff.mp hl
    cases hn

section Front

variable {p : Path} {front back : List String}

theorem pieces_part {part : List String} (hne : part ≠ []) (h : ∀ s ∈ part, s ∈ p.pieces) :
    (⟨"/".intercalate part⟩ : Path).pieces = part :=
  pieces_intercalate hne fun s hs hc => (of_mem_piece (h s hs) hc).2 rfl

theorem text_of_pieces (hp : p.pieces = front ++ back) (hf : front ≠ []) (hb : back ≠ []) :
    p.text = "/".intercalate front ++ "/" ++ "/".intercalate back := by
  have hfront : (⟨"/".intercalate front⟩ : Path).pieces = front :=
    pieces_part hf fun s hs => hp ▸ List.mem_append_left back hs
  have hback : (⟨"/".intercalate back⟩ : Path).pieces = back :=
    pieces_part hb fun s hs => hp ▸ List.mem_append_right front hs
  have he : p = ⟨"/".intercalate front ++ "/" ++ "/".intercalate back⟩ := by
    apply eq_of_pieces
    rw [pieces_append_slash _ ⟨"/".intercalate back⟩ (p := ⟨"/".intercalate front⟩) rfl, hfront,
      hback, hp]
  exact congrArg Path.text he

theorem isAbsolute_front (hp : p.pieces = front ++ back) (hf : front ≠ []) (hb : back ≠ [])
    (hne : front ≠ [""]) : (⟨"/".intercalate front⟩ : Path).isAbsolute = p.isAbsolute := by
  have hempty : "/".intercalate front ≠ "" := by
    intro he
    have hfront : (⟨"/".intercalate front⟩ : Path).pieces = front :=
      pieces_part hf fun s hs => hp ▸ List.mem_append_left back hs
    exact hne (hfront.symm.trans (pieces_of_empty he))
  obtain ⟨c, cs, hcs⟩ := List.exists_cons_of_ne_nil (mt String.toList_eq_nil_iff.mp hempty)
  rw [isAbsolute, isAbsolute, text_of_pieces hp hf hb, String.toList_append, String.toList_append,
    hcs]
  rfl

theorem before_front {n : String} (hp : p.pieces = front ++ back ++ [n]) (hf : front ≠ [])
    (hne : front ≠ [""]) (hb : ∀ s ∈ back, s = "" ∨ s = ".") :
    Before ⟨"/".intercalate front⟩ p (stepsOf (front ++ back)) := by
  rw [List.append_assoc] at hp
  have hback : back ++ [n] ≠ [] := by simp
  obtain ⟨k, hk⟩ := stepsOf_blank hb
  refine ⟨⟨k, ?_⟩, isAbsolute_front hp hf hback hne, ?_⟩
  · rw [stepsOf_append, hk, Path.steps,
      pieces_part hf fun s hs => hp ▸ List.mem_append_left (back ++ [n]) hs]
  · rw [text_of_pieces hp hf hback, String.toList_append, String.toList_append, List.append_assoc]
    exact List.prefix_append _ _

end Front

theorem parent?_of_pieces {p : Path} {ps : List String} {n : String} (hp : p.pieces = ps ++ [n])
    (hn : IsName n) : ∃ parent, p.parent? = some parent ∧ Before parent p (stepsOf ps) := by
  obtain ⟨dropped, hd, hblank⟩ := exists_trimmed ps.reverse
  have hblank : ∀ s ∈ dropped.reverse, s = "" ∨ s = "." := by simpa using hblank
  have hps : ps = (trimPieces ps.reverse).reverse ++ dropped.reverse := by
    rw [← List.reverse_append, ← hd, List.reverse_reverse]
  rw [parent?, hp, List.reverse_append, List.reverse_singleton, List.singleton_append,
    trimPieces_name hn]
  dsimp only
  have htrim := trimPieces_ne ps.reverse
  generalize trimPieces ps.reverse = kept at hps htrim
  cases kept with
  | nil =>
    -- nothing is left but the start
    obtain ⟨k, hk⟩ := stepsOf_blank hblank
    refine ⟨_, rfl, ⟨k, ?_⟩, ?_, ?_⟩
    · rw [hps, List.reverse_nil, List.nil_append, hk]
      split <;> rfl
    · cases p.isAbsolute <;> rfl
    · cases ha : p.isAbsolute with
      | false => simp
      | true =>
        rw [isAbsolute, beq_iff_eq] at ha
        obtain ⟨cs, hcs⟩ := List.head?_eq_some_iff.mp ha
        exact ⟨cs, by rw [hcs]; rfl⟩
  | cons s kept =>
    refine ⟨_, rfl, ?_⟩
    rw [hps] at hp ⊢
    refine before_front hp (by simp) ?_ hblank
    intro he
    exact htrim (List.reverse_eq_iff.mp he)

theorem IsInner.exists_parent {q : Path} (h : q.IsInner) (out : Path) :
    ∃ dirs n parent, q.names = dirs ++ [n] ∧ (out.join q).parent? = some parent ∧
      Before parent (out.join q) (out.steps ++ dirs.map Step.name) := by
  obtain ⟨qs, n, hq, hn, hnames⟩ := h.exists_last
  obtain ⟨ps, hj, hps⟩ := pieces_join out h.relative
  have hpieces : (out.join q).pieces = (ps ++ qs) ++ [n] := by rw [hj, hq, List.append_assoc]
  obtain ⟨parent, hp, hb⟩ := parent?_of_pieces hpieces hn
  have hdots : ∀ s ∈ qs, s ≠ "." ∧ s ≠ ".." := fun s hs => h.noDots s (by simp [hq, hs])
  rw [stepsOf_append, hps, stepsOf_noDots hdots] at hb
  exact ⟨_, n, parent, hnames, hp, hb⟩

end NativeUi.Path
