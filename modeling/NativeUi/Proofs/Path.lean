import Mathlib.Tactic.SplitIfs
import NativeUi.FileTree.Walk

/-!
# Paths that are put together

A path that names are joined to takes the steps of the path and then one step for each name. Its
parent is the path that lacks the last name.
-/
namespace NativeUi.Path

theorem intercalate_pieces (p : Path) : "/".intercalate p.pieces = p.text := by
  rw [← String.toList_inj, String.toList_intercalate, pieces, List.map_map]
  have h : (String.toList ∘ String.ofList) = id := by
    funext cs
    exact String.toList_ofList
  rw [h, List.map_id]
  exact List.intercalate_splitOn '/'

theorem eq_of_pieces {p q : Path} (h : p.pieces = q.pieces) : p = q := by
  have ht : p.text = q.text := by rw [← intercalate_pieces p, h, intercalate_pieces q]
  cases p
  cases q
  exact congrArg Path.mk ht

theorem stepsOf_append (ss rest : List String) :
    stepsOf (ss ++ rest) = stepsOf ss ++ stepsOf rest := by
  induction ss with
  | nil => rfl
  | cons s ss ih =>
    simp only [List.cons_append, stepsOf, ih]
    split_ifs <;> rfl

/-! ### Names -/

def IsName (s : String) : Prop :=
  s ≠ "" ∧ s ≠ "." ∧ s ≠ ".." ∧ '/' ∉ s.toList ∧ '\x00' ∉ s.toList

instance (s : String) : Decidable (IsName s) :=
  inferInstanceAs (Decidable (_ ∧ _ ∧ _ ∧ _ ∧ _))

theorem stepsOf_names {ns : List String} (h : ∀ n ∈ ns, IsName n) :
    stepsOf ns = ns.map Step.name := by
  induction ns with
  | nil => rfl
  | cons n ns ih =>
    obtain ⟨hn, hns⟩ := List.forall_mem_cons.mp h
    obtain ⟨h1, h2, h3, -⟩ := hn
    simp only [stepsOf, if_neg h1, if_neg h2, if_neg h3, ih hns, List.map_cons]

theorem pieces_name {n : String} (h : IsName n) : (⟨n⟩ : Path).pieces = [n] := by
  rw [pieces, List.splitOn_eq_singleton h.2.2.2.1]
  simp

def IsNames (p : Path) : Prop := ∀ n ∈ p.pieces, IsName n

theorem isNames_name {n : String} (h : IsName n) : IsNames ⟨n⟩ := by
  simp [IsNames, pieces_name h, h]

def EndsInName (p : Path) : Prop := ∃ ps n, p.pieces = ps ++ [n] ∧ IsName n

theorem pieces_of_absolute {p : Path} (h : p.isAbsolute = true) : "" ∈ p.pieces := by
  rw [isAbsolute, beq_iff_eq] at h
  obtain ⟨cs, hcs⟩ := List.head?_eq_some_iff.mp h
  rw [pieces, hcs, List.splitOn_cons_eq_if_modifyHead]
  simp

theorem pieces_of_endsInSlash {p : Path} (h : p.endsInSlash = true) :
    ∃ cs, p.text.toList = cs ++ ['/'] ∧
      p.pieces = (cs.splitOn '/').map String.ofList ++ [""] := by
  rw [endsInSlash, beq_iff_eq] at h
  obtain ⟨cs, hcs⟩ := List.getLast?_eq_some_iff.mp h
  refine ⟨cs, hcs, ?_⟩
  rw [pieces, hcs, List.splitOn_append_cons_self]
  simp

theorem pieces_of_empty {p : Path} (h : p.text = "") : p.pieces = [""] := by
  rw [pieces, h]
  simp

theorem IsNames.isAbsolute {p : Path} (h : p.IsNames) : p.isAbsolute = false := by
  cases ha : p.isAbsolute with
  | false => rfl
  | true => exact absurd rfl (h _ (pieces_of_absolute ha)).1

theorem pieces_ne_nil (p : Path) : p.pieces ≠ [] := by
  simp [pieces]

theorem IsNames.endsInName {p : Path} (h : p.IsNames) : p.EndsInName := by
  have hc := List.dropLast_concat_getLast p.pieces_ne_nil
  exact ⟨_, _, hc.symm, h _ (List.getLast_mem _)⟩

theorem EndsInName.text_ne {p : Path} (h : p.EndsInName) : p.text ≠ "" := by
  obtain ⟨ps, n, hp, hn⟩ := h
  intro he
  have hl : [""].getLast? = some n := by
    rw [← pieces_of_empty he, hp, List.getLast?_concat]
  exact hn.1 (Option.some.inj hl).symm

theorem EndsInName.endsInSlash {p : Path} (h : p.EndsInName) : p.endsInSlash = false := by
  obtain ⟨ps, n, hp, hn⟩ := h
  cases he : p.endsInSlash with
  | false => rfl
  | true =>
    obtain ⟨cs, -, hcs⟩ := pieces_of_endsInSlash he
    rw [hcs] at hp
    exact absurd (List.cons.inj (List.append_inj_right' hp rfl)).1.symm hn.1

theorem EndsInName.steps {p : Path} (h : p.EndsInName) : ∃ ss n, p.steps = ss ++ [Step.name n] := by
  obtain ⟨ps, n, hp, hn⟩ := h
  have hs : stepsOf [n] = [Step.name n] := stepsOf_names (by simpa using hn)
  exact ⟨stepsOf ps, n, by rw [Path.steps, hp, stepsOf_append, hs]⟩

theorem IsNames.steps {p : Path} (h : p.IsNames) : p.steps = p.pieces.map Step.name :=
  stepsOf_names h

theorem mem_splitOn {c a : Char} (hc : c ≠ a) {cs : List Char} (h : c ∈ cs) :
    ∃ piece ∈ cs.splitOn a, c ∈ piece := by
  induction cs with
  | nil => cases h
  | cons d cs ih =>
    rw [List.splitOn_cons_eq_if_modifyHead]
    rcases List.mem_cons.mp h with rfl | h
    · obtain ⟨piece, pieces, hs⟩ := List.exists_cons_of_ne_nil (List.splitOn_ne_nil a cs)
      simp [hc, hs]
    · obtain ⟨piece, hp, hcp⟩ := ih h
      split
      · exact ⟨piece, List.mem_cons_of_mem _ hp, hcp⟩
      · cases hs : cs.splitOn a with
        | nil => exact absurd hs (List.splitOn_ne_nil a cs)
        | cons first pieces =>
          rw [hs] at hp
          rcases List.mem_cons.mp hp with rfl | hp
          · exact ⟨d :: piece, by simp, List.mem_cons_of_mem _ hcp⟩
          · exact ⟨piece, by simp [hp], hcp⟩

theorem of_mem_splitOn {c a : Char} {cs piece : List Char} (hp : piece ∈ cs.splitOn a)
    (hc : c ∈ piece) : c ∈ cs ∧ c ≠ a := by
  induction cs generalizing piece with
  | nil =>
    obtain rfl : piece = [] := by simpa using hp
    cases hc
  | cons d cs ih =>
    obtain ⟨first, pieces, hs⟩ := List.exists_cons_of_ne_nil (List.splitOn_ne_nil a cs)
    rw [List.splitOn_cons_eq_if_modifyHead] at hp
    rw [hs] at ih hp
    split at hp
    · rcases List.mem_cons.mp hp with rfl | hp
      · cases hc
      · obtain ⟨hm, hne⟩ := ih hp hc
        exact ⟨List.mem_cons_of_mem _ hm, hne⟩
    · next hd =>
      rcases List.mem_cons.mp hp with rfl | hp
      · rcases List.mem_cons.mp hc with rfl | hc
        · exact ⟨List.mem_cons_self, by simpa using hd⟩
        · obtain ⟨hm, hne⟩ := ih List.mem_cons_self hc
          exact ⟨List.mem_cons_of_mem _ hm, hne⟩
      · obtain ⟨hm, hne⟩ := ih (List.mem_cons_of_mem _ hp) hc
        exact ⟨List.mem_cons_of_mem _ hm, hne⟩

theorem of_mem_piece {p : Path} {s : String} (hs : s ∈ p.pieces) {c : Char} (hc : c ∈ s.toList) :
    c ∈ p.text.toList ∧ c ≠ '/' := by
  rw [pieces] at hs
  obtain ⟨piece, hp, rfl⟩ := List.mem_map.mp hs
  rw [String.toList_ofList] at hc
  exact of_mem_splitOn hp hc

theorem IsNames.zero {p : Path} (h : p.IsNames) : '\x00' ∉ p.text.toList := by
  intro hz
  obtain ⟨piece, hp, hc⟩ := mem_splitOn (a := '/') (by decide) hz
  have hn : IsName (String.ofList piece) := h _ (List.mem_map_of_mem hp)
  exact hn.2.2.2.2 (by simpa using hc)

/-! ### Joined paths -/

theorem pieces_append_slash (s : String) (q : Path) {p : Path} (h : s = p.text ++ "/" ++ q.text) :
    (⟨s⟩ : Path).pieces = p.pieces ++ q.pieces := by
  simp only [pieces, h, String.toList_append]
  rw [List.append_assoc, ← List.map_append]
  exact congrArg _ (List.splitOn_append_cons_self _ _)

theorem EndsInName.pieces_join {p q : Path} (h : p.EndsInName) (hq : q.isAbsolute = false) :
    (p.join q).pieces = p.pieces ++ q.pieces := by
  rw [join, hq, if_neg Bool.false_ne_true, if_neg (by simp [h.text_ne, h.endsInSlash])]
  exact pieces_append_slash _ q rfl

theorem pieces_join_left (p : Path) {q : Path} (hq : q.isAbsolute = false) :
    ∃ ps, (p.join q).pieces = ps ++ q.pieces ∧ (p.pieces = ps ∨ p.pieces = ps ++ [""]) := by
  rw [join, hq, if_neg Bool.false_ne_true]
  cases he : p.endsInSlash with
  | true =>
    obtain ⟨cs, hcs, hp⟩ := pieces_of_endsInSlash he
    rw [Bool.or_true, if_pos rfl]
    refine ⟨(⟨String.ofList cs⟩ : Path).pieces, ?_, .inr ?_⟩
    · apply pieces_append_slash
      rw [← String.toList_inj]
      simp [hcs]
    · rw [hp, pieces, String.toList_ofList]
  | false =>
    by_cases ht : p.text = ""
    · exact ⟨[], by simp [ht], .inr (pieces_of_empty ht)⟩
    · rw [if_neg (by simp [ht])]
      exact ⟨p.pieces, pieces_append_slash _ q rfl, .inl rfl⟩

theorem pieces_join (p : Path) {q : Path} (hq : q.isAbsolute = false) :
    ∃ ps, (p.join q).pieces = ps ++ q.pieces ∧ stepsOf ps = p.steps := by
  obtain ⟨ps, hj, hp | hp⟩ := pieces_join_left p hq
  · exact ⟨ps, hj, by rw [steps, hp]⟩
  · -- an empty piece takes no step
    exact ⟨ps, hj, by simp [steps, hp, stepsOf_append, stepsOf]⟩

theorem steps_join (p : Path) {q : Path} (hq : q.isAbsolute = false) :
    (p.join q).steps = p.steps ++ q.steps := by
  obtain ⟨ps, hj, hp⟩ := pieces_join p hq
  rw [steps, hj, stepsOf_append, hp]
  rfl

theorem IsNames.endsInName_join {q : Path} (hq : q.IsNames) (p : Path) :
    (p.join q).EndsInName := by
  obtain ⟨ps, hj, -⟩ := pieces_join p hq.isAbsolute
  obtain ⟨qs, n, hn, h⟩ := hq.endsInName
  exact ⟨ps ++ qs, n, by rw [hj, hn, List.append_assoc], h⟩

theorem join_text (p : Path) {q : Path} (hq : q.isAbsolute = false) :
    ∃ between, (∀ c ∈ between, c = '/') ∧
      (p.join q).text.toList = p.text.toList ++ between ++ q.text.toList := by
  rw [join, hq, if_neg Bool.false_ne_true]
  split
  · exact ⟨[], by simp, by simp⟩
  · exact ⟨['/'], by simp, by simp⟩

theorem join_size (p : Path) {q : Path} (hq : q.isAbsolute = false) :
    p.text.utf8ByteSize ≤ (p.join q).text.utf8ByteSize := by
  rw [join, hq, if_neg Bool.false_ne_true]
  split
  · rw [String.utf8ByteSize_append]
    omega
  · rw [String.utf8ByteSize_append, String.utf8ByteSize_append]
    omega

theorem isAbsolute_join (p : Path) {q : Path} (hq : q.isAbsolute = false) :
    (p.join q).isAbsolute = p.isAbsolute := by
  by_cases ht : p.text = ""
  · rw [join, hq, if_neg Bool.false_ne_true, if_pos (by simp [ht]), ht, String.empty_append, hq,
      isAbsolute, ht]
    rfl
  · obtain ⟨between, -, hj⟩ := join_text p hq
    obtain ⟨c, cs, hc⟩ := List.exists_cons_of_ne_nil (mt String.toList_eq_nil_iff.mp ht)
    rw [isAbsolute, isAbsolute, hj, hc]
    rfl

structure Extends (p q : Path) (ns : List String) : Prop where
  steps : q.steps = p.steps ++ ns.map Step.name
  isAbsolute : q.isAbsolute = p.isAbsolute
  zero : '\x00' ∈ q.text.toList ↔ '\x00' ∈ p.text.toList
  size : p.text.utf8ByteSize ≤ q.text.utf8ByteSize

theorem extends_refl (p : Path) : Extends p p [] :=
  ⟨(List.append_nil _).symm, rfl, Iff.rfl, Nat.le_refl _⟩

theorem Extends.trans {p q r : Path} {ns ms : List String} (h : Extends p q ns)
    (h' : Extends q r ms) : Extends p r (ns ++ ms) where
  steps := by rw [h'.steps, h.steps, List.map_append, List.append_assoc]
  isAbsolute := h'.isAbsolute.trans h.isAbsolute
  zero := h'.zero.trans h.zero
  size := Nat.le_trans h.size h'.size

theorem IsNames.extends_join {q : Path} (hq : q.IsNames) (p : Path) :
    Extends p (p.join q) q.pieces where
  steps := by rw [steps_join p hq.isAbsolute, hq.steps]
  isAbsolute := isAbsolute_join p hq.isAbsolute
  zero := by
    obtain ⟨between, hb, hj⟩ := join_text p hq.isAbsolute
    have h0 : '\x00' ∉ between := fun hc => absurd (hb _ hc) (by decide)
    simp [hj, h0, hq.zero]
  size := join_size p hq.isAbsolute

theorem extends_div (p : Path) {n : String} (hn : IsName n) : Extends p (p / n) [n] := by
  have h := (isNames_name hn).extends_join p
  rwa [pieces_name hn] at h

theorem extends_joinAll (p : Path) {ns : List String} (h : ∀ n ∈ ns, IsName n) :
    Extends p (p.joinAll ns) ns := by
  induction ns generalizing p with
  | nil => exact extends_refl p
  | cons n ns ih =>
    obtain ⟨hn, hns⟩ := List.forall_mem_cons.mp h
    exact (extends_div p hn).trans (ih (p / n) hns)

theorem joinAll_append (p : Path) (ns ms : List String) :
    p.joinAll (ns ++ ms) = (p.joinAll ns).joinAll ms :=
  List.foldl_append

theorem endsInName_div (p : Path) {n : String} (hn : IsName n) : (p / n).EndsInName :=
  (isNames_name hn).endsInName_join p

theorem EndsInName.joinAll {p : Path} (hp : p.EndsInName) {ns : List String}
    (h : ∀ n ∈ ns, IsName n) :
    (p.joinAll ns).EndsInName ∧ (p.joinAll ns).pieces = p.pieces ++ ns := by
  induction ns generalizing p with
  | nil => exact ⟨hp, (List.append_nil _).symm⟩
  | cons n ns ih =>
    obtain ⟨hn, hns⟩ := List.forall_mem_cons.mp h
    obtain ⟨he, hpieces⟩ := ih (endsInName_div p hn) hns
    refine ⟨he, hpieces.trans ?_⟩
    have hj : (p / n).pieces = p.pieces ++ [n] := by
      rw [← pieces_name hn]
      exact hp.pieces_join (isNames_name hn).isAbsolute
    rw [hj, List.append_assoc, List.singleton_append]

/-- The size of names that are joined to a path, each behind a slash. -/
def namesSize : List String → Nat
  | [] => 0
  | n :: ns => n.utf8ByteSize + 1 + namesSize ns

theorem size_joinAll {p : Path} (ht : p.text ≠ "") (hs : p.endsInSlash = false) {ns : List String}
    (h : ∀ n ∈ ns, IsName n) :
    (p.joinAll ns).text.utf8ByteSize = p.text.utf8ByteSize + namesSize ns := by
  induction ns generalizing p with
  | nil => rfl
  | cons n ns ih =>
    obtain ⟨hn, hns⟩ := List.forall_mem_cons.mp h
    have hd := endsInName_div p hn
    have hj : p.joinAll (n :: ns) = (p / n).joinAll ns := rfl
    have hdiv : (p / n).text = p.text ++ "/" ++ n := by
      change (p.join ⟨n⟩).text = _
      rw [join, (isNames_name hn).isAbsolute, if_neg Bool.false_ne_true, if_neg (by simp [ht, hs])]
    have hslash : "/".utf8ByteSize = 1 := by decide
    rw [hj, ih hd.text_ne hd.endsInSlash hns, hdiv, String.utf8ByteSize_append,
      String.utf8ByteSize_append, namesSize]
    omega

theorem join_eq_joinAll {p q : Path} (hp : p.EndsInName) (hq : q.IsNames) :
    p.join q = p.joinAll q.pieces := by
  apply eq_of_pieces
  rw [hp.pieces_join hq.isAbsolute, (hp.joinAll hq).2]

/-! ### Parents -/

theorem trimPieces_name {n : String} (h : IsName n) (rest : List String) :
    trimPieces (n :: rest) = n :: rest := by
  cases rest with
  | nil => rw [trimPieces, if_neg h.1]
  | cons m rest => simp [trimPieces, h.1, h.2.1]

theorem parent?_join {p q : Path} (hp : p.EndsInName) (hq : q.IsNames) :
    (p.join q).parent? = some (p.joinAll q.pieces.dropLast) := by
  obtain ⟨dirs, n, hqs, hn⟩ := hq.endsInName
  have hdirs (m : String) (hm : m ∈ dirs) : IsName m := hq m (by simp [hqs, hm])
  obtain ⟨he, hd⟩ := hp.joinAll hdirs
  have hpieces : (p.join q).pieces = (p.joinAll dirs).pieces ++ [n] := by
    rw [hp.pieces_join hq.isAbsolute, hqs, hd, List.append_assoc]
  obtain ⟨ps, m, hm, hname⟩ := he
  have hrev : trimPieces (p.joinAll dirs).pieces.reverse = m :: ps.reverse := by
    rw [hm, List.reverse_append]
    exact trimPieces_name hname _
  rw [parent?, hpieces, List.reverse_append, List.reverse_singleton, List.singleton_append,
    trimPieces_name hn, hqs, List.dropLast_concat]
  simp only [hrev]
  rw [List.reverse_cons, List.reverse_reverse, ← hm, intercalate_pieces]

theorem extends_parent {p q : Path} (hp : p.EndsInName) (hq : q.IsNames) :
    ∃ n, (p.joinAll q.pieces.dropLast).Extends (p.join q) [n] := by
  obtain ⟨dirs, n, hqs, hn⟩ := hq.endsInName
  have hdirs (m : String) (hm : m ∈ dirs) : IsName m := hq m (by simp [hqs, hm])
  obtain ⟨he, hd⟩ := hp.joinAll hdirs
  have hj : p.join q = p.joinAll dirs / n := by
    apply eq_of_pieces
    rw [hp.pieces_join hq.isAbsolute, hqs, ← List.append_assoc, ← hd, ← pieces_name hn]
    exact (he.pieces_join (isNames_name hn).isAbsolute).symm
  rw [hj, hqs, List.dropLast_concat]
  exact ⟨n, extends_div _ hn⟩

/-! ### The steps of a path from its start -/

def way (p : Path) : List Step := if p.isAbsolute then p.steps else (climb p.steps).2

theorem climb_append_name (ss : List Step) (n : String) (rest : List Step) :
    climb (ss ++ .name n :: rest) = ((climb ss).1, (climb ss).2 ++ .name n :: rest) := by
  fun_induction climb ss with
  | case1 ss ih => exact ih
  | case2 ss ih => rw [List.cons_append, climb, ih]
  | case3 ss hhere hup =>
    match ss with
    | [] => rfl
    | .name _ :: _ => rfl
    | .here :: ss => exact absurd rfl (hhere ss)
    | .up :: ss => exact absurd rfl (hup ss)

theorem climb_append_names (ss : List Step) (ns : List String) :
    climb (ss ++ ns.map Step.name) = ((climb ss).1, (climb ss).2 ++ ns.map Step.name) := by
  cases ns with
  | nil => simp
  | cons n ns => exact climb_append_name ss n _

theorem climb_append_heres (ss : List Step) (k : Nat) :
    ∃ j, climb (ss ++ List.replicate k .here) =
      ((climb ss).1, (climb ss).2 ++ List.replicate j .here) := by
  fun_induction climb ss with
  | case1 ss ih => exact ih
  | case2 ss ih =>
    obtain ⟨j, hj⟩ := ih
    exact ⟨j, by rw [List.cons_append, climb, hj]⟩
  | case3 ss hhere hup =>
    match ss with
    | [] =>
      refine ⟨0, ?_⟩
      induction k with
      | zero => rfl
      | succ k ih => exact ih
    | .name _ :: _ => exact ⟨k, rfl⟩
    | .here :: ss => exact absurd rfl (hhere ss)
    | .up :: ss => exact absurd rfl (hup ss)

theorem climb_suffix (ss : List Step) : (climb ss).2 <:+ ss := by
  fun_induction climb ss with
  | case1 ss ih => exact ih.trans (List.suffix_cons _ _)
  | case2 ss ih => exact ih.trans (List.suffix_cons _ _)
  | case3 ss => exact List.suffix_refl ss

theorem way_suffix (p : Path) : p.way <:+ p.steps := by
  unfold way
  split
  · exact List.suffix_refl _
  · exact climb_suffix _

theorem climb_cons {ss rest : List Step} {s : Step} (h : (climb ss).2 = s :: rest) :
    ∃ n, s = .name n := by
  fun_induction climb ss with
  | case1 ss ih => exact ih h
  | case2 ss ih => exact ih h
  | case3 ss hhere hup =>
    subst h
    cases s with
    | here => exact absurd rfl (hhere rest)
    | up => exact absurd rfl (hup rest)
    | name n => exact ⟨n, rfl⟩

theorem Extends.way {p q : Path} {ns : List String} (h : p.Extends q ns) :
    q.way = p.way ++ ns.map Step.name := by
  rw [Path.way, Path.way, h.isAbsolute, h.steps, climb_append_names]
  split <;> rfl

theorem EndsInName.way {p : Path} (h : p.EndsInName) : ∃ ss n, p.way = ss ++ [Step.name n] := by
  obtain ⟨ss, n, hs⟩ := h.steps
  rw [Path.way, hs, climb_append_name]
  split
  · exact ⟨ss, n, rfl⟩
  · exact ⟨_, n, rfl⟩

/-! ### Dots in front -/

def dotted : Nat → Path → Path
  | 0, p => p
  | n + 1, p => ⟨"./" ++ (dotted n p).text⟩

section

variable {p : Path} (ht : p.text ≠ "") (n : Nat)

theorem size_dotted : (dotted n p).text.utf8ByteSize = 2 * n + p.text.utf8ByteSize := by
  induction n with
  | zero => simp [dotted]
  | succ n ih =>
    have hdot : "./".utf8ByteSize = 2 := by decide
    rw [dotted, String.utf8ByteSize_append, ih]
    omega

theorem zero_dotted (h : '\x00' ∉ p.text.toList) : '\x00' ∉ (dotted n p).text.toList := by
  induction n with
  | zero => exact h
  | succ n ih => simpa [dotted] using ih

theorem isAbsolute_dotted (h : p.isAbsolute = false) : (dotted n p).isAbsolute = false := by
  cases n with
  | zero => exact h
  | succ n => simp [dotted, isAbsolute]

theorem climb_dotted : climb (dotted n p).steps = climb p.steps := by
  induction n with
  | zero => rfl
  | succ n ih =>
    have hp : (dotted (n + 1) p).pieces = (⟨"."⟩ : Path).pieces ++ (dotted n p).pieces :=
      pieces_append_slash _ _ rfl
    rw [steps, hp, stepsOf_append]
    exact ih

theorem way_dotted (h : p.isAbsolute = false) : (dotted n p).way = p.way := by
  rw [way, way, isAbsolute_dotted n h, h, climb_dotted]
  rfl

include ht

theorem dotted_text_ne : (dotted n p).text ≠ "" := by
  cases n with
  | zero => exact ht
  | succ n => simp [dotted]

theorem endsInSlash_dotted : (dotted n p).endsInSlash = p.endsInSlash := by
  induction n with
  | zero => rfl
  | succ n ih =>
    have hne : (dotted n p).text.toList ≠ [] :=
      mt String.toList_eq_nil_iff.mp (dotted_text_ne ht n)
    rw [← ih, dotted, endsInSlash, endsInSlash, String.toList_append, List.getLast?_append,
      List.getLast?_eq_some_getLast hne]
    rfl

end

end NativeUi.Path
