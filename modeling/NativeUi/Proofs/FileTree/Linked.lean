import NativeUi.Proofs.FileTree.Change
import NativeUi.Proofs.Path.Inner

/-!
# Trees with links

A walk may pass links on its way to a directory. From there on names lead as they do where there are
no links, as long as none stands on their way.
-/
namespace NativeUi.FileTree

open NativeUi.Path (Step)

variable {t u : FileTree}

/-! ### Walks to a directory -/

/-- A walk through so many links at most that ends at a directory. -/
inductive Leads (t : FileTree) : Nat → Place → List Step → Place → Prop
  | arrive {links : Nat} {p : Place} (hp : t.get? p = some .directory) : Leads t links p [] p
  | pass {links : Nat} {p q : Place} {s : Step} {ss : List Step}
      (hp : t.get? p = some .directory) (hs : isShort s = true)
      (h : Leads t links (step p s) ss q) : Leads t links p (s :: ss) q
  | link {links : Nat} {p q : Place} {target : String} {ss : List Step}
      (hp : t.get? p = some (.link target))
      (h : Leads t links (beyond p target ss).1 (beyond p target ss).2 q) :
      Leads t (links + 1) p ss q

def onward (t : FileTree) : Nat → Place → List Step → Except FileError (Place × Entry)
  | 0 => fun _ _ => .error .tooManyLinks
  | links + 1 => t.follow true links

theorem follow_eq_walk (links : Nat) : t.follow true links = t.walk true (t.onward links) := by
  cases links <;> rfl

theorem walk_link {through : Place → List Step → Except FileError (Place × Entry)} {p : Place}
    {target : String} (hp : t.get? p = some (.link target)) (ss : List Step) :
    t.walk true through p ss = through (beyond p target ss).1 (beyond p target ss).2 := by
  cases ss <;> simp [walk, hp]

theorem Leads.follow {links : Nat} {p q : Place} {ss : List Step} (h : t.Leads links p ss q) :
    t.follow true links p ss = .ok (q, .directory) := by
  induction h with
  | arrive hp => rw [follow_eq_walk]; simp [walk, hp]
  | pass hp hs _ ih =>
    rw [follow_eq_walk] at ih ⊢
    rw [walk_pass hp, if_pos hs, ih]
  | link hp _ ih =>
    rw [follow_eq_walk, walk_link hp]
    exact ih

theorem leads_of_follow {links : Nat} {p q : Place} {ss : List Step}
    (h : t.follow true links p ss = .ok (q, .directory)) : t.Leads links p ss q := by
  induction links using Nat.strongRecOn generalizing p ss with
  | ind links ih =>
    have hlink {p : Place} {ss : List Step} {target : String}
        (hp : t.get? p = some (.link target))
        (h : t.walk true (t.onward links) p ss = .ok (q, .directory)) : t.Leads links p ss q := by
      rw [walk_link hp] at h
      cases links with
      | zero => cases h
      | succ links => exact .link hp (ih links (Nat.lt_succ_self _) h)
    rw [follow_eq_walk] at h
    induction ss generalizing p with
    | nil =>
      cases hp : t.get? p with
      | none => simp [walk, hp] at h
      | some e =>
        cases e with
        | file c r => simp [walk, hp] at h
        | directory =>
          obtain rfl : p = q := by simpa [walk, hp] using h
          exact .arrive hp
        | link target => exact hlink hp h
    | cons s ss ihs =>
      cases hp : t.get? p with
      | none => simp [walk, hp] at h
      | some e =>
        cases e with
        | file c r => simp [walk, hp] at h
        | directory =>
          rw [walk_pass hp] at h
          split at h
          · next hs => exact .pass hp hs (ihs h)
          · cases h
        | link target => exact hlink hp h

theorem beyond_append (p : Place) (target : String) (ss rest : List Step) :
    beyond p target (ss ++ rest) =
      ((beyond p target ss).1, (beyond p target ss).2 ++ rest) := by
  simp [beyond]

namespace Leads

variable {links : Nat} {p q : Place} {ss : List Step}

theorem append (h : t.Leads links p ss q) (rest : List Step) :
    ∃ through, t.follow true links p (ss ++ rest) = t.walk true through q rest := by
  induction h with
  | @arrive links p hp => exact ⟨t.onward links, by rw [List.nil_append, follow_eq_walk]⟩
  | pass hp hs _ ih =>
    rw [follow_eq_walk] at ih ⊢
    rwa [List.cons_append, walk_pass hp, if_pos hs]
  | link hp _ ih =>
    rw [follow_eq_walk, walk_link hp, beyond_append]
    exact ih

theorem of_append {ss rest : List Step} (h : t.Leads links p (ss ++ rest) q) :
    ∃ r, t.Leads links p ss r := by
  generalize hs : ss ++ rest = all at h
  induction h generalizing ss with
  | @arrive links p hp =>
    obtain ⟨rfl, -⟩ := List.append_eq_nil_iff.mp hs
    exact ⟨p, .arrive hp⟩
  | @pass links p q s all hp hshort _ ih =>
    cases ss with
    | nil => exact ⟨p, .arrive hp⟩
    | cons s' ss =>
      obtain ⟨rfl, rfl⟩ := List.cons.inj hs
      obtain ⟨r, hr⟩ := ih rfl
      exact ⟨r, .pass hp hshort hr⟩
  | @link links p q target all hp _ ih =>
    subst hs
    rw [beyond_append] at ih
    obtain ⟨r, hr⟩ := ih rfl
    exact ⟨r, .link hp hr⟩

theorem short (h : t.Leads links p ss q) : Short ss := by
  induction h with
  | arrive => simp [Short]
  | pass _ hs _ ih => exact List.forall_mem_cons.mpr ⟨hs, ih⟩
  | @link links p q target ss _ _ ih =>
    have hb : beyond p target ss = _ := beyond_append p target [] ss
    rw [hb] at ih
    exact (short_append.mp ih).2

theorem directory (h : t.Leads links p ss q) : t.get? q = some .directory := by
  induction h with
  | arrive hp => exact hp
  | pass _ _ _ ih => exact ih
  | link _ _ ih => exact ih

theorem mono (h : t.Leads links p ss q)
    (hd : ∀ x, t.get? x = some .directory → u.get? x = some .directory)
    (hl : ∀ x target, t.get? x = some (.link target) → u.get? x = some (.link target)) :
    u.Leads links p ss q := by
  induction h with
  | arrive hp => exact .arrive (hd _ hp)
  | pass hp hs _ ih => exact .pass (hd _ hp) hs ih
  | link hp _ ih => exact .link (hl _ _ hp) ih

end Leads

/-! ### Names behind a walk -/

def Passes (p : Place) (ns : List String) (q : Place) : Prop :=
  ∃ r, r <+: ns ∧ r ≠ [] ∧ q = p ++ r

theorem passes_append {p : Place} {ns : List String} (hne : ns ≠ []) : Passes p ns (p ++ ns) :=
  ⟨ns, List.prefix_refl _, hne, rfl⟩

theorem not_passes_nil {p q : Place} : ¬Passes p [] q := by
  rintro ⟨r, hr, hne, -⟩
  exact hne (List.prefix_nil.mp hr)

theorem Passes.of_isPrefix {p q : Place} {ns ms : List String} (h : Passes p ns q)
    (hp : ns <+: ms) : Passes p ms q := by
  obtain ⟨r, hr, hne, rfl⟩ := h
  exact ⟨r, hr.trans hp, hne, rfl⟩

theorem passes_concat {p q : Place} {ns : List String} {n : String} :
    Passes p (ns ++ [n]) q ↔ Passes p ns q ∨ q = p ++ (ns ++ [n]) := by
  constructor
  · rintro ⟨r, hr, hne, rfl⟩
    rcases List.prefix_concat_iff.mp hr with rfl | hr
    · exact .inr rfl
    · exact .inl ⟨r, hr, hne, rfl⟩
  · rintro (h | rfl)
    · exact h.of_isPrefix (List.prefix_append _ _)
    · exact passes_append (by simp)

theorem mem_stations_iff {p q : Place} {ns : List String} :
    q ∈ stations p (ns.map Step.name) ↔ q = p ∨ Passes p ns q := by
  rw [mem_stations_names]
  constructor
  · rintro ⟨r, hr, rfl⟩
    by_cases hne : r = []
    · exact .inl (by rw [hne, List.append_nil])
    · exact .inr ⟨r, hr, hne, rfl⟩
  · rintro (rfl | ⟨r, hr, -, rfl⟩)
    · exact ⟨[], List.nil_prefix, (List.append_nil q).symm⟩
    · exact ⟨r, hr, rfl⟩

theorem forall_stations {P : Place → Prop} {p : Place} {ns : List String} (hp : P p)
    (h : ∀ q, Passes p ns q → P q) : ∀ q ∈ stations p (ns.map Step.name), P q := by
  intro q hq
  rcases mem_stations_iff.mp hq with rfl | hq
  · exact hp
  · exact h q hq

def Clear (t : FileTree) (p : Place) (ns : List String) : Prop :=
  ∀ q, Passes p ns q → ∀ target, t.get? q ≠ some (.link target)

theorem Clear.of_isPrefix {p : Place} {ns ms : List String} (h : t.Clear p ms) (hp : ns <+: ms) :
    t.Clear p ns := fun q hq => h q (hq.of_isPrefix hp)

section Behind

variable {start D : Place} {ss : List Step} {ns : List String} {n : String}

theorem Leads.follow_names (h : t.Leads linkLimit start ss D) (hc : t.Clear D ns) :
    t.follow true linkLimit start (ss ++ ns.map Step.name) = t.reach D (ns.map Step.name) := by
  obtain ⟨through, hw⟩ := h.append (ns.map Step.name)
  rw [hw]
  exact walk_eq_reach (forall_stations (by simp [h.directory]) hc)

theorem Leads.enclosing_names (h : t.Leads linkLimit start ss D) (hc : t.Clear D ns) (s : Step) :
    t.enclosing start (ss ++ ns.map Step.name ++ [s]) =
      match t.reach D (ns.map Step.name) with
      | .error e => .error e
      | .ok (p, .directory) => .ok p
      | .ok _ => .error .notADirectory := by
  rw [enclosing, List.dropLast_concat, h.follow_names hc]
  cases hr : t.reach D (ns.map Step.name) with
  | error e => rw [error_bind]
  | ok x =>
    obtain ⟨p, e⟩ := x
    obtain ⟨rfl, he⟩ := reach_ok hr
    rw [arrival_names] at he
    cases e with
    | file c r => rfl
    | directory => rfl
    | link l =>
      by_cases hne : ns = []
      · subst hne
        rw [List.append_nil] at he
        exact absurd (h.directory.symm.trans he) (by simp)
      · exact absurd he (hc _ (passes_append hne) l)

def makeIn (t : FileTree) (p : Place) (n : String) : Except FileError FileTree :=
  if isShort (.name n) then
    match t.get? (p ++ [n]) with
    | some _ => .error .alreadyExists
    | none => .ok (t.put (p ++ [n]) .directory)
  else .error .nameTooLong

theorem Leads.createDir_names (h : t.Leads linkLimit start ss D) (hc : t.Clear D ns) (n : String) :
    t.createDir start (ss ++ (ns ++ [n]).map Step.name) =
      match t.reach D (ns.map Step.name) with
      | .error e => .error e
      | .ok (p, .directory) => t.makeIn p n
      | .ok _ => .error .notADirectory := by
  rw [List.map_append, ← List.append_assoc, List.map_singleton, createDir, h.enclosing_names hc,
    List.getLast?_concat]
  cases t.reach D (ns.map Step.name) with
  | error e => rfl
  | ok x =>
    obtain ⟨p, e⟩ := x
    cases e with
    | file c r => rfl
    | link l => rfl
    | directory =>
      simp only [ok_bind, child_eq, makeIn]
      cases isShort (.name n) with
      | false => rfl
      | true => rfl

theorem Leads.createDir (h : t.Leads linkLimit start ss D) :
    t.createDir start ss = .error .alreadyExists := by
  rcases List.eq_nil_or_concat ss with rfl | ⟨before, s, rfl⟩
  · have hf := h.follow
    rw [FileTree.createDir, enclosing, List.dropLast_nil, hf]
    rfl
  · rw [List.concat_eq_append] at h ⊢
    obtain ⟨p, hp⟩ := h.of_append
    obtain ⟨through, hw⟩ := hp.append [s]
    have hf := h.follow
    rw [hw, walk_pass hp.directory] at hf
    rw [FileTree.createDir, enclosing, List.dropLast_concat, hp.follow, ok_bind,
      List.getLast?_concat]
    cases s with
    | here => rfl
    | up => rfl
    | name n =>
      split at hf
      · next hs =>
        simp only [ok_bind, child_eq, hs, if_true]
        cases hq : t.get? (step p (.name n)) with
        | some e => rfl
        | none => simp [walk, hq] at hf
      · cases hf

theorem Leads.leadsToDirectory (h : t.Leads linkLimit start ss D) :
    t.leadsToDirectory start ss = true := by
  rw [FileTree.leadsToDirectory, h.follow]

theorem attempt_of_error {e : FileError} (hc : t.createDir start ss = .error e)
    (hl : t.leadsToDirectory start ss = false) : attempt start ss t = ⟨[], .error e, t⟩ := by
  simp [attempt, hc, Job.ask, hl]

theorem Leads.attempt (h : t.Leads linkLimit start ss D) :
    attempt start ss t = ⟨[], .ok (), t⟩ := by
  simp [FileTree.attempt, h.createDir, Job.ask, h.leadsToDirectory]

theorem Leads.landing_names (h : t.Leads linkLimit start ss D) (hc : t.Clear D (ns ++ [n]))
    (through : Place → Path → Except FileError Place) :
    t.landing through start (ss ++ (ns ++ [n]).map Step.name) false =
      match t.reach D (ns.map Step.name) with
      | .error e => .error e
      | .ok (d, .directory) => if isShort (.name n) then .ok (d ++ [n]) else .error .nameTooLong
      | .ok _ => .error .notADirectory := by
  have hlast : ss ++ (ns ++ [n]).map Step.name = ss ++ ns.map Step.name ++ [.name n] := by
    rw [List.map_append, List.append_assoc]
    rfl
  have hdown := hc _ (passes_append (by simp))
  rw [← List.append_assoc] at hdown
  rw [landing, hlast, h.enclosing_names (hc.of_isPrefix (List.prefix_append _ _)),
    List.getLast?_concat]
  cases hr : t.reach D (ns.map Step.name) with
  | error e => rfl
  | ok x =>
    obtain ⟨d, e⟩ := x
    obtain ⟨rfl, -⟩ := reach_ok hr
    rw [arrival_names]
    cases e with
    | file c r => rfl
    | link l => rfl
    | directory =>
      simp only [ok_bind, child_eq]
      cases isShort (.name n) with
      | false => rfl
      | true =>
        simp only [if_true, ok_bind, step]

theorem route_ok {p : Path} {x : Place × List Step} (h : t.route p = .ok x) :
    t.Departs p ∧ x = (t.start p, p.way) := by
  unfold route at h
  split at h
  · cases h
  split at h
  · cases h
  split at h
  · cases h
  rw [departure_eq] at h
  split at h
  · next hd => exact ⟨hd, (Except.ok.inj h).symm⟩
  · cases h

theorem Leads.writeFile_names (h : t.Leads linkLimit start ss D) (hc : t.Clear D (ns ++ [n]))
    {p : Path} (hp : p.EndsInName) (hway : p.way = ss ++ (ns ++ [n]).map Step.name)
    (ho : t.start p = start) (c : Content) :
    t.writeFile p c = (t.route p >>= fun _ =>
      match t.reach D (ns.map Step.name) with
      | .error e => .error e
      | .ok (d, .directory) =>
        if isShort (.name n) then t.fillFile .plain (d ++ [n]) c else .error .nameTooLong
      | .ok _ => .error .notADirectory) := by
  have hdest : t.destination linkLimit start (ss ++ (ns ++ [n]).map Step.name) false = _ :=
    h.landing_names hc fun dir target =>
      t.destination (linkLimit - 1) (origin dir target) target.steps target.endsInSlash
  rw [writeFile, writeFileWith, hp.endsInSlash]
  cases hr : t.route p with
  | error e => rfl
  | ok x =>
    obtain ⟨-, rfl⟩ := route_ok hr
    simp only [ok_bind, ho, hway, hdest]
    cases t.reach D (ns.map Step.name) with
    | error e => rfl
    | ok x =>
      obtain ⟨d, e⟩ := x
      cases e with
      | file c r => rfl
      | link l => rfl
      | directory =>
        simp only
        cases isShort (.name n) <;> rfl

end Behind

theorem route_error {p : Path} (ht : p.text ≠ "") {e : FileError} (h : t.route p = .error e) :
    e = .zeroInName ∧ '\x00' ∈ p.text.toList ∨
      e = .nameTooLong ∧ pathLimit < p.text.utf8ByteSize ∨ e = .notFound ∧ ¬t.Departs p := by
  unfold route at h
  split at h
  · next hz => exact .inl ⟨(Except.error.inj h).symm, by simpa using hz⟩
  split at h
  · next he => exact absurd (by simpa using he) ht
  split at h
  · next hs => exact .inr (.inl ⟨(Except.error.inj h).symm, hs⟩)
  rw [departure_eq] at h
  split at h
  · cases h
  · next hd => exact .inr (.inr ⟨(Except.error.inj h).symm, hd⟩)

theorem isPrefix_of_mem_passedBy {rs x : List Step} (h : x ∈ Path.passedBy rs) :
    x <+: rs.reverse := by
  induction rs with
  | nil => cases h
  | cons s before ih =>
    have hb : before.reverse <+: (s :: before).reverse := by simp
    rw [Path.passedBy] at h
    split at h
    · exact (ih h).trans hb
    · rcases List.mem_cons.mp h with rfl | h
      · exact List.prefix_refl _
      · exact (ih h).trans hb

theorem trimSteps_suffix (rs : List Step) : Path.trimSteps rs <:+ rs := by
  fun_induction Path.trimSteps rs with
  | case1 s before ih => exact ih.trans (List.suffix_cons _ _)
  | case2 rs => exact List.suffix_refl rs

theorem isPrefix_of_mem_aboveSteps {ss x : List Step} (h : x ∈ Path.aboveSteps ss) :
    x <+: ss := by
  have hs : (Path.trimSteps ss.reverse).tail <:+ ss.reverse :=
    (List.tail_suffix _).trans (trimSteps_suffix _)
  have hp := List.reverse_prefix.mpr hs
  rw [List.reverse_reverse] at hp
  exact (isPrefix_of_mem_passedBy h).trans hp

end NativeUi.FileTree
