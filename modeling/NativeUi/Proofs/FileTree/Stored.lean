import NativeUi.Proofs.FileTree.Linked

/-!
# Files read back

What is written to a file is read from it again where no link is in the way. Whether it can be
written does not depend on what it is.
-/
namespace NativeUi.FileTree

open NativeUi.Path (Step)

variable {t u : FileTree}

/-! ### Filling a file -/

structure Filled (t : FileTree) (p : Place) (c : Content) (u : FileTree) : Prop where
  base : u.base = t.base
  lost : u.lost = t.lost
  file : ∃ r, u.get? p = some (.file c r)
  directory : ∀ q, t.get? q = some .directory → u.get? q = some .directory
  link : ∀ q target, t.get? q = some (.link target) → u.get? q = some (.link target)

theorem filled_put {p : Place} {c : Content} {r : Rights} (ho : p ≠ [])
    (hd : t.get? p ≠ some .directory) (hl : ∀ target, t.get? p ≠ some (.link target)) :
    Filled t p c (t.put p (.file c r)) where
  base := rfl
  lost := rfl
  file := ⟨r, get?_put_self t ho _⟩
  directory q hq := by
    have hne : q ≠ p := by
      rintro rfl
      exact hd hq
    rw [get?_put_ne t hne, hq]
  link q target hq := by
    have hne : q ≠ p := by
      rintro rfl
      exact hl target hq
    rw [get?_put_ne t hne, hq]

theorem filled_setFile {p : Place} {c old : Content} {r r' : Rights} {n : Nat}
    (ho : p ≠ []) (hp : t.get? p = some (.file old r'))
    (hs : lookup t.slots p = some (.shared n)) : Filled t p c (t.setFile n c r) := by
  have hlen : n < t.shared.length := by
    rw [get?, if_neg (by simpa using ho), hs, Option.bind_some, entryOf?, file?] at hp
    obtain ⟨x, hx, -⟩ := Option.map_eq_some_iff.mp hp
    exact (List.getElem?_eq_some_iff.mp hx).1
  have keep {q : Place} {e : Entry} (hq : t.get? q = some e) (he : ∀ c r, e ≠ .file c r) :
      (t.setFile n c r).get? q = some e := by
    rw [get?] at hq ⊢
    split
    · next hout => rwa [if_pos hout] at hq
    · next hin =>
      rw [if_neg hin] at hq
      obtain ⟨s, hslot, hentry⟩ := Option.bind_eq_some_iff.mp hq
      change (lookup t.slots q).bind _ = _
      rw [hslot, Option.bind_some]
      cases s with
      | own e' => exact hentry
      | shared k =>
        rw [entryOf?, file?] at hentry
        obtain ⟨x, -, rfl⟩ := Option.map_eq_some_iff.mp hentry
        exact absurd rfl (he x.1 x.2)
  refine ⟨rfl, rfl, ⟨r, ?_⟩, fun q hq => keep hq (by simp), fun q target hq => keep hq (by simp)⟩
  rw [get?, if_neg (by simpa using ho)]
  change (lookup t.slots p).bind _ = _
  rw [hs, Option.bind_some, entryOf?, file?, setFile, List.getElem?_set_self hlen]
  rfl

theorem filled_of_fillFile {r : Rights} {p : Place} {c : Content}
    (h : t.fillFile r p c = .ok u) : Filled t p c u := by
  rw [fillFile] at h
  split at h
  · cases h
  · cases h
  · next old rights hp =>
    obtain rfl := Except.ok.inj h
    have ho : p ≠ [] := by
      rintro rfl
      cases hp
    rw [fill]
    split
    · next n hs => exact filled_setFile ho hp hs
    · exact filled_put ho (by simp [hp]) (by simp [hp])
  · next hp =>
    obtain rfl := Except.ok.inj h
    exact filled_put (ne_nil_of_none hp) (by simp [hp]) (by simp [hp])

/-! ### Writing and reading -/

def Linkless (t : FileTree) : Prop := ∀ p target, t.get? p ≠ some (.link target)

theorem Linkless.exists_of_landing (ht : t.Linkless)
    {through : Place → Path → Except FileError Place} {p q : Place} {steps : List Step}
    {slash : Bool} (h : t.landing through p steps slash = .ok q) :
    ∃ ss n dir, steps = ss ++ [.name n] ∧ slash = false ∧ t.Leads linkLimit p ss dir ∧
      isShort (.name n) = true ∧ q = step dir (.name n) := by
  rw [landing] at h
  obtain ⟨dir, hdir, h⟩ := bind_eq_ok_iff.mp h
  rw [enclosing] at hdir
  obtain ⟨⟨place, e⟩, hfollow, hdir⟩ := bind_eq_ok_iff.mp hdir
  split at h
  · next n hlast _ =>
    have hsteps : steps = steps.dropLast ++ [.name n] := by
      rw [List.dropLast_append_getLast?]
      exact hlast
    cases e with
    | file c r => cases hdir
    | link target => cases hdir
    | directory =>
      obtain rfl := Except.ok.inj hdir
      obtain ⟨q', hq', h⟩ := bind_eq_ok_iff.mp h
      rw [child_eq] at hq'
      split at hq'
      · next hshort =>
        obtain rfl := Except.ok.inj hq'
        refine ⟨_, n, place, hsteps, rfl, leads_of_follow hfollow, hshort, ?_⟩
        split at h
        · next target hl => exact absurd hl (ht _ target)
        · exact (Except.ok.inj h).symm
      · cases hq'
  · cases h

theorem Leads.follow_file {links : Nat} {start dir : Place} {ss : List Step} {n : String}
    (h : t.Leads links start ss dir) (hn : isShort (.name n) = true) {c : Content} {r : Rights}
    (hf : t.get? (step dir (.name n)) = some (.file c r)) :
    t.follow true links start (ss ++ [.name n]) = .ok (step dir (.name n), .file c r) := by
  obtain ⟨through, hthrough⟩ := h.append [.name n]
  rw [hthrough, walk_pass h.directory, if_pos hn, walk, hf]

theorem Linkless.readText_writeFile (ht : t.Linkless) {p : Path} {s : String}
    (h : t.writeFile p (.text s) = .ok u) : u.readText p = .ok s := by
  rw [writeFile, writeFileWith] at h
  obtain ⟨⟨start, steps⟩, hroute, h⟩ := bind_eq_ok_iff.mp h
  obtain ⟨q, hq, h⟩ := bind_eq_ok_iff.mp h
  obtain ⟨ss, n, dir, rfl, hslash, hleads, hshort, rfl⟩ := ht.exists_of_landing hq
  obtain ⟨hbase, hlost, ⟨r, hfile⟩, hdirs, hlinks⟩ := filled_of_fillFile h
  have hu := hleads.mono hdirs hlinks
  have hroute' : u.route p = t.route p := by
    rw [route, route, departure, departure, hbase, hlost]
  rw [readText, find, hroute', hroute, ok_bind]
  simp only [lastStep, hslash, Bool.false_eq_true, if_false, List.append_nil]
  rw [hu.follow_file hshort hfile, ok_bind]

theorem Linkless.createDir (ht : t.Linkless) {start : Place} {ss : List Step}
    (h : t.createDir start ss = .ok u) : u.Linkless := by
  rw [FileTree.createDir] at h
  obtain ⟨dir, -, h⟩ := bind_eq_ok_iff.mp h
  split at h
  · obtain ⟨q, -, h⟩ := bind_eq_ok_iff.mp h
    split at h
    · cases h
    · next hnone =>
      obtain rfl := Except.ok.inj h
      intro p target
      rw [get?_put t (ne_nil_of_none hnone)]
      split
      · simp
      · exact ht p target
  · cases h

theorem Linkless.attempt (ht : t.Linkless) (start : Place) (ss : List Step) :
    (attempt start ss t).state.Linkless := by
  rw [FileTree.attempt]
  split
  · next u hu => exact ht.createDir hu
  · exact ht

theorem Linkless.createChain (ht : t.Linkless) (start : Place) (chain : List (List Step)) :
    (createChain start chain t).state.Linkless := by
  induction chain generalizing t with
  | nil => exact ht
  | cons ss above ih =>
    by_cases hc : t.createDir start ss = .error .notFound
    · rw [createChain_of_notFound above hc]
      cases hr : (FileTree.createChain start above t).result with
      | error e =>
        rw [Job.bind_eq_of_error hr]
        exact ih ht
      | ok x =>
        rw [Job.bind_eq_of_ok hr]
        exact (ih ht).attempt start ss
    · rw [createChain_of_ne above hc]
      exact ht.attempt start ss

theorem Linkless.createDirAll (ht : t.Linkless) (p : Path) :
    (createDirAll p t).state.Linkless := by
  by_cases hp : p.text = ""
  · rw [FileTree.createDirAll, if_pos (by simpa using hp)]
    exact ht
  cases hr : t.route p with
  | error e =>
    rw [(createDirAll_of_error hp hr).2]
    exact ht
  | ok x =>
    rw [(createDirAll_of_route hp hr).2]
    exact ht.createChain _ _

theorem writeFile_congr (t : FileTree) (p : Path) (c c' : Content) :
    (t.writeFile p c).map (fun _ => ()) = (t.writeFile p c').map fun _ => () := by
  rw [writeFile, writeFile, writeFileWith, writeFileWith]
  cases t.route p with
  | error e => rfl
  | ok x =>
    rw [ok_bind, ok_bind]
    dsimp only
    cases t.destination linkLimit x.1 x.2 p.endsInSlash with
    | error e => rfl
    | ok q =>
      rw [ok_bind, ok_bind, fillFile, fillFile]
      cases t.get? q with
      | none => rfl
      | some e => cases e <;> rfl

/-! ### Files with the directories above them -/

def createParents (p : Path) : Job FileTree FileError Unit :=
  match p.parent? with
  | none => Job.pure ()
  | some dir => createDirAll dir

theorem writeWithParents_eq (p : Path) (c : Content) :
    writeWithParents p c =
      Job.bind (createParents p) fun _ => Job.change fun t => t.writeFile p c := by
  rw [writeWithParents, createParents]
  cases p.parent? with
  | none => rfl
  | some dir => rfl

theorem Linkless.createParents (ht : t.Linkless) (p : Path) :
    (createParents p t).state.Linkless := by
  rw [FileTree.createParents]
  cases p.parent? with
  | none => exact ht
  | some dir => exact ht.createDirAll dir

theorem writeWithParents_congr (t : FileTree) (p : Path) (c c' : Content) :
    (writeWithParents p c t).result = (writeWithParents p c' t).result := by
  have change_result (u : FileTree) (c : Content) :
      (Job.change (fun t => t.writeFile p c) u : Outcome FileTree FileError Unit).result =
        (u.writeFile p c).map fun _ => () := by
    rw [Job.change]
    cases u.writeFile p c with
    | error e => rfl
    | ok v => rfl
  rw [writeWithParents_eq, writeWithParents_eq]
  cases hr : (createParents p t).result with
  | error e => rw [Job.bind_eq_of_error hr, Job.bind_eq_of_error hr]
  | ok x =>
    rw [Job.bind_eq_of_ok hr, Job.bind_eq_of_ok hr]
    simp only [change_result]
    exact writeFile_congr _ p c c'

theorem Linkless.readText_writeWithParents (ht : t.Linkless) {p : Path} {s : String}
    (h : (writeWithParents p (.text s) t).result = .ok ()) :
    (writeWithParents p (.text s) t).state.readText p = .ok s := by
  rw [writeWithParents_eq] at h ⊢
  cases hr : (FileTree.createParents p t).result with
  | error e =>
    rw [Job.bind_eq_of_error hr] at h
    cases h
  | ok x =>
    rw [Job.bind_eq_of_ok hr] at h ⊢
    simp only [Job.change] at h ⊢
    cases hw : (FileTree.createParents p t).state.writeFile p (.text s) with
    | error e =>
      rw [hw] at h
      cases h
    | ok u => exact (ht.createParents p).readText_writeFile hw

end NativeUi.FileTree
