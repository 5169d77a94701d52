import NativeUi.Proofs.FileTree.Linked

/-!
# What writing leaves alone

Directories are made and files written along names, from a directory that a walk leads to. Nothing
else changes, whatever comes of it, unless something on the way stands for something elsewhere.
Where there is room for all of them, the directories are made.
-/
namespace NativeUi.FileTree

open NativeUi.Path (Step)

variable {t u : FileTree}

/-! ### What changes -/

def OnWay (D : Place) (ways : List (List String)) (q : Place) : Prop :=
  ∃ ns ∈ ways, Passes D ns q

/-- What stands at the place stands at no other one and for no other one. -/
structure Own (t : FileTree) (q : Place) : Prop where
  noLink : ∀ target, t.get? q ≠ some (.link target)
  single : ∀ n, lookup t.slots q = some (.shared n) → t.get? q = none

theorem own_of_none {q : Place} (h : t.get? q = none) : t.Own q := ⟨by simp [h], fun _ _ => h⟩

/-- One tree is the other but for what stands on some ways, which begin where a walk ends. -/
structure Inside (t : FileTree) (start : Place) (ss : List Step) (D : Place)
    (ways : List (List String)) (u : FileTree) : Prop where
  base : u.base = t.base
  lost : u.lost = t.lost
  leads : u.Leads linkLimit start ss D
  own : ∀ q, OnWay D ways q → u.Own q
  kept : ∀ q, ¬OnWay D ways q → u.get? q = t.get? q

theorem lookup_put_ne (t : FileTree) {p q : Place} (h : q ≠ p) (e : Entry) :
    lookup (t.put p e).slots q = lookup t.slots q := by
  have hk := lookupAt_filter t.slots (fun x => !(x.depth == p.length && x.place == p)) q.length q
    true (by simp [h])
  simp_all [put, setSlot, lookup, lookupAt, Held.at, Ne.symm h]

theorem lookup_put_self (t : FileTree) (p : Place) (e : Entry) :
    lookup (t.put p e).slots p = some (.own e) := by
  simp [put, setSlot, lookup, lookupAt, Held.at]

namespace Inside

variable {start D : Place} {ss : List Step} {ways : List (List String)} {ms : List String}

theorem refl (h : t.Leads linkLimit start ss D) (ho : ∀ q, OnWay D ways q → t.Own q) :
    Inside t start ss D ways t := ⟨rfl, rfl, h, ho, fun _ _ => rfl⟩

theorem clear (hi : Inside t start ss D ways u) (hms : ms ∈ ways) : u.Clear D ms :=
  fun q hq => (hi.own q ⟨ms, hms, hq⟩).noLink

theorem put (hi : Inside t start ss D ways u) {q : Place} (hq : OnWay D ways q)
    (hd : u.get? q ≠ some .directory) {e : Entry} (he : ∀ target, e ≠ .link target) :
    Inside t start ss D ways (u.put q e) := by
  have ho : q ≠ [] := by
    rintro rfl
    exact hd rfl
  have hput := get?_put u ho e
  have hself (x : Place) (e' : Entry) (hx : u.get? x = some e') (hne : u.get? q ≠ some e') :
      (u.put q e).get? x = some e' := by
    rw [hput, if_neg, hx]
    rintro rfl
    exact hne hx
  constructor
  · exact hi.base
  · exact hi.lost
  · exact hi.leads.mono (fun x hx => hself x _ hx hd)
      fun x target hx => hself x _ hx ((hi.own q hq).noLink target)
  · intro x hx
    by_cases hxq : x = q
    · subst hxq
      exact ⟨by simpa [hput] using he, by simp [lookup_put_self]⟩
    · obtain ⟨hl, hs⟩ := hi.own x hx
      refine ⟨?_, ?_⟩
      · simpa [hput, hxq] using hl
      · simpa [hput, hxq, lookup_put_ne u hxq] using hs
  · intro x hx
    rw [hput, if_neg, hi.kept x hx]
    rintro rfl
    exact hx hq

theorem createDir (hi : Inside t start ss D ways u) (hms : ms ∈ ways) {x : List Step}
    (hx : x <+: ss ++ ms.map Step.name) {v : FileTree} (hv : u.createDir start x = .ok v) :
    Inside t start ss D ways v := by
  have hthere (r : Place) (hr : u.Leads linkLimit start x r) : False := by
    rw [hr.createDir] at hv
    cases hv
  rcases List.prefix_or_prefix_of_prefix hx (List.prefix_append ss _) with ⟨rest, hrest⟩ | ⟨y, rfl⟩
  · have hl := hi.leads
    rw [← hrest] at hl
    obtain ⟨r, hr⟩ := hl.of_append
    exact (hthere r hr).elim
  · have hy := List.prefix_iff_eq_take.mp ((List.prefix_append_right_inj ss).mp hx)
    rw [← List.map_take] at hy
    rw [hy] at hv hthere
    have hr : ms.take y.length <+: ms := List.take_prefix _ _
    generalize ms.take y.length = r at hr hv hthere
    rcases List.eq_nil_or_concat r with rfl | ⟨before, n, rfl⟩
    · exact (hthere D (by simpa using hi.leads)).elim
    · rw [List.concat_eq_append] at hr hv
      have hbefore := (List.prefix_append before [n]).trans hr
      rw [hi.leads.createDir_names ((hi.clear hms).of_isPrefix hbefore)] at hv
      split at hv
      · cases hv
      · next d hd =>
        obtain ⟨rfl, -⟩ := reach_ok hd
        rw [makeIn] at hv
        split at hv
        · split at hv
          · cases hv
          · next hnone =>
            obtain rfl := Except.ok.inj hv
            rw [arrival_names, List.append_assoc] at hnone ⊢
            exact hi.put ⟨ms, hms, _, hr, by simp, rfl⟩ (by simp [hnone]) (by simp)
        · cases hv
      · cases hv

theorem attempt (hi : Inside t start ss D ways u) (hms : ms ∈ ways) {x : List Step}
    (hx : x <+: ss ++ ms.map Step.name) :
    Inside t start ss D ways (FileTree.attempt start x u).state := by
  unfold FileTree.attempt
  split
  · next v hv => exact hi.createDir hms hx hv
  · exact hi

theorem createChain (hi : Inside t start ss D ways u) (hms : ms ∈ ways) {xs : List (List Step)}
    (hxs : ∀ x ∈ xs, x <+: ss ++ ms.map Step.name) :
    Inside t start ss D ways (FileTree.createChain start xs u).state := by
  induction xs with
  | nil => exact hi
  | cons x above ih =>
    obtain ⟨hx, habove⟩ := List.forall_mem_cons.mp hxs
    by_cases hc : u.createDir start x = .error .notFound
    · rw [createChain_of_notFound _ hc]
      cases hr : (FileTree.createChain start above u).result with
      | error e =>
        rw [Job.bind_eq_of_error hr]
        exact ih habove
      | ok a =>
        rw [Job.bind_eq_of_ok hr]
        exact (ih habove).attempt hms hx
    · rw [createChain_of_ne _ hc]
      exact hi.attempt hms hx

theorem createDirAll (hi : Inside t start ss D ways u) (hms : ms ∈ ways) {p : Path}
    (hp : p.way <+: ss ++ ms.map Step.name) (ho : u.start p = start) :
    Inside t start ss D ways (FileTree.createDirAll p u).state := by
  by_cases ht : p.text = ""
  · rw [FileTree.createDirAll, if_pos (by simpa using ht)]
    exact hi
  · cases hr : u.route p with
    | error e =>
      rw [(createDirAll_of_error ht hr).2]
      exact hi
    | ok x =>
      obtain ⟨-, rfl⟩ := route_ok hr
      rw [(createDirAll_of_route ht hr).2, ho]
      apply hi.createChain hms
      refine List.forall_mem_cons.mpr ⟨hp, fun x hx => ?_⟩
      exact (isPrefix_of_mem_aboveSteps hx).trans hp

theorem writeFile (hi : Inside t start ss D ways u) (hms : ms ∈ ways) (hne : ms ≠ []) {p : Path}
    (hp : p.EndsInName) (hsteps : p.way = ss ++ ms.map Step.name) (ho : u.start p = start)
    {c : Content} {v : FileTree} (hv : u.writeFile p c = .ok v) :
    Inside t start ss D ways v := by
  rcases List.eq_nil_or_concat ms with rfl | ⟨before, n, rfl⟩
  · exact absurd rfl hne
  rw [List.concat_eq_append] at hms hsteps
  rw [hi.leads.writeFile_names (hi.clear hms) hp hsteps ho] at hv
  obtain ⟨-, -, hv⟩ := bind_eq_ok_iff.mp hv
  split at hv
  · cases hv
  · next d hd =>
    obtain ⟨rfl, -⟩ := reach_ok hd
    have hq : OnWay D ways (D ++ (before ++ [n])) :=
      ⟨_, hms, passes_append (by simp)⟩
    have hown := hi.own _ hq
    rw [arrival_names, List.append_assoc, fillFile] at hv
    split at hv
    · split at hv
      · cases hv
      · cases hv
      · next old hold =>
        obtain rfl := Except.ok.inj hv
        rw [fill]
        split
        · next k hk =>
          rw [hown.single k hk] at hold
          cases hold
        · exact hi.put hq (by simp [hold]) (by simp)
      · next hnone =>
        obtain rfl := Except.ok.inj hv
        exact hi.put hq (by simp [hnone]) (by simp)
    · cases hv
  · cases hv

end Inside

/-! ### Making directories where there is room -/

structure Dug (t : FileTree) (D : Place) (ns : List String) (u : FileTree) : Prop where
  base : u.base = t.base
  lost : u.lost = t.lost
  made : ∀ q, Passes D ns q → u.get? q = some .directory
  kept : ∀ q, ¬Passes D ns q → u.get? q = t.get? q

section Digging

variable {start D : Place} {ss : List Step} {ns : List String} {n : String}

theorem Dug.refl (h : ∀ q, Passes D ns q → t.get? q = some .directory) : Dug t D ns t :=
  ⟨rfl, rfl, h, fun _ _ => rfl⟩

theorem Dug.trans {v : FileTree} {ms : List String} (h : Dug t D ns u) (h' : Dug u D ms v)
    (hp : ns <+: ms) : Dug t D ms v where
  base := h'.base.trans h.base
  lost := h'.lost.trans h.lost
  made := h'.made
  kept q hq := (h'.kept q hq).trans (h.kept q fun hn => hq (hn.of_isPrefix hp))

theorem Dug.directory (h : Dug t D ns u) {q : Place} (hq : t.get? q = some .directory) :
    u.get? q = some .directory := by
  by_cases hp : Passes D ns q
  · exact h.made q hp
  · rw [h.kept q hp, hq]

theorem Dug.free (h : Dug t D ns u) {q : Place} (hq : t.Free q) : u.Free q := by
  by_cases hp : Passes D ns q
  · exact .inr (h.made q hp)
  · rw [Free, h.kept q hp]
    exact hq

theorem clear_of_free (h : ∀ q, Passes D ns q → t.Free q) : t.Clear D ns := by
  intro q hq target
  rcases h q hq with h | h <;> simp [h]

theorem Dug.leads (h : Dug t D ns u) (hl : t.Leads linkLimit start ss D)
    (hfree : ∀ q, Passes D ns q → t.Free q) : u.Leads linkLimit start ss D := by
  refine hl.mono (fun x => h.directory) fun x target hx => ?_
  rw [h.kept, hx]
  exact fun hp => clear_of_free hfree x hp target hx

theorem clear_concat (hd : ∀ q, Passes D ns q → t.get? q = some .directory)
    (hn : t.Free (D ++ (ns ++ [n]))) : t.Clear D (ns ++ [n]) := by
  apply clear_of_free
  intro q hq
  rcases passes_concat.mp hq with hq | rfl
  · exact .inr (hd q hq)
  · exact hn

theorem short_concat : Short ((ns ++ [n]).map Step.name) ↔
    Short (ns.map Step.name) ∧ isShort (.name n) = true := by
  rw [List.map_append, short_append]
  simp [Short]

def Digs (t : FileTree) (D : Place) (ns : List String) (o : Outcome FileTree FileError Unit) :
    Prop :=
  (¬Short (ns.map Step.name) ∧ o.result = .error .nameTooLong) ∨
    (Short (ns.map Step.name) ∧ o.result = .ok () ∧ Dug t D ns o.state)

theorem Dug.digs {ms : List String} {o : Outcome FileTree FileError Unit} (h : Dug t D ns u)
    (ho : Digs u D ms o) (hp : ns <+: ms) : Digs t D ms o :=
  ho.imp_right fun ho => ⟨ho.1, ho.2.1, h.trans ho.2.2 hp⟩

theorem dug_put (hd : ∀ q, Passes D ns q → t.get? q = some .directory)
    (hn : t.get? (D ++ (ns ++ [n])) = none) :
    Dug t D (ns ++ [n]) (t.put (D ++ (ns ++ [n])) .directory) := by
  have hput := get?_put t (ne_nil_of_none hn) .directory
  refine ⟨rfl, rfl, fun q hq => ?_, fun q hq => ?_⟩
  · rw [hput]
    split
    · rfl
    · next hne => exact hd q ((passes_concat.mp hq).resolve_right hne)
  · rw [hput, if_neg fun he => hq (passes_concat.mpr (.inr he))]

theorem attempt_names (h : t.Leads linkLimit start ss D) (hs : Short (ns.map Step.name))
    (hd : ∀ q, Passes D ns q → t.get? q = some .directory) (hn : t.Free (D ++ (ns ++ [n]))) :
    Digs t D (ns ++ [n]) (attempt start (ss ++ (ns ++ [n]).map Step.name) t) := by
  have hc := clear_concat hd hn
  have hr : t.reach D (ns.map Step.name) = .ok (D ++ ns, .directory) := by
    rw [reach_of_directories hs (forall_stations h.directory hd), arrival_names]
  have hdown := (reach_ok hr).2
  have hcreate : t.createDir start (ss ++ (ns ++ [n]).map Step.name) = t.makeIn (D ++ ns) n := by
    rw [h.createDir_names (hc.of_isPrefix (List.prefix_append _ _)), hr]
  have hreach : t.reach D ((ns ++ [n]).map Step.name) = t.reach (D ++ ns) [.name n] := by
    rw [List.map_append, List.map_singleton, reach_append, hr]
  rw [makeIn, List.append_assoc] at hcreate
  rw [Digs, short_concat]
  cases hshort : isShort (.name n) with
  | false =>
    have hl : t.leadsToDirectory start (ss ++ (ns ++ [n]).map Step.name) = false := by
      rw [leadsToDirectory, h.follow_names hc, hreach]
      simp [reach_cons, hdown, hshort]
    rw [if_neg (by simp [hshort])] at hcreate
    left
    rw [attempt_of_error hcreate hl]
    exact ⟨by simp, rfl⟩
  | true =>
    right
    refine ⟨⟨hs, rfl⟩, ?_⟩
    unfold attempt
    rw [hcreate, if_pos hshort]
    rcases hn with hn | hn
    · simp only [hn, true_and]
      exact dug_put hd hn
    · have hat : t.get? (step (D ++ ns) (.name n)) = some .directory := by
        rwa [step, List.append_assoc]
      have hl : t.leadsToDirectory start (ss ++ (ns ++ [n]).map Step.name) = true := by
        rw [leadsToDirectory, h.follow_names hc, hreach, reach_singleton hdown hshort hat]
      simp only [hn, if_true, Job.ask, hl, true_and]
      apply Dug.refl
      intro q hq
      rcases passes_concat.mp hq with hq | rfl
      · exact hd q hq
      · exact hn

theorem createChain_there (h : t.Leads linkLimit start ss D) {xs : List (List Step)}
    (hxs : ∀ x ∈ xs, x <+: ss) :
    (createChain start xs t).result = .ok () ∧ (createChain start xs t).state = t := by
  cases xs with
  | nil => exact ⟨rfl, rfl⟩
  | cons x above =>
    obtain ⟨rest, hrest⟩ := hxs x (.head _)
    rw [← hrest] at h
    obtain ⟨r, hr⟩ := h.of_append
    rw [createChain_of_ne _ (by simp [hr.createDir]), hr.attempt]
    exact ⟨rfl, rfl⟩

theorem passedBy_concat (ss : List Step) (ns : List String) (n : String) :
    Path.passedBy (ss ++ (ns ++ [n]).map Step.name).reverse =
      (ss ++ (ns ++ [n]).map Step.name) :: Path.passedBy (ss ++ ns.map Step.name).reverse := by
  rw [List.map_append, List.map_singleton, ← List.append_assoc, List.reverse_append]
  simp [Path.passedBy]

theorem createChain_names (h : t.Leads linkLimit start ss D)
    (hfree : ∀ q, Passes D ns q → t.Free q) :
    Digs t D ns (createChain start (Path.passedBy (ss ++ ns.map Step.name).reverse) t) := by
  induction ns using List.reverseRecOn with
  | nil =>
    right
    have hpassed : ∀ x ∈ Path.passedBy ss.reverse, x <+: ss := fun x hx => by
      simpa using isPrefix_of_mem_passedBy hx
    have hthere := createChain_there h hpassed
    rw [List.map_nil, List.append_nil]
    refine ⟨by simp [Short], hthere.1, ?_⟩
    rw [hthere.2]
    exact Dug.refl fun q hq => absurd hq not_passes_nil
  | append_singleton ns n ih =>
    have hbefore (q : Place) (hq : Passes D ns q) : t.Free q :=
      hfree q (passes_concat.mpr (.inl hq))
    have hn : t.Free (D ++ (ns ++ [n])) := hfree _ (passes_concat.mpr (.inr rfl))
    have hcreate := h.createDir_names (clear_of_free hbefore) n
    rw [passedBy_concat]
    rcases reach_free (forall_stations (.inr h.directory) hbefore) with hr | ⟨hr, -⟩ | ⟨hr, hd⟩
    · -- a name before the last is too long
      rw [hr] at hcreate
      have hl : t.leadsToDirectory start (ss ++ (ns ++ [n]).map Step.name) = false := by
        rw [leadsToDirectory, h.follow_names (clear_of_free hfree), List.map_append,
          reach_append_of_error hr]
      left
      rw [createChain_of_ne _ (by rw [hcreate]; simp), attempt_of_error hcreate hl, short_concat]
      exact ⟨fun hs => not_short_of_reach hr hs.1, rfl⟩
    · -- something is missing, and is made first
      rw [hr] at hcreate
      rw [createChain_of_notFound _ hcreate]
      rcases ih hbefore with ⟨hs, he⟩ | ⟨hs, hok, hu⟩
      · rw [Job.bind_eq_of_error he]
        exact .inl ⟨fun h => hs (short_concat.mp h).1, rfl⟩
      · rw [Job.bind_eq_of_ok hok]
        generalize (createChain start (Path.passedBy (ss ++ ns.map Step.name).reverse) t).state = u
          at hu
        exact hu.digs (attempt_names (hu.leads h hbefore) hs hu.made (hu.free hn))
          (List.prefix_append _ _)
    · -- all but the last is there
      rw [createChain_of_ne]
      · exact attempt_names h (isShort_of_reach hr)
          (fun q hq => hd q (mem_stations_iff.mpr (.inr hq))) hn
      · rw [hcreate, hr]
        simp only [makeIn]
        split
        · split <;> simp
        · simp

/-! ### Paths that can be used -/

def Writable (p : Path) : Prop := Fits p ∧ '\x00' ∉ p.text.toList

instance (p : Path) : Decidable (Writable p) := inferInstanceAs (Decidable (_ ∧ _))

def OfPath (e : FileError) : Prop := e = .nameTooLong ∨ e = .zeroInName

theorem Writable.of_before {p q : Path} {S : List Step} (h : p.Before q S)
    (hs : p.steps <+: q.steps) (hq : Writable q) : Writable p := by
  obtain ⟨⟨hsize, hshort⟩, hz⟩ := hq
  refine ⟨⟨Nat.le_trans h.size hsize, fun s hm => hshort s (hs.subset hm)⟩, ?_⟩
  exact fun hc => hz (h.text.subset hc)

theorem not_writable_of_route {p : Path} (ht : p.text ≠ "") (hd : t.Departs p) {e : FileError}
    (h : t.route p = .error e) : ¬Writable p ∧ OfPath e := by
  rcases route_error ht h with ⟨rfl, hz⟩ | ⟨rfl, hs⟩ | ⟨-, hn⟩
  · exact ⟨fun hw => hw.2 hz, .inr rfl⟩
  · exact ⟨fun hw => absurd hs (Nat.not_lt.mpr hw.1.1), .inl rfl⟩
  · exact absurd hd hn

theorem writable_iff_of_route {p : Path} {x : Place × List Step} (h : t.route p = .ok x) :
    Writable p ↔ Short p.way := by
  unfold route at h
  split at h
  · cases h
  next hz =>
    split at h
    · cases h
    split at h
    · cases h
    next hs =>
      have hz : '\x00' ∉ p.text.toList := by simpa using hz
      rw [Writable, Fits, short_way]
      exact ⟨fun hw => hw.1.2, fun hw => ⟨⟨Nat.le_of_not_lt hs, hw⟩, hz⟩⟩

theorem text_ne_of_way {p : Path} (h : p.way ≠ []) : p.text ≠ "" := by
  intro he
  have hs : p.steps = [] := by
    rw [Path.steps, Path.pieces_of_empty he]
    rfl
  exact h (List.suffix_nil.mp (hs ▸ p.way_suffix))

theorem createDirAll_names (h : t.Leads linkLimit start ss D) {p : Path} (hns : ns ≠ [])
    (hp : p.way = ss ++ ns.map Step.name) (hdep : t.Departs p) (ho : t.start p = start)
    (hfree : ∀ q, Passes D ns q → t.Free q) :
    (¬Writable p ∧ ∃ e, (createDirAll p t).result = .error e ∧ OfPath e) ∨
    (Writable p ∧ (createDirAll p t).result = .ok () ∧ Dug t D ns (createDirAll p t).state) := by
  have ht : p.text ≠ "" := text_ne_of_way (by simp [hp, hns])
  cases hr : t.route p with
  | error e =>
    obtain ⟨hw, he⟩ := not_writable_of_route ht hdep hr
    exact .inl ⟨hw, e, (createDirAll_of_error ht hr).1, he⟩
  | ok x =>
    have hw : Writable p ↔ Short (ns.map Step.name) := by
      rw [writable_iff_of_route hr, hp, short_append]
      exact and_iff_right h.short
    obtain ⟨-, rfl⟩ := route_ok hr
    obtain ⟨hresult, hstate⟩ := createDirAll_of_route ht hr
    have hchain : p.way :: Path.aboveSteps p.way =
        Path.passedBy (ss ++ ns.map Step.name).reverse := by
      rcases List.eq_nil_or_concat ns with rfl | ⟨before, n, rfl⟩
      · exact absurd rfl hns
      · rw [hp, List.concat_eq_append, List.map_append, List.map_singleton, ← List.append_assoc,
          passedBy_name]
    rw [hchain, ho] at hresult hstate
    rw [hw, hresult, hstate]
    rcases createChain_names h hfree with ⟨hs, he⟩ | ⟨hs, hok, hd⟩
    · exact .inl ⟨hs, _, he, .inl rfl⟩
    · exact .inr ⟨hs, hok, hd⟩

theorem writeFile_names (h : t.Leads linkLimit start ss D) {p : Path} (hp : p.EndsInName)
    (hsteps : p.way = ss ++ (ns ++ [n]).map Step.name) (hdep : t.Departs p)
    (ho : t.start p = start)
    (hd : ∀ q, Passes D ns q → t.get? q = some .directory)
    (hn : t.get? (D ++ (ns ++ [n])) = none) (c : Content) :
    (¬Writable p ∧ ∃ e, t.writeFile p c = .error e ∧ OfPath e) ∨
    (Writable p ∧ t.writeFile p c = .ok (t.put (D ++ (ns ++ [n])) (.file c .plain))) := by
  rw [h.writeFile_names (clear_concat hd (.inl hn)) hp hsteps ho]
  cases hr : t.route p with
  | error e =>
    obtain ⟨hw, he⟩ := not_writable_of_route hp.text_ne hdep hr
    exact .inl ⟨hw, e, rfl, he⟩
  | ok x =>
    have hw : Writable p ↔ Short (ns.map Step.name) ∧ isShort (.name n) = true := by
      rw [writable_iff_of_route hr, hsteps, short_append, short_concat, and_iff_right h.short]
    rw [ok_bind, hw]
    have hstations : ∀ q ∈ stations D (ns.map Step.name), t.get? q = some .directory :=
      forall_stations h.directory hd
    rcases reach_free fun q hq => .inr (hstations q hq) with hr | ⟨-, q, hq, hnone⟩ | ⟨hr, -⟩
    · rw [hr]
      exact .inl ⟨fun hs => not_short_of_reach hr hs.1, _, rfl, .inl rfl⟩
    · exact absurd (hnone.symm.trans (hstations q hq)) (by simp)
    · rw [hr]
      cases hs : isShort (.name n) with
      | false => exact .inl ⟨by simp, .nameTooLong, rfl, .inl rfl⟩
      | true =>
        right
        refine ⟨⟨isShort_of_reach hr, rfl⟩, ?_⟩
        simp only [if_true, arrival_names, List.append_assoc]
        rw [fillFile]
        split
        · next hx => exact absurd (hn.symm.trans hx) (by simp)
        · next hx => exact absurd (hn.symm.trans hx) (by simp)
        · next hx => exact absurd (hn.symm.trans hx) (by simp)
        · rfl

end Digging

end NativeUi.FileTree
