import NativeUi.Proofs.FileTree.Plain

/-!
# Changes of trees of files and directories

Creating a directory with those above it makes a directory of every place that the path passes, and
changes nothing else. A file is put into a directory, and a directory is taken out with all that
stands below it.
-/
namespace NativeUi.FileTree

open NativeUi.Path (Step)

variable {t u : FileTree}

theorem get?_put (t : FileTree) {p : Place} (hp : p ≠ []) (e : Entry) (q : Place) :
    (t.put p e).get? q = if q = p then some e else t.get? q := by
  split
  · next h => rw [h, get?_put_self t hp]
  · next h => exact get?_put_ne t h e

theorem Closed.put (ht : t.Closed) {p : Place} {n : String} (hp : t.get? p = some .directory)
    (hn : t.get? (p ++ [n]) = none) (e : Entry) : (t.put (p ++ [n]) e).Closed := by
  have ho : p ++ [n] ≠ [] := by simp
  intro q m e' h
  rw [get?_put t ho] at h ⊢
  have hd : t.get? q = some .directory := by
    split at h
    · next heq =>
      obtain ⟨rfl, -⟩ := List.append_inj' heq rfl
      exact hp
    · exact ht q m e' h
  rw [if_neg (fun hq => by rw [← hq, hd] at hn; cases hn), hd]

theorem get?_prune_of_ne (t : FileTree) {p : Place} (hp : p ≠ []) (q : Place) :
    (t.prune p).get? q = if p <+: q then none else t.get? q := by
  by_cases hq : q = []
  · subst hq
    rw [if_neg fun h => hp (List.prefix_nil.mp h)]
    rfl
  · rw [get?_prune t p hq]
    simp [List.isPrefixOf_iff_prefix]

theorem Closed.prune (ht : t.Closed) {p : Place} (hp : p ≠ []) : (t.prune p).Closed := by
  intro q n e h
  rw [get?_prune_of_ne t hp] at h ⊢
  split at h
  · cases h
  · next hn =>
    rw [if_neg fun hq => hn (hq.trans (List.prefix_append q [n]))]
    exact ht q n e h

theorem get?_clear_eq (t : FileTree) (p q : Place) :
    (t.clear p).get? q = if q ≠ p ∧ p <+: q then none else t.get? q := by
  by_cases hq : q = []
  · subst hq
    rw [if_neg fun h => h.1 (List.prefix_nil.mp h.2).symm]
    rfl
  · rw [get?_clear t p hq]
    simp only [List.isPrefixOf_iff_prefix]

theorem Closed.clear (ht : t.Closed) (p : Place) : (t.clear p).Closed := by
  intro q n e h
  rw [get?_clear_eq] at h ⊢
  split at h
  · cases h
  · next hn =>
    rw [if_neg fun hq => hn ⟨?_, hq.2.trans (List.prefix_append q [n])⟩]
    · exact ht q n e h
    · rintro rfl
      have hlen := hq.2.length_le
      rw [List.length_append, List.length_singleton] at hlen
      omega

structure Laid (t u : FileTree) (dirs : List Place) : Prop where
  closed : u.Closed
  base : u.base = t.base
  lost : u.lost = t.lost
  made : ∀ q ∈ dirs, u.get? q = some .directory
  kept : ∀ q, q ∉ dirs → u.get? q = t.get? q

theorem Laid.of_directories (ht : t.Closed) {dirs : List Place}
    (h : ∀ q ∈ dirs, t.get? q = some .directory) : Laid t t dirs :=
  ⟨ht, rfl, rfl, h, fun _ _ => rfl⟩

theorem Laid.trans {v : FileTree} {ds es : List Place} (h : Laid t u ds) (h' : Laid u v es)
    (hs : ∀ q ∈ ds, q ∈ es) : Laid t v es where
  closed := h'.closed
  base := h'.base.trans h.base
  lost := h'.lost.trans h.lost
  made := h'.made
  kept q hq := (h'.kept q hq).trans (h.kept q fun hd => hq (hs q hd))

theorem Laid.congr {ds es : List Place} (h : Laid t u ds) (hm : ∀ q, q ∈ es ↔ q ∈ ds) :
    Laid t u es where
  closed := h.closed
  base := h.base
  lost := h.lost
  made q hq := h.made q ((hm q).mp hq)
  kept q hq := h.kept q (mt (hm q).mpr hq)

theorem Laid.free {ds : List Place} (h : Laid t u ds) {q : Place} (hq : t.Free q) : u.Free q := by
  by_cases hd : q ∈ ds
  · exact .inr (h.made q hd)
  · rw [Free, h.kept q hd]
    exact hq

/-! ### Making directories -/

theorem enclosing_eq {start : Place} {ss : List Step} (hl : t.Unlinked (stations start ss))
    (s : Step) :
    t.enclosing start (ss ++ [s]) =
      match t.reach start ss with
      | .error e => .error e
      | .ok (p, .directory) => .ok p
      | .ok _ => .error .notADirectory := by
  rw [enclosing, List.dropLast_concat, follow_eq_reach hl]
  cases hr : t.reach start ss with
  | error e => rw [error_bind]
  | ok x =>
    obtain ⟨p, e⟩ := x
    cases e with
    | file c r => rfl
    | directory => rfl
    | link l =>
      obtain ⟨rfl, hp⟩ := reach_ok hr
      exact absurd hp (hl _ (arrival_mem_stations start ss) l)

theorem reach_singleton {p : Place} (hp : t.get? p = some .directory) {s : Step}
    (hs : isShort s = true) {e : Entry} (he : t.get? (step p s) = some e) :
    t.reach p [s] = .ok (step p s, e) := by
  simp [reach_cons, reach_nil, hp, hs, he]

theorem Closed.laid_put (ht : t.Closed) {start : Place} {ss : List Step} {n : String}
    (hd : ∀ q ∈ stations start ss, t.get? q = some .directory)
    (hn : t.get? (step (arrival start ss) (.name n)) = none) :
    Laid t (t.put (step (arrival start ss) (.name n)) .directory)
      (stations start (ss ++ [.name n])) := by
  have hp := hd _ (arrival_mem_stations start ss)
  have hput := get?_put t (ne_nil_of_none hn) .directory
  refine ⟨ht.put hp hn .directory, rfl, rfl, fun q hq => ?_, fun q hq => ?_⟩
  · rw [hput]
    split
    · rfl
    · next hne => exact hd q ((mem_stations_concat.mp hq).resolve_right hne)
  · rw [hput, if_neg fun he => hq (mem_stations_concat.mpr (.inr he))]

/-- Making a directory below places that are directories or missing: a name is too long, or the
directory around the new one is missing, or the new one is there already, or it is made. -/
theorem Closed.createDir_cases (ht : t.Closed) {start : Place} {ss : List Step} {s : Step}
    (h : ∀ q ∈ stations start (ss ++ [s]), t.Free q) :
    (t.createDir start (ss ++ [s]) = .error .nameTooLong ∧
      t.reach start (ss ++ [s]) = .error .nameTooLong) ∨
    (t.createDir start (ss ++ [s]) = .error .notFound ∧
      ∃ q ∈ stations start ss, t.get? q = none) ∨
    (t.createDir start (ss ++ [s]) = .error .alreadyExists ∧
      t.reach start (ss ++ [s]) = .ok (arrival start (ss ++ [s]), .directory)) ∨
    ∃ u, t.createDir start (ss ++ [s]) = .ok u ∧ Short (ss ++ [s]) ∧
      Laid t u (stations start (ss ++ [s])) := by
  have hbefore (q : Place) (hq : q ∈ stations start ss) : t.Free q :=
    h q (mem_stations_concat.mpr (.inl hq))
  rw [createDir, enclosing_eq (unlinked_of_free hbefore), reach_append, List.getLast?_concat,
    arrival_append]
  rcases reach_free hbefore with hr | ⟨hr, hq⟩ | ⟨hr, hd⟩
  · left
    simp [hr]
  · right; left
    simpa [hr] using hq
  · have hp := hd _ (arrival_mem_stations start ss)
    simp only [hr, ok_bind]
    cases s with
    | here =>
      right; right; left
      exact ⟨rfl, reach_singleton hp rfl hp⟩
    | up =>
      right; right; left
      exact ⟨rfl, reach_singleton hp rfl (ht.get?_above hp)⟩
    | name n =>
      simp only [child_eq]
      cases hs : isShort (.name n) with
      | false =>
        left
        simp [reach_cons, hp, hs]
      | true =>
        simp only [if_true, ok_bind]
        rcases h _ (mem_stations_concat.mpr (.inr rfl)) with hn | hn
        · right; right; right
          have hshort : Short [.name n] := by simpa [Short] using hs
          exact ⟨_, by rw [hn], short_append.mpr ⟨isShort_of_reach hr, hshort⟩, ht.laid_put hd hn⟩
        · right; right; left
          exact ⟨by rw [hn], reach_singleton hp hs hn⟩

theorem Closed.createDir_ne_notFound (ht : t.Closed) {start : Place} {ss : List Step} {s : Step}
    (h : ∀ q ∈ stations start (ss ++ [s]), t.Free q)
    (hd : ∀ q ∈ stations start ss, t.get? q = some .directory) :
    t.createDir start (ss ++ [s]) ≠ .error .notFound := by
  rcases ht.createDir_cases h with ⟨hc, -⟩ | ⟨-, q, hq, hn⟩ | ⟨hc, -⟩ | ⟨u, hc, -⟩
  · simp [hc]
  · simp [hd q hq] at hn
  · simp [hc]
  · simp [hc]

def Makes (t : FileTree) (fits : Prop) (dirs : List Place) (o : Outcome FileTree FileError Unit) :
    Prop :=
  (¬fits ∧ o.result = .error .nameTooLong ∧ ∀ q, q ∉ dirs → o.state.get? q = t.get? q) ∨
    (fits ∧ o.result = .ok () ∧ Laid t o.state dirs)

theorem Makes.congr {fits fits' : Prop} {dirs dirs' : List Place}
    {o : Outcome FileTree FileError Unit} (h : Makes t fits dirs o) (hf : fits ↔ fits')
    (hm : ∀ q, q ∈ dirs' ↔ q ∈ dirs) : Makes t fits' dirs' o := by
  rcases h with ⟨hs, hn, hk⟩ | ⟨hs, hok, hu⟩
  · exact .inl ⟨mt hf.mpr hs, hn, fun q hq => hk q (mt (hm q).mpr hq)⟩
  · exact .inr ⟨hf.mp hs, hok, hu.congr hm⟩

def attempt (start : Place) (ss : List Step) : Job FileTree FileError Unit := fun t =>
  match t.createDir start ss with
  | .ok u => ⟨[], .ok (), u⟩
  | .error e => Job.ask (fun t => if t.leadsToDirectory start ss then .ok () else .error e) t

theorem createChain_of_notFound {start : Place} {ss : List Step} (above : List (List Step))
    (h : t.createDir start ss = .error .notFound) :
    createChain start (ss :: above) t =
      Job.bind (createChain start above) (fun _ => attempt start ss) t := by
  simp only [createChain, h]
  rfl

theorem createChain_of_ne {start : Place} {ss : List Step} (above : List (List Step))
    (h : t.createDir start ss ≠ .error .notFound) :
    createChain start (ss :: above) t = attempt start ss t := by
  cases hc : t.createDir start ss with
  | ok u => simp only [createChain, attempt, hc]
  | error e =>
    cases e with
    | notFound => exact absurd hc h
    | _ => simp only [createChain, attempt, hc]

theorem Closed.attempt_makes (ht : t.Closed) {start : Place} {ss : List Step} {s : Step}
    (h : ∀ q ∈ stations start (ss ++ [s]), t.Free q)
    (hne : t.createDir start (ss ++ [s]) ≠ .error .notFound) :
    Makes t (Short (ss ++ [s])) (stations start (ss ++ [s])) (attempt start (ss ++ [s]) t) := by
  unfold attempt Makes
  rcases ht.createDir_cases h with ⟨hc, hr⟩ | ⟨hc, -⟩ | ⟨hc, hr⟩ | ⟨u, hc, hs, hu⟩
  · have hl : t.leadsToDirectory start (ss ++ [s]) = false := by
      rw [leadsToDirectory, follow_eq_reach (unlinked_of_free h), hr]
    left
    simp [hc, Job.ask, hl, not_short_of_reach hr]
  · exact absurd hc hne
  · have hl : t.leadsToDirectory start (ss ++ [s]) = true := by
      rw [leadsToDirectory, follow_eq_reach (unlinked_of_free h), hr]
    right
    simp only [hc, Job.ask, hl, if_true, true_and]
    exact ⟨isShort_of_reach hr, .of_directories ht (directory_of_reach hr)⟩
  · right
    simpa [hc] using ⟨hs, hu⟩

theorem Makes.bind_attempt {start : Place} {ss : List Step} {s : Step}
    {job : Job FileTree FileError Unit} (hj : Makes t (Short ss) (stations start ss) (job t))
    (h : ∀ q ∈ stations start (ss ++ [s]), t.Free q) :
    Makes t (Short (ss ++ [s])) (stations start (ss ++ [s]))
      (Job.bind job (fun _ => attempt start (ss ++ [s])) t) := by
  have hsub (q : Place) (hq : q ∈ stations start ss) : q ∈ stations start (ss ++ [s]) :=
    mem_stations_concat.mpr (.inl hq)
  rcases hj with ⟨hs, hn, hk⟩ | ⟨-, hok, hu⟩
  · left
    rw [Job.bind_eq_of_error hn]
    exact ⟨fun h => hs (short_append.mp h).1, rfl, fun q hq => hk q (mt (hsub q) hq)⟩
  · rw [Job.bind_eq_of_ok hok]
    generalize (job t).state = u at hu
    have hfree (q : Place) (hq : q ∈ stations start (ss ++ [s])) : u.Free q := hu.free (h q hq)
    have hne := hu.closed.createDir_ne_notFound hfree hu.made
    rcases hu.closed.attempt_makes hfree hne with ⟨hs, hn, hk⟩ | ⟨hs, hok, hv⟩
    · exact .inl ⟨hs, hn, fun q hq => (hk q hq).trans (hu.kept q (mt (hsub q) hq))⟩
    · exact .inr ⟨hs, hok, hu.trans hv hsub⟩

/-- The directories that some steps pass are made from the start on. The steps are reversed. -/
theorem Closed.createChain_makes (ht : t.Closed) {start : Place}
    (hstart : t.get? start = some .directory) (rs : List Step)
    (h : ∀ q ∈ stations start rs.reverse, t.Free q) :
    Makes t (Short rs.reverse) (stations start rs.reverse)
      (createChain start (Path.passedBy rs) t) := by
  induction rs with
  | nil =>
    exact .inr ⟨by simp [Short], rfl, .of_directories ht (by simpa [stations_nil] using hstart)⟩
  | cons s before ih =>
    rw [List.reverse_cons] at h ⊢
    specialize ih fun q hq => h q (mem_stations_concat.mpr (.inl hq))
    rw [Path.passedBy]
    split
    · next hs =>
      -- a dot passes no place of its own
      obtain ⟨rfl, -⟩ : s = .here ∧ _ := by simpa using hs
      have hshort : Short before.reverse ↔ Short (before.reverse ++ [.here]) := by
        rw [short_append]
        exact ⟨fun h => ⟨h, by simp [Short, isShort]⟩, And.left⟩
      refine ih.congr hshort fun q => ?_
      rw [mem_stations_concat, or_iff_left_of_imp]
      rintro rfl
      exact arrival_mem_stations start before.reverse
    · rw [List.reverse_cons]
      by_cases hc : t.createDir start (before.reverse ++ [s]) = .error .notFound
      · rw [createChain_of_notFound _ hc]
        exact ih.bind_attempt h
      · rw [createChain_of_ne _ hc]
        exact ht.attempt_makes h hc

theorem createDirAll_of_error {p : Path} (ht : p.text ≠ "") {e : FileError}
    (hr : t.route p = .error e) :
    (createDirAll p t).result = .error e ∧ (createDirAll p t).state = t := by
  have ha : (Job.ask (fun t => t.route p) t : Outcome FileTree FileError _).result = .error e := hr
  rw [createDirAll, if_neg (by simpa using ht)]
  exact ⟨congrArg Outcome.result (Job.bind_eq_of_error ha _),
    congrArg Outcome.state (Job.bind_eq_of_error ha _)⟩

theorem createDirAll_of_route {p : Path} (ht : p.text ≠ "") {x : Place × List Step}
    (hr : t.route p = .ok x) :
    (createDirAll p t).result = (createChain x.1 (x.2 :: Path.aboveSteps x.2) t).result ∧
      (createDirAll p t).state = (createChain x.1 (x.2 :: Path.aboveSteps x.2) t).state := by
  have ha : (Job.ask (fun t => t.route p) t : Outcome FileTree FileError _).result = .ok x := hr
  rw [createDirAll, if_neg (by simpa using ht)]
  exact ⟨congrArg Outcome.result (Job.bind_eq_of_ok ha _),
    congrArg Outcome.state (Job.bind_eq_of_ok ha _)⟩

theorem passedBy_name (ss : List Step) (n : String) :
    (ss ++ [Step.name n]) :: Path.aboveSteps (ss ++ [Step.name n]) =
      Path.passedBy (ss ++ [Step.name n]).reverse := by
  rw [Path.aboveSteps, List.reverse_append]
  simp [Path.trimSteps, Path.passedBy]

theorem createDirAll_eq {p : Path} (hp : p.EndsInName) (hz : '\x00' ∉ p.text.toList)
    (hs : p.text.utf8ByteSize ≤ pathLimit) (hd : t.Departs p) :
    (createDirAll p t).result =
        (createChain (t.start p) (Path.passedBy p.way.reverse) t).result ∧
      (createDirAll p t).state =
        (createChain (t.start p) (Path.passedBy p.way.reverse) t).state := by
  have hr : t.route p = .ok (t.start p, p.way) := by
    rw [route_eq hp hz, if_neg (Nat.not_lt.mpr hs), if_pos hd]
  obtain ⟨ss, n, hss⟩ := hp.way
  have hc := createDirAll_of_route hp.text_ne hr
  rwa [hss, passedBy_name, ← hss] at hc

theorem createDirAll_tooLong {p : Path} (hp : p.EndsInName) (hz : '\x00' ∉ p.text.toList)
    (hs : pathLimit < p.text.utf8ByteSize) :
    (createDirAll p t).result = .error .nameTooLong ∧ (createDirAll p t).state = t :=
  createDirAll_of_error hp.text_ne ((route_eq hp hz).trans (if_pos hs))

theorem createDirAll_lost {p : Path} (hp : p.EndsInName) (hz : '\x00' ∉ p.text.toList)
    (hd : ¬t.Departs p) :
    ∃ e, (createDirAll p t).result = .error e ∧ (createDirAll p t).state = t := by
  have hr := route_eq (t := t) hp hz
  rw [if_neg hd] at hr
  split at hr
  · exact ⟨_, createDirAll_of_error hp.text_ne hr⟩
  · exact ⟨_, createDirAll_of_error hp.text_ne hr⟩

theorem Closed.createDirAll_makes (ht : t.Closed) {p : Path} (hp : p.EndsInName)
    (hz : '\x00' ∉ p.text.toList) (hd : t.Departs p)
    (hstart : t.get? (t.start p) = some .directory) (h : ∀ q ∈ t.passed p, t.Free q) :
    Makes t (Fits p) (t.passed p) (createDirAll p t) := by
  by_cases hs : p.text.utf8ByteSize ≤ pathLimit
  · have hc := ht.createChain_makes hstart p.way.reverse (by rwa [List.reverse_reverse])
    rw [List.reverse_reverse] at hc
    rw [Makes, (createDirAll_eq hp hz hs hd).1, (createDirAll_eq hp hz hs hd).2]
    exact hc.congr (by simp [Fits, hs, short_way]) fun _ => .rfl
  · obtain ⟨hr, hu⟩ := createDirAll_tooLong (t := t) hp hz (Nat.lt_of_not_le hs)
    exact .inl ⟨fun h => hs h.1, hr, fun q _ => by rw [hu]⟩

theorem createDirAll_blocked {p : Path} (hl : t.Unlinked (t.passed p)) (hp : p.EndsInName)
    (hz : '\x00' ∉ p.text.toList) (hs : p.text.utf8ByteSize ≤ pathLimit) (hd : t.Departs p)
    (h : t.reach (t.start p) p.way = .error .notADirectory) :
    (createDirAll p t).result = .error .notADirectory ∧ (createDirAll p t).state = t := by
  obtain ⟨ss, n, hss⟩ := hp.way
  have hl' : t.Unlinked (stations (t.start p) ss) := by
    intro q hq
    refine hl q ?_
    rw [passed, hss]
    exact mem_stations_concat.mpr (.inl hq)
  have he : t.enclosing (t.start p) p.way = .error .notADirectory := by
    rw [hss, enclosing_eq hl']
    rw [hss, reach_append] at h
    cases hr : t.reach (t.start p) ss with
    | error e =>
      rw [hr] at h
      rw [Except.error.inj h]
    | ok x =>
      obtain ⟨q, e⟩ := x
      rw [hr] at h
      cases e with
      | file c r => rfl
      | link l => rfl
      | directory =>
        simp only [reach_cons, reach_nil, (reach_ok hr).2] at h
        split at h
        · split at h <;> cases h
        · cases h
  have hc : t.createDir (t.start p) p.way = .error .notADirectory := by
    rw [createDir, he, error_bind]
  have hleads : t.leadsToDirectory (t.start p) p.way = false := by
    rw [leadsToDirectory, follow_eq_reach hl, h]
  have hpassed : Path.passedBy p.way.reverse = p.way :: Path.passedBy ss.reverse := by
    rw [hss, List.reverse_append]
    simp [Path.passedBy]
  rw [(createDirAll_eq hp hz hs hd).1, (createDirAll_eq hp hz hs hd).2, hpassed,
    createChain_of_ne _ (by simp [hc])]
  simp [attempt, hc, Job.ask, hleads]

/-! ### Removing and writing -/

/-- The tree after a directory has been removed by its path. The directory itself may still be
there. -/
structure Removed (t : FileTree) (p : Path) (u : FileTree) : Prop where
  closed : u.Closed
  base : u.base = t.base
  departs : u.Departs p ↔ ¬t.StartsBelow p
  start : ¬t.StartsBelow p → u.get? (t.start p) = some .directory
  free : u.Free (t.target p)
  bare : ∀ r, r ≠ [] → u.get? (t.target p ++ r) = none
  kept : ∀ q, ¬t.target p <+: q → u.get? q = t.get? q

theorem Closed.removed_clear (ht : t.Closed) {p : Path} (hd : t.Departs p)
    (hstart : t.get? (t.start p) = some .directory)
    (h : t.get? (t.target p) = some .directory) : Removed t p (t.clear (t.target p)) := by
  have hself : (t.clear (t.target p)).get? (t.target p) = some .directory := by
    rw [get?_clear_eq, if_neg fun hx => hx.1 rfl, h]
  refine ⟨ht.clear _, rfl, hd.clear_iff, fun hb => ?_, .inr hself, fun r hr => ?_,
    fun q hq => ?_⟩
  · rw [get?_clear_eq, if_neg fun hx => hb ⟨hx.2, hx.1.symm⟩, hstart]
  · rw [get?_clear_eq, if_pos ⟨by simpa using hr, List.prefix_append _ r⟩]
  · rw [get?_clear_eq, if_neg fun hx => hq hx.2]

theorem Closed.removed_prune (ht : t.Closed) {p : Path} (hd : t.Departs p)
    (hstart : t.get? (t.start p) = some .directory) (hne : t.target p ≠ [])
    (hout : ¬t.target p <+: t.start p) : Removed t p (t.prune (t.target p)) := by
  have hprune := get?_prune_of_ne t hne
  refine ⟨ht.prune hne, rfl, iff_of_true (hd.prune hout) fun hb => hout hb.1, fun _ => ?_, .inl ?_,
    fun r _ => ?_, fun q hq => ?_⟩
  · rw [hprune, if_neg hout, hstart]
  · rw [hprune, if_pos (List.prefix_refl _)]
  · rw [hprune, if_pos (List.prefix_append _ r)]
  · rw [hprune, if_neg hq]

theorem not_prefix_start_of_find_clear {p : Path} (hp : p.EndsInName) (hne : t.target p ≠ [])
    (hd : t.Departs p) (hl : (t.clear (t.target p)).Unlinked (t.passed p)) {x : Place × Entry}
    (h : (t.clear (t.target p)).find p = .ok x) : ¬t.target p <+: t.start p := by
  intro hs
  obtain ⟨-, -, hd', hr⟩ := find_ok hl hp h
  -- the path starts at the place, and the first name on its way leads to what is gone
  obtain heq : t.target p = t.start p := by
    by_contra hne
    exact hd.clear_iff.mp hd' ⟨hs, hne⟩
  have ha : p.isAbsolute = false := by
    cases ha : p.isAbsolute with
    | false => rfl
    | true =>
      rw [heq, start, if_pos ha] at hne
      exact absurd rfl hne
  obtain ⟨ss, n, hway⟩ := hp.way
  obtain ⟨s, rest, hcons⟩ := List.exists_cons_of_ne_nil (l := p.way) (by simp [hway])
  obtain ⟨m, rfl⟩ : ∃ m, s = .name m := by
    rw [Path.way, ha] at hcons
    exact Path.climb_cons hcons
  have hpassed : t.start p ++ [m] ∈ stations (t.start p) p.way := by
    rw [hcons]
    exact List.mem_cons_of_mem _ (start_mem_stations _ _)
  have hgone : (t.clear (t.target p)).get? (t.start p ++ [m]) = none := by
    rw [get?_clear_eq, heq, if_pos ⟨by simp, List.prefix_append _ _⟩]
  obtain ⟨q, e⟩ := x
  rcases directory_or_end_of_reach hr _ hpassed with hdir | rfl
  · rw [hgone] at hdir
    cases hdir
  · rw [(reach_ok hr).2] at hgone
    cases hgone

theorem removeDirAll_eq {p : Path} (hl : t.Unlinked (t.passed p)) (hp : p.EndsInName) {q : Place}
    (h : t.find p = .ok (q, .directory)) :
    (t.clear q).Unlinked (t.passed p) ∧
      t.removeDirAll p =
        .ok (if ((t.clear q).find p).isOk = true then t.prune q else t.clear q) := by
  obtain ⟨hz, -, -, hr⟩ := find_ok hl hp h
  have hl' : (t.clear q).Unlinked (t.passed p) := by
    intro x hx target
    rw [get?_clear_eq]
    split
    · simp
    · simp [directory_of_reach hr x hx]
  refine ⟨hl', ?_⟩
  rw [removeDirAll, findNamed_eq hl hp hz, h, ok_bind]
  dsimp only
  rw [findNamed_eq hl' hp hz]
  cases (t.clear q).find p <;> rfl

theorem Closed.removeDirAll_directory (ht : t.Closed) {p : Path} (hl : t.Unlinked (t.passed p))
    (hp : p.EndsInName) (hne : t.target p ≠ [])
    (h : t.find p = .ok (t.target p, .directory)) :
    ∃ u, t.removeDirAll p = .ok u ∧ Removed t p u := by
  obtain ⟨-, -, hd, hr⟩ := find_ok hl hp h
  have hstart := directory_of_reach hr _ (start_mem_stations _ _)
  obtain ⟨hl', hremove⟩ := removeDirAll_eq hl hp h
  refine ⟨_, hremove, ?_⟩
  cases hf : (t.clear (t.target p)).find p with
  | error e => exact ht.removed_clear hd hstart (reach_ok hr).2
  | ok x => exact ht.removed_prune hd hstart hne (not_prefix_start_of_find_clear hp hne hd hl' hf)

theorem removeDirAll_file {p : Path} (hl : t.Unlinked (t.passed p)) (hp : p.EndsInName)
    {q : Place} {c : Content} {r : Rights} (h : t.find p = .ok (q, .file c r)) :
    t.removeDirAll p = .error .notADirectory := by
  rw [removeDirAll, findNamed_eq hl hp (find_ok hl hp h).1, h, ok_bind]

theorem landing_cases {start : Place} {ss : List Step} {n : String}
    (hd : ∀ q ∈ stations start ss, t.get? q = some .directory)
    (hl : ∀ target, t.get? (arrival start ss ++ [n]) ≠ some (.link target))
    (through : Place → Path → Except FileError Place) :
    (¬Short (ss ++ [.name n]) ∧
        t.landing through start (ss ++ [.name n]) false = .error .nameTooLong) ∨
      (Short (ss ++ [.name n]) ∧
        t.landing through start (ss ++ [.name n]) false = .ok (arrival start ss ++ [n])) := by
  have hfree (q : Place) (hq : q ∈ stations start ss) : t.Free q := .inr (hd q hq)
  rw [landing, enclosing_eq (unlinked_of_free hfree), short_append]
  rcases reach_free hfree with hr | ⟨-, q, hq, hn⟩ | ⟨hr, -⟩
  · left
    rw [hr]
    exact ⟨fun h => not_short_of_reach hr h.1, error_bind _ _⟩
  · exact absurd (hn.symm.trans (hd q hq)) (by simp)
  · rw [hr, ok_bind, List.getLast?_concat]
    simp only [child_eq]
    cases hn : isShort (.name n) with
    | false =>
      left
      exact ⟨fun h => by simpa [hn] using h.2 (.name n), rfl⟩
    | true =>
      right
      refine ⟨⟨isShort_of_reach hr, by simpa [Short] using hn⟩, ?_⟩
      simp only [if_true, ok_bind, step]

theorem writeFile_cases {p : Path} (hp : p.EndsInName) (hz : '\x00' ∉ p.text.toList)
    (hdep : t.Departs p) {ss : List Step} {n : String} (hss : p.way = ss ++ [.name n])
    (hd : ∀ q ∈ stations (t.start p) ss, t.get? q = some .directory)
    (hl : ∀ target, t.get? (t.target p) ≠ some (.link target)) (c : Content) :
    (¬Fits p ∧ t.writeFile p c = .error .nameTooLong) ∨
      (Fits p ∧ t.writeFile p c = t.fillFile .plain (t.target p) c) := by
  have hq : t.target p = arrival (t.start p) ss ++ [n] := by
    rw [target, hss, arrival_append]
    rfl
  have hdest (links : Nat) :
      (¬Short p.way ∧ t.destination links (t.start p) p.way false = .error .nameTooLong) ∨
        (Short p.way ∧ t.destination links (t.start p) p.way false = .ok (t.target p)) := by
    rw [hq] at hl ⊢
    rw [hss]
    cases links with
    | zero => exact landing_cases hd hl _
    | succ links => exact landing_cases hd hl _
  rw [writeFile, writeFileWith, route_eq hp hz, if_pos hdep, hp.endsInSlash, Fits, ← short_way]
  split
  · next hs => exact .inl ⟨fun h => absurd hs (Nat.not_lt.mpr h.1), error_bind _ _⟩
  · next hs =>
    rw [ok_bind]
    dsimp only
    rcases hdest linkLimit with ⟨hshort, h⟩ | ⟨hshort, h⟩
    · rw [h]
      exact .inl ⟨fun h => hshort h.2, error_bind _ _⟩
    · rw [h]
      exact .inr ⟨⟨Nat.le_of_not_lt hs, hshort⟩, ok_bind _ _⟩

end NativeUi.FileTree
