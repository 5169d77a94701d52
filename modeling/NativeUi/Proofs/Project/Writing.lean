import NativeUi.Proofs.FileTree.Change
import NativeUi.Proofs.Project.Files

/-!
# Writing a project

Files are written below a directory one after the other, each with the directories above it. What
the path of the directory passes is made as well, wherever it lies.
-/
namespace NativeUi

open NativeUi.FileTree

/-- Nothing stands below the place of a path, and there is room for all directories that the path
passes. -/
structure Ground (t : FileTree) (out : Path) : Prop where
  closed : t.Closed
  path : out.EndsInName
  zero : '\x00' ∉ out.text.toList
  departs : t.Departs out
  start : t.get? (t.start out) = some .directory
  free : ∀ q ∈ t.passed out, t.Free q
  bare : ∀ r, r ≠ [] → t.get? (t.target out ++ r) = none

def around (t : FileTree) (out : Path) (f : GeneratedFile) : List Place :=
  t.passed (out.joinAll f.path.pieces.dropLast)

theorem isName_of_mem_dropLast {f : GeneratedFile} (hf : f.path.IsNames) {n : String}
    (hn : n ∈ f.path.pieces.dropLast) : Path.IsName n :=
  hf n ((List.dropLast_prefix _).subset hn)

theorem isPrefix_dropLast_iff {α : Type} {r ns : List α} (hns : ns ≠ []) :
    r <+: ns.dropLast ↔ r <+: ns ∧ r ≠ ns := by
  conv => rhs; rw [← List.dropLast_concat_getLast hns]
  rw [List.prefix_concat_iff]
  constructor
  · intro h
    refine ⟨.inr h, ?_⟩
    rintro rfl
    have hl := h.length_le
    rw [List.length_append, List.length_singleton] at hl
    omega
  · rintro ⟨rfl | h, hne⟩
    · exact absurd rfl hne
    · exact h

theorem mem_around {t : FileTree} {out : Path} {f : GeneratedFile} (hf : f.path.IsNames)
    {q : Place} :
    q ∈ around t out f ↔
      q ∈ t.passed out ∨
        ∃ r, (r <+: f.path.pieces ∧ r ≠ f.path.pieces) ∧ q = t.target out ++ r := by
  have he := Path.extends_joinAll out fun n hn => isName_of_mem_dropLast hf hn
  rw [around, mem_passed_extends he]
  simp only [isPrefix_dropLast_iff f.path.pieces_ne_nil]

structure Written (t : FileTree) (out : Path) (done : List GeneratedFile) (u : FileTree) :
    Prop where
  closed : u.Closed
  base : u.base = t.base
  lost : u.lost = t.lost
  files : ∀ f ∈ done,
    u.get? (t.target out ++ f.path.pieces) = some (.file (.text f.content) .plain)
  dirs : ∀ f ∈ done, ∀ q ∈ around t out f, u.get? q = some .directory
  kept : ∀ q, (∀ f ∈ done, q ∉ around t out f ∧ q ≠ t.target out ++ f.path.pieces) →
    u.get? q = t.get? q

theorem written_nil {t : FileTree} (ht : t.Closed) (out : Path) : Written t out [] t :=
  ⟨ht, rfl, rfl, by simp, by simp, fun _ _ => rfl⟩

variable {t u : FileTree} {out : Path} {done : List GeneratedFile} {f : GeneratedFile}

theorem not_mem_around (hf : f.path.IsNames) {g : GeneratedFile}
    (hapart : ¬g.path.pieces <+: f.path.pieces)
    (hnew : t.target out ++ g.path.pieces ∉ t.passed out) :
    t.target out ++ g.path.pieces ∉ around t out f := by
  intro hq
  rcases (mem_around hf).mp hq with hq | ⟨r, hr, he⟩
  · exact hnew hq
  · exact hapart (List.append_cancel_left he ▸ hr.1)

theorem Written.not_mem_passed (hw : Written t out done u)
    (hnames : ∀ g ∈ done, g.path.IsNames) :
    ∀ g ∈ done, t.target out ++ g.path.pieces ∉ t.passed out := by
  intro g hg hp
  have hd := hw.dirs g hg _ ((mem_around (hnames g hg)).mpr (.inl hp))
  exact absurd ((hw.files g hg).symm.trans hd) (by simp)

theorem free_around (hG : Ground t out) (hw : Written t out done u) (hf : f.path.IsNames)
    (hapart : ∀ g ∈ done, ¬g.path.pieces <+: f.path.pieces)
    (hnew : ∀ g ∈ done, t.target out ++ g.path.pieces ∉ t.passed out) :
    ∀ q ∈ around t out f, u.Free q := by
  intro q hq
  by_cases hd : ∃ g ∈ done, q ∈ around t out g
  · obtain ⟨g, hg, hqg⟩ := hd
    exact .inr (hw.dirs g hg q hqg)
  · have hkept : u.get? q = t.get? q := by
      apply hw.kept
      intro g hg
      refine ⟨fun hqg => hd ⟨g, hg, hqg⟩, ?_⟩
      rintro rfl
      exact not_mem_around hf (hapart g hg) (hnew g hg) hq
    rw [Free, hkept]
    rcases (mem_around hf).mp hq with hq | ⟨r, -, rfl⟩
    · exact hG.free q hq
    · by_cases hr : r = []
      · rw [hr, List.append_nil]
        exact hG.free _ (arrival_mem_stations _ _)
      · exact .inl (hG.bare r hr)

theorem none_of_apart (hG : Ground t out) (hw : Written t out done u)
    (hnames : ∀ g ∈ done, g.path.IsNames)
    (hapart : ∀ g ∈ done, ¬f.path.pieces <+: g.path.pieces)
    (hf : t.target out ++ f.path.pieces ∉ t.passed out) :
    u.get? (t.target out ++ f.path.pieces) = none := by
  rw [hw.kept, hG.bare _ f.path.pieces_ne_nil]
  intro g hg
  refine ⟨not_mem_around (hnames g hg) (hapart g hg) hf, fun he => ?_⟩
  exact hapart g hg (List.append_cancel_left he ▸ List.prefix_refl _)

theorem Written.start (hG : Ground t out) (hw : Written t out done u)
    (hnames : ∀ g ∈ done, g.path.IsNames) : u.get? (t.start out) = some .directory := by
  cases done with
  | nil => rw [hw.kept _ (by simp), hG.start]
  | cons g done =>
    exact hw.dirs g (by simp) _ ((mem_around (hnames g (by simp))).mpr
      (.inl (start_mem_stations _ _)))

theorem Written.put (hw : Written t out done u) {v : FileTree}
    (hv : Laid u v (around t out f)) (hf : f.path.IsNames)
    (hn : v.get? (t.target out ++ f.path.pieces) = none)
    (hapart : ∀ g ∈ done, ¬g.path.pieces <+: f.path.pieces)
    (hnew : ∀ g ∈ done, t.target out ++ g.path.pieces ∉ t.passed out) :
    Written t out (done ++ [f])
      (v.put (t.target out ++ f.path.pieces) (.file (.text f.content) .plain)) := by
  have hput := get?_put v (ne_nil_of_none hn) (.file (.text f.content) .plain)
  have hsome {q : Place} {e : Entry} (hq : v.get? q = some e) :
      (v.put (t.target out ++ f.path.pieces) (.file (.text f.content) .plain)).get? q = some e := by
    rw [hput, if_neg, hq]
    rintro rfl
    rw [hn] at hq
    cases hq
  constructor
  · -- the file stands in the last directory that has been made
    have hp := List.dropLast_concat_getLast f.path.pieces_ne_nil
    have hd : t.target out ++ f.path.pieces.dropLast ∈ around t out f :=
      (mem_around hf).mpr (.inr ⟨_, (isPrefix_dropLast_iff f.path.pieces_ne_nil).mp
        (List.prefix_refl _), rfl⟩)
    rw [← hp, ← List.append_assoc] at hn ⊢
    exact hv.closed.put (hv.made _ hd) hn _
  · exact hv.base.trans hw.base
  · exact hv.lost.trans hw.lost
  · intro g hg
    rcases List.mem_append.mp hg with hg | hg
    · apply hsome
      rw [hv.kept _ (not_mem_around hf (hapart g hg) (hnew g hg))]
      exact hw.files g hg
    · obtain rfl := List.mem_singleton.mp hg
      rw [hput, if_pos rfl]
  · intro g hg q hq
    apply hsome
    by_cases hqf : q ∈ around t out f
    · exact hv.made q hqf
    · rw [hv.kept q hqf]
      rcases List.mem_append.mp hg with hg | hg
      · exact hw.dirs g hg q hq
      · obtain rfl := List.mem_singleton.mp hg
        exact absurd hq hqf
  · intro q hq
    obtain ⟨hqf, hne⟩ := hq f (by simp)
    rw [hput, if_neg hne, hv.kept q hqf]
    exact hw.kept q fun g hg => hq g (List.mem_append_left _ hg)

namespace Generator

theorem writeOne_eq {out parent : Path} {f : GeneratedFile}
    (h : (out.join f.path).parent? = some parent) :
    writeOne out f =
      Job.bind ((createDirAll parent).mapError (.write parent)) fun _ =>
        Job.bind (Job.change fun t =>
            (t.writeFile (out.join f.path) (.text f.content)).mapError
              (.write (out.join f.path)))
          fun _ => log .debug "wrote file" [("path", (out.join f.path).text)] := by
  unfold writeOne
  simp only [h]
  rfl

theorem writeOne_of_error {parent : Path} (h : (out.join f.path).parent? = some parent)
    {e : FileError} (he : (createDirAll parent u).result = .error e) :
    (writeOne out f u).result = .error (.write parent e) ∧
      (writeOne out f u).state = (createDirAll parent u).state := by
  have hm : ((createDirAll parent).mapError (ProjectError.write parent) u).result =
      .error (.write parent e) := by
    rw [Job.mapError_result, he]
    rfl
  rw [writeOne_eq h, Job.bind_eq_of_error hm]
  exact ⟨rfl, Job.mapError_state _ _ _⟩

theorem writeOne_of_made {parent : Path} (h : (out.join f.path).parent? = some parent)
    {v : FileTree} (hok : (createDirAll parent u).result = .ok ())
    (hv : (createDirAll parent u).state = v) :
    (∀ e, v.writeFile (out.join f.path) (.text f.content) = .error e →
      (writeOne out f u).result = .error (.write (out.join f.path) e) ∧
        (writeOne out f u).state = v) ∧
    ∀ w, v.writeFile (out.join f.path) (.text f.content) = .ok w →
      (writeOne out f u).result = .ok () ∧ (writeOne out f u).state = w := by
  have hm : ((createDirAll parent).mapError (ProjectError.write parent) u).result = .ok () := by
    rw [Job.mapError_result, hok]
    rfl
  rw [writeOne_eq h, Job.bind_eq_of_ok hm, Job.mapError_state, hv]
  constructor
  · intro e he
    rw [Job.bind_change_of_error (by rw [he]; rfl)]
    exact ⟨rfl, rfl⟩
  · intro w hw
    rw [Job.bind_change_of_ok (by rw [hw]; rfl)]
    exact ⟨rfl, rfl⟩

def Placeable (t : FileTree) (out : Path) (f : GeneratedFile) : Prop :=
  Fits (out.join f.path) ∧ t.target out ++ f.path.pieces ∉ t.passed out

theorem Placeable.congr (h : Placeable u out f) (hb : u.base = t.base) : Placeable t out f := by
  rwa [Placeable, target_congr hb, passed_congr hb] at h

theorem writeFile_around (hG : Ground t out) (hw : Written t out done u) (hf : f.path.IsNames)
    {v : FileTree} (hv : Laid u v (around t out f))
    (hl : ∀ target, v.get? (t.target out ++ f.path.pieces) ≠ some (.link target)) (c : Content) :
    (¬Fits (out.join f.path) ∧ v.writeFile (out.join f.path) c = .error .nameTooLong) ∨
      (Fits (out.join f.path) ∧ v.writeFile (out.join f.path) c =
        v.fillFile .plain (t.target out ++ f.path.pieces) c) := by
  have hparent := Path.extends_joinAll out fun n hn => isName_of_mem_dropLast hf hn
  have hpath := hf.extends_join out
  have hbase := hv.base.trans hw.base
  have htarget : v.target (out.join f.path) = t.target out ++ f.path.pieces := by
    rw [target_congr hbase, target_extends hpath]
  have hdeparts : v.Departs (out.join f.path) :=
    ((departs_extends hpath).mpr hG.departs).congr (hv.lost.trans hw.lost)
  have hway : (out.join f.path).way = (out.joinAll f.path.pieces.dropLast).way ++
      [.name (f.path.pieces.getLast f.path.pieces_ne_nil)] := by
    rw [hpath.way, hparent.way, List.append_assoc, ← List.map_singleton, ← List.map_append,
      List.dropLast_concat_getLast]
  have hmade : ∀ q ∈ stations (v.start (out.join f.path))
      (out.joinAll f.path.pieces.dropLast).way, v.get? q = some .directory := by
    rw [start_congr hbase, start_extends hpath, ← start_extends hparent]
    exact hv.made
  rw [← htarget] at hl ⊢
  exact writeFile_cases (hf.endsInName_join out) (mt hpath.zero.mp hG.zero) hdeparts hway hmade hl c

/-- Writing one more file: it has been written, unless there is no place for it. Even then nothing
changes but the places around the file. -/
theorem writeOne_cases (hG : Ground t out) (hw : Written t out done u) (hf : f.path.IsNames)
    (hnames : ∀ g ∈ done, g.path.IsNames)
    (hapart : ∀ g ∈ done, ¬g.path.pieces <+: f.path.pieces ∧ ¬f.path.pieces <+: g.path.pieces) :
    (¬Placeable t out f ∧ (∃ e, (writeOne out f u).result = .error e) ∧
      ∀ q, q ∉ around t out f → (writeOne out f u).state.get? q = u.get? q) ∨
    (Placeable t out f ∧ (writeOne out f u).result = .ok () ∧
      Written t out (done ++ [f]) (writeOne out f u).state) := by
  have hdirs : ∀ n ∈ f.path.pieces.dropLast, Path.IsName n := fun n hn =>
    isName_of_mem_dropLast hf hn
  have hparent := Path.extends_joinAll out hdirs
  have hnew := hw.not_mem_passed hnames
  have hfree : ∀ q ∈ u.passed (out.joinAll f.path.pieces.dropLast), u.Free q := by
    rw [passed_congr hw.base]
    exact free_around hG hw hf (fun g hg => (hapart g hg).1) hnew
  have hdeparts : u.Departs (out.joinAll f.path.pieces.dropLast) :=
    ((departs_extends hparent).mpr hG.departs).congr hw.lost
  have hstart : u.get? (u.start (out.joinAll f.path.pieces.dropLast)) = some .directory := by
    rw [start_congr hw.base, start_extends hparent]
    exact hw.start hG hnames
  rcases hw.closed.createDirAll_makes (hG.path.joinAll hdirs).1 (mt hparent.zero.mp hG.zero)
    hdeparts hstart hfree with ⟨hfits, hn, hk⟩ | ⟨-, hok, hv⟩
  · left
    obtain ⟨n, hlast⟩ := Path.extends_parent hG.path hf
    obtain ⟨hr, hs⟩ := writeOne_of_error (Path.parent?_join hG.path hf) hn
    rw [passed_congr hw.base] at hk
    exact ⟨fun h => hfits (h.1.of_extends hlast), ⟨_, hr⟩, fun q hq => by rw [hs, hk q hq]⟩
  · obtain ⟨v, hstate⟩ : ∃ v, (createDirAll (out.joinAll f.path.pieces.dropLast) u).state = v :=
      ⟨_, rfl⟩
    obtain ⟨herror, hdone⟩ := writeOne_of_made (Path.parent?_join hG.path hf) hok hstate
    rw [hstate, passed_congr hw.base] at hv
    by_cases hpassed : t.target out ++ f.path.pieces ∈ t.passed out
    · -- a directory stands where the file should be
      left
      have hd := hv.made _ ((mem_around hf).mpr (.inl hpassed))
      have hno : ¬Placeable t out f := fun h => h.2 hpassed
      rcases writeFile_around hG hw hf hv (by simp [hd]) (.text f.content) with
        ⟨-, hwrite⟩ | ⟨-, hwrite⟩
      · obtain ⟨hr, hs⟩ := herror _ hwrite
        exact ⟨hno, ⟨_, hr⟩, hs ▸ hv.kept⟩
      · obtain ⟨hr, hs⟩ := herror _ (by rw [hwrite, fillFile, hd])
        exact ⟨hno, ⟨_, hr⟩, hs ▸ hv.kept⟩
    · have hnot : t.target out ++ f.path.pieces ∉ around t out f := by
        intro hq
        rcases (mem_around hf).mp hq with hq | ⟨r, hr, he⟩
        · exact hpassed hq
        · exact hr.2 (List.append_cancel_left he).symm
      have hn : v.get? (t.target out ++ f.path.pieces) = none := by
        rw [hv.kept _ hnot]
        exact none_of_apart hG hw hnames (fun g hg => (hapart g hg).2) hpassed
      rcases writeFile_around hG hw hf hv (by simp [hn]) (.text f.content) with
        ⟨hfits, hwrite⟩ | ⟨hfits, hwrite⟩
      · left
        obtain ⟨hr, hs⟩ := herror _ hwrite
        exact ⟨fun h => hfits h.1, ⟨_, hr⟩, hs ▸ hv.kept⟩
      · right
        obtain ⟨hr, hs⟩ := hdone _ (by rw [hwrite, fillFile, hn])
        rw [hs]
        exact ⟨⟨hfits, hpassed⟩, hr, hw.put hv hf hn (fun g hg => (hapart g hg).1) hnew⟩

theorem writeFiles_cases (hG : Ground t out) {rest : List GeneratedFile}
    (hw : Written t out done u) (hnames : ∀ g ∈ done ++ rest, g.path.IsNames)
    (hapart : (done ++ rest).Pairwise fun f g =>
      ¬f.path.pieces <+: g.path.pieces ∧ ¬g.path.pieces <+: f.path.pieces) :
    (¬(∀ f ∈ rest, Placeable t out f) ∧ (∃ e, (writeFiles out rest u).result = .error e) ∧
      ∀ q, (∀ f ∈ done ++ rest, q ∉ around t out f ∧ q ≠ t.target out ++ f.path.pieces) →
        (writeFiles out rest u).state.get? q = t.get? q) ∨
    ((∀ f ∈ rest, Placeable t out f) ∧ (writeFiles out rest u).result = .ok () ∧
      Written t out (done ++ rest) (writeFiles out rest u).state) := by
  induction rest generalizing done u with
  | nil =>
    refine .inr ⟨by simp, rfl, ?_⟩
    rwa [List.append_nil]
  | cons f rest ih =>
    have hcons : writeFiles out (f :: rest) u =
        Job.bind (writeOne out f) (fun _ => writeFiles out rest) u := rfl
    obtain ⟨-, -, hcross⟩ := List.pairwise_append.mp hapart
    have hstep := writeOne_cases hG hw (hnames f (by simp))
      (fun g hg => hnames g (List.mem_append_left _ hg)) (fun g hg => hcross g hg f (by simp))
    rw [hcons, List.forall_mem_cons]
    rcases hstep with ⟨hf, ⟨e, he⟩, hk⟩ | ⟨hf, hok, hw⟩
    · rw [Job.bind_eq_of_error he]
      refine .inl ⟨fun h => hf h.1, ⟨e, rfl⟩, fun q hq => ?_⟩
      rw [hk q (hq f (by simp)).1]
      exact hw.kept q fun g hg => hq g (List.mem_append_left _ hg)
    · rw [Job.bind_eq_of_ok hok]
      rw [List.append_cons] at hnames hapart ⊢
      rcases ih hw hnames hapart with ⟨hrest, he, hk⟩ | ⟨hrest, hok, hw⟩
      · exact .inl ⟨fun h => hrest h.2, he, hk⟩
      · exact .inr ⟨⟨hf, hrest⟩, hok, hw⟩

end Generator

end NativeUi
