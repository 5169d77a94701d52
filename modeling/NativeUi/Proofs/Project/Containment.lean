import NativeUi.Proofs.FileTree.Frame
import NativeUi.Proofs.Project.Splicing
import NativeUi.Proofs.Project.Writing

/-!
# Where a project is written

A package may have any name: with a slash for each dot, its path still leads inwards only. So the
files of a project stand below the directory they are written to, wherever its path leads, and no
file stands where another one needs a directory.
-/
namespace NativeUi

open NativeUi.FileTree
open NativeUi.Path (Step)

/-! ### Paths for any package -/

structure Platform.Dotted (x : List String × String) : Prop where
  start : x.1.head? ≠ some ""
  dirs : ∀ n ∈ x.1, '.' ∉ n.toList
  file : Path.IsName x.2 ∧ '.' ∈ x.2.toList

theorem Platform.dotted_layout (p : Platform) {package : List String}
    (h : ∀ n ∈ package, '.' ∉ n.toList) : ∀ x ∈ p.layout package, Dotted x := by
  have hjava : ∀ n ∈ ["app", "src", "main", "java"], '.' ∉ n.toList := by decide
  have hui : ∀ n ∈ ["ui", "theme"], '.' ∉ n.toList := by decide
  cases p with
  | android =>
    simp only [layout, List.forall_mem_cons]
    refine ⟨⟨by simp, ?_, by dsimp only; decide⟩, ⟨by simp, ?_, by dsimp only; decide⟩,
      ⟨by decide, by decide, by decide⟩, ⟨by decide, by decide, by decide⟩,
      ⟨by decide, by decide, by decide⟩, by simp⟩
    · exact List.forall_mem_append.mpr ⟨hjava, h⟩
    · exact List.forall_mem_append.mpr ⟨List.forall_mem_append.mpr ⟨hjava, h⟩, hui⟩
  | ios =>
    simp only [layout, List.forall_mem_cons]
    exact ⟨⟨by decide, by decide, by decide⟩, ⟨by decide, by decide, by decide⟩,
      ⟨by decide, by decide, by decide⟩, by simp⟩
  | macos =>
    simp only [layout, List.forall_mem_cons]
    exact ⟨⟨by decide, by decide, by decide⟩, ⟨by decide, by decide, by decide⟩,
      ⟨by decide, by decide, by decide⟩, by simp⟩

theorem Path.head?_pieces_of_absolute {p : Path} (h : p.isAbsolute = true) :
    p.pieces.head? = some "" := by
  rw [isAbsolute, beq_iff_eq] at h
  obtain ⟨cs, hcs⟩ := List.head?_eq_some_iff.mp h
  rw [pieces, hcs, List.splitOn_cons_eq_if_modifyHead]
  simp

namespace Platform.Dotted

variable {x : List String × String} {p : Path}

theorem isInner (h : Dotted x) (hp : p.pieces = x.1 ++ [x.2]) : p.IsInner where
  relative := by
    cases ha : p.isAbsolute with
    | false => rfl
    | true =>
      have hh := Path.head?_pieces_of_absolute ha
      rw [hp, List.head?_append] at hh
      cases hx : x.1.head? with
      | none =>
        rw [hx] at hh
        exact absurd (Option.some.inj hh) h.file.1.1
      | some n =>
        rw [hx] at hh
        exact absurd (hx.trans hh) h.start
  noDots := by
    intro s hs
    rw [hp] at hs
    rcases List.mem_append.mp hs with hs | hs
    · have hd := h.dirs s hs
      refine ⟨?_, ?_⟩
      · rintro rfl
        exact hd (by simp)
      · rintro rfl
        exact hd (by simp)
    · obtain rfl := List.mem_singleton.mp hs
      exact ⟨h.file.1.2.1, h.file.1.2.2.1⟩
  last := ⟨x.1, x.2, hp, h.file.1⟩

end Platform.Dotted

structure Housed (files : List GeneratedFile) : Prop where
  inner : ∀ f ∈ files, f.path.IsInner
  apart : files.Pairwise fun f g =>
    ¬f.path.names <+: g.path.names ∧ ¬g.path.names <+: f.path.names

open Platform in
theorem housed_of_layout {xs : List (List String × String)} {files : List GeneratedFile}
    (h : files.map (fun f => f.path.pieces) = xs.map fun x => x.1 ++ [x.2])
    (hx : ∀ x ∈ xs, Dotted x) (hd : xs.Pairwise fun x y => x.2 ≠ y.2) : Housed files where
  inner f hf := by
    have hm : f.path.pieces ∈ files.map fun f => f.path.pieces := List.mem_map_of_mem hf
    rw [h] at hm
    obtain ⟨x, hxs, he⟩ := List.mem_map.mp hm
    exact (hx x hxs).isInner he.symm
  apart := by
    have hnames : files.map (fun f => f.path.names) =
        xs.map fun x => (x.1.filter fun s => s ≠ "") ++ [x.2] := by
      have hfilter := congrArg (List.map (List.filter fun s : String => s ≠ "")) h
      rw [List.map_map, List.map_map] at hfilter
      refine hfilter.trans (List.map_congr_left fun x hxs => ?_)
      simp [(hx x hxs).file.1.1]
    have hp : (files.map fun f => f.path.names).Pairwise fun p q => ¬p <+: q ∧ ¬q <+: p := by
      rw [hnames, List.pairwise_map]
      have hdirs (x) (hxs : x ∈ xs) : ∀ n ∈ x.1.filter fun s => s ≠ "", '.' ∉ n.toList :=
        fun n hn => (hx x hxs).dirs n (List.mem_of_mem_filter hn)
      refine hd.imp_of_mem fun {x y} hxs hys hxy => ⟨fun hp => ?_, fun hp => ?_⟩
      · exact hxy (eq_of_isPrefix_of_dot (hx x hxs).file.2 (hdirs y hys) hp)
      · exact hxy (eq_of_isPrefix_of_dot (hx y hys).file.2 (hdirs x hxs) hp).symm
    exact List.pairwise_map.mp hp

theorem Generator.housed_of_generateFiles {g : Generator} {b : Bundle} {t : FileTree}
    {files : List GeneratedFile} (h : (g.generateFiles b t).result = .ok files) : Housed files :=
  housed_of_layout (layout_of_generateFiles h)
    (Platform.dotted_layout _ fun _ => Config.dot_not_mem_packagePiece)
    (Platform.layout_distinct _ _)

namespace Housed

variable {files : List GeneratedFile}

theorem isPrefix_components {f g : GeneratedFile} (h : Housed files) (hf : f ∈ files)
    (hg : g ∈ files) : f.path.components <+: g.path.components ↔ f.path.names <+: g.path.names := by
  have hinj : Function.Injective Path.Component.name := fun _ _ => Path.Component.name.inj
  rw [(h.inner f hf).components, (h.inner g hg).components, List.prefix_map_iff_of_injective hinj]

theorem apart_components (h : Housed files) : files.Pairwise fun f g =>
    ¬f.path.components <+: g.path.components ∧ ¬g.path.components <+: f.path.components := by
  refine h.apart.imp_of_mem fun {f g} hf hg hfg => ?_
  rw [h.isPrefix_components hf hg, h.isPrefix_components hg hf]
  exact hfg

theorem eq_of_components (h : Housed files) {f g : GeneratedFile} (hf : f ∈ files) (hg : g ∈ files)
    (he : f.path.components = g.path.components) : f = g := by
  have hsymm : Std.Symm fun f g : GeneratedFile =>
      ¬f.path.components <+: g.path.components ∧ ¬g.path.components <+: f.path.components :=
    ⟨fun _ _ h => ⟨h.2, h.1⟩⟩
  by_contra hne
  exact (h.apart_components.forall hf hg hne).1 (he ▸ List.prefix_refl _)

theorem findFile?_iff (h : Housed files) {f : GeneratedFile} (hf : f ∈ files) (p : Path) :
    findFile? files p = some f ↔ p.sameAs f.path = true := by
  rw [findFile?, Path.sameAs, beq_iff_eq]
  constructor
  · intro hfind
    have hs := List.find?_some hfind
    rw [Path.sameAs, beq_iff_eq] at hs
    exact hs.symm
  · intro hp
    cases hfind : files.find? fun f => f.path.sameAs p with
    | none =>
      have hn := List.find?_eq_none.mp hfind f hf
      rw [Path.sameAs, beq_iff_eq] at hn
      exact absurd hp.symm hn
    | some g =>
      have hs := List.find?_some hfind
      rw [Path.sameAs, beq_iff_eq] at hs
      rw [h.eq_of_components (List.mem_of_find?_eq_some hfind) hf (hs.trans hp)]

end Housed

/-! ### Writing changes nothing elsewhere -/

def ways (ns : List String) (files : List GeneratedFile) : List (List String) :=
  files.map fun f => ns ++ f.path.names

namespace Generator

variable {t u : FileTree} {out : Path} {D : Place} {ss : List Step} {ns : List String}
  {f : GeneratedFile}

theorem start_join (hb : u.base = t.base) (hf : f.path.IsInner) :
    u.start (out.join f.path) = t.start out := by
  rw [start_congr hb, start, start, Path.isAbsolute_join out hf.relative, hf.steps_join,
    Path.climb_append_names]

theorem departs_join (hl : u.lost = t.lost) (hf : f.path.IsInner) :
    u.Departs (out.join f.path) ↔ t.Departs out := by
  rw [Departs, Departs, hl, Path.isAbsolute_join out hf.relative, hf.steps_join,
    Path.climb_append_names]

theorem way_join (hf : f.path.IsInner) :
    (out.join f.path).way = out.way ++ f.path.names.map Step.name := by
  rw [Path.way, Path.way, Path.isAbsolute_join out hf.relative, hf.steps_join,
    Path.climb_append_names]
  split <;> rfl

section Parent

variable {parent : Path} {dirs : List String} (hf : f.path.IsInner)
  (h : Path.Before parent (out.join f.path) (out.steps ++ dirs.map Step.name))

include hf h

theorem start_parent (hb : u.base = t.base) : u.start parent = t.start out := by
  have hc := (h.climb_eq (Path.isAbsolute_join out hf.relative)).1
  rw [start_congr hb, start, start, h.isAbsolute, Path.isAbsolute_join out hf.relative, hc]

theorem departs_parent (hl : u.lost = t.lost) : u.Departs parent ↔ t.Departs out := by
  have hc := (h.climb_eq (Path.isAbsolute_join out hf.relative)).1
  rw [Departs, Departs, hl, h.isAbsolute, Path.isAbsolute_join out hf.relative, hc]

end Parent

theorem inside_writeOne {ws : List (List String)} (hi : Inside t (t.start out) ss D ws u)
    (hout : out.way = ss ++ ns.map Step.name) (hf : f.path.IsInner)
    (hw : ns ++ f.path.names ∈ ws) :
    Inside t (t.start out) ss D ws (writeOne out f u).state := by
  obtain ⟨dirs, n, parent, hnames, hparent, hb⟩ := hf.exists_parent out
  have hpath : (out.join f.path).way = ss ++ (ns ++ f.path.names).map Step.name := by
    rw [way_join hf, hout, List.append_assoc, List.map_append]
  have hsteps : parent.way <+: ss ++ (ns ++ f.path.names).map Step.name := by
    obtain ⟨k, hk⟩ := (hb.climb_eq (Path.isAbsolute_join out hf.relative)).2
    rw [← hpath, way_join hf, hnames, List.map_append, ← List.append_assoc, hk, List.append_assoc]
    exact List.prefix_append _ _
  have hdirs := hi.createDirAll hw hsteps (start_parent hf hb hi.base)
  cases hr : (FileTree.createDirAll parent u).result with
  | error e =>
    rw [(writeOne_of_error hparent hr).2]
    exact hdirs
  | ok a =>
    obtain ⟨v, hstate⟩ : ∃ v, (FileTree.createDirAll parent u).state = v := ⟨_, rfl⟩
    obtain ⟨herror, hdone⟩ := writeOne_of_made hparent hr hstate
    rw [hstate] at hdirs
    cases hv : v.writeFile (out.join f.path) (.text f.content) with
    | error e =>
      rw [(herror e hv).2]
      exact hdirs
    | ok w =>
      rw [(hdone w hv).2]
      exact hdirs.writeFile hw (by simp [hf.names_ne_nil]) (hf.endsInName_join out) hpath
        (start_join hdirs.base hf) hv

theorem inside_writeFiles {ws : List (List String)} {files : List GeneratedFile}
    (hi : Inside t (t.start out) ss D ws u) (hout : out.way = ss ++ ns.map Step.name)
    (hf : ∀ f ∈ files, f.path.IsInner) (hw : ∀ f ∈ files, ns ++ f.path.names ∈ ws) :
    Inside t (t.start out) ss D ws (writeFiles out files u).state := by
  induction files generalizing u with
  | nil => exact hi
  | cons f files ih =>
    obtain ⟨hf, hfs⟩ := List.forall_mem_cons.mp hf
    obtain ⟨hw, hws⟩ := List.forall_mem_cons.mp hw
    have hone := inside_writeOne hi hout hf hw
    have hcons : writeFiles out (f :: files) u =
        Job.bind (writeOne out f) (fun _ => writeFiles out files) u := rfl
    rw [hcons]
    cases hr : (writeOne out f u).result with
    | error e =>
      rw [Job.bind_eq_of_error hr]
      dsimp only
      exact hone
    | ok a =>
      rw [Job.bind_eq_of_ok hr]
      dsimp only
      exact ih hone hfs hws

end Generator

/-! ### Writing where nothing stands -/

/-- The first of some names leads to nothing, and nothing stands below. -/
def Vacant (t : FileTree) (D : Place) (ns : List String) : Prop :=
  ∃ n rest, ns = n :: rest ∧ ∀ q, D ++ [n] <+: q → t.get? q = none

theorem isPrefix_of_passes {D : Place} {ns ms ks : List String}
    (hq : Passes D (ns ++ ms) (D ++ ns ++ ks)) : ks <+: ms := by
  obtain ⟨r, hr, -, he⟩ := hq
  rw [List.append_assoc, List.append_cancel_left_eq] at he
  rwa [← he, List.prefix_append_right_inj] at hr

namespace Vacant

variable {t : FileTree} {D : Place} {ns : List String}

theorem ne_nil (h : Vacant t D ns) : ns ≠ [] := by
  obtain ⟨n, rest, rfl, -⟩ := h
  simp

theorem none_of_passes (h : Vacant t D ns) {ms : List String} {q : Place}
    (hq : Passes D (ns ++ ms) q) : t.get? q = none := by
  obtain ⟨n, rest, rfl, hnone⟩ := h
  obtain ⟨r, hr, hne, rfl⟩ := hq
  obtain ⟨m, r, rfl⟩ := List.exists_cons_of_ne_nil hne
  obtain ⟨rfl, -⟩ := List.cons_prefix_cons.mp hr
  exact hnone _ ⟨r, by simp⟩

theorem own (h : Vacant t D ns) {files : List GeneratedFile} {q : Place}
    (hq : OnWay D (ways ns files) q) : t.Own q := by
  obtain ⟨way, hway, hq⟩ := hq
  obtain ⟨f, -, rfl⟩ := List.mem_map.mp hway
  exact own_of_none (h.none_of_passes hq)

end Vacant

structure Furnished (t : FileTree) (D : Place) (ns : List String) (files : List GeneratedFile)
    (u : FileTree) : Prop where
  written : ∀ f ∈ files,
    u.get? (D ++ ns ++ f.path.names) = some (.file (.text f.content) .plain)
  made : ∀ f ∈ files, ∀ q, Passes D (ns ++ f.path.names.dropLast) q → u.get? q = some .directory
  kept : ∀ q, ¬OnWay D (ways ns files) q → u.get? q = t.get? q

def OfPath (e : ProjectError) : Prop := ∃ p cause, e = .write p cause ∧ FileTree.OfPath cause

theorem passes_file {D : Place} {ns : List String} {f : GeneratedFile} (hf : f.path.IsInner)
    {q : Place} :
    Passes D (ns ++ f.path.names) q ↔
      Passes D (ns ++ f.path.names.dropLast) q ∨ q = D ++ ns ++ f.path.names := by
  obtain ⟨dirs, n, hnames⟩ : ∃ dirs n, f.path.names = dirs ++ [n] := by
    obtain ⟨ps, n, -, -, hn⟩ := hf.exists_last
    exact ⟨_, n, hn⟩
  rw [hnames, List.dropLast_concat, ← List.append_assoc, passes_concat]
  simp

theorem furnished_nil (t : FileTree) (D : Place) (ns : List String) : Furnished t D ns [] t :=
  ⟨by simp, by simp, fun _ _ => rfl⟩

namespace Furnished

variable {t u : FileTree} {D : Place} {ns : List String} {f : GeneratedFile}
  {done : List GeneratedFile}

theorem free (h : Furnished t D ns done u) (hV : Vacant t D ns)
    (hinner : ∀ g ∈ done, g.path.IsInner)
    (hapart : ∀ g ∈ done, ¬g.path.names <+: f.path.names) {q : Place}
    (hq : Passes D (ns ++ f.path.names.dropLast) q) : u.Free q := by
  by_cases hd : ∃ g ∈ done, Passes D (ns ++ g.path.names) q
  · obtain ⟨g, hg, hqg⟩ := hd
    rcases (passes_file (hinner g hg)).mp hqg with hqg | rfl
    · exact .inr (h.made g hg q hqg)
    · have hp := isPrefix_of_passes hq
      exact absurd (hp.trans (List.dropLast_prefix _)) (hapart g hg)
  · left
    rw [h.kept, hV.none_of_passes hq]
    rintro ⟨way, hway, hqw⟩
    obtain ⟨g, hg, rfl⟩ := List.mem_map.mp hway
    exact hd ⟨g, hg, hqw⟩

theorem bare (h : Furnished t D ns done u) (hV : Vacant t D ns)
    {v : FileTree} (hv : Dug u D (ns ++ f.path.names.dropLast) v) (hf : f.path.IsInner)
    (hapart : ∀ g ∈ done, ¬f.path.names <+: g.path.names) :
    v.get? (D ++ ns ++ f.path.names) = none := by
  rw [hv.kept, h.kept, hV.none_of_passes ((passes_file hf).mpr (.inr rfl))]
  · rintro ⟨way, hway, hq⟩
    obtain ⟨g, hg, rfl⟩ := List.mem_map.mp hway
    exact hapart g hg (isPrefix_of_passes hq)
  · intro hq
    have hl := (isPrefix_of_passes hq).length_le
    have hpos := List.length_pos_of_ne_nil hf.names_ne_nil
    rw [List.length_dropLast] at hl
    omega

theorem put (h : Furnished t D ns done u) {v : FileTree}
    (hv : Dug u D (ns ++ f.path.names.dropLast) v) (hf : f.path.IsInner)
    (hn : v.get? (D ++ ns ++ f.path.names) = none)
    (hapart : ∀ g ∈ done, ¬g.path.names <+: f.path.names) :
    Furnished t D ns (done ++ [f])
      (v.put (D ++ ns ++ f.path.names) (.file (.text f.content) .plain)) := by
  have hput := get?_put v (ne_nil_of_none hn) (.file (.text f.content) .plain)
  have hsome {q : Place} {e : Entry} (hq : v.get? q = some e) :
      (v.put (D ++ ns ++ f.path.names) (.file (.text f.content) .plain)).get? q = some e := by
    rw [hput, if_neg, hq]
    rintro rfl
    rw [hn] at hq
    cases hq
  constructor
  · intro g hg
    rcases List.mem_append.mp hg with hg | hg
    · apply hsome
      rw [hv.kept, h.written g hg]
      intro hq
      exact hapart g hg ((isPrefix_of_passes hq).trans (List.dropLast_prefix _))
    · obtain rfl := List.mem_singleton.mp hg
      rw [hput, if_pos rfl]
  · intro g hg q hq
    apply hsome
    rcases List.mem_append.mp hg with hg | hg
    · exact hv.directory (h.made g hg q hq)
    · obtain rfl := List.mem_singleton.mp hg
      exact hv.made q hq
  · intro q hq
    have hqf : ¬Passes D (ns ++ f.path.names) q := fun hp =>
      hq ⟨_, by simp [ways], hp⟩
    rw [passes_file hf, not_or] at hqf
    rw [hput, if_neg hqf.2, hv.kept q hqf.1]
    apply h.kept
    rintro ⟨way, hway, hp⟩
    exact hq ⟨way, by rw [ways, List.map_append]; exact List.mem_append_left _ hway, hp⟩

end Furnished

namespace Generator

variable {t u : FileTree} {out : Path} {D : Place} {ss : List Step} {ns : List String}
  {f : GeneratedFile} {done : List GeneratedFile}

theorem writeOne_vacant (hV : Vacant t D ns) (hout : out.way = ss ++ ns.map Step.name)
    (hdep : t.Departs out) {files : List GeneratedFile}
    (hi : Inside t (t.start out) ss D (ways ns files) u) (hw : Furnished t D ns done u)
    (hinner : ∀ g ∈ done, g.path.IsInner) (hf : f.path.IsInner)
    (hapart : ∀ g ∈ done, ¬g.path.names <+: f.path.names ∧ ¬f.path.names <+: g.path.names) :
    (¬Writable (out.join f.path) ∧ ∃ e, (writeOne out f u).result = .error e ∧ OfPath e) ∨
    (Writable (out.join f.path) ∧ (writeOne out f u).result = .ok () ∧
      Furnished t D ns (done ++ [f]) (writeOne out f u).state) := by
  -- both the file and the directory around it are found by names from `D` on
  obtain ⟨dirs, n, parent, hnames, hparent, hb⟩ := hf.exists_parent out
  have hdirs : f.path.names.dropLast = dirs := by rw [hnames, List.dropLast_concat]
  have hpath : (out.join f.path).way = ss ++ (ns ++ dirs ++ [n]).map Step.name := by
    rw [way_join hf, hout, hnames]
    simp
  have hway : parent.way = ss ++ (ns ++ dirs).map Step.name := by
    obtain ⟨k, hk⟩ := (hb.climb_eq (Path.isAbsolute_join out hf.relative)).2
    rw [hout, List.append_assoc, ← List.map_append] at hk
    exact Path.eq_of_append_heres (by simp [hV.ne_nil]) hk
  have hsteps : parent.steps <+: (out.join f.path).steps := by
    obtain ⟨k, hk⟩ := hb.steps
    rw [hf.steps_join, hnames, List.map_append, ← List.append_assoc, hk, List.append_assoc]
    exact List.prefix_append _ _
  have hfree : ∀ q, Passes D (ns ++ dirs) q → u.Free q := by
    rw [← hdirs]
    exact fun q hq => hw.free hV hinner (fun g hg => (hapart g hg).1) hq
  rcases createDirAll_names hi.leads (by simp [hV.ne_nil]) hway
    ((departs_parent hf hb hi.lost).mpr hdep) (start_parent hf hb hi.base) hfree with
    ⟨hbad, e, he, hcause⟩ | ⟨-, hok, hv⟩
  · left
    have hr := (writeOne_of_error hparent he).1
    exact ⟨fun h => hbad (h.of_before hb hsteps), _, hr, parent, e, rfl, hcause⟩
  · obtain ⟨v, hstate⟩ : ∃ v, (FileTree.createDirAll parent u).state = v := ⟨_, rfl⟩
    obtain ⟨herror, hdone⟩ := writeOne_of_made hparent hok hstate
    rw [hstate] at hv
    have hplace : D ++ (ns ++ dirs ++ [n]) = D ++ ns ++ f.path.names := by
      rw [hnames]
      simp
    have hnone : v.get? (D ++ (ns ++ dirs ++ [n])) = none := by
      rw [hplace]
      exact hw.bare hV (hdirs ▸ hv) hf fun g hg => (hapart g hg).2
    rcases writeFile_names (hv.leads hi.leads hfree) (hf.endsInName_join out) hpath
      ((departs_join (hv.lost.trans hi.lost) hf).mpr hdep)
      (start_join (hv.base.trans hi.base) hf) hv.made hnone (.text f.content) with
      ⟨hbad, e, he, hcause⟩ | ⟨hgood, hput⟩
    · exact .inl ⟨hbad, _, (herror e he).1, _, e, rfl, hcause⟩
    · right
      obtain ⟨hr, hs⟩ := hdone _ hput
      rw [hs]
      rw [hplace] at hnone ⊢
      rw [← hdirs] at hv
      exact ⟨hgood, hr, hw.put hv hf hnone fun g hg => (hapart g hg).1⟩

theorem writeFiles_vacant (hV : Vacant t D ns) (hout : out.way = ss ++ ns.map Step.name)
    (hdep : t.Departs out) {rest : List GeneratedFile}
    (hi : Inside t (t.start out) ss D (ways ns (done ++ rest)) u) (hw : Furnished t D ns done u)
    (hh : Housed (done ++ rest)) :
    (¬(∀ f ∈ rest, Writable (out.join f.path)) ∧
      ∃ e, (writeFiles out rest u).result = .error e ∧ OfPath e) ∨
    ((∀ f ∈ rest, Writable (out.join f.path)) ∧ (writeFiles out rest u).result = .ok () ∧
      Furnished t D ns (done ++ rest) (writeFiles out rest u).state) := by
  induction rest generalizing done u with
  | nil =>
    refine .inr ⟨by simp, rfl, ?_⟩
    rwa [List.append_nil]
  | cons f rest ih =>
    have hcons : writeFiles out (f :: rest) u =
        Job.bind (writeOne out f) (fun _ => writeFiles out rest) u := rfl
    have hf : f.path.IsInner := hh.inner f (by simp)
    have hmem : f ∈ done ++ f :: rest := by simp
    obtain ⟨-, -, hcross⟩ := List.pairwise_append.mp hh.apart
    have hone := inside_writeOne hi hout hf (List.mem_map_of_mem hmem)
    have hstep := writeOne_vacant hV hout hdep hi hw
      (fun g hg => hh.inner g (List.mem_append_left _ hg)) hf
      fun g hg => hcross g hg f (by simp)
    rw [hcons, List.forall_mem_cons]
    rcases hstep with ⟨hbad, e, he, hcause⟩ | ⟨hgood, hok, hw⟩
    · rw [Job.bind_eq_of_error he]
      exact .inl ⟨fun h => hbad h.1, e, rfl, hcause⟩
    · rw [Job.bind_eq_of_ok hok]
      rw [List.append_cons] at hone hh ⊢
      rcases ih hone hw hh with ⟨hbad, he⟩ | ⟨hrest, hok, hw⟩
      · exact .inl ⟨fun h => hbad h.2, he⟩
      · exact .inr ⟨⟨hgood, hrest⟩, hok, hw⟩

/-! ### The project as a whole -/

def Anchored (t : FileTree) (out : Path) (D : Place) (ns : List String) : Prop :=
  ∃ start ss, t.departure out = .ok (start, ss ++ ns.map Step.name) ∧
    t.follow true linkLimit start ss = .ok (D, .directory)

/-- Whatever the package is called, the files of a project have relative paths that lead inwards
only, and none is at the place of another one or above it. So a path finds its file, and joined to
a directory each stands below it. Where nothing on the ways of the files stands for something
elsewhere, to write them changes nothing but what stands there. Where nothing stands there at all,
all is written, or a path is too long or holds a zero. -/
theorem generateFiles_contained (g : Generator) (b : Bundle) (t : FileTree) :
    (g.templates = .builtin → b.roots ≠ [] → ∃ files, (g.generateFiles b t).result = .ok files) ∧
    ∀ files, (g.generateFiles b t).result = .ok files →
      (∀ f ∈ files, ∃ ns, ns ≠ [] ∧ f.path.components = ns.map .name) ∧
      (files.Pairwise fun f g =>
        ¬f.path.components <+: g.path.components ∧ ¬g.path.components <+: f.path.components) ∧
      (∀ f ∈ files, ∀ p, findFile? files p = some f ↔ p.sameAs f.path = true) ∧
      ∀ out,
        (∀ f ∈ files, (out.join f.path).components = out.components ++ f.path.components) ∧
        ∀ u D ns, Anchored u out D ns →
          ((∀ q, OnWay D (ways ns files) q → u.Own q) →
            ∀ q, ¬OnWay D (ways ns files) q →
              (writeFiles out files u).state.get? q = u.get? q) ∧
          (Vacant u D ns →
            (∀ q, OnWay D (ways ns files) q → u.Own q) ∧
            if ∀ f ∈ files, Writable (out.join f.path) then
              (writeFiles out files u).result = .ok () ∧
                Furnished u D ns files (writeFiles out files u).state
            else ∃ e, (writeFiles out files u).result = .error e ∧ OfPath e) := by
  refine ⟨fun hg hb => ?_, fun files hfiles => ?_⟩
  · obtain ⟨-, files, -, hfiles, -⟩ := exists_splices hg hb t
    exact ⟨files, hfiles⟩
  have hh := housed_of_generateFiles hfiles
  refine ⟨fun f hf => ⟨_, (hh.inner f hf).names_ne_nil, (hh.inner f hf).components⟩,
    hh.apart_components, fun f hf => hh.findFile?_iff hf,
    fun out => ⟨fun f hf => (hh.inner f hf).components_join out, ?_⟩⟩
  rintro u D ns ⟨start, ss, hstart, hfollow⟩
  obtain ⟨hdep, rfl, hout⟩ := departure_ok hstart
  have hleads := leads_of_follow hfollow
  refine ⟨fun hown => ?_, fun hV => ⟨fun q => hV.own, ?_⟩⟩
  · exact (inside_writeFiles (.refl hleads hown) hout hh.inner
      fun f hf => List.mem_map_of_mem hf).kept
  · have hi : Inside u (u.start out) ss D (ways ns ([] ++ files)) u :=
      .refl hleads fun q => hV.own
    rcases writeFiles_vacant hV hout hdep hi (furnished_nil u D ns) hh with
      ⟨hbad, he⟩ | ⟨hgood, hok⟩
    · rw [if_neg hbad]
      exact he
    · rw [if_pos hgood]
      exact hok

def roamingGenerator : Generator := ⟨.android, .builtin, ⟨"app", "/../..a//b.", .first⟩⟩

def roamingBundle : Bundle := .ofRoots [⟨none, .text, [], []⟩]

def linkedTree : FileTree := FileTree.empty.put ["work", "link"] (.link "/tmp")

def linkedOutput : Path := ⟨"link/out"⟩

theorem vacant_linkedTree : Vacant linkedTree ["tmp"] ["out"] := by
  have hkept : linkedTree.prune ["tmp", "out"] = linkedTree := by
    have hslots : linkedTree.slots.filter (fun h => !(["tmp", "out"].isPrefixOf h.place)) =
        linkedTree.slots := List.filter_eq_self.mpr (by decide)
    have hlost : ¬["tmp", "out"].isPrefixOf linkedTree.base = true := by decide
    rw [prune, hslots, if_neg hlost]
  refine ⟨"out", [], rfl, fun q (hq : ["tmp", "out"] <+: q) => ?_⟩
  rw [← hkept, get?_prune_of_ne _ (by decide), if_pos hq]

theorem anchored_linkedTree : Anchored linkedTree linkedOutput ["tmp"] ["out"] :=
  ⟨["work"], [.name "link"], by decide, by decide +kernel⟩

theorem writable_roaming {files : List GeneratedFile}
    (h : (roamingGenerator.generateFiles roamingBundle linkedTree).result = .ok files) :
    ∀ f ∈ files, Writable (linkedOutput.join f.path) := by
  have hw : ∀ ps ∈ (Platform.android.layout (Config.packagePieces "/../..a//b.")).map fun x =>
      x.1 ++ [x.2], Writable (linkedOutput.join ⟨"/".intercalate ps⟩) := by decide +kernel
  intro f hf
  have hm : f.path.pieces ∈ files.map fun f => f.path.pieces := List.mem_map_of_mem hf
  rw [layout_of_generateFiles h] at hm
  have hp := hw _ hm
  rwa [Path.intercalate_pieces] at hp

theorem generateFiles_contained_roaming :
    roamingGenerator.templates = .builtin ∧ roamingBundle.roots ≠ [] ∧
      Anchored linkedTree linkedOutput ["tmp"] ["out"] ∧
      Vacant linkedTree ["tmp"] ["out"] ∧
      ∃ files, (roamingGenerator.generateFiles roamingBundle linkedTree).result = .ok files ∧
        (∀ f ∈ files, ∀ p, findFile? files p = some f ↔ p.sameAs f.path = true) ∧
        (writeFiles linkedOutput files linkedTree).result = .ok () ∧
        Furnished linkedTree ["tmp"] ["out"] files
          (writeFiles linkedOutput files linkedTree).state ∧
        ∀ q, ¬OnWay ["tmp"] (ways ["out"] files) q →
          (writeFiles linkedOutput files linkedTree).state.get? q = linkedTree.get? q := by
  have hroots : roamingBundle.roots ≠ [] := List.cons_ne_nil _ _
  obtain ⟨hexists, hall⟩ := generateFiles_contained roamingGenerator roamingBundle linkedTree
  obtain ⟨files, hfiles⟩ := hexists rfl hroots
  obtain ⟨-, -, hfind, hout⟩ := hall files hfiles
  obtain ⟨hkept, hvacant⟩ := (hout linkedOutput).2 _ _ _ anchored_linkedTree
  obtain ⟨hown, hwrite⟩ := hvacant vacant_linkedTree
  rw [if_pos (writable_roaming hfiles)] at hwrite
  exact ⟨rfl, hroots, anchored_linkedTree, vacant_linkedTree, files, hfiles, hfind, hwrite.1,
    hwrite.2, hkept hown⟩

end Generator

end NativeUi
