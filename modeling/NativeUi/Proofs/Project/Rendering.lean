import NativeUi.Proofs.Project.Trees
import NativeUi.Proofs.Text.Lines

/-!
# Projects made of the program's own templates

A template of the program is a text of lines. It is read line by line here, which gives the same
pieces as reading the text.
-/
namespace NativeUi

namespace Template

def fillLines (ls : List String) (data : Json) : Except Fault (List Char) :=
  let cs := Text.feedAll (ls.map String.toList)
  pieces (cs.length + 1) cs >>= fun ps => fill data (arrange true true false .nothing ps)

theorem render_ofLines (ls : List String) (data : Json) :
    render (Text.ofLines ls) data = (fillLines ls data).map String.ofList := by
  rw [render, parse, Text.toList_ofLines, fillLines]
  cases hp : pieces ((Text.feedAll (ls.map String.toList)).length + 1)
      (Text.feedAll (ls.map String.toList)) with
  | error e => rfl
  | ok ps =>
    rw [ok_bind, ok_bind, ok_bind]
    cases fill data (arrange true true false .nothing ps) <;> rfl

def filled (template : String) (data : Json) : String := (render template data).toOption.getD ""

theorem render_eq_filled {ls : List String} {data : Json} (h : (fillLines ls data).isOk = true) :
    render (Text.ofLines ls) data = .ok (filled (Text.ofLines ls) data) := by
  obtain ⟨cs, hcs⟩ := exists_of_isOk h
  rw [filled, render_ofLines, hcs]
  rfl

end Template

namespace Generator

theorem generateFile_of_builtin {g : Generator} (hg : g.templates = .builtin) {data : Json}
    {entry : ManifestEntry} {source path content : String}
    (hs : g.platform.builtin? entry.template = some source)
    (hp : Template.render entry.output data = .ok path)
    (hc : (if entry.verbatim then .ok source else Template.render source data) = .ok content)
    (t : FileTree) : (g.generateFile data entry t).result = .ok ⟨⟨path⟩, content⟩ := by
  have hload : (loadTemplate g.templates g.platform entry.template t).result = .ok source := by
    rw [hg, loadTemplate, hs]
    rfl
  have hpath : (fillTemplate entry.output data t).result = .ok path := by
    rw [fillTemplate, hp]
    rfl
  unfold generateFile
  refine (looks_loadTemplate _ _ _).bind_ok_iff.mpr ⟨source, hload, ?_⟩
  refine (looks_fillTemplate _ _).bind_ok_iff.mpr ⟨path, hpath, ?_⟩
  split at hc
  · next hv =>
    obtain rfl := Except.ok.inj hc
    rw [hv]
    rfl
  · next hv =>
    have hcontent : (fillTemplate source data t).result = .ok content := by
      rw [fillTemplate, hc]
      rfl
    rw [if_neg hv]
    exact (looks_fillTemplate _ _).bind_ok_iff.mpr ⟨content, hcontent, rfl⟩

theorem generateFiles_of_forall₂ {g : Generator} {b : Bundle} {content : String}
    (hl : lowerRoots g.platform.dialect g.options.roots b.roots = some content) {t : FileTree}
    {files : List GeneratedFile}
    (h : List.Forall₂ (fun entry f =>
      (g.generateFile (templateData g.options content) entry t).result = .ok f)
      g.platform.manifest files) : (g.generateFiles b t).result = .ok files := by
  rw [generateFiles_result, hl]
  exact Job.collect_of_forall₂ (g.looks_generateFile _) h

end Generator

end NativeUi
