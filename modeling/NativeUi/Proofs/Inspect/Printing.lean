import NativeUi.Inspect
import NativeUi.Proofs.FileTree.Stored
import NativeUi.Proofs.Json.RoundTrip
import NativeUi.Proofs.Project.Generation

/-!
# What an inspection prints

An inspection reads the bundle first and prints afterwards, so that it prints nothing or all there
is to show, unless the output fails: then it has printed what the output has taken. The tree is left
as it is in any case. What is printed of a value is a text of the value, from which the value can be
read again as it was.
-/
namespace NativeUi

open NativeUi.Workspace

/-! ### Outputs -/

inductive Output.Ends (out : Output) (taken : String) (o : Outcome FileTree FileError Unit) :
    List String → Prop
  | whole {texts : List String} (result : o.result = .ok ())
      (printed : o.printed = String.join texts) : Ends out taken o texts
  | part {texts more : List String} {text : String} {n : Nat} {e : FileError}
      (refused : out.refuses (taken ++ String.join texts) text = some (n, e))
      (result : o.result = .error e)
      (printed : o.printed = String.join texts ++ String.ofList (text.toList.take n)) :
      Ends out taken o (texts ++ text :: more)

namespace Output

theorem printAll_cons_of_none {out : Output} {taken text : String}
    (h : out.refuses taken text = none) (texts : List String) :
    out.printAll taken (text :: texts) =
      Job.bind (Job.print text) fun _ => out.printAll (taken ++ text) texts := by
  rw [printAll, h]
  rfl

theorem printAll_cons_of_some {out : Output} {taken text : String} {n : Nat} {e : FileError}
    (h : out.refuses taken text = some (n, e)) (texts : List String) :
    out.printAll taken (text :: texts) =
      Job.bind (Job.print (String.ofList (text.toList.take n))) fun _ => Job.fail e := by
  rw [printAll, h]
  rfl

theorem looks_printAll (out : Output) (texts : List String) :
    ∀ taken, (out.printAll taken texts).Looks := by
  induction texts with
  | nil => exact fun _ => Job.looks_pure ()
  | cons text texts ih =>
    intro taken
    cases h : out.refuses taken text with
    | none =>
      rw [printAll_cons_of_none h]
      exact Job.Looks.bind (fun _ => rfl) fun _ => ih _
    | some x =>
      rw [printAll_cons_of_some h]
      exact Job.Looks.bind (fun _ => rfl) fun _ => Job.looks_fail _

theorem ends_printAll (out : Output) (t : FileTree) (texts : List String) :
    ∀ taken, out.Ends taken (out.printAll taken texts t) texts := by
  induction texts with
  | nil => exact fun _ => .whole rfl rfl
  | cons text texts ih =>
    intro taken
    cases h : out.refuses taken text with
    | none =>
      have hr : (out.printAll taken (text :: texts) t).result =
          (out.printAll (taken ++ text) texts t).result := by
        rw [printAll_cons_of_none h, Job.bind_eq_of_ok (a := ()) rfl]
        rfl
      have hp : (out.printAll taken (text :: texts) t).printed =
          text ++ (out.printAll (taken ++ text) texts t).printed := by
        rw [printAll_cons_of_none h, Job.bind_printed_of_ok (a := ()) rfl, Job.print_printed]
        rfl
      cases ih (taken ++ text) with
      | whole result printed =>
        exact .whole (hr.trans result) (by rw [hp, printed, String.join_cons])
      | @part before more text' n e refused result printed =>
        have hrefused :
            out.refuses (taken ++ String.join (text :: before)) text' = some (n, e) := by
          rwa [String.join_cons, ← String.append_assoc]
        refine .part hrefused (hr.trans result) (hp.trans ?_)
        rw [printed, String.join_cons, String.append_assoc]
    | some x =>
      obtain ⟨n, e⟩ := x
      have hend : (out.printAll taken (text :: texts) t).result = .error e ∧
          (out.printAll taken (text :: texts) t).printed =
            String.ofList (text.toList.take n) := by
        rw [printAll_cons_of_some h, Job.bind_printed_of_ok (a := ()) rfl, Job.print_printed,
          Job.bind_eq_of_ok (a := ()) rfl]
        exact ⟨rfl, String.append_empty ..⟩
      have hrefused : out.refuses (taken ++ String.join []) text = some (n, e) := by
        rw [String.join_nil, String.append_empty, h]
      refine .part hrefused hend.1 ?_
      rw [String.join_nil, String.empty_append, hend.2]

end Output

namespace Inspect

/-! ### Texts -/

@[ext] structure Row where
  depth : Nat
  kind : Kind
  props : Fields Json

def Row.line (r : Row) : String := nodeLine r.depth r.kind r.props

mutual

def outline (depth : Nat) : Node → List Row
  | ⟨_, kind, props, children⟩ => ⟨depth, kind, props⟩ :: outlineAll (depth + 1) children

def outlineAll (depth : Nat) : List Node → List Row
  | [] => []
  | n :: ns => outline depth n ++ outlineAll depth ns

end

mutual

theorem lines_eq_map (depth : Nat) : ∀ n : Node, lines depth n = (outline depth n).map Row.line
  | ⟨_, kind, props, children⟩ => by
    rw [lines, outline, linesAll_eq_map (depth + 1) children, List.map_cons, Row.line]

theorem linesAll_eq_map (depth : Nat) :
    ∀ ns : List Node, linesAll depth ns = (outlineAll depth ns).map Row.line
  | [] => rfl
  | n :: ns => by
    rw [linesAll, outlineAll, lines_eq_map depth n, linesAll_eq_map depth ns, List.map_append]

end

def rowsText (rows : List Row) : String := String.join (rows.map Row.line)

theorem join_treesTexts (b : Bundle) :
    String.join (treesTexts b) = "UI Tree:\n\n" ++ rowsText (outlineAll 0 b.roots) := by
  rw [treesTexts, linesAll_eq_map, String.join_cons, rowsText]

theorem join_valueTexts (v : Json) :
    String.join (valueTexts v) = "Semantic Bundle:\n\n" ++ (v.pretty ++ "\n") := by
  rw [valueTexts, String.join_cons, String.join_cons, String.join_nil, String.append_empty]

end Inspect

open NativeUi.Inspect

theorem silent_loadBundle (path : Path) : Job.Silent (Generator.loadBundle path) := by
  rw [Generator.loadBundle_eq]
  apply Job.Silent.bind (Job.silent_ask _)
  intro loaded
  apply Job.Silent.bind
  · exact Job.silent_forAll (fun _ => Job.silent_log _ _ _ _) _
  · exact fun _ => Job.silent_pure _

def InspectTarget.view (t : FileTree) (path : Path) :
    InspectTarget → Except BundleError (List String)
  | .ui => (Bundle.load t path).map fun loaded => treesTexts loaded.bundle
  | .semantic => (Bundle.readRaw t path).map valueTexts

/-- How an inspection of a tree ends: it prints nothing, or all it has to show, or as much of it as
the output takes before it fails. -/
inductive Shows (out : Output) (o : Outcome FileTree BuildError Unit) (t : FileTree) :
    Except BundleError (List String) → Prop
  | whole {texts : List String} (result : o.result = .ok ())
      (printed : o.printed = String.join texts) (state : o.state = t) : Shows out o t (.ok texts)
  | part {texts more : List String} {text : String} {n : Nat} {e : FileError}
      (refused : out.refuses (String.join texts) text = some (n, e))
      (result : o.result = .error (.io e))
      (printed : o.printed = String.join texts ++ String.ofList (text.toList.take n))
      (state : o.state = t) : Shows out o t (.ok (texts ++ text :: more))
  | nothing {e : BundleError} (result : o.result = .error (.ofBundleError e))
      (printed : o.printed = "") (state : o.state = t) : Shows out o t (.error e)

theorem shows_bind {α : Type} {x : Job FileTree BuildError α} (hl : x.Looks) (hs : x.Silent)
    {t : FileTree} {found : Except BundleError α}
    (hx : (x t).result = found.mapError .ofBundleError) (out : Output) (texts : α → List String) :
    Shows out (Job.bind x (fun a => (out.printAll "" (texts a)).mapError .io) t) t
      (found.map texts) := by
  cases found with
  | error e =>
    refine .nothing ?_ ?_ ?_
    · rw [Job.bind_eq_of_error hx]
    · rw [Job.bind_printed_of_error hx, hs t]
    · rw [Job.bind_eq_of_error hx, hl t]
  | ok a =>
    obtain ⟨o, ho⟩ : ∃ o, out.printAll "" (texts a) t = o := ⟨_, rfl⟩
    have hends := out.ends_printAll t (texts a) ""
    have hlooks := out.looks_printAll (texts a) "" t
    rw [ho] at hends hlooks
    generalize hjob : Job.bind x (fun a => (out.printAll "" (texts a)).mapError .io) t = all
    have hresult : all.result = o.result.mapError .io := by
      rw [← hjob, Job.bind_eq_of_ok hx, Job.mapError_result, hl t, ho]
    have hprinted : all.printed = o.printed := by
      rw [← hjob, Job.bind_printed_of_ok hx, hs t, Job.mapError_printed, hl t, ho,
        String.empty_append]
    have hstate : all.state = t := by
      rw [← hjob, Job.bind_eq_of_ok hx, Job.mapError_state, hl t, ho, hlooks]
    rw [Except.map]
    generalize texts a = ts at hends
    cases hends with
    | whole result printed =>
      exact .whole (by rw [hresult, result]; rfl) (hprinted.trans printed) hstate
    | part refused result printed =>
      rw [String.empty_append] at refused
      exact .part refused (by rw [hresult, result]; rfl) (hprinted.trans printed) hstate

theorem inspectTo_ui (out : Output) (dir : Path) :
    inspectTo out dir .ui =
      Job.bind ((Generator.loadBundle (bundlePath dir)).mapError .ofBundleError)
        fun b => (out.printAll "" (treesTexts b)).mapError .io := rfl

theorem inspectTo_semantic (out : Output) (dir : Path) :
    inspectTo out dir .semantic =
      Job.bind (Job.ask fun t => (Bundle.readRaw t (bundlePath dir)).mapError .ofBundleError)
        fun v => (out.printAll "" (valueTexts v)).mapError .io := rfl

theorem shows_inspectTo (out : Output) (dir : Path) (m : InspectTarget) (t : FileTree) :
    Shows out (inspectTo out dir m t) t (m.view t (bundlePath dir)) := by
  cases m with
  | ui =>
    have hfound : ((Generator.loadBundle (bundlePath dir)).mapError BuildError.ofBundleError
        t).result = ((Bundle.load t (bundlePath dir)).map LoadedBundle.bundle).mapError
          .ofBundleError := by
      rw [Job.mapError_result, Generator.loadBundle_result]
    have hview : InspectTarget.ui.view t (bundlePath dir) =
        ((Bundle.load t (bundlePath dir)).map LoadedBundle.bundle).map treesTexts := by
      rw [InspectTarget.view]
      cases Bundle.load t (bundlePath dir) <;> rfl
    rw [inspectTo_ui, hview]
    exact shows_bind ((Generator.looks_loadBundle _).mapError _)
      ((silent_loadBundle _).mapError _) hfound out treesTexts
  | semantic =>
    rw [inspectTo_semantic, InspectTarget.view]
    exact shows_bind (Job.looks_ask _) (Job.silent_ask _) (Job.ask_result _ t) out valueTexts

theorem inspect_of_view {dir : Path} {m : InspectTarget} {t : FileTree} {texts : List String}
    (h : m.view t (bundlePath dir) = .ok texts) :
    (inspect dir m t).result = .ok () ∧ (inspect dir m t).printed = String.join texts ∧
      (inspect dir m t).state = t := by
  have hshows : Shows .unfailing (inspect dir m t) t (.ok texts) :=
    h ▸ shows_inspectTo .unfailing dir m t
  cases hshows with
  | whole result printed state => exact ⟨result, printed, state⟩
  | part refused => cases refused

theorem inspect_ui_of_load {dir : Path} {t : FileTree} {b : LoadedBundle}
    (h : Bundle.load t (bundlePath dir) = .ok b) :
    (inspect dir .ui t).result = .ok () ∧
      (inspect dir .ui t).printed =
        "UI Tree:\n\n" ++ rowsText (outlineAll 0 b.bundle.roots) := by
  have hview : InspectTarget.ui.view t (bundlePath dir) = .ok (treesTexts b.bundle) := by
    rw [InspectTarget.view, h]
    rfl
  obtain ⟨hresult, hprinted, -⟩ := inspect_of_view hview
  exact ⟨hresult, hprinted.trans (join_treesTexts b.bundle)⟩

theorem view_semantic {t : FileTree} {path : Path} {text : String} {v : Json}
    (ht : t.readText path = .ok text) (hv : Json.parse text = .ok v) :
    InspectTarget.semantic.view t path = .ok (valueTexts v) := by
  have hraw : Bundle.readRaw t path = .ok v := by
    rw [Bundle.readRaw, FileTree.isFile_of_readText ht, ht]
    simp [hv]
  rw [InspectTarget.view, hraw]
  rfl

/-- The whole bundle is printed below a header and a blank line. What is printed is read as the
value again, with its members in their order and its lists and objects as deep as they were; and of
a file that holds it, whatever tree the file is in, the same is printed once more. -/
theorem inspect_semantic_lossless {dir : Path} {t : FileTree} {text : String} {v : Json}
    (ht : t.readText (bundlePath dir) = .ok text) (hv : Json.parse text = .ok v)
    (hr : v.ReadsBack) :
    ∃ p, (inspect dir .semantic t).result = .ok () ∧
      (inspect dir .semantic t).printed = "Semantic Bundle:\n\n" ++ (p ++ "\n") ∧
      (inspect dir .semantic t).state = t ∧
      Json.parse p = .ok v ∧
      ∀ dir' u, u.readText (bundlePath dir') = .ok p →
        (inspect dir' .semantic u).result = .ok () ∧
        (inspect dir' .semantic u).printed = (inspect dir .semantic t).printed := by
  obtain ⟨hu, hd⟩ := Json.unique_of_parse hv
  have hp : Json.parse v.pretty = .ok v := Json.parse_pretty hr hu hd
  obtain ⟨hresult, hprinted, hstate⟩ := inspect_of_view (view_semantic ht hv)
  refine ⟨v.pretty, ?_, ?_, ?_, hp, ?_⟩
  · exact hresult
  · exact hprinted.trans (join_valueTexts v)
  · exact hstate
  · intro dir' u hu
    obtain ⟨hresult', hprinted', -⟩ := inspect_of_view (view_semantic hu hp)
    exact ⟨hresult', hprinted'.trans hprinted.symm⟩

def textTree (text : String) : FileTree :=
  (FileTree.writeWithParents (bundlePath ⟨"."⟩) (.text text) .empty).state

theorem readText_textTree (text : String) :
    (textTree text).readText (bundlePath ⟨"."⟩) = .ok text := by
  have hempty : FileTree.empty.Linkless := (FileTree.plain_of_isPlain (by decide)).noLink
  have hwritten : (FileTree.writeWithParents (bundlePath ⟨"."⟩) (.text "") .empty).result.isOk =
      true := by decide +kernel
  obtain ⟨_, hwritten⟩ := exists_of_isOk hwritten
  apply hempty.readText_writeWithParents
  rw [FileTree.writeWithParents_congr _ _ _ (.text ""), hwritten]

def mergedText : String :=
  "\x7b\"b\":[],\"a\":\x7b\"z\":-0,\"y\":[18446744073709551615,-9223372036854775808]\x7d,\"b\":" ++
    "[[\"\\u0007\\/\",\x7b\x7d]]\x7d"

theorem inspect_semantic_lossless_mergedText :
    ∃ v p, (textTree mergedText).readText (bundlePath ⟨"."⟩) = .ok mergedText ∧
      Json.parse mergedText = .ok v ∧ v.ReadsBack ∧
      (inspect ⟨"."⟩ .semantic (textTree mergedText)).printed =
        "Semantic Bundle:\n\n" ++ (p ++ "\n") ∧
      Json.parse p = .ok v ∧ (textTree p).readText (bundlePath ⟨"."⟩) = .ok p ∧
      (inspect ⟨"."⟩ .semantic (textTree p)).printed =
        (inspect ⟨"."⟩ .semantic (textTree mergedText)).printed := by
  have hparse : ((Json.parse mergedText).toOption.any fun v => decide v.ReadsBack) = true := by
    decide +kernel
  cases hv : Json.parse mergedText with
  | error e =>
    rw [hv] at hparse
    cases hparse
  | ok v =>
    rw [hv] at hparse
    have hr : v.ReadsBack := of_decide_eq_true hparse
    obtain ⟨p, -, hprinted, -, hp, hagain⟩ :=
      inspect_semantic_lossless (readText_textTree mergedText) hv hr
    exact ⟨v, p, readText_textTree mergedText, rfl, hr, hprinted, hp, readText_textTree p,
      (hagain ⟨"."⟩ (textTree p) (readText_textTree p)).2⟩

end NativeUi
