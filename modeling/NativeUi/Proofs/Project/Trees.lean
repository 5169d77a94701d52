import NativeUi.Proofs.Project.Files

/-!
# Projects show the trees and nothing else

Two values with the same components are accepted or refused together, and a project made of one is
the project made of the other. If only the first tree is shown, the other ones do not matter either.
-/
namespace NativeUi

namespace Bundle

/-- Two objects that may differ in everything but the components of their `ui`. -/
inductive SameTrees : Json → Json → Prop
  | objects {root₁ root₂ fields₁ fields₂ : Fields Json}
      (ui₁ : Fields.find? root₁ "ui" = some (.object fields₁))
      (ui₂ : Fields.find? root₂ "ui" = some (.object fields₂))
      (components : Fields.find? fields₁ "components" = Fields.find? fields₂ "components") :
      SameTrees (.object root₁) (.object root₂)

def readTrees : Option Json → Except BundleError (List Node)
  | none => .error (.malformed .componentsMissing)
  | some (.list items) => readComponents 0 items
  | some _ => .error (.malformed .componentsNotSequence)

theorem map_components_readUi (fields : Fields Json) :
    (readUi fields).map UiSection.components = readTrees (Fields.find? fields "components") := by
  unfold readUi
  match Fields.find? fields "components" with
  | none => rfl
  | some (.list items) =>
    dsimp only [readTrees]
    cases readComponents 0 items <;> rfl
  | some .null => rfl
  | some (.bool _) => rfl
  | some (.number _) => rfl
  | some (.string _) => rfl
  | some (.object _) => rfl

/-- No section has a say in what is accepted and in which trees there are. -/
theorem map_roots_ofJson {root fields : Fields Json}
    (h : Fields.find? root "ui" = some (.object fields)) :
    (ofJson (.object root)).map (fun lb => lb.bundle.roots) =
      readTrees (Fields.find? fields "components") := by
  rw [← map_components_readUi]
  simp only [ofJson, h]
  cases readUi fields <;> rfl

theorem SameTrees.map_roots {v₁ v₂ : Json} (h : SameTrees v₁ v₂) :
    (ofJson v₁).map (fun lb => lb.bundle.roots) = (ofJson v₂).map fun lb => lb.bundle.roots := by
  obtain ⟨ui₁, ui₂, hc⟩ := h
  rw [map_roots_ofJson ui₁, map_roots_ofJson ui₂, hc]

end Bundle

namespace Generator

theorem generateFiles_eq_of_roots (g : Generator) {b₁ b₂ : Bundle} (h : b₁.roots = b₂.roots) :
    g.generateFiles b₁ = g.generateFiles b₂ := by
  unfold generateFiles lowerBundle
  rw [h]

theorem lowerRoots_first (d : Source.Dialect) (ns : List Node) :
    lowerRoots d .first ns = ns.head?.map (Source.lower d) := by
  cases ns <;> rfl

theorem warnUnsupported_result (g : Generator) (ns : List Node) (t : FileTree) :
    (Job.forAll g.warnUnsupported ns t).result = .ok () := by
  induction ns with
  | nil => rfl
  | cons n ns ih =>
    have hn : (g.warnUnsupported n t).result = .ok () := by
      unfold warnUnsupported
      cases n.unsupportedKinds <;> rfl
    rw [Job.forAll, Job.bind_eq_of_ok hn, g.looks_warnUnsupported n t]
    exact ih

theorem lowerBundle_result (g : Generator) (b : Bundle) (t : FileTree) :
    (g.lowerBundle b t).result =
      (lowerRoots g.platform.dialect g.options.roots b.roots).elim (.error .noRoot) .ok := by
  unfold lowerBundle
  cases lowerRoots g.platform.dialect g.options.roots b.roots <;> dsimp only <;> split <;> rfl

theorem generateFiles_result (g : Generator) (b : Bundle) (t : FileTree) :
    (g.generateFiles b t).result =
      ((lowerRoots g.platform.dialect g.options.roots b.roots).elim (.error .noRoot) .ok >>=
        fun content =>
          (Job.collect (g.generateFile (templateData g.options content))
            g.platform.manifest t).result) := by
  rw [← lowerBundle_result g b t]
  unfold generateFiles
  change (Job.bind _ _ t).result = _
  rw [(Job.looks_forAll g.looks_warnUnsupported b.roots).bind_result,
    g.warnUnsupported_result b.roots t, ok_bind]
  exact (g.looks_lowerBundle b).bind_result _ t

theorem generateFile_builtin {g : Generator} (hg : g.templates = .builtin) (data : Json)
    (entry : ManifestEntry) (t u : FileTree) :
    (g.generateFile data entry u).result = (g.generateFile data entry t).result := by
  have hload : (loadTemplate g.templates g.platform entry.template u).result =
      (loadTemplate g.templates g.platform entry.template t).result := by
    rw [hg, loadTemplate]
    cases g.platform.builtin? entry.template <;> rfl
  unfold generateFile
  change (Job.bind _ _ u).result = (Job.bind _ _ t).result
  rw [(looks_loadTemplate _ _ _).bind_result, (looks_loadTemplate _ _ _).bind_result, hload]
  congr 1
  funext source
  change (Job.bind _ _ u).result = (Job.bind _ _ t).result
  rw [(looks_fillTemplate _ _).bind_result, (looks_fillTemplate _ _).bind_result]
  congr 1
  funext path
  split
  · rfl
  · change (Job.bind _ _ u).result = (Job.bind _ _ t).result
    rw [(looks_fillTemplate _ _).bind_result, (looks_fillTemplate _ _).bind_result]
    rfl

theorem generateFiles_builtin {g : Generator} (hg : g.templates = .builtin) (b : Bundle)
    (t u : FileTree) : (g.generateFiles b u).result = (g.generateFiles b t).result := by
  rw [generateFiles_result, generateFiles_result]
  congr 1
  funext content
  exact Job.collect_result_congr (g.looks_generateFile _)
    (fun entry => generateFile_builtin hg _ entry t u) _

theorem generateFiles_result_of_head (g : Generator) (hg : g.options.roots = .first)
    {b₁ b₂ : Bundle} (h : b₁.roots.head? = b₂.roots.head?) (t : FileTree) :
    (g.generateFiles b₁ t).result = (g.generateFiles b₂ t).result := by
  rw [generateFiles_result, generateFiles_result, hg, lowerRoots_first, lowerRoots_first, h]

/-- A project hangs on the trees of a bundle only, and on the first of them where only that is
shown: no other section or entry has a say, well-formed or not. -/
theorem generateFiles_of_sameTrees :
    (∀ v₁ v₂, Bundle.SameTrees v₁ v₂ →
      ((∃ lb, Bundle.ofJson v₁ = .ok lb) ↔ ∃ lb, Bundle.ofJson v₂ = .ok lb) ∧
      ∀ lb₁ lb₂, Bundle.ofJson v₁ = .ok lb₁ → Bundle.ofJson v₂ = .ok lb₂ →
        ∀ (g : Generator) (t : FileTree),
          g.generateFiles lb₁.bundle t = g.generateFiles lb₂.bundle t) ∧
    ∀ b₁ b₂ : Bundle, b₁.roots.head? = b₂.roots.head? →
      ∀ g : Generator, g.options.roots = .first → ∀ t : FileTree,
        (g.generateFiles b₁ t).result = (g.generateFiles b₂ t).result := by
  refine ⟨fun v₁ v₂ h => ⟨?_, ?_⟩, fun b₁ b₂ h g hg t => g.generateFiles_result_of_head hg h t⟩
  · rw [← exists_map_ok_iff fun lb => lb.bundle.roots, h.map_roots, exists_map_ok_iff]
  · intro lb₁ lb₂ h₁ h₂ g t
    have hroots : lb₁.bundle.roots = lb₂.bundle.roots := by
      have hmap := h.map_roots
      rw [h₁, h₂] at hmap
      exact Except.ok.inj hmap
    rw [g.generateFiles_eq_of_roots hroots]

def noisyBundle : Json := .object [("design", .list []), ("x", .bool true), ("ui", .object [
  ("layout", .string "grid"), ("components", .list [.object [("type", .string "text")]]),
  ("theme", .null)]), ("state", .string "none"), ("action", .null)]

def bareBundle : Json :=
  .object [("ui", .object [("components", .list [.object [("type", .string "text")]])])]

theorem generateFiles_of_sameTrees_noisyBundle :
    Bundle.SameTrees noisyBundle bareBundle ∧
      ∃ lb₁ lb₂, Bundle.ofJson noisyBundle = .ok lb₁ ∧ Bundle.ofJson bareBundle = .ok lb₂ ∧
        ∀ (g : Generator) (t : FileTree),
          g.generateFiles lb₁.bundle t = g.generateFiles lb₂.bundle t ∧
          (g.options.roots = .first →
            (g.generateFiles (.ofRoots (lb₂.bundle.roots ++ lb₂.bundle.roots)) t).result =
              (g.generateFiles lb₂.bundle t).result) := by
  have hs : Bundle.SameTrees noisyBundle bareBundle := .objects rfl rfl rfl
  obtain ⟨lb₂, h₂⟩ : ∃ lb, Bundle.ofJson bareBundle = .ok lb := ⟨_, rfl⟩
  obtain ⟨lb₁, h₁⟩ := (generateFiles_of_sameTrees.1 _ _ hs).1.mpr ⟨lb₂, h₂⟩
  refine ⟨hs, lb₁, lb₂, h₁, h₂, fun g t => ⟨?_, fun hg => ?_⟩⟩
  · exact (generateFiles_of_sameTrees.1 _ _ hs).2 lb₁ lb₂ h₁ h₂ g t
  · refine generateFiles_of_sameTrees.2 _ _ ?_ g hg t
    change (lb₂.bundle.roots ++ lb₂.bundle.roots).head? = _
    rw [List.head?_append, Option.or_self]

end Generator

end NativeUi
