import NativeUi.Proofs.Build.Native
import NativeUi.Proofs.FileTree.Stored
import NativeUi.Proofs.Json.Record
import NativeUi.Proofs.Json.RoundTrip

/-!
# Configurations read back

What a configuration leaves out of its text is what its reader fills in. A file with the text of a
configuration is loaded as that configuration, or refused for what is wrong with it.
-/
namespace NativeUi

theorem RootPolicy.read_name {literal : String → Json.Literal} (hl : Json.Draft.Faithful literal)
    (r : RootPolicy) : RootPolicy.read (.spelt literal (.string r.name)) = .ok r := by
  rw [Json.Draft.spelt, RootPolicy.read, Json.Draft.readVariant, hl]
  cases r with
  | first => rfl
  | stack => rfl

namespace Config

open NativeUi.Json NativeUi.Workspace

/-! ### The parts of a configuration -/

section Reading

variable {literal : String → Literal}

theorem readProject_projectJson (hl : Draft.Faithful literal) (p : ProjectConfig) :
    readProject (.spelt literal (projectJson p)) = .ok p := by
  have hm : readMembers projectFields skipOther ⟨none, none⟩ (Draft.speltFields literal
      (("name", .string p.name) :: optionalField "package_id" p.packageId)) =
        .ok ⟨some p.name, p.packageId.map some⟩ := by
    refine (readMembers_known hl (by rfl) (by rfl) (by rfl)
      (Draft.readString_spelt hl _ _) _).trans ?_
    cases p.packageId with
    | none => rfl
    | some id =>
      exact (readMembers_known hl (by rfl) (by rfl) (by rfl)
        (Draft.readOptional_spelt hl _ _) []).trans rfl
  rw [readProject, projectJson, Draft.spelt, readRecord_closed _ hm, ok_bind]
  cases p with
  | mk name id => cases id <;> rfl

theorem readBuild_buildJson (hl : Draft.Faithful literal) (b : BuildConfig) :
    readBuild (.spelt literal (buildJson b)) = .ok b := by
  have hroots (command : Option (List String)) (dir : Option (Option String)) :
      readMembers buildFields skipOther ⟨command, dir, none⟩
        (Draft.speltFields literal [("roots", .string b.roots.name)]) =
          .ok ⟨command, dir, some b.roots⟩ :=
    (readMembers_known hl (by rfl) (by rfl) (by rfl) (RootPolicy.read_name hl b.roots) []).trans rfl
  have hm : readMembers buildFields skipOther ⟨none, none, none⟩
      (Draft.speltFields literal ([("web_command", .list (b.webCommand.map .string))] ++
        optionalField "templates_dir" (b.templatesDir.map Path.text) ++
        [("roots", .string b.roots.name)])) =
      .ok ⟨some b.webCommand, (b.templatesDir.map Path.text).map some, some b.roots⟩ := by
    refine (readMembers_known hl (by rfl) (by rfl) (by rfl)
      (Draft.readSequence_strings hl _ _) _).trans ?_
    cases b.templatesDir with
    | none => exact hroots _ none
    | some dir =>
      refine (readMembers_known hl (by rfl) (by rfl) (by rfl)
        (Draft.readOptional_spelt hl _ _) _).trans ?_
      exact hroots _ (some (some dir.text))
  rw [readBuild, buildJson, Draft.spelt, readRecord_closed _ hm, ok_bind]
  cases b with
  | mk command dir roots => cases dir <;> rfl

theorem read_toJson (hl : Draft.Faithful literal) (c : Config) :
    read (.spelt literal c.toJson) = .ok c := by
  have hm : readMembers fieldReaders skipOther ⟨none, none, none⟩
      (Draft.speltFields literal ([("version", .string c.version),
        ("project", projectJson c.project)] ++
          if c.build = .default then [] else [("build", buildJson c.build)])) =
      .ok ⟨some c.version, some c.project, if c.build = .default then none else some c.build⟩ := by
    refine (readMembers_known hl (by rfl) (by rfl) (by rfl)
      (Draft.readString_spelt hl _ _) _).trans ?_
    refine (readMembers_known hl (by rfl) (by rfl) (by rfl)
      (readProject_projectJson hl _) _).trans ?_
    split
    · rfl
    · exact (readMembers_known hl (by rfl) (by rfl) (by rfl)
        (readBuild_buildJson hl _) []).trans rfl
  rw [read, toJson, Draft.spelt, readRecord_closed _ hm, ok_bind]
  by_cases hb : c.build = .default
  · rw [if_pos hb, ← hb]
    rfl
  · rw [if_neg hb]
    rfl

end Reading

/-! ### Nesting -/

theorem depthFields_optionalField (name : String) (s : Option String) :
    depthFields (optionalField name s) = 0 := by
  cases s with
  | none => rfl
  | some s => rfl

theorem depth_projectJson (p : ProjectConfig) : (projectJson p).depth = 1 := by
  rw [projectJson, depth, depthFields, depthFields_optionalField]
  rfl

theorem depth_buildJson (b : BuildConfig) : (buildJson b).depth = 2 := by
  have hwords : depthItems (b.webCommand.map .string) ≤ 0 := by
    apply depthItems_le_iff.mpr
    intro x hx
    obtain ⟨w, -, rfl⟩ := List.mem_map.mp hx
    exact Nat.le_refl 0
  rw [buildJson, depth, depthFields_append, depthFields_append, depthFields_optionalField]
  simp only [depthFields, depth]
  omega

theorem depth_toJson_le (c : Config) : c.toJson.depth ≤ 3 := by
  have hbuild :
      depthFields (if c.build = .default then [] else [("build", buildJson c.build)]) ≤ 2 := by
    split
    · exact Nat.zero_le 2
    · rw [depthFields, depth_buildJson, depthFields]
      omega
  rw [toJson, depth, depthFields_append]
  simp only [depthFields, depth, depth_projectJson]
  omega

theorem readsBack_toJson (c : Config) : c.toJson.ReadsBack := by
  have hwords (words : List String) : doublesItems (words.map .string) = [] := by
    induction words with
    | nil => rfl
    | cons w words ih => exact ih
  have hoptional (name : String) (s : Option String) :
      doublesFields (optionalField name s) = [] := by
    cases s with
    | none => rfl
    | some s => rfl
  have hproject : (projectJson c.project).doubles = [] := hoptional _ _
  have hbuild : (buildJson c.build).doubles = [] := by
    simp [buildJson, doubles, doublesFields, doublesFields_append, hwords, hoptional]
  have hall : c.toJson.doubles = [] := by
    rw [toJson]
    split <;> simp [doubles, doublesFields, hproject, hbuild]
  simp [ReadsBack, hall]

theorem parse_toJson (c : Config) : parse c.toJson.pretty = .ok c := by
  have hd : c.toJson.depth ≤ depthLimit := Nat.le_trans (depth_toJson_le c) (by decide)
  rw [parse, readText_pretty _ (readsBack_toJson c) hd, read_toJson faithful_writtenLiteral]

/-! ### The file -/

theorem check_toJson (c : Config) :
    check c.toJson.pretty = c.validate.map fun _ => c := by
  rw [check, parse_toJson]
  change (c.validate >>= fun _ => Except.ok c) = _
  cases c.validate with
  | error fault => rfl
  | ok u => rfl

theorem load_of_readText {dir : Path} {t : FileTree} {text : String}
    (h : t.readText (configPath dir) = .ok text) :
    (load dir t).result =
      (check text).mapError fun fault => .config (configPath dir) fault.message := by
  rw [load_result, if_pos (FileTree.isFile_of_readText h), h]
  rfl

/-- A configuration is read back from its text, although what is unset and a build section with
nothing of its own are left out there. A file with that text is loaded as the configuration if it
passes its check, and refused with the fault that the check finds otherwise. -/
theorem reads_back (c : Config) :
    parse c.toJson.pretty = .ok c ∧
      c.toJson.member "project" = some (projectJson c.project) ∧
      c.toJson.member "build" =
        (if c.build = .default then none else some (buildJson c.build)) ∧
      (projectJson c.project).member "package_id" = c.project.packageId.map .string ∧
      (buildJson c.build).member "templates_dir" =
        c.build.templatesDir.map (fun dir => .string dir.text) ∧
      ∀ (dir : Path) (t : FileTree), t.readText (configPath dir) = .ok c.toJson.pretty →
        (load dir t).state = t ∧
          (c.validate = .ok () → (load dir t).result = .ok c) ∧
          ∀ fault, c.validate = .error fault →
            (load dir t).result = .error (.config (configPath dir) fault.message) := by
  refine ⟨parse_toJson c, rfl, ?_, ?_, ?_, ?_⟩
  · by_cases hb : c.build = .default
    · rw [toJson, if_pos hb, if_pos hb]
      rfl
    · rw [toJson, if_neg hb, if_neg hb]
      rfl
  · rw [projectJson]
    cases c.project.packageId with
    | none => rfl
    | some id => rfl
  · rw [buildJson]
    cases c.build.templatesDir with
    | none => rfl
    | some dir => rfl
  · intro dir t h
    have hload := load_of_readText h
    rw [check_toJson] at hload
    refine ⟨looks_load dir t, ?_, ?_⟩
    · intro hv
      rw [hload, hv]
      rfl
    · intro fault hv
      rw [hload, hv]
      rfl

def configTree (c : Config) : FileTree :=
  FileTree.empty.put ["work", "forge.config.json"] (.file (.text c.toJson.pretty) .plain)

def stackedConfig (id : String) : Config :=
  ⟨"2", ⟨"Tom & \"Jerry\"", some id⟩, ⟨["make", "bundle"], some ⟨"tpl"⟩, .stack⟩⟩

theorem reads_back_stacked :
    (configTree (stackedConfig "io.demo")).readText (configPath ⟨"."⟩) =
        .ok (stackedConfig "io.demo").toJson.pretty ∧
      (load ⟨"."⟩ (configTree (stackedConfig "io.demo"))).result =
        .ok (stackedConfig "io.demo") ∧
      (load ⟨"."⟩ (configTree (stackedConfig "demo"))).result =
        .error (.config (configPath ⟨"."⟩) (ConfigFault.badPackageId "demo").message) := by
  have hread : (configTree (stackedConfig "io.demo")).readText (configPath ⟨"."⟩) =
      .ok (stackedConfig "io.demo").toJson.pretty := by decide +kernel
  have hread' : (configTree (stackedConfig "demo")).readText (configPath ⟨"."⟩) =
      .ok (stackedConfig "demo").toJson.pretty := by decide +kernel
  have hgood := (reads_back (stackedConfig "io.demo")).2.2.2.2.2 ⟨"."⟩ _ hread
  have hbad := (reads_back (stackedConfig "demo")).2.2.2.2.2 ⟨"."⟩ _ hread'
  exact ⟨hread, hgood.2.1 rfl, hbad.2.2 _ rfl⟩

end Config

end NativeUi
