import NativeUi.Proofs.Build.Orchestrator

/-!
# The registry of an orchestrator

Stages are registered one after the other, and each drives out the one that was there for its
target. A run takes the first stage that it finds for its target. This is the last one registered
for it, since a registry never has two stages for one target.
-/
namespace NativeUi

variable {σ : Type}

namespace NativeStage

def IsLast (regs : List (NativeStage σ)) (i : Fin regs.length) : Prop :=
  ∀ j, i < j → (regs.get j).target ≠ (regs.get i).target

instance (regs : List (NativeStage σ)) : DecidablePred (IsLast regs) := fun i =>
  Nat.decidableForallFin fun j => i < j → (regs.get j).target ≠ (regs.get i).target

def lasting : List (NativeStage σ) → List (NativeStage σ)
  | [] => []
  | s :: later =>
    if later.any (fun r => r.target == s.target) then lasting later else s :: lasting later

def last? (regs : List (NativeStage σ)) (t : Target) : Option (NativeStage σ) :=
  (regs.filter fun s => s.target == t).getLast?

theorem isLast_cons_zero {s : NativeStage σ} {later : List (NativeStage σ)} :
    IsLast (s :: later) 0 ↔ later.any (fun r => r.target == s.target) = false := by
  rw [List.any_eq_false]
  constructor
  · intro h r hr
    obtain ⟨j, rfl⟩ := List.mem_iff_get.mp hr
    simpa using h j.succ (Fin.succ_pos j)
  · intro h j hj
    cases j using Fin.cases with
    | zero => exact absurd hj (Fin.not_lt_zero 0)
    | succ j => simpa using h _ (List.get_mem later j)

theorem isLast_cons_succ {s : NativeStage σ} {later : List (NativeStage σ)} {i : Fin later.length} :
    IsLast (s :: later) i.succ ↔ IsLast later i := by
  constructor
  · intro h j hj
    exact h j.succ (Fin.succ_lt_succ_iff.mpr hj)
  · intro h j hj
    cases j using Fin.cases with
    | zero => exact absurd hj (Fin.not_lt_zero _)
    | succ j => exact h j (Fin.succ_lt_succ_iff.mp hj)

/-- What lasts was registered at the last places for the targets, in their order. -/
theorem exists_places (regs : List (NativeStage σ)) :
    ∃ places : List (Fin regs.length), places.Pairwise (· < ·) ∧
      (∀ i, i ∈ places ↔ IsLast regs i) ∧ lasting regs = places.map regs.get := by
  induction regs with
  | nil => exact ⟨[], .nil, fun i => i.elim0, rfl⟩
  | cons s later ih =>
    obtain ⟨places, hlt, hmem, heq⟩ := ih
    have hlt' : (places.map Fin.succ).Pairwise (· < ·) :=
      hlt.map Fin.succ fun _ _ => Fin.succ_lt_succ_iff.mpr
    have hmem' (i : Fin later.length) :
        i.succ ∈ places.map Fin.succ ↔ IsLast (s :: later) i.succ := by
      rw [isLast_cons_succ, ← hmem]
      simp
    have hget : (places.map Fin.succ).map (s :: later).get = lasting later := by
      rw [heq, List.map_map]
      rfl
    cases h : later.any (fun r => r.target == s.target) with
    | true =>
      refine ⟨places.map Fin.succ, hlt', fun i => ?_, ?_⟩
      · cases i using Fin.cases with
        | zero => simp [isLast_cons_zero, h, Fin.succ_ne_zero]
        | succ i => exact hmem' i
      · rw [hget, lasting, if_pos h]
    | false =>
      refine ⟨0 :: places.map Fin.succ, List.pairwise_cons.mpr ⟨?_, hlt'⟩, fun i => ?_, ?_⟩
      · intro i hi
        obtain ⟨k, -, rfl⟩ := List.mem_map.mp hi
        exact Fin.succ_pos k
      · cases i using Fin.cases with
        | zero => simp [isLast_cons_zero, h]
        | succ i => rw [← hmem' i, List.mem_cons, or_iff_right (Fin.succ_ne_zero i)]
      · rw [List.map_cons, hget, lasting, if_neg (by rw [h]; exact Bool.false_ne_true)]
        rfl

theorem last?_cons (s : NativeStage σ) (regs : List (NativeStage σ)) (t : Target) :
    last? (s :: regs) t = (last? regs t).or (if s.target = t then some s else none) := by
  unfold last?
  by_cases h : s.target = t
  · rw [List.filter_cons_of_pos (by simpa using h), List.getLast?_cons, if_pos h]
    cases (regs.filter fun s => s.target == t).getLast? <;> rfl
  · rw [List.filter_cons_of_neg (by simpa using h), if_neg h, Option.or_none]

theorem last?_insert {before after : List (NativeStage σ)} {s : NativeStage σ} {t : Target}
    (h : s.target ≠ t) : last? (before ++ s :: after) t = last? (before ++ after) t := by
  unfold last?
  rw [List.filter_append, List.filter_cons_of_neg (by simpa using h), List.filter_append]

end NativeStage

namespace Orchestrator

open NativeStage (IsLast lasting last?)

def registerAll (o : Orchestrator σ) (regs : List (NativeStage σ)) : Orchestrator σ :=
  regs.foldl withNative o

/-! ### One registration -/

theorem nodup_withNative {o : Orchestrator σ} (h : (o.stages.map NativeStage.target).Nodup)
    (stage : NativeStage σ) : ((o.withNative stage).stages.map NativeStage.target).Nodup := by
  rw [withNative, List.map_append, List.nodup_append]
  refine ⟨(List.filter_sublist.map _).nodup h, by simp, ?_⟩
  intro t ht u hu
  obtain ⟨s, hs, rfl⟩ := List.mem_map.mp ht
  obtain rfl : u = stage.target := by simpa using hu
  simpa using (List.mem_filter.mp hs).2

theorem stage?_withNative (o : Orchestrator σ) (stage : NativeStage σ) (t : Target) :
    (o.withNative stage).stage? t = if stage.target = t then some stage else o.stage? t := by
  rw [stage?, withNative, List.find?_append]
  split
  · next h =>
    have hnone : (o.stages.filter fun s => s.target != stage.target).find?
        (fun s => s.target == t) = none := by
      rw [List.find?_eq_none]
      simp [h]
    rw [hnone, Option.none_or, List.find?_cons_of_pos (by simpa using h)]
  · next h =>
    have hsame : (o.stages.filter fun s => s.target != stage.target).find?
        (fun s => s.target == t) = o.stage? t := by
      rw [List.find?_filter, stage?]
      congr 1
      funext s
      by_cases hs : s.target = t
      · simp [hs, Ne.symm h]
      · simp [hs]
    rw [hsame, List.find?_cons_of_neg (by simpa using h), List.find?_nil, Option.or_none]

/-! ### A sequence of registrations -/

theorem nodup_registerAll {o : Orchestrator σ} (h : (o.stages.map NativeStage.target).Nodup)
    (regs : List (NativeStage σ)) :
    ((o.registerAll regs).stages.map NativeStage.target).Nodup := by
  induction regs generalizing o with
  | nil => exact h
  | cons s regs ih => exact ih (nodup_withNative h s)

theorem stages_registerAll (o : Orchestrator σ) (regs : List (NativeStage σ)) :
    (o.registerAll regs).stages =
      (o.stages.filter fun s => !regs.any fun r => r.target == s.target) ++ lasting regs := by
  induction regs generalizing o with
  | nil => simp [registerAll, lasting]
  | cons r regs ih =>
    have hstep : o.registerAll (r :: regs) = (o.withNative r).registerAll regs := rfl
    -- what was there is sieved twice, once for the first registration and once for the others
    have hold : ((o.stages.filter fun s => s.target != r.target).filter
        fun s => !regs.any fun q => q.target == s.target) =
        o.stages.filter fun s => !(r :: regs).any fun q => q.target == s.target := by
      rw [List.filter_filter]
      apply List.filter_congr
      intro s _
      rw [List.any_cons, Bool.not_or, Bool.and_comm, bne, BEq.comm]
    -- the first registration itself is sieved by the others
    have hnew : ([r].filter fun s => !regs.any fun q => q.target == s.target) ++ lasting regs =
        lasting (r :: regs) := by
      rw [lasting]
      cases h : regs.any fun q => q.target == r.target <;> simp [h]
    rw [hstep, ih, withNative, List.filter_append, hold, List.append_assoc, hnew]

theorem stage?_registerAll (o : Orchestrator σ) (regs : List (NativeStage σ)) (t : Target) :
    (o.registerAll regs).stage? t = (last? regs t).or (o.stage? t) := by
  induction regs generalizing o with
  | nil => rfl
  | cons s regs ih =>
    have hstep : o.registerAll (s :: regs) = (o.withNative s).registerAll regs := rfl
    rw [hstep, ih, stage?_withNative, NativeStage.last?_cons, Option.or_assoc]
    split <;> rfl

theorem registerAll_eq (o : Orchestrator σ) (regs : List (NativeStage σ)) :
    o.registerAll regs = ⟨o.dir, o.bundleExists, o.produce, (o.registerAll regs).stages⟩ := by
  induction regs generalizing o with
  | nil => rfl
  | cons s regs ih => exact ih (o.withNative s)

/-! ### What is run for a target -/

/-- A run for a target calls this stage and nothing else, if there is a bundle, and ends as the
stage does. -/
structure Runs (o : Orchestrator σ) (t : Target) (stage : NativeStage σ) : Prop where
  calls : ∀ s, (o.watched.runNative t (s, [])).state.2 =
    if o.bundleExists s then [.stage t s (stage.generate s)] else []
  result : ∀ s, o.bundleExists s = true → (o.runNative t s).result = (stage.generate s).result
  state : ∀ s, o.bundleExists s = true → (o.runNative t s).state = (stage.generate s).state

structure RunsNone (o : Orchestrator σ) (t : Target) : Prop where
  calls : ∀ s, (o.watched.runNative t (s, [])).state.2 = []
  outcome : ∀ s, o.runNative t s =
    ⟨[], .error (.failure t.name "no native stage registered"), s⟩

def RunsOnly (o : Orchestrator σ) (t : Target) : Option (NativeStage σ) → Prop
  | none => o.RunsNone t
  | some stage => o.Runs t stage

theorem runsOnly_stage? (o : Orchestrator σ) (t : Target) : o.RunsOnly t (o.stage? t) := by
  have hw := o.stage?_watched t
  cases h : o.stage? t with
  | none =>
    rw [h] at hw
    exact ⟨fun s => by rw [o.watched.runNative_of_none hw], o.runNative_of_none h⟩
  | some stage =>
    rw [h] at hw
    refine ⟨fun s => ?_, fun s hb => (o.runNative_of_bundle h hb).1,
      fun s hb => (o.runNative_of_bundle h hb).2⟩
    cases hb : o.bundleExists s with
    | false =>
      rw [o.watched.runNative_of_missing hw (s := (s, [])) hb]
      rfl
    | true =>
      rw [(o.watched_runNative_of_bundle h hb []).2]
      rfl

theorem runNative_congr {dir : Path} {bundleExists : σ → Bool} {produce : Job σ String Unit}
    {l m : List (NativeStage σ)} {t : Target}
    (h : stage? ⟨dir, bundleExists, produce, l⟩ t = stage? ⟨dir, bundleExists, produce, m⟩ t) :
    runNative ⟨dir, bundleExists, produce, l⟩ t = runNative ⟨dir, bundleExists, produce, m⟩ t := by
  unfold runNative
  rw [h]
  rfl

theorem runTarget_congr {dir : Path} {bundleExists : σ → Bool} {produce : Job σ String Unit}
    {l m : List (NativeStage σ)} {t : Target}
    (h : stage? ⟨dir, bundleExists, produce, l⟩ t = stage? ⟨dir, bundleExists, produce, m⟩ t) :
    runTarget ⟨dir, bundleExists, produce, l⟩ t = runTarget ⟨dir, bundleExists, produce, m⟩ t := by
  cases t with
  | web => rfl
  | native p => simp only [runTarget, runNative_congr h]

/-- The registry has the last registration for each target, in their order, and a run for a target
takes it from there. One more registration, wherever it comes, is not seen by the other targets. -/
theorem registerAll_last_wins (dir : Path) (bundleExists : σ → Bool) (produce : Job σ String Unit)
    (regs : List (NativeStage σ)) :
    let start := ofProducer dir bundleExists produce
    ((start.registerAll regs).stages.map NativeStage.target).Nodup ∧
    (∀ t, (start.registerAll regs).RunsOnly t (last? regs t)) ∧
    (∃ places : List (Fin regs.length), places.Pairwise (· < ·) ∧
      (∀ i, i ∈ places ↔ IsLast regs i) ∧
      (start.registerAll regs).stages = places.map regs.get) ∧
    ∀ before after stage t, regs = before ++ after → stage.target ≠ t →
      (start.registerAll (before ++ stage :: after)).runNative t =
        (start.registerAll regs).runNative t ∧
      (start.registerAll (before ++ stage :: after)).runTarget t =
        (start.registerAll regs).runTarget t := by
  intro start
  have hstage (regs : List (NativeStage σ)) (t : Target) :
      (start.registerAll regs).stage? t = last? regs t := by
    rw [stage?_registerAll]
    exact Option.or_none
  refine ⟨nodup_registerAll (o := start) List.nodup_nil regs, fun t => ?_, ?_, ?_⟩
  · rw [← hstage]
    exact runsOnly_stage? _ t
  · obtain ⟨places, hlt, hmem, heq⟩ := NativeStage.exists_places regs
    refine ⟨places, hlt, hmem, ?_⟩
    rw [stages_registerAll, heq]
    rfl
  · rintro before after stage t rfl ht
    have hsame : (start.registerAll (before ++ stage :: after)).stage? t =
        (start.registerAll (before ++ after)).stage? t := by
      rw [hstage, hstage, NativeStage.last?_insert ht]
    -- the two orchestrators differ in their registries only
    rw [registerAll_eq, registerAll_eq start (before ++ after)] at hsame ⊢
    exact ⟨runNative_congr hsame, runTarget_congr hsame⟩

def labelled (t : Target) (label : String) : NativeStage (List String) :=
  ⟨t, fun s => ⟨[], .ok ⟨label⟩, s ++ [label]⟩⟩

def crowd : List (NativeStage (List String)) :=
  [labelled (.native .android) "a", labelled .web "w", labelled (.native .ios) "i",
    labelled (.native .android) "b", labelled .web "v"]

def crowded (regs : List (NativeStage (List String))) : Orchestrator (List String) :=
  (ofProducer ⟨"."⟩ (fun _ => true) fun s => ⟨[], .ok (), s ++ ["web"]⟩).registerAll regs

theorem registerAll_last_wins_crowd :
    ((crowded crowd).stages.map NativeStage.target).Nodup ∧
    ((crowded crowd).bundleExists [] = true ∧
      ((crowded crowd).runNative (.native .android) []).state = ["b"]) ∧
    (crowded crowd).RunsNone (.native .macos) ∧
    (IsLast crowd ⟨3, by decide⟩ ∧ labelled (.native .android) "b" ∈ (crowded crowd).stages) ∧
    (crowd = crowd.take 4 ++ crowd.drop 4 ∧ (labelled .web "u").target ≠ .native .android ∧
      (crowded (crowd.take 4 ++ labelled .web "u" :: crowd.drop 4)).runNative (.native .android) =
        (crowded crowd).runNative (.native .android)) := by
  obtain ⟨hnodup, hruns, ⟨places, -, hmem, hstages⟩, hother⟩ :=
    registerAll_last_wins ⟨"."⟩ (fun _ => true) (fun s => ⟨[], .ok (), s ++ ["web"]⟩) crowd
  have hlast : IsLast crowd ⟨3, by decide⟩ := by
    decide
  refine ⟨hnodup, ⟨rfl, (hruns (.native .android)).state [] rfl⟩, hruns (.native .macos),
    ⟨hlast, ?_⟩, rfl, by decide, ?_⟩
  · rw [crowded, hstages]
    exact List.mem_map.mpr ⟨_, (hmem _).mpr hlast, rfl⟩
  · exact (hother _ _ (labelled .web "u") _ rfl (by decide)).1

end Orchestrator

end NativeUi
