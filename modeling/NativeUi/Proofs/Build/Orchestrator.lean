import NativeUi.Build.Orchestrator
import NativeUi.Proofs.Job

/-!
# What a build calls

The producer and the stages of an orchestrator may do anything. To see which of them a build calls,
they are watched: each call is written down with the state it found and with what came of it.
Watching changes nothing else.
-/
namespace NativeUi

variable {σ τ ε δ α β : Type}

def Outcome.first (o : Outcome (σ × τ) ε α) : Outcome σ ε α := ⟨o.notes, o.result, o.state.1⟩

namespace Job

def Follows (x : Job (σ × τ) ε α) (y : Job σ ε α) : Prop := ∀ w, (x w).first = y w.1

theorem Follows.bind {x : Job (σ × τ) ε α} {y : Job σ ε α} {f : α → Job (σ × τ) ε β}
    {g : α → Job σ ε β} (hx : Follows x y) (hf : ∀ a, Follows (f a) (g a)) :
    Follows (bind x f) (bind y g) := by
  intro w
  have hw := hx w
  cases h : (x w).result with
  | error e =>
    have hy : (y w.1).result = .error e := by rw [← hw]; exact h
    rw [bind_eq_of_error h, bind_eq_of_error hy, ← hw]
    rfl
  | ok a =>
    have hy : (y w.1).result = .ok a := by rw [← hw]; exact h
    have ha : (f a (x w).state).first = g a (y w.1).state := by
      rw [hf a (x w).state, ← hw]
      rfl
    rw [bind_eq_of_ok h, bind_eq_of_ok hy, ← ha, ← hw]
    rfl

theorem Follows.mapError {x : Job (σ × τ) ε α} {y : Job σ ε α} (h : Follows x y) (g : ε → δ) :
    Follows (mapError g x) (mapError g y) := by
  intro w
  have hw := h w
  cases hr : (x w).result <;> simp [Job.mapError, ← hw, Outcome.first, hr]

theorem follows_pure (a : α) : Follows (pure a : Job (σ × τ) ε α) (pure a) := fun _ => rfl

theorem follows_fail (e : ε) : Follows (fail e : Job (σ × τ) ε α) (fail e) := fun _ => rfl

theorem follows_log (level : Log.Level) (area : Log.Area) (message : String)
    (details : List (String × String)) :
    Follows (log level area message details : Job (σ × τ) ε Unit)
      (log level area message details) :=
  fun _ => rfl

theorem follows_ofExcept (x : Except ε α) : Follows (ofExcept x : Job (σ × τ) ε α) (ofExcept x) :=
  fun _ => rfl

theorem follows_collect {f : α → Job (σ × τ) ε β} {g : α → Job σ ε β}
    (h : ∀ a, Follows (f a) (g a)) (as : List α) : Follows (collect f as) (collect g as) := by
  induction as with
  | nil => exact follows_pure []
  | cons a as ih => exact (h a).bind fun b => ih.bind fun bs => follows_pure (b :: bs)

end Job

/-- A call of the producer, or of a stage registered for a target: the state it found and what came
of it. -/
inductive Call (σ : Type) where
  | web (before : σ) (outcome : Outcome σ String Unit)
  | stage (t : Target) (before : σ) (outcome : Outcome σ BuildError Path)

namespace Call

def target : Call σ → Target
  | .web _ _ => .web
  | .stage t _ _ => t

def before : Call σ → σ
  | .web s _ => s
  | .stage _ s _ => s

def after : Call σ → σ
  | .web _ out => out.state
  | .stage _ _ out => out.state

/-- The one who was called is the one that the orchestrator has for the target: for the web its
producer, whatever stage may be registered there. -/
def Genuine (o : Orchestrator σ) : Call σ → Prop
  | .web s out => out = o.produce s
  | .stage t s out => ∃ p stage, t = .native p ∧ o.stage? t = some stage ∧ out = stage.generate s

def Allowed (o : Orchestrator σ) : Call σ → Prop
  | .web _ _ => True
  | .stage _ s _ => o.bundleExists s = true

def Passed (o : Orchestrator σ) : Call σ → Prop
  | .web _ out => out.result = .ok () ∧ o.bundleExists out.state = true
  | .stage _ s out => (∃ path, out.result = .ok path) ∧ o.bundleExists s = true

inductive Failed (o : Orchestrator σ) : Call σ → BuildError → Prop
  | producer {s : σ} {out : Outcome σ String Unit} {message : String}
      (h : out.result = .error message) : Failed o (.web s out) (.failure "web" message)
  | notWritten {s : σ} {out : Outcome σ String Unit} (h : out.result = .ok ())
      (missing : o.bundleExists out.state = false) : Failed o (.web s out) o.bundleNotWritten
  | stage {t : Target} {s : σ} {out : Outcome σ BuildError Path} {e : BuildError}
      (h : out.result = .error e) : Failed o (.stage t s out) e

theorem Failed.not_passed {o : Orchestrator σ} {c : Call σ} {e : BuildError} (h : c.Failed o e) :
    ¬c.Passed o := by
  cases h with
  | producer h => exact fun hp => nomatch h.symm.trans hp.1
  | notWritten h missing => exact fun hp => nomatch missing.symm.trans hp.2
  | stage h => exact fun ⟨⟨path, hp⟩, _⟩ => nomatch h.symm.trans hp

end Call

namespace Orchestrator

def watch (call : σ → Outcome σ ε α → Call σ) (x : Job σ ε α) : Job (σ × List (Call σ)) ε α :=
  fun w => ⟨(x w.1).notes, (x w.1).result, (x w.1).state, w.2 ++ [call w.1 (x w.1)]⟩

def watchStage (s : NativeStage σ) : NativeStage (σ × List (Call σ)) :=
  ⟨s.target, watch (.stage s.target) s.generate⟩

def watched (o : Orchestrator σ) : Orchestrator (σ × List (Call σ)) :=
  ⟨o.dir, fun w => o.bundleExists w.1, watch .web o.produce, o.stages.map watchStage⟩

theorem stage?_watched (o : Orchestrator σ) (t : Target) :
    o.watched.stage? t = (o.stage? t).map watchStage :=
  List.find?_map ..

def Recorded (log : List (Call σ)) (P : List (Call σ) → Except ε α → σ → Prop)
    (out : Outcome (σ × List (Call σ)) ε α) : Prop :=
  ∃ calls, out.state.2 = log ++ calls ∧ P calls out.result out.state.1

/-! ### Watching changes nothing -/

theorem follows_watch (call : σ → Outcome σ ε α → Call σ) (x : Job σ ε α) :
    Job.Follows (watch call x) x :=
  fun _ => rfl

theorem follows_info (message : String) :
    Job.Follows (info message : Job (σ × τ) BuildError Unit) (info message) :=
  Job.follows_log _ _ _ _

theorem follows_requireBundle (o : Orchestrator σ) (e : BuildError) :
    Job.Follows (o.watched.requireBundle e) (o.requireBundle e) :=
  fun _ => rfl

theorem follows_runWeb (o : Orchestrator σ) : Job.Follows o.watched.runWeb o.runWeb := by
  unfold runWeb
  apply (follows_info _).bind
  intro _
  apply ((follows_watch Call.web o.produce).mapError _).bind
  intro _
  exact (o.follows_requireBundle _).bind fun _ => follows_info _

theorem follows_runNative (o : Orchestrator σ) (t : Target) :
    Job.Follows (o.watched.runNative t) (o.runNative t) := by
  unfold runNative
  rw [stage?_watched]
  cases o.stage? t with
  | none => exact Job.follows_fail _
  | some stage =>
    apply (o.follows_requireBundle _).bind
    intro _
    apply (follows_info _).bind
    intro _
    apply (follows_watch _ stage.generate).bind
    intro output
    exact (follows_info _).bind fun _ => Job.follows_pure output

theorem follows_runTarget (o : Orchestrator σ) (t : Target) :
    Job.Follows (o.watched.runTarget t) (o.runTarget t) := by
  cases t with
  | web => exact o.follows_runWeb.bind fun _ => Job.follows_pure _
  | native p => exact (o.follows_runNative (.native p)).bind fun _ => Job.follows_pure _

theorem follows_build (o : Orchestrator σ) (target : Option String) :
    Job.Follows (o.watched.build target) (o.build target) :=
  (Job.follows_ofExcept _).bind fun plan => Job.follows_collect o.follows_runTarget plan

/-! ### One target -/

inductive Refused (o : Orchestrator σ) (s : σ) : Target → BuildError → Prop
  | unregistered {p : Platform} (h : o.stage? (.native p) = none) :
      Refused o s (.native p) (.failure p.name "no native stage registered")
  | noBundle {p : Platform} {stage : NativeStage σ} (h : o.stage? (.native p) = some stage)
      (missing : o.bundleExists s = false) :
      Refused o s (.native p) (.bundleNotFound (Workspace.bundlePath o.dir))

structure Calls (o : Orchestrator σ) (t : Target) (s : σ) (c : Call σ) : Prop where
  target : c.target = t
  before : c.before = s
  genuine : c.Genuine o
  allowed : c.Allowed o

inductive Fate (o : Orchestrator σ) (t : Target) (s : σ) :
    List (Call σ) → Except BuildError StageReport → σ → Prop
  | passed {c : Call σ} {report : StageReport} (call : Calls o t s c) (passed : c.Passed o)
      (report_target : report.target = t) : Fate o t s [c] (.ok report) c.after
  | failed {c : Call σ} {e : BuildError} (call : Calls o t s c) (failed : c.Failed o e) :
      Fate o t s [c] (.error e) c.after
  | refused {e : BuildError} (refused : Refused o s t e) : Fate o t s [] (.error e) s

theorem runWeb_eq (o : Orchestrator σ) (s : σ) :
    (o.runWeb s).state = (o.produce s).state ∧
      (o.runWeb s).result = ((o.produce s).result.mapError (.failure "web") >>= fun _ =>
        if o.bundleExists (o.produce s).state then .ok () else .error o.bundleNotWritten) := by
  cases h : (o.produce s).result with
  | error message => simp [runWeb, bind, Job.bind, info, Job.log, Job.note, Job.mapError, h,
      Except.mapError, Except.bind]
  | ok _ =>
    cases hb : o.bundleExists (o.produce s).state <;>
      simp [runWeb, bind, Job.bind, info, Job.log, Job.note, Job.mapError, h, Except.mapError,
        requireBundle, Job.ask, hb, Except.bind]

theorem runNative_of_none (o : Orchestrator σ) {t : Target} (h : o.stage? t = none) (s : σ) :
    o.runNative t s = ⟨[], .error (.failure t.name "no native stage registered"), s⟩ := by
  simp only [runNative, h]
  rfl

theorem runNative_of_missing (o : Orchestrator σ) {t : Target} {stage : NativeStage σ}
    (h : o.stage? t = some stage) {s : σ} (hb : o.bundleExists s = false) :
    o.runNative t s = ⟨[], .error (.bundleNotFound (Workspace.bundlePath o.dir)), s⟩ := by
  simp [runNative, h, bind, Job.bind, requireBundle, Job.ask, hb]

theorem runNative_of_bundle (o : Orchestrator σ) {t : Target} {stage : NativeStage σ}
    (h : o.stage? t = some stage) {s : σ} (hb : o.bundleExists s = true) :
    (o.runNative t s).result = (stage.generate s).result ∧
      (o.runNative t s).state = (stage.generate s).state := by
  cases hg : (stage.generate s).result <;>
    simp [runNative, h, bind, Job.bind, requireBundle, Job.ask, hb, info, Job.log, Job.note, hg,
      Job.pure]

theorem target_of_stage? {o : Orchestrator σ} {t : Target} {stage : NativeStage σ}
    (h : o.stage? t = some stage) : stage.target = t := by
  simpa using List.find?_some h

theorem watched_runNative_of_bundle (o : Orchestrator σ) {t : Target} {stage : NativeStage σ}
    (h : o.stage? t = some stage) {s : σ} (hb : o.bundleExists s = true) (log : List (Call σ)) :
    (o.watched.runNative t (s, log)).result = (stage.generate s).result ∧
      (o.watched.runNative t (s, log)).state =
        ((stage.generate s).state, log ++ [.stage t s (stage.generate s)]) := by
  have hw : o.watched.stage? t = some (watchStage stage) := by
    rw [stage?_watched, h, Option.map_some]
  obtain ⟨hr, hs⟩ := o.watched.runNative_of_bundle hw (s := (s, log)) hb
  refine ⟨hr, hs.trans ?_⟩
  rw [← target_of_stage? h]
  rfl

theorem runTarget_web (o : Orchestrator σ) (s : σ) :
    (o.runTarget .web s).result = (o.runWeb s).result.map (fun _ => ⟨.web, none⟩) ∧
      (o.runTarget .web s).state = (o.runWeb s).state := by
  cases h : (o.runWeb s).result <;> simp [runTarget, bind, Job.bind, h, Job.pure, Except.map]

theorem runTarget_native (o : Orchestrator σ) (p : Platform) (s : σ) :
    (o.runTarget (.native p) s).result =
        (o.runNative (.native p) s).result.map (fun output => ⟨.native p, some output⟩) ∧
      (o.runTarget (.native p) s).state = (o.runNative (.native p) s).state := by
  cases h : (o.runNative (.native p) s).result <;>
    simp [runTarget, bind, Job.bind, h, Job.pure, Except.map]

theorem fate_web (o : Orchestrator σ) (s : σ) (log : List (Call σ)) :
    Recorded log (Fate o .web s) (o.watched.runTarget .web (s, log)) := by
  obtain ⟨hr, hs⟩ := o.watched.runTarget_web (s, log)
  obtain ⟨hs', hr'⟩ := o.watched.runWeb_eq (s, log)
  rw [Recorded, hr, hs, hs', hr']
  have hcall : Calls o .web s (.web s (o.produce s)) := ⟨rfl, rfl, rfl, trivial⟩
  refine ⟨[.web s (o.produce s)], rfl, ?_⟩
  change Fate o .web s _ (Except.map _ ((o.produce s).result.mapError (.failure "web") >>= fun _ =>
    if o.bundleExists (o.produce s).state then .ok () else .error o.bundleNotWritten))
    (o.produce s).state
  cases h : (o.produce s).result with
  | error message => exact .failed hcall (.producer h)
  | ok _ =>
    simp only [Except.mapError, ok_bind]
    cases hb : o.bundleExists (o.produce s).state with
    | true => exact .passed hcall ⟨h, hb⟩ rfl
    | false => exact .failed hcall (.notWritten h hb)

theorem fate_native (o : Orchestrator σ) (p : Platform) (s : σ) (log : List (Call σ)) :
    Recorded log (Fate o (.native p) s) (o.watched.runTarget (.native p) (s, log)) := by
  obtain ⟨hr, hs⟩ := o.watched.runTarget_native p (s, log)
  rw [Recorded, hr, hs]
  have hw := o.stage?_watched (.native p)
  cases h : o.stage? (.native p) with
  | none =>
    rw [h] at hw
    rw [o.watched.runNative_of_none hw]
    exact ⟨[], (List.append_nil log).symm, .refused (.unregistered h)⟩
  | some stage =>
    rw [h] at hw
    cases hb : o.bundleExists s with
    | false =>
      rw [o.watched.runNative_of_missing hw (s := (s, log)) hb]
      exact ⟨[], (List.append_nil log).symm, .refused (.noBundle h hb)⟩
    | true =>
      obtain ⟨hr', hs'⟩ := o.watched_runNative_of_bundle h hb log
      rw [hr', hs']
      have hcall : Calls o (.native p) s (.stage (.native p) s (stage.generate s)) :=
        ⟨rfl, rfl, ⟨p, stage, rfl, h, rfl⟩, hb⟩
      refine ⟨[.stage (.native p) s (stage.generate s)], rfl, ?_⟩
      cases hg : (stage.generate s).result with
      | error e => exact .failed hcall (.stage hg)
      | ok output => exact .passed hcall ⟨⟨output, hg⟩, hb⟩ rfl

theorem fate_runTarget (o : Orchestrator σ) (t : Target) (s : σ) (log : List (Call σ)) :
    Recorded log (Fate o t s) (o.watched.runTarget t (s, log)) := by
  cases t with
  | web => exact o.fate_web s log
  | native p => exact o.fate_native p s log

/-! ### All targets of a plan -/

inductive Course (o : Orchestrator σ) :
    List Target → σ → List (Call σ) → Except BuildError (List StageReport) → σ → Prop
  | done {s : σ} : Course o [] s [] (.ok []) s
  | next {t : Target} {plan : List Target} {s u v : σ} {cs ds : List (Call σ)}
      {report : StageReport} {result : Except BuildError (List StageReport)}
      (first : Fate o t s cs (.ok report) u) (rest : Course o plan u ds result v) :
      Course o (t :: plan) s (cs ++ ds) (result.map (report :: ·)) v
  | stop {t : Target} {plan : List Target} {s u : σ} {cs : List (Call σ)} {e : BuildError}
      (first : Fate o t s cs (.error e) u) : Course o (t :: plan) s cs (.error e) u

theorem course_collect (o : Orchestrator σ) (plan : List Target) (s : σ) (log : List (Call σ)) :
    Recorded log (Course o plan s) (Job.collect o.watched.runTarget plan (s, log)) := by
  induction plan generalizing s log with
  | nil => exact ⟨[], (List.append_nil log).symm, .done⟩
  | cons t plan ih =>
    obtain ⟨cs, hcs, hfate⟩ := o.fate_runTarget t s log
    cases h : (o.watched.runTarget t (s, log)).result with
    | error e =>
      obtain ⟨hr, hs⟩ := Job.collect_cons_of_error h plan
      rw [Recorded, hr, hs]
      exact ⟨cs, hcs, .stop (h ▸ hfate)⟩
    | ok report =>
      obtain ⟨hr, hs⟩ := Job.collect_cons_of_ok h plan
      obtain ⟨ds, hds, hrest⟩ := ih _ (o.watched.runTarget t (s, log)).state.2
      rw [Recorded, hr, hs]
      exact ⟨cs ++ ds, by rw [hds, hcs, List.append_assoc], .next (h ▸ hfate) hrest⟩

def Chained : σ → List (Call σ) → σ → Prop
  | s, [], u => s = u
  | s, c :: cs, u => c.before = s ∧ Chained c.after cs u

/-- Why a build has ended early: the last call has failed and all before it have passed, or all have
passed and the next target is refused. -/
inductive Ended (o : Orchestrator σ) (plan : List Target) (final : σ) :
    List (Call σ) → BuildError → Prop
  | failed {done : List (Call σ)} {c : Call σ} {e : BuildError}
      (passed : ∀ d ∈ done, d.Passed o) (failed : c.Failed o e) : Ended o plan final (done ++ [c]) e
  | refused {done : List (Call σ)} {t : Target} {rest : List Target} {e : BuildError}
      (passed : ∀ d ∈ done, d.Passed o) (next : plan = done.map Call.target ++ t :: rest)
      (refused : Refused o final t e) : Ended o plan final done e

theorem Ended.cons {o : Orchestrator σ} {plan : List Target} {final : σ} {calls : List (Call σ)}
    {e : BuildError} (h : Ended o plan final calls e) {c : Call σ} (hc : c.Passed o) :
    Ended o (c.target :: plan) final (c :: calls) e := by
  cases h with
  | failed passed failed =>
    rw [← List.cons_append]
    exact .failed (List.forall_mem_cons.mpr ⟨hc, passed⟩) failed
  | refused passed next refused =>
    exact .refused (List.forall_mem_cons.mpr ⟨hc, passed⟩) (by rw [next]; rfl) refused

structure Orderly (o : Orchestrator σ) (plan : List Target) (s : σ) (calls : List (Call σ))
    (result : Except BuildError (List StageReport)) (final : σ) : Prop where
  order : calls.map Call.target <+: plan
  genuine : ∀ c ∈ calls, c.Genuine o
  chained : Chained s calls final
  allowed : ∀ c ∈ calls, c.Allowed o
  ok_iff : (∃ reports, result = .ok reports) ↔
    calls.map Call.target = plan ∧ ∀ c ∈ calls, c.Passed o
  reports : ∀ reports, result = .ok reports → reports.map StageReport.target = plan
  error : ∀ e, result = .error e → Ended o plan final calls e

theorem orderly_done (o : Orchestrator σ) (s : σ) : Orderly o [] s [] (.ok []) s where
  order := List.prefix_rfl
  genuine := nofun
  chained := rfl
  allowed := nofun
  ok_iff := ⟨fun _ => ⟨rfl, nofun⟩, fun _ => ⟨[], rfl⟩⟩
  reports := by
    rintro _ ⟨⟩
    rfl
  error := nofun

theorem orderly_failed {o : Orchestrator σ} {t : Target} {plan : List Target} {s : σ} {c : Call σ}
    {e : BuildError} (hc : Calls o t s c) (hf : c.Failed o e) :
    Orderly o (t :: plan) s [c] (.error e) c.after where
  order := by
    rw [← hc.target]
    exact List.prefix_append [c.target] plan
  genuine := List.forall_mem_singleton.mpr hc.genuine
  chained := ⟨hc.before, rfl⟩
  allowed := List.forall_mem_singleton.mpr hc.allowed
  ok_iff := ⟨nofun, fun h => absurd (List.forall_mem_singleton.mp h.2) hf.not_passed⟩
  reports := nofun
  error := by
    rintro _ ⟨⟩
    rw [← List.nil_append [c]]
    exact .failed nofun hf

theorem orderly_refused {o : Orchestrator σ} {t : Target} {plan : List Target} {s : σ}
    {e : BuildError} (hr : Refused o s t e) : Orderly o (t :: plan) s [] (.error e) s where
  order := List.nil_prefix
  genuine := nofun
  chained := rfl
  allowed := nofun
  ok_iff := ⟨nofun, nofun⟩
  reports := nofun
  error := by
    rintro _ ⟨⟩
    exact .refused nofun rfl hr

theorem Orderly.cons {o : Orchestrator σ} {t : Target} {plan : List Target} {s final : σ}
    {c : Call σ} {calls : List (Call σ)} {result : Except BuildError (List StageReport)}
    (h : Orderly o plan c.after calls result final) (hc : Calls o t s c) (hp : c.Passed o)
    {report : StageReport} (hr : report.target = t) :
    Orderly o (t :: plan) s (c :: calls) (result.map (report :: ·)) final where
  order := by
    rw [← hc.target]
    exact (List.prefix_cons_inj _).mpr h.order
  genuine := List.forall_mem_cons.mpr ⟨hc.genuine, h.genuine⟩
  chained := ⟨hc.before, h.chained⟩
  allowed := List.forall_mem_cons.mpr ⟨hc.allowed, h.allowed⟩
  ok_iff := by
    rw [exists_map_ok_iff, h.ok_iff, List.map_cons, List.forall_mem_cons, hc.target]
    simp [hp]
  reports := by
    intro reports hreports
    cases result with
    | error e => cases hreports
    | ok rest =>
      obtain rfl := Except.ok.inj hreports
      rw [List.map_cons, hr, h.reports rest rfl]
  error := by
    intro e he
    cases result with
    | ok rest => cases he
    | error e' =>
      obtain rfl := Except.error.inj he
      exact hc.target ▸ (h.error e' rfl).cons hp

theorem orderly_of_course {o : Orchestrator σ} {plan : List Target} {s final : σ}
    {calls : List (Call σ)} {result : Except BuildError (List StageReport)}
    (h : Course o plan s calls result final) : Orderly o plan s calls result final := by
  induction h with
  | done => exact o.orderly_done _
  | next first rest ih =>
    cases first with
    | passed call passed report_target => exact ih.cons call passed report_target
  | stop first =>
    cases first with
    | failed call failed => exact orderly_failed call failed
    | refused refused => exact orderly_refused refused

inductive Planned : Option String → List Target → Prop
  | default : Planned none [.web, .native .android, .native .ios]
  | named (t : Target) : Planned (some t.name) [t]

theorem Planned.plan_eq {target : Option String} {plan : List Target} (h : Planned target plan) :
    Target.plan target = .ok plan := by
  cases h with
  | default => rfl
  | named t =>
    cases t with
    | web => rfl
    | native p => cases p <;> rfl

theorem Planned.nodup {target : Option String} {plan : List Target} (h : Planned target plan) :
    plan.Nodup := by
  cases h with
  | default => decide
  | named t => simp

theorem plan_of_unknown {name : String} (h : ∀ t : Target, t.name ≠ name) :
    Target.plan (some name) = .error (.unknownTarget name) := by
  have hfind : Target.all.find? (fun t => t.name == name) = none := by
    simpa using fun t _ => h t
  simp only [Target.plan, Target.ofName, hfind, error_bind]

theorem build_of_plan (o : Orchestrator σ) {target : Option String} {plan : List Target}
    (h : Target.plan target = .ok plan) : o.build target = Job.collect o.runTarget plan := by
  unfold build
  rw [h]
  exact Job.pure_bind plan _

theorem build_of_error (o : Orchestrator σ) {target : Option String} {e : BuildError}
    (h : Target.plan target = .error e) (s : σ) : o.build target s = ⟨[], .error e, s⟩ := by
  unfold build
  rw [h]
  rfl

/-- The calls of a build are in the order of its plan, each finds the state that the one before it
has left, and the first that fails is the last. To watch them changes nothing. -/
theorem build_calls (o : Orchestrator σ) (target : Option String) (s : σ) :
    (o.watched.build target (s, [])).first = o.build target s ∧
    (∀ name, target = some name → (∀ t : Target, t.name ≠ name) →
      (o.watched.build target (s, [])).result = .error (.unknownTarget name) ∧
      (o.watched.build target (s, [])).state = (s, [])) ∧
    ∀ plan, Planned target plan →
      ((o.watched.build target (s, [])).state.2.map Call.target).Nodup ∧
      Orderly o plan s (o.watched.build target (s, [])).state.2
        (o.watched.build target (s, [])).result (o.watched.build target (s, [])).state.1 := by
  refine ⟨o.follows_build target (s, []), ?_, ?_⟩
  · rintro name rfl hname
    rw [o.watched.build_of_error (plan_of_unknown hname)]
    exact ⟨rfl, rfl⟩
  · intro plan hplan
    rw [o.watched.build_of_plan hplan.plan_eq]
    obtain ⟨calls, hcalls, hcourse⟩ := o.course_collect plan s []
    rw [List.nil_append] at hcalls
    have horderly := orderly_of_course hcourse
    rw [hcalls]
    exact ⟨horderly.order.sublist.nodup hplan.nodup, horderly⟩

def forgetful : Orchestrator Bool :=
  ⟨⟨"."⟩, id, fun _ => ⟨[], .ok (), true⟩,
    [⟨.native .android, fun _ => ⟨[], .ok ⟨"out"⟩, false⟩⟩,
      ⟨.native .ios, fun s => ⟨[], .ok ⟨"out"⟩, s⟩⟩]⟩

theorem build_calls_forgetful :
    (Planned none [.web, .native .android, .native .ios] ∧
      (forgetful.watched.build none (false, [])).state.2.map Call.target =
        [.web, .native .android] ∧
      Ended forgetful [.web, .native .android, .native .ios] false
        (forgetful.watched.build none (false, [])).state.2
        (.bundleNotFound (Workspace.bundlePath ⟨"."⟩))) ∧
    (∀ t : Target, t.name ≠ "windows") ∧
      (forgetful.watched.build (some "windows") (true, [])).state = (true, []) := by
  have hname : ∀ t : Target, t.name ≠ "windows" := by
    rintro (_ | _ | _ | _) <;> decide
  refine ⟨⟨.default, rfl, ?_⟩, hname, ?_⟩
  · exact ((build_calls forgetful none false).2.2 _ .default).2.error _ rfl
  · exact ((build_calls forgetful (some "windows") true).2.1 _ rfl hname).2

end Orchestrator

end NativeUi
