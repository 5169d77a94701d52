import Mathlib.Data.List.Forall2
import NativeUi.Job

/-!
# Computations that may fail

What is known once a computation in steps has succeeded, what a job that only looks at its state
leaves behind, what a job prints, and which errors it can end in.
-/
namespace NativeUi

variable {ε α β : Type}

theorem bind_eq_ok_iff {x : Except ε α} {f : α → Except ε β} {b : β} :
    x >>= f = .ok b ↔ ∃ a, x = .ok a ∧ f a = .ok b := by
  cases x with
  | ok a => simp [bind, Except.bind]
  | error e => simp [bind, Except.bind]

@[simp] theorem ok_bind (a : α) (f : α → Except ε β) : (Except.ok a >>= f) = f a := rfl

@[simp] theorem error_bind (e : ε) (f : α → Except ε β) : (Except.error e >>= f) = .error e := rfl

theorem exists_of_isOk {x : Except ε α} (h : x.isOk = true) : ∃ a, x = .ok a := by
  cases x with
  | ok a => exact ⟨a, rfl⟩
  | error e => cases h

theorem isOk_iff {x : Except ε α} : x.isOk = true ↔ ∃ a, x = .ok a := by
  refine ⟨exists_of_isOk, ?_⟩
  rintro ⟨a, rfl⟩
  rfl

theorem exists_map_ok_iff {x : Except ε α} (f : α → β) :
    (∃ b, x.map f = .ok b) ↔ ∃ a, x = .ok a := by
  cases x <;> simp [Except.map]

namespace Job

variable {σ δ : Type}

def Looks (x : Job σ ε α) : Prop := ∀ s, (x s).state = s

theorem looks_pure (a : α) : Looks (pure a : Job σ ε α) := fun _ => rfl

theorem looks_fail (e : ε) : Looks (fail e : Job σ ε α) := fun _ => rfl

theorem looks_ask (f : σ → Except ε α) : Looks (ask f) := fun _ => rfl

theorem ask_result (f : σ → Except ε α) (s : σ) : (ask f s).result = f s := rfl

theorem looks_ofExcept (x : Except ε α) : Looks (ofExcept x : Job σ ε α) := fun _ => rfl

theorem looks_log (level : Log.Level) (area : Log.Area) (message : String)
    (details : List (String × String)) : Looks (log level area message details : Job σ ε Unit) :=
  fun _ => rfl

theorem Looks.bind {x : Job σ ε α} {f : α → Job σ ε β} (hx : Looks x) (hf : ∀ a, Looks (f a)) :
    Looks (bind x f) := by
  intro s
  cases h : (x s).result with
  | error e => rw [bind_eq_of_error h, hx s]
  | ok a => rw [bind_eq_of_ok h, hx s, hf a s]

@[simp] theorem mapError_result (g : ε → δ) (x : Job σ ε α) (s : σ) :
    (mapError g x s).result = (x s).result.mapError g := by
  cases h : (x s).result <;> simp [mapError, h, Except.mapError]

@[simp] theorem mapError_state (g : ε → δ) (x : Job σ ε α) (s : σ) :
    (mapError g x s).state = (x s).state := by
  cases h : (x s).result <;> simp [mapError, h]

theorem Looks.mapError {x : Job σ ε α} (hx : Looks x) (g : ε → δ) : Looks (mapError g x) := by
  intro s
  rw [mapError_state, hx s]

theorem looks_forAll {f : α → Job σ ε Unit} (hf : ∀ a, Looks (f a)) (as : List α) :
    Looks (forAll f as) := by
  induction as with
  | nil => exact looks_pure ()
  | cons a as ih => exact (hf a).bind fun _ => ih

theorem forAll_result {f : α → Job σ ε Unit} (hf : ∀ a s, (f a s).result = .ok ()) (as : List α)
    (s : σ) : (forAll f as s).result = .ok () := by
  induction as generalizing s with
  | nil => rfl
  | cons a as ih => rw [forAll, bind_eq_of_ok (hf a s), ih]

theorem looks_collect {f : α → Job σ ε β} (hf : ∀ a, Looks (f a)) (as : List α) :
    Looks (collect f as) := by
  induction as with
  | nil => exact looks_pure []
  | cons a as ih => exact (hf a).bind fun b => ih.bind fun bs => looks_pure (b :: bs)

theorem bind_change_of_ok {f : σ → Except ε σ} {s u : σ} (h : f s = .ok u)
    (k : Unit → Job σ ε β) : bind (change f) k s = k () u := by
  simp [bind, change, h]

theorem bind_change_of_error {f : σ → Except ε σ} {s : σ} {e : ε} (h : f s = .error e)
    (k : Unit → Job σ ε β) : bind (change f) k s = ⟨[], .error e, s⟩ := by
  simp [bind, change, h]

theorem bind_ok_iff {x : Job σ ε α} {f : α → Job σ ε β} {s : σ} {b : β} :
    (bind x f s).result = .ok b ↔
      ∃ a, (x s).result = .ok a ∧ (f a (x s).state).result = .ok b := by
  cases h : (x s).result with
  | error e => simp [bind_eq_of_error h]
  | ok a => simp [bind_eq_of_ok h]

theorem Looks.bind_result {x : Job σ ε α} (hx : Looks x) (f : α → Job σ ε β) (s : σ) :
    (Job.bind x f s).result = ((x s).result >>= fun a => (f a s).result) := by
  cases h : (x s).result with
  | error e => rw [bind_eq_of_error h, error_bind]
  | ok a => rw [bind_eq_of_ok h, hx s, ok_bind]

theorem Looks.bind_ok_iff {x : Job σ ε α} (hx : Looks x) {f : α → Job σ ε β} {s : σ} {b : β} :
    (Job.bind x f s).result = .ok b ↔ ∃ a, (x s).result = .ok a ∧ (f a s).result = .ok b := by
  rw [Job.bind_ok_iff, hx s]

theorem collect_cons_of_error {f : α → Job σ ε β} {a : α} {s : σ} {e : ε}
    (h : (f a s).result = .error e) (as : List α) :
    (collect f (a :: as) s).result = .error e ∧
      (collect f (a :: as) s).state = (f a s).state := by
  rw [collect, bind_eq_of_error h]
  exact ⟨rfl, rfl⟩

theorem collect_cons_of_ok {f : α → Job σ ε β} {a : α} {s : σ} {b : β}
    (h : (f a s).result = .ok b) (as : List α) :
    (collect f (a :: as) s).result = (collect f as (f a s).state).result.map (b :: ·) ∧
      (collect f (a :: as) s).state = (collect f as (f a s).state).state := by
  rw [collect, bind_eq_of_ok h]
  cases hr : (collect f as (f a s).state).result with
  | error e =>
    rw [bind_eq_of_error hr]
    exact ⟨rfl, rfl⟩
  | ok bs =>
    rw [bind_eq_of_ok hr]
    exact ⟨rfl, rfl⟩

theorem collect_result_congr {f : α → Job σ ε β} (hf : ∀ a, Looks (f a)) {s s' : σ}
    (h : ∀ a, (f a s).result = (f a s').result) (as : List α) :
    (collect f as s).result = (collect f as s').result := by
  induction as with
  | nil => rfl
  | cons a as ih =>
    rw [collect, (hf a).bind_result, (hf a).bind_result, h a]
    congr 1
    funext b
    rw [(looks_collect hf as).bind_result, (looks_collect hf as).bind_result, ih]
    rfl

theorem forall₂_of_collect {f : α → Job σ ε β} (hf : ∀ a, Looks (f a)) {as : List α} {s : σ}
    {bs : List β} (h : (collect f as s).result = .ok bs) :
    List.Forall₂ (fun a b => (f a s).result = .ok b) as bs := by
  induction as generalizing bs with
  | nil =>
    obtain rfl := Except.ok.inj h
    exact .nil
  | cons a as ih =>
    obtain ⟨b, hb, h⟩ := (hf a).bind_ok_iff.mp h
    obtain ⟨cs, hcs, h⟩ := (looks_collect hf as).bind_ok_iff.mp h
    obtain rfl := Except.ok.inj h
    exact .cons hb (ih hcs)

theorem collect_of_forall₂ {f : α → Job σ ε β} (hf : ∀ a, Looks (f a)) {as : List α} {s : σ}
    {bs : List β} (h : List.Forall₂ (fun a b => (f a s).result = .ok b) as bs) :
    (collect f as s).result = .ok bs := by
  induction h with
  | nil => rfl
  | cons hb _ ih =>
    obtain ⟨hr, -⟩ := collect_cons_of_ok hb _
    rw [hr, hf _ s, ih]
    rfl

/-! ### Printed texts -/

theorem bind_printed_of_ok {x : Job σ ε α} {s : σ} {a : α} (h : (x s).result = .ok a)
    (f : α → Job σ ε β) :
    (bind x f s).printed = (x s).printed ++ (f a (x s).state).printed := by
  rw [bind_eq_of_ok h, Outcome.printed, List.map_append, String.join_append]
  rfl

theorem bind_printed_of_error {x : Job σ ε α} {s : σ} {e : ε} (h : (x s).result = .error e)
    (f : α → Job σ ε β) : (bind x f s).printed = (x s).printed := by
  rw [bind_eq_of_error h]
  rfl

@[simp] theorem mapError_printed (g : ε → δ) (x : Job σ ε α) (s : σ) :
    (mapError g x s).printed = (x s).printed := by
  cases h : (x s).result <;> simp [mapError, h, Outcome.printed]

theorem print_printed (text : String) (s : σ) :
    (print text s : Outcome σ ε Unit).printed = text := by
  simp [print, note, Outcome.printed, Note.printed, String.join_cons]

def Silent (x : Job σ ε α) : Prop := ∀ s, (x s).printed = ""

theorem silent_pure (a : α) : Silent (pure a : Job σ ε α) := fun _ => rfl

theorem silent_ask (f : σ → Except ε α) : Silent (ask f) := fun _ => rfl

theorem silent_log (level : Log.Level) (area : Log.Area) (message : String)
    (details : List (String × String)) :
    Silent (log level area message details : Job σ ε Unit) :=
  fun _ => rfl

theorem Silent.bind {x : Job σ ε α} {f : α → Job σ ε β} (hx : Silent x) (hf : ∀ a, Silent (f a)) :
    Silent (bind x f) := by
  intro s
  cases h : (x s).result with
  | error e => rw [bind_printed_of_error h, hx s]
  | ok a => rw [bind_printed_of_ok h, hx s, hf a, String.empty_append]

theorem Silent.mapError {x : Job σ ε α} (hx : Silent x) (g : ε → δ) : Silent (mapError g x) := by
  intro s
  rw [mapError_printed, hx s]

theorem silent_forAll {f : α → Job σ ε Unit} (hf : ∀ a, Silent (f a)) (as : List α) :
    Silent (forAll f as) := by
  induction as with
  | nil => exact silent_pure ()
  | cons a as ih => exact (hf a).bind fun _ => ih

/-! ### Errors -/

def Fails (P : ε → Prop) (x : Job σ ε α) : Prop := ∀ s e, (x s).result = .error e → P e

variable {P : ε → Prop}

theorem Fails.bind {x : Job σ ε α} {f : α → Job σ ε β} (hx : Fails P x) (hf : ∀ a, Fails P (f a)) :
    Fails P (bind x f) := by
  intro s e he
  cases h : (x s).result with
  | error e' =>
    rw [bind_eq_of_error h] at he
    obtain rfl := Except.error.inj he
    exact hx s _ h
  | ok a =>
    rw [bind_eq_of_ok h] at he
    exact hf a _ e he

end Job

end NativeUi
