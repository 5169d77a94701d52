import NativeUi.Log

/-!
# Jobs

A job works on a state. It leaves notes behind, succeeds or fails, and ends in a state either way.
-/
namespace NativeUi

/-- What a job lets others know: a log entry, or what it or a program it ran has printed. -/
inductive Note where
  | log (entry : Log.Entry)
  | output (text : String)
  | errorOutput (text : String)

def Note.printed : Note → String
  | .output text => text
  | _ => ""

structure Outcome (σ ε α : Type) where
  notes : List Note
  result : Except ε α
  state : σ

def Outcome.printed {σ ε α : Type} (o : Outcome σ ε α) : String :=
  String.join (o.notes.map Note.printed)

def Job (σ ε α : Type) : Type := σ → Outcome σ ε α

namespace Job

variable {σ ε δ α β : Type}

def pure (a : α) : Job σ ε α := fun s => ⟨[], .ok a, s⟩

def bind (x : Job σ ε α) (f : α → Job σ ε β) : Job σ ε β := fun s =>
  let o := x s
  match o.result with
  | .error e => ⟨o.notes, .error e, o.state⟩
  | .ok a =>
    let p := f a o.state
    ⟨o.notes ++ p.notes, p.result, p.state⟩

instance : Monad (Job σ ε) where
  pure := pure
  bind := bind

def fail (e : ε) : Job σ ε α := fun s => ⟨[], .error e, s⟩

def note (n : Note) : Job σ ε Unit := fun s => ⟨[n], .ok (), s⟩

def log (level : Log.Level) (area : Log.Area) (message : String)
    (details : List (String × String)) : Job σ ε Unit :=
  note (.log ⟨level, area, message, details⟩)

def print (text : String) : Job σ ε Unit := note (.output text)

def ofExcept (x : Except ε α) : Job σ ε α := fun s => ⟨[], x, s⟩

def ask (f : σ → Except ε α) : Job σ ε α := fun s => ⟨[], f s, s⟩

def change (f : σ → Except ε σ) : Job σ ε Unit := fun s =>
  match f s with
  | .ok s => ⟨[], .ok (), s⟩
  | .error e => ⟨[], .error e, s⟩

def mapError (g : ε → δ) (x : Job σ ε α) : Job σ δ α := fun s =>
  let o := x s
  match o.result with
  | .ok a => ⟨o.notes, .ok a, o.state⟩
  | .error e => ⟨o.notes, .error (g e), o.state⟩

def forAll (f : α → Job σ ε Unit) : List α → Job σ ε Unit
  | [] => pure ()
  | a :: as => bind (f a) fun _ => forAll f as

/-- Runs a job for every member of a list in order and collects the results. -/
def collect (f : α → Job σ ε β) : List α → Job σ ε (List β)
  | [] => pure []
  | a :: as => bind (f a) fun b => bind (collect f as) fun bs => pure (b :: bs)

theorem bind_eq_of_ok {x : Job σ ε α} {s : σ} {a : α} (h : (x s).result = .ok a)
    (f : α → Job σ ε β) :
    bind x f s =
      ⟨(x s).notes ++ (f a (x s).state).notes, (f a (x s).state).result,
        (f a (x s).state).state⟩ := by
  simp [bind, h]

theorem bind_eq_of_error {x : Job σ ε α} {s : σ} {e : ε} (h : (x s).result = .error e)
    (f : α → Job σ ε β) : bind x f s = ⟨(x s).notes, .error e, (x s).state⟩ := by
  simp [bind, h]

theorem pure_bind (a : α) (f : α → Job σ ε β) : bind (pure a) f = f a := by
  funext s
  simp [bind, pure]

end Job

end NativeUi
