import NativeUi.Shell.State

/-!
# Processes

A process runs in a copy of the state; what others get to see of it is what it has done to the
machine, and its status. Signals are sent to the process itself, to those it descends from and to
those that run in the background.
-/
namespace NativeUi.Shell.Run

def freshProcess : Run Nat := do
  let s ← get
  let n := s.machine.nextProcess
  set { s with machine := { s.machine with nextProcess := n + 1 } }
  return n

def inCopy {α : Type} (r : Run α) : Run α := fun s =>
  let (result, t) := r s
  (result, { s with machine := t.machine })

/-! ### Traps -/

def findTrap? (traps : Traps) (signal : Nat) : Option String :=
  (traps.find? fun x => x.1 == signal).map fun x => x.2

def hasTraps : Run Bool := do
  let s ← get
  return s.traps.any fun x => !x.2.isEmpty

def runAction (next : Engine) (action : String) : Run Unit := do
  let status ← getStatus
  next.text false action
  setStatus status

def answerSignals (next : Engine) : List Nat → Run Unit
  | [] => pure ()
  | n :: ns => do
    let s ← get
    match findTrap? s.traps n with
    | some action => runAction next action
    | none => pure ()
    answerSignals next ns

def checkSignals (next : Engine) : Run Unit := do
  let s ← get
  if s.machine.signals.isEmpty then pure ()
  else
    let mine := s.machine.signals.filterMap fun x => if x.1 = s.self then some x.2 else none
    let others := s.machine.signals.filter fun x => x.1 != s.self
    set { s with machine := { s.machine with signals := others } }
    answerSignals next mine

def runExitTrap (next : Engine) : Run Unit := do
  let s ← get
  match findTrap? s.traps 0 with
  | none => pure ()
  | some action =>
    set { s with traps := s.traps.filter fun x => x.1 != 0 }
    if action.isEmpty then pure () else runAction next action

def statusOf : Except Interrupt Unit → Run Status
  | .error (.dies process signal) => do
    let s ← get
    if process = s.self then return .signal signal else throw (.dies process signal)
  | _ => do
    let n ← getStatus
    return .exit (n % 256)

def finish (next : Engine) (result : Except Interrupt Unit) : Run Status := do
  match result with
  | .error .replaced => statusOf result
  | .error (.dies _ _) => statusOf result
  | _ =>
    let last ← observe (runExitTrap next)
    statusOf last

/-! ### New processes -/

def inheritedTraps (traps : Traps) : Traps := traps.filter fun x => x.2.isEmpty

def fork (next : Engine) (r : Run Unit) : Run (Nat × Status) := do
  let n ← freshProcess
  let status ← inCopy do
    modify fun s =>
      { s with
        self := n, family := (s.self, s.traps) :: s.family, traps := inheritedTraps s.traps,
        background := [] }
    let result ← observe r
    finish next result
  return (n, status)

/-- The meaning of a signal by which a process has ended, if it is worth a word. -/
def deathNotice? (signal : Nat) : Option String :=
  if signal = 2 || signal = 13 then none
  else some (signalMeaning signal)

def takeStatus (status : Status) : Run Unit := do
  match status with
  | .exit _ => pure ()
  | .signal n =>
    match deathNotice? n with
    | some notice => printTo 2 (notice ++ "\n")
    | none => pure ()
  setStatus status.code

def await (next : Engine) (r : Run Unit) : Run Unit := do
  let (_, status) ← fork next r
  takeStatus status

/-- Runs in the background. What it does is done at once, but it counts as running as long as it
would have taken. -/
def startBackground (next : Engine) (r : Run Unit) : Run Unit := do
  let s ← get
  let start := s.machine.clock
  let (n, status) ← fork next do
    openAt 0 .nowhere
    r
  modify fun s =>
    { s with
      machine := { s.machine with clock := start },
      background := s.background ++ [⟨n, status, s.machine.clock⟩] }
  setStatus 0

def capture (next : Engine) (r : Run Unit) : Run String := do
  let c ← newChannel (.buffer [])
  let (_, status) ← fork next do
    connect 1 c
    r
  modify fun s => { s with substituted := status.code }
  let s ← get
  return s.machine.collected c

def become (status : Status) : Run Unit := do
  let s ← get
  match status with
  | .exit n =>
    setStatus n
    throw .replaced
  | .signal n => throw (.dies s.self n)

/-! ### Signals -/

def deliver (process : Nat) (traps : Traps) (signal : Nat) : Run Unit := do
  let default := if isIdleSignal signal then none else some ()
  let answer := if signal = 9 || signal = 19 then none else findTrap? traps signal
  match answer, default with
  | some action, _ =>
    if action.isEmpty then pure ()
    else
      modify fun s =>
        { s with machine := { s.machine with signals := s.machine.signals ++ [(process, signal)] } }
  | none, some () => throw (.dies process signal)
  | none, none => pure ()

def sendSignal (process signal : Nat) : Run Bool := do
  let s ← get
  let known := (s.self, s.traps) :: s.family
  match known.find? fun x => x.1 == process with
  | some (p, traps) =>
    if signal = 0 then return true
    else
      deliver p traps signal
      return true
  | none =>
    match s.background.find? fun b => b.process == process with
    | some b =>
      if b.ends ≤ s.machine.clock then return true
      else if signal = 0 || isIdleSignal signal then return true
      else
        let kill (x : Background) : Background :=
          if x.process = process then ⟨process, .signal signal, s.machine.clock⟩ else x
        set { s with background := s.background.map kill }
        return true
    | none => return false

def sleepFor (milliseconds : Nat) : Run Unit :=
  modify fun s => { s with machine := { s.machine with clock := s.machine.clock + milliseconds } }

end NativeUi.Shell.Run
