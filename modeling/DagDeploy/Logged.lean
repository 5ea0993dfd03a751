import DagDeploy.Failure

/-! Computations that may stop with a failure and write log lines on the way. A failed computation
keeps the lines it wrote before it stopped. -/

namespace DagDeploy

inductive LogLevel where
  | debug
  | info
  | warn
  deriving DecidableEq, Repr

def LogLevel.name : LogLevel → String
  | .debug => "DEBUG"
  | .info => "INFO"
  | .warn => "WARN"

inductive LogLine where
  | cycle (dag : Nat)
  | unknownKernel (wcet kernel : Int)
  | placed (dag task island unit cpu : Nat) (kind : TaskKind)
  | gappedCpus (cpus : List Nat)
  | extendedRun (repetitions seconds : Nat)
  | createdFolder (folder : String)
  | wroteFile (file : String)
  deriving DecidableEq, Repr

namespace LogLine

def level : LogLine → LogLevel
  | .cycle _ | .gappedCpus _ => .warn
  | .unknownKernel .. | .placed .. => .debug
  | .extendedRun .. | .createdFolder _ | .wroteFile _ => .info

def text : LogLine → String
  | .cycle dag => s!"The edge list of dag {dag} contains a cycle."
  | .unknownKernel wcet kernel => s!"No kernel matches wcet {wcet} ns, using fred id {kernel}"
  | .placed dag task island unit cpu kind =>
    s!"dag {dag} task {task}: island {island} pu {unit} -> cpu {cpu} ({kind.name})"
  | .gappedCpus cpus =>
    let indices := ", ".intercalate (cpus.map fun cpu => s!"{cpu}")
    s!"CPU indices [{indices}] are not contiguous from 0; "
      ++ "cpus_freq does not line up with tasks_affinity."
  | .extendedRun repetitions seconds =>
    s!"Running {repetitions} repetitions to cover at least {seconds} s."
  | .createdFolder folder => s!"Created folder: {folder}"
  | .wroteFile file => s!"Wrote {file}"

def render (line : LogLine) : String := s!"{line.level.name} {line.text}"

end LogLine

structure Logged (α : Type) where
  lines : List LogLine
  outcome : Except Failure α

namespace Logged

variable {α β : Type}

def bind (first : Logged α) (next : α → Logged β) : Logged β :=
  match first.outcome with
  | .error failure => ⟨first.lines, .error failure⟩
  | .ok value => ⟨first.lines ++ (next value).lines, (next value).outcome⟩

instance : Monad Logged where
  pure value := ⟨[], .ok value⟩
  bind := bind

def say (line : LogLine) : Logged Unit := ⟨[line], .ok ()⟩

def sayIf (condition : Bool) (line : LogLine) : Logged Unit :=
  ⟨if condition then [line] else [], .ok ()⟩

def fail (failure : Failure) : Logged α := ⟨[], .error failure⟩

def ofExcept (outcome : Except Failure α) : Logged α := ⟨[], outcome⟩

@[simp] theorem lines_pure (value : α) : (pure value : Logged α).lines = [] := rfl

@[simp] theorem outcome_pure (value : α) : (pure value : Logged α).outcome = .ok value := rfl

@[simp] theorem outcome_sayIf (condition : Bool) (line : LogLine) :
    (sayIf condition line).outcome = .ok () := rfl

@[simp] theorem outcome_ofExcept (outcome : Except Failure α) :
    (ofExcept outcome).outcome = outcome := rfl

@[simp] theorem bind_ok (lines : List LogLine) (value : α) (next : α → Logged β) :
    (⟨lines, .ok value⟩ : Logged α) >>= next
      = ⟨lines ++ (next value).lines, (next value).outcome⟩ := rfl

@[simp] theorem bind_error (lines : List LogLine) (failure : Failure) (next : α → Logged β) :
    (⟨lines, .error failure⟩ : Logged α) >>= next = ⟨lines, .error failure⟩ := rfl

@[simp] theorem ofExcept_ok (value : α) : ofExcept (.ok value) = pure value := rfl

@[simp] theorem ofExcept_mapError_ok {ε : Type} (value : α) (wrap : ε → Failure) :
    ofExcept ((Except.ok value).mapError wrap) = pure value := rfl

@[simp] theorem ofExcept_error (failure : Failure) :
    (ofExcept (.error failure) : Logged α) = fail failure := rfl

@[simp] theorem fail_bind (failure : Failure) (next : α → Logged β) :
    fail failure >>= next = fail failure := rfl

@[simp] theorem say_bind (line : LogLine) (next : Unit → Logged β) :
    say line >>= next = ⟨line :: (next ()).lines, (next ()).outcome⟩ := rfl

@[simp] theorem sayIf_bind (condition : Bool) (line : LogLine) (next : Unit → Logged β) :
    sayIf condition line >>= next
      = ⟨(if condition then [line] else []) ++ (next ()).lines, (next ()).outcome⟩ := rfl

/-- A computation succeeds exactly when both of its parts do. -/
theorem outcome_bind_eq_ok {first : Logged α} {next : α → Logged β} {result : β} :
    (first >>= next).outcome = .ok result ↔
      ∃ value, first.outcome = .ok value ∧ (next value).outcome = .ok result := by
  obtain ⟨lines, outcome⟩ := first
  cases outcome <;> simp

/-- The first part that fails settles how the whole fails. -/
theorem outcome_bind_eq_error {first : Logged α} {next : α → Logged β} {failure : Failure} :
    (first >>= next).outcome = .error failure ↔ first.outcome = .error failure ∨
      ∃ value, first.outcome = .ok value ∧ (next value).outcome = .error failure := by
  obtain ⟨lines, outcome⟩ := first
  cases outcome <;> simp

instance : LawfulMonad Logged := LawfulMonad.mk' Logged
  (fun first => by
    obtain ⟨lines, outcome⟩ := first
    cases outcome <;> simp [Functor.map, bind])
  (fun value next => by simp [Bind.bind, bind, Pure.pure])
  (fun first second third => by
    obtain ⟨lines, outcome⟩ := first
    cases outcome with
    | error failure => rfl
    | ok value =>
      simp only [Bind.bind, bind]
      cases (second value).outcome <;> simp)

end Logged

end DagDeploy
