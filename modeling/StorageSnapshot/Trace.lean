-- SUMMARY: Computations that leave a trace: records of what they met, beside a result or an error.

/-!
# Traces

A traced computation yields records, oldest first, and then a result or an error. The records stay
when it ends in an error.
-/

namespace StorageSnapshot

/-! ## Records -/

/-- How much a record matters. -/
inductive Level where
  | debug
  | info
  | warning
  | error
  | critical
  deriving DecidableEq

namespace Level

def rank : Level → Nat
  | .debug => 0
  | .info => 1
  | .warning => 2
  | .error => 3
  | .critical => 4

def name : Level → String
  | .debug => "DEBUG"
  | .info => "INFO"
  | .warning => "WARNING"
  | .error => "ERROR"
  | .critical => "CRITICAL"

def atLeast (l floor : Level) : Bool := floor.rank ≤ l.rank

end Level

structure Record where
  topic : String
  level : Level
  message : String
  deriving DecidableEq

-- The parts of the program that leave records.

namespace Topic

def ast : String := "ast"
def options : String := "conf"
def run : String := "run"
def decoding : String := "storage_decoder"
def resolution : String := "type_resolution"
def validation : String := "validation"

/-- The topic of records about the log itself. -/
def root : String := "root"

/-- Every topic of the program. -/
def all : List String := [ast, options, run, decoding, resolution, validation]

/-- The topics on which a warning says that a value was given up. -/
def aborts : List String := [decoding, resolution]

end Topic

/-! ## Traced computations -/

structure Traced (ε α : Type) where
  trace : List Record
  result : Except ε α

namespace Traced

variable {ε δ α β : Type}

def ofExcept (r : Except ε α) : Traced ε α := ⟨[], r⟩

def fail (e : ε) : Traced ε α := ⟨[], .error e⟩

/-- Leaves one record. -/
def record (topic : String) (level : Level) (message : String) : Traced ε Unit :=
  ⟨[⟨topic, level, message⟩], .ok ()⟩

def debug (topic message : String) : Traced ε Unit := record topic .debug message

def warning (topic message : String) : Traced ε Unit := record topic .warning message

def bind (x : Traced ε α) (f : α → Traced ε β) : Traced ε β :=
  match x.result with
  | .ok a =>
    let y := f a
    ⟨x.trace ++ y.trace, y.result⟩
  | .error e => ⟨x.trace, .error e⟩

instance : Monad (Traced ε) where
  pure a := ⟨[], .ok a⟩
  bind := bind

instance : MonadLift (Except ε) (Traced ε) := ⟨ofExcept⟩

/-- The same computation with another kind of error. -/
def mapError (f : ε → δ) (x : Traced ε α) : Traced δ α := ⟨x.trace, x.result.mapError f⟩

/-- Goes on with `handler` where `x` ends in an error. -/
def rescue (x : Traced ε α) (handler : ε → Traced δ α) : Traced δ α :=
  match x.result with
  | .ok a => ⟨x.trace, .ok a⟩
  | .error e =>
    let y := handler e
    ⟨x.trace ++ y.trace, y.result⟩

/-- Leaves the records of another computation, whatever became of it. -/
def replay (x : Traced ε α) : Traced δ Unit := ⟨x.trace, .ok ()⟩

/-- The records of at least `floor`. -/
def recordsFrom (floor : Level) (x : Traced ε α) : List Record :=
  x.trace.filter fun r => r.level.atLeast floor

/-! ## Small laws -/

@[simp] theorem trace_pure (a : α) : (pure a : Traced ε α).trace = [] := rfl

@[simp] theorem result_pure (a : α) : (pure a : Traced ε α).result = .ok a := rfl

@[simp] theorem trace_fail (e : ε) : (fail e : Traced ε α).trace = [] := rfl

@[simp] theorem result_fail (e : ε) : (fail e : Traced ε α).result = .error e := rfl

@[simp] theorem result_record (topic : String) (level : Level) (message : String) :
    (record topic level message : Traced ε Unit).result = .ok () := rfl

theorem bind_of_ok {x : Traced ε α} {a : α} (h : x.result = .ok a) (f : α → Traced ε β) :
    x >>= f = ⟨x.trace ++ (f a).trace, (f a).result⟩ := by
  change bind x f = _
  simp [bind, h]

theorem bind_of_error {x : Traced ε α} {e : ε} (h : x.result = .error e) (f : α → Traced ε β) :
    x >>= f = ⟨x.trace, .error e⟩ := by
  change bind x f = _
  simp [bind, h]

/-- The result of a sequence is the sequence of the results. -/
@[simp] theorem result_bind (x : Traced ε α) (f : α → Traced ε β) :
    (x >>= f).result = x.result >>= fun a => (f a).result := by
  cases h : x.result with
  | ok a => rw [bind_of_ok h]; rfl
  | error e => rw [bind_of_error h]; rfl

theorem bind_bind {γ : Type} (x : Traced ε α) (f : α → Traced ε β) (g : β → Traced ε γ) :
    bind (bind x f) g = bind x fun a => bind (f a) g := by
  rcases x with ⟨t, e | a⟩
  · rfl
  · rcases h : f a with ⟨s, e | b⟩ <;> simp [bind, h, List.append_assoc]

instance : LawfulMonad (Traced ε) := LawfulMonad.mk' (Traced ε)
  (fun x => by rcases x with ⟨t, e | a⟩ <;> simp [Functor.map, bind])
  (fun a f => by simp [Pure.pure, Bind.bind, bind])
  (fun x f g => bind_bind x f g)

end Traced

end StorageSnapshot
