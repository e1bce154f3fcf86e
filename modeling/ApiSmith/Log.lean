/-!
# Log records

What runs leave in the log besides their result. A record has a level, a channel and a text.
-/

namespace ApiSmith

inductive Level where
  /-- Of use when looking for a fault. -/
  | debug
  | info
  | warning
  | error
  deriving DecidableEq, Repr

def Level.name : Level → String
  | .debug => "DEBUG"
  | .info => "INFO"
  | .warning => "WARNING"
  | .error => "ERROR"

inductive Channel where
  | enums
  | paths
  | assembly
  | files
  | objects
  | notices
  | client
  deriving DecidableEq, Repr

def Channel.name : Channel → String
  | .enums => "clientgen.enums"
  | .paths => "clientgen.paths"
  | .assembly => "clientgen.context_builder"
  | .files => "clientgen.codegen"
  | .objects => "clientgen.runtime.objects"
  | .notices => "clientgen.runtime.notifications"
  | .client => "clientgen.runtime.client"

structure LogRecord where
  level : Level
  channel : Channel
  text : String
  deriving DecidableEq, Repr

def LogRecord.line (r : LogRecord) : String :=
  r.level.name ++ " " ++ r.channel.name ++ ": " ++ r.text

/-- A result together with the records on the way to it. -/
structure Logged (ε α : Type) where
  result : Except ε α
  /-- The records, oldest first. -/
  log : List LogRecord

namespace Logged

variable {ε α β : Type}

def done (x : α) : Logged ε α := ⟨.ok x, []⟩

def fail (e : ε) : Logged ε α := ⟨.error e, []⟩

def note (level : Level) (channel : Channel) (text : String) : Logged ε Unit :=
  ⟨.ok (), [⟨level, channel, text⟩]⟩

def andThen (x : Logged ε α) (f : α → Logged ε β) : Logged ε β :=
  match x.result with
  | .error e => ⟨.error e, x.log⟩
  | .ok a =>
    let y := f a
    ⟨y.result, x.log ++ y.log⟩

instance : Monad (Logged ε) where
  pure := done
  bind := andThen

def ofExcept (r : Except ε α) : Logged ε α := ⟨r, []⟩

@[simp] theorem result_pure (x : α) : (pure x : Logged ε α).result = .ok x := rfl

@[simp] theorem result_fail (e : ε) : (fail e : Logged ε α).result = .error e := rfl

@[simp] theorem result_ofExcept (r : Except ε α) : (ofExcept r).result = r := rfl

@[simp] theorem result_note (level : Level) (channel : Channel) (text : String) :
    (note level channel text : Logged ε Unit).result = .ok () := rfl

/-- Results depend on results only, not on records. -/
@[simp] theorem result_bind (x : Logged ε α) (f : α → Logged ε β) :
    (x >>= f).result = x.result.bind fun a => (f a).result := by
  show (andThen x f).result = _
  unfold andThen
  cases x.result <;> rfl

end Logged

end ApiSmith
