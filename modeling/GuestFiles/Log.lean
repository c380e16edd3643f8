/-! # Log lines

A computation that keeps a log is its value together with the lines it wrote, oldest first. -/

namespace GuestFiles

inductive Level where
  | trace
  | debug
  | warn
  deriving DecidableEq, Repr

def Level.label : Level → String
  | .trace => "TRACE"
  | .debug => "DEBUG"
  | .warn => "WARN"

structure LogLine where
  level : Level
  message : String
  deriving DecidableEq, Repr

/-- A value and the lines written on the way to it. -/
structure Logged (α : Type) where
  value : α
  /-- The lines, oldest first. -/
  log : List LogLine

namespace Logged

/-- Goes on with the value, and writes the further lines after those of `x`. -/
protected def bind {α β : Type} (x : Logged α) (f : α → Logged β) : Logged β :=
  ⟨(f x.value).value, x.log ++ (f x.value).log⟩

instance : Monad Logged where
  pure a := ⟨a, []⟩
  bind := Logged.bind

def write (level : Level) (message : String) : Logged Unit :=
  ⟨(), [⟨level, message⟩]⟩

@[simp] theorem pure_value {α : Type} (a : α) : (pure a : Logged α).value = a := rfl

@[simp] theorem pure_log {α : Type} (a : α) : (pure a : Logged α).log = [] := rfl

@[simp] theorem bind_value {α β : Type} (x : Logged α) (f : α → Logged β) :
    (x >>= f).value = (f x.value).value := rfl

@[simp] theorem bind_log {α β : Type} (x : Logged α) (f : α → Logged β) :
    (x >>= f).log = x.log ++ (f x.value).log := rfl

@[simp] theorem write_log (level : Level) (message : String) :
    (write level message).log = [⟨level, message⟩] := rfl

end Logged

end GuestFiles
