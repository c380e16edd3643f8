import GuestFiles.ControlBlock.Name
import GuestFiles.Log

/-! # Control blocks as patterns

A block accepts the names that agree with it position by position, where a question mark agrees with
every byte. Attributes of the block take no part. -/

namespace GuestFiles.ControlBlock

/-- A part of a name padded with spaces, when it is not too long for its field. -/
def pad? (width : Nat) (part : List UInt8) : Option (Vector UInt8 width) :=
  if h : part.length ≤ width then
    some ⟨(part ++ List.replicate (width - part.length) space).toArray, by simp; omega⟩
  else
    none

/-- The padded fields of a name, when it has at most 8 bytes before its first dot and at most 3
bytes after it in upper case. -/
def fieldsOf? (candidate : String) : Option (Vector UInt8 8 × Vector UInt8 3) :=
  let (base, extension) := Text.splitFirst dotByte (Text.bytes (Text.upper candidate))
  match pad? 8 base, pad? 3 extension with
  | some name, some extension => some (name, extension)
  | _, _ => none

/-- Whether a field of a pattern agrees with a field of a name. -/
def agrees {width : Nat} (pattern name : Vector UInt8 width) : Bool :=
  (pattern.toList.zip name.toList).all fun (p, c) => plain p == anyByte || plain p == c

def accepts (pattern : ControlBlock) (candidate : String) : Bool :=
  match fieldsOf? candidate with
  | some (name, extension) => agrees pattern.name name && agrees pattern.extension extension
  | none => false

/-- Whether the block accepts a name, with a line in the log for a name that has no fields. -/
def examine (pattern : ControlBlock) (candidate : String) : Logged Bool := do
  if (fieldsOf? candidate).isNone then
    Logged.write .trace (candidate ++ " is not an 8.3 name")
  return pattern.accepts candidate

end GuestFiles.ControlBlock
