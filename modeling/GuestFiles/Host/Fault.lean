import GuestFiles.Text.Quoted

/-! # What can go wrong on the host -/

namespace GuestFiles.Host

/-- Why the host cannot reach or read a file. -/
inductive Fault where
  /-- Nothing stands at the path. -/
  | noEntry
  /-- A file stands where the path goes on. -/
  | notDirectory
  | isDirectory
  /-- The path or one of its names is too long. -/
  | nameTooLong
  | tooManyLinks
  | zeroByte
  /-- The content of the file is no text. -/
  | notText
  deriving DecidableEq, Repr

namespace Fault

/-- The number of the fault, when the host's system reports it, and its name. -/
def code? : Fault → Option Nat
  | .noEntry => some 2
  | .notDirectory => some 20
  | .isDirectory => some 21
  | .nameTooLong => some 36
  | .tooManyLinks => some 40
  | .zeroByte => none
  | .notText => none

def kind : Fault → String
  | .noEntry => "NotFound"
  | .notDirectory => "NotADirectory"
  | .isDirectory => "IsADirectory"
  | .nameTooLong => "InvalidFilename"
  | .tooManyLinks => "FilesystemLoop"
  | .zeroByte => "InvalidInput"
  | .notText => "InvalidData"

def description : Fault → String
  | .noEntry => "No such file or directory"
  | .notDirectory => "Not a directory"
  | .isDirectory => "Is a directory"
  | .nameTooLong => "File name too long"
  | .tooManyLinks => "Too many levels of symbolic links"
  | .zeroByte => "file name contained an unexpected NUL byte"
  | .notText => "stream did not contain valid UTF-8"

def message (fault : Fault) : String :=
  match fault.code? with
  | some code => fault.description ++ " (os error " ++ code.repr ++ ")"
  | none => fault.description

def diagnostic (fault : Fault) : String :=
  let rest :=
    "kind: " ++ fault.kind ++ ", message: " ++ Text.quoted fault.description ++ " \x7d"
  match fault.code? with
  | some code => "Os \x7b code: " ++ code.repr ++ ", " ++ rest
  | none => "Error \x7b " ++ rest

end Fault

end GuestFiles.Host
