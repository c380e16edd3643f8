import GuestFiles.Host.Fault
import GuestFiles.Host.Path
import GuestFiles.Json.Fault

/-! # Failures

Control blocks and patterns never fail. Drives, the host and a configuration can. -/

namespace GuestFiles

/-- Why an operation on drives failed. -/
inductive Failure where
  | invalidDrive (letter : Char)
  | notMounted (letter : Char)
  /-- A search from `root` cannot go on at `path`, which it reached after `depth` directories. -/
  | traversal (root path : Host.Path) (depth : Nat) (fault : Host.Fault)
  | unreadable (fault : Host.Fault)
  /-- A configuration is not written as it has to be. -/
  | badConfig (fault : Json.Fault)

namespace Failure

def message : Failure → String
  | .invalidDrive letter => "Invalid drive: " ++ String.singleton letter
  | .notMounted letter => "Drive not mounted: " ++ String.singleton letter
  | .traversal root path _ fault =>
    "Cannot traverse " ++ Text.quotedBytes root.bytes ++ ": IO error for operation on " ++
      path.shown ++ ": " ++ fault.message
  | .unreadable fault => "I/O error: " ++ fault.message
  | .badConfig fault =>
    "JSON error: " ++ fault.cause.message ++ " at line " ++ fault.line.repr ++ " column " ++
      fault.column.repr

def diagnostic : Failure → String
  | .invalidDrive letter => "InvalidDrive(" ++ Text.quotedChar letter ++ ")"
  | .notMounted letter => "DriveNotMounted(" ++ Text.quotedChar letter ++ ")"
  | .traversal root path depth fault =>
    "Traversal \x7b root: " ++ Text.quotedBytes root.bytes ++ ", source: Error \x7b depth: " ++
      depth.repr ++ ", inner: Io \x7b path: Some(" ++ Text.quotedBytes path.bytes ++ "), err: " ++
      fault.diagnostic ++ " \x7d \x7d \x7d"
  | .unreadable fault => "Io(" ++ fault.diagnostic ++ ")"
  | .badConfig fault => "Json(" ++ fault.diagnostic ++ ")"

end Failure

end GuestFiles
