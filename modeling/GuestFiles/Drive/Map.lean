import GuestFiles.Drive.Letter
import GuestFiles.Search.Walk

/-! # Drives and their roots

A drive map gives each mounted drive a directory on the host, and says which drive is meant when
none is named. -/

namespace GuestFiles

open Host

/-- The roots of the drives. -/
structure DriveMap where
  roots : Vector (Option Path) 16
  /-- The drive that is meant when none is named. -/
  current : Drive
  deriving DecidableEq, Repr

namespace DriveMap

/-- No drive is mounted, and A is the current drive. -/
def empty : DriveMap :=
  ⟨Vector.replicate 16 none, 0⟩

def single (root : Path) : DriveMap :=
  ⟨Vector.replicate 16 (some root), 0⟩

/-- Each drive has the directory below `root` that is named by its letter. -/
def perDrive (root : Path) : DriveMap :=
  ⟨Vector.ofFn fun drive => some (root.join [0x41 + drive.val.toUInt8]), 0⟩

/-! ## Changing

A change says whether it was made, and gives the map afterwards in either case. -/

def mount (map : DriveMap) (letter : Char) (root : Path) : Except Failure Unit × DriveMap :=
  match Drive.ofLetter letter with
  | .error failure => (.error failure, map)
  | .ok drive => (.ok (), { map with roots := map.roots.set drive.val (some root) })

def unmount (map : DriveMap) (letter : Char) : Except Failure Unit × DriveMap :=
  match Drive.ofLetter letter with
  | .error failure => (.error failure, map)
  | .ok drive => (.ok (), { map with roots := map.roots.set drive.val none })

def setCurrent (map : DriveMap) (letter : Char) : Except Failure Unit × DriveMap :=
  match Drive.ofLetter letter with
  | .error failure => (.error failure, map)
  | .ok drive => (.ok (), { map with current := drive })

/-! ## Reading -/

def root (map : DriveMap) (letter : Char) : Except Failure Path := do
  let drive ← Drive.ofLetter letter
  match map.roots[drive.val] with
  | some root => .ok root
  | none => .error (.notMounted drive.letter)

/-- The letter of the drive that a control block asks for. Zero asks for the current drive. -/
def letterFor (map : DriveMap) (b : ControlBlock) : Except Failure Char :=
  if b.drive = 0 then .ok map.current.letter else Drive.letterOf b.drive

/-! ## Searching -/

/-- Searches a drive, whatever drive the pattern asks for. -/
def findOn (map : DriveMap) (host : Host) (letter : Char) (pattern : ControlBlock) :
    Logged (Except Failure (List Hit)) :=
  match map.root letter with
  | .error failure => return .error failure
  | .ok root => do
    Logged.write .debug ("searching " ++ String.singleton letter ++ ": at " ++ root.shown)
    search pattern root host

def find (map : DriveMap) (host : Host) (pattern : ControlBlock) :
    Logged (Except Failure (List Hit)) :=
  match map.letterFor pattern with
  | .error failure => return .error failure
  | .ok letter => map.findOn host letter pattern

/-- The drive that a typed name asks for: the one it is typed with, or else the current one. -/
def typedDrive (map : DriveMap) (text : String) : Except Failure Drive :=
  match Drive.typedLetter? text with
  | some letter => Drive.ofLetter letter
  | none => .ok map.current

def findTyped (map : DriveMap) (host : Host) (text : String) :
    Logged (Except Failure (List Hit)) :=
  match map.typedDrive text with
  | .error failure => return .error failure
  | .ok drive => map.findOn host drive.letter (.parse text)

end DriveMap

end GuestFiles
