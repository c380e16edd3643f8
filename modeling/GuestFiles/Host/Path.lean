import GuestFiles.Text.Quoted

/-! # Paths on the host

A path is any row of bytes. Slashes part it into names. Two paths compare by their components, which
leave out what makes no difference: repeated and trailing slashes, and single dots that do not
lead. -/

namespace GuestFiles.Host

abbrev Name := List UInt8

abbrev slash : UInt8 := 0x2F

abbrev selfName : Name := [0x2E]

abbrev parentName : Name := [0x2E, 0x2E]

/-- A path as it is written. -/
structure Path where
  bytes : List UInt8
  deriving DecidableEq, Repr

namespace Path

def ofText (text : String) : Path :=
  ⟨Text.bytes text⟩

/-- The path as text, with replacement characters where it is none. -/
def shown (path : Path) : String :=
  Text.lossy path.bytes

/-- The path as text, when it is text. -/
def text? (path : Path) : Option String :=
  Text.ofBytes? path.bytes

/-- The path of the entry `name` in the directory `path`. -/
def join (path : Path) (name : Name) : Path :=
  match path.bytes.getLast? with
  | none => ⟨name⟩
  | some last =>
    if last = slash then
      ⟨path.bytes ++ name⟩
    else
      ⟨path.bytes ++ slash :: name⟩

/-- The most bytes of a path that the host can be asked for. -/
def maxLength : Nat := 4095

/-- Whether the host can be asked for the path. -/
def fits (path : Path) : Bool :=
  path.bytes.length ≤ maxLength

def isAbsolute (path : Path) : Bool :=
  path.bytes.head? == some slash

/-! ## Names and components -/

/-- The runs of bytes between slashes, empty ones included. There is always at least one. -/
def cut : List UInt8 → List Name
  | [] => [[]]
  | b :: rest =>
    if b = slash then
      [] :: cut rest
    else
      match cut rest with
      | [] => [[b]]
      | name :: more => (b :: name) :: more

def names (path : Path) : List Name :=
  cut path.bytes

/-- What a part of a path says. -/
inductive Component where
  | root
  | here
  | up
  | entry (name : Name)
  deriving DecidableEq, Repr

/-- The component that a name inside a path stands for. -/
def component? (name : Name) : Option Component :=
  if name = [] ∨ name = selfName then none
  else if name = parentName then some .up
  else some (.entry name)

/-- The components of a path. A leading dot counts, any other does not. -/
def components (path : Path) : List Component :=
  let inner := path.names.filterMap component?
  if path.isAbsolute then .root :: inner
  else if path.names.head? = some selfName then .here :: inner
  else inner

/-- The name that ends a path, or the whole path when it ends in no name. -/
def lastName (path : Path) : Name :=
  match path.components.getLast? with
  | some (.entry name) => name
  | _ => path.bytes

end Path

/-! ## Order -/

namespace Path.Component

def rank : Component → Nat
  | .root => 0
  | .here => 1
  | .up => 2
  | .entry _ => 3

def bytes : Component → List UInt8
  | .entry name => name
  | _ => []

/-- The root comes first, then the directory itself, the one above, and names by their bytes. -/
instance : Ord Component where
  compare := compareLex (compareOn rank) (compareOn bytes)

end Path.Component

/-- Paths are compared component by component. -/
instance : Ord Path where
  compare := compareOn Path.components

end GuestFiles.Host
