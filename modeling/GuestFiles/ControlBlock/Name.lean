import GuestFiles.ControlBlock.Basic
import GuestFiles.Text.Split
import GuestFiles.Text.Uppercase
import GuestFiles.Text.Utf8

/-! # Names in a control block

A typed name such as `B:HELLO.COM` becomes a drive byte and two padded fields; the fields become a
name to show again. Typing never fails: long parts are cut, missing ones are spaces, and a star
fills the rest of its field with question marks. -/

namespace GuestFiles.ControlBlock

/-- The byte that stands for any byte. -/
abbrev anyByte : UInt8 := 0x3F

/-- The byte that stands for the rest of a field. -/
abbrev starByte : UInt8 := 0x2A

abbrev dotByte : UInt8 := 0x2E

abbrev colonByte : UInt8 := 0x3A

/-! ## From text to fields -/

/-- The first `width` positions of a field that is typed as `segment`. -/
def fill : Nat → List UInt8 → List UInt8
  | 0, _ => []
  | width + 1, [] => space :: fill width []
  | width + 1, b :: rest =>
    if b = starByte then
      List.replicate (width + 1) anyByte
    else
      b :: fill width rest

@[simp] theorem length_fill (width : Nat) (segment : List UInt8) :
    (fill width segment).length = width := by
  induction width generalizing segment with
  | zero => rfl
  | succ width ih =>
      cases segment with
      | nil => simp [fill, ih]
      | cons b rest =>
          by_cases h : b = starByte <;> simp [fill, h, ih]

/-- A field of `width` bytes that is typed as `segment`. -/
def field (width : Nat) (segment : List UInt8) : Vector UInt8 width :=
  ⟨(fill width segment).toArray, by simp⟩

/-- A typed name without its drive letter, and the drive byte it asks for: 0 for A, 1 for B and so
on up to Z, and 0 when there is no letter or the letter is no letter. -/
def splitDrive : List UInt8 → UInt8 × List UInt8
  | letter :: colon :: rest =>
    if colon = colonByte then
      (if 0x41 ≤ letter ∧ letter ≤ 0x5A then letter - 0x41 else 0, rest)
    else
      (0, letter :: colon :: rest)
  | typed => (0, typed)

/-- Clears the block and takes the drive and the name from a typed name. -/
def retype (b : ControlBlock) (text : String) : ControlBlock :=
  let (drive, rest) := splitDrive (Text.bytes (Text.upper text))
  let (base, extension) := Text.splitFirst dotByte rest
  ((b.clear.setDrive drive).setRawName (field 8 base)).setRawExtension (field 3 extension)

theorem retype_eq (b : ControlBlock) (text : String) :
    b.retype text =
      let (drive, rest) := splitDrive (Text.bytes (Text.upper text))
      let (base, extension) := Text.splitFirst dotByte rest
      { blank with drive := drive, name := field 8 base, extension := field 3 extension } := by
  cases h : splitDrive (Text.bytes (Text.upper text)) with
  | mk drive rest =>
      simp only [retype, h]
      rfl

def parse (text : String) : ControlBlock :=
  blank.retype text

/-- Sets the name alone. A dot in `text` is a byte like any other. -/
def setName (b : ControlBlock) (text : String) : ControlBlock :=
  b.setRawName (field 8 (Text.bytes (Text.upper text)))

def setExtension (b : ControlBlock) (text : String) : ControlBlock :=
  b.setRawExtension (field 3 (Text.bytes (Text.upper text)))

/-! ## From fields to text -/

/-- A byte of a name without its attribute. -/
def plain (b : UInt8) : UInt8 :=
  b &&& 0x7F

/-- What a field shows: its bytes up to the first space, without their attributes. -/
def shownField {width : Nat} (field : Vector UInt8 width) : String :=
  String.ofList
    (((field.toList.map plain).takeWhile (· ≠ space)).map fun b => Char.ofNat b.toNat)

def shownName (b : ControlBlock) : String :=
  shownField b.name

def shownExtension (b : ControlBlock) : String :=
  shownField b.extension

/-- Name and extension as they are shown, with a dot between them when there is an extension. -/
def filename (b : ControlBlock) : String :=
  if b.shownExtension.isEmpty then
    b.shownName
  else
    b.shownName ++ "." ++ b.shownExtension

/-- Whether a position of the name or the extension stands for any byte. -/
def hasWildcards (b : ControlBlock) : Bool :=
  (b.name.toList ++ b.extension.toList).any (plain · == anyByte)

end GuestFiles.ControlBlock
