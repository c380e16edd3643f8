/-! # File control blocks

The descriptor with which a CP/M program names an open file. It lies in the program's memory as 36
bytes in a fixed order: `image` gives the bytes of a block, `ofImage` the block of any 36 bytes, and
the two undo each other. -/

namespace GuestFiles

@[ext]
structure ControlBlock where
  /-- The drive byte, at offset 0. -/
  drive : UInt8
  /-- The name, padded with spaces, at offsets 1 to 8. Bit 7 of a byte is an attribute. -/
  name : Vector UInt8 8
  /-- The extension, padded with spaces, at offsets 9 to 11. Bit 7 of a byte is an attribute. -/
  extension : Vector UInt8 3
  /-- The extent that holds the sequential position, at offset 12. -/
  ex : UInt8
  /-- A reserved byte, at offset 13. -/
  s1 : UInt8
  /-- The high part of the extent, at offset 14. Bit 7 marks a modified file. -/
  s2 : UInt8
  /-- The number of records in the extent, at offset 15. -/
  rc : UInt8
  /-- The allocation map, at offsets 16 to 31. -/
  allocation : Vector UInt8 16
  /-- The record of the sequential position within its extent, at offset 32. -/
  cr : UInt8
  /-- The low byte of the random record number, at offset 33. -/
  r0 : UInt8
  /-- The middle byte of the random record number, at offset 34. -/
  r1 : UInt8
  /-- The high byte of the random record number, at offset 35. -/
  r2 : UInt8
  deriving DecidableEq, Repr

namespace ControlBlock

abbrev size : Nat := 36

abbrev nameWidth : Nat := 8

abbrev extensionWidth : Nat := 3

abbrev space : UInt8 := 0x20

/-- The block without a name: the default drive, spaces, and zeros. -/
def blank : ControlBlock where
  drive := 0
  name := Vector.replicate 8 space
  extension := Vector.replicate 3 space
  ex := 0
  s1 := 0
  s2 := 0
  rc := 0
  allocation := Vector.replicate 16 0
  cr := 0
  r0 := 0
  r1 := 0
  r2 := 0

def clear (b : ControlBlock) : ControlBlock :=
  { b with
    drive := 0
    name := Vector.replicate 8 space
    extension := Vector.replicate 3 space
    ex := 0
    s1 := 0
    s2 := 0
    rc := 0
    allocation := Vector.replicate 16 0
    cr := 0
    r0 := 0
    r1 := 0
    r2 := 0 }

@[simp] theorem clear_eq_blank (b : ControlBlock) : b.clear = blank := rfl

/-! ## Fields as raw bytes -/

/-- The fields that can be overwritten with raw bytes. The random record number is not among them:
it is set as a number only. -/
inductive RawField where
  | drive
  | name
  | extension
  | ex
  | s1
  | s2
  | rc
  | allocation
  | cr
  deriving DecidableEq

/-- The offset of the first byte of a field. -/
def RawField.offset : RawField → Nat
  | .drive => 0
  | .name => 1
  | .extension => 9
  | .ex => 12
  | .s1 => 13
  | .s2 => 14
  | .rc => 15
  | .allocation => 16
  | .cr => 32

/-- The number of bytes of a field. -/
abbrev RawField.width : RawField → Nat
  | .name => 8
  | .extension => 3
  | .allocation => 16
  | .drive | .ex | .s1 | .s2 | .rc | .cr => 1

/-- The block with the bytes of one field overwritten. -/
def setRaw (b : ControlBlock) (field : RawField) (bytes : Vector UInt8 field.width) :
    ControlBlock :=
  match field, bytes with
  | .drive, bytes => { b with drive := bytes.get ⟨0, by decide⟩ }
  | .name, bytes => { b with name := bytes }
  | .extension, bytes => { b with extension := bytes }
  | .ex, bytes => { b with ex := bytes.get ⟨0, by decide⟩ }
  | .s1, bytes => { b with s1 := bytes.get ⟨0, by decide⟩ }
  | .s2, bytes => { b with s2 := bytes.get ⟨0, by decide⟩ }
  | .rc, bytes => { b with rc := bytes.get ⟨0, by decide⟩ }
  | .allocation, bytes => { b with allocation := bytes }
  | .cr, bytes => { b with cr := bytes.get ⟨0, by decide⟩ }

def setDrive (b : ControlBlock) (value : UInt8) : ControlBlock :=
  b.setRaw .drive #v[value]

def setRawName (b : ControlBlock) (bytes : Vector UInt8 8) : ControlBlock :=
  b.setRaw .name bytes

def setRawExtension (b : ControlBlock) (bytes : Vector UInt8 3) : ControlBlock :=
  b.setRaw .extension bytes

def setEx (b : ControlBlock) (value : UInt8) : ControlBlock :=
  b.setRaw .ex #v[value]

def setS1 (b : ControlBlock) (value : UInt8) : ControlBlock :=
  b.setRaw .s1 #v[value]

def setS2 (b : ControlBlock) (value : UInt8) : ControlBlock :=
  b.setRaw .s2 #v[value]

def setRc (b : ControlBlock) (value : UInt8) : ControlBlock :=
  b.setRaw .rc #v[value]

def setAllocation (b : ControlBlock) (bytes : Vector UInt8 16) : ControlBlock :=
  b.setRaw .allocation bytes

def setCr (b : ControlBlock) (value : UInt8) : ControlBlock :=
  b.setRaw .cr #v[value]

/-- The block made ready for a new operation on the same file: drive, name, extension and random
record stay, everything else becomes zero. -/
def rewind (b : ControlBlock) : ControlBlock :=
  (((((b.setEx 0).setS1 0).setS2 0).setRc 0).setCr 0).setAllocation (Vector.replicate 16 0)

/-! ## The bytes in memory -/

/-- The bytes of a block, field after field. -/
def bytes (b : ControlBlock) : List UInt8 :=
  [b.drive] ++ b.name.toList ++ b.extension.toList ++ [b.ex, b.s1, b.s2, b.rc] ++
    b.allocation.toList ++ [b.cr, b.r0, b.r1, b.r2]

@[simp] theorem length_bytes (b : ControlBlock) : b.bytes.length = 36 := by
  simp [bytes]

/-- A block as it lies in memory. -/
def image (b : ControlBlock) : Vector UInt8 36 :=
  ⟨b.bytes.toArray, by simp⟩

/-- The block of any 36 bytes. Every byte is taken as it is. -/
def ofImage (v : Vector UInt8 36) : ControlBlock where
  drive := v[0]
  name := Vector.ofFn fun i : Fin 8 => v[1 + i.val]
  extension := Vector.ofFn fun i : Fin 3 => v[9 + i.val]
  ex := v[12]
  s1 := v[13]
  s2 := v[14]
  rc := v[15]
  allocation := Vector.ofFn fun i : Fin 16 => v[16 + i.val]
  cr := v[32]
  r0 := v[33]
  r1 := v[34]
  r2 := v[35]

/-- Which field the byte at each offset belongs to. -/
theorem getElem?_bytes (b : ControlBlock) (i : Nat) : b.bytes[i]? =
    if i < 1 then some b.drive
    else if i < 9 then b.name[i - 1]?
    else if i < 12 then b.extension[i - 9]?
    else if i < 16 then [b.ex, b.s1, b.s2, b.rc][i - 12]?
    else if i < 32 then b.allocation[i - 16]?
    else [b.cr, b.r0, b.r1, b.r2][i - 32]? := by
  simp only [bytes, List.getElem?_append, List.length_append, List.length_cons, List.length_nil,
    Vector.length_toList, Vector.getElem?_toList]
  grind

theorem getElem?_image (b : ControlBlock) (i : Nat) : b.image[i]? = b.bytes[i]? := by
  simp [image]

theorem toList_of_one_byte (bytes : Vector UInt8 1) : bytes.toList = [bytes.get 0] := by
  obtain ⟨byte, hbyte⟩ := List.length_eq_one_iff.mp bytes.length_toList
  have hget : bytes.toList[0]? = some (bytes.get 0) := by
    simp [Vector.get]
  rw [hbyte] at hget ⊢
  simpa using hget

theorem bytes_setRaw (b : ControlBlock) (field : RawField) (bytes : Vector UInt8 field.width) :
    (b.setRaw field bytes).bytes =
      b.bytes.take field.offset ++ bytes.toList ++ b.bytes.drop (field.offset + field.width) := by
  cases field with
  | name | extension | allocation =>
      simp [setRaw, ControlBlock.bytes, RawField.offset, RawField.width, List.drop_append,
        List.take_append, List.take_of_length_le, List.drop_of_length_le]
  | _ =>
      simp [setRaw, ControlBlock.bytes, RawField.offset, List.drop_append, List.take_append,
        List.take_of_length_le, List.drop_of_length_le, toList_of_one_byte]

theorem RawField.offset_add_width_le (field : RawField) : field.offset + field.width ≤ 36 := by
  cases field <;> decide

/-- A byte of a block after one field was overwritten: the new byte within the field, the old one
everywhere else. -/
theorem getElem?_image_setRaw (b : ControlBlock) (field : RawField)
    (bytes : Vector UInt8 field.width) (i : Nat) :
    (b.setRaw field bytes).image[i]? =
      if field.offset ≤ i ∧ i < field.offset + field.width then bytes[i - field.offset]?
      else b.image[i]? := by
  have hend := field.offset_add_width_le
  have hfront : (b.bytes.take field.offset).length = field.offset := by
    rw [List.length_take, length_bytes]
    omega
  rw [getElem?_image, getElem?_image, bytes_setRaw, ← Vector.getElem?_toList, List.append_assoc,
    List.getElem?_append, List.getElem?_append, hfront, Vector.length_toList, List.getElem?_drop]
  by_cases hbefore : i < field.offset
  · simp [hbefore, Nat.not_le.mpr hbefore]
  by_cases hwithin : i < field.offset + field.width
  · have hplace : i - field.offset < field.width := by omega
    simp [hbefore, hwithin, hplace, Nat.not_lt.mp hbefore]
  · have hplace : ¬i - field.offset < field.width := by omega
    have hback : field.offset + field.width + (i - field.offset - field.width) = i := by omega
    simp [hbefore, hwithin, hplace, hback]

theorem image_ofImage (v : Vector UInt8 36) : (ofImage v).image = v := by
  apply Vector.ext
  intro i hi
  have h : (ofImage v).image[i]? = v[i]? := by
    rw [getElem?_image, getElem?_bytes]
    repeat' split
    · obtain rfl : i = 0 := by omega
      simp [ofImage]
    · have h : 1 + (i - 1) = i ∧ i - 1 < 8 := by omega
      simp [ofImage, h, hi]
    · have h : 9 + (i - 9) = i ∧ i - 9 < 3 := by omega
      simp [ofImage, h, hi]
    · obtain rfl | rfl | rfl | rfl : i = 12 ∨ i = 13 ∨ i = 14 ∨ i = 15 := by omega
      all_goals simp [ofImage]
    · have h : 16 + (i - 16) = i ∧ i - 16 < 16 := by omega
      simp [ofImage, h, hi]
    · obtain rfl | rfl | rfl | rfl : i = 32 ∨ i = 33 ∨ i = 34 ∨ i = 35 := by omega
      all_goals simp [ofImage]
  simpa [hi] using h

theorem ofImage_image (b : ControlBlock) : ofImage b.image = b := by
  have key : ∀ (i : Nat) (hi : i < 36), some b.image[i] = _ := fun i hi =>
    (Vector.getElem?_eq_getElem hi).symm.trans ((getElem?_image b i).trans (getElem?_bytes b i))
  apply ControlBlock.ext
  case drive => simpa [ofImage] using key 0 (by omega)
  case name =>
    apply Vector.ext
    intro i hi
    have h : ¬1 + i < 1 ∧ 1 + i < 9 ∧ 1 + i - 1 = i := by omega
    simpa [ofImage, h, hi] using key (1 + i) (by omega)
  case extension =>
    apply Vector.ext
    intro i hi
    have h : ¬9 + i < 1 ∧ ¬9 + i < 9 ∧ 9 + i < 12 ∧ 9 + i - 9 = i := by omega
    simpa [ofImage, h, hi] using key (9 + i) (by omega)
  case ex => simpa [ofImage] using key 12 (by omega)
  case s1 => simpa [ofImage] using key 13 (by omega)
  case s2 => simpa [ofImage] using key 14 (by omega)
  case rc => simpa [ofImage] using key 15 (by omega)
  case allocation =>
    apply Vector.ext
    intro i hi
    have h : ¬16 + i < 1 ∧ ¬16 + i < 9 ∧ ¬16 + i < 12 ∧ ¬16 + i < 16 ∧ 16 + i < 32 ∧
        16 + i - 16 = i := by
      omega
    simpa [ofImage, h, hi] using key (16 + i) (by omega)
  case cr => simpa [ofImage] using key 32 (by omega)
  case r0 => simpa [ofImage] using key 33 (by omega)
  case r1 => simpa [ofImage] using key 34 (by omega)
  case r2 => simpa [ofImage] using key 35 (by omega)

/-! ## Memory windows -/

inductive LengthFault where
  | wrongLength
  deriving DecidableEq, Repr

def LengthFault.message : LengthFault → String
  | .wrongLength => "could not convert slice to array"

/-- The bytes of a window that is exactly as long as a block. -/
def exactly (window : List UInt8) : Except LengthFault (Vector UInt8 36) :=
  if h : window.length = 36 then
    .ok ⟨window.toArray, by simp [h]⟩
  else
    .error .wrongLength

/-- The block that a window holds, when the window is exactly as long as a block. -/
def ofWindow (window : List UInt8) : Except LengthFault ControlBlock :=
  (exactly window).map ofImage

/-- Copies a block to the start of a window: the outcome, and the window afterwards. The first bytes
of the window are taken, at most as many as a block has, and overwritten when there are exactly so
many. Otherwise the window is left alone. -/
def writeTo (b : ControlBlock) (window : List UInt8) : Except LengthFault Unit × List UInt8 :=
  let taken := min window.length size
  match exactly (window.take taken) with
  | .ok _ => (.ok (), b.image.toList ++ window.drop taken)
  | .error fault => (.error fault, window)

end ControlBlock

end GuestFiles
