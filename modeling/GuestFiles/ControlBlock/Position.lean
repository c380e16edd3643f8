import GuestFiles.ControlBlock.Basic

/-! # Positions in a file

A block holds two positions that do not affect each other: the sequential one, as a byte offset
split over S2, EX and CR, and the random one, as a record number of 24 bits. -/

namespace GuestFiles.ControlBlock

abbrev recordSize : UInt32 := 128

/-- The number of bytes that one step of EX covers. -/
abbrev extentSize : UInt32 := 16384

/-- The number of bytes that one step of S2 covers. -/
abbrev extentGroupSize : UInt32 := 524288

/-- The bits of S2 that belong to the position. -/
abbrev groupMask : UInt8 := 0x7F

/-! ## The sequential position -/

/-- S2 without the mark of a modified file. -/
def group (b : ControlBlock) : UInt8 :=
  b.s2 &&& groupMask

def offset (b : ControlBlock) : UInt32 :=
  b.group.toUInt32 * extentGroupSize + b.ex.toUInt32 * extentSize + b.cr.toUInt32 * recordSize

/-- Moves the sequential position to a byte offset. Offsets wrap after the last group, a remainder
within a record is dropped, and the mark of a modified file is cleared. -/
def seek (b : ControlBlock) (offset : UInt32) : ControlBlock :=
  let s2 := (offset / extentGroupSize).toUInt8 &&& groupMask
  let ex := (offset % extentGroupSize / extentSize).toUInt8
  let cr := (offset % extentSize / recordSize).toUInt8
  ((b.setS2 s2).setEx ex).setCr cr

/-- A move writes S2, EX and CR, and nothing else. -/
theorem seek_eq (b : ControlBlock) (offset : UInt32) :
    b.seek offset =
      { b with
        s2 := (offset / extentGroupSize).toUInt8 &&& groupMask
        ex := (offset % extentGroupSize / extentSize).toUInt8
        cr := (offset % extentSize / recordSize).toUInt8 } := rfl

/-- Moves the sequential position forward by one record. -/
def advance (b : ControlBlock) : ControlBlock :=
  b.seek (b.offset + recordSize)

def record (b : ControlBlock) : UInt32 :=
  b.offset / recordSize

def seekRecord (b : ControlBlock) (n : UInt32) : ControlBlock :=
  b.seek (n * recordSize)

/-! ## The random position -/

def random (b : ControlBlock) : UInt32 :=
  b.r0.toUInt32 + b.r1.toUInt32 * 0x100 + b.r2.toUInt32 * 0x10000

/-- Sets the random record number. Bits above the 24 that are held are dropped. -/
def setRandom (b : ControlBlock) (n : UInt32) : ControlBlock :=
  { b with
    r0 := n.toUInt8
    r1 := (n >>> 8).toUInt8
    r2 := (n >>> 16).toUInt8 }

end GuestFiles.ControlBlock
