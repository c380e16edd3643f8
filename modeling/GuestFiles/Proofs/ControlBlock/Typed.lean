import GuestFiles.Proofs.ControlBlock.Wildcard

/-! # The bytes of a typed name

A typed name says each byte of its block: the drive by the letter in front of a colon, each position
of a field by the byte that is typed there or the star before it, and zeros for the rest. What the
block held before makes no difference. -/

namespace GuestFiles.ControlBlock

/-! ## Fields by position -/

/-- The byte at a position of a field that is typed as `segment`: a question mark from the first
star on, a space behind the last byte, and else the byte that is typed there. -/
def typedByte (segment : List UInt8) (i : Nat) : UInt8 :=
  if starByte ∈ segment.take (i + 1) then anyByte else segment.getD i space

theorem typedByte_nil (i : Nat) : typedByte [] i = space := by
  simp [typedByte]

theorem typedByte_star (rest : List UInt8) (i : Nat) :
    typedByte (starByte :: rest) i = anyByte := by
  simp [typedByte]

theorem typedByte_zero {b : UInt8} (h : b ≠ starByte) (rest : List UInt8) :
    typedByte (b :: rest) 0 = b := by
  simp [typedByte, h.symm]

theorem typedByte_succ {b : UInt8} (h : b ≠ starByte) (rest : List UInt8) (i : Nat) :
    typedByte (b :: rest) (i + 1) = typedByte rest i := by
  simp [typedByte, h.symm]

theorem fill_eq_map_typedByte (width : Nat) (segment : List UInt8) :
    fill width segment = (List.range width).map (typedByte segment) := by
  induction width generalizing segment with
  | zero => rfl
  | succ width ih =>
      rw [List.range_succ_eq_map, List.map_cons, List.map_map]
      cases segment with
      | nil =>
          rw [fill, ih, typedByte_nil]
          exact congrArg (space :: ·) (List.map_congr_left fun i _ => by simp [typedByte_nil])
      | cons b rest =>
          by_cases hstar : b = starByte
          · subst hstar
            have hany : typedByte (starByte :: rest) ∘ Nat.succ = fun _ => anyByte :=
              funext fun i => typedByte_star rest (i + 1)
            rw [fill, if_pos rfl, typedByte_star, hany, List.map_const', List.length_range,
              List.replicate_succ]
          · have hrest : typedByte (b :: rest) ∘ Nat.succ = typedByte rest :=
              funext fun i => typedByte_succ hstar rest i
            rw [fill, if_neg hstar, ih, typedByte_zero hstar, hrest]

/-! ## The drive by position -/

/-- The drive byte that a typed name asks for by its first two bytes. -/
def typedDrive (typed : List UInt8) : UInt8 :=
  if typed[1]? = some colonByte ∧ 0x41 ≤ typed.headD 0 ∧ typed.headD 0 ≤ 0x5A then
    typed.headD 0 - 0x41
  else
    0

/-- What is left of a typed name behind its drive. -/
def typedRest (typed : List UInt8) : List UInt8 :=
  if typed[1]? = some colonByte then typed.drop 2 else typed

theorem splitDrive_eq (typed : List UInt8) :
    splitDrive typed = (typedDrive typed, typedRest typed) := by
  by_cases h : typed[1]? = some colonByte
  · match typed, h with
    | letter :: colon :: rest, h =>
      obtain rfl : colon = colonByte := by simpa using h
      simp [splitDrive, typedDrive, typedRest]
  · simp [splitDrive_of_ne h, typedDrive, typedRest, h]

/-! ## The image -/

/-- The 36 bytes that a typed name asks for, given its bytes in upper case. -/
def typedImage (typed : List UInt8) : List UInt8 :=
  let rest := typedRest typed
  let dot := rest.idxOf dotByte
  [typedDrive typed] ++ (List.range 8).map (typedByte (rest.take dot)) ++
    (List.range 3).map (typedByte (rest.drop (dot + 1))) ++ List.replicate 24 0

/-- Typing a name into any block makes the block of the typed name, and this has the bytes that the
name asks for. -/
theorem image_retype (b : ControlBlock) (text : String) :
    b.retype text = parse text ∧
      (b.retype text).image.toList = typedImage (Text.bytes (Text.upper text)) := by
  refine ⟨rfl, ?_⟩
  have himage : (b.retype text).image.toList = (b.retype text).bytes := rfl
  rw [himage]
  simp only [retype_eq, splitDrive_eq, Text.splitFirst_eq_take_drop, bytes, toList_field,
    fill_eq_map_typedByte, typedImage, List.append_assoc]
  rfl

end GuestFiles.ControlBlock
