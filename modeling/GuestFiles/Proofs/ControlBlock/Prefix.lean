import GuestFiles.Proofs.ControlBlock.Wildcard
import GuestFiles.Proofs.Drive.Letter

/-! # The drive of a typed name

A typed name asks for a drive by a colon in the second place. The parser looks for it among the
bytes of the name in upper case, where it stands in the second place only if it does so among the
characters as they are typed. -/

namespace GuestFiles

namespace Text

/-! ## The second place -/

theorem caseExpansions_ne_nil : ∀ e ∈ caseExpansions, e.2 ≠ [] := by
  decide +kernel

theorem upperCodes_ne_nil (code : Nat) : upperCodes code ≠ [] := by
  cases hlookup : caseExpansions.lookup code with
  | some codes =>
      obtain ⟨front, rest, heq, -⟩ := List.lookup_eq_some_iff.mp hlookup
      have hne := caseExpansions_ne_nil (code, codes) (by simp [heq])
      simpa [upperCodes, hlookup] using hne
  | none => simp [upperCodes, hlookup]

theorem upperChar_ne_nil (c : Char) : upperChar c ≠ [] := by
  by_cases h : c.toNat < 0x80
  · simp [upperChar_of_ascii h]
  · simp [upperChar, h, upperCodes_ne_nil]

section FlatMap

variable {α β : Type} {f : α → List β} {a : α} {b : β} {l : List α}

theorem head?_of_flatMap (hne : ∀ c, f c ≠ []) (hmem : ∀ c, b ∈ f c → c = a)
    (h : (l.flatMap f)[0]? = some b) : l[0]? = some a := by
  cases l with
  | nil => simp at h
  | cons c rest =>
      obtain ⟨x, more, hc⟩ := List.exists_cons_of_ne_nil (hne c)
      have hx : x = b := by simpa [hc] using h
      rw [hmem c (by simp [hc, hx])]
      rfl

/-- Where no piece is empty, and `b` comes as the whole piece of `a` only, a `b` in the second place
comes from an `a` in the second place. -/
theorem second_of_flatMap (hne : ∀ c, f c ≠ []) (hmem : ∀ c, b ∈ f c → c = a) (ha : f a = [b])
    (h : (l.flatMap f)[1]? = some b) : l[1]? = some a := by
  cases l with
  | nil => simp at h
  | cons c rest =>
      obtain ⟨x, more, hc⟩ := List.exists_cons_of_ne_nil (hne c)
      cases more with
      | nil =>
          have hrest : (rest.flatMap f)[0]? = some b := by simpa [hc] using h
          simpa using head?_of_flatMap hne hmem hrest
      | cons y more =>
          -- a piece of two that holds `b` would be that of `a`, which is `b` alone
          have hy : y = b := by simpa [hc] using h
          have hca : c = a := hmem c (by simp [hc, hy])
          rw [hca, ha] at hc
          simp at hc

end FlatMap

/-- Where the second byte of a text in upper case is a colon, so is its second character. -/
theorem upper_colon_of_second_byte {text : String}
    (h : (bytes (upper text))[1]? = some ControlBlock.colonByte) :
    (upper text).toList[1]? = some ':' := by
  have hascii : ':'.toNat < 0x80 := ControlBlock.isMark_colon.ascii
  have hencoded : String.utf8EncodeChar ':' = [ControlBlock.colonByte] :=
    utf8EncodeChar_of_ascii hascii
  exact second_of_flatMap utf8EncodeChar_ne_nil (fun c => (mem_utf8EncodeChar_iff hascii).mp)
    hencoded h

theorem upperChar_colon : upperChar ':' = [':'] :=
  upperChar_of_ascii ControlBlock.isMark_colon.ascii

theorem colon_of_second_byte {text : String}
    (h : (bytes (upper text))[1]? = some ControlBlock.colonByte) : text.toList[1]? = some ':' := by
  have hupper := upper_colon_of_second_byte h
  rw [toList_upper] at hupper
  exact second_of_flatMap upperChar_ne_nil
    (fun c => (mem_upperChar_iff ControlBlock.isMark_colon).mp) upperChar_colon hupper

end Text

/-! ## The drive byte -/

namespace ControlBlock

theorem drive_parse (text : String) :
    (parse text).drive = (splitDrive (Text.bytes (Text.upper text))).1 := by
  rw [parse, retype_eq]

/-- Without a colon in the second place, no drive is asked for. -/
theorem drive_parse_of_ne {text : String} (h : text.toList[1]? ≠ some ':') :
    (parse text).drive = 0 := by
  rw [drive_parse, splitDrive_of_ne (mt Text.colon_of_second_byte h)]

/-- The letter of a drive in front of a colon, in either case, asks for the number of the drive. -/
theorem drive_parse_of_toUpper_eq {text : String} {letter : Char} {rest : List Char}
    (htext : text.toList = letter :: ':' :: rest) {drive : Drive}
    (h : letter.toUpper = drive.letter) : (parse text).drive = drive.val.toUInt8 := by
  have hascii : letter.toNat < 0x80 :=
    Drive.ascii_of_named ((Drive.named_iff_exists letter).mpr ⟨drive, h⟩)
  have hbytes : Text.bytes (Text.upper text) =
      drive.letter.toNat.toUInt8 :: colonByte :: Text.bytes (Text.upper (String.ofList rest)) := by
    rw [← String.ofList_toList (s := text), htext, Text.bytes_upper_cons_of_ascii hascii, h,
      Text.bytes_upper_cons_of_ascii isMark_colon.ascii]
    rfl
  have hbyte : ∀ drive : Drive, 0x41 ≤ drive.letter.toNat.toUInt8 ∧
      drive.letter.toNat.toUInt8 ≤ 0x5A ∧
      drive.letter.toNat.toUInt8 - 0x41 = drive.val.toUInt8 := by
    decide
  obtain ⟨hlow, hhigh, hdiff⟩ := hbyte drive
  rw [drive_parse, hbytes, splitDrive, if_pos rfl, if_pos ⟨hlow, hhigh⟩, hdiff]

end ControlBlock

end GuestFiles
