import GuestFiles.Drive.Letter
import GuestFiles.Proofs.Text.Uppercase

/-! # Letters that name drives

A character names a drive when it is an ASCII letter from A to P in either case, that is, when in
upper case it is the letter of the drive. -/

namespace GuestFiles.Drive

/-- An ASCII letter from A to P, in either case. -/
def Named (letter : Char) : Prop :=
  'A' ≤ letter ∧ letter ≤ 'P' ∨ 'a' ≤ letter ∧ letter ≤ 'p'

instance : DecidablePred Named := fun letter =>
  inferInstanceAs (Decidable ('A' ≤ letter ∧ letter ≤ 'P' ∨ 'a' ≤ letter ∧ letter ≤ 'p'))

/-! ## Upper case -/

theorem ascii_of_le {c d : Char} (h : c ≤ d) (hd : d.toNat < 0x80) : c.toNat < 0x80 :=
  Nat.lt_of_le_of_lt h hd

theorem toUpper_of_not_ascii {c : Char} (h : ¬c.toNat < 0x80) : c.toUpper = c :=
  dif_neg fun hlower => h (ascii_of_le (d := 'z') hlower.2 (by decide))

theorem ascii_of_named {letter : Char} (h : Named letter) : letter.toNat < 0x80 := by
  rcases h with ⟨-, h⟩ | ⟨-, h⟩
  · exact ascii_of_le h (by decide)
  · exact ascii_of_le h (by decide)

theorem named_iff_toUpper (letter : Char) :
    Named letter ↔ 'A' ≤ letter.toUpper ∧ letter.toUpper ≤ 'P' := by
  have hall : ∀ n < 0x80, Named (Char.ofNat n) ↔
      'A' ≤ (Char.ofNat n).toUpper ∧ (Char.ofNat n).toUpper ≤ 'P' := by
    decide
  by_cases hascii : letter.toNat < 0x80
  · have h := hall letter.toNat hascii
    rwa [Char.ofNat_toNat] at h
  · rw [toUpper_of_not_ascii hascii]
    constructor
    · exact fun h => absurd (ascii_of_named h) hascii
    · exact fun h => absurd (ascii_of_le h.2 (by decide)) hascii

/-- A letter that names a drive is the one in upper case or the one in lower case. -/
theorem cases_of_named {letter : Char} (h : Named letter) :
    letter.toUpper ≤ letter ∧ letter.toLower = letter.toUpper.toLower ∧
      (letter = letter.toUpper ∨ letter = letter.toLower) := by
  have hall : ∀ n < 0x80, Named (Char.ofNat n) → (Char.ofNat n).toUpper ≤ Char.ofNat n ∧
      (Char.ofNat n).toLower = (Char.ofNat n).toUpper.toLower ∧
      (Char.ofNat n = (Char.ofNat n).toUpper ∨ Char.ofNat n = (Char.ofNat n).toLower) := by
    decide
  have hletter := hall letter.toNat (ascii_of_named h)
  rw [Char.ofNat_toNat] at hletter
  exact hletter h

/-! ## Drives and their letters -/

theorem toNat_letter (drive : Drive) : drive.letter.toNat = 0x41 + drive.val := by
  revert drive
  decide

@[simp] theorem toUpper_letter (drive : Drive) : drive.letter.toUpper = drive.letter := by
  revert drive
  decide

theorem letter_range (drive : Drive) : 'A' ≤ drive.letter ∧ drive.letter ≤ 'P' := by
  revert drive
  decide

theorem letter_inj {a b : Drive} : a.letter = b.letter ↔ a = b := by
  constructor
  · intro h
    have hnat := congrArg Char.toNat h
    rw [toNat_letter, toNat_letter] at hnat
    exact Fin.ext (Nat.add_left_cancel hnat)
  · exact congrArg letter

theorem named_iff_exists (letter : Char) :
    Named letter ↔ ∃ drive : Drive, letter.toUpper = drive.letter := by
  rw [named_iff_toUpper]
  constructor
  · rintro ⟨hlow, hhigh⟩
    have hlow : 0x41 ≤ letter.toUpper.toNat := hlow
    have hhigh : letter.toUpper.toNat ≤ 0x50 := hhigh
    refine ⟨⟨letter.toUpper.toNat - 0x41, by omega⟩, ?_⟩
    rw [Drive.letter, Nat.add_sub_cancel' hlow, Char.ofNat_toNat]
  · rintro ⟨drive, h⟩
    rw [h]
    exact drive.letter_range

/-- In upper case, the letter of a drive is found. -/
theorem ofLetter_of_toUpper_eq {letter : Char} {drive : Drive} (h : letter.toUpper = drive.letter) :
    ofLetter letter = .ok drive := by
  have hdrive : (⟨letter.toUpper.toNat - 0x41, by
      rw [h, toNat_letter]
      omega⟩ : Drive) = drive := by
    apply Fin.ext
    simp only [h, toNat_letter]
    omega
  have hsome : ofLetter? letter = some drive := by
    rw [ofLetter?, dif_pos (h ▸ drive.letter_range), hdrive]
  rw [ofLetter, hsome]

theorem ofLetter_of_not_named {letter : Char} (h : ¬Named letter) :
    ofLetter letter = .error (.invalidDrive letter) := by
  rw [named_iff_toUpper] at h
  rw [ofLetter, ofLetter?, dif_neg h]

end GuestFiles.Drive
