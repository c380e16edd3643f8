import GuestFiles.Proofs.Drive.Run
import GuestFiles.Proofs.Drive.Typed
import GuestFiles.Proofs.Search.Entry

/-! # Two readings of a drive letter

The parser reads the letter of a drive off the name in upper case, a search by the typed name off
the name as it is typed. A letter outside ASCII can be an ASCII letter in upper case: there are two,
the long s, which is past the last drive in both readings, and the dotless i, which names drive I
in the first reading and no drive in the second. -/

namespace GuestFiles

namespace Text

/-! ## ASCII letters that come from outside ASCII -/

theorem caseExpansions_length : ∀ e ∈ caseExpansions, e.2.length ≠ 1 := by
  decide +kernel

theorem caseRuns_to_ascii : ∀ r ∈ caseRuns, r.target < 0x80 →
    r.last < 0x80 ∨ r.first = 0x131 ∧ r.last = 0x131 ∨ r.first = 0x17F ∧ r.last = 0x17F := by
  decide +kernel

theorem eq_of_upperCodes_eq_ascii {code t : Nat} (hcode : ¬code < 0x80)
    (h : upperCodes code = [t]) (ht : t < 0x80) : code = 0x131 ∨ code = 0x17F := by
  cases hlookup : caseExpansions.lookup code with
  | some codes =>
      obtain ⟨front, rest, heq, -⟩ := List.lookup_eq_some_iff.mp hlookup
      have hlength := caseExpansions_length (code, codes) (by simp [heq])
      have hcodes : codes = [t] := by simpa [upperCodes, hlookup] using h
      exact absurd (by rw [hcodes]; rfl) hlength
  | none =>
      cases hrun : caseRuns.findSome? (·.map? code) with
      | some u =>
          have hu : u = t := by simpa [upperCodes, hlookup, hrun] using h
          obtain ⟨r, hr, hmap⟩ := List.exists_of_findSome?_eq_some hrun
          obtain ⟨⟨hfirst, hlast, -⟩, htarget⟩ := CaseRun.map?_eq_some_iff.mp hmap
          have hrange := caseRuns_to_ascii r hr (by omega)
          omega
      | none =>
          have hsame : code = t := by simpa [upperCodes, hlookup, hrun] using h
          exact absurd (hsame ▸ ht) hcode

/-- Two characters outside ASCII are one ASCII character in upper case. -/
theorem eq_of_upperChar_eq_ascii {c d : Char} (hc : ¬c.toNat < 0x80) (h : upperChar c = [d])
    (hd : d.toNat < 0x80) : c = 'ı' ∨ c = 'ſ' := by
  rw [upperChar, if_neg hc, List.map_eq_singleton_iff] at h
  obtain ⟨t, ht, rfl⟩ := h
  have hlow : t < 0x80 := by
    rcases mem_upperCodes_range (ht ▸ List.mem_singleton_self t) with rfl | hcap | ⟨hlow, hvalid⟩
    · rw [Char.ofNat_toNat] at hd
      exact absurd hd hc
    · omega
    · rwa [toNat_ofNat_of_valid hvalid] at hd
  rcases eq_of_upperCodes_eq_ascii hc ht hlow with hcode | hcode
  · exact .inl (Char.toNat_inj.mp hcode)
  · exact .inr (Char.toNat_inj.mp hcode)

theorem upperChar_dotless : upperChar 'ı' = ['I'] := by
  decide +kernel

theorem upperChar_long_s : upperChar 'ſ' = ['S'] := by
  decide +kernel

/-- Up to the letter of the last drive, only the dotless i comes from outside ASCII. -/
theorem eq_dotless_of_upperChar {c d : Char} (hc : ¬c.toNat < 0x80) (h : upperChar c = [d])
    (hd : d.toNat ≤ 0x50) : c = 'ı' := by
  have hascii : d.toNat < 0x80 := by omega
  rcases eq_of_upperChar_eq_ascii hc h hascii with heq | rfl
  · exact heq
  · rw [upperChar_long_s, List.singleton_inj] at h
    subst h
    exact absurd hd (by decide)

theorem ne_dotless_of_upperChar {c d : Char} (h : upperChar c = [d]) (hd : 0x50 < d.toNat) :
    c ≠ 'ı' := by
  rintro rfl
  rw [upperChar_dotless, List.singleton_inj] at h
  subst h
  exact absurd hd (by decide)

/-! ## The letter in front of a colon -/

/-- Where the second byte in upper case is a colon, the text begins with a letter and a colon, and
the letter is one letter in upper case. -/
theorem exists_letter_of_second_byte {text : String}
    (h : (bytes (upper text))[1]? = some ControlBlock.colonByte) :
    ∃ letter rest read, text.toList = letter :: ':' :: rest ∧ upperChar letter = [read] := by
  have hupper := upper_colon_of_second_byte h
  obtain ⟨letter, rest, htext⟩ : ∃ letter rest, text.toList = letter :: ':' :: rest := by
    have hcolon := colon_of_second_byte h
    match htext : text.toList with
    | [] => simp [htext] at hcolon
    | [_] => simp [htext] at hcolon
    | letter :: colon :: rest =>
      have heq : colon = ':' := by simpa [htext] using hcolon
      exact ⟨letter, rest, by rw [heq]⟩
  obtain ⟨read, more, hletter⟩ := List.exists_cons_of_ne_nil (upperChar_ne_nil letter)
  cases more with
  | nil => exact ⟨letter, rest, read, htext, hletter⟩
  | cons d more =>
      -- of a letter that is two characters in upper case, the second would be the colon
      have hd : d = ':' := by
        simpa [htext, hletter] using hupper
      have hcolon : letter = ':' := by
        apply (mem_upperChar_iff ControlBlock.isMark_colon).mp
        simp [hletter, hd]
      rw [hcolon, upperChar_colon] at hletter
      simp at hletter

end Text

namespace Drive

theorem not_named_of_upperChar {letter read : Char} (h : Text.upperChar letter = [read])
    (hread : 0x50 < read.toNat) : ¬Named letter := by
  intro hnamed
  rw [Text.upperChar_of_ascii (ascii_of_named hnamed), List.singleton_inj] at h
  have hle : letter.toUpper.toNat ≤ 0x50 := ((named_iff_toUpper letter).mp hnamed).2
  rw [h] at hle
  exact absurd hread (Nat.not_lt.mpr hle)

/-- Behind A and up to P, a letter is that of a drive that is not A. -/
theorem exists_of_range {read : Char} (hlow : 0x41 < read.toNat) (hhigh : read.toNat ≤ 0x50) :
    ∃ drive : Drive, drive ≠ 0 ∧ drive.letter = read ∧ drive.val = read.toNat - 0x41 := by
  refine ⟨⟨read.toNat - 0x41, by omega⟩, ?_, ?_, rfl⟩
  · intro hzero
    have hval := congrArg Fin.val hzero
    simp only [Fin.val_zero] at hval
    omega
  · rw [letter, Nat.add_sub_cancel' (Nat.le_of_lt hlow), Char.ofNat_toNat]

end Drive

/-! ## The reading of the parser -/

namespace ControlBlock

/-- A nonzero drive byte counts from A to the first byte, which is a capital letter. -/
theorem exists_first_of_splitDrive_ne_zero {typed : List UInt8} (h : (splitDrive typed).1 ≠ 0) :
    ∃ first, typed[0]? = some first ∧ 0x41 < first ∧ first ≤ 0x5A ∧
      (splitDrive typed).1 = first - 0x41 := by
  match typed with
  | [] => exact absurd rfl h
  | [_] => exact absurd rfl h
  | first :: second :: rest =>
    by_cases hcolon : second = colonByte
    · by_cases hletter : 0x41 ≤ first ∧ first ≤ 0x5A
      · have hdrive : (splitDrive (first :: second :: rest)).1 = first - 0x41 := by
          simp [splitDrive, hcolon, hletter]
        have hne : first ≠ 0x41 := by
          rintro rfl
          exact h hdrive
        have hlt : 0x41 < first := UInt8.lt_of_le_of_ne hletter.1 hne.symm
        exact ⟨first, rfl, hlt, hletter.2, hdrive⟩
      · exact absurd (by simp [splitDrive, hcolon, hletter]) h
    · exact absurd (by simp [splitDrive, hcolon]) h

/-- A character whose first byte is a capital letter behind A is that letter. -/
theorem range_of_first_byte {read : Char} {more : List UInt8} {first : UInt8}
    (h : (String.utf8EncodeChar read ++ more)[0]? = some first) (hlow : 0x41 < first)
    (hhigh : first ≤ 0x5A) :
    0x41 < read.toNat ∧ read.toNat ≤ 0x5A ∧ first - 0x41 = (read.toNat - 0x41).toUInt8 := by
  by_cases hread : read.toNat < 0x80
  · have hall : ∀ n < 0x80, 0x41 < n.toUInt8 → n.toUInt8 ≤ 0x5A →
        0x41 < n ∧ n ≤ 0x5A ∧ n.toUInt8 - 0x41 = (n - 0x41).toUInt8 := by
      decide
    obtain rfl : read.toNat.toUInt8 = first := by
      simpa [Text.utf8EncodeChar_of_ascii hread] using h
    exact hall read.toNat hread hlow hhigh
  · obtain ⟨lead, others, hencoded, hlead, -⟩ := Text.utf8EncodeChar_of_not_ascii hread
    obtain rfl : lead = first := by simpa [hencoded] using h
    exact absurd (UInt8.le_trans hlead hhigh) (by decide)

/-- A typed name with a nonzero drive byte begins with a letter and a colon, and the byte counts
from A to that letter in upper case. -/
theorem exists_letter_of_drive_ne_zero {text : String} (h : (parse text).drive ≠ 0) :
    ∃ letter rest read, text.toList = letter :: ':' :: rest ∧ Text.upperChar letter = [read] ∧
      0x41 < read.toNat ∧ read.toNat ≤ 0x5A ∧
      (parse text).drive = (read.toNat - 0x41).toUInt8 := by
  rw [drive_parse] at h ⊢
  have hsecond : (Text.bytes (Text.upper text))[1]? = some colonByte := by
    by_contra hne
    rw [splitDrive_of_ne hne] at h
    exact h rfl
  obtain ⟨letter, rest, read, htext, hletter⟩ := Text.exists_letter_of_second_byte hsecond
  obtain ⟨first, hfirst, hlow, hhigh, hdrive⟩ := exists_first_of_splitDrive_ne_zero h
  have hbytes : Text.bytes (Text.upper text) =
      String.utf8EncodeChar read ++ Text.bytes (Text.upper (String.ofList (':' :: rest))) := by
    simp [Text.bytes, htext, hletter]
  rw [hbytes] at hfirst
  rw [hdrive]
  exact ⟨letter, rest, read, htext, hletter, range_of_first_byte hfirst hlow hhigh⟩

end ControlBlock

namespace DriveMap

open Host

variable (map : DriveMap) (host : Host)

/-! ## Outcomes of the two searches -/

/-- The two searches give the same hits or fail in the same way, or both refuse the letter, one as
it is typed and one in upper case. -/
inductive SameOutcome : Except Failure (List Hit) → Except Failure (List Hit) → Prop where
  | same (outcome : Except Failure (List Hit)) : SameOutcome outcome outcome
  | refused {letter read : Char} (h : Text.upperChar letter = [read]) :
      SameOutcome (.error (.invalidDrive letter)) (.error (.invalidDrive read))

/-- The block of a letter past the last drive is refused with that letter. -/
theorem find_of_past {pattern : ControlBlock} {read : Char}
    (h : pattern.drive = (read.toNat - 0x41).toUInt8) (hlow : 0x50 < read.toNat)
    (hhigh : read.toNat ≤ 0x5A) :
    map.find host pattern = pure (.error (.invalidDrive read)) := by
  have hnat : pattern.drive.toNat = read.toNat - 0x41 := by
    rw [h, Nat.toUInt8_eq, UInt8.toNat_ofNat']
    omega
  have hne : pattern.drive ≠ 0 := by
    intro hzero
    rw [hzero, UInt8.toNat_zero] at hnat
    omega
  have hletter : map.letterFor pattern = .error (.invalidDrive read) := by
    have hpast : ¬pattern.drive.toNat < 16 := by omega
    have hread : 0x41 + pattern.drive.toNat = read.toNat := by omega
    rw [letterFor, if_neg hne, Drive.letterOf, dif_neg hpast, hread, Char.ofNat_toNat]
  simp only [find, hletter]

/-- A search on a drive is not refused. -/
theorem findOn_letter_ne (drive : Drive) (pattern : ControlBlock) (letter : Char) :
    (map.findOn host drive.letter pattern).value ≠ .error (.invalidDrive letter) := by
  intro h
  cases hroot : map.rootOf? drive with
  | none =>
      have hnone := map.root_of_toUpper_eq drive.toUpper_letter
      rw [hroot] at hnone
      simp [findOn, hnone] at h
  | some root =>
      have hsome := map.root_of_toUpper_eq drive.toUpper_letter
      rw [hroot] at hsome
      have hsearch : (search pattern root host).value = .error (.invalidDrive letter) := by
        simpa [findOn, hsome] using h
      obtain ⟨path, depth, fault, heq⟩ := traversal_of_search hsearch
      cases heq

theorem not_sameOutcome_findOn (letter : Char) (drive : Drive) (pattern : ControlBlock) :
    ¬SameOutcome (.error (.invalidDrive letter))
      (map.findOn host drive.letter pattern).value := by
  intro hsame
  generalize houtcome : (map.findOn host drive.letter pattern).value = outcome at hsame
  cases hsame with
  | same => exact map.findOn_letter_ne host drive pattern letter houtcome
  | refused => exact map.findOn_letter_ne host drive pattern _ houtcome

/-- Where the block of a typed name asks for a drive by its number, the search by the name and the
search by the block have the same outcome unless the name begins with a dotless i: that is drive I
for its block, and no drive for the name. -/
theorem findTyped_sameOutcome_iff {text : String} (h : (ControlBlock.parse text).drive ≠ 0) :
    SameOutcome (map.findTyped host text).value (map.find host (.parse text)).value ↔
      text.toList.head? ≠ some 'ı' := by
  obtain ⟨letter, rest, read, htext, hletter, hlow, hhigh, hbyte⟩ :=
    ControlBlock.exists_letter_of_drive_ne_zero h
  have hhead : text.toList.head? ≠ some 'ı' ↔ letter ≠ 'ı' := by
    simp [htext]
  rw [hhead]
  by_cases hpast : 0x50 < read.toNat
  · -- no drive for either of the two
    have hnamed := Drive.not_named_of_upperChar hletter hpast
    rw [map.findTyped_of_not_named host htext hnamed, map.find_of_past host hbyte hpast hhigh]
    exact iff_of_true (.refused hletter) (Text.ne_dotless_of_upperChar hletter hpast)
  · obtain ⟨drive, hne, hdrive, hval⟩ := Drive.exists_of_range hlow (Nat.le_of_not_lt hpast)
    rw [← hval] at hbyte
    rw [map.find_of_drive host hbyte hne]
    by_cases hascii : letter.toNat < 0x80
    · rw [Text.upperChar_of_ascii hascii, List.singleton_inj, ← hdrive] at hletter
      rw [map.findTyped_of_toUpper_eq host htext hletter]
      refine iff_of_true (.same _) ?_
      rintro rfl
      exact absurd hascii (by decide)
    · have hdotless := Text.eq_dotless_of_upperChar hascii hletter (Nat.le_of_not_lt hpast)
      have hnamed : ¬Drive.Named letter := fun hnamed => hascii (Drive.ascii_of_named hnamed)
      rw [map.findTyped_of_not_named host htext hnamed]
      exact iff_of_false (map.not_sameOutcome_findOn host letter drive _) (not_not_intro hdotless)

/-- Letters in lower case, past the last drive, and outside ASCII. -/
theorem findTyped_sameOutcome_iff_letters :
    let map := single ⟨selfName⟩
    let host := (oneFile "a.com").host
    ((ControlBlock.parse "b:*.com").drive ≠ 0 ∧
      SameOutcome (map.findTyped host "b:*.com").value
        (map.find host (.parse "b:*.com")).value) ∧
    ((ControlBlock.parse "q:*.com").drive ≠ 0 ∧
      SameOutcome (map.findTyped host "q:*.com").value
        (map.find host (.parse "q:*.com")).value) ∧
    ((ControlBlock.parse "ſ:*.com").drive ≠ 0 ∧
      SameOutcome (map.findTyped host "ſ:*.com").value
        (map.find host (.parse "ſ:*.com")).value) := by
  intro map host
  have hb : (ControlBlock.parse "b:*.com").drive ≠ 0 := by decide +kernel
  have hq : (ControlBlock.parse "q:*.com").drive ≠ 0 := by decide +kernel
  have hs : (ControlBlock.parse "ſ:*.com").drive ≠ 0 := by decide +kernel
  exact ⟨⟨hb, (findTyped_sameOutcome_iff map host hb).mpr (by decide)⟩,
    ⟨hq, (findTyped_sameOutcome_iff map host hq).mpr (by decide)⟩,
    ⟨hs, (findTyped_sameOutcome_iff map host hs).mpr (by decide)⟩⟩

/-- With a dotless i the block finds the files of drive I, and the name is refused. -/
theorem findTyped_dotless :
    let map := single ⟨selfName⟩
    let host := (oneFile "a.com").host
    (ControlBlock.parse "ı:*.com").drive ≠ 0 ∧
      (map.find host (.parse "ı:*.com")).value = .ok [⟨.ofText "./a.com", "A.COM", 300⟩] ∧
      (map.findTyped host "ı:*.com").value = .error (.invalidDrive 'ı') ∧
      ¬SameOutcome (map.findTyped host "ı:*.com").value
        (map.find host (.parse "ı:*.com")).value := by
  intro map host
  have hfind : (map.find host (.parse "ı:*.com")).value =
      .ok [⟨.ofText "./a.com", "A.COM", 300⟩] := rfl
  have htyped : (map.findTyped host "ı:*.com").value = .error (.invalidDrive 'ı') := rfl
  refine ⟨by decide +kernel, hfind, htyped, ?_⟩
  rw [hfind, htyped]
  intro hsame
  cases hsame

end DriveMap

end GuestFiles
