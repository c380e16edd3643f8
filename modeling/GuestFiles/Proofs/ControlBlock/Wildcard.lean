import GuestFiles.Proofs.ControlBlock.Fields

/-! # What a typed name accepts

The block of a typed ASCII name accepts the language of its wildcards: a question mark stands for
any position, a star for all positions that are left. A typed name without wildcards accepts the
names with its own fields exactly when it is ASCII in upper case, for a block gives up bit 7 of its
bytes and a name does not. -/

namespace GuestFiles.ControlBlock

/-! ## Agreement of bytes -/

theorem plain_of_lt {b : UInt8} (h : b < 0x80) : plain b = b := by
  have hall : ∀ n < 0x80, plain (UInt8.ofNat n) = UInt8.ofNat n := by decide
  have hb := hall b.toNat (UInt8.lt_iff_toNat_lt.mp h)
  rwa [UInt8.ofNat_toNat] at hb

theorem byteAgrees_iff_of_lt {p c : UInt8} (h : p < 0x80) :
    ByteAgrees p c ↔ p = anyByte ∨ p = c := by
  rw [ByteAgrees, plain_of_lt h]

/-- The first byte of a character outside ASCII does not agree with itself. -/
theorem not_byteAgrees_self {p : UInt8} (h : 0xC0 ≤ p) : ¬ByteAgrees p p := by
  have hall : ∀ n < 256, 0xC0 ≤ n →
      ¬(plain (UInt8.ofNat n) = anyByte ∨ plain (UInt8.ofNat n) = UInt8.ofNat n) := by
    decide +kernel
  have hp := hall p.toNat p.toNat_lt (UInt8.le_iff_toNat_le.mp h)
  rwa [UInt8.ofNat_toNat] at hp

/-- Where no byte of a pattern is a question mark, the pattern agrees with its own bytes without
their attributes, and with no others. -/
theorem forall₂_byteAgrees_iff {pattern name : List UInt8} (h : ∀ p ∈ pattern, plain p ≠ anyByte) :
    List.Forall₂ ByteAgrees pattern name ↔ pattern.map plain = name := by
  induction pattern generalizing name with
  | nil => simp [eq_comm]
  | cons p pattern ih =>
      obtain ⟨hp, hrest⟩ := List.forall_mem_cons.mp h
      cases name with
      | nil => simp
      | cons c name => simp [ByteAgrees, hp, ih hrest]

/-- Without attributes and question marks, agreement is equality. -/
theorem forall₂_byteAgrees_iff_eq {pattern name : List UInt8}
    (h : ∀ b ∈ pattern, b < 0x80 ∧ b ≠ anyByte) :
    List.Forall₂ ByteAgrees pattern name ↔ pattern = name := by
  have hplain : ∀ b ∈ pattern, plain b = b := fun b hb => plain_of_lt (h b hb).1
  rw [forall₂_byteAgrees_iff fun b hb => (hplain b hb).symm ▸ (h b hb).2,
    List.map_congr_left hplain, List.map_id']

theorem forall₂_any (name : List UInt8) :
    List.Forall₂ ByteAgrees (List.replicate name.length anyByte) name := by
  induction name with
  | nil => exact .nil
  | cons c name ih => exact .cons (.inl rfl) ih

/-! ## Typed names without their drive -/

/-- A typed text without the character and the colon that may begin it. -/
def withoutDrive (text : String) : String :=
  match text.toList with
  | _ :: ':' :: rest => String.ofList rest
  | _ => text

@[simp] theorem withoutDrive_colon (c : Char) (rest : List Char) :
    withoutDrive (String.ofList (c :: ':' :: rest)) = String.ofList rest := by
  simp [withoutDrive]

@[simp] theorem withoutDrive_singleton (c : Char) :
    withoutDrive (String.ofList [c]) = String.ofList [c] := by
  simp [withoutDrive]

theorem withoutDrive_of_ne {d : Char} (h : d ≠ ':') (c : Char) (rest : List Char) :
    withoutDrive (String.ofList (c :: d :: rest)) = String.ofList (c :: d :: rest) := by
  simp [withoutDrive, h]

theorem isMark_colon : Text.IsMark ':' := ⟨by decide, by decide⟩

theorem splitDrive_of_ne {typed : List UInt8} (h : typed[1]? ≠ some colonByte) :
    splitDrive typed = (0, typed) := by
  match typed with
  | [] => rfl
  | [_] => rfl
  | letter :: colon :: rest =>
    have hne : colon ≠ colonByte := by simpa using h
    simp [splitDrive, hne]

/-- Typing fills the fields with the segments of what is left after the drive. -/
theorem fields_parse {text rest : String}
    (h : (splitDrive (Text.bytes (Text.upper text))).2 = Text.bytes rest) :
    (parse text).name.toList = fill 8 (segments rest).1 ∧
      (parse text).extension.toList = fill 3 (segments rest).2 := by
  simp only [parse, retype_eq, toList_field, h, segments, and_self]

/-- Without a colon in the second place, typing fills the fields of the blank block with the
segments of the text in upper case. -/
theorem parse_of_ne {text : String} (h : (Text.bytes (Text.upper text))[1]? ≠ some colonByte) :
    parse text =
      { blank with
        name := field 8 (segments (Text.upper text)).1
        extension := field 3 (segments (Text.upper text)).2 } := by
  simp only [parse, retype_eq, splitDrive_of_ne h, segments]
  rfl

/-- The bytes of a typed ASCII text after its drive are those of the text typed without it. -/
theorem splitDrive_bytes_of_ascii {text : String} (h : ∀ c ∈ text.toList, c.toNat < 0x80) :
    (splitDrive (Text.bytes (Text.upper text))).2 =
      Text.bytes (Text.upper (withoutDrive text)) := by
  obtain ⟨cs, rfl⟩ : ∃ cs, text = String.ofList cs := ⟨text.toList, by simp⟩
  rw [String.toList_ofList] at h
  match cs with
  | [] => rfl
  | [c] =>
    rw [withoutDrive_singleton, Text.bytes_upper_cons_of_ascii (h c (by simp))]
    rfl
  | c :: d :: rest =>
    have hc := h c (by simp)
    have hd := h d (by simp)
    have hcolon : d.toUpper.toNat.toUInt8 = colonByte ↔ d = ':' :=
      Text.upperByte_eq_iff isMark_colon hd
    rw [Text.bytes_upper_cons_of_ascii hc, Text.bytes_upper_cons_of_ascii hd, splitDrive]
    by_cases heq : d = ':'
    · rw [if_pos (hcolon.mpr heq), heq, withoutDrive_colon]
    · rw [if_neg (mt hcolon.mp heq), withoutDrive_of_ne heq, Text.bytes_upper_cons_of_ascii hc,
        Text.bytes_upper_cons_of_ascii hd]

/-! ## Wildcards in ASCII names -/

/-- Whether a typed segment selects a segment of a name, in a field of the given width: a star
selects whatever is left, a question mark any position, and any other byte itself. Past its end the
name reads as spaces, and the typed segment selects only those. -/
def selects : Nat → List UInt8 → List UInt8 → Bool
  | 0, _, _ => true
  | width + 1, [], name => space == name.headD space && selects width [] name.tail
  | width + 1, p :: rest, name =>
    p == starByte || (p == anyByte || p == name.headD space) && selects width rest name.tail

theorem padded_succ (width : Nat) (name : List UInt8) :
    padded (width + 1) name = name.headD space :: padded width name.tail := by
  cases name <;> simp

/-- A filled field agrees with a padded segment when the typed segment selects it. -/
theorem forall₂_fill_iff_selects {width : Nat} {typed name : List UInt8}
    (htyped : ∀ b ∈ typed, b < 0x80) (hname : name.length ≤ width) :
    List.Forall₂ ByteAgrees (fill width typed) (padded width name) ↔
      selects width typed name = true := by
  induction width generalizing typed name with
  | zero =>
      obtain rfl := List.length_eq_zero_iff.mp (Nat.le_zero.mp hname)
      simp [fill, selects]
  | succ width ih =>
      have htail : name.tail.length ≤ width := by
        rw [List.length_tail]
        omega
      cases typed with
      | nil =>
          have hspace : space ≠ anyByte := by decide
          rw [fill, padded_succ, List.forall₂_cons, ih htyped htail,
            byteAgrees_iff_of_lt (by decide)]
          simp [selects, hspace]
      | cons p rest =>
          have hrest := ih (fun b hb => htyped b (List.mem_cons_of_mem p hb)) htail
          by_cases hstar : p = starByte
          · have hany := forall₂_any (padded (width + 1) name)
            rw [length_padded hname] at hany
            simp [fill, selects, hstar, hany]
          · rw [fill, if_neg hstar, padded_succ, List.forall₂_cons, hrest,
              byteAgrees_iff_of_lt (htyped p List.mem_cons_self)]
            simp [selects, hstar]

/-- Segments of an ASCII text in upper case are ASCII. -/
theorem segments_lt_of_ascii {text : String} (h : ∀ c ∈ (Text.upper text).toList, c.toNat < 0x80) :
    (∀ b ∈ (segments (Text.upper text)).1, b < 0x80) ∧
      ∀ b ∈ (segments (Text.upper text)).2, b < 0x80 := by
  have hbytes := (Text.forall_bytes_lt_iff _).mpr h
  have hmem : ∀ b, b ∈ (segments (Text.upper text)).1 ∨ b ∈ (segments (Text.upper text)).2 →
      b < 0x80 := by
    intro b hb
    by_cases hdot : b = dotByte
    · rw [hdot]
      decide
    · exact hbytes b ((mem_bytes_iff_mem_segments hdot _).mpr hb)
  exact ⟨fun b hb => hmem b (.inl hb), fun b hb => hmem b (.inr hb)⟩

theorem mem_withoutDrive {text : String} {c : Char} (h : c ∈ (withoutDrive text).toList) :
    c ∈ text.toList := by
  unfold withoutDrive at h
  split at h
  · next heq =>
      rw [String.toList_ofList] at h
      rw [heq]
      exact List.mem_cons_of_mem _ (List.mem_cons_of_mem _ h)
  · exact h

theorem upper_ascii_of_ascii {text : String} (h : ∀ c ∈ text.toList, c.toNat < 0x80) :
    ∀ c ∈ (Text.upper text).toList, c.toNat < 0x80 := by
  intro c hc
  rw [Text.toList_upper, List.mem_flatMap] at hc
  obtain ⟨d, hd, hc⟩ := hc
  rw [Text.upperChar_of_ascii (h d hd), List.mem_singleton] at hc
  rw [hc]
  exact (Text.toUpper_of_ascii (h d hd)).1

/-- The block of a typed ASCII text accepts exactly the names that fit and whose segments are
selected by those of the text without its drive. -/
theorem accepts_parse_iff_selects {text : String} (h : ∀ c ∈ text.toList, c.toNat < 0x80)
    (candidate : String) :
    (parse text).accepts candidate = true ↔
      Fits candidate ∧
        selects 8 (segments (Text.upper (withoutDrive text))).1
          (segments (Text.upper candidate)).1 = true ∧
        selects 3 (segments (Text.upper (withoutDrive text))).2
          (segments (Text.upper candidate)).2 = true := by
  obtain ⟨hname, hext⟩ := fields_parse (splitDrive_bytes_of_ascii h)
  obtain ⟨hbase, hextension⟩ :=
    segments_lt_of_ascii (upper_ascii_of_ascii fun c hc => h c (mem_withoutDrive hc))
  rw [accepts_iff, hname, hext]
  constructor
  · rintro ⟨hfits, hn, he⟩
    exact ⟨hfits, (forall₂_fill_iff_selects hbase hfits.base).mp hn,
      (forall₂_fill_iff_selects hextension hfits.extension).mp he⟩
  · rintro ⟨hfits, hn, he⟩
    exact ⟨hfits, (forall₂_fill_iff_selects hbase hfits.base).mpr hn,
      (forall₂_fill_iff_selects hextension hfits.extension).mpr he⟩

theorem ascii_of_all {cs : List Char} (h : cs.all (·.toNat < 0x80)) : ∀ c ∈ cs, c.toNat < 0x80 :=
  fun c hc => of_decide_eq_true (List.all_eq_true.mp h c hc)

/-- A drive, a star and a question mark at work. -/
theorem accepts_parse_iff_selects_drive_star :
    (∀ c ∈ "b:a*.c?m".toList, c.toNat < 0x80) ∧ (parse "b:a*.c?m").accepts "Apple.com" = true := by
  have h : ∀ c ∈ "b:a*.c?m".toList, c.toNat < 0x80 := ascii_of_all (by decide)
  have hfits : Fits "Apple.com" := ⟨by decide +kernel, by decide +kernel⟩
  exact ⟨h, (accepts_parse_iff_selects h "Apple.com").mpr
    ⟨hfits, by decide +kernel, by decide +kernel⟩⟩

/-! ## Names without wildcards -/

/-- The block of a typed name without wildcards that fits has the padded segments of the name. -/
theorem fields_parse_of_literal {text : String} (hstar : '*' ∉ text.toList)
    (hcolon : (Text.bytes (Text.upper text))[1]? ≠ some colonByte) (hfits : Fits text) :
    (parse text).name.toList = padded 8 (segments (Text.upper text)).1 ∧
      (parse text).extension.toList = padded 3 (segments (Text.upper text)).2 := by
  rw [← Text.mem_upper_iff isMark_star, star_mem_iff, not_or] at hstar
  have hsplit := congrArg Prod.snd (splitDrive_of_ne hcolon)
  obtain ⟨hname, hextension⟩ := fields_parse hsplit
  rw [hname, hextension, fill_eq_padded hfits.base hstar.1, fill_eq_padded hfits.extension hstar.2]
  exact ⟨rfl, rfl⟩

/-- A block whose fields are the padded ASCII segments of a text without question marks accepts the
names with the same fields. -/
theorem accepts_iff_sameFields {pattern : ControlBlock} {text : String}
    (hname : pattern.name.toList = padded 8 (segments (Text.upper text)).1)
    (hextension : pattern.extension.toList = padded 3 (segments (Text.upper text)).2)
    (hany : '?' ∉ text.toList) (hascii : ∀ c ∈ (Text.upper text).toList, c.toNat < 0x80)
    (candidate : String) :
    pattern.accepts candidate = true ↔ Fits candidate ∧ SameFields candidate text := by
  rw [← Text.mem_upper_iff isMark_any, any_mem_iff, not_or] at hany
  obtain ⟨hbase, hext⟩ := segments_lt_of_ascii hascii
  have hplain : ∀ {width : Nat} {segment : List UInt8}, (∀ b ∈ segment, b < 0x80) →
      anyByte ∉ segment → ∀ b ∈ padded width segment, b < 0x80 ∧ b ≠ anyByte := by
    intro width segment hlt hno b hb
    rcases mem_padded hb with hmem | rfl
    · exact ⟨hlt b hmem, fun heq => hno (heq ▸ hmem)⟩
    · decide
  rw [accepts_iff, hname, hextension, forall₂_byteAgrees_iff_eq (hplain hbase hany.1),
    forall₂_byteAgrees_iff_eq (hplain hext hany.2)]
  constructor
  · rintro ⟨hfits, hn, he⟩
    exact ⟨hfits, hn.symm, he.symm⟩
  · rintro ⟨hfits, hn, he⟩
    exact ⟨hfits, hn.symm, he.symm⟩

/-- A block whose fields are the padded segments of a text accepts the text only if it is ASCII in
upper case. -/
theorem ascii_of_accepts_self {pattern : ControlBlock} {text : String}
    (hname : pattern.name.toList = padded 8 (segments (Text.upper text)).1)
    (hextension : pattern.extension.toList = padded 3 (segments (Text.upper text)).2)
    (h : pattern.accepts text = true) : ∀ c ∈ (Text.upper text).toList, c.toNat < 0x80 := by
  intro c hc
  by_contra hbig
  obtain ⟨lead, rest, heq, hlead, -⟩ := Text.utf8EncodeChar_of_not_ascii hbig
  have hbytes : lead ∈ Text.bytes (Text.upper text) :=
    List.mem_flatMap.mpr ⟨c, hc, by simp [heq]⟩
  have hdot : lead ≠ dotByte := by
    rintro rfl
    exact absurd hlead (by decide)
  rw [accepts_iff, hname, hextension, List.forall₂_same, List.forall₂_same] at h
  rcases (mem_bytes_iff_mem_segments hdot _).mp hbytes with hmem | hmem
  · exact not_byteAgrees_self hlead (h.2.1 lead (mem_padded_of_mem hmem 8))
  · exact not_byteAgrees_self hlead (h.2.2 lead (mem_padded_of_mem hmem 3))

/-- The block of a typed name without wildcards that fits accepts just the names with the same
fields exactly when the typed name is ASCII in upper case. -/
theorem accepts_literal_iff_ascii {text : String} (hstar : '*' ∉ text.toList)
    (hany : '?' ∉ text.toList) (hcolon : (Text.bytes (Text.upper text))[1]? ≠ some colonByte)
    (hfits : Fits text) :
    (∀ candidate, (parse text).accepts candidate = true ↔
      Fits candidate ∧ SameFields candidate text) ↔
      ∀ c ∈ (Text.upper text).toList, c.toNat < 0x80 := by
  obtain ⟨hname, hextension⟩ := fields_parse_of_literal hstar hcolon hfits
  constructor
  · intro h
    exact ascii_of_accepts_self hname hextension ((h text).mpr ⟨hfits, rfl, rfl⟩)
  · exact accepts_iff_sameFields hname hextension hany

/-- The sharp s is ASCII in upper case, and is found under its two letters. -/
theorem accepts_literal_iff_ascii_sharp :
    '*' ∉ "ß.txt".toList ∧ '?' ∉ "ß.txt".toList ∧
      (Text.bytes (Text.upper "ß.txt"))[1]? ≠ some colonByte ∧ Fits "ß.txt" ∧
      (parse "ß.txt").accepts "SS.TXT" = true := by
  have hcolon : (Text.bytes (Text.upper "ß.txt"))[1]? ≠ some colonByte := by decide +kernel
  have hfits : Fits "ß.txt" := ⟨by decide +kernel, by decide +kernel⟩
  have hascii : ∀ c ∈ (Text.upper "ß.txt").toList, c.toNat < 0x80 :=
    ascii_of_all (by decide +kernel)
  have h := (accepts_literal_iff_ascii (by decide) (by decide) hcolon hfits).mpr hascii "SS.TXT"
  exact ⟨by decide, by decide, hcolon, hfits,
    h.mpr ⟨⟨by decide +kernel, by decide +kernel⟩, by decide +kernel, by decide +kernel⟩⟩

/-- An accented letter is not found under itself, but under the two bytes of its encoding without
bit 7. -/
theorem accepts_literal_accented :
    '*' ∉ "é".toList ∧ '?' ∉ "é".toList ∧
      (Text.bytes (Text.upper "é"))[1]? ≠ some colonByte ∧ Fits "é" ∧
      (parse "é").accepts "é" = false ∧ SameFields "é" "é" ∧
      (parse "é").accepts "C\t" = true ∧ ¬SameFields "C\t" "é" := by
  refine ⟨by decide, by decide, by decide +kernel, ⟨by decide +kernel, by decide +kernel⟩,
    by decide +kernel, ⟨rfl, rfl⟩, by decide +kernel, ?_⟩
  intro h
  exact absurd h.base (by decide +kernel)

end GuestFiles.ControlBlock
