import GuestFiles.Proofs.ControlBlock.Filename

/-! # Patterns for one name and for several

A block without wildcards accepts one name only, but for its case and the spaces at its end. The
block of a typed ASCII name accepts the name that its own fields spell. Where it has wildcards, it
also accepts the name with a letter in the place of each question mark. -/

namespace GuestFiles.ControlBlock

/-! ## Without wildcards -/

theorem hasWildcards_iff (b : ControlBlock) :
    b.hasWildcards = true ↔
      (∃ p ∈ b.name.toList, plain p = anyByte) ∨ ∃ p ∈ b.extension.toList, plain p = anyByte := by
  simp only [hasWildcards, List.any_append, Bool.or_eq_true, List.any_eq_true, beq_iff_eq]

theorem sameFields_of_accepts {b : ControlBlock} (h : b.hasWildcards = false) {c d : String}
    (hc : b.accepts c = true) (hd : b.accepts d = true) : SameFields c d := by
  have hnone : ¬b.hasWildcards = true := by simp [h]
  simp only [hasWildcards_iff, not_or, not_exists, not_and] at hnone
  rw [accepts_iff, forall₂_byteAgrees_iff hnone.1, forall₂_byteAgrees_iff hnone.2] at hc hd
  exact ⟨hc.2.1.symm.trans hd.2.1, hc.2.2.symm.trans hd.2.2⟩

/-! ## Names spelled by two fields -/

/-- The text of the bytes of two fields with a dot between them. -/
def spelled (base extension : List UInt8) : String :=
  String.ofList ((joined base extension).map fun b => Char.ofNat b.toNat)

/-- An ASCII byte that is no letter in lower case. -/
def Capital (b : UInt8) : Prop :=
  b < 0x80 ∧ ¬(0x61 ≤ b ∧ b ≤ 0x7A)

instance : DecidablePred Capital := fun b =>
  inferInstanceAs (Decidable (b < 0x80 ∧ ¬(0x61 ≤ b ∧ b ≤ 0x7A)))

/-- Two full fields that spell a name in upper case, with no dot in the first of them. -/
structure Spells (base extension : List UInt8) : Prop where
  length_base : base.length = 8
  length_extension : extension.length = 3
  capital : ∀ b ∈ base ++ extension, Capital b
  no_dot : dotByte ∉ base

namespace Spells

variable {base extension : List UInt8}

theorem segments_upper_spelled (h : Spells base extension) :
    segments (Text.upper (spelled base extension)) = (base, extension) := by
  have hcapital : ∀ b ∈ joined base extension, Capital b := by
    intro b hb
    rcases mem_joined hb with hmem | rfl | hmem
    · exact h.capital b (List.mem_append_left _ hmem)
    · decide
    · exact h.capital b (List.mem_append_right _ hmem)
  have hbytes : Text.bytes (spelled base extension) = joined base extension :=
    Text.bytes_ofList_ofNat fun b hb => (hcapital b hb).1
  rw [← hbytes] at hcapital
  rw [(Text.upper_eq_self_iff fun b hb => (hcapital b hb).1).mpr fun b hb => (hcapital b hb).2,
    segments, hbytes, splitFirst_joined h.no_dot]

theorem padded_base (h : Spells base extension) : padded 8 base = base := by
  simp [padded, h.length_base]

theorem padded_extension (h : Spells base extension) : padded 3 extension = extension := by
  simp [padded, h.length_extension]

/-- A block accepts a spelled name when it agrees with the fields that spell it. -/
theorem accepts_iff (h : Spells base extension) (b : ControlBlock) :
    b.accepts (spelled base extension) = true ↔
      List.Forall₂ ByteAgrees b.name.toList base ∧
        List.Forall₂ ByteAgrees b.extension.toList extension := by
  have hfits : Fits (spelled base extension) := by
    constructor <;> simp [h.segments_upper_spelled, h.length_base, h.length_extension]
  rw [ControlBlock.accepts_iff, h.segments_upper_spelled, h.padded_base, h.padded_extension]
  simp [hfits]

theorem sameFields_iff (h : Spells base extension) {otherBase otherExtension : List UInt8}
    (hother : Spells otherBase otherExtension) :
    SameFields (spelled base extension) (spelled otherBase otherExtension) ↔
      base = otherBase ∧ extension = otherExtension := by
  have hfields (hbase : base = otherBase) (hextension : extension = otherExtension) :
      SameFields (spelled base extension) (spelled otherBase otherExtension) := by
    subst hbase hextension
    exact ⟨rfl, rfl⟩
  refine ⟨fun hsame => ?_, fun heq => hfields heq.1 heq.2⟩
  have hbase := hsame.base
  have hextension := hsame.extension
  rw [h.segments_upper_spelled, hother.segments_upper_spelled] at hbase hextension
  rw [h.padded_base, hother.padded_base] at hbase
  rw [h.padded_extension, hother.padded_extension] at hextension
  exact ⟨hbase, hextension⟩

end Spells

/-! ## Question marks settled -/

/-- A byte with a letter in the place of a question mark. -/
def settled (b : UInt8) : UInt8 :=
  if b = anyByte then 0x41 else b

theorem settled_eq_self_iff (b : UInt8) : settled b = b ↔ b ≠ anyByte := by
  by_cases h : b = anyByte
  · subst h
    decide
  · simp [settled, h]

theorem byteAgrees_settled {p : UInt8} (h : p < 0x80) : ByteAgrees p (settled p) := by
  rw [byteAgrees_iff_of_lt h]
  by_cases hany : p = anyByte
  · exact .inl hany
  · exact .inr ((settled_eq_self_iff p).mpr hany).symm

theorem map_settled_eq_self_iff (field : List UInt8) :
    field.map settled = field ↔ anyByte ∉ field := by
  induction field with
  | nil => simp
  | cons b rest ih =>
      rw [List.map_cons, List.cons.injEq, ih, settled_eq_self_iff, List.mem_cons, not_or, ne_comm]

theorem forall₂_settled {field : List UInt8} (h : ∀ b ∈ field, b < 0x80) :
    List.Forall₂ ByteAgrees field (field.map settled) := by
  rw [List.forall₂_map_right_iff, List.forall₂_same]
  exact fun b hb => byteAgrees_settled (h b hb)

theorem Spells.settle {base extension : List UInt8} (h : Spells base extension) :
    Spells (base.map settled) (extension.map settled) where
  length_base := by simp [h.length_base]
  length_extension := by simp [h.length_extension]
  capital := by
    intro b hb
    rw [← List.map_append, List.mem_map] at hb
    obtain ⟨c, hc, rfl⟩ := hb
    by_cases hany : c = anyByte
    · subst hany
      decide
    · rw [(settled_eq_self_iff c).mpr hany]
      exact h.capital c hc
  no_dot := by
    intro hmem
    obtain ⟨c, hc, hdot⟩ := List.mem_map.mp hmem
    by_cases hany : c = anyByte
    · subst hany
      exact absurd hdot (by decide)
    · rw [(settled_eq_self_iff c).mpr hany] at hdot
      exact h.no_dot (hdot ▸ hc)

/-! ## Typed in ASCII -/

theorem mem_fill {b : UInt8} {width : Nat} {segment : List UInt8} (h : b ∈ fill width segment) :
    b ∈ segment ∨ b = space ∨ b = anyByte := by
  obtain ⟨i, hi⟩ := List.mem_iff_getElem?.mp h
  exact (getElem?_fill hi).imp_left List.mem_of_getElem?

theorem capital_of_mem_fill {width : Nat} {segment : List UInt8} (h : ∀ b ∈ segment, Capital b)
    {b : UInt8} (hb : b ∈ fill width segment) : Capital b := by
  rcases mem_fill hb with hmem | rfl | rfl
  · exact h b hmem
  · decide
  · decide

/-- The bytes of an ASCII text in upper case are those of ASCII characters in upper case. -/
theorem capital_of_mem_segments_upper {text : String} (h : ∀ c ∈ text.toList, c.toNat < 0x80)
    {b : UInt8}
    (hb : b ∈ (segments (Text.upper text)).1 ∨ b ∈ (segments (Text.upper text)).2) :
    Capital b := by
  by_cases hdot : b = dotByte
  · subst hdot
    decide
  · have hmem := (mem_bytes_iff_mem_segments hdot _).mpr hb
    have hlow := (Text.forall_bytes_lt_iff _).mpr (upper_ascii_of_ascii h)
    exact ⟨hlow b hmem, (Text.upper_eq_self_iff hlow).mp (Text.upper_upper text) b hmem⟩

/-- The fields of a typed ASCII name spell a name. -/
theorem spells_parse {text : String} (h : ∀ c ∈ text.toList, c.toNat < 0x80) :
    Spells (parse text).name.toList (parse text).extension.toList := by
  obtain ⟨hname, hextension⟩ := fields_parse (splitDrive_bytes_of_ascii h)
  have hascii : ∀ c ∈ (withoutDrive text).toList, c.toNat < 0x80 := fun c hc =>
    h c (mem_withoutDrive hc)
  rw [hname, hextension]
  refine ⟨length_fill _ _, length_fill _ _, fun b hb => ?_, fun hdot => ?_⟩
  · rcases List.mem_append.mp hb with hb | hb
    · exact capital_of_mem_fill (fun _ h => capital_of_mem_segments_upper hascii (.inl h)) hb
    · exact capital_of_mem_fill (fun _ h => capital_of_mem_segments_upper hascii (.inr h)) hb
  · rcases mem_fill hdot with hmem | heq | heq
    · exact dot_not_mem_segments _ hmem
    · exact absurd heq (by decide)
    · exact absurd heq (by decide)

theorem Spells.hasWildcards_iff {b : ControlBlock} (h : Spells b.name.toList b.extension.toList) :
    b.hasWildcards = true ↔ anyByte ∈ b.name.toList ∨ anyByte ∈ b.extension.toList := by
  have hplain : ∀ field : List UInt8, (∀ p ∈ field, p < 0x80) →
      ((∃ p ∈ field, plain p = anyByte) ↔ anyByte ∈ field) := by
    intro field hlow
    constructor
    · rintro ⟨p, hp, heq⟩
      rw [plain_of_lt (hlow p hp)] at heq
      exact heq ▸ hp
    · exact fun hmem => ⟨anyByte, hmem, rfl⟩
  rw [ControlBlock.hasWildcards_iff,
    hplain _ fun p hp => (h.capital p (List.mem_append_left _ hp)).1,
    hplain _ fun p hp => (h.capital p (List.mem_append_right _ hp)).1]

/-- The name that a block spells, and the same name with its question marks settled, are accepted by
the block. -/
theorem Spells.accepts_own {b : ControlBlock} (h : Spells b.name.toList b.extension.toList) :
    b.accepts (spelled b.name.toList b.extension.toList) = true ∧
      b.accepts (spelled (b.name.toList.map settled) (b.extension.toList.map settled)) = true := by
  have hname : ∀ p ∈ b.name.toList, p < 0x80 := fun p hp =>
    (h.capital p (List.mem_append_left _ hp)).1
  have hextension : ∀ p ∈ b.extension.toList, p < 0x80 := fun p hp =>
    (h.capital p (List.mem_append_right _ hp)).1
  rw [h.accepts_iff, h.settle.accepts_iff, List.forall₂_same, List.forall₂_same]
  refine ⟨⟨fun p hp => .inr (plain_of_lt (hname p hp)),
    fun p hp => .inr (plain_of_lt (hextension p hp))⟩, forall₂_settled hname,
    forall₂_settled hextension⟩

/-- A block without wildcards does not accept two names with different fields. The block of a typed
ASCII name accepts a name, and has wildcards exactly when it accepts two names with different
fields. -/
theorem hasWildcards_iff_two_fields :
    (∀ b : ControlBlock, b.hasWildcards = false → ∀ c d, b.accepts c = true →
      b.accepts d = true → SameFields c d) ∧
    ∀ text : String, (∀ c ∈ text.toList, c.toNat < 0x80) →
      (∃ c, (parse text).accepts c = true) ∧
        ((parse text).hasWildcards = true ↔
          ∃ c d, (parse text).accepts c = true ∧ (parse text).accepts d = true ∧
            ¬SameFields c d) := by
  refine ⟨fun b h c d hc hd => sameFields_of_accepts h hc hd, fun text hascii => ?_⟩
  have hspells := spells_parse hascii
  obtain ⟨hself, hsettled⟩ := hspells.accepts_own
  refine ⟨⟨_, hself⟩, fun hwild => ⟨_, _, hself, hsettled, fun hsame => ?_⟩, ?_⟩
  · -- settling its question marks would leave the name as it is
    obtain ⟨hname, hextension⟩ := (hspells.sameFields_iff hspells.settle).mp hsame
    have hnone := And.intro ((map_settled_eq_self_iff _).mp hname.symm)
      ((map_settled_eq_self_iff _).mp hextension.symm)
    rw [← not_or, ← hspells.hasWildcards_iff] at hnone
    exact hnone hwild
  · rintro ⟨c, d, hc, hd, hdiffer⟩
    by_contra hnone
    exact hdiffer (sameFields_of_accepts (Bool.not_eq_true _ ▸ hnone) hc hd)

/-- A block with attributes on a letter and on a space of its extension. -/
def attributed : ControlBlock :=
  { parse "a b.c" with extension := #v[0xC3, 0xA0, 0x20] }

theorem hasWildcards_iff_two_fields_star :
    (attributed.hasWildcards = false ∧ attributed.accepts "A b.C" = true ∧
      attributed.accepts "a B  .c " = true ∧ SameFields "A b.C" "a B  .c ") ∧
    (∀ c ∈ "b:a*.c".toList, c.toNat < 0x80) ∧
      ∃ c d, (parse "b:a*.c").accepts c = true ∧ (parse "b:a*.c").accepts d = true ∧
        ¬SameFields c d := by
  obtain ⟨hone, htyped⟩ := hasWildcards_iff_two_fields
  have hnone : attributed.hasWildcards = false := by decide +kernel
  have hfirst : attributed.accepts "A b.C" = true := by decide +kernel
  have hsecond : attributed.accepts "a B  .c " = true := by decide +kernel
  have hascii : ∀ c ∈ "b:a*.c".toList, c.toNat < 0x80 := ascii_of_all (by decide)
  have hwild : (parse "b:a*.c").hasWildcards = true := by decide +kernel
  exact ⟨⟨hnone, hfirst, hsecond, hone attributed hnone _ _ hfirst hsecond⟩, hascii,
    (htyped _ hascii).2.mp hwild⟩

end GuestFiles.ControlBlock
