import GuestFiles.Proofs.ControlBlock.Wildcard
import Mathlib.Data.List.TakeWhile

/-! # Typing a name that was shown

A field that was filled from a segment without spaces shows the segment, with question marks from
its first star on. Typed again, what it shows fills the field with the same bytes; so a block whose
two fields show one name has the fields of that name when it is typed. A block of any other origin
gives its fields back without their attributes, when they hold nothing that typing changes. -/

namespace GuestFiles.ControlBlock

theorem getElem?_of_isPrefix {l₁ l₂ : List UInt8} (h : l₁ <+: l₂) {i : Nat} {b : UInt8}
    (hi : l₁[i]? = some b) : l₂[i]? = some b := by
  obtain ⟨hlt, heq⟩ := List.getElem?_eq_some_iff.mp hi
  rw [List.prefix_iff_getElem?.mp h i hlt, heq]

/-! ## What a filled field holds -/

section Fill

variable {width : Nat} {segment : List UInt8}

theorem fill_nil (width : Nat) : fill width [] = List.replicate width space := by
  induction width with
  | zero => rfl
  | succ width ih => rw [fill, ih, List.replicate_succ]

/-- A position of a filled field holds the byte that was typed there, a space after the last one, or
a question mark for a star. -/
theorem getElem?_fill {i : Nat} {b : UInt8} (h : (fill width segment)[i]? = some b) :
    segment[i]? = some b ∨ b = space ∨ b = anyByte := by
  induction width generalizing segment i with
  | zero => simp [fill] at h
  | succ width ih =>
      cases segment with
      | nil =>
          rw [fill_nil] at h
          exact .inr (.inl (List.eq_of_mem_replicate (List.mem_of_getElem? h)))
      | cons c rest =>
          by_cases hstar : c = starByte
          · rw [fill, if_pos hstar] at h
            exact .inr (.inr (List.eq_of_mem_replicate (List.mem_of_getElem? h)))
          · rw [fill, if_neg hstar] at h
            cases i with
            | zero => exact .inl h
            | succ i => exact ih (i := i) h

/-- Before its first star a segment fills the field with its own bytes, from there on with question
marks. -/
theorem fill_append_star {front : List UInt8} (hfront : starByte ∉ front)
    (h : front.length ≤ width) (rest : List UInt8) :
    fill width (front ++ starByte :: rest) =
      front ++ List.replicate (width - front.length) anyByte := by
  induction front generalizing width with
  | nil =>
      cases width with
      | zero => rfl
      | succ width => simp [fill]
  | cons b front ih =>
      cases width with
      | zero => exact absurd h (Nat.not_succ_le_zero _)
      | succ width =>
          obtain ⟨hb, hrest⟩ := List.ne_and_not_mem_of_not_mem_cons hfront
          rw [List.cons_append, fill, if_neg hb.symm, ih hrest (Nat.le_of_succ_le_succ h)]
          simp

/-- A field filled from a segment with a star holds neither stars nor anything that is not in the
segment but question marks. -/
theorem not_mem_fill {b : UInt8} (h : segment.length ≤ width) (hstar : starByte ∈ segment)
    (hb : b ∉ segment ∨ b = starByte) (hany : b ≠ anyByte) : b ∉ fill width segment := by
  obtain ⟨front, rest, rfl, hfront⟩ := List.eq_append_cons_of_mem hstar
  have hlength : front.length ≤ width := by
    rw [List.length_append] at h
    omega
  rw [fill_append_star hfront hlength, List.mem_append, not_or]
  refine ⟨?_, fun hmem => hany (List.eq_of_mem_replicate hmem)⟩
  rcases hb with hb | rfl
  · exact fun hmem => hb (List.mem_append_left _ hmem)
  · exact hfront

end Fill

/-! ## What a filled field shows -/

/-- The bytes that a field shows once `segment` is typed into it. -/
def shown (width : Nat) (segment : List UInt8) : List UInt8 :=
  (fill width segment).takeWhile (· ≠ space)

section Shown

variable {width : Nat} {segment : List UInt8}

@[simp] theorem shown_nil (width : Nat) : shown width [] = [] := by
  cases width with
  | zero => rfl
  | succ width => simp [shown, fill]

/-- Up to its first space, a padded segment without spaces is the segment. -/
theorem takeWhile_padded (width : Nat) (hspace : space ∉ segment) :
    (padded width segment).takeWhile (· ≠ space) = segment := by
  have hkept : ∀ b ∈ segment, decide (b ≠ space) = true := fun b hb =>
    decide_eq_true fun heq => hspace (heq ▸ hb)
  rw [padded, List.takeWhile_append_of_pos hkept, List.takeWhile_replicate]
  simp

theorem shown_of_star_not_mem (h : segment.length ≤ width) (hspace : space ∉ segment)
    (hstar : starByte ∉ segment) : shown width segment = segment := by
  rw [shown, fill_eq_padded h hstar, takeWhile_padded width hspace]

theorem shown_of_star_mem (h : segment.length ≤ width) (hspace : space ∉ segment)
    (hstar : starByte ∈ segment) : shown width segment = fill width segment := by
  rw [shown, List.takeWhile_eq_self_iff]
  intro b hb
  have hnone : space ∉ fill width segment := not_mem_fill h hstar (.inl hspace) (by decide)
  exact decide_eq_true fun heq => hnone (heq ▸ hb)

/-- Typing what a field shows fills the field as before. -/
theorem fill_shown (h : segment.length ≤ width) (hspace : space ∉ segment) :
    fill width (shown width segment) = fill width segment := by
  by_cases hstar : starByte ∈ segment
  · have hlength : (fill width segment).length = width := length_fill width segment
    have hnone : starByte ∉ fill width segment := not_mem_fill h hstar (.inr rfl) (by decide)
    rw [shown_of_star_mem h hspace hstar, fill_eq_padded (Nat.le_of_eq hlength) hnone, padded,
      hlength, Nat.sub_self]
    exact List.append_nil _
  · rw [shown_of_star_not_mem h hspace hstar]

theorem getElem?_shown {i : Nat} {b : UInt8} (h : (shown width segment)[i]? = some b)
    (hany : b ≠ anyByte) : segment[i]? = some b := by
  have hprefix : shown width segment <+: fill width segment := List.takeWhile_prefix _
  have hspace : b ≠ space := by
    simpa using List.mem_takeWhile_imp (List.mem_of_getElem? h)
  rcases getElem?_fill (getElem?_of_isPrefix hprefix h) with htyped | heq | heq
  · exact htyped
  · exact absurd heq hspace
  · exact absurd heq hany

theorem mem_of_mem_shown {b : UInt8} (h : b ∈ shown width segment) (hany : b ≠ anyByte) :
    b ∈ segment := by
  obtain ⟨i, hi⟩ := List.mem_iff_getElem?.mp h
  exact List.mem_of_getElem? (getElem?_shown hi hany)

end Shown

/-! ## Two segments as one name -/

theorem space_mem_iff (text : String) :
    ' ' ∈ text.toList ↔ space ∈ (segments text).1 ∨ space ∈ (segments text).2 := by
  have hspace : ' '.toNat < 0x80 := by decide
  rw [← mem_bytes_iff_mem_segments (by decide), ← Text.mem_bytes_iff hspace]
  rfl

/-- Two segments with a dot between them, unless the second is empty. -/
def joined (base extension : List UInt8) : List UInt8 :=
  if extension = [] then base else base ++ dotByte :: extension

theorem mem_joined {b : UInt8} {base extension : List UInt8} (h : b ∈ joined base extension) :
    b ∈ base ∨ b = dotByte ∨ b ∈ extension := by
  unfold joined at h
  split at h
  · exact .inl h
  · simpa using h

theorem dot_not_mem_segments (text : String) : dotByte ∉ (segments text).1 := by
  intro h
  simpa using List.mem_takeWhile_imp h

theorem splitFirst_joined {base : List UInt8} (h : dotByte ∉ base) (extension : List UInt8) :
    Text.splitFirst dotByte (joined base extension) = (base, extension) := by
  unfold joined
  split
  · next heq => rw [Text.splitFirst_of_not_mem h, heq]
  · exact Text.splitFirst_append_cons h extension

/-- A text is its segments joined, perhaps with a dot at the end. -/
theorem joined_segments_isPrefix (text : String) :
    joined (segments text).1 (segments text).2 <+: Text.bytes text := by
  by_cases hdot : dotByte ∈ Text.bytes text
  · obtain ⟨front, rest, heq, hfront⟩ := List.eq_append_cons_of_mem hdot
    rw [segments, heq, Text.splitFirst_append_cons hfront, joined]
    split
    · exact List.prefix_append _ _
    · exact List.prefix_rfl
  · rw [segments, Text.splitFirst_of_not_mem hdot]
    exact List.prefix_rfl

theorem getElem?_joined_of_lt {base : List UInt8} {i : Nat} (h : i < base.length)
    (extension : List UInt8) : (joined base extension)[i]? = base[i]? := by
  unfold joined
  split
  · rfl
  · exact List.getElem?_append_left h

/-- Bytes that both second segments have in the same places stand in the same places of the names,
when the one is not empty unless the other is. -/
theorem getElem?_joined_mono {base first second : List UInt8} {i : Nat} {b : UInt8}
    (hempty : second = [] → first = [])
    (hmono : ∀ j : Nat, first[j]? = some b → second[j]? = some b)
    (h : (joined base first)[i]? = some b) : (joined base second)[i]? = some b := by
  by_cases hlt : i < base.length
  · rwa [getElem?_joined_of_lt hlt] at h ⊢
  · have hle : base.length ≤ i := Nat.le_of_not_lt hlt
    by_cases hfirst : first = []
    · rw [joined, if_pos hfirst, List.getElem?_eq_none hle] at h
      cases h
    · rw [joined, if_neg hfirst, List.getElem?_append_right hle] at h
      rw [joined, if_neg (mt hempty hfirst), List.getElem?_append_right hle]
      cases hoffset : i - base.length with
      | zero => rwa [hoffset] at h
      | succ offset =>
          rw [hoffset, List.getElem?_cons_succ] at h
          rw [List.getElem?_cons_succ, hmono offset h]

/-- Within the width of the first field, what two fields show together stands where it was typed. -/
theorem getElem?_joined_shown {width n i : Nat} {base extension : List UInt8} {b : UInt8}
    (hbase : base.length ≤ width) (hspace : space ∉ base) (hi : i < width) (hany : b ≠ anyByte)
    (h : (joined (shown width base) (shown n extension))[i]? = some b) :
    (joined base extension)[i]? = some b := by
  by_cases hstar : starByte ∈ base
  · have hlength : i < (shown width base).length := by
      rwa [shown_of_star_mem hbase hspace hstar, length_fill]
    rw [getElem?_joined_of_lt hlength] at h
    have htyped := getElem?_shown h hany
    rw [getElem?_joined_of_lt (List.getElem?_eq_some_iff.mp htyped).1, htyped]
  · rw [shown_of_star_not_mem hbase hspace hstar] at h
    refine getElem?_joined_mono ?_ (fun j hj => getElem?_shown hj hany) h
    rintro rfl
    exact shown_nil n

/-- What is shown of a text holds bytes of the text, question marks and a dot. -/
theorem mem_of_mem_joined_shown {m n : Nat} {text : String} {b : UInt8}
    (h : b ∈ joined (shown m (segments text).1) (shown n (segments text).2)) :
    b ∈ Text.bytes text ∨ b = anyByte ∨ b = dotByte := by
  by_cases hmark : b = anyByte ∨ b = dotByte
  · exact .inr hmark
  · obtain ⟨hany, hdot⟩ := not_or.mp hmark
    left
    rw [mem_bytes_iff_mem_segments hdot]
    rcases mem_joined h with hb | hb | hb
    · exact .inl (mem_of_mem_shown hb hany)
    · exact absurd hb hdot
    · exact .inr (mem_of_mem_shown hb hany)

/-! ## What a block shows -/

/-- A text of the bytes of an upper-case ASCII text, of question marks and of dots is in upper
case. -/
theorem upper_eq_self_of_bytes {text other : String} (hascii : ∀ c ∈ text.toList, c.toNat < 0x80)
    (hupper : Text.upper text = text)
    (h : ∀ b ∈ Text.bytes other, b ∈ Text.bytes text ∨ b = anyByte ∨ b = dotByte) :
    Text.upper other = other := by
  have hlow := (Text.forall_bytes_lt_iff text).mpr hascii
  have hcapital := (Text.upper_eq_self_iff hlow).mp hupper
  have hother : ∀ b ∈ Text.bytes other, b < 0x80 ∧ ¬(0x61 ≤ b ∧ b ≤ 0x7A) := by
    intro b hb
    rcases h b hb with hmem | rfl | rfl
    · exact ⟨hlow b hmem, hcapital b hmem⟩
    · decide
    · decide
  exact (Text.upper_eq_self_iff fun b hb => (hother b hb).1).mpr fun b hb => (hother b hb).2

theorem plain_lt (b : UInt8) : plain b < 0x80 := by
  have hall : ∀ n < 256, plain (UInt8.ofNat n) < 0x80 := by decide +kernel
  have hb := hall b.toNat b.toNat_lt
  rwa [UInt8.ofNat_toNat] at hb

theorem bytes_shownField {width : Nat} (field : Vector UInt8 width) :
    Text.bytes (shownField field) = (field.toList.map plain).takeWhile (· ≠ space) := by
  apply Text.bytes_ofList_ofNat
  intro b hb
  obtain ⟨c, -, rfl⟩ := List.mem_map.mp ((List.takeWhile_sublist _).subset hb)
  exact plain_lt c

theorem bytes_shownField_of_fill {width : Nat} {field : Vector UInt8 width} {segment : List UInt8}
    (hfield : field.toList = fill width segment) (hascii : ∀ b ∈ segment, b < 0x80) :
    Text.bytes (shownField field) = shown width segment := by
  have hplain : ∀ b ∈ fill width segment, plain b = b := by
    intro b hb
    obtain ⟨i, hi⟩ := List.mem_iff_getElem?.mp hb
    rcases getElem?_fill hi with htyped | rfl | rfl
    · exact plain_of_lt (hascii b (List.mem_of_getElem? htyped))
    · rfl
    · rfl
  rw [bytes_shownField, hfield, List.map_congr_left hplain, List.map_id', shown]

theorem bytes_filename (b : ControlBlock) :
    Text.bytes b.filename = joined (Text.bytes b.shownName) (Text.bytes b.shownExtension) := by
  have hempty : b.shownExtension.isEmpty ↔ Text.bytes b.shownExtension = [] := by
    rw [String.isEmpty_iff, Text.bytes_eq_nil_iff]
  rw [filename, joined]
  simp only [hempty]
  split
  · rfl
  · rw [Text.bytes_append, Text.bytes_append, List.append_assoc]
    rfl

/-- Typed again, a shown name in upper case fills the fields with the two segments that it joins. -/
theorem parse_filename_of_joined {b : ControlBlock} {base extension : List UInt8}
    (hbytes : Text.bytes b.filename = joined base extension) (hdot : dotByte ∉ base)
    (hupper : Text.upper b.filename = b.filename)
    (hcolon : (Text.bytes b.filename)[1]? ≠ some colonByte) :
    parse b.filename = { blank with name := field 8 base, extension := field 3 extension } := by
  have hsegments : segments b.filename = (base, extension) := by
    rw [segments, hbytes, splitFirst_joined hdot]
  have hparse := parse_of_ne (hupper.symm ▸ hcolon)
  rwa [hupper, hsegments] at hparse

/-- A block whose fields were filled from the segments of an upper-case ASCII name without spaces
shows a name that, typed again, fills them with the same bytes. -/
theorem fields_parse_filename {b : ControlBlock} {text : String}
    (hname : b.name.toList = fill 8 (segments text).1)
    (hextension : b.extension.toList = fill 3 (segments text).2)
    (hupper : Text.upper text = text) (hfits : Fits text)
    (hascii : ∀ c ∈ text.toList, c.toNat < 0x80) (hspace : ' ' ∉ text.toList)
    (hcolon : (Text.bytes text)[1]? ≠ some colonByte) :
    (parse b.filename).name = b.name ∧ (parse b.filename).extension = b.extension := by
  have hlt := segments_lt_of_ascii (hupper.symm ▸ hascii)
  obtain ⟨hbase, hrest⟩ := hfits
  rw [hupper] at hlt hbase hrest
  obtain ⟨hspaceBase, hspaceRest⟩ := not_or.mp (mt (space_mem_iff text).mpr hspace)
  have hbytes : Text.bytes b.filename =
      joined (shown 8 (segments text).1) (shown 3 (segments text).2) := by
    rw [bytes_filename, shownName, shownExtension, bytes_shownField_of_fill hname hlt.1,
      bytes_shownField_of_fill hextension hlt.2]
  have hkept : Text.upper b.filename = b.filename := by
    apply upper_eq_self_of_bytes hascii hupper
    rw [hbytes]
    exact fun c => mem_of_mem_joined_shown
  have hsecond : (Text.bytes b.filename)[1]? ≠ some colonByte := by
    intro h
    rw [hbytes] at h
    have htyped := getElem?_joined_shown hbase hspaceBase (by decide) (by decide) h
    exact hcolon (getElem?_of_isPrefix (joined_segments_isPrefix text) htyped)
  have hdot : dotByte ∉ shown 8 (segments text).1 := fun h =>
    dot_not_mem_segments text (mem_of_mem_shown h (by decide))
  rw [parse_filename_of_joined hbytes hdot hkept hsecond, ← Vector.toList_inj,
    ← Vector.toList_inj, hname, hextension]
  exact ⟨fill_shown hbase hspaceBase, fill_shown hrest hspaceRest⟩

/-! ## Blocks that hold a name -/

/-- Without its attributes the field holds `run` and spaces after it, and in `run` there is no
space, no star and no lower-case letter. -/
structure Holds {width : Nat} (field : Vector UInt8 width) (run : List UInt8) : Prop where
  plain_eq : field.toList.map plain = padded width run
  typed : ∀ b ∈ run, b ≠ space ∧ b ≠ starByte ∧ ¬(0x61 ≤ b ∧ b ≤ 0x7A)

namespace Holds

variable {width : Nat} {field : Vector UInt8 width} {run : List UInt8}

theorem length_le (h : Holds field run) : run.length ≤ width := by
  have hlength := congrArg List.length h.plain_eq
  simp only [padded, List.length_map, Vector.length_toList, List.length_append,
    List.length_replicate] at hlength
  omega

theorem lt (h : Holds field run) : ∀ b ∈ run, b < 0x80 := by
  intro b hb
  have hmem : b ∈ field.toList.map plain := h.plain_eq ▸ mem_padded_of_mem hb width
  obtain ⟨c, -, rfl⟩ := List.mem_map.mp hmem
  exact plain_lt c

/-- The field shows its run. -/
theorem bytes_shownField (h : Holds field run) : Text.bytes (shownField field) = run := by
  rw [ControlBlock.bytes_shownField, h.plain_eq]
  exact takeWhile_padded width fun hspace => (h.typed _ hspace).1 rfl

/-- Typing the run fills the field with its own bytes, less their attributes. -/
theorem fill_eq (h : Holds field run) : fill width run = field.toList.map plain := by
  have hstar : starByte ∉ run := fun hmem => (h.typed _ hmem).2.1 rfl
  rw [fill_eq_padded h.length_le hstar, h.plain_eq]

end Holds

/-- A block whose fields hold a name without a dot and an extension shows a text that, typed again,
gives both fields back without their attributes, with zeros for all the other bytes. -/
theorem image_parse_filename {b : ControlBlock} {base extension : List UInt8}
    (hname : Holds b.name base) (hextension : Holds b.extension extension) (hdot : dotByte ∉ base)
    (hcolon : (Text.bytes b.filename)[1]? ≠ some colonByte) :
    (parse b.filename).image.toList =
      0 :: (b.name.toList ++ b.extension.toList).map plain ++ List.replicate 24 0 := by
  have hbytes : Text.bytes b.filename = joined base extension := by
    rw [bytes_filename, shownName, shownExtension, hname.bytes_shownField,
      hextension.bytes_shownField]
  have hshown : ∀ c ∈ Text.bytes b.filename, c < 0x80 ∧ ¬(0x61 ≤ c ∧ c ≤ 0x7A) := by
    intro c hc
    rw [hbytes] at hc
    rcases mem_joined hc with hmem | rfl | hmem
    · exact ⟨hname.lt c hmem, (hname.typed c hmem).2.2⟩
    · decide
    · exact ⟨hextension.lt c hmem, (hextension.typed c hmem).2.2⟩
  have hupper : Text.upper b.filename = b.filename :=
    (Text.upper_eq_self_iff fun c hc => (hshown c hc).1).mpr fun c hc => (hshown c hc).2
  have himage : (parse b.filename).image.toList =
      0 :: (fill 8 base ++ fill 3 extension) ++ List.replicate 24 0 := by
    simp only [parse_filename_of_joined hbytes hdot hupper hcolon, image, bytes, toList_field,
      List.cons_append, List.append_assoc]
    rfl
  rw [himage, hname.fill_eq, hextension.fill_eq, List.map_append]

/-- A block that is in use, with attributes on its name and on its extension, and a dot in the
extension. -/
def marked : ControlBlock :=
  { blank with
    drive := 7
    name := #v[0x41, 0x3F, 0xC2, 0x20, 0xA0, 0x20, 0x20, 0x20]
    extension := #v[0x2E, 0xD8, 0x20]
    s2 := 0x85
    cr := 12 }

theorem image_parse_filename_marked :
    Holds marked.name [0x41, 0x3F, 0x42] ∧ Holds marked.extension [0x2E, 0x58] ∧
      dotByte ∉ [0x41, 0x3F, 0x42] ∧ (Text.bytes marked.filename)[1]? ≠ some colonByte ∧
      marked.filename = "A?B..X" ∧
      (parse "A?B..X").image.toList = 0 :: Text.bytes "A?B     .X " ++ List.replicate 24 0 := by
  have hname : Holds marked.name [0x41, 0x3F, 0x42] := ⟨by decide +kernel, by decide +kernel⟩
  have hextension : Holds marked.extension [0x2E, 0x58] := ⟨by decide +kernel, by decide +kernel⟩
  have hshown : marked.filename = "A?B..X" := by decide +kernel
  have hcolon : (Text.bytes marked.filename)[1]? ≠ some colonByte := by decide +kernel
  have himage := image_parse_filename hname hextension (by decide) hcolon
  rw [hshown] at himage
  exact ⟨hname, hextension, by decide, hcolon, hshown, himage.trans (by decide +kernel)⟩

end GuestFiles.ControlBlock
