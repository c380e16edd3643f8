import GuestFiles.Proofs.ControlBlock.Typed
import GuestFiles.Proofs.Search.Entry
import GuestFiles.Proofs.Text.Slice

/-! # Names are cut between characters

Typed names, candidates and the names of hits are cut at places among their bytes. The steps of this
file can fail: no byte stands behind the end of a text, a byte less a larger one is no byte, a text
cannot be cut through a character, and a copy has to be as long as the place it goes to. Whatever
the text, none of them does, and they come to what the steps on lists of bytes come to. -/

namespace GuestFiles

open String.Pos.Raw (IsValid)

namespace ControlBlock

/-! ## Typed names -/

/-- The difference of two bytes, none where it is below zero. -/
def minus? (a b : UInt8) : Option UInt8 :=
  if b ≤ a then some (a - b) else none

/-- The drive byte that a typed name asks for by the letter in front of its colon, and the text
behind the colon. -/
def cutDrive? (typed : String) : Option (UInt8 × String) := do
  if 2 ≤ (Text.bytes typed).length then
    let second ← (Text.bytes typed)[1]?
    if second = colonByte then
      let letter ← (Text.bytes typed)[0]?
      let drive ← if 0x41 ≤ letter ∧ letter ≤ 0x5A then minus? letter 0x41 else some 0
      let rest ← Text.from? typed 2
      return (drive, rest)
    else
      return (0, typed)
  else
    return (0, typed)

def cutRetype? (b : ControlBlock) (text : String) : Option ControlBlock := do
  let (drive, rest) ← cutDrive? (Text.upper text)
  let (base, extension) ← Text.cutFirst? dotByte rest
  let named := (b.clear.setDrive drive).setRawName (field 8 (Text.bytes base))
  return named.setRawExtension (field 3 (Text.bytes extension))

theorem exists_cutDrive? (typed : String) :
    ∃ drive rest, cutDrive? typed = some (drive, rest) ∧
      splitDrive (Text.bytes typed) = (drive, Text.bytes rest) := by
  by_cases hcolon : (Text.bytes typed)[1]? = some colonByte
  · obtain ⟨-, -, -, rest, -, hfrom, -, hrest⟩ := Text.cut_of_ascii (by decide) hcolon
    match hbytes : Text.bytes typed, hcolon with
    | letter :: colon :: tail, hcolon =>
      obtain rfl : colon = colonByte := by simpa using hcolon
      rw [hbytes] at hrest
      obtain rfl : Text.bytes rest = tail := hrest
      refine ⟨if 0x41 ≤ letter ∧ letter ≤ 0x5A then letter - 0x41 else 0, rest, ?_, by
        simp [splitDrive]⟩
      by_cases hletter : 0x41 ≤ letter ∧ letter ≤ 0x5A
      · simp [cutDrive?, hbytes, hfrom, minus?, hletter]
      · simp [cutDrive?, hbytes, hfrom, hletter]
  · refine ⟨0, typed, ?_, splitDrive_of_ne hcolon⟩
    by_cases hlength : 2 ≤ (Text.bytes typed).length
    · obtain ⟨second, hsecond⟩ : ∃ second, (Text.bytes typed)[1]? = some second :=
        ⟨_, List.getElem?_eq_getElem hlength⟩
      have hne : second ≠ colonByte := fun heq => hcolon (heq ▸ hsecond)
      simp [cutDrive?, hlength, hsecond, hne]
    · simp [cutDrive?, hlength]

theorem cutRetype?_eq (b : ControlBlock) (text : String) :
    b.cutRetype? text = some (b.retype text) := by
  obtain ⟨drive, rest, hdrive, hsplit⟩ := exists_cutDrive? (Text.upper text)
  obtain ⟨base, extension, hcut, hfirst⟩ :=
    Text.exists_cutFirst? (show dotByte < 0x80 by decide) rest
  simp [cutRetype?, hdrive, hcut, retype, hsplit, hfirst]

/-! ## Candidates -/

/-- A field with `source` copied over its first `count` bytes, none where the field is shorter or
`source` has another length. -/
def overwrite? {width : Nat} (field : Vector UInt8 width) (count : Nat) (source : List UInt8) :
    Option (Vector UInt8 width) :=
  if h : count ≤ width ∧ source.length = count then
    some ⟨(source ++ field.toList.drop count).toArray, by simp; omega⟩
  else
    none

/-- The padded fields of a name, none inside when a segment is too long. -/
def cutFields? (candidate : String) : Option (Option (Vector UInt8 8 × Vector UInt8 3)) := do
  let (base, extension) ← Text.cutFirst? dotByte (Text.upper candidate)
  if 8 < (Text.bytes base).length ∨ 3 < (Text.bytes extension).length then
    return none
  else
    let name ← overwrite? (Vector.replicate 8 space) (Text.bytes base).length (Text.bytes base)
    let extension ← overwrite? (Vector.replicate 3 space) (Text.bytes extension).length
      (Text.bytes extension)
    return some (name, extension)

def cutAccepts? (pattern : ControlBlock) (candidate : String) : Option Bool := do
  match ← cutFields? candidate with
  | some (name, extension) =>
    return agrees pattern.name name && agrees pattern.extension extension
  | none => return false

/-- Copying a segment over spaces is padding it, as long as it fits. -/
theorem overwrite?_spaces (width : Nat) (segment : List UInt8) :
    overwrite? (Vector.replicate width space) segment.length segment = pad? width segment := by
  simp [overwrite?, pad?]

theorem cutFields?_eq (candidate : String) : cutFields? candidate = some (fieldsOf? candidate) := by
  obtain ⟨base, extension, hcut, hfirst⟩ :=
    Text.exists_cutFirst? (show dotByte < 0x80 by decide) (Text.upper candidate)
  by_cases hlong : 8 < (Text.bytes base).length ∨ 3 < (Text.bytes extension).length
  · have hnone : fieldsOf? candidate = none := by
      simp only [fieldsOf?, hfirst]
      rcases hlong with hbase | hextension
      · simp [pad?, Nat.not_le.mpr hbase]
      · cases pad? 8 (Text.bytes base) <;> simp [pad?, Nat.not_le.mpr hextension]
    simp [cutFields?, hcut, hlong, hnone]
  · obtain ⟨hbase, hextension⟩ := not_or.mp hlong
    simp [cutFields?, hcut, hlong, overwrite?_spaces, fieldsOf?, hfirst, pad?,
      Nat.not_lt.mp hbase, Nat.not_lt.mp hextension]

theorem cutAccepts?_eq (pattern : ControlBlock) (candidate : String) :
    pattern.cutAccepts? candidate = some (pattern.accepts candidate) := by
  rw [cutAccepts?, cutFields?_eq, accepts]
  cases fieldsOf? candidate with
  | none => rfl
  | some fields => rfl

end ControlBlock

/-! ## Hits -/

open ControlBlock

def Hit.cutBlock? (hit : Hit) : Option ControlBlock := do
  let (base, extension) ← Text.cutFirst? dotByte hit.name
  let named := (blank.setName base).setExtension extension
  return named.setRc (min hit.records maxEntryRecords).toUInt8

theorem Hit.cutBlock?_eq (hit : Hit) : hit.cutBlock? = some hit.entry := by
  obtain ⟨base, extension, hcut, hfirst⟩ :=
    Text.exists_cutFirst? (show dotByte < 0x80 by decide) hit.name
  have hsegments := segments_ofList hit.name.toList
  rw [String.ofList_toList, segments, hfirst, Prod.mk.injEq, Text.bytes_inj, Text.bytes_inj]
    at hsegments
  simp [cutBlock?, hcut, entry, hsegments]

/-! ## All cuts -/

/-- A typed name in upper case can be cut behind a colon at its second byte, and every text in front
of its first dot and behind it. So typing a name into a block, comparing a candidate with a pattern
and making the entry of a hit never fail: each of their steps succeeds, on any text. -/
theorem cuts_succeed (text : String) :
    ((Text.bytes (Text.upper text))[1]? = some colonByte → IsValid (Text.upper text) ⟨2⟩) ∧
    (∀ place, (Text.bytes text).idxOf? dotByte = some place →
      IsValid text ⟨place⟩ ∧ IsValid text ⟨place + 1⟩) ∧
    (∀ b : ControlBlock, b.cutRetype? text = some (b.retype text)) ∧
    cutFields? text = some (fieldsOf? text) ∧
    (∀ pattern : ControlBlock, pattern.cutAccepts? text = some (pattern.accepts text)) ∧
    ∀ (host : Host.Path) (size : UInt64),
      Hit.cutBlock? ⟨host, text, size⟩ = some (Hit.entry ⟨host, text, size⟩) := by
  refine ⟨fun hcolon => ?_, fun place hplace => ?_, fun b => b.cutRetype?_eq text,
    cutFields?_eq text, fun pattern => pattern.cutAccepts?_eq text,
    fun host size => Hit.cutBlock?_eq ⟨host, text, size⟩⟩
  · obtain ⟨-, hvalid, -⟩ := Text.cut_of_ascii (by decide) hcolon
    exact hvalid
  · obtain ⟨hfront, hback, -⟩ := Text.cut_of_ascii (by decide) (Text.getElem?_of_idxOf? hplace)
    exact ⟨hfront, hback⟩

/-- A name that grows in upper case, with characters of two and three bytes beside its dots. -/
theorem cuts_succeed_long_characters :
    (Text.bytes (Text.upper "b:ß€.é.ö"))[1]? = some colonByte ∧
      IsValid (Text.upper "b:ß€.é.ö") ⟨2⟩ ∧
      (Text.bytes "b:ß€.é.ö").idxOf? dotByte = some 7 ∧
      IsValid "b:ß€.é.ö" ⟨7⟩ ∧ IsValid "b:ß€.é.ö" ⟨8⟩ ∧ ¬IsValid "b:ß€.é.ö" ⟨3⟩ ∧
      (blank.cutRetype? "b:ß€.é.ö").map (fun b => (b.drive, b.name.toList)) =
        some (1, Text.bytes "SS€   ") := by
  obtain ⟨hcolon, hdot, hretype, -⟩ := cuts_succeed "b:ß€.é.ö"
  have hbyte : (Text.bytes (Text.upper "b:ß€.é.ö"))[1]? = some colonByte := by decide +kernel
  have hplace : (Text.bytes "b:ß€.é.ö").idxOf? dotByte = some 7 := by decide +kernel
  obtain ⟨hfront, hback⟩ := hdot 7 hplace
  refine ⟨hbyte, hcolon hbyte, hplace, hfront, hback, by decide +kernel, ?_⟩
  rw [hretype]
  decide +kernel

end GuestFiles
