import GuestFiles.Search.Walk

/-! # Attributes take no part

Of its pattern a search reads the name and the extension, and of their bytes all but the attribute
in bit 7. A block with nothing else left answers every question in the same way. So blocks for which
the same is left cannot be told apart by what they accept and show, nor by what a search finds and
logs. -/

namespace GuestFiles

open Host ControlBlock

namespace ControlBlock

/-- The block with nothing left but its name and its extension, without their attributes. -/
def bare (b : ControlBlock) : ControlBlock :=
  { blank with
    name := b.name.map plain
    extension := b.extension.map plain }

@[simp] theorem plain_plain (b : UInt8) : plain (plain b) = plain b := by
  simp [plain, UInt8.and_assoc]

/-! ## Fields without attributes -/

section Field

variable {width : Nat} {field other : Vector UInt8 width}

@[simp] theorem agrees_map_plain (name : Vector UInt8 width) :
    agrees (field.map plain) name = agrees field name := by
  simp [agrees, Vector.toList_map, List.zip_map_left, List.all_map, Function.comp_def]

@[simp] theorem shownField_map_plain : shownField (field.map plain) = shownField field := by
  simp [shownField, Vector.toList_map, Function.comp_def]

theorem map_plain_eq_iff :
    field.map plain = other.map plain ↔
      ∀ (i : Nat) (_ : i < width), plain field[i] = plain other[i] := by
  simp [Vector.ext_iff]

end Field

/-! ## What a block answers -/

section Answers

variable (b : ControlBlock)

@[simp] theorem accepts_bare (candidate : String) :
    b.bare.accepts candidate = b.accepts candidate := by
  simp only [accepts, bare, agrees_map_plain]

@[simp] theorem examine_bare (candidate : String) :
    b.bare.examine candidate = b.examine candidate := by
  simp only [examine, accepts_bare]

@[simp] theorem hasWildcards_bare : b.bare.hasWildcards = b.hasWildcards := by
  simp [hasWildcards, bare, Vector.toList_map, Function.comp_def]

@[simp] theorem shownName_bare : b.bare.shownName = b.shownName :=
  shownField_map_plain

@[simp] theorem shownExtension_bare : b.bare.shownExtension = b.shownExtension :=
  shownField_map_plain

@[simp] theorem filename_bare : b.bare.filename = b.filename := by
  simp only [filename, shownName_bare, shownExtension_bare]

end Answers

theorem bare_eq_bare_iff {a b : ControlBlock} :
    a.bare = b.bare ↔
      a.name.map plain = b.name.map plain ∧ a.extension.map plain = b.extension.map plain := by
  simp [bare]

/-- The same is left of two blocks exactly when their bytes from 1 to 11 agree up to bit 7. -/
theorem bare_ofImage_eq_iff {v w : Vector UInt8 36} :
    (ofImage v).bare = (ofImage w).bare ↔
      ∀ (i : Nat) (_ : i < 12), 1 ≤ i → plain v[i] = plain w[i] := by
  simp only [bare_eq_bare_iff, map_plain_eq_iff, ofImage, Vector.getElem_ofFn]
  constructor
  · rintro ⟨hname, hextension⟩ i hi hpos
    by_cases hlow : i < 9
    · have hplace : 1 + (i - 1) = i := by omega
      simpa only [hplace] using hname (i - 1) (by omega)
    · have hplace : 9 + (i - 9) = i := by omega
      simpa only [hplace] using hextension (i - 9) (by omega)
  · intro h
    exact ⟨fun i hi => h (1 + i) (by omega) (by omega),
      fun i hi => h (9 + i) (by omega) (by omega)⟩

end ControlBlock

/-! ## What a search does -/

section Search

variable (pattern : ControlBlock) (root : Path)

@[simp] theorem examineFile_bare (file : Listing.FoundFile) :
    examineFile pattern.bare root file = examineFile pattern root file := by
  simp only [examineFile, examine_bare, filename_bare]

/-- File after file the same is answered, and the same is logged. -/
@[simp] theorem examineAll_bare (mets : List Listing.Met) :
    examineAll pattern.bare root mets = examineAll pattern root mets := by
  induction mets with
  | nil => rfl
  | cons met rest ih =>
      cases met with
      | link path depth => exact ih
      | dir path depth => exact ih
      | closed path depth => rfl
      | file file => simp only [examineAll, examineFile_bare, ih]

@[simp] theorem search_bare (host : Host) :
    search pattern.bare root host = search pattern root host := by
  simp only [search, examineAll_bare]

end Search

/-- Two images whose bytes from 1 to 11 agree up to bit 7 are the same as patterns, whatever their
other bytes. They accept the same names and log the same of them, both have a wildcard or neither
has, and they show the same name. Searches for them find the same hits or fail in the same way, and
log the same lines in the same order. -/
theorem search_eq_of_plain_eq {v w : Vector UInt8 36}
    (h : ∀ (i : Nat) (_ : i < 12), 1 ≤ i → plain v[i] = plain w[i]) :
    let a := ofImage v
    let b := ofImage w
    (∀ candidate, a.accepts candidate = b.accepts candidate ∧
      a.examine candidate = b.examine candidate) ∧
    a.hasWildcards = b.hasWildcards ∧
    (a.shownName = b.shownName ∧ a.shownExtension = b.shownExtension ∧ a.filename = b.filename) ∧
    ∀ (root : Path) (host : Host),
      (search a root host).value = (search b root host).value ∧
        (search a root host).log = (search b root host).log := by
  intro a b
  have hbare : a.bare = b.bare := bare_ofImage_eq_iff.mpr h
  refine ⟨fun candidate => ⟨?_, ?_⟩, ?_, ⟨?_, ?_, ?_⟩, fun root host => ?_⟩
  · rw [← a.accepts_bare, hbare, accepts_bare]
  · rw [← a.examine_bare, hbare, examine_bare]
  · rw [← a.hasWildcards_bare, hbare, hasWildcards_bare]
  · rw [← a.shownName_bare, hbare, shownName_bare]
  · rw [← a.shownExtension_bare, hbare, shownExtension_bare]
  · rw [← a.filename_bare, hbare, filename_bare]
  · have hsearch : search a root host = search b root host := by
      rw [← search_bare a, hbare, search_bare]
    exact ⟨congrArg Logged.value hsearch, congrArg Logged.log hsearch⟩

/-- An image with every attribute set, and all other bytes as large as they can be. -/
def loud (v : Vector UInt8 36) : Vector UInt8 36 :=
  Vector.ofFn fun i => if 1 ≤ i.val ∧ i.val < 12 then v[i] ||| 0x80 else 0xFF

/-- Two files in the working directory, looked at under a typed name and under its loud image. -/
theorem search_eq_of_plain_eq_loud :
    let v := (ControlBlock.parse "f*.t").image
    let host := (Disk.around (.file (Text.bytes "foo.t") (.zeros 3)
      (.file (Text.bytes "bar.text") (.zeros 5) .empty))).host
    (∀ (i : Nat) (_ : i < 12), 1 ≤ i → plain v[i] = plain (loud v)[i]) ∧
      (ofImage (loud v)).accepts "FOO.T" = true ∧ (ofImage (loud v)).filename = "F???????.T" ∧
      (search (ofImage (loud v)) ⟨selfName⟩ host).value = .ok [⟨.ofText "./foo.t", "FOO.T", 3⟩] ∧
      (search (ofImage (loud v)) ⟨selfName⟩ host).log =
        [⟨.debug, "./foo.t matches F???????.T"⟩, ⟨.trace, "BAR.TEXT is not an 8.3 name"⟩,
          ⟨.trace, "skip ./bar.text"⟩] := by
  intro v host
  have hplain : ∀ (i : Nat) (_ : i < 12), 1 ≤ i → plain v[i] = plain (loud v)[i] := by
    decide +kernel
  obtain ⟨haccepts, -, ⟨-, -, hshown⟩, hsearch⟩ := search_eq_of_plain_eq hplain
  obtain ⟨hvalue, hlog⟩ := hsearch ⟨selfName⟩ host
  rw [← (haccepts "FOO.T").1, ← hshown, ← hvalue, ← hlog, ofImage_image]
  exact ⟨hplain, by decide +kernel, by decide +kernel, rfl, by decide +kernel⟩

end GuestFiles
