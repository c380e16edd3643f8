import GuestFiles.Host.Path

/-! # Paths below a path

The path of an entry is written out of the path of its directory and its name. So the path of what
lies below a directory is the path of the directory followed by the names on the way, and two ways
never lead to one path. -/

namespace GuestFiles.Host

/-- What a host allows as the name of an entry. -/
structure Name.Proper (name : Name) : Prop where
  ne_nil : name ≠ []
  ne_self : name ≠ selfName
  ne_parent : name ≠ parentName
  no_slash : slash ∉ name

instance (name : Name) : Decidable name.Proper :=
  decidable_of_iff (name ≠ [] ∧ name ≠ selfName ∧ name ≠ parentName ∧ slash ∉ name)
    ⟨fun ⟨hnil, hself, hparent, hslash⟩ => ⟨hnil, hself, hparent, hslash⟩,
      fun ⟨hnil, hself, hparent, hslash⟩ => ⟨hnil, hself, hparent, hslash⟩⟩

namespace Path

/-- What stands before the names of the entries of a directory: its path, with a slash after it
unless it is empty or ends with one. -/
def stem (path : Path) : List UInt8 :=
  match path.bytes.getLast? with
  | none => []
  | some last => if last = slash then path.bytes else path.bytes ++ [slash]

/-- The path of what lies below the directory `path`, down the names of `way`. -/
def below (path : Path) (way : List Name) : Path :=
  ⟨path.stem ++ [slash].intercalate way⟩

theorem join_eq_below (path : Path) (name : Name) : path.join name = path.below [name] := by
  rw [join, below, stem, List.intercalate_singleton]
  cases hlast : path.bytes.getLast? with
  | none => simp
  | some last => by_cases hs : last = slash <;> simp [hs]

theorem stem_of_getLast {path : Path} {last : UInt8} (h : path.bytes.getLast? = some last)
    (hs : last ≠ slash) : path.stem = path.bytes ++ [slash] := by
  simp [stem, h, hs]

theorem length_le_length_stem (path : Path) : path.bytes.length ≤ path.stem.length := by
  rw [stem]
  cases hlast : path.bytes.getLast? with
  | none => simp [List.getLast?_eq_none_iff.mp hlast]
  | some last => by_cases hs : last = slash <;> simp [hs]

/-- Below an entry, its name has joined the stem. -/
theorem stem_join (path : Path) {name : Name} (h : name.Proper) :
    (path.join name).stem = path.stem ++ name ++ [slash] := by
  have hbytes : (path.join name).bytes = path.stem ++ name := by
    rw [join_eq_below, below, List.intercalate_singleton]
  have hlast : (path.join name).bytes.getLast? = some (name.getLast h.ne_nil) := by
    rw [hbytes, List.getLast?_append, List.getLast?_eq_some_getLast h.ne_nil, Option.some_or]
  have hs : name.getLast h.ne_nil ≠ slash := fun heq => h.no_slash (heq ▸ List.getLast_mem h.ne_nil)
  rw [stem_of_getLast hlast hs, hbytes]

theorem below_join (path : Path) {name : Name} (h : name.Proper) {way : List Name}
    (hway : way ≠ []) : (path.join name).below way = path.below (name :: way) := by
  rw [below, stem_join path h, below, List.intercalate_cons_of_ne_nil hway]
  simp

/-- Different ways lead to different paths. -/
theorem below_inj {path : Path} {a b : List Name} (ha : ∀ name ∈ a, name.Proper)
    (hb : ∀ name ∈ b, name.Proper) (hane : a ≠ []) (hbne : b ≠ [])
    (h : path.below a = path.below b) : a = b := by
  have hnames : [slash].intercalate a = [slash].intercalate b :=
    List.append_cancel_left (congrArg Path.bytes h)
  calc
    a = ([slash].intercalate a).splitOn slash :=
      (List.splitOn_intercalate slash (fun name hn => (ha name hn).no_slash) hane).symm
    _ = ([slash].intercalate b).splitOn slash := by rw [hnames]
    _ = b := List.splitOn_intercalate slash (fun name hn => (hb name hn).no_slash) hbne

/-! ## Names in a path -/

theorem cut_cons_slash (rest : List UInt8) : cut (slash :: rest) = [] :: cut rest := by
  rw [cut, if_pos rfl]

theorem cut_cons_of_ne {b : UInt8} {rest name : List UInt8} {more : List Name} (hb : b ≠ slash)
    (h : cut rest = name :: more) : cut (b :: rest) = (b :: name) :: more := by
  rw [cut, if_neg hb, h]

/-- The names in a path hold no slash. -/
theorem slash_not_mem_of_mem_cut {bytes name : List UInt8} (h : name ∈ cut bytes) :
    slash ∉ name := by
  induction bytes generalizing name with
  | nil =>
    rw [cut, List.mem_singleton] at h
    simp [h]
  | cons b rest ih =>
    by_cases hb : b = slash
    · rw [cut, if_pos hb] at h
      rcases List.mem_cons.mp h with rfl | h
      · exact List.not_mem_nil
      · exact ih h
    · cases hcut : cut rest with
      | nil =>
        rw [cut, if_neg hb, hcut, List.mem_singleton] at h
        simpa [h] using Ne.symm hb
      | cons first more =>
        rw [hcut] at ih
        rw [cut_cons_of_ne hb hcut] at h
        rcases List.mem_cons.mp h with rfl | h
        · exact List.not_mem_cons_of_ne_of_not_mem (Ne.symm hb) (ih List.mem_cons_self)
        · exact ih (List.mem_cons_of_mem _ h)

end Path

end GuestFiles.Host
