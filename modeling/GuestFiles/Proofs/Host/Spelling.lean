import GuestFiles.Proofs.Host.Order
import Mathlib.Logic.Relation

/-! # Spellings of a path

A path can be spelled in several ways: with more slashes in a row, with a slash or a dot behind its
last name, or with dots between its slashes. Two paths have the same components exactly when one is
such a spelling of the other. -/

namespace GuestFiles.Host.Path

/-! ## What can be left out -/

/-- A path with something left out that makes no difference. -/
inductive Shortens : Path → Path → Prop where
  /-- One of two slashes in a row. -/
  | slash (front rest : List UInt8) :
    Shortens ⟨front ++ slash :: slash :: rest⟩ ⟨front ++ slash :: rest⟩
  /-- A dot between two slashes, and one of the slashes. -/
  | dot (front rest : List UInt8) :
    Shortens ⟨front ++ slash :: (selfName ++ slash :: rest)⟩ ⟨front ++ slash :: rest⟩
  /-- A dot behind the last slash. -/
  | lastDot (front : List UInt8) :
    Shortens ⟨front ++ slash :: selfName⟩ ⟨front ++ [slash]⟩
  /-- A slash at the end, where it is not all of the path. -/
  | lastSlash {front : List UInt8} (h : front ≠ []) :
    Shortens ⟨front ++ [slash]⟩ ⟨front⟩

/-- Two spellings of one path: with such parts left out or put in, one or the other again and again,
each becomes the other. -/
def Respelled : Path → Path → Prop :=
  Relation.EqvGen Shortens

theorem Respelled.trans {a b c : Path} (hab : a.Respelled b) (hbc : b.Respelled c) :
    a.Respelled c :=
  Relation.EqvGen.trans a b c hab hbc

theorem Respelled.symm {a b : Path} (h : a.Respelled b) : b.Respelled a :=
  Relation.EqvGen.symm a b h

theorem Shortens.respelled {a b c : Path} (h : a.Shortens b) (hbc : b.Respelled c) :
    a.Respelled c :=
  Respelled.trans (.rel a b h) hbc

theorem cut_selfName : cut selfName = [selfName] := by
  decide

theorem Shortens.components_eq {a b : Path} (h : a.Shortens b) : a.components = b.components := by
  cases h with
  | slash front rest =>
      rw [components_append_slash, components_append_slash front rest, cut_cons_slash]
      rfl
  | dot front rest =>
      rw [components_append_slash, components_append_slash front rest, cut_append_slash,
        cut_selfName]
      rfl
  | lastDot front =>
      rw [components_append_slash, cut_selfName]
      exact List.append_nil _
  | lastSlash h => exact components_append_singleton_slash h

theorem Respelled.components_eq {a b : Path} (h : a.Respelled b) :
    a.components = b.components := by
  induction h with
  | rel a b h => exact h.components_eq
  | refl a => rfl
  | symm a b _ ih => exact ih.symm
  | trans a b c _ _ hab hbc => exact hab.trans hbc

/-! ## The plain spelling -/

/-- How a component is written. Nothing stands in front of the first slash of an absolute path. -/
def Component.written : Component → Name
  | .root => []
  | .here => selfName
  | .up => parentName
  | .entry name => name

/-- Components with one slash between each two of them. -/
def written (components : List Component) : Path :=
  if components = [.root] then ⟨[slash]⟩ else ⟨[slash].intercalate (components.map (·.written))⟩

/-- A name that is no component is empty or a dot. -/
theorem component?_cases (name : Name) :
    (name = [] ∧ component? name = none) ∨ (name = selfName ∧ component? name = none) ∨
      ∃ c, component? name = some c ∧ c.written = name ∧ c ≠ .root := by
  by_cases hnil : name = []
  · exact .inl ⟨hnil, by simp [component?, hnil]⟩
  by_cases hself : name = selfName
  · exact .inr (.inl ⟨hself, by simp [component?, hself]⟩)
  by_cases hparent : name = parentName
  · subst hparent
    exact .inr (.inr ⟨.up, by decide, rfl, by decide⟩)
  · exact .inr (.inr ⟨.entry name, by simp [component?, hnil, hself, hparent], rfl, by simp⟩)

/-- A slash behind a name stands only where more names follow. -/
theorem respelled_intercalate {front name : List UInt8} (h : front ++ name ≠ [])
    (rest : List Name) :
    Respelled ⟨front ++ name ++ slash :: [slash].intercalate rest⟩
      ⟨front ++ [slash].intercalate (name :: rest)⟩ := by
  cases rest with
  | nil => simpa using (Shortens.lastSlash h).respelled (.refl _)
  | cons next more => simpa [List.intercalate_cons_cons] using .refl _

/-- Behind a slash, all names that are no components can be left out. -/
theorem respelled_names {names : List Name} (h : names ≠ []) (front : List UInt8) :
    Respelled ⟨front ++ slash :: [slash].intercalate names⟩
      ⟨front ++ slash :: [slash].intercalate
        ((names.filterMap component?).map (·.written))⟩ := by
  induction names generalizing front with
  | nil => exact absurd rfl h
  | cons name rest ih =>
      cases rest with
      | nil =>
          rcases component?_cases name with ⟨rfl, hnone⟩ | ⟨rfl, hnone⟩ | ⟨c, hc, hname, -⟩
          · rw [List.filterMap_cons_none hnone]
            simpa using .refl _
          · rw [List.filterMap_cons_none hnone]
            simpa using .rel _ _ (.lastDot front)
          · rw [List.filterMap_cons_some hc]
            simpa [hname] using .refl _
      | cons next more =>
          have hrest := ih (List.cons_ne_nil next more)
          rw [List.intercalate_cons_cons]
          rcases component?_cases name with ⟨rfl, hnone⟩ | ⟨rfl, hnone⟩ | ⟨c, hc, hname, -⟩
          · rw [List.filterMap_cons_none hnone]
            exact (Shortens.slash front _).respelled (hrest front)
          · rw [List.filterMap_cons_none hnone]
            exact (Shortens.dot front _).respelled (hrest front)
          · rw [List.filterMap_cons_some hc, List.map_cons, hname]
            have hne : (front ++ [slash]) ++ name ≠ [] := by simp
            have hname := respelled_intercalate hne
              (((next :: more).filterMap component?).map (·.written))
            have hmore := hrest (front ++ slash :: name)
            simp only [List.append_assoc, List.cons_append] at hname hmore ⊢
            exact hmore.trans hname

theorem written_root (rest : List Component) :
    written (.root :: rest) = ⟨slash :: [slash].intercalate (rest.map (·.written))⟩ := by
  cases rest with
  | nil => rfl
  | cons c rest => simp [written, Component.written, List.intercalate_cons_cons]

theorem written_cons {c : Component} (h : c ≠ .root) (rest : List Component) :
    written (c :: rest) = ⟨[slash].intercalate (c.written :: rest.map (·.written))⟩ := by
  simp [written, h]

/-- The components of a path that begins with a slash. -/
theorem components_of_slash (rest : List UInt8) :
    components ⟨slash :: rest⟩ = .root :: (cut rest).filterMap component? := by
  rw [← List.nil_append (slash :: rest), components_append_slash]
  rfl

/-- The components of a path that begins with a name. -/
theorem exists_components_eq {path : Path} {first : Name} {more : List Name}
    (hnames : path.names = first :: more) (hfirst : first ≠ []) :
    ∃ c, c.written = first ∧ c ≠ .root ∧
      path.components = c :: more.filterMap component? := by
  have habsolute : path.isAbsolute = false := by
    refine Bool.eq_false_iff.mpr fun habsolute => hfirst ?_
    obtain ⟨rest, hrest⟩ : ∃ rest, path.bytes = slash :: rest := by
      simpa [isAbsolute, List.head?_eq_some_iff] using habsolute
    rw [Path.names, hrest, cut_cons_slash] at hnames
    exact (List.cons.inj hnames).1.symm
  rw [components_eq, lead, habsolute, hnames]
  rcases component?_cases first with ⟨hnil, -⟩ | ⟨rfl, hnone⟩ | ⟨c, hc, hname, hroot⟩
  · exact absurd hnil hfirst
  · exact ⟨.here, rfl, by decide, by simp [hnone]⟩
  · have hself : first ≠ selfName := by
      rintro rfl
      cases hc
    exact ⟨c, hname, hroot, by simp [hc, hself]⟩

/-- Every path has its components written plainly as a spelling. -/
theorem respelled_written (path : Path) : path.Respelled (written path.components) := by
  obtain ⟨first, more, hnames⟩ := List.exists_cons_of_ne_nil (cut_ne_nil path.bytes)
  have hbytes : path.bytes = [slash].intercalate (first :: more) := by
    rw [← hnames, cut_eq_splitOn, List.intercalate_splitOn]
  by_cases hfirst : first = []
  · subst hfirst
    cases more with
    | nil =>
        obtain rfl : path = ⟨[]⟩ := congrArg Path.mk hbytes
        exact .refl _
    | cons next more =>
        obtain rfl : path = ⟨slash :: [slash].intercalate (next :: more)⟩ := congrArg Path.mk hbytes
        have hcut : cut ([slash].intercalate (next :: more)) = next :: more := by
          simpa [Path.names, cut_cons_slash] using hnames
        rw [components_of_slash, hcut, written_root]
        exact respelled_names (List.cons_ne_nil next more) []
  · obtain ⟨c, hname, hroot, hcomponents⟩ := exists_components_eq hnames hfirst
    rw [hcomponents, written_cons hroot, hname]
    cases more with
    | nil =>
        obtain rfl : path = ⟨[slash].intercalate [first]⟩ := congrArg Path.mk hbytes
        exact .refl _
    | cons next more =>
        obtain rfl : path = ⟨[slash].intercalate (first :: next :: more)⟩ := congrArg Path.mk hbytes
        rw [List.intercalate_cons_cons]
        have hrest := respelled_names (List.cons_ne_nil next more) first
        have hne : [] ++ first ≠ [] := hfirst
        have hjoin := respelled_intercalate hne
          (((next :: more).filterMap component?).map (·.written))
        simpa using hrest.trans hjoin

/-- Paths have the same components exactly when they are spellings of one path. -/
theorem components_eq_iff {a b : Path} : a.components = b.components ↔ a.Respelled b := by
  constructor
  · intro h
    have hb := respelled_written b
    rw [← h] at hb
    exact (respelled_written a).trans hb.symm
  · exact Respelled.components_eq

end GuestFiles.Host.Path
