import GuestFiles.Proofs.Host.Path
import Mathlib.Tactic.SplitIfs

/-! # The order of paths

Paths compare by their components. The components of what lies below a path are those of the path,
followed by the names on the way, however the path is written. So two ways down from one path lead
to paths that do not compare equal. -/

namespace GuestFiles.Host

namespace Path

/-! ## Names -/

theorem cut_eq_splitOn (bytes : List UInt8) : cut bytes = bytes.splitOn slash := by
  induction bytes with
  | nil => simp [cut]
  | cons b rest ih =>
      rw [cut, ih, List.splitOn_cons_eq_if_modifyHead]
      by_cases hb : b = slash
      · simp [hb]
      · obtain ⟨name, more, hcut⟩ :=
          List.exists_cons_of_ne_nil (List.splitOn_ne_nil slash rest)
        simp [hb, hcut]

theorem cut_ne_nil (bytes : List UInt8) : cut bytes ≠ [] := by
  rw [cut_eq_splitOn]
  exact List.splitOn_ne_nil slash bytes

/-- A slash parts the names before it from those after it. -/
theorem cut_append_slash (front rest : List UInt8) :
    cut (front ++ slash :: rest) = cut front ++ cut rest := by
  simp only [cut_eq_splitOn, List.splitOn_append_cons_self]

theorem cut_intercalate {way : List Name} (h : ∀ name ∈ way, name.Proper) (hway : way ≠ []) :
    cut ([slash].intercalate way) = way := by
  rw [cut_eq_splitOn]
  exact List.splitOn_intercalate slash (fun name hname => (h name hname).no_slash) hway

/-! ## Components -/

theorem component?_of_proper {name : Name} (h : name.Proper) :
    component? name = some (.entry name) := by
  simp [component?, h.ne_nil, h.ne_self, h.ne_parent]

theorem filterMap_component? {way : List Name} (h : ∀ name ∈ way, name.Proper) :
    way.filterMap component? = way.map .entry := by
  induction way with
  | nil => rfl
  | cons name way ih =>
      obtain ⟨hname, hrest⟩ := List.forall_mem_cons.mp h
      rw [List.filterMap_cons, component?_of_proper hname, ih hrest, List.map_cons]

/-- The component that stands for the first character of a path, when it makes a difference. -/
def lead (path : Path) : List Component :=
  if path.isAbsolute then [.root] else if path.names.head? = some selfName then [.here] else []

theorem components_eq (path : Path) :
    path.components = path.lead ++ path.names.filterMap component? := by
  simp only [components, lead]
  split_ifs <;> rfl

/-- How a path goes on behind a slash does not change how it begins. -/
theorem lead_append_slash (front rest : List UInt8) :
    lead ⟨front ++ slash :: rest⟩ = lead ⟨front ++ [slash]⟩ := by
  have habsolute : isAbsolute ⟨front ++ slash :: rest⟩ = isAbsolute ⟨front ++ [slash]⟩ := by
    simp [isAbsolute]
  obtain ⟨name, more, hcut⟩ := List.exists_cons_of_ne_nil (cut_ne_nil front)
  simp only [lead, habsolute, Path.names, cut_append_slash, hcut, List.cons_append,
    List.head?_cons]

theorem lead_append_singleton_slash {front : List UInt8} (h : front ≠ []) :
    lead ⟨front ++ [slash]⟩ = lead ⟨front⟩ := by
  have habsolute : isAbsolute ⟨front ++ [slash]⟩ = isAbsolute ⟨front⟩ := by
    obtain ⟨b, more, rfl⟩ := List.exists_cons_of_ne_nil h
    rfl
  obtain ⟨name, more, hcut⟩ := List.exists_cons_of_ne_nil (cut_ne_nil front)
  simp only [lead, habsolute, Path.names, cut_append_slash, hcut, List.cons_append,
    List.head?_cons]

/-- Behind a slash a path has the components of its further names. -/
theorem components_append_slash (front rest : List UInt8) :
    components ⟨front ++ slash :: rest⟩ =
      components ⟨front ++ [slash]⟩ ++ (cut rest).filterMap component? := by
  simp only [components_eq, lead_append_slash front rest, Path.names, cut_append_slash,
    List.filterMap_append, List.append_assoc]
  simp [cut, component?]

/-- A slash at the end makes no difference. -/
theorem components_append_singleton_slash {front : List UInt8} (h : front ≠ []) :
    components ⟨front ++ [slash]⟩ = components ⟨front⟩ := by
  simp only [components_eq, lead_append_singleton_slash h, Path.names, cut_append_slash,
    List.filterMap_append]
  simp [cut, component?]

/-- The stem of a path that is not empty is the path as it is written with a slash at its end. -/
theorem exists_stem {path : Path} (h : path.bytes ≠ []) :
    ∃ front, path.stem = front ++ [slash] ∧ components ⟨front ++ [slash]⟩ = path.components := by
  cases hlast : path.bytes.getLast? with
  | none => exact absurd (List.getLast?_eq_none_iff.mp hlast) h
  | some last =>
      by_cases hs : last = slash
      · obtain ⟨front, hfront⟩ := List.getLast?_eq_some_iff.mp (hs ▸ hlast)
        have hstem : path.stem = path.bytes := by
          simp [stem, hlast, hs]
        exact ⟨front, by rw [hstem, hfront], by rw [← hfront]⟩
      · exact ⟨path.bytes, stem_of_getLast hlast hs, components_append_singleton_slash h⟩

/-- A way alone is a path of its names. -/
theorem components_intercalate {way : List Name} (h : ∀ name ∈ way, name.Proper)
    (hway : way ≠ []) : components ⟨[slash].intercalate way⟩ = way.map .entry := by
  have hcut : cut ([slash].intercalate way) = way := cut_intercalate h hway
  obtain ⟨name, more, rfl⟩ := List.exists_cons_of_ne_nil hway
  have hname : name.Proper := h name List.mem_cons_self
  obtain ⟨b, rest, rfl⟩ := List.exists_cons_of_ne_nil hname.ne_nil
  have hb : b ≠ slash := fun heq => hname.no_slash (heq ▸ List.mem_cons_self)
  have habsolute : isAbsolute ⟨[slash].intercalate ((b :: rest) :: more)⟩ = false := by
    cases more <;> simp [isAbsolute, List.intercalate_cons_cons, hb]
  rw [components_eq, lead, habsolute, Path.names, hcut, filterMap_component? h]
  simp [hname.ne_self]

/-- Down from a path, its components go on with the names on the way. -/
theorem components_below (path : Path) {way : List Name} (h : ∀ name ∈ way, name.Proper)
    (hway : way ≠ []) : (path.below way).components = path.components ++ way.map .entry := by
  by_cases hnil : path.bytes = []
  · have hstem : path.stem = [] := by
      simp [stem, hnil]
    have hpath : path.components = [] := by
      simp [components_eq, lead, isAbsolute, Path.names, hnil, cut, component?]
    rw [below, hstem, List.nil_append, components_intercalate h hway, hpath, List.nil_append]
  · obtain ⟨front, hstem, hfront⟩ := exists_stem hnil
    rw [below, hstem, List.append_assoc, List.singleton_append, components_append_slash, hfront,
      cut_intercalate h hway, filterMap_component? h]

/-- Different ways down from a path lead to different components. -/
theorem components_below_inj {path : Path} {a b : List Name} (ha : ∀ name ∈ a, name.Proper)
    (hb : ∀ name ∈ b, name.Proper) (hane : a ≠ []) (hbne : b ≠ [])
    (h : (path.below a).components = (path.below b).components) : a = b := by
  rw [components_below path ha hane, components_below path hb hbne] at h
  exact (List.map_inj_right fun _ _ => Component.entry.inj).mp (List.append_cancel_left h)

theorem components_join (path : Path) {name : Name} (h : name.Proper) :
    (path.join name).components = path.components ++ [.entry name] := by
  rw [join_eq_below, components_below path (by simpa using h) (List.cons_ne_nil name []),
    List.map_singleton]

theorem lastName_join (path : Path) {name : Name} (h : name.Proper) :
    (path.join name).lastName = name := by
  rw [lastName, components_join path h, List.getLast?_concat]

/-- A path that names the place of `base` or a place below it. -/
def Within (path base : Path) : Prop :=
  base.components <+: path.components

instance (path base : Path) : Decidable (path.Within base) :=
  inferInstanceAs (Decidable (_ <+: _))

/-- What lies within an entry is what is reached on a way that starts with its name. -/
theorem below_within_join_iff (path : Path) {name : Name} (hname : name.Proper) {way : List Name}
    (h : ∀ other ∈ way, other.Proper) (hway : way ≠ []) :
    (path.below way).Within (path.join name) ↔ way.head? = some name := by
  rw [Within, components_join path hname, components_below path h hway,
    List.prefix_append_right_inj]
  obtain ⟨first, rest, rfl⟩ := List.exists_cons_of_ne_nil hway
  simp [List.cons_prefix_cons, eq_comm]

/-! ## Order -/

instance : Std.TransOrd Component :=
  inferInstanceAs (Std.TransCmp (compareLex (compareOn Component.rank) (compareOn Component.bytes)))

instance : Std.LawfulEqOrd Component where
  eq_of_compare {a b} h := by
    obtain ⟨hrank, hbytes⟩ : compare a.rank b.rank = .eq ∧ compare a.bytes b.bytes = .eq :=
      compareLex_eq_eq.mp h
    rw [Std.LawfulEqOrd.compare_eq_iff_eq] at hrank hbytes
    cases a <;> cases b <;> simp_all [Component.rank, Component.bytes]

end Path

instance : Std.TransOrd Path :=
  inferInstanceAs (Std.TransCmp (compareOn Path.components))

/-- Two paths compare equal when they have the same components. -/
theorem Path.compare_eq_iff {a b : Path} : compare a b = .eq ↔ a.components = b.components :=
  Std.LawfulEqOrd.compare_eq_iff_eq (α := List Component)

end GuestFiles.Host
