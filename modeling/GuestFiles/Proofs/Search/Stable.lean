import GuestFiles.Proofs.Host.Spelling
import GuestFiles.Proofs.Search.Order
import GuestFiles.Proofs.Text.Order

/-! # Hits in a stable order

The order of hits is a total preorder. Hits that compare equal have the same name, and paths that
are spellings of one path. A sorted list has all hits of the unsorted one, with those that compare
equal in the order they had; no other list in order does. -/

namespace GuestFiles.Hit

variable {a b c : Hit} {hits sorted other : List Hit}

/-! ## Comparisons -/

/-- The bytes of the names decide, then the components of the paths. -/
theorem compare_eq_then (a b : Hit) :
    compare a b = (compare (Text.bytes a.name) (Text.bytes b.name)).then
      (compare a.host.components b.host.components) := by
  rw [← Text.compare_eq_compare_bytes]
  rfl

/-- Hits compare equal when they have the same name, and one path in two spellings. -/
theorem compare_eq_iff_respelled :
    compare a b = .eq ↔ a.name = b.name ∧ a.host.Respelled b.host := by
  rw [compare_eq_iff, Host.Path.components_eq_iff]

theorem compare_eq_of_same (h : a.same b) : compare a b = .eq := by
  simp only [same, Bool.and_eq_true, beq_iff_eq] at h
  exact compare_eq_iff.mpr ⟨h.1.2, h.1.1⟩

theorem compare_trans {outcome : Ordering} (hab : compare a b = outcome)
    (hbc : compare b c = outcome) : compare a c = outcome := by
  cases outcome with
  | lt => exact Std.TransCmp.lt_trans hab hbc
  | eq => exact Std.TransCmp.eq_trans hab hbc
  | gt => exact Std.TransCmp.gt_trans hab hbc

/-! ## Stable sorting -/

/-- The hits of a list that compare equal to a hit, in the order of the list. -/
def tied (hit : Hit) (hits : List Hit) : List Hit :=
  hits.filter fun other => compare hit other = .eq

theorem mem_tied {hit other : Hit} :
    other ∈ tied hit hits ↔ other ∈ hits ∧ compare hit other = .eq := by
  simp [tied]

theorem tied_cons_of_eq (h : compare a b = .eq) (hits : List Hit) :
    tied a (b :: hits) = b :: tied a hits := by
  simp [tied, h]

theorem tied_cons_of_ne (h : compare a b ≠ .eq) (hits : List Hit) :
    tied a (b :: hits) = tied a hits := by
  simp [tied, h]

/-- A list with the hits of another in order. Those that compare equal have the order they had. -/
structure Sorts (hits sorted : List Hit) : Prop where
  perm : sorted.Perm hits
  ordered : sorted.Pairwise fun a b => (compare a b).isLE = true
  stable (hit : Hit) : tied hit sorted = tied hit hits

theorem tied_pairwise (hit : Hit) (hits : List Hit) :
    (tied hit hits).Pairwise fun a b => (compare a b).isLE = true := by
  apply List.pairwise_of_forall_mem_list
  intro a ha b hb
  have hab : compare a b = .eq :=
    Std.TransCmp.eq_trans (Std.OrientedCmp.eq_symm (mem_tied.mp ha).2) (mem_tied.mp hb).2
  rw [hab]
  rfl

/-- Tied hits are in order as they stand, so sorting leaves them so. -/
theorem tied_sort (hit : Hit) (hits : List Hit) : tied hit (sort hits) = tied hit hits := by
  have hsub : (tied hit hits).Sublist (sort hits) :=
    List.sublist_mergeSort isLE_trans isLE_total (tied_pairwise hit hits) List.filter_sublist
  have htied : (tied hit (tied hit hits)).Sublist (tied hit (sort hits)) := hsub.filter _
  have hself : tied hit (tied hit hits) = tied hit hits :=
    List.filter_eq_self.mpr fun _ hmem => (List.mem_filter.mp hmem).2
  have hlength : (tied hit (sort hits)).length = (tied hit hits).length :=
    ((sort_perm hits).filter _).length_eq
  rw [hself] at htied
  exact (htied.eq_of_length hlength.symm).symm

theorem sorts_sort (hits : List Hit) : Sorts hits (sort hits) :=
  ⟨sort_perm hits, sort_pairwise hits, fun hit => tied_sort hit hits⟩

/-- The first hit of an ordered list is no greater than any that is in the list. -/
theorem isLE_of_mem (h : (a :: hits).Pairwise fun a b => (compare a b).isLE = true)
    (hmem : b ∈ a :: hits) : (compare a b).isLE := by
  rcases List.mem_cons.mp hmem with rfl | hmem
  · rw [Std.ReflOrd.compare_self]
    rfl
  · exact List.rel_of_pairwise_cons h hmem

theorem mem_of_tied_eq (h : ∀ hit, tied hit sorted = tied hit other) (hmem : a ∈ sorted) :
    a ∈ other := by
  have htied : a ∈ tied a sorted := mem_tied.mpr ⟨hmem, Std.ReflOrd.compare_self⟩
  rw [h a] at htied
  exact (mem_tied.mp htied).1

/-- Ordered lists are equal when they have the same ties. -/
theorem eq_of_tied_eq (hsorted : sorted.Pairwise fun a b => (compare a b).isLE = true)
    (hother : other.Pairwise fun a b => (compare a b).isLE = true)
    (h : ∀ hit, tied hit sorted = tied hit other) : sorted = other := by
  induction sorted generalizing other with
  | nil =>
      refine (List.eq_nil_iff_forall_not_mem.mpr fun a hmem => ?_).symm
      exact List.not_mem_nil (mem_of_tied_eq (fun hit => (h hit).symm) hmem)
  | cons a sorted ih =>
      cases other with
      | nil => exact absurd (mem_of_tied_eq h List.mem_cons_self) List.not_mem_nil
      | cons b other =>
          have hab := isLE_of_mem hsorted
            (mem_of_tied_eq (fun hit => (h hit).symm) List.mem_cons_self)
          have hba := isLE_of_mem hother (mem_of_tied_eq h List.mem_cons_self)
          have heq : compare a b = .eq := Std.OrientedCmp.isLE_antisymm hab hba
          have hfirst := h a
          rw [tied_cons_of_eq Std.ReflOrd.compare_self, tied_cons_of_eq heq] at hfirst
          obtain rfl := (List.cons.inj hfirst).1
          refine congrArg (a :: ·) (ih hsorted.tail hother.tail fun hit => ?_)
          by_cases hhit : compare hit a = .eq
          · have htied := h hit
            rw [tied_cons_of_eq hhit, tied_cons_of_eq hhit] at htied
            exact (List.cons.inj htied).2
          · have htied := h hit
            rwa [tied_cons_of_ne hhit, tied_cons_of_ne hhit] at htied

theorem Sorts.unique (h : Sorts hits sorted) (hother : Sorts hits other) : sorted = other :=
  eq_of_tied_eq h.ordered hother.ordered fun hit => (h.stable hit).trans (hother.stable hit).symm

theorem eq_sort_iff : sorted = sort hits ↔ Sorts hits sorted := by
  constructor
  · rintro rfl
    exact sorts_sort hits
  · intro h
    exact h.unique (sorts_sort hits)

/-! ## The order of hits -/

/-- The order of hits is a total preorder: seen from the other side it is reversed, and an outcome
that goes from hit to hit goes on. The bytes of the names decide, then the components of the paths.
Hits compare equal exactly when they have one name and one path, in whatever spellings and sizes, so
hits that are the same compare equal. Sorting gives the one list in order that has the same hits,
with those that compare equal in the order they had. -/
theorem compare_preorder (a b c : Hit) (hits sorted : List Hit) :
    compare a b = (compare (Text.bytes a.name) (Text.bytes b.name)).then
        (compare a.host.components b.host.components) ∧
      compare b a = (compare a b).swap ∧
      (∀ outcome, compare a b = outcome → compare b c = outcome → compare a c = outcome) ∧
      ((compare a b).isLE → (compare b c).isLE → (compare a c).isLE) ∧
      (compare a b = .eq ↔ a.name = b.name ∧ a.host.Respelled b.host) ∧
      (a.same b → compare a b = .eq) ∧
      (sorted = sort hits ↔ Sorts hits sorted) := by
  refine ⟨compare_eq_then a b, Std.OrientedOrd.eq_swap, ?_, isLE_trans a b c,
    compare_eq_iff_respelled, compare_eq_of_same, eq_sort_iff⟩
  intro outcome hab hbc
  exact compare_trans hab hbc

/-- Hits of two spellings of one path tie, and come before another path and another name. -/
theorem compare_preorder_spellings :
    compare (α := Hit) ⟨.ofText "r//a/./b", "X.COM", 1⟩ ⟨.ofText "r/a/b/.", "X.COM", 2⟩ = .eq ∧
      (Host.Path.ofText "r//a/./b").Respelled (.ofText "r/a/b/.") ∧
      compare (α := Hit) ⟨.ofText "r//a/./b", "X.COM", 1⟩ ⟨.ofText "r/a.b", "X.COM", 3⟩ = .lt ∧
      compare (α := Hit) ⟨.ofText "r/a.b", "X.COM", 3⟩ ⟨.ofText "r/a", "Y.COM", 0⟩ = .lt ∧
      compare (α := Hit) ⟨.ofText "r//a/./b", "X.COM", 1⟩ ⟨.ofText "r/a", "Y.COM", 0⟩ = .lt := by
  obtain ⟨-, -, -, -, htied, -, -⟩ := compare_preorder ⟨.ofText "r//a/./b", "X.COM", 1⟩
    ⟨.ofText "r/a/b/.", "X.COM", 2⟩ ⟨.ofText "r/a", "Y.COM", 0⟩ [] []
  obtain ⟨-, -, htrans, -, -, -, -⟩ := compare_preorder ⟨.ofText "r//a/./b", "X.COM", 1⟩
    ⟨.ofText "r/a.b", "X.COM", 3⟩ ⟨.ofText "r/a", "Y.COM", 0⟩ [] []
  have heq : compare (α := Hit) ⟨.ofText "r//a/./b", "X.COM", 1⟩
    ⟨.ofText "r/a/b/.", "X.COM", 2⟩ = .eq := by decide +kernel
  have hpaths : compare (α := Hit) ⟨.ofText "r//a/./b", "X.COM", 1⟩
    ⟨.ofText "r/a.b", "X.COM", 3⟩ = .lt := by decide +kernel
  have hnames : compare (α := Hit) ⟨.ofText "r/a.b", "X.COM", 3⟩
    ⟨.ofText "r/a", "Y.COM", 0⟩ = .lt := by decide +kernel
  exact ⟨heq, (htied.mp heq).2, hpaths, hnames, htrans .lt hpaths hnames⟩

end GuestFiles.Hit
