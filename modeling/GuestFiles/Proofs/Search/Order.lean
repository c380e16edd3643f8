import GuestFiles.Proofs.Host.Order
import GuestFiles.Search.Hit

/-! # The order of hits

Hits are ordered by name, then by path. Where no two hits of a list compare equal, sorting puts them
into the one order in which each is less than all after it, whatever order they came in. -/

namespace GuestFiles

namespace Hit

instance : Std.TransOrd Hit :=
  inferInstanceAs (Std.TransCmp (compareLex (compareOn Hit.name) (compareOn Hit.host)))

/-- Two hits compare equal when they have the same name, and paths of the same components. -/
theorem compare_eq_iff {a b : Hit} :
    compare a b = .eq ↔ a.name = b.name ∧ a.host.components = b.host.components := by
  have hlex : compare a b = .eq ↔ compare a.name b.name = .eq ∧ compare a.host b.host = .eq :=
    compareLex_eq_eq
  rw [hlex, Std.LawfulEqOrd.compare_eq_iff_eq, Host.Path.compare_eq_iff]

theorem isLE_trans (a b c : Hit) (hab : (compare a b).isLE) (hbc : (compare b c).isLE) :
    (compare a c).isLE :=
  Std.TransOrd.isLE_trans hab hbc

theorem isLE_total (a b : Hit) : ((compare a b).isLE || (compare b a).isLE) = true := by
  rw [Std.OrientedOrd.eq_swap (a := b) (b := a)]
  cases compare a b <;> rfl

/-! ## Sorting -/

variable {hits others : List Hit}

theorem sort_perm (hits : List Hit) : (sort hits).Perm hits :=
  List.mergeSort_perm hits _

theorem sort_pairwise (hits : List Hit) :
    (sort hits).Pairwise fun a b => (compare a b).isLE = true :=
  List.pairwise_mergeSort isLE_trans isLE_total hits

theorem pairwise_ne_of_perm (h : hits.Perm others)
    (hne : hits.Pairwise fun a b => compare a b ≠ .eq) :
    others.Pairwise fun a b => compare a b ≠ .eq := by
  refine (h.pairwise_iff ?_).mp hne
  intro a b hab hba
  exact hab (Std.OrientedCmp.eq_symm hba)

/-- Where no two hits compare equal, each sorted hit is less than all after it. -/
theorem sort_strict (hne : hits.Pairwise fun a b => compare a b ≠ .eq) :
    (sort hits).Pairwise fun a b => compare a b = .lt := by
  have hsorted := pairwise_ne_of_perm (sort_perm hits).symm hne
  refine (hsorted.and (sort_pairwise hits)).imp ?_
  rintro a b ⟨hab, hle⟩
  cases h : compare a b with
  | lt => rfl
  | eq => exact absurd h hab
  | gt => simp [h] at hle

/-- Where no two hits compare equal, sorting forgets the order they came in. -/
theorem sort_eq_of_perm (h : hits.Perm others)
    (hne : hits.Pairwise fun a b => compare a b ≠ .eq) : sort hits = sort others := by
  have hsorted : (sort hits).Perm (sort others) :=
    (sort_perm hits).trans (h.trans (sort_perm others).symm)
  refine hsorted.eq_of_pairwise ?_ (sort_strict hne) (sort_strict (pairwise_ne_of_perm h hne))
  intro a b _ _ hab hba
  rw [Std.OrientedOrd.eq_swap, hba] at hab
  cases hab

end Hit

end GuestFiles
