import GuestFiles.Proofs.Text.Utf8
import GuestFiles.Text.Uppercase

/-! # Upper-casing twice, and what it leaves alone

Upper-casing maps every character to characters that it keeps, so doing it twice is doing it once.
An ASCII character in the result is a capital letter or was there before: marks such as dots,
colons, stars and question marks neither come nor go. -/

namespace GuestFiles.Text

/-! ## The tables -/

/-- The last upper-case letter of a run. -/
def CaseRun.targetLast (r : CaseRun) : Nat :=
  r.target + (r.last - r.first)

/-- Whether the bounds and the steps of two runs already show that no upper-case letter of `r` is a
letter of `s`. -/
def CaseRun.apart (r s : CaseRun) : Bool :=
  Nat.blt r.targetLast s.first || Nat.blt s.last r.target ||
    (s.step == 2 && (r.step == 2 || r.first == r.last) && (r.target + s.first) % 2 == 1)

theorem CaseRun.map?_eq_some_iff {r : CaseRun} {code t : Nat} :
    r.map? code = some t ↔
      (r.first ≤ code ∧ code ≤ r.last ∧ (code - r.first) % r.step = 0) ∧
        r.target + (code - r.first) = t := by
  simp [CaseRun.map?]

theorem CaseRun.map?_eq_none_of_apart {r s : CaseRun} (h : r.apart s) {code t : Nat}
    (ht : r.map? code = some t) : s.map? t = none := by
  obtain ⟨⟨hfirst, hlast, hstep⟩, rfl⟩ := map?_eq_some_iff.mp ht
  rw [Option.eq_none_iff_forall_ne_some]
  intro u hu
  obtain ⟨⟨hsfirst, hslast, hsstep⟩, -⟩ := map?_eq_some_iff.mp hu
  simp only [apart, targetLast, Bool.or_eq_true, Bool.and_eq_true, Nat.blt_eq, beq_iff_eq] at h
  rcases h with (h | h) | ⟨⟨h, hr | hr⟩, hparity⟩
  · omega
  · omega
  · rw [h] at hsstep
    rw [hr] at hstep
    omega
  · rw [h] at hsstep
    omega

theorem caseRuns_apart : (caseRuns.all fun r => caseRuns.all fun s => r.apart s) = true := by
  decide +kernel

theorem caseRuns_apart_expansions :
    (caseRuns.all fun r => caseExpansions.all fun e =>
      Nat.blt e.1 r.target || Nat.blt r.targetLast e.1) = true := by
  decide +kernel

theorem caseRuns_targets : ∀ r ∈ caseRuns,
    0x41 ≤ r.target ∧ r.targetLast ≤ 0x5A ∨ 0x80 ≤ r.target ∧ r.targetLast < 0xD800 ∨
      0xE000 ≤ r.target ∧ r.targetLast < 0x110000 := by
  decide +kernel

theorem caseExpansions_targets : ∀ e ∈ caseExpansions, ∀ t ∈ e.2,
    0x41 ≤ t ∧ t ≤ 0x5A ∨ 0x80 ≤ t ∧ t < 0xD800 := by
  decide +kernel

theorem upperCodes_caseExpansions : ∀ e ∈ caseExpansions, ∀ t ∈ e.2, upperCodes t = [t] := by
  decide +kernel

/-- Where an upper-case code point comes from. -/
theorem mem_upperCodes {code t : Nat} (h : t ∈ upperCodes code) :
    (∃ e ∈ caseExpansions, t ∈ e.2) ∨ (∃ r ∈ caseRuns, r.map? code = some t) ∨
      t = code ∧ upperCodes code = [code] := by
  cases hlookup : caseExpansions.lookup code with
  | some codes =>
      left
      obtain ⟨front, rest, heq, -⟩ := List.lookup_eq_some_iff.mp hlookup
      refine ⟨(code, codes), by simp [heq], ?_⟩
      simpa [upperCodes, hlookup] using h
  | none =>
      right
      cases hrun : caseRuns.findSome? (·.map? code) with
      | some u =>
          have htu : t = u := by simpa [upperCodes, hlookup, hrun] using h
          obtain ⟨r, hr, hmap⟩ := List.exists_of_findSome?_eq_some hrun
          exact .inl ⟨r, hr, htu ▸ hmap⟩
      | none =>
          have hcode : upperCodes code = [code] := by simp [upperCodes, hlookup, hrun]
          rw [hcode, List.mem_singleton] at h
          exact .inr ⟨h, hcode⟩

theorem upperCodes_of_mem {code t : Nat} (h : t ∈ upperCodes code) : upperCodes t = [t] := by
  rcases mem_upperCodes h with ⟨e, he, ht⟩ | ⟨r, hr, hmap⟩ | ⟨rfl, hcode⟩
  · exact upperCodes_caseExpansions e he t ht
  · have hlookup : caseExpansions.lookup t = none := by
      rw [List.lookup_eq_none_iff]
      intro e he
      have hapart := List.all_eq_true.mp (List.all_eq_true.mp caseRuns_apart_expansions r hr) e he
      obtain ⟨⟨hfirst, hlast, -⟩, rfl⟩ := CaseRun.map?_eq_some_iff.mp hmap
      simp only [CaseRun.targetLast, Bool.or_eq_true, Nat.blt_eq] at hapart
      rw [bne_iff_ne]
      omega
    have hrun : caseRuns.findSome? (·.map? t) = none := by
      rw [List.findSome?_eq_none_iff]
      intro s hs
      have hapart := List.all_eq_true.mp (List.all_eq_true.mp caseRuns_apart r hr) s hs
      exact CaseRun.map?_eq_none_of_apart hapart hmap
    simp [upperCodes, hlookup, hrun]
  · exact hcode

/-- An upper-case code point is a capital ASCII letter, lies outside ASCII, or was there before. -/
theorem mem_upperCodes_range {code t : Nat} (h : t ∈ upperCodes code) :
    t = code ∨ 0x41 ≤ t ∧ t ≤ 0x5A ∨ 0x80 ≤ t ∧ t.isValidChar := by
  rcases mem_upperCodes h with ⟨e, he, ht⟩ | ⟨r, hr, hmap⟩ | ⟨rfl, -⟩
  · right
    rcases caseExpansions_targets e he t ht with hcap | ⟨hlow, hhigh⟩
    · exact .inl hcap
    · exact .inr ⟨hlow, .inl hhigh⟩
  · right
    obtain ⟨⟨hfirst, hlast, -⟩, rfl⟩ := CaseRun.map?_eq_some_iff.mp hmap
    have hrange := caseRuns_targets r hr
    simp only [CaseRun.targetLast, Nat.isValidChar] at hrange ⊢
    omega
  · exact .inl rfl

/-! ## Characters -/

theorem upperChar_of_ascii {c : Char} (h : c.toNat < 0x80) : upperChar c = [c.toUpper] :=
  if_pos h

/-- Upper-casing an ASCII character gives one that is a capital letter or was there before, and that
stays as it is. -/
theorem toUpper_of_ascii {c : Char} (h : c.toNat < 0x80) :
    c.toUpper.toNat < 0x80 ∧ c.toUpper.toUpper = c.toUpper ∧
      (c.toUpper = c ∨ c.isAlpha ∧ c.toUpper.isUpper) := by
  have hall : ∀ n < 0x80,
      (Char.ofNat n).toUpper.toNat < 0x80 ∧
        (Char.ofNat n).toUpper.toUpper = (Char.ofNat n).toUpper ∧
        ((Char.ofNat n).toUpper = Char.ofNat n ∨
          (Char.ofNat n).isAlpha ∧ (Char.ofNat n).toUpper.isUpper) := by
    decide
  have hc := hall c.toNat h
  rwa [Char.ofNat_toNat] at hc

theorem isUpper_of_range {n : Nat} (h : 0x41 ≤ n ∧ n ≤ 0x5A) :
    (Char.ofNat n).toNat < 0x80 ∧ (Char.ofNat n).isUpper ∧
      (Char.ofNat n).toUpper = Char.ofNat n := by
  have hall : ∀ n ≤ 0x5A, 0x41 ≤ n → (Char.ofNat n).toNat < 0x80 ∧ (Char.ofNat n).isUpper ∧
      (Char.ofNat n).toUpper = Char.ofNat n := by
    decide
  exact hall n h.2 h.1

theorem toNat_ofNat_of_valid {n : Nat} (h : n.isValidChar) : (Char.ofNat n).toNat = n := by
  rw [Char.ofNat, dif_pos h]
  rfl

/-- A character that comes out of upper-casing is an ASCII character in upper case, a capital letter
of ASCII, or lies outside ASCII. -/
theorem mem_upperChar {c d : Char} (hd : d ∈ upperChar c) :
    (c.toNat < 0x80 ∧ d = c.toUpper) ∨ (d.toNat < 0x80 ∧ d.isUpper ∧ d.toUpper = d) ∨
      (¬d.toNat < 0x80 ∧ upperCodes d.toNat = [d.toNat]) := by
  by_cases hc : c.toNat < 0x80
  · rw [upperChar_of_ascii hc, List.mem_singleton] at hd
    exact .inl ⟨hc, hd⟩
  · rw [upperChar, if_neg hc, List.mem_map] at hd
    obtain ⟨t, ht, rfl⟩ := hd
    right
    have hkept := upperCodes_of_mem ht
    rcases mem_upperCodes_range ht with rfl | hcap | ⟨hlow, hvalid⟩
    · rw [Char.ofNat_toNat]
      exact .inr ⟨hc, hkept⟩
    · exact .inl (isUpper_of_range hcap)
    · rw [toNat_ofNat_of_valid hvalid]
      exact .inr ⟨Nat.not_lt.mpr hlow, hkept⟩

/-- What upper-casing gives is kept by upper-casing. -/
theorem upperChar_of_mem {c d : Char} (hd : d ∈ upperChar c) : upperChar d = [d] := by
  rcases mem_upperChar hd with ⟨hc, rfl⟩ | ⟨hlow, hcap⟩ | ⟨hhigh, hkept⟩
  · obtain ⟨hlow, htwice, -⟩ := toUpper_of_ascii hc
    rw [upperChar_of_ascii hlow, htwice]
  · rw [upperChar_of_ascii hlow, hcap.2]
  · rw [upperChar, if_neg hhigh, hkept, List.map_singleton, Char.ofNat_toNat]

/-- A mark is an ASCII character that is no letter. -/
structure IsMark (mark : Char) : Prop where
  ascii : mark.toNat < 0x80
  not_alpha : mark.isAlpha = false

/-- Marks stay as they are. -/
theorem upperChar_mark {mark : Char} (h : IsMark mark) : upperChar mark = [mark] := by
  rcases (toUpper_of_ascii h.ascii).2.2 with hsame | ⟨halpha, -⟩
  · rw [upperChar_of_ascii h.ascii, hsame]
  · exact absurd halpha (by simp [h.not_alpha])

/-- Marks neither come nor go. -/
theorem mem_upperChar_iff {mark c : Char} (h : IsMark mark) : mark ∈ upperChar c ↔ c = mark := by
  have hupper : ¬mark.isUpper := by
    have halpha : (mark.isUpper || mark.isLower) = false := h.not_alpha
    rw [Bool.or_eq_false_iff] at halpha
    simp [halpha.1]
  constructor
  · intro hmem
    rcases mem_upperChar hmem with ⟨hc, heq⟩ | ⟨-, hcap, -⟩ | ⟨hhigh, -⟩
    · rcases (toUpper_of_ascii hc).2.2 with hsame | ⟨-, hcap⟩
      · rw [heq, hsame]
      · exact absurd (heq ▸ hcap) hupper
    · exact absurd hcap hupper
    · exact absurd h.ascii hhigh
  · rintro rfl
    rw [upperChar_mark h]
    exact List.mem_singleton_self _

/-! ## Texts -/

/-- Cutting a text at a mark and upper-casing it can change places. -/
theorem splitFirst_upper {mark : Char} (h : IsMark mark) (text : String) :
    splitFirst mark (upper text).toList =
      ((splitFirst mark text.toList).1.flatMap upperChar,
        (splitFirst mark text.toList).2.flatMap upperChar) := by
  rw [toList_upper]
  exact splitFirst_flatMap (fun _ => mem_upperChar_iff h) (upperChar_mark h) text.toList

theorem upper_ofList_of_kept {cs : List Char} (h : ∀ c ∈ cs, upperChar c = [c]) :
    upper (String.ofList cs) = String.ofList cs := by
  induction cs with
  | nil => rfl
  | cons c cs ih =>
      have hc := h c List.mem_cons_self
      have hcs := ih fun d hd => h d (List.mem_cons_of_mem c hd)
      simp only [upper, String.toList_ofList, String.ofList_inj] at hcs ⊢
      rw [List.flatMap_cons, hc, hcs]
      rfl

/-- Every character of an upper-case text is kept by upper-casing. -/
theorem upperChar_of_mem_upper {text : String} {c : Char} (h : c ∈ (upper text).toList) :
    upperChar c = [c] := by
  rw [toList_upper, List.mem_flatMap] at h
  obtain ⟨d, -, hc⟩ := h
  exact upperChar_of_mem hc

@[simp] theorem upper_upper (text : String) : upper (upper text) = upper text := by
  have h := upper_ofList_of_kept fun c (hc : c ∈ (upper text).toList) => upperChar_of_mem_upper hc
  rwa [String.ofList_toList] at h

theorem mem_upper_iff {mark : Char} (h : IsMark mark) (text : String) :
    mark ∈ (upper text).toList ↔ mark ∈ text.toList := by
  simp [List.mem_flatMap, mem_upperChar_iff h]

theorem bytes_upper_cons_of_ascii {c : Char} (h : c.toNat < 0x80) (cs : List Char) :
    bytes (upper (String.ofList (c :: cs))) =
      c.toUpper.toNat.toUInt8 :: bytes (upper (String.ofList cs)) := by
  simp only [bytes, toList_upper, String.toList_ofList, List.flatMap_cons, upperChar_of_ascii h,
    List.singleton_append, utf8EncodeChar_of_ascii (toUpper_of_ascii h).1]

/-- The byte of a mark comes from the mark alone. -/
theorem upperByte_eq_iff {mark c : Char} (h : IsMark mark) (hc : c.toNat < 0x80) :
    c.toUpper.toNat.toUInt8 = mark.toNat.toUInt8 ↔ c = mark := by
  have hbyte : mark.toNat.toUInt8 ∈ String.utf8EncodeChar c.toUpper ↔ c.toUpper = mark :=
    mem_utf8EncodeChar_iff h.ascii
  have hupper : mark ∈ upperChar c ↔ c = mark := mem_upperChar_iff h
  rw [utf8EncodeChar_of_ascii (toUpper_of_ascii hc).1, List.mem_singleton, eq_comm] at hbyte
  rw [upperChar_of_ascii hc, List.mem_singleton, eq_comm] at hupper
  exact hbyte.trans hupper

/-- An ASCII character is kept when its byte is not that of a lower-case letter. -/
theorem upperChar_eq_self_iff {c : Char} (h : c.toNat < 0x80) :
    upperChar c = [c] ↔ ¬(0x61 ≤ c.toNat.toUInt8 ∧ c.toNat.toUInt8 ≤ 0x7A) := by
  have hall : ∀ n < 0x80, (Char.ofNat n).toUpper = Char.ofNat n ↔
      ¬(0x61 ≤ n.toUInt8 ∧ n.toUInt8 ≤ 0x7A) := by
    decide
  have hc := hall c.toNat h
  rw [Char.ofNat_toNat] at hc
  rw [upperChar_of_ascii h, List.singleton_inj, hc]

/-- An ASCII text is in upper case when none of its bytes is that of a lower-case letter. -/
theorem upper_eq_self_iff {text : String} (h : ∀ b ∈ bytes text, b < 0x80) :
    upper text = text ↔ ∀ b ∈ bytes text, ¬(0x61 ≤ b ∧ b ≤ 0x7A) := by
  have hascii := (forall_bytes_lt_iff text).mp h
  constructor
  · intro hupper b hb
    obtain ⟨c, hc, hbyte⟩ := List.mem_flatMap.mp hb
    rw [utf8EncodeChar_of_ascii (hascii c hc), List.mem_singleton] at hbyte
    rw [hbyte, ← upperChar_eq_self_iff (hascii c hc)]
    exact upperChar_of_mem_upper (hupper.symm ▸ hc)
  · intro hlower
    have hkept : ∀ c ∈ text.toList, upperChar c = [c] := by
      intro c hc
      rw [upperChar_eq_self_iff (hascii c hc)]
      exact hlower _ ((mem_bytes_iff (hascii c hc) text).mpr hc)
    have hlist := upper_ofList_of_kept hkept
    rwa [String.ofList_toList] at hlist

end GuestFiles.Text
