import GuestFiles.Proofs.ControlBlock.Typed

/-! # Windows of memory

A block is copied out of a window of memory that is exactly as long as the block, and into a window
that is at least as long. Copying in either direction loses nothing, and a window that is too short
or a byte behind the block is never touched. -/

namespace GuestFiles.ControlBlock

variable {b : ControlBlock} {window : List UInt8} {v : Vector UInt8 36}

/-! ## Out of a window -/

theorem exactly_eq_ok_iff : exactly window = .ok v ↔ window = v.toList := by
  unfold exactly
  constructor
  · intro h
    split at h
    · obtain rfl := Except.ok.inj h
      rfl
    · cases h
  · rintro rfl
    rw [dif_pos v.length_toList]
    rfl

theorem exactly_eq_error (h : window.length ≠ 36) : exactly window = .error .wrongLength := by
  simp [exactly, h]

/-- A window holds a block when its bytes are those of the block, and no more. -/
theorem ofWindow_eq_ok_iff : ofWindow window = .ok b ↔ window = b.image.toList := by
  constructor
  · intro h
    by_cases hlength : window.length = 36
    · obtain ⟨v, rfl⟩ : ∃ v : Vector UInt8 36, window = v.toList :=
        ⟨⟨window.toArray, by simp [hlength]⟩, rfl⟩
      rw [ofWindow, exactly_eq_ok_iff.mpr rfl] at h
      obtain rfl := Except.ok.inj h
      rw [image_ofImage]
    · rw [ofWindow, exactly_eq_error hlength] at h
      cases h
  · rintro rfl
    rw [ofWindow, exactly_eq_ok_iff.mpr rfl]
    exact congrArg Except.ok (ofImage_image b)

theorem exists_ofWindow_iff : (∃ b, ofWindow window = .ok b) ↔ window.length = 36 := by
  simp only [ofWindow_eq_ok_iff]
  constructor
  · rintro ⟨b, rfl⟩
    simp
  · intro h
    refine ⟨ofImage ⟨window.toArray, by simp [h]⟩, ?_⟩
    rw [image_ofImage]
    rfl

/-! ## Into a window -/

theorem writeTo_of_lt (b : ControlBlock) (h : window.length < 36) :
    b.writeTo window = (.error .wrongLength, window) := by
  have htaken : (window.take (min window.length size)).length ≠ 36 := by
    rw [List.length_take]
    omega
  simp only [writeTo, exactly_eq_error htaken]

theorem writeTo_of_le (b : ControlBlock) (h : 36 ≤ window.length) :
    b.writeTo window = (.ok (), b.image.toList ++ window.drop 36) := by
  have htaken : min window.length size = 36 := Nat.min_eq_right h
  obtain ⟨v, hv⟩ : ∃ v : Vector UInt8 36, window.take 36 = v.toList :=
    ⟨⟨(window.take 36).toArray, by simp [h]⟩, rfl⟩
  simp only [writeTo, htaken, exactly_eq_ok_iff.mpr hv]

theorem writeTo_eq_ok_iff (b : ControlBlock) :
    (b.writeTo window).1 = .ok () ↔ 36 ≤ window.length := by
  by_cases h : window.length < 36
  · simp [writeTo_of_lt b h, h]
  · rw [writeTo_of_le b (Nat.le_of_not_lt h)]
    simpa using h

/-- Copying a block to a window fails exactly when the window is shorter than the block, and then
the window is as it was. Otherwise the window begins with the block, goes on behind it as before,
and gives the block back. A block can be taken from a window exactly when the window has the length
of a block, and written back over the window it changes nothing. -/
theorem writeTo_exact (b : ControlBlock) (window : List UInt8) :
    ((b.writeTo window).1 = .error .wrongLength ↔ window.length < 36) ∧
    (window.length < 36 → (b.writeTo window).2 = window) ∧
    (36 ≤ window.length →
      (b.writeTo window).1 = .ok () ∧
      (∀ i : Nat, (b.writeTo window).2[i]? = if i < 36 then b.image[i]? else window[i]?) ∧
      ofWindow ((b.writeTo window).2.take 36) = .ok b) ∧
    ((∃ held, ofWindow window = .ok held) ↔ window.length = 36) ∧
    ∀ held, ofWindow window = .ok held → held.writeTo window = (.ok (), window) := by
  refine ⟨?_, fun h => by rw [writeTo_of_lt b h], fun h => ?_, exists_ofWindow_iff,
    fun held hheld => ?_⟩
  · rw [← Nat.not_le, ← writeTo_eq_ok_iff b]
    cases (b.writeTo window).1 with
    | ok => simp
    | error fault => cases fault; simp
  · rw [writeTo_of_le b h]
    refine ⟨rfl, fun i => ?_, ?_⟩
    · split
      case isTrue hi => simp [List.getElem?_append, hi]
      case isFalse hi =>
        have hplace : 36 + (i - 36) = i := by omega
        simp [List.getElem?_append, hi, hplace]
    · rw [ofWindow_eq_ok_iff]
      simp
  · obtain rfl := ofWindow_eq_ok_iff.mp hheld
    rw [writeTo_of_le held (by simp)]
    simp

/-- A window with two bytes behind the block, one that ends a byte too early, and one of any
bytes. -/
theorem writeTo_exact_windows :
    let b := parse "b:hi.c*"
    let long := List.replicate 38 0xEE
    let short := List.replicate 35 0xEE
    let full := List.replicate 36 0xFF
    (b.writeTo long).1 = .ok () ∧ (b.writeTo long).2[0]? = some 1 ∧
      (b.writeTo long).2[35]? = some 0 ∧ (b.writeTo long).2[36]? = some 0xEE ∧
      ofWindow ((b.writeTo long).2.take 36) = .ok b ∧
      (b.writeTo short).1 = .error .wrongLength ∧ (b.writeTo short).2 = short ∧
      ∃ held, ofWindow full = .ok held ∧ held.writeTo full = (.ok (), full) := by
  intro b long short full
  obtain ⟨-, -, hlong, -⟩ := writeTo_exact b long
  obtain ⟨hfails, hshort, -⟩ := writeTo_exact b short
  obtain ⟨-, -, -, hheld, hback⟩ := writeTo_exact b full
  obtain ⟨hok, hbytes, hread⟩ := hlong (by decide)
  obtain ⟨held, hfull⟩ := hheld.mpr (by decide)
  refine ⟨hok, ?_, ?_, ?_, hread, hfails.mpr (by decide), hshort (by decide), held, hfull,
    hback held hfull⟩
  · rw [hbytes]
    decide +kernel
  · rw [hbytes]
    decide +kernel
  · rw [hbytes]
    decide +kernel

end GuestFiles.ControlBlock
