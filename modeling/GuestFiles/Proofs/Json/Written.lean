import GuestFiles.Json.Shape

/-! # Reading what was written

A written string reads as the text that it was written from, whatever characters the text has. An
object reads as its members taken in one after the other, when each of them is welcome and its value
reads as it should. -/

namespace GuestFiles.Json

/-! ## Escapes -/

theorem hexValue?_digitChar {n : Nat} (h : n < 16) : hexValue? (Nat.digitChar n) = some n := by
  have hall : ∀ n < 16, hexValue? (Nat.digitChar n) = some n := by decide
  exact hall n h

/-- The escape of a control character by its number. -/
theorem readEscape_unit {n : Nat} (h : n < 0x20) (rest : List Char) :
    readEscape ('u' :: '0' :: '0' :: Nat.digitChar (n / 16) :: Nat.digitChar (n % 16) :: rest) =
      .ok (Char.ofNat n, rest) := by
  have hunit : readUnit ('0' :: '0' :: Nat.digitChar (n / 16) :: Nat.digitChar (n % 16) :: rest) =
      .ok (n, rest) := by
    have hzero : hexValue? '0' = some 0 := by decide
    have hsum : 0 * 4096 + 0 * 256 + n / 16 * 16 + n % 16 = n := by omega
    simp only [readUnit, hzero, hexValue?_digitChar (show n / 16 < 16 by omega),
      hexValue?_digitChar (show n % 16 < 16 by omega), hsum]
  have hlow : ¬(0xDC00 ≤ n ∧ n ≤ 0xDFFF) := by omega
  have hhigh : ¬(0xD800 ≤ n ∧ n ≤ 0xDBFF) := by omega
  simp only [readEscape, hunit, bind, Except.bind, if_neg hlow, if_neg hhigh]

/-- A character is written as an escape of itself, or as itself when a string may hold it so. -/
theorem escapeChar_cases (c : Char) :
    (∃ s, escapeChar c = '\\' :: s ∧ ∀ rest, readEscape (s ++ rest) = .ok (c, rest)) ∨
      escapeChar c = [c] ∧ c ≠ '"' ∧ c ≠ '\\' ∧ ¬c.toNat < 0x20 := by
  unfold escapeChar
  split
  · next h =>
      left
      rcases h with rfl | rfl
      · exact ⟨['"'], rfl, fun rest => rfl⟩
      · exact ⟨['\\'], rfl, fun rest => rfl⟩
  · next hquote =>
      obtain ⟨hquote, hbackslash⟩ := not_or.mp hquote
      split
      · next h => exact .inl ⟨['b'], rfl, fun rest => by rw [h]; rfl⟩
      split
      · next h => exact .inl ⟨['f'], rfl, fun rest => by rw [h]; rfl⟩
      split
      · next h => exact .inl ⟨['n'], rfl, fun rest => by rw [h]; rfl⟩
      split
      · next h => exact .inl ⟨['r'], rfl, fun rest => by rw [h]; rfl⟩
      split
      · next h => exact .inl ⟨['t'], rfl, fun rest => by rw [h]; rfl⟩
      split
      · next h =>
          refine .inl ⟨_, rfl, fun rest => ?_⟩
          have hread := readEscape_unit h rest
          rwa [Char.ofNat_toNat] at hread
      · next h => exact .inr ⟨rfl, hquote, hbackslash, h⟩

/-! ## Strings -/

theorem readStringTail_escape {s rest : List Char} {c : Char} (h : readEscape s = .ok (c, rest))
    (fuel : Nat) :
    readStringTail (fuel + 1) ('\\' :: s) =
      (readStringTail fuel rest).map fun read => (c :: read.1, read.2) := by
  have hquote : '\\' ≠ '"' := by decide
  rw [readStringTail, if_neg hquote, if_pos rfl, h]
  rfl

theorem readStringTail_plain {c : Char} (hquote : c ≠ '"') (hbackslash : c ≠ '\\')
    (hcontrol : ¬c.toNat < 0x20) (fuel : Nat) (rest : List Char) :
    readStringTail (fuel + 1) (c :: rest) =
      (readStringTail fuel rest).map fun read => (c :: read.1, read.2) := by
  rw [readStringTail, if_neg hquote, if_neg hbackslash, if_neg hcontrol]
  rfl

/-- A written character reads as itself. -/
theorem readStringTail_escapeChar (fuel : Nat) (c : Char) (rest : List Char) :
    readStringTail (fuel + 1) (escapeChar c ++ rest) =
      (readStringTail fuel rest).map fun read => (c :: read.1, read.2) := by
  rcases escapeChar_cases c with ⟨s, hs, hread⟩ | ⟨hself, hquote, hbackslash, hcontrol⟩
  · rw [hs]
    exact readStringTail_escape (hread rest) fuel
  · rw [hself]
    exact readStringTail_plain hquote hbackslash hcontrol fuel rest

theorem readStringTail_written {cs : List Char} {fuel : Nat} (h : cs.length < fuel)
    (rest : List Char) :
    readStringTail fuel (cs.flatMap escapeChar ++ '"' :: rest) = .ok (cs, rest) := by
  induction cs generalizing fuel with
  | nil =>
      obtain ⟨fuel, rfl⟩ := Nat.exists_eq_add_one_of_ne_zero (Nat.ne_of_gt h)
      rfl
  | cons c cs ih =>
      obtain ⟨fuel, rfl⟩ := Nat.exists_eq_add_one_of_ne_zero (Nat.ne_of_gt (Nat.zero_lt_of_lt h))
      have hcs := ih (Nat.lt_of_succ_lt_succ h)
      rw [List.flatMap_cons, List.append_assoc, readStringTail_escapeChar, hcs]
      rfl

theorem length_le_escaped (cs : List Char) : cs.length ≤ (cs.flatMap escapeChar).length := by
  induction cs with
  | nil => exact Nat.le_refl 0
  | cons c cs ih =>
      have hc : 1 ≤ (escapeChar c).length := by
        rcases escapeChar_cases c with ⟨s, hs, -⟩ | ⟨hself, -⟩
        · simp [hs]
        · simp [hself]
      rw [List.flatMap_cons, List.length_append, List.length_cons]
      omega

/-- A written string reads as its text, behind the opening quote. -/
theorem readString_written (text : String) (rest : List Char) :
    readString (text.toList.flatMap escapeChar ++ '"' :: rest) = .ok (text, rest) := by
  have hlength : text.toList.length <
      (text.toList.flatMap escapeChar ++ '"' :: rest).length := by
    have hle := length_le_escaped text.toList
    rw [List.length_append, List.length_cons]
    omega
  rw [readString, readStringTail_written hlength]
  exact congrArg (fun s => Except.ok (s, rest)) String.ofList_toList

theorem writeString_append (text : String) (rest : List Char) :
    writeString text ++ rest = '"' :: (text.toList.flatMap escapeChar ++ '"' :: rest) := by
  simp [writeString]

/-! ## Values of a wanted shape -/

theorem readText_writeString (wanted text : String) (rest : List Char) :
    readText wanted (writeString text ++ rest) = .ok (text, rest) := by
  rw [writeString_append]
  exact readString_written text rest

@[simp] theorem singleChar?_singleton (c : Char) : singleChar? (String.singleton c) = some c := by
  simp [singleChar?]

theorem readChar_writeString (c : Char) (rest : List Char) :
    readChar (writeString (String.singleton c) ++ rest) = .ok (c, rest) := by
  simp only [readChar, readText_writeString, bind, Except.bind, singleChar?_singleton]

/-! ## Blanks -/

theorem skipBlanks_append {gap : List Char} (h : ∀ c ∈ gap, isBlank c) (s : List Char) :
    skipBlanks (gap ++ s) = skipBlanks s :=
  List.dropWhile_append_of_pos h

theorem skipBlanks_of_not_blank {c : Char} (h : isBlank c = false) (s : List Char) :
    skipBlanks (c :: s) = c :: s := by
  rw [skipBlanks, List.dropWhile_cons_of_neg (by simp [h])]

/-! ## Objects -/

/-- The members of an object from a key on, each with the text of its value, and the end of the
object. -/
def objectTail (first : Bool) : List (String × List Char) → List Char
  | [] => ['}']
  | (key, value) :: more =>
    (if first then [] else [',']) ++ writeString key ++ ':' :: value ++ objectTail false more

theorem objectTail_false_cons (text : String × List Char) (texts : List (String × List Char)) :
    objectTail false (text :: texts) = ',' :: objectTail true (text :: texts) := rfl

theorem objectTail_true_cons (text : String × List Char) (texts : List (String × List Char)) :
    objectTail true (text :: texts) =
      (writeString text.1 ++ ':' :: text.2) ++ objectTail false texts := rfl

/-- Members with commas between them are an object, behind its opening brace and up to its end. -/
theorem flatten_intersperse_members (texts : List (String × List Char)) :
    ((texts.map fun text => writeString text.1 ++ ':' :: text.2).intersperse [',']).flatten ++
        ['}'] = objectTail true texts := by
  cases texts with
  | nil => rfl
  | cons text texts =>
      induction texts generalizing text with
      | nil => simp [objectTail]
      | cons other texts ih =>
          rw [objectTail_true_cons, objectTail_false_cons, ← ih other, List.map_cons, List.map_cons,
            List.intersperse_cons_cons]
          simp

/-- The same with blanks `gap` in front of each key and blanks `stop` in front of the end. -/
def spacedTail (gap stop : List Char) (first : Bool) : List (String × List Char) → List Char
  | [] => stop ++ ['}']
  | (key, value) :: more =>
    (if first then [] else [',']) ++ gap ++ writeString key ++ ':' :: value ++
      spacedTail gap stop false more

theorem objectTail_eq_spacedTail (first : Bool) (texts : List (String × List Char)) :
    objectTail first texts = spacedTail [] [] first texts := by
  induction texts generalizing first with
  | nil => rfl
  | cons text texts ih => simp only [objectTail, spacedTail, ih, List.append_nil]

theorem length_lt_spacedTail (gap stop : List Char) (first : Bool)
    (texts : List (String × List Char)) :
    texts.length < (spacedTail gap stop first texts).length := by
  induction texts generalizing first with
  | nil => simp [spacedTail]
  | cons text texts ih =>
      have hrest := ih false
      simp only [spacedTail, List.length_append, List.length_cons]
      omega

section Members

variable {σ : Type} {members : Members σ}

/-- Members of an object are taken in one after the other: none of their keys is refused, and their
values are read whatever follows them. -/
inductive Members.Takes (members : Members σ) : σ → List (String × List Char) → σ → Prop where
  | nil (state : σ) : Takes members state [] state
  | cons {state next last : σ} {key : String} {value : List Char}
      {more : List (String × List Char)} (hkey : members.complaint? state key = none)
      (hvalue : ∀ rest, members.value state key (value ++ rest) = .ok (next, rest))
      (hmore : Takes members next more last) : Takes members state ((key, value) :: more) last

theorem nextKey_written (first : Bool) {gap : List Char} (hgap : ∀ c ∈ gap, isBlank c)
    (key : String) (rest : List Char) :
    nextKey first ((if first then [] else [',']) ++ gap ++ writeString key ++ rest) =
      .ok (true, key.toList.flatMap escapeChar ++ '"' :: rest) := by
  have hkey : skipBlanks (gap ++ (writeString key ++ rest)) =
      '"' :: (key.toList.flatMap escapeChar ++ '"' :: rest) := by
    rw [skipBlanks_append hgap, writeString_append]
    exact skipBlanks_of_not_blank (by decide) _
  cases first with
  | true =>
      rw [if_pos rfl, List.nil_append, List.append_assoc, nextKey, hkey]
      rfl
  | false =>
      have hcomma : skipBlanks (',' :: (gap ++ (writeString key ++ rest))) =
          ',' :: (gap ++ (writeString key ++ rest)) :=
        skipBlanks_of_not_blank (by decide) _
      rw [if_neg Bool.false_ne_true, List.append_assoc, List.append_assoc, List.singleton_append,
        nextKey, hcomma]
      simp only [hkey, if_neg Bool.false_ne_true]

/-- One member is taken in. -/
theorem readMembers_cons {state next : σ} {key : String} {value gap rest : List Char}
    (hkey : members.complaint? state key = none)
    (hvalue : members.value state key (value ++ rest) = .ok (next, rest))
    (hgap : ∀ c ∈ gap, isBlank c) (fuel : Nat) (first : Bool) :
    readMembers members (fuel + 1) first state
        ((if first then [] else [',']) ++ gap ++ writeString key ++ ':' :: value ++ rest) =
      readMembers members fuel false next rest := by
  have hnext := nextKey_written first hgap key (':' :: (value ++ rest))
  have hcolon : skipColon (':' :: (value ++ rest)) = .ok (value ++ rest) := rfl
  simp only [List.append_assoc, List.cons_append] at hnext ⊢
  simp only [readMembers, hnext, bind, Except.bind, readString_written, hkey, hcolon, hvalue]

/-- No member is left. -/
theorem readMembers_end {stop : List Char} (hstop : ∀ c ∈ stop, isBlank c) (fuel : Nat)
    (first : Bool) (state : σ) (rest : List Char) :
    readMembers members (fuel + 1) first state (stop ++ '}' :: rest) = .ok (state, rest) := by
  have hend : skipBlanks (stop ++ '}' :: rest) = '}' :: rest := by
    rw [skipBlanks_append hstop]
    exact skipBlanks_of_not_blank (by decide) rest
  rw [readMembers, nextKey, hend]
  rfl

theorem readMembers_of_takes {state last : σ} {texts : List (String × List Char)}
    (h : members.Takes state texts last) {fuel : Nat} (hfuel : texts.length < fuel) (first : Bool)
    (rest : List Char) :
    readMembers members fuel first state (objectTail first texts ++ rest) = .ok (last, rest) := by
  rw [objectTail_eq_spacedTail]
  induction h generalizing fuel first with
  | nil state =>
      obtain ⟨fuel, rfl⟩ := Nat.exists_eq_add_one_of_ne_zero (Nat.ne_of_gt hfuel)
      exact readMembers_end (List.forall_mem_nil _) fuel first state rest
  | cons hkey hvalue hmore ih =>
      obtain ⟨fuel, rfl⟩ :=
        Nat.exists_eq_add_one_of_ne_zero (Nat.ne_of_gt (Nat.zero_lt_of_lt hfuel))
      rw [spacedTail, List.append_assoc,
        readMembers_cons hkey (hvalue _) (List.forall_mem_nil _)]
      exact ih (Nat.lt_of_succ_lt_succ hfuel) false

/-- An object whose members are taken in is read up to its end. -/
theorem readObject_of_takes {empty last : σ} {texts : List (String × List Char)}
    (h : members.Takes empty texts last) (rest : List Char) :
    readObject members empty (objectTail true texts ++ rest) = .ok (last, rest) := by
  apply readMembers_of_takes h
  have hlength := length_lt_spacedTail [] [] true texts
  rw [objectTail_eq_spacedTail, List.length_append]
  omega

end Members

end GuestFiles.Json
