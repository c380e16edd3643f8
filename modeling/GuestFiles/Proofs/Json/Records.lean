import GuestFiles.Proofs.Json.Written

/-! # Lists of records

A record is an object whose members are texts and natural numbers. A list of written records reads
as these records, whatever blanks stand between its parts. -/

namespace GuestFiles.Json

inductive Scalar where
  | text (value : String)
  | number (value : Nat)
  deriving DecidableEq, Repr

/-- The members of an object, in order. -/
abbrev Record := List (String × Scalar)

/-! ## Reading -/

def readNatural (s : List Char) : Except Stop (Nat × List Char) := do
  match ← readNumber false s with
  | (.integer (.ofNat value), rest) => .ok (value, rest)
  | (_, rest) => stopBefore .badNumber rest

def readScalar (s : List Char) : Except Stop (Scalar × List Char) :=
  match skipBlanks s with
  | '"' :: rest => do
    let (value, rest) ← readString rest
    .ok (.text value, rest)
  | s => do
    let (value, rest) ← readNatural s
    .ok (.number value, rest)

def recordMembers : Members Record where
  complaint? _ _ := none
  value record key s := do
    let (value, rest) ← readScalar s
    .ok (record ++ [(key, value)], rest)

def readRecord (s : List Char) : Except Stop (Record × List Char) :=
  match skipBlanks s with
  | [] => stopAt .endInValue []
  | '{' :: rest => readObject recordMembers [] rest
  | s => .error (complain "a map" s)

/-- The records of a list behind its opening bracket. `fuel` is more than their number. -/
def readElements : Nat → Bool → List Char → Except Stop (List Record × List Char)
  | 0, _, s => stopAt .endInList s
  | fuel + 1, first, s => do
    match ← nextElement first s with
    | (false, rest) => .ok ([], ← endList rest)
    | (true, rest) =>
      let (record, rest) ← readRecord rest
      let (more, rest) ← readElements fuel false rest
      .ok (record :: more, rest)

/-- The list of records that is the whole of a text. -/
def readRecords (text : String) : Except Stop (List Record) :=
  match skipBlanks text.toList with
  | [] => stopAt .endInValue []
  | '[' :: rest => do
    let (records, rest) ← readElements (rest.length + 1) true rest
    endText rest
    .ok records
  | s => .error (complain "a sequence" s)

/-! ## Numbers -/

/-- A word that holds the value of all digits takes them all. -/
theorem gather_of_le {word : Nat} {digits : List Char}
    (h : Nat.ofDigitChars 10 digits word ≤ maxWord) :
    gather word digits = (Nat.ofDigitChars 10 digits word, []) := by
  induction digits generalizing word with
  | nil => simp [gather, Nat.ofDigitChars_nil]
  | cons c digits ih =>
      rw [Nat.ofDigitChars_cons, Nat.mul_comm 10 word] at h ⊢
      have hle : word * 10 + (c.toNat - '0'.toNat) ≤ maxWord := by
        refine Nat.le_trans ?_ h
        rw [Nat.ofDigitChars_eq_ofDigitChars_zero]
        refine Nat.le_trans (Nat.le_mul_of_pos_left _ ?_) (Nat.le_add_right _ _)
        exact Nat.pow_pos (by decide)
      rw [gather, if_pos hle]
      exact ih h

/-- The first digit of a number with more than one is not zero. -/
theorem toDigits_ne_zero_cons (n : Nat) (d : Char) (more : List Char) :
    Nat.toDigits 10 n ≠ '0' :: d :: more := by
  induction n using Nat.strongRecOn generalizing d more with
  | _ n ih =>
      rw [Nat.toDigits_eq_if (by decide)]
      split
      · simp
      · next hn =>
          intro heq
          have hlt : n / 10 < n := by omega
          cases hfront : Nat.toDigits 10 (n / 10) with
          | nil => exact absurd hfront Nat.toDigits_ne_nil
          | cons c front =>
              rw [hfront] at heq
              obtain ⟨rfl, htail⟩ := List.cons.inj heq
              cases front with
              | nil =>
                  have hvalue := Nat.ofDigitChars_ten_toDigits (n := n / 10)
                  rw [hfront] at hvalue
                  simp [Nat.ofDigitChars_cons, Nat.ofDigitChars_nil] at hvalue
                  omega
              | cons d' front => exact ih _ hlt _ _ hfront

/-- Whether a character can stand behind a value: a blank, a comma, or the end of an object. -/
def mayFollow (c : Char) : Bool :=
  isBlank c || c = ',' || c = '}'

theorem mayFollow_iff (c : Char) :
    mayFollow c ↔ c = ' ' ∨ c = '\n' ∨ c = '\t' ∨ c = '\r' ∨ c = ',' ∨ c = '}' := by
  simp [mayFollow, isBlank, or_assoc]

/-- A number is read up to its end. -/
theorem readNatural_written {n : Nat} (h : n ≤ maxWord) {c : Char} (hc : mayFollow c)
    (rest : List Char) : readNatural (n.repr.toList ++ c :: rest) = .ok (n, c :: rest) := by
  have hdigit : ∀ d ∈ Nat.toDigits 10 n, d.isDigit := fun d hd =>
    Nat.isDigit_of_mem_toDigits (by decide) (by decide) hd
  have hend : c.isDigit = false := by
    rcases (mayFollow_iff c).mp hc with rfl | rfl | rfl | rfl | rfl | rfl <;> rfl
  have hdigits : (n.repr.toList ++ c :: rest).takeWhile Char.isDigit = Nat.toDigits 10 n := by
    rw [Nat.repr_eq_ofList_toDigits, String.toList_ofList, List.takeWhile_append_of_pos hdigit,
      List.takeWhile_cons_of_neg (by simp [hend]), List.append_nil]
  have hrest : (n.repr.toList ++ c :: rest).dropWhile Char.isDigit = c :: rest := by
    rw [Nat.repr_eq_ofList_toDigits, String.toList_ofList, List.dropWhile_append_of_pos hdigit,
      List.dropWhile_cons_of_neg (by simp [hend])]
  have hgather : gather 0 (Nat.toDigits 10 n) = (n, []) := by
    rw [gather_of_le (by rwa [Nat.ofDigitChars_ten_toDigits]), Nat.ofDigitChars_ten_toDigits]
  have hnumber : readNumber false (n.repr.toList ++ c :: rest) = .ok (.integer n, c :: rest) := by
    simp only [readNumber, hdigits, hrest]
    split
    · next heq => exact absurd heq Nat.toDigits_ne_nil
    · next heq => exact absurd heq (toDigits_ne_zero_cons n _ _)
    · rw [hgather]
      rcases (mayFollow_iff c).mp hc with rfl | rfl | rfl | rfl | rfl | rfl <;> rfl
  rw [readNatural, hnumber]
  rfl

theorem repr_toList_eq_cons (n : Nat) : ∃ d digits, n.repr.toList = d :: digits ∧ d.isDigit := by
  rw [Nat.repr_eq_ofList_toDigits, String.toList_ofList]
  cases hdigits : Nat.toDigits 10 n with
  | nil => exact absurd hdigits Nat.toDigits_ne_nil
  | cons d digits =>
      have hd : d ∈ Nat.toDigits 10 n := by
        rw [hdigits]
        exact List.mem_cons_self
      exact ⟨d, digits, rfl, Nat.isDigit_of_mem_toDigits (by decide) (by decide) hd⟩

/-! ## Scalars -/

/-- A scalar as it is written, behind a colon and a blank. -/
def Scalar.write : Scalar → List Char
  | .text value => ' ' :: writeString value
  | .number value => ' ' :: value.repr.toList

/-- Whether a scalar is read as it is. A number is if it fits in a word. -/
def Scalar.Fits : Scalar → Prop
  | .text _ => True
  | .number value => value ≤ maxWord

theorem readScalar_write {value : Scalar} (h : value.Fits) {c : Char} (hc : mayFollow c)
    (rest : List Char) : readScalar (value.write ++ c :: rest) = .ok (value, c :: rest) := by
  cases value with
  | text value =>
      have hread := readString_written value (c :: rest)
      have hblanks : skipBlanks ((Scalar.text value).write ++ c :: rest) =
          '"' :: (value.toList.flatMap escapeChar ++ '"' :: (c :: rest)) := by
        rw [Scalar.write, List.cons_append, writeString_append]
        rfl
      rw [readScalar, hblanks]
      simp only [hread, bind, Except.bind]
  | number value =>
      have hread := readNatural_written h hc rest
      obtain ⟨d, digits, hrepr, hd⟩ := repr_toList_eq_cons value
      have hblank : isBlank d = false := by
        rw [← Bool.not_eq_true]
        intro hblank
        simp only [isBlank, Bool.or_eq_true, decide_eq_true_eq] at hblank
        rcases hblank with ((rfl | rfl) | rfl) | rfl <;> cases hd
      have hblanks : skipBlanks ((Scalar.number value).write ++ c :: rest) =
          d :: (digits ++ c :: rest) := by
        rw [Scalar.write, hrepr]
        exact skipBlanks_of_not_blank hblank _
      rw [hrepr, List.cons_append] at hread
      rw [readScalar, hblanks]
      split
      · next heq =>
          obtain ⟨rfl, -⟩ := List.cons.inj heq
          cases hd
      · simp only [hread, bind, Except.bind]

/-! ## Records -/

section Spaced

variable {gap stop : List Char} (hgap : ∀ c ∈ gap, isBlank c) (hstop : ∀ c ∈ stop, isBlank c)

variable (gap) in
include hstop in
/-- Behind a member stands what may follow a value. -/
theorem spacedTail_false_eq_cons (texts : List (String × List Char)) (rest : List Char) :
    ∃ c more, spacedTail gap stop false texts ++ rest = c :: more ∧ mayFollow c := by
  cases texts with
  | nil =>
      cases stop with
      | nil => exact ⟨'}', rest, rfl, rfl⟩
      | cons c stop =>
          refine ⟨c, stop ++ ['}'] ++ rest, rfl, ?_⟩
          rw [mayFollow, hstop c List.mem_cons_self]
          rfl
  | cons text texts => exact ⟨',', _, rfl, rfl⟩

/-- The members of a record as they are written. -/
def Record.texts (record : Record) : List (String × List Char) :=
  record.map fun member => (member.1, member.2.write)

theorem Record.texts_cons (key : String) (value : Scalar) (record : Record) :
    Record.texts ((key, value) :: record) = (key, value.write) :: record.texts := rfl

/-- Whether all members of a record are read as they are. -/
def Record.Fits (record : Record) : Prop :=
  ∀ member ∈ record, member.2.Fits

include hgap hstop in
theorem readMembers_texts {record : Record} (h : record.Fits) (done : Record) {fuel : Nat}
    (hfuel : record.length < fuel) (first : Bool) (rest : List Char) :
    readMembers recordMembers fuel first done (spacedTail gap stop first record.texts ++ rest) =
      .ok (done ++ record, rest) := by
  induction record generalizing done fuel first with
  | nil =>
      obtain ⟨fuel, rfl⟩ := Nat.exists_eq_add_one_of_ne_zero (Nat.ne_of_gt hfuel)
      rw [List.append_nil, Record.texts, List.map_nil, spacedTail, List.append_assoc]
      exact readMembers_end hstop fuel first done rest
  | cons member record ih =>
      obtain ⟨fuel, rfl⟩ :=
        Nat.exists_eq_add_one_of_ne_zero (Nat.ne_of_gt (Nat.zero_lt_of_lt hfuel))
      obtain ⟨key, value⟩ := member
      obtain ⟨c, more, hmore, hc⟩ :=
        spacedTail_false_eq_cons gap hstop (Record.texts record) rest
      have hvalue : recordMembers.value done key
          (value.write ++ (spacedTail gap stop false (Record.texts record) ++ rest)) =
            .ok (done ++ [(key, value)],
              spacedTail gap stop false (Record.texts record) ++ rest) := by
        rw [hmore]
        simp only [recordMembers, readScalar_write (h _ List.mem_cons_self) hc, bind, Except.bind]
      have hrest := ih (fun other hother => h other (List.mem_cons_of_mem _ hother))
        (done ++ [(key, value)]) (Nat.lt_of_succ_lt_succ hfuel) false
      rw [List.append_assoc] at hrest
      rw [Record.texts_cons, spacedTail, List.append_assoc, readMembers_cons rfl hvalue hgap]
      exact hrest

/-- A record as it is written, with blanks in front of each key and of the end. -/
def Record.write (gap stop : List Char) (record : Record) : List Char :=
  '{' :: spacedTail gap stop true record.texts

include hgap hstop in
theorem readRecord_write {record : Record} (h : record.Fits) (rest : List Char) :
    readRecord (record.write gap stop ++ rest) = .ok (record, rest) := by
  have hblanks : skipBlanks (record.write gap stop ++ rest) =
      '{' :: (spacedTail gap stop true record.texts ++ rest) := rfl
  rw [readRecord, hblanks]
  refine readMembers_texts hgap hstop h [] ?_ true rest
  have hlength := length_lt_spacedTail gap stop true record.texts
  have htexts : record.texts.length = record.length := List.length_map _
  rw [List.length_append]
  omega

end Spaced

/-! ## Lists -/

/-- The elements of a list from one on, and the end of the list, with blanks in front of each
element and of the end. -/
def listTail (gap stop : List Char) (first : Bool) : List (List Char) → List Char
  | [] => stop ++ [']']
  | text :: more =>
    (if first then [] else [',']) ++ gap ++ text ++ listTail gap stop false more

theorem listTail_false_cons (gap stop text : List Char) (texts : List (List Char)) :
    listTail gap stop false (text :: texts) = ',' :: listTail gap stop true (text :: texts) := rfl

theorem length_lt_listTail (gap stop : List Char) (texts : List (List Char))
    (h : ∀ text ∈ texts, text ≠ []) (first : Bool) :
    texts.length < (listTail gap stop first texts).length := by
  induction texts generalizing first with
  | nil => simp [listTail]
  | cons text texts ih =>
      have hrest := ih (fun other hother => h other (List.mem_cons_of_mem _ hother)) false
      have htext := List.length_pos_iff.mpr (h text List.mem_cons_self)
      simp only [listTail, List.length_append, List.length_cons]
      omega

theorem nextElement_of_brace (first : Bool) {gap : List Char} (hgap : ∀ c ∈ gap, isBlank c)
    (s : List Char) :
    nextElement first ((if first then [] else [',']) ++ gap ++ '{' :: s) =
      .ok (true, '{' :: s) := by
  have hblanks : skipBlanks (gap ++ '{' :: s) = '{' :: s := by
    rw [skipBlanks_append hgap]
    exact skipBlanks_of_not_blank (by decide) s
  cases first with
  | true =>
      rw [if_pos rfl, List.nil_append, nextElement, hblanks]
      rfl
  | false =>
      have hcomma : skipBlanks (',' :: (gap ++ '{' :: s)) = ',' :: (gap ++ '{' :: s) :=
        skipBlanks_of_not_blank (by decide) _
      rw [if_neg Bool.false_ne_true, List.append_assoc, List.singleton_append, nextElement, hcomma]
      simp only [hblanks, if_neg Bool.false_ne_true]
      rfl

/-- The blanks of a list of records: in front of each key, of the end of a record, of each record,
and of the end of the list. -/
structure Layout where
  key : List Char
  recordEnd : List Char
  record : List Char
  listEnd : List Char
  blank : ∀ part ∈ [key, recordEnd, record, listEnd], ∀ c ∈ part, isBlank c

/-- Written records from one on, and the end of the list. -/
def Layout.tail (layout : Layout) (first : Bool) (records : List Record) : List Char :=
  listTail layout.record layout.listEnd first
    (records.map (Record.write layout.key layout.recordEnd))

theorem readElements_tail (layout : Layout) {records : List Record}
    (h : ∀ record ∈ records, record.Fits) {fuel : Nat} (hfuel : records.length < fuel)
    (first : Bool) (rest : List Char) :
    readElements fuel first (layout.tail first records ++ rest) = .ok (records, rest) := by
  have hblank := layout.blank
  simp only [List.forall_mem_cons, List.not_mem_nil, false_implies, forall_const] at hblank
  obtain ⟨hkey, hclose, hrecord, hend, -⟩ := hblank
  induction records generalizing fuel first with
  | nil =>
      obtain ⟨fuel, rfl⟩ := Nat.exists_eq_add_one_of_ne_zero (Nat.ne_of_gt hfuel)
      have hbracket : skipBlanks (layout.listEnd ++ ']' :: rest) = ']' :: rest := by
        rw [skipBlanks_append hend]
        exact skipBlanks_of_not_blank (by decide) rest
      have hnext : nextElement first (layout.listEnd ++ ']' :: rest) =
          .ok (false, ']' :: rest) := by
        rw [nextElement, hbracket]
        rfl
      have hlast : endList (']' :: rest) = .ok rest := rfl
      rw [Layout.tail, List.map_nil, listTail, List.append_assoc, List.singleton_append]
      simp only [readElements, hnext, hlast, bind, Except.bind]
  | cons record records ih =>
      obtain ⟨fuel, rfl⟩ :=
        Nat.exists_eq_add_one_of_ne_zero (Nat.ne_of_gt (Nat.zero_lt_of_lt hfuel))
      have hread := readRecord_write hkey hclose (h record List.mem_cons_self)
        (layout.tail false records ++ rest)
      have hnext := nextElement_of_brace first hrecord
        (spacedTail layout.key layout.recordEnd true record.texts ++
          (layout.tail false records ++ rest))
      have hmore := ih (fun other hother => h other (List.mem_cons_of_mem _ hother))
        (Nat.lt_of_succ_lt_succ hfuel) false
      have htail : layout.tail first (record :: records) ++ rest =
          (if first then [] else [',']) ++ layout.record ++
            '{' :: (spacedTail layout.key layout.recordEnd true record.texts ++
              (layout.tail false records ++ rest)) := by
        simp only [Layout.tail, List.map_cons, listTail, Record.write, List.append_assoc,
          List.cons_append]
      rw [Record.write, List.cons_append] at hread
      rw [htail]
      simp only [readElements, hnext, hread, hmore, bind, Except.bind]

/-- A written list reads as its records. -/
theorem readRecords_written (layout : Layout) {records : List Record}
    (h : ∀ record ∈ records, record.Fits) {text : String} {rest : List Char}
    (htext : text.toList = '[' :: (layout.tail true records ++ rest))
    (hrest : ∀ c ∈ rest, isBlank c) : readRecords text = .ok records := by
  have hlength : records.length < (layout.tail true records ++ rest).length + 1 := by
    have hlt := length_lt_listTail layout.record layout.listEnd
      (records.map (Record.write layout.key layout.recordEnd)) (by simp [Record.write]) true
    rw [List.length_map] at hlt
    rw [List.length_append, Layout.tail]
    omega
  have hread := readElements_tail layout h hlength true rest
  have hend : endText rest = .ok () := by
    have hblanks := skipBlanks_append hrest []
    rw [List.append_nil] at hblanks
    rw [endText, hblanks]
    rfl
  have hblanks : skipBlanks text.toList = '[' :: (layout.tail true records ++ rest) := by
    rw [htext]
    exact skipBlanks_of_not_blank (by decide) _
  rw [readRecords, hblanks]
  simp only [hread, hend, bind, Except.bind]

example : readRecords "[ \x7b\"a\" :10,\"b\": \"\\n\"\x7d,\x7b\x7d]" =
    .ok [[("a", .number 10), ("b", .text "\n")], []] := by rfl

end GuestFiles.Json
