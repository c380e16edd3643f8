import GuestFiles.Proofs.Command.Listing
import GuestFiles.Proofs.Command.Spelled
import GuestFiles.Proofs.Text.Hex

/-! # Dumps on the command line

The command that parses a name prints the block of the name, and ends with a dump of it in which
each byte stands at its offset. -/

namespace GuestFiles.Command

open Host Text

/-! ## Arguments -/

/-- What the command for names takes. -/
def parseGrammar : Grammar :=
  ⟨["trace"], []⟩

theorem grammar?_parse : grammar? "parse" = some parseGrammar := rfl

theorem request?_parse (parts : Parts) :
    request? "parse" parts = parts.operand?.map .parse := by
  rw [request?]
  cases parts.operand? <;> rfl

theorem invocation?_parse {args : List String} {name : String}
    (h : Parts.scan? parseGrammar args .empty = some ⟨[name], [], []⟩) :
    invocation? ("parse" :: args) = some ⟨false, .parse name⟩ := by
  rw [invocation?, invocationAfter?_of_command rfl]
  exact commandAfter?_eq_some_iff.mpr
    ⟨parseGrammar, ⟨[name], [], []⟩, grammar?_parse, h, request?_parse _, rfl⟩

theorem form_of_parsed {name : String} {i : Invocation}
    (h : invocation? ["parse", name] = some i) : Form.of name = .plain name := by
  rw [invocation?, invocationAfter?_of_command rfl] at h
  obtain ⟨grammar, parts, hgrammar, hparts, hrequest, -⟩ := commandAfter?_eq_some_iff.mp h
  obtain rfl : parseGrammar = grammar := Option.some.inj (grammar?_parse.symm.trans hgrammar)
  refine form_of_operand hparts (length_operands_of_request? hrequest) (by simp) (by simp) ?_
  intro p q hq
  obtain rfl := Option.some.inj hq
  rfl

/-- A name alone is accepted exactly when it is plain. -/
theorem invocation?_parse_eq_some_iff {name : String} {i : Invocation} :
    invocation? ["parse", name] = some i ↔
      Form.of name = .plain name ∧ i = ⟨false, .parse name⟩ := by
  have haccepted (hplain : Form.of name = .plain name) :
      invocation? ["parse", name] = some ⟨false, .parse name⟩ := by
    refine invocation?_parse ?_
    rw [Parts.scan?_cons, Front.of, hplain]
    rfl
  constructor
  · intro h
    have hplain := form_of_parsed h
    rw [haccepted hplain] at h
    exact ⟨hplain, (Option.some.inj h).symm⟩
  · rintro ⟨hplain, rfl⟩
    exact haccepted hplain

/-! ## Output -/

theorem unlines_append (front back : List String) :
    unlines (front ++ back) = unlines front ++ unlines back := by
  rw [unlines, List.map_append, String.join_append]
  rfl

/-- Lines are parted by line breaks, and the last one ends with one. -/
theorem unlines_eq_intercalate {lines : List String} (h : lines ≠ []) :
    unlines lines = String.intercalate "\n" lines ++ "\n" := by
  induction lines with
  | nil => exact absurd rfl h
  | cons line lines ih =>
      cases lines with
      | nil => simp [unlines]
      | cons next rest =>
          have hrest := ih (List.cons_ne_nil next rest)
          rw [← List.singleton_append, unlines_append, hrest]
          simp [unlines, String.append_assoc]

theorem hexDump_ne_nil {bs : List UInt8} (h : bs ≠ []) : hexDump bs ≠ [] := by
  have hlength := (shows_hexDump bs).length
  have hpos := List.length_pos_iff.mpr h
  refine List.ne_nil_of_length_pos ?_
  omega

theorem image_toList_ne_nil (b : ControlBlock) : b.image.toList ≠ [] :=
  List.ne_nil_of_length_pos (by simp)

theorem exists_unlines_printBlock (b : ControlBlock) :
    ∃ fields, unlines (printBlock b) =
      fields ++ "bytes (36):\n" ++ dumpText b.image.toList ++ "\n" := by
  obtain ⟨fields, hfields⟩ : ∃ fields, printBlock b =
      fields ++ ["bytes (36):"] ++ hexDump b.image.toList := ⟨_, rfl⟩
  have hdump := unlines_eq_intercalate (hexDump_ne_nil (image_toList_ne_nil b))
  refine ⟨unlines fields, ?_⟩
  rw [hfields, unlines_append, unlines_append, hdump, ← String.append_assoc]
  rfl

/-- A dump has a row for every twelve bytes and one for the rest, each labelled with the offset of
its first byte, and reads as the bytes that were dumped. So different bytes have different dumps.
The command that parses a name takes any name, behind two dashes at least, and ends its output with
the dump of the block, in which each byte stands at its offset. -/
theorem dump_reads_back (bs : List UInt8) (host : Host) (name : String) :
    (Shows bs (hexDump bs) ∧ readRows? (hexDump bs) = some bs ∧
      readDump? (dumpText bs) = some bs ∧ ∀ other, dumpText other = dumpText bs → other = bs) ∧
    (∀ i, invocation? ["parse", name] = some i ↔
      Form.of name = .plain name ∧ i = ⟨false, .parse name⟩) ∧
    invocation? ["parse", "--", name] = some ⟨false, .parse name⟩ ∧
    ∀ args trace, invocation? args = some ⟨trace, .parse name⟩ →
      let image := (ControlBlock.parse name).image
      (∃ fields, runArguments host args =
        ⟨0, fields ++ "bytes (36):\n" ++ dumpText image.toList ++ "\n", []⟩) ∧
      readDump? (dumpText image.toList) = some image.toList ∧
      ∀ (i : Nat) (h : i < 36), ∃ row shown, (hexDump image.toList)[i / 12]? = some row ∧
        readRow? row = some (12 * (i / 12), shown) ∧ shown[i % 12]? = some image[i] := by
  refine ⟨⟨shows_hexDump bs, readRows?_hexDump bs, readDump?_dumpText bs, ?_⟩,
    fun i => invocation?_parse_eq_some_iff, invocation?_parse rfl, ?_⟩
  · intro other h
    exact dumpText_inj h
  intro args trace h image
  refine ⟨?_, readDump?_dumpText image.toList, fun i hi => ?_⟩
  · obtain ⟨fields, hfields⟩ := exists_unlines_printBlock (.parse name)
    refine ⟨fields, ?_⟩
    rw [runArguments_of_accepted h, ← hfields]
    rfl
  · have hbyte : image.toList[i]? = some image[i] := by simp [hi]
    exact (shows_hexDump image.toList).byte hbyte

/-- The last byte of the name in a block, and where the dump shows it. -/
theorem dump_reads_back_last_name_byte :
    let host := (Disk.around .empty).host
    let image := (ControlBlock.parse "b:abcdefgh.t").image.toList
    (∃ fields, runArguments host ["parse", "b:abcdefgh.t"] =
      ⟨0, fields ++ "bytes (36):\n" ++ dumpText image ++ "\n", []⟩) ∧
    (∃ fields, runArguments host ["--trace", "parse", "--", "b:abcdefgh.t"] =
      ⟨0, fields ++ "bytes (36):\n" ++ dumpText image ++ "\n", []⟩) ∧
    (∃ row shown, (hexDump image)[0]? = some row ∧ readRow? row = some (0, shown) ∧
      shown[8]? = some 0x48) ∧
    ∃ row shown, (hexDump image)[2]? = some row ∧ readRow? row = some (24, shown) ∧
      shown[11]? = some 0 := by
  intro host image
  obtain ⟨-, -, -, hrun⟩ := dump_reads_back [] host "b:abcdefgh.t"
  have hplain : invocation? ["parse", "b:abcdefgh.t"] = some ⟨false, .parse "b:abcdefgh.t"⟩ := by
    decide +kernel
  have htraced : invocation? ["--trace", "parse", "--", "b:abcdefgh.t"] =
      some ⟨true, .parse "b:abcdefgh.t"⟩ := by decide +kernel
  obtain ⟨houtput, -, hbytes⟩ := hrun _ _ hplain
  obtain ⟨houtput', -, -⟩ := hrun _ _ htraced
  have hname : (ControlBlock.parse "b:abcdefgh.t").image[8] = 0x48 := by decide +kernel
  have hlast : (ControlBlock.parse "b:abcdefgh.t").image[35] = 0 := by decide +kernel
  exact ⟨houtput, houtput', hname ▸ hbytes 8 (by decide), hlast ▸ hbytes 35 (by decide)⟩

end GuestFiles.Command
