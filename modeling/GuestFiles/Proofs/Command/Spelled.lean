import GuestFiles.Proofs.Command.Arguments
import GuestFiles.Proofs.Json.Records

/-! # Arguments that spell a position

A number that is written out reads as itself, and a position with a name in front of it is accepted
when the name is not read as anything else. Behind two dashes every name is accepted. -/

namespace GuestFiles.Command

/-! ## Spelling -/

theorem digits?_repr (n : Nat) : digits? n.repr.toList = some n := by
  have hall : ∀ d ∈ Nat.toDigits 10 n, d.isDigit := fun d hd =>
    Nat.isDigit_of_mem_toDigits (by decide) (by decide) hd
  have hvalue : (Nat.toDigits 10 n).foldl (fun n c => n * 10 + (c.toNat - '0'.toNat)) 0 = n := by
    have hdigits := Nat.ofDigitChars_ten_toDigits (n := n)
    simpa only [Nat.ofDigitChars_eq_foldl, Nat.mul_comm 10] using hdigits
  rw [Nat.repr_eq_ofList_toDigits, String.toList_ofList, digits?, hvalue, if_neg]
  simpa [Nat.toDigits_ne_nil] using hall

theorem word32?_repr (n : UInt32) : word32? n.toNat.repr = some n := by
  obtain ⟨d, digits, hrepr, hd⟩ := Json.repr_toList_eq_cons n.toNat
  have hdigits := digits?_repr n.toNat
  have hlt : n.toNat < UInt32.size := n.toNat_lt
  have hword : n.toNat.toUInt32 = n := UInt32.ofNat_toNat
  rw [hrepr] at hdigits
  rw [word32?, hrepr]
  split
  · next heq =>
      obtain rfl := (List.cons.inj heq).1
      cases hd
  · next heq =>
      obtain rfl := (List.cons.inj heq).1
      cases hd
  · simp only [hdigits, Option.bind_eq_bind, Option.bind_some, if_pos hlt, hword]

theorem Form.of_eq_plain {argument : String} {c : Char} {cs : List Char}
    (h : argument.toList = c :: cs) (hc : c ≠ '-') : Form.of argument = .plain argument := by
  unfold Form.of
  rw [h]
  split
  · next heq => exact absurd (List.cons.inj heq).1 hc
  · next heq => exact absurd (List.cons.inj heq).1 hc
  · next heq => exact absurd (List.cons.inj heq).1 hc
  · rfl

theorem Form.of_repr (n : Nat) : Form.of n.repr = .plain n.repr := by
  obtain ⟨d, digits, hrepr, hd⟩ := Json.repr_toList_eq_cons n
  refine of_eq_plain hrepr ?_
  rintro rfl
  cases hd

namespace Position

/-- The option that a position is given by. -/
def option : Position → String
  | .sequential _ => "sequential"
  | .random _ => "random"

def flag : Position → String
  | .sequential _ => "--sequential"
  | .random _ => "--random"

/-- The number that a position is given by. -/
def given : Position → UInt32
  | .sequential offset => offset
  | .random record => record

/-- The arguments that give a position. -/
def spelled (position : Position) : List String :=
  [position.flag, position.given.toNat.repr]

end Position

/-! ## Accepted arguments -/

/-- What the command for positions takes. -/
def positionGrammar : Grammar :=
  ⟨["trace"], ["sequential", "random"]⟩

theorem grammar?_offset : grammar? "offset" = some positionGrammar := rfl

/-- The parts of a position and its name. -/
def Position.parts (position : Position) (name : String) : Parts :=
  ⟨[name], [], [(position.option, position.given.toNat.repr)]⟩

theorem form_of_flag (position : Position) :
    Form.of position.flag = .long position.option none := by
  cases position with
  | sequential offset => exact (rfl : Form.of "--sequential" = .long "sequential" none)
  | random record => exact (rfl : Form.of "--random" = .long "random" none)

theorem front_of_flag (position : Position) (rest : List String) :
    Front.of positionGrammar position.flag (position.given.toNat.repr :: rest) =
      .adds (.option position.option position.given.toNat.repr) rest := by
  have hflag : position.option ∉ positionGrammar.flags := by
    cases position <;> simp [Position.option, positionGrammar]
  have hoption : position.option ∈ positionGrammar.options := by
    cases position <;> simp [Position.option, positionGrammar]
  rw [Front.of, form_of_flag]
  simp only [Front.ofName, if_neg hflag, if_pos hoption, Form.of_repr]

/-- A position may stand behind its name. -/
theorem scan?_name_first {name : String} (h : Form.of name = .plain name) (position : Position) :
    Parts.scan? positionGrammar (name :: position.spelled) .empty = some (position.parts name) := by
  have hname : Front.of positionGrammar name position.spelled =
      .adds (.operand name) position.spelled := by
    rw [Front.of, h]
  rw [Parts.scan?_cons, hname]
  simp only [Position.spelled, Parts.add?, Option.bind_some, Parts.scan?_cons, front_of_flag]
  rfl

/-- A name may stand behind two dashes, whatever it begins with. -/
theorem scan?_name_last (name : String) (position : Position) :
    Parts.scan? positionGrammar (position.spelled ++ ["--", name]) .empty =
      some (position.parts name) := by
  simp only [Position.spelled, List.cons_append, List.nil_append, Parts.scan?_cons,
    front_of_flag]
  rfl

theorem request?_parts (name : String) (position : Position) :
    request? "offset" (position.parts name) = some (.offset name position) := by
  have hposition : (position.parts name).position? = some position := by
    have hnumber := word32?_repr position.given
    cases position with
    | sequential offset => exact congrArg (Option.map Position.sequential) hnumber
    | random record => exact congrArg (Option.map Position.random) hnumber
  have hparse : "offset" ≠ "parse" := by decide
  have hfind : "offset" ≠ "find" := by decide
  have hoperand : (position.parts name).operand? = some name := rfl
  simp only [request?, hoperand, hposition, if_neg hparse, if_neg hfind, Option.bind_eq_bind,
    Option.bind_some]
  rfl

/-! ### Names in front -/

theorem Form.eq_of_plain {argument text : String} (h : Form.of argument = .plain text) :
    text = argument := by
  unfold Form.of at h
  split at h
  · cases h
  · split at h <;> cases h
  · cases h
  · cases h
    rfl

/-- An argument that is no plain name adds no operand, and takes no value from behind it where no
plain argument follows. -/
theorem front_of_not_plain {grammar : Grammar} {name : String} {rest : List String}
    (h : ∀ text, Form.of name ≠ .plain text)
    (hrest : ∀ value ∈ rest.head?, ∀ text, Form.of value ≠ .plain text) :
    Front.of grammar name rest = .refused ∨ Front.of grammar name rest = .dashes ∨
      ∃ addition : Addition, addition.operands = [] ∧
        Front.of grammar name rest = .adds addition rest := by
  unfold Front.of
  cases hform : Form.of name with
  | dashes => exact .inr (.inl rfl)
  | plain text => exact absurd hform (h text)
  | short letters => exact .inr (.inr ⟨.letters letters, rfl, rfl⟩)
  | long option value? =>
      cases value? with
      | some value =>
          by_cases hoption : option ∈ grammar.options
          · simp only [if_pos hoption]
            exact .inr (.inr ⟨.option option value, rfl, rfl⟩)
          · simp only [if_neg hoption]
            exact .inl trivial
      | none =>
          by_cases hflag : option ∈ grammar.flags
          · simp only [Front.ofName, if_pos hflag]
            exact .inr (.inr ⟨.flag option, rfl, rfl⟩)
          · refine .inl ?_
            simp only [Front.ofName, if_neg hflag]
            by_cases hoption : option ∈ grammar.options
            · simp only [if_pos hoption]
              cases rest with
              | nil => rfl
              | cons value rest =>
                  have hvalue := hrest value rfl
                  dsimp only
                  cases hform : Form.of value with
                  | plain text => exact absurd hform (hvalue text)
                  | _ => rfl
            · simp only [if_neg hoption]

/-- Where the arguments behind a name add no operand, and are not a single argument, the only
operand is the name. -/
theorem form_of_operand {grammar : Grammar} {name : String} {rest : List String} {parts : Parts}
    (hscan : Parts.scan? grammar (name :: rest) .empty = some parts)
    (hone : parts.operands.length = 1)
    (hrest : ∀ value ∈ rest.head?, ∀ text, Form.of value ≠ .plain text)
    (hlength : rest.length ≠ 1)
    (hnone : ∀ p q, Parts.scan? grammar rest p = some q → q.operands = p.operands) :
    Form.of name = .plain name := by
  by_cases hplain : ∃ text, Form.of name = .plain text
  · obtain ⟨text, htext⟩ := hplain
    rw [htext, Form.eq_of_plain htext]
  · exfalso
    rw [Parts.scan?_cons] at hscan
    rcases front_of_not_plain (not_exists.mp hplain) hrest with
      hfront | hfront | ⟨addition, hnothing, hfront⟩
    · rw [hfront] at hscan
      cases hscan
    · -- all arguments behind the name are operands then
      rw [hfront] at hscan
      obtain rfl := Option.some.inj hscan
      exact hlength hone
    · rw [hfront] at hscan
      obtain ⟨next, hnext, hbehind⟩ := Option.bind_eq_some_iff.mp hscan
      rw [hnone next parts hbehind, (Parts.grows_add? hnext).operands, hnothing] at hone
      cases hone

theorem operands_scan?_spelled {p q : Parts} {position : Position}
    (h : Parts.scan? positionGrammar position.spelled p = some q) : q.operands = p.operands := by
  rw [Position.spelled, Parts.scan?_cons, front_of_flag] at h
  obtain ⟨next, hnext, hrest⟩ := Option.bind_eq_some_iff.mp h
  obtain rfl := Option.some.inj hrest
  rw [(Parts.grows_add? hnext).operands]
  exact List.append_nil p.operands

/-- A name in front of a position is accepted only if it is plain. -/
theorem form_of_accepted {name : String} {position : Position} {i : Invocation}
    (h : invocation? ("offset" :: name :: position.spelled) = some i) :
    Form.of name = .plain name := by
  rw [invocation?, invocationAfter?_of_command rfl] at h
  obtain ⟨grammar, parts, hgrammar, hparts, hrequest, -⟩ := commandAfter?_eq_some_iff.mp h
  obtain rfl : positionGrammar = grammar := Option.some.inj (grammar?_offset.symm.trans hgrammar)
  refine form_of_operand hparts (length_operands_of_request? hrequest) ?_
    (by simp [Position.spelled]) fun p q => operands_scan?_spelled
  rintro _ ⟨⟩ text hform
  rw [form_of_flag] at hform
  cases hform

theorem invocation?_of_scan? {args : List String} {name : String} {position : Position}
    (h : Parts.scan? positionGrammar args .empty = some (position.parts name)) :
    invocation? ("offset" :: args) = some ⟨false, .offset name position⟩ := by
  rw [invocation?, invocationAfter?_of_command rfl]
  exact commandAfter?_eq_some_iff.mpr
    ⟨positionGrammar, position.parts name, grammar?_offset, h, request?_parts name position, rfl⟩

/-- A position behind its name is accepted exactly when the name is plain. -/
theorem invocation?_spelled_eq_some_iff {name : String} {position : Position} {i : Invocation} :
    invocation? ("offset" :: name :: position.spelled) = some i ↔
      Form.of name = .plain name ∧ i = ⟨false, .offset name position⟩ := by
  constructor
  · intro h
    have hplain := form_of_accepted h
    rw [invocation?_of_scan? (scan?_name_first hplain position)] at h
    exact ⟨hplain, (Option.some.inj h).symm⟩
  · rintro ⟨hplain, rfl⟩
    exact invocation?_of_scan? (scan?_name_first hplain position)

end GuestFiles.Command
