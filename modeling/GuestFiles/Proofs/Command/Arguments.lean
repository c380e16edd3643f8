import GuestFiles.Command.Arguments
import Mathlib.Logic.Basic

/-! # A flag more

A flag may stand anywhere among the arguments of a command where it is read as a flag at all, and it
makes no difference where. Arguments that are understood with the flag and without it spell
invocations that differ in the flag alone. -/

namespace GuestFiles.Command

/-! ## One argument after the other -/

/-- What one argument adds to the parts, perhaps together with a value behind it. -/
inductive Addition where
  | operand (text : String)
  | letters (cs : List Char)
  | flag (name : String)
  | option (name value : String)

/-- The operands that an addition brings. -/
def Addition.operands : Addition → List String
  | .operand text => [text]
  | _ => []

def Parts.add? (parts : Parts) : Addition → Option Parts
  | .operand text => some { parts with operands := parts.operands ++ [text] }
  | .letters cs => parts.addLetters? cs
  | .flag name => parts.addFlag? name
  | .option name value => parts.addOption? name value

/-- How the arguments of a command begin. -/
inductive Front where
  | refused
  | dashes
  /-- An addition, and the arguments behind what makes it. -/
  | adds (addition : Addition) (rest : List String)

/-- A flag or an option without a value of its own: an option takes its value from the arguments
behind it. -/
def Front.ofName (grammar : Grammar) (name : String) (rest : List String) : Front :=
  if name ∈ grammar.flags then .adds (.flag name) rest
  else if name ∈ grammar.options then
    match rest with
    | [] => .refused
    | value :: rest =>
      match Form.of value with
      | .plain value => .adds (.option name value) rest
      | _ => .refused
  else .refused

def Front.of (grammar : Grammar) (argument : String) (rest : List String) : Front :=
  match Form.of argument with
  | .dashes => .dashes
  | .plain text => .adds (.operand text) rest
  | .short letters => .adds (.letters letters) rest
  | .long name (some value) =>
    if name ∈ grammar.options then .adds (.option name value) rest else .refused
  | .long name none => .ofName grammar name rest

theorem Front.length_ofName_le {grammar : Grammar} {name : String} {rest behind : List String}
    {addition : Addition} (h : Front.ofName grammar name rest = .adds addition behind) :
    behind.length ≤ rest.length := by
  unfold ofName at h
  split at h
  · cases h
    exact Nat.le_refl _
  · split at h
    · split at h
      · cases h
      · split at h
        · cases h
          exact Nat.le_succ _
        · cases h
    · cases h

theorem Front.length_le {grammar : Grammar} {argument : String} {rest behind : List String}
    {addition : Addition} (h : Front.of grammar argument rest = .adds addition behind) :
    behind.length ≤ rest.length := by
  unfold Front.of at h
  split at h
  · cases h
  · cases h
    exact Nat.le_refl _
  · cases h
    exact Nat.le_refl _
  · split at h
    · cases h
      exact Nat.le_refl _
    · cases h
  · exact length_ofName_le h

/-- The first argument is read in the same way whatever is put in behind `front`, unless it is an
option that takes its value from there. -/
theorem Front.of_append (grammar : Grammar) (argument : String) (front : List String) :
    (∀ tail, Front.of grammar argument (front ++ tail) = .refused) ∨
    (∀ tail, Front.of grammar argument (front ++ tail) = .dashes) ∨
    (∃ addition behind, behind.length ≤ front.length ∧
      ∀ tail, Front.of grammar argument (front ++ tail) = .adds addition (behind ++ tail)) ∨
    (front = [] ∧ ∀ value tail, (∀ text, Form.of value ≠ .plain text) →
      Front.of grammar argument (value :: tail) = .refused) := by
  unfold Front.of
  cases Form.of argument with
  | dashes => exact .inr (.inl fun tail => rfl)
  | plain text => exact .inr (.inr (.inl ⟨_, front, Nat.le_refl _, fun tail => rfl⟩))
  | short letters => exact .inr (.inr (.inl ⟨_, front, Nat.le_refl _, fun tail => rfl⟩))
  | long name value? =>
      cases value? with
      | some value =>
          by_cases hoption : name ∈ grammar.options
          · simp only [if_pos hoption]
            exact .inr (.inr (.inl ⟨_, front, Nat.le_refl _, fun tail => rfl⟩))
          · simp only [if_neg hoption]
            exact .inl fun tail => trivial
      | none =>
          by_cases hflag : name ∈ grammar.flags
          · simp only [ofName, if_pos hflag]
            exact .inr (.inr (.inl ⟨_, front, Nat.le_refl _, fun tail => rfl⟩))
          by_cases hoption : name ∈ grammar.options
          · simp only [ofName, if_neg hflag, if_pos hoption]
            cases front with
            | nil =>
                refine .inr (.inr (.inr ⟨rfl, fun value tail hvalue => ?_⟩))
                cases hform : Form.of value with
                | plain text => exact absurd hform (hvalue text)
                | _ => rfl
            | cons value front =>
                simp only [List.cons_append]
                cases Form.of value with
                | plain text =>
                    exact .inr (.inr (.inl ⟨_, front, Nat.le_succ _, fun tail => rfl⟩))
                | _ => exact .inl fun tail => rfl
          · simp only [ofName, if_neg hflag, if_neg hoption]
            exact .inl fun tail => trivial

namespace Parts

variable {grammar : Grammar}

theorem scan?_cons (argument : String) (rest : List String) (parts : Parts) :
    scan? grammar (argument :: rest) parts =
      match Front.of grammar argument rest with
      | .refused => none
      | .dashes => some { parts with operands := parts.operands ++ rest }
      | .adds addition rest => (parts.add? addition).bind (scan? grammar rest) := by
  rw [scan?.eq_def]
  simp only [Front.of]
  cases hform : Form.of argument with
  | dashes => rfl
  | plain text => rfl
  | short letters => rfl
  | long name value? =>
      cases value? with
      | some value =>
          by_cases hoption : name ∈ grammar.options
          · simp only [if_pos hoption]
            rfl
          · simp only [if_neg hoption]
      | none =>
          simp only [Front.ofName]
          by_cases hflag : name ∈ grammar.flags
          · simp only [if_pos hflag]
            rfl
          · by_cases hoption : name ∈ grammar.options
            · cases rest with
              | nil => simp only [if_neg hflag, if_pos hoption]
              | cons value rest =>
                  simp only [if_neg hflag, if_pos hoption]
                  cases Form.of value <;> rfl
            · simp only [if_neg hflag, if_neg hoption]

/-! ## Parts that grow -/

/-- Parts with some operands more, and with all the flags that they had. -/
structure Grows (operands : List String) (p q : Parts) : Prop where
  operands : q.operands = p.operands ++ operands
  flags : p.flags ⊆ q.flags

section Growing

variable {p q : Parts}

theorem grows_addFlag? {flag : String} (h : p.addFlag? flag = some q) : Grows [] p q := by
  unfold addFlag? at h
  split at h
  · cases h
  · obtain rfl := Option.some.inj h
    exact ⟨(List.append_nil p.operands).symm, List.subset_cons_self flag p.flags⟩

theorem addLetters?_trace (p : Parts) (letters : List Char) :
    p.addLetters? ('t' :: letters) = (p.addFlag? "trace").bind (addLetters? · letters) := rfl

theorem addLetters?_of_ne {c : Char} (h : c ≠ 't') (p : Parts) (letters : List Char) :
    p.addLetters? (c :: letters) = none := by
  unfold addLetters?
  split
  · next heq => cases heq
  · next heq => exact absurd (List.cons.inj heq).1 h
  · rfl

theorem grows_addLetters? {letters : List Char} (h : p.addLetters? letters = some q) :
    Grows [] p q := by
  induction letters generalizing p with
  | nil =>
      obtain rfl := Option.some.inj h
      exact ⟨(List.append_nil p.operands).symm, List.Subset.refl _⟩
  | cons c letters ih =>
      by_cases hc : c = 't'
      · subst hc
        obtain ⟨next, hnext, hrest⟩ := Option.bind_eq_some_iff.mp h
        have hfirst := grows_addFlag? hnext
        have hall := ih hrest
        exact ⟨by rw [hall.operands, List.append_nil, hfirst.operands],
          List.Subset.trans hfirst.flags hall.flags⟩
      · rw [addLetters?_of_ne hc] at h
        cases h

theorem grows_add? {addition : Addition} (h : p.add? addition = some q) :
    Grows addition.operands p q := by
  cases addition with
  | operand text =>
      obtain rfl := Option.some.inj h
      exact ⟨rfl, List.Subset.refl _⟩
  | letters cs => exact grows_addLetters? h
  | flag name => exact grows_addFlag? h
  | option name value =>
      simp only [add?, addOption?] at h
      split at h
      · cases h
      · obtain rfl := Option.some.inj h
        exact ⟨(List.append_nil p.operands).symm, List.Subset.refl _⟩

end Growing

/-! ## Parts with a flag more -/

/-- Parts that differ in one flag, which the first ones do not have. -/
structure Flagged (name : String) (p q : Parts) : Prop where
  operands : q.operands = p.operands
  options : q.options = p.options
  fresh : name ∉ p.flags
  flags : ∀ flag, flag ∈ q.flags ↔ flag = name ∨ flag ∈ p.flags

/-- How two readings go on of which the second has a flag more: they agree but for the flag, or the
first one comes to the flag too, which the second one refuses then. -/
inductive Alongside (name : String) : Option Parts → Option Parts → Prop where
  | refused : Alongside name none none
  | both {p q : Parts} (h : Flagged name p q) : Alongside name (some p) (some q)
  | twice {p : Parts} (h : name ∈ p.flags) : Alongside name (some p) none

section Additions

variable {name : String} {p q : Parts}

theorem Alongside.bind {x y : Option Parts} {f : Parts → Option Parts} (h : Alongside name x y)
    (hkeeps : ∀ {p q}, f p = some q → p.flags ⊆ q.flags)
    (hboth : ∀ {p q}, Flagged name p q → Alongside name (f p) (f q)) :
    Alongside name (x.bind f) (y.bind f) := by
  cases h with
  | refused => exact .refused
  | both h => exact hboth h
  | @twice p h =>
      rw [Option.bind_some, Option.bind_none]
      cases hf : f p with
      | none => exact .refused
      | some q => exact .twice (hkeeps hf h)

/-- Parts that do not have a flag yet take it. -/
theorem addFlag?_of_not_mem (h : name ∉ p.flags) :
    ∃ q, p.addFlag? name = some q ∧ Flagged name p q :=
  ⟨_, if_neg h, rfl, rfl, h, fun _ => List.mem_cons⟩

theorem not_mem_of_addFlag? (h : p.addFlag? name = some q) : name ∉ p.flags := by
  intro hmem
  rw [addFlag?, if_pos hmem] at h
  cases h

theorem Flagged.addFlag? (h : Flagged name p q) (flag : String) :
    Alongside name (p.addFlag? flag) (q.addFlag? flag) := by
  unfold Parts.addFlag?
  by_cases hname : flag = name
  · subst hname
    rw [if_neg h.fresh, if_pos ((h.flags flag).mpr (.inl rfl))]
    exact .twice List.mem_cons_self
  · have hmem : flag ∈ q.flags ↔ flag ∈ p.flags := by simp [h.flags, hname]
    by_cases hgiven : flag ∈ p.flags
    · rw [if_pos hgiven, if_pos (hmem.mpr hgiven)]
      exact .refused
    · rw [if_neg hgiven, if_neg (mt hmem.mp hgiven)]
      refine .both ⟨h.operands, h.options, ?_, ?_⟩
      · simp [h.fresh, Ne.symm hname]
      · intro other
        simp only [List.mem_cons, h.flags]
        exact or_left_comm

theorem Flagged.addLetters? (h : Flagged name p q) (letters : List Char) :
    Alongside name (p.addLetters? letters) (q.addLetters? letters) := by
  induction letters generalizing p q with
  | nil => exact .both h
  | cons c letters ih =>
      by_cases hc : c = 't'
      · subst hc
        exact (h.addFlag? "trace").bind (fun hnext => (grows_addLetters? hnext).flags) ih
      · rw [addLetters?_of_ne hc, addLetters?_of_ne hc]
        exact .refused

theorem Flagged.add? (h : Flagged name p q) (addition : Addition) :
    Alongside name (p.add? addition) (q.add? addition) := by
  cases addition with
  | operand text =>
      exact .both ⟨congrArg (· ++ [text]) h.operands, h.options, h.fresh, h.flags⟩
  | letters cs => exact h.addLetters? cs
  | flag name => exact h.addFlag? name
  | option key value =>
      simp only [Parts.add?, addOption?, h.options]
      split
      · exact .refused
      · exact .both ⟨h.operands, congrArg ((key, value) :: ·) rfl, h.fresh, h.flags⟩

end Additions

/-! ## Whole readings -/

section Scan

variable {grammar : Grammar} {name : String}

theorem flags_subset_scan? {p q : Parts} (args : List String)
    (h : scan? grammar args p = some q) : p.flags ⊆ q.flags := by
  -- on the length, since an option takes two arguments at once
  match args with
  | [] =>
      obtain rfl := Option.some.inj h
      exact List.Subset.refl _
  | argument :: rest =>
      rw [scan?_cons] at h
      cases hfront : Front.of grammar argument rest with
      | refused =>
          rw [hfront] at h
          cases h
      | dashes =>
          rw [hfront] at h
          obtain rfl := Option.some.inj h
          exact List.Subset.refl _
      | adds addition behind =>
          rw [hfront] at h
          have hshorter := Front.length_le hfront
          obtain ⟨next, hnext, hrest⟩ := Option.bind_eq_some_iff.mp h
          exact List.Subset.trans (grows_add? hnext).flags (flags_subset_scan? behind hrest)
termination_by args.length

theorem Flagged.scan? {p q : Parts} (h : Flagged name p q) (args : List String) :
    Alongside name (scan? grammar args p) (scan? grammar args q) := by
  match args with
  | [] => exact .both h
  | argument :: rest =>
      rw [scan?_cons, scan?_cons]
      cases hfront : Front.of grammar argument rest with
      | refused => exact .refused
      | dashes => exact .both ⟨congrArg (· ++ rest) h.operands, h.options, h.fresh, h.flags⟩
      | adds addition behind =>
          have hshorter := Front.length_le hfront
          exact (h.add? addition).bind (flags_subset_scan? behind)
            fun hnext => hnext.scan? behind
termination_by args.length

/-! ## A flag put in -/

/-- An argument that is read as a flag where the flag is known, is refused where it is not, and is
no value. -/
structure IsFlag (grammar : Grammar) (name argument : String) : Prop where
  scan?_eq : ∀ rest parts, scan? grammar (argument :: rest) parts =
    if name ∈ grammar.flags then (parts.addFlag? name).bind (scan? grammar rest) else none
  not_plain : ∀ text, Form.of argument ≠ .plain text

theorem isFlag_of_long {argument : String} (h : Form.of argument = .long name none)
    (hoption : name ∉ grammar.options) : IsFlag grammar name argument where
  scan?_eq rest parts := by
    rw [scan?_cons, Front.of, h]
    by_cases hflag : name ∈ grammar.flags
    · simp only [Front.ofName, if_pos hflag]
      rfl
    · simp only [Front.ofName, if_neg hflag, if_neg hoption]
  not_plain text := by
    rw [h]
    exact nofun

theorem isFlag_of_letter {argument : String} (h : Form.of argument = .short ['t'])
    (hflag : "trace" ∈ grammar.flags) : IsFlag grammar "trace" argument where
  scan?_eq rest parts := by
    rw [scan?_cons, Front.of, h, if_pos hflag]
    simp only [add?, addLetters?_trace]
    cases parts.addFlag? "trace" <;> rfl
  not_plain text := by
    rw [h]
    exact nofun

/-- Arguments that are read with a flag put in and without it give parts that differ in the flag
alone, unless it stands behind two dashes, where it is one operand more. -/
theorem scan?_insert {argument : String} (hargument : IsFlag grammar name argument)
    (front back : List String) {p r s : Parts} (hr : scan? grammar (front ++ back) p = some r)
    (hs : scan? grammar (front ++ argument :: back) p = some s) :
    name ∈ grammar.flags ∧ Flagged name r s ∨ s.operands.length = r.operands.length + 1 := by
  match front with
  | [] =>
      rw [List.nil_append] at hr hs
      rw [hargument.scan?_eq] at hs
      split at hs
      · next hflag =>
          left
          refine ⟨hflag, ?_⟩
          obtain ⟨q, hq, hs⟩ := Option.bind_eq_some_iff.mp hs
          obtain ⟨q', hq', hflagged⟩ := addFlag?_of_not_mem (not_mem_of_addFlag? hq)
          obtain rfl := Option.some.inj (hq.symm.trans hq')
          have halong : Alongside name (scan? grammar back p) (scan? grammar back q) :=
            hflagged.scan? back
          rw [hr, hs] at halong
          cases halong with
          | both h => exact h
      · cases hs
  | first :: front =>
      rw [List.cons_append, scan?_cons] at hr hs
      rcases Front.of_append grammar first front with
        hrefused | hdashes | ⟨addition, behind, hshorter, hadds⟩ | ⟨rfl, hvalue⟩
      · rw [hrefused] at hr
        cases hr
      · -- all that is behind the dashes is an operand
        rw [hdashes] at hr hs
        obtain rfl := Option.some.inj hr
        obtain rfl := Option.some.inj hs
        right
        simp only [List.length_append, List.length_cons]
        omega
      · rw [hadds] at hr hs
        obtain ⟨next, hnext, hr⟩ := Option.bind_eq_some_iff.mp hr
        obtain ⟨next', hnext', hs⟩ := Option.bind_eq_some_iff.mp hs
        obtain rfl : next = next' := Option.some.inj (hnext.symm.trans hnext')
        exact scan?_insert hargument behind back hr hs
      · -- the option in front would have to take the flag for its value
        rw [List.nil_append, hvalue argument back hargument.not_plain] at hs
        cases hs
termination_by front.length

end Scan

end Parts

/-! ## Requests -/

section Requests

variable {p q : Parts}

theorem Parts.length_of_operand? {parts : Parts} {operand : String}
    (h : parts.operand? = some operand) : parts.operands.length = 1 := by
  unfold Parts.operand? at h
  split at h
  · next heq => rw [heq, List.length_singleton]
  · cases h

theorem length_operands_of_request? {command : String} {parts : Parts} {request : Request}
    (h : request? command parts = some request) : parts.operands.length = 1 := by
  obtain ⟨operand, hoperand, -⟩ := Option.bind_eq_some_iff.mp h
  exact Parts.length_of_operand? hoperand

/-- The request that parts with the flag spell. -/
theorem Parts.Flagged.request?_trace (h : Flagged "trace" p q) (command : String) :
    request? command q = request? command p := by
  have hjson : q.flags.contains "json" = p.flags.contains "json" := by
    rw [Bool.eq_iff_iff, List.contains_iff_mem, List.contains_iff_mem, h.flags]
    simp
  simp only [request?, operand?, place?, limit?, position?, h.operands, h.options, hjson]

theorem Parts.Flagged.request?_json (h : Flagged "json" p q) {request : Request}
    (hp : request? "find" p = some request) :
    ∃ pattern place limit?, request = .find pattern place false limit? ∧
      request? "find" q = some (.find pattern place true limit?) := by
  have hpjson : p.flags.contains "json" = false := by
    simpa using h.fresh
  have hqjson : q.flags.contains "json" = true := by
    simp [h.flags]
  obtain ⟨operand, hoperand, hp⟩ := Option.bind_eq_some_iff.mp hp
  have hparse : "find" ≠ "parse" := by decide
  rw [if_neg hparse, if_pos rfl] at hp
  obtain ⟨place, hplace, hp⟩ := Option.bind_eq_some_iff.mp hp
  obtain ⟨limit?, hlimit, hp⟩ := Option.bind_eq_some_iff.mp hp
  obtain rfl := Option.some.inj hp
  refine ⟨operand, place, limit?, by rw [hpjson], ?_⟩
  simp only [Parts.operand?, Parts.place?, Parts.limit?] at hoperand hplace hlimit
  simp only [request?, operand?, place?, Parts.limit?, h.operands, h.options, hoperand, hplace,
    hlimit, hqjson]
  rfl

end Requests

/-! ## Invocations -/

/-- The invocation of a command with its arguments, after flags in front of it. -/
def commandAfter? (before : Parts) (command : String) (rest : List String) : Option Invocation := do
  let parts ← Parts.scan? (← grammar? command) rest .empty
  let request ← request? command parts
  return ⟨(before.flags ++ parts.flags).contains "trace", request⟩

/-- What an argument in front of a command says. -/
inductive Lead where
  | refused
  | command (name : String)
  | adds (addition : Addition)

def Lead.of (argument : String) : Lead :=
  match Form.of argument with
  | .plain name => .command name
  | .short letters => .adds (.letters letters)
  | .long name none => if name = "trace" then .adds (.flag name) else .refused
  | _ => .refused

theorem invocationAfter?_cons (before : Parts) (argument : String) (rest : List String) :
    invocationAfter? before (argument :: rest) =
      match Lead.of argument with
      | .refused => none
      | .command name => commandAfter? before name rest
      | .adds addition => (before.add? addition).bind (invocationAfter? · rest) := by
  rw [invocationAfter?, Lead.of]
  cases Form.of argument with
  | dashes => rfl
  | plain name => rfl
  | short letters => rfl
  | long name value? =>
      cases value? with
      | some value =>
          split
          all_goals first | rfl | next heq => cases heq
      | none =>
          by_cases hname : name = "trace"
          · subst hname
            rfl
          · simp only [if_neg hname]
            split
            · next heq => cases heq
            · next heq => cases heq; exact absurd rfl hname
            · next heq => cases heq
            · rfl

section Leads

variable {before : Parts} {first : String} {rest : List String}

theorem invocationAfter?_of_command {name : String} (h : Lead.of first = .command name) :
    invocationAfter? before (first :: rest) = commandAfter? before name rest := by
  rw [invocationAfter?_cons, h]

theorem invocationAfter?_of_adds {addition : Addition} (h : Lead.of first = .adds addition) :
    invocationAfter? before (first :: rest) =
      (before.add? addition).bind (invocationAfter? · rest) := by
  rw [invocationAfter?_cons, h]

/-- Accepted arguments begin with a command, or with something in front of one. -/
theorem lead_of_accepted {i : Invocation} (h : invocationAfter? before (first :: rest) = some i) :
    (∃ name, Lead.of first = .command name ∧ commandAfter? before name rest = some i) ∨
      ∃ addition next, Lead.of first = .adds addition ∧ before.add? addition = some next ∧
        invocationAfter? next rest = some i := by
  cases hlead : Lead.of first with
  | refused =>
      rw [invocationAfter?_cons, hlead] at h
      cases h
  | command name =>
      rw [invocationAfter?_of_command hlead] at h
      exact .inl ⟨name, rfl, h⟩
  | adds addition =>
      rw [invocationAfter?_of_adds hlead] at h
      obtain ⟨next, hnext, h⟩ := Option.bind_eq_some_iff.mp h
      exact .inr ⟨addition, next, rfl, hnext, h⟩

end Leads

theorem commandAfter?_eq_some_iff {before : Parts} {command : String} {rest : List String}
    {invocation : Invocation} :
    commandAfter? before command rest = some invocation ↔
      ∃ grammar parts, grammar? command = some grammar ∧
        Parts.scan? grammar rest .empty = some parts ∧
        request? command parts = some invocation.request ∧
        (before.flags ++ parts.flags).contains "trace" = invocation.trace := by
  constructor
  · intro h
    obtain ⟨grammar, hgrammar, h⟩ := Option.bind_eq_some_iff.mp h
    obtain ⟨parts, hparts, h⟩ := Option.bind_eq_some_iff.mp h
    obtain ⟨request, hrequest, h⟩ := Option.bind_eq_some_iff.mp h
    obtain rfl := Option.some.inj h
    exact ⟨grammar, parts, hgrammar, hparts, hrequest, rfl⟩
  · rintro ⟨grammar, parts, hgrammar, hparts, hrequest, htrace⟩
    simp only [commandAfter?, hgrammar, hparts, hrequest, htrace, bind, Option.bind]
    rfl

theorem grammar?_flags {command : String} {grammar : Grammar}
    (h : grammar? command = some grammar) :
    "trace" ∈ grammar.flags ∧ "trace" ∉ grammar.options ∧ "json" ∉ grammar.options ∧
      ("json" ∈ grammar.flags → command = "find") := by
  unfold grammar? at h
  split at h
  · obtain rfl := Option.some.inj h
    exact ⟨by decide, by decide, by decide, fun hjson => absurd hjson (by decide)⟩
  · split at h
    · next hfind =>
        obtain rfl := Option.some.inj h
        exact ⟨by decide, by decide, by decide, fun _ => hfind⟩
    · split at h
      · obtain rfl := Option.some.inj h
        exact ⟨by decide, by decide, by decide, fun hjson => absurd hjson (by decide)⟩
      · cases h

/-- What a command takes behind it with a flag put in, and without it. -/
theorem commandAfter?_insert {before : Parts} {command name argument : String}
    {front back : List String} {i j : Invocation}
    (hargument : ∀ grammar, grammar? command = some grammar → Parts.IsFlag grammar name argument)
    (hi : commandAfter? before command (front ++ back) = some i)
    (hj : commandAfter? before command (front ++ argument :: back) = some j) :
    ∃ grammar r s, grammar? command = some grammar ∧ name ∈ grammar.flags ∧
      Parts.Flagged name r s ∧
      (request? command r = some i.request ∧
        (before.flags ++ r.flags).contains "trace" = i.trace) ∧
      request? command s = some j.request ∧
        (before.flags ++ s.flags).contains "trace" = j.trace := by
  obtain ⟨grammar, r, hgrammar, hr, hireq, hitrace⟩ := commandAfter?_eq_some_iff.mp hi
  obtain ⟨_, s, hgrammar', hs, hjreq, hjtrace⟩ := commandAfter?_eq_some_iff.mp hj
  obtain rfl := Option.some.inj (hgrammar.symm.trans hgrammar')
  rcases Parts.scan?_insert (hargument grammar hgrammar) front back hr hs with
    ⟨hflag, hflagged⟩ | hlength
  · exact ⟨grammar, r, s, hgrammar, hflag, hflagged, ⟨hireq, hitrace⟩, hjreq, hjtrace⟩
  · -- behind two dashes it would be a second operand, and a request has only one
    rw [length_operands_of_request? hireq, length_operands_of_request? hjreq] at hlength
    omega

/-- Arguments with one put in are read alike up to the command, or up to the one put in. -/
theorem invocationAfter?_insert {argument : String} {back : List String}
    {P : Invocation → Invocation → Prop}
    (hhere : ∀ {before i j}, invocationAfter? before back = some i →
      invocationAfter? before (argument :: back) = some j → P i j)
    (hbehind : ∀ {before command front i j}, commandAfter? before command (front ++ back) = some i →
      commandAfter? before command (front ++ argument :: back) = some j → P i j)
    (front : List String) {before : Parts} {i j : Invocation}
    (hi : invocationAfter? before (front ++ back) = some i)
    (hj : invocationAfter? before (front ++ argument :: back) = some j) : P i j := by
  induction front generalizing before with
  | nil => exact hhere hi hj
  | cons first front ih =>
      rw [List.cons_append] at hi hj
      rcases lead_of_accepted hi with ⟨name, hlead, hi⟩ | ⟨addition, next, hlead, hnext, hi⟩
      · rw [invocationAfter?_of_command hlead] at hj
        exact hbehind hi hj
      · rw [invocationAfter?_of_adds hlead, hnext] at hj
        exact ih hi hj

/-! ## The whole log -/

/-- The arguments that ask for the whole log. -/
def traceFlags : List String :=
  ["-t", "--trace"]

theorem isFlag_of_mem_traceFlags {argument : String} (h : argument ∈ traceFlags)
    {command : String} {grammar : Grammar} (hgrammar : grammar? command = some grammar) :
    Parts.IsFlag grammar "trace" argument := by
  obtain ⟨hflag, hoption, -⟩ := grammar?_flags hgrammar
  simp only [traceFlags, List.mem_cons, List.not_mem_nil, or_false] at h
  rcases h with rfl | rfl
  · exact Parts.isFlag_of_letter rfl hflag
  · exact Parts.isFlag_of_long rfl hoption

theorem invocationAfter?_of_mem_traceFlags {argument : String} (h : argument ∈ traceFlags)
    (before : Parts) (rest : List String) :
    invocationAfter? before (argument :: rest) =
      (before.addFlag? "trace").bind (invocationAfter? · rest) := by
  simp only [traceFlags, List.mem_cons, List.not_mem_nil, or_false] at h
  rw [invocationAfter?_cons]
  rcases h with rfl | rfl
  · have hlead : Lead.of "-t" = .adds (.letters ['t']) := rfl
    simp only [hlead, Parts.add?, Parts.addLetters?_trace]
    cases before.addFlag? "trace" <;> rfl
  · rfl

theorem trace_of_mem_flags {before : Parts} {args : List String} {i : Invocation}
    (h : "trace" ∈ before.flags) (hi : invocationAfter? before args = some i) : i.trace = true := by
  induction args generalizing before with
  | nil => cases hi
  | cons first rest ih =>
      rcases lead_of_accepted hi with ⟨name, -, hi⟩ | ⟨addition, next, -, hnext, hi⟩
      · obtain ⟨grammar, parts, -, -, -, htrace⟩ := commandAfter?_eq_some_iff.mp hi
        rw [← htrace, List.contains_iff_mem]
        exact List.mem_append_left _ h
      · exact ih ((Parts.grows_add? hnext).flags h) hi

/-- With the flag in front of the command, the same request is made with the whole log, unless the
flag stands there twice. -/
theorem invocationAfter?_flagged {p q : Parts} (h : Parts.Flagged "trace" p q)
    {args : List String} {i : Invocation} (hi : invocationAfter? p args = some i) :
    invocationAfter? q args = some { i with trace := true } ∨
      i.trace = true ∧ invocationAfter? q args = none := by
  induction args generalizing p q with
  | nil => cases hi
  | cons first rest ih =>
      rcases lead_of_accepted hi with ⟨name, hlead, hi⟩ | ⟨addition, next, hlead, hnext, hi⟩
      · obtain ⟨grammar, parts, hgrammar, hparts, hrequest, -⟩ := commandAfter?_eq_some_iff.mp hi
        rw [invocationAfter?_of_command hlead]
        refine .inl (commandAfter?_eq_some_iff.mpr
          ⟨grammar, parts, hgrammar, hparts, hrequest, ?_⟩)
        rw [List.contains_iff_mem]
        exact List.mem_append_left _ ((h.flags "trace").mpr (.inl rfl))
      · have halong := h.add? addition
        rw [hnext] at halong
        rw [invocationAfter?_of_adds hlead]
        generalize q.add? addition = y at halong ⊢
        cases halong with
        | both hflagged => exact ih hflagged hi
        | twice hmem => exact .inr ⟨trace_of_mem_flags hmem hi, rfl⟩

/-- The flag put in makes the same request with the whole log. -/
theorem invocation?_insert_trace {argument : String} (hargument : argument ∈ traceFlags)
    {front back : List String} {i j : Invocation} (hi : invocation? (front ++ back) = some i)
    (hj : invocation? (front ++ argument :: back) = some j) : j = { i with trace := true } := by
  apply invocationAfter?_insert (P := fun i j => j = { i with trace := true }) ?_ ?_ front hi hj
  · intro before i j hi hj
    rw [invocationAfter?_of_mem_traceFlags hargument] at hj
    obtain ⟨next, hnext, hj⟩ := Option.bind_eq_some_iff.mp hj
    obtain ⟨next', hnext', hflagged⟩ :=
      Parts.addFlag?_of_not_mem (Parts.not_mem_of_addFlag? hnext)
    obtain rfl := Option.some.inj (hnext.symm.trans hnext')
    rcases invocationAfter?_flagged hflagged hi with hsome | ⟨-, hnone⟩
    · exact Option.some.inj (hj.symm.trans hsome)
    · rw [hnone] at hj
      cases hj
  · intro before command front i j hi hj
    obtain ⟨grammar, r, s, -, -, hflagged, ⟨hireq, -⟩, hjreq, hjtrace⟩ :=
      commandAfter?_insert (fun _ => isFlag_of_mem_traceFlags hargument) hi hj
    have hrequest : j.request = i.request := by
      rw [hflagged.request?_trace, hireq] at hjreq
      exact (Option.some.inj hjreq).symm
    have htrace : j.trace = true := by
      rw [← hjtrace, List.contains_iff_mem]
      exact List.mem_append_right _ ((hflagged.flags "trace").mpr (.inl rfl))
    rw [← hrequest, ← htrace]

/-- Any arguments without the flag are accepted with the flag in front of them. -/
theorem invocation?_trace_cons {argument : String} (hargument : argument ∈ traceFlags)
    {args : List String} {i : Invocation} (hi : invocation? args = some i)
    (htrace : i.trace = false) :
    invocation? (argument :: args) = some { i with trace := true } := by
  have hfresh : "trace" ∉ Parts.empty.flags := List.not_mem_nil
  obtain ⟨next, hadd, hflagged⟩ := Parts.addFlag?_of_not_mem hfresh
  rw [invocation?, invocationAfter?_of_mem_traceFlags hargument, hadd]
  rcases invocationAfter?_flagged hflagged hi with hsome | ⟨htrue, -⟩
  · exact hsome
  · rw [htrace] at htrue
    cases htrue

/-! ## Lists as JSON -/

theorem isFlag_json {command : String} {grammar : Grammar}
    (hgrammar : grammar? command = some grammar) : Parts.IsFlag grammar "json" "--json" :=
  Parts.isFlag_of_long rfl (grammar?_flags hgrammar).2.2.1

theorem invocationAfter?_json (before : Parts) (rest : List String) :
    invocationAfter? before ("--json" :: rest) = none := by
  rw [invocationAfter?_cons]
  rfl

theorem Parts.Flagged.contains_trace_json {p q : Parts} (h : Flagged "json" p q) (before : Parts) :
    (before.flags ++ q.flags).contains "trace" = (before.flags ++ p.flags).contains "trace" := by
  rw [Bool.eq_iff_iff, List.contains_iff_mem, List.contains_iff_mem, List.mem_append,
    List.mem_append, h.flags]
  simp

/-- The flag put in makes a list of files one as JSON. -/
theorem invocation?_insert_json {front back : List String} {i j : Invocation}
    (hi : invocation? (front ++ back) = some i)
    (hj : invocation? (front ++ "--json" :: back) = some j) :
    ∃ trace pattern place limit?, i = ⟨trace, .find pattern place false limit?⟩ ∧
      j = ⟨trace, .find pattern place true limit?⟩ := by
  apply invocationAfter?_insert (P := fun i j => ∃ trace pattern place limit?,
    i = ⟨trace, .find pattern place false limit?⟩ ∧
      j = ⟨trace, .find pattern place true limit?⟩) ?_ ?_ front hi hj
  · intro before i j hi hj
    rw [invocationAfter?_json] at hj
    cases hj
  · intro before command front i j hi hj
    obtain ⟨grammar, r, s, hgrammar, hjson, hflagged, ⟨hireq, hitrace⟩, hjreq, hjtrace⟩ :=
      commandAfter?_insert (fun _ => isFlag_json) hi hj
    obtain rfl := (grammar?_flags hgrammar).2.2.2 hjson
    obtain ⟨pattern, place, limit?, hrequest, hs⟩ := hflagged.request?_json hireq
    have htrace : j.trace = i.trace := by
      rw [← hitrace, ← hjtrace, hflagged.contains_trace_json]
    rw [hs] at hjreq
    refine ⟨i.trace, pattern, place, limit?, ?_, ?_⟩
    · rw [← hrequest]
    · rw [← htrace, Option.some.inj hjreq]

/-- A list of files is asked for behind the word for it. -/
theorem command_eq_find {command : String} {parts : Parts} {pattern : String} {place : Place}
    {json : Bool} {limit? : Option Nat}
    (h : request? command parts = some (.find pattern place json limit?)) :
    command = "find" ∧ json = parts.flags.contains "json" := by
  obtain ⟨operand, -, h⟩ := Option.bind_eq_some_iff.mp h
  split at h
  · cases h
  split at h
  · next hfind =>
      obtain ⟨place, -, h⟩ := Option.bind_eq_some_iff.mp h
      obtain ⟨limit?, -, h⟩ := Option.bind_eq_some_iff.mp h
      cases h
      exact ⟨hfind, rfl⟩
  · obtain ⟨position, -, h⟩ := Option.bind_eq_some_iff.mp h
    cases h

/-- Right behind the command the flag can be put in. -/
theorem commandAfter?_json {before : Parts} {command pattern : String} {rest : List String}
    {trace : Bool} {place : Place} {limit? : Option Nat}
    (h : commandAfter? before command rest = some ⟨trace, .find pattern place false limit?⟩) :
    ∃ j, commandAfter? before command ("--json" :: rest) = some j := by
  obtain ⟨grammar, parts, hgrammar, hparts, hrequest, -⟩ := commandAfter?_eq_some_iff.mp h
  obtain ⟨rfl, hjson⟩ := command_eq_find hrequest
  have hfresh : "json" ∉ Parts.empty.flags := List.not_mem_nil
  obtain ⟨next, hadd, hflagged⟩ := Parts.addFlag?_of_not_mem hfresh
  have hflag : "json" ∈ grammar.flags := by
    obtain rfl := Option.some.inj hgrammar
    decide
  have hscan := (isFlag_json hgrammar).scan?_eq rest .empty
  rw [if_pos hflag, hadd, Option.bind_some] at hscan
  have halong : Parts.Alongside "json" (Parts.scan? grammar rest .empty)
      (Parts.scan? grammar rest next) := hflagged.scan? rest
  rw [hparts] at halong
  generalize hnext : Parts.scan? grammar rest next = y at halong
  rw [hnext] at hscan
  cases halong with
  | both hflagged =>
      obtain ⟨_, _, _, -, hrequest'⟩ := hflagged.request?_json hrequest
      exact ⟨⟨_, _⟩, commandAfter?_eq_some_iff.mpr ⟨grammar, _, hgrammar, hscan, hrequest', rfl⟩⟩
  | twice hmem =>
      rw [eq_comm, ← Bool.not_eq_true, List.contains_iff_mem] at hjson
      exact absurd hmem hjson

theorem exists_insert_json_after {args : List String} {before : Parts} {trace : Bool}
    {pattern : String} {place : Place} {limit? : Option Nat}
    (h : invocationAfter? before args = some ⟨trace, .find pattern place false limit?⟩) :
    ∃ front back j, args = front ++ back ∧
      invocationAfter? before (front ++ "--json" :: back) = some j := by
  induction args generalizing before with
  | nil => cases h
  | cons first rest ih =>
      rcases lead_of_accepted h with ⟨name, hlead, h⟩ | ⟨addition, next, hlead, hnext, h⟩
      · obtain ⟨j, hj⟩ := commandAfter?_json h
        exact ⟨[first], rest, j, rfl, (invocationAfter?_of_command hlead).trans hj⟩
      · obtain ⟨front, back, j, rfl, hj⟩ := ih h
        refine ⟨first :: front, back, j, rfl, ?_⟩
        rw [List.cons_append, invocationAfter?_of_adds hlead, hnext]
        exact hj

/-- Any list of files can be asked for as JSON. -/
theorem exists_insert_json {args : List String} {trace : Bool} {pattern : String} {place : Place}
    {limit? : Option Nat}
    (h : invocation? args = some ⟨trace, .find pattern place false limit?⟩) :
    ∃ front back, args = front ++ back ∧
      invocation? (front ++ "--json" :: back) = some ⟨trace, .find pattern place true limit?⟩ := by
  obtain ⟨front, back, j, rfl, hj⟩ := exists_insert_json_after h
  obtain ⟨_, _, _, _, hi, rfl⟩ := invocation?_insert_json h hj
  cases hi
  exact ⟨front, back, rfl, hj⟩

end GuestFiles.Command
