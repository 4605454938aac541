import Octet.Command.Flag

/-!
# Reading the flags of the command line

A flag has a name, given as `--name`, and may have a letter, given as `-x`. Letters may be grouped.
A value follows after `=`, after the letter, or as the next argument; a switch needs none. What is
no flag is an operand, and after `--` everything is. Reference model of the parsing of flags before
a command runs.

* `Flag.readArgs` — takes the arguments of a command apart;
* `Flag.readArgs_letter`, `Flag.readArgs_switch`, `Flag.readArgs_name`, `Flag.readArgs_operand` —
  **one argument**;
* `Flag.reader` — so this is a reader of arguments.
-/

namespace Octet.Flag

/-- Reads a flag given by name, without its dashes, where `next` is the argument after it. Tells
whether that argument was used. -/
def readNamed (flags : List Flag) (o : Options) (body : Text) (next : Option Text) :
    Except Text (Options × Bool) :=
  if body.head? = some dash ∨ body.head? = some equalSign then
    .error (utf8 "bad flag syntax: --" ++ body)
  else
    let name := body.takeWhile (· != equalSign)
    match byName? flags name with
    | none => .error (utf8 "unknown flag: --" ++ name)
    | some f =>
      if name.length < body.length then return (← f.apply (body.drop (name.length + 1)) o, false)
      else
        match f.implied, next with
        | some value, _ => return (← f.apply (utf8 value) o, false)
        | none, some value => return (← f.apply value o, true)
        | none, none => .error (utf8 "flag needs an argument: --" ++ body)

/-- Whether letters are not meant for the tool: a test runner around it has flags of its own that
start so. -/
def isForTestRunner (letters : Text) : Bool := (utf8 "test.").isPrefixOf letters

/-- Reads flags given by letters, without their dash, where `next` is the argument after them. Tells
whether that argument was used. Letters for a test runner end them. -/
def readLetters (flags : List Flag) (o : Options) (next : Option Text) :
    Text → Except Text (Options × Bool)
  | [] => .ok (o, false)
  | c :: rest =>
    if isForTestRunner (c :: rest) then .ok (o, false)
    else
      match byLetter? flags c with
      | none =>
        .error (utf8 "unknown shorthand flag: " ++ Text.quoteChar c.toNat ++ utf8 " in -" ++
          (c :: rest))
      | some f =>
        if rest.head? = some equalSign ∧ 1 < rest.length then
          do return (← f.apply rest.tail o, false)
        else
          match f.implied with
          | some value => do readLetters flags (← f.apply (utf8 value) o) next rest
          | none =>
            if !rest.isEmpty then do return (← f.apply rest o, false)
            else
              match next with
              | some value => do return (← f.apply value o, true)
              | none =>
                .error (utf8 "flag needs an argument: " ++ Text.quoteChar c.toNat ++ utf8 " in -" ++
                  (c :: rest))

/-- Takes arguments apart into options and operands, after the operands found so far. -/
def readArgs (flags : List Flag) (o : Options) (operands : Array Text) :
    List Text → Except Text (Options × List Text)
  | [] => .ok (o, operands.toList)
  | a :: rest =>
    match a with
    | [] => readArgs flags o (operands.push a) rest
    | [_] => readArgs flags o (operands.push a) rest
    | d :: e :: more =>
      if d != dash then readArgs flags o (operands.push a) rest
      else if e == dash && more.isEmpty then .ok (o, operands.toList ++ rest)
      else do
        let (o, used) ← if e == dash then
          readNamed flags o more rest.head? else readLetters flags o rest.head? (e :: more)
        match rest with
        | [] => .ok (o, operands.toList)
        | next :: rest =>
          if used then readArgs flags o operands rest else readArgs flags o operands (next :: rest)

/-! ## One argument -/

variable {flags : List Flag} {f : Flag} {c : UInt8}

theorem isForTestRunner_letter (c : UInt8) : isForTestRunner [c] = false := by
  rw [isForTestRunner, Bool.eq_false_iff]
  intro h
  have hlength := (List.isPrefixOf_iff_prefix.1 h).length_le
  rw [List.length_singleton] at hlength
  exact absurd hlength (by decide +kernel)

section

variable (hc : c ≠ dash) (hfind : byLetter? flags c = some f) (o : Options) (operands : Array Text)
include hc hfind

/-- A flag that needs a value, by its letter and with the value as the next argument. -/
theorem readArgs_letter (himplied : f.implied = none) (value : Text) (rest : List Text) :
    readArgs flags o operands ([dash, c] :: value :: rest) =
      f.apply value o >>= fun o => readArgs flags o operands rest := by
  have hread :
      readLetters flags o (some value) [c] = f.apply value o >>= fun o => .ok (o, true) := by
    simp only [readLetters, isForTestRunner_letter, hfind, himplied]
    rfl
  rw [readArgs]
  simp only [bne_self_eq_false, beq_eq_false_iff_ne.2 hc, Bool.false_and, Bool.false_eq_true,
    if_false, List.head?_cons, hread, bind_assoc]
  rfl

/-- A switch, by its letter. -/
theorem readArgs_switch {value : String} (himplied : f.implied = some value) (rest : List Text) :
    readArgs flags o operands ([dash, c] :: rest) =
      f.apply (utf8 value) o >>= fun o => readArgs flags o operands rest := by
  have hread (next : Option Text) :
      readLetters flags o next [c] = f.apply (utf8 value) o >>= fun o => .ok (o, false) := by
    simp only [readLetters, isForTestRunner_letter, hfind, himplied]
    rfl
  rw [readArgs]
  simp only [bne_self_eq_false, beq_eq_false_iff_ne.2 hc, Bool.false_and, Bool.false_eq_true,
    if_false, hread, bind_assoc]
  cases rest <;> rfl

end

/-- A flag that needs a value, by its name and with the value as the next argument. -/
theorem readArgs_name {name : Text} (hname : name ≠ []) (hdash : name.head? ≠ some dash)
    (hequal : equalSign ∉ name) (hfind : byName? flags name = some f) (himplied : f.implied = none)
    (o : Options) (operands : Array Text) (value : Text) (rest : List Text) :
    readArgs flags o operands ((dash :: dash :: name) :: value :: rest) =
      f.apply value o >>= fun o => readArgs flags o operands rest := by
  have hhead : name.head? ≠ some equalSign := fun h => hequal (List.mem_of_head? h)
  have hall : ∀ b ∈ name, (b != equalSign) = true := by
    intro b hb
    simpa using fun h : b = equalSign => hequal (h ▸ hb)
  have hwhole : (name ++ []).takeWhile (· != equalSign) = name ++ [].takeWhile (· != equalSign) :=
    List.takeWhile_append_of_pos hall
  rw [List.append_nil, List.takeWhile_nil, List.append_nil] at hwhole
  have hread :
      readNamed flags o name (some value) = f.apply value o >>= fun o => .ok (o, true) := by
    simp only [readNamed, hdash, hhead, or_self, if_false, hwhole, hfind, Nat.lt_irrefl, himplied]
    rfl
  rw [readArgs]
  simp only [bne_self_eq_false, beq_self_eq_true, List.isEmpty_eq_false_iff.2 hname, Bool.and_false,
    Bool.false_eq_true, if_false, if_true, List.head?_cons, hread, bind_assoc]
  rfl

theorem readArgs_operand (o : Options) (operand : Text) :
    readArgs flags o #[] (operandArgs operand) = .ok (o, [operand]) := by
  match operand with
  | [] => rfl
  | [b] => simp [operandArgs, readArgs]
  | b :: e :: more =>
    by_cases hb : b = dash
    · subst hb
      simp [operandArgs, readArgs]
    · simp [operandArgs, readArgs, hb]

/-- The reader of arguments. -/
def reader : Reader where
  read flags o args := readArgs flags o #[] args
  read_letter hc hfind himplied o value rest := readArgs_letter hc hfind o #[] himplied value rest
  read_switch hc hfind himplied o rest := readArgs_switch hc hfind o #[] himplied rest
  read_name hname hdash hequal hfind himplied o value rest :=
    readArgs_name hname hdash hequal hfind himplied o #[] value rest
  read_operand _ o operand := readArgs_operand o operand

end Octet.Flag
