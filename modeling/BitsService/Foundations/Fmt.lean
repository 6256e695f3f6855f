import BitsService.Foundations.Utf8

/-! # `fmt.Sprintf`

A format is printed byte by byte up to a percent sign; then come flags, an argument's index, a
width, a precision and a verb. How an operand is printed is its own affair. -/
namespace BitsService
set_option autoImplicit false

structure Directive where
  sharp : Bool
  zero : Bool
  plus : Bool
  minus : Bool
  space : Bool
  wid : Option ℕ
  prec : Option ℕ
  verb : Bytes
  deriving DecidableEq

/-- `clearflags`. -/
def Directive.clear : Directive := ⟨false, false, false, false, false, none, none, []⟩

/-- The type that is named when the operand is left over, which `nil` does not have; the number it
is as a width or a precision; and what it is printed as. -/
structure Operand where
  typeName : Option Bytes
  int : Option ℤ
  printArg : Directive → Bytes

/-! ## One directive -/

/-- The scan of a directive: what there is to know of it, what was written for it already, and what
is left of the format. -/
structure Scan where
  directive : Directive
  argNum : ℕ
  reordered : Bool
  goodArgNum : Bool
  afterIndex : Bool
  buf : Bytes
  rest : Bytes

def flags : Directive → Bytes → Directive × Bytes
  | d, [] => (d, [])
  | d, c :: s =>
    if c = 35 then flags { d with sharp := true } s
    else if c = 48 then flags { d with zero := !d.minus } s
    else if c = 43 then flags { d with plus := true } s
    else if c = 45 then flags { d with minus := true, zero := false } s
    else if c = 32 then flags { d with space := true } s
    else (d, c :: s)

/-- A number that is too large swallows the rest of the format. -/
def parsenumFrom : Option ℕ → Bytes → Option ℕ × Bytes
  | num, [] => (num, [])
  | num, c :: s =>
    if 48 ≤ c ∧ c ≤ 57 then
      if 1000000 < num.getD 0 then (none, [])
      else parsenumFrom (some (num.getD 0 * 10 + (c.toNat - 48))) s
    else (num, c :: s)

def parsenum (s : Bytes) : Option ℕ × Bytes := parsenumFrom none s

/-- What follows an opening bracket: the number in the brackets, if it is one, and what comes after
them, or after the opening one when it is not closed. -/
def parseArgNumber (s : Bytes) : Option ℕ × Bytes :=
  if s.length < 2 then (none, s)
  else match cutAt 93 s with
    | (_, none) => (none, s)
    | (inner, some rest) =>
      match parsenum inner with
      | (some n, []) => (some n, rest)
      | _ => (none, rest)

def argNumber (numArgs : ℕ) (p : Scan) : Scan :=
  match p.rest with
  | 91 :: s =>
    match parseArgNumber s with
    | (none, rest) =>
      { p with reordered := true, goodArgNum := false, afterIndex := false, rest := rest }
    | (some n, rest) =>
      if 1 ≤ n ∧ n ≤ numArgs then
        { p with reordered := true, argNum := n - 1, afterIndex := true, rest := rest }
      else { p with reordered := true, goodArgNum := false, afterIndex := true, rest := rest }
  | _ => { p with afterIndex := false }

def intFromArg (a : List Operand) (argNum : ℕ) : Option ℤ × ℕ :=
  match a[argNum]? with
  | none => (none, argNum)
  | some operand =>
    (operand.int.bind fun n => if 1000000 < n ∨ n < -1000000 then none else some n, argNum + 1)

def badWidthString : Bytes := ascii "%!(BADWIDTH)"

def badPrecString : Bytes := ascii "%!(BADPREC)"

def width (a : List Operand) (p : Scan) : Scan :=
  match p.rest with
  | 42 :: s =>
    match intFromArg a p.argNum with
    | (none, argNum) =>
      { p with argNum := argNum, afterIndex := false, buf := p.buf ++ badWidthString, rest := s }
    | (some n, argNum) =>
      { p with
        directive := { p.directive with
          wid := some n.natAbs
          minus := p.directive.minus || n < 0
          zero := p.directive.zero && 0 ≤ n }
        argNum := argNum, afterIndex := false, rest := s }
  | s =>
    { p with
      directive := { p.directive with wid := (parsenum s).1 }
      goodArgNum := p.goodArgNum && !(p.afterIndex && (parsenum s).1.isSome)
      rest := (parsenum s).2 }

/-- What comes after the point. -/
def precisionValue (a : List Operand) (p : Scan) : Scan :=
  match p.rest with
  | 42 :: s =>
    match intFromArg a p.argNum with
    | (none, argNum) =>
      { p with argNum := argNum, afterIndex := false, buf := p.buf ++ badPrecString, rest := s }
    | (some n, argNum) =>
      if n < 0 then
        { p with argNum := argNum, afterIndex := false, buf := p.buf ++ badPrecString, rest := s }
      else
        { p with
          directive := { p.directive with prec := some n.toNat }
          argNum := argNum, afterIndex := false, rest := s }
  | s =>
    { p with
      directive := { p.directive with prec := some ((parsenum s).1.getD 0) }
      rest := (parsenum s).2 }

def precision (a : List Operand) (p : Scan) : Scan :=
  match p.rest with
  | 46 :: s =>
    precisionValue a (argNumber a.length
      { p with goodArgNum := p.goodArgNum && !p.afterIndex, rest := s })
  | _ => p

/-- Everything between the percent sign and the verb. -/
def scanDirective (a : List Operand) (argNum : ℕ) (reordered : Bool) (s : Bytes) : Scan :=
  let p := precision a (width a (argNumber a.length
    ⟨(flags .clear s).1, argNum, reordered, true, false, [], (flags .clear s).2⟩))
  if p.afterIndex then p else argNumber a.length p

/-- The first rune of a text, and what comes after it. A byte that begins no rune is written as the
replacement character. -/
def cutRune (s : Bytes) : Bytes × Bytes :=
  if runeLength s = 0 then ([0xef, 0xbf, 0xbd], s.tail)
  else (s.take (runeLength s), s.drop (runeLength s))

/-- What a directive is printed as. -/
structure Printed where
  text : Bytes
  argNum : ℕ
  reordered : Bool
  rest : Bytes

def printVerb (a : List Operand) (p : Scan) : Printed :=
  if p.rest = [] then ⟨p.buf ++ ascii "%!(NOVERB)", p.argNum, p.reordered, []⟩
  else
    let (verb, rest) := cutRune p.rest
    if verb = [37] then ⟨p.buf ++ [37], p.argNum, p.reordered, rest⟩
    else if !p.goodArgNum then
      ⟨p.buf ++ ascii "%!" ++ verb ++ ascii "(BADINDEX)", p.argNum, p.reordered, rest⟩
    else match a[p.argNum]? with
      | none => ⟨p.buf ++ ascii "%!" ++ verb ++ ascii "(MISSING)", p.argNum, p.reordered, rest⟩
      | some operand =>
        ⟨p.buf ++ operand.printArg { p.directive with verb := verb }, p.argNum + 1, p.reordered,
          rest⟩

/-! ## The whole format -/

def extraOperand (operand : Operand) : Bytes :=
  match operand.typeName with
  | none => ascii "<nil>"
  | some typeName =>
    typeName ++ ascii "=" ++ operand.printArg { Directive.clear with verb := [118] }

/-- The operands left over, unless some were asked for by their index. -/
def extraOperands (a : List Operand) (argNum : ℕ) (reordered : Bool) : Bytes :=
  if reordered = false ∧ argNum < a.length then
    ascii "%!(EXTRA " ++ (((a.drop argNum).map extraOperand).intersperse (ascii ", ")).flatten ++
      ascii ")"
  else []

/-- Every round takes a byte of the format at least. -/
def doPrintf (a : List Operand) : ℕ → ℕ → Bool → Bytes → Bytes
  | 0, argNum, reordered, _ => extraOperands a argNum reordered
  | _ + 1, argNum, reordered, [] => extraOperands a argNum reordered
  | fuel + 1, argNum, reordered, c :: s =>
    if c = 37 then
      let printed := printVerb a (scanDirective a argNum reordered s)
      printed.text ++ doPrintf a fuel printed.argNum printed.reordered printed.rest
    else c :: doPrintf a fuel argNum reordered s

def sprintf (format : Bytes) (a : List Operand) : Bytes := doPrintf a format.length 0 false format


/-! ## What is printed -/

section Printing
variable {a : List Operand}

theorem doPrintf_cons {c : UInt8} (hc : c ≠ 37) (fuel argNum : ℕ) (reordered : Bool) (s : Bytes) :
    doPrintf a (fuel + 1) argNum reordered (c :: s) = c :: doPrintf a fuel argNum reordered s := by
  rw [doPrintf, if_neg hc]

/-- Text without a percent sign is printed as it is. -/
theorem doPrintf_append {s : Bytes} (h : 37 ∉ s) (fuel argNum : ℕ) (reordered : Bool)
    (t : Bytes) : doPrintf a (s.length + fuel) argNum reordered (s ++ t) =
      s ++ doPrintf a fuel argNum reordered t := by
  induction s with
  | nil => simp
  | cons c s ih =>
    simp only [List.mem_cons, not_or] at h
    rw [List.length_cons, Nat.add_right_comm, List.cons_append, doPrintf_cons (Ne.symm h.1),
      ih h.2]
    rfl

/-- `%v` prints the next operand. -/
theorem doPrintf_v {operand : Operand} {argNum : ℕ} (h : a[argNum]? = some operand) (fuel : ℕ)
    (reordered : Bool) (s : Bytes) :
    doPrintf a (fuel + 1) argNum reordered (37 :: 118 :: s) =
      operand.printArg { Directive.clear with verb := [118] } ++
        doPrintf a fuel (argNum + 1) reordered s := by
  have hscan : scanDirective a argNum reordered (118 :: s) =
      ⟨.clear, argNum, reordered, true, false, [], 118 :: s⟩ := rfl
  have hrune : cutRune (118 :: s) = ([118], s) := rfl
  rw [doPrintf, if_pos rfl, hscan]
  simp [printVerb, hrune, h]

/-- A format of text and two operands. -/
theorem sprintf_two {text text' : Bytes} (h : 37 ∉ text) (h' : 37 ∉ text')
    (operand operand' : Operand) :
    sprintf (text ++ 37 :: 118 :: (text' ++ [37, 118])) [operand, operand'] =
      text ++ (operand.printArg { Directive.clear with verb := [118] } ++
        (text' ++ operand'.printArg { Directive.clear with verb := [118] })) := by
  have hlength : (text ++ 37 :: 118 :: (text' ++ [37, 118])).length =
      text.length + ((text'.length + 3) + 1) := by
    simp only [List.length_append, List.length_cons, List.length_nil]
  have hnothing : doPrintf [operand, operand'] 2 2 false [] = [] := rfl
  have hfirst : [operand, operand'][0]? = some operand := rfl
  have hsecond : [operand, operand'][1]? = some operand' := rfl
  rw [sprintf, hlength, doPrintf_append h, doPrintf_v hfirst, doPrintf_append h',
    doPrintf_v hsecond, hnothing, List.append_nil]

end Printing

/-! ## Operands -/

/-- How strings and integers are printed, of which only `%v` is looked at. -/
structure Printer where
  string : Bytes → Operand
  int64 : ℤ → Operand
  string_v : ∀ s, (string s).printArg { Directive.clear with verb := [118] } = s
  int64_v : ∀ n, (int64 n).printArg { Directive.clear with verb := [118] } = formatInt 10 n

/-- It prints everything as `%v` does. -/
def plainPrinter : Printer where
  string s := ⟨some (ascii "string"), none, fun _ => s⟩
  int64 n := ⟨some (ascii "int64"), some n, fun _ => formatInt 10 n⟩
  string_v _ := rfl
  int64_v _ := rfl

end BitsService
