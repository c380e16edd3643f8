/-! # Binary fractions as decimal text

A number is shown with the fewest decimal digits that still lie nearer to it than to any other
binary fraction, and of those with the nearest, the even ones if two are. The digits are written
positionally below 10^16 and down to 10^-5, and with a signed exponent outside these bounds, where a
positive one has its plus. -/

namespace GuestFiles.Json

/-- A positive number `mantissa · 2 ^ exponent`, and whether its lower neighbour lies at half the
distance of its upper one. -/
structure Binary where
  mantissa : Nat
  exponent : Int
  closeBelow : Bool

/-- The number of mantissas without their leading bit. -/
def mantissas : Nat := 0x10000000000000

/-- The parts of a finite binary fraction, without its sign. -/
def Binary.ofFloat (x : Float) : Binary :=
  let bits := x.toBits.toNat
  let exponent : Nat := bits / mantissas % 2048
  let fraction := bits % mantissas
  if exponent = 0 then ⟨fraction, -1074, false⟩
  else ⟨fraction + mantissas, (exponent : Int) - 1075, fraction = 0 ∧ 1 < exponent⟩

/-- Decimal digits: the number `0.digits · 10 ^ point`. -/
structure Digits where
  digits : List Char
  point : Int

/-- The digits of `n · 10 ^ scale`, without zeros at the end. -/
def Digits.ofNat (n : Nat) (scale : Int) : Digits :=
  let digits := Nat.toDigits 10 n
  ⟨(digits.reverse.dropWhile (· = '0')).reverse, digits.length + scale⟩

/-- The multiple of `10 ^ scale` next to `value / unit` that lies between `low / unit` and
`high / unit`, the bounds themselves only if `closed`. Of two the nearer is taken, and of two
equally near the even one. -/
def onGrid? (value low high unit : Nat) (closed : Bool) (scale : Int) : Option Nat :=
  let factor := Nat.pow 10 scale.toNat
  let under := Nat.pow 10 (-scale).toNat
  let step := unit * factor
  let below := value * under / step
  let inside (n : Nat) : Bool :=
    if closed then low * under ≤ n * step && n * step ≤ high * under
    else low * under < n * step && n * step < high * under
  let toBelow := value * under - below * step
  let toAbove := (below + 1) * step - value * under
  let nearer :=
    if toBelow < toAbove ∨ (toBelow = toAbove ∧ below % 2 = 0) then [below, below + 1]
    else [below + 1, below]
  (nearer.filter fun n => 0 < n).find? inside

/-- The least power of ten that is greater than `value / unit`, from the powers `10 ^ from` down. -/
def magnitude (value unit : Nat) : Nat → Int → Int
  | 0, top => top
  | fuel + 1, top =>
    if value * Nat.pow 10 (1 - top).toNat < unit * Nat.pow 10 (top - 1).toNat then
      magnitude value unit fuel (top - 1)
    else
      top

/-- The fewest digits of a positive number. -/
def Binary.shortest (b : Binary) : Digits :=
  let scaleUp := Nat.pow 2 (b.exponent - 2).toNat
  let unit := Nat.pow 2 (2 - b.exponent).toNat
  let value := 4 * b.mantissa * scaleUp
  let low := (4 * b.mantissa - (if b.closeBelow then 1 else 2)) * scaleUp
  let high := (4 * b.mantissa + 2) * scaleUp
  let top := magnitude value unit 700 310
  let grids := (List.range 17).map fun (count : Nat) => top - (count + 1 : Int)
  match grids.findSome? fun scale =>
      (onGrid? value low high unit (b.mantissa % 2 = 0) scale).map fun n => (n, scale) with
  | some (n, scale) => Digits.ofNat n scale
  | none => Digits.ofNat (value / unit) 0

def Digits.layout (d : Digits) : List Char :=
  let count : Int := d.digits.length
  if count ≤ d.point ∧ d.point ≤ 16 then
    d.digits ++ List.replicate (d.point - count).toNat '0' ++ ['.', '0']
  else if 0 < d.point ∧ d.point ≤ 16 then
    d.digits.take d.point.toNat ++ '.' :: d.digits.drop d.point.toNat
  else if -5 < d.point ∧ d.point ≤ 0 then
    ['0', '.'] ++ List.replicate (-d.point).toNat '0' ++ d.digits
  else
    match d.digits with
    | [digit] => digit :: 'e' :: signed (d.point - 1)
    | digit :: more => digit :: '.' :: more ++ 'e' :: signed (d.point - 1)
    | [] => []
where
  signed (n : Int) : List Char :=
    (if n < 0 then '-' else '+') :: n.natAbs.repr.toList

def showDecimal (x : Float) : String :=
  let sign := if x.toBits.toNat < UInt64.size / 2 then [] else ['-']
  let b := Binary.ofFloat x
  String.ofList (sign ++ if b.mantissa = 0 then ['0', '.', '0'] else b.shortest.layout)

end GuestFiles.Json
