import AdminPlane.Decimal.Binary64
import AdminPlane.Decimal.Numeral

namespace AdminPlane.Decimal.Shortest

/-- `digits * 10 ^ exponent`. -/
structure Scientific where
  digits : Nat
  exponent : Int
deriving DecidableEq, Repr

/-- The largest `e` with `10 ^ e ≤ num / den`, for a positive quotient. -/
def log10 (num den : Nat) : Int :=
  let e : Int := ((Nat.toDigits 10 num).length : Int) - (Nat.toDigits 10 den).length
  let reached := if 0 ≤ e then den * tenTo e.toNat ≤ num else den ≤ num * tenTo (-e).toNat
  if reached then e else e - 1

/-- Numerators over one denominator: the decimal unit `10 ^ e`, and the factor that brings
`num / den` to the same denominator. -/
def grid (den : Nat) (e : Int) : Nat × Nat :=
  if 0 ≤ e then (tenTo e.toNat * den, 1) else (den, tenTo (-e).toNat)

/-- The reals that round to `x`, four quarter steps to a unit in the last place: the ends, and
whether the ends belong to it. -/
structure Span where
  low : Nat
  mid : Nat
  high : Nat
  closed : Bool

def span (x : Binary64) : Span :=
  let m := 4 * x.significand
  let narrow := x.significand = 1 <<< 52 ∧ Binary64.least < x.exponent
  ⟨if narrow then m - 1 else m - 2, m, m + 2, x.significand % 2 = 0⟩

def Span.contains (s : Span) (factor unit n : Nat) : Bool :=
  if s.closed then s.low * factor ≤ n * unit && n * unit ≤ s.high * factor
  else s.low * factor < n * unit && n * unit < s.high * factor

/-- The better neighbour of `x` on the grid of `10 ^ e`, if one of the two reads back. -/
def onGrid (x : Binary64) (e : Int) : Option Scientific :=
  let s := span x
  let (num, den) := Binary64.ratio 1 (x.exponent - 2)
  let (unit, scale) := grid den e
  let factor := num * scale
  let below := s.mid * factor / unit
  let above := below + 1
  let toBelow := s.mid * factor - below * unit
  let toAbove := above * unit - s.mid * factor
  let belowFirst := if toBelow = toAbove then below % 2 = 0 else toBelow < toAbove
  match s.contains factor unit below, s.contains factor unit above with
  | true, true => some ⟨if belowFirst then below else above, e⟩
  | true, false => some ⟨below, e⟩
  | false, true => some ⟨above, e⟩
  | false, false => none

/-- Moves factors of ten from the digits to the exponent, at most `fuel` of them. -/
def trimZeros : Nat → Scientific → Scientific
  | 0, d => d
  | fuel + 1, d =>
    if d.digits % 10 = 0 ∧ d.digits ≠ 0 then trimZeros fuel ⟨d.digits / 10, d.exponent + 1⟩ else d

/-- The fewest digits that read back, and of those the nearest. -/
def digits (x : Binary64) : Scientific :=
  if x.significand = 0 then ⟨0, 0⟩
  else
    let (num, den) := x.quotient
    let top := log10 num den
    let found := (List.range 17).findSome? fun (n : Nat) => onGrid x (top - n)
    trimZeros 20 (found.getD ⟨0, 0⟩)

/-- How a number is laid out: the decimal exponents of the leading digit that are written
positionally. -/
structure Layout where
  least : Int
  greatest : Int

/-- Positional numbers have a point and a digit after it; the others have a point only between
digits, and a signed exponent. -/
def Layout.write (layout : Layout) (negative : Bool) (x : Binary64) : String :=
  let d := digits x
  let text := Nat.toDigits 10 d.digits
  let lead : Int := d.exponent + text.length - 1
  let body : List Char :=
    if layout.least ≤ lead ∧ lead ≤ layout.greatest then
      if 0 ≤ d.exponent then
        text ++ List.replicate d.exponent.toNat '0' ++ ['.', '0']
      else if 0 ≤ lead then
        text.take (lead.toNat + 1) ++ '.' :: text.drop (lead.toNat + 1)
      else '0' :: '.' :: List.replicate (-lead - 1).toNat '0' ++ text
    else
      let fraction := match text.drop 1 with
        | [] => []
        | rest => '.' :: rest
      text.take 1 ++ fraction ++ ['e', if lead < 0 then '-' else '+'] ++
        Nat.toDigits 10 lead.natAbs
  String.ofList (if negative then '-' :: body else body)

end AdminPlane.Decimal.Shortest
