namespace AdminPlane.Decimal

/-- The binary fraction `significand * 2 ^ exponent`, with a significand of at most 53 bits and an
exponent of at least -1074. -/
structure Binary64 where
  significand : Nat
  exponent : Int
deriving DecidableEq, Repr

namespace Binary64

def least : Int := -1074
def greatest : Int := 971

def zero : Binary64 := ⟨0, least⟩

/-- `n * 2 ^ e` as a quotient of natural numbers. -/
def ratio (n : Nat) (e : Int) : Nat × Nat :=
  if 0 ≤ e then (n <<< e.toNat, 1) else (n, 1 <<< (-e).toNat)

/-- The quotient rounded to the nearest natural number, a half to the even neighbour. -/
def nearest (num den : Nat) : Nat :=
  let q := num / den
  let r := num % den
  if 2 * r < den then q
  else if den < 2 * r then q + 1
  else if q % 2 = 0 then q else q + 1

/-- `num / den / 2 ^ e` rounded to the nearest natural number. -/
def scaled (num den : Nat) (e : Int) : Nat :=
  if 0 ≤ e then nearest num (den <<< e.toNat) else nearest (num <<< (-e).toNat) den

/-- The largest `e` with `2 ^ e ≤ num / den`, for a positive quotient. -/
def leading (num den : Nat) : Int :=
  let e : Int := (num.log2 : Int) - den.log2
  let reached := if 0 ≤ e then den <<< e.toNat ≤ num else den ≤ num <<< (-e).toNat
  if reached then e else e - 1

/-- The nearest binary fraction of 53 bits, a half to the even neighbour; `none` beyond the
greatest. -/
def ofQuotient (num den : Nat) : Option Binary64 :=
  if num = 0 then some zero
  else
    let lead := leading num den
    let e := max least (lead - 52)
    let n := scaled num den e
    let (n, e) := if n = 1 <<< 53 then (1 <<< 52, e + 1) else (n, e)
    if greatest < e then none else some ⟨n, e⟩

def ofNat (n : Nat) : Option Binary64 := ofQuotient n 1

def quotient (x : Binary64) : Nat × Nat := ratio x.significand x.exponent

def mul (x y : Binary64) : Option Binary64 :=
  let (a, b) := x.quotient
  let (c, d) := y.quotient
  ofQuotient (a * c) (b * d)

/-- By zero, nothing. -/
def div (x y : Binary64) : Option Binary64 :=
  let (a, b) := x.quotient
  let (c, d) := y.quotient
  if c = 0 then none else ofQuotient (a * d) (b * c)

end Binary64

end AdminPlane.Decimal
