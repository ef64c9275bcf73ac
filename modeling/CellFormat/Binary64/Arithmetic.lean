import CellFormat.Binary64.Rounding
/-!
# Products and powers

A product is the exact product rounded once. A power is made by squaring, so
beyond the exact powers its last digits are those of that order of products.
-/

namespace CellFormat.Binary64

/-- The product of two numbers. Nothing times an infinity is not a number. -/
def mul : Binary64 → Binary64 → Binary64
  | nan, _ => nan
  | _, nan => nan
  | infinite s, infinite t => infinite (s ^^ t)
  | infinite s, finite t m => if m.units = 0 then nan else infinite (s ^^ t)
  | finite s m, infinite t => if m.units = 0 then nan else infinite (s ^^ t)
  | finite s m, finite t n => ofUnits (s ^^ t) (m.units * n.units) Magnitude.one

/-- `r` times the `n`-th power of `a`: a factor of `a` for an odd `n`, and then half of `n`
with the square of `a`. -/
def mulPow (r a : Binary64) (n : Nat) : Binary64 :=
  let r := if n % 2 = 1 then r.mul a else r
  if n / 2 = 0 then r else mulPow r (a.mul a) (n / 2)
termination_by n

/-- The `n`-th power of ten. -/
def tenPow (n : Nat) : Binary64 := mulPow (ofNat 1) (ofNat 10) n

end CellFormat.Binary64
