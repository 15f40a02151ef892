/-!
# Shortest decimal form of a double

A finite double is `m · 2^e` for a natural significand `m` and an integer
exponent `e`. Every real number strictly between the midpoints to its two
neighbouring doubles reads back as it; the midpoints themselves read back as
it exactly when `m` is even, since a tie goes to the even significand.

`shortest` finds the fewest significant digits that read back: it tries the
decimal grids `10^k` from coarse to fine, and on each grid only the value's two
neighbours, because when any point of a grid lies in the interval one of these
does. Of two points that both read back the nearer wins, and an exact tie goes
to the even one. All arithmetic is exact, on natural numbers.

`Layout` holds the decisions of a written form: which exponents are written
positionally, whether an integral value keeps `.0`, the exponent letter, and
whether a positive exponent carries its sign.
`Layout.brief` is the form that error messages use.
-/

namespace NodeSwitcher.Decimal

/-- A finite double, unpacked: the value is `(-1)^negative · mantissa · 2^exponent`,
and `lowGap` says that the next double below is nearer than the next one above,
which happens only at a power of two. -/
structure Binary where
  negative : Bool
  mantissa : Nat
  exponent : Int
  lowGap : Bool

/-- Unpacks the bits of a double; `none` for an infinity or a NaN. -/
def Binary.ofFloat (f : Float) : Option Binary :=
  let bits : Nat := f.toBits.toNat
  let negative := bits / Nat.pow 2 63 % 2 = 1
  let biased : Nat := bits / Nat.pow 2 52 % 2048
  let fraction : Nat := bits % Nat.pow 2 52
  if biased = 2047 then none
  else if biased = 0 then some ⟨negative, fraction, -1074, false⟩
  else some ⟨negative, fraction + Nat.pow 2 52, (biased : Int) - 1075, fraction = 0 ∧ biased > 1⟩

/-- A decimal with a natural significand: the value is `digits · 10^exponent`. -/
structure Scientific where
  digits : Nat
  exponent : Int

/-- The number of decimal digits of a natural number; zero has one. -/
def digitCount (n : Nat) : Nat :=
  (Nat.toDigits 10 n).length

/-- Removes trailing zeros of the significand, raising the exponent to match;
`fuel` bounds the number of zeros removed. -/
def Scientific.trim : Nat → Scientific → Scientific
  | 0, s => s
  | fuel + 1, s =>
    if s.digits ≠ 0 ∧ s.digits % 10 = 0 then trim fuel ⟨s.digits / 10, s.exponent + 1⟩ else s

/-- The rounding interval of a positive double, scaled to integers: the value is
`v · 10^scale` and the interval runs from `lo · 10^scale` to `hi · 10^scale`, ends
included when `closed`. -/
structure Interval where
  lo : Nat
  v : Nat
  hi : Nat
  scale : Int
  closed : Bool

/-- The rounding interval of an unpacked double, with quarter steps of `2^exponent`
as unit so that both midpoints are whole. -/
def Binary.interval (b : Binary) : Interval :=
  let mv := 4 * b.mantissa
  let mp := mv + 2
  let mm := if b.lowGap then mv - 1 else mv - 2
  let t := b.exponent - 2
  if 0 ≤ t then
    let w := Nat.pow 2 t.toNat
    ⟨mm * w, mv * w, mp * w, 0, b.mantissa % 2 = 0⟩
  else
    let w := Nat.pow 5 (-t).toNat
    ⟨mm * w, mv * w, mp * w, t, b.mantissa % 2 = 0⟩

/-- Whether `x` lies in the interval. -/
def Interval.holds (i : Interval) (x : Nat) : Bool :=
  if i.closed then i.lo ≤ x && x ≤ i.hi else i.lo < x && x < i.hi

/-- The point of the grid `10^(scale + shift)` that reads back, if one does: of the
value's two neighbours on the grid, the one in the interval, the nearer if both are,
the even one on a tie. -/
def Interval.onGrid (i : Interval) (shift : Nat) : Option Nat :=
  let g := Nat.pow 10 shift
  let below := i.v / g
  let above := below + 1
  let inBelow := i.holds (below * g)
  let inAbove := i.v % g ≠ 0 && i.holds (above * g)
  if inBelow && inAbove then
    let dBelow := i.v - below * g
    let dAbove := above * g - i.v
    if dBelow < dAbove then some below
    else if dAbove < dBelow then some above
    else if below % 2 = 0 then some below else some above
  else if inBelow then some below
  else if inAbove then some above
  else none

/-- Tries the grids from `10^(scale + shift)` down to `10^scale`, coarse first;
`fuel` bounds the number of grids. -/
def Interval.search (i : Interval) : Nat → Nat → Scientific
  | 0, _ => ⟨i.v, i.scale⟩
  | fuel + 1, shift =>
    match i.onGrid shift with
    | some d => ⟨d, i.scale + shift⟩
    | none => if shift = 0 then ⟨i.v, i.scale⟩ else search i fuel (shift - 1)

/-- The shortest decimal that reads back as a positive double. -/
def Binary.shortest (b : Binary) : Scientific :=
  let i := b.interval
  let top := digitCount i.v - 1
  let s := i.search (top + 1) top
  s.trim (digitCount s.digits)

/-- The decisions of a written decimal form. -/
structure Layout where
  /-- Values at or above `10^(lowest)` and below `10^highest` are written
  positionally; others in scientific notation. -/
  lowest : Int
  highest : Int
  /-- Whether an integral value written positionally ends in `.0`. -/
  pointZero : Bool
  /-- The letter between significand and exponent. -/
  mark : Char
  /-- Whether a positive exponent is written with a plus sign. -/
  plusSign : Bool

/-- Positional from `10^-5` up to below `10^16`, integral values keep `.0`, and
exponents follow `e` with their sign, `+` or `-`. -/
def Layout.brief : Layout := ⟨-5, 16, true, 'e', true⟩

/-- A run of zeros. -/
def zeros (n : Nat) : List Char :=
  List.replicate n '0'

/-- Writes a nonzero decimal in a layout. -/
def Layout.write (l : Layout) (s : Scientific) : List Char :=
  let ds := Nat.toDigits 10 s.digits
  let n : Int := ds.length
  let kk := n + s.exponent
  if 0 ≤ s.exponent ∧ kk ≤ l.highest then
    ds ++ zeros s.exponent.toNat ++ (if l.pointZero then ['.', '0'] else [])
  else if 0 < kk ∧ kk ≤ l.highest then
    ds.take kk.toNat ++ '.' :: ds.drop kk.toNat
  else if l.lowest < kk ∧ kk ≤ 0 then
    '0' :: '.' :: zeros (-kk).toNat ++ ds
  else
    let e := (if l.plusSign ∧ 0 < kk - 1 then "+" else "").toList ++ (toString (kk - 1)).toList
    match ds with
    | [d] => d :: l.mark :: e
    | d :: more => d :: '.' :: more ++ l.mark :: e
    | [] => l.mark :: e

/-- The text of a double in a layout: the shortest decimal that reads back, with a
minus sign for negative values and negative zero. -/
def Layout.show (l : Layout) (f : Float) : String :=
  match Binary.ofFloat f with
  | none => if f.isNaN then "NaN" else if f < 0 then "-inf" else "inf"
  | some b =>
    let body :=
      if b.mantissa = 0 then ['0', '.', '0'] else l.write b.shortest
    String.ofList (if b.negative then '-' :: body else body)

end NodeSwitcher.Decimal
