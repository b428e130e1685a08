/-! Binary floating point numbers of 64 bits, held exactly. A finite number is a sign and a count
of units, the unit being the smallest positive number, 2 to the power -1074. So numbers compare
as integers do, and an operation is an exact result followed by `nearest`, which rounds to the
closest count of 53 significant bits, a tie to the even one. -/

namespace Syndicate

inductive Binary64 where
  /-- No number. Two of these are the same one if they have the same mark, other than zero. -/
  | nan (mark : Nat)
  | infinite (negative : Bool)
  | finite (negative : Bool) (units : Nat)
  deriving DecidableEq, Inhabited

namespace Binary64

def twoTo (n : Nat) : Nat := Nat.pow 2 n

def tenTo (n : Nat) : Nat := Nat.pow 10 n

/-- How many units make one. -/
def one : Nat := twoTo 1074

/-- The first magnitude, in units, that is too large to be finite. -/
def limit : Nat := twoTo 2098

/-- The distance from a magnitude to the next larger one. -/
def step (units : Nat) : Nat := twoTo (units.log2 - 52)

/-- A quotient rounded to an integer, a tie to the even one. -/
def roundHalfEven (num den : Nat) : Nat :=
  let q := num / den
  let r := num % den
  if 2 * r < den then q else if den < 2 * r then q + 1 else q + q % 2

/-- The magnitude nearest to `num / den` units. -/
def nearest (num den : Nat) : Nat :=
  let s := step (num / den)
  roundHalfEven num (den * s) * s

/-- The number nearest to a ratio, infinite when that is out of range. -/
def ofRatio (negative : Bool) (num den : Nat) : Binary64 :=
  let u := nearest (num * one) den
  if u < limit then .finite negative u else .infinite negative

def zero : Binary64 := .finite false 0

def finite? : Binary64 → Option Binary64
  | .finite s u => some (.finite s u)
  | _ => none

/-- An integer as a number, unless it is out of range. -/
def ofInt? (i : Int) : Option Binary64 := (ofRatio (i < 0) i.natAbs 1).finite?

/-- The number nearest to `digits * 10 ^ exponent`. -/
def ofDecimal (negative : Bool) (digits : Nat) (exponent : Int) : Binary64 :=
  if digits = 0 then .finite negative 0
  else
    let size : Int := (Nat.toDigits 10 digits).length + exponent
    if size > 400 then .infinite negative
    else if size < -400 then .finite negative 0
    else if 0 ≤ exponent then ofRatio negative (digits * tenTo exponent.toNat) 1
    else ofRatio negative digits (tenTo (-exponent).toNat)

/-- The value in units, a minus zero being zero. -/
def signed (negative : Bool) (units : Nat) : Int := if negative then -units else units

def isZero : Binary64 → Bool
  | .finite _ 0 => true
  | _ => false

def neg : Binary64 → Binary64
  | .nan _ => .nan 0
  | .infinite s => .infinite !s
  | .finite s u => .finite (!s) u

/-- Numeric equality: the two zeros are equal, and nan equals nothing. -/
def same : Binary64 → Binary64 → Bool
  | .infinite s, .infinite t => s == t
  | .finite s u, .finite t v => signed s u == signed t v
  | _, _ => false

def less : Binary64 → Binary64 → Bool
  | .nan _, _ | _, .nan _ => false
  | .infinite s, .infinite t => s && !t
  | .infinite s, _ => s
  | _, .infinite t => !t
  | .finite s u, .finite t v => signed s u < signed t v

def sameInt (x : Binary64) (i : Int) : Bool :=
  match x with
  | .finite s u => signed s u == i * one
  | _ => false

def lessInt (x : Binary64) (i : Int) : Bool :=
  match x with
  | .nan _ => false
  | .infinite s => s
  | .finite s u => signed s u < i * one

def intLess (i : Int) (x : Binary64) : Bool :=
  match x with
  | .nan _ => false
  | .infinite s => !s
  | .finite s u => i * one < signed s u

/-- A finite number that is not negative divided by a thousand, as a number, and multiplied by a
thousand again, to the closest integer. -/
def thousandths : Binary64 → Nat
  | .finite _ u => roundHalfEven (nearest u 1000 * 1000) one
  | _ => 0

/-- The integer part of a finite number. -/
def trunc? : Binary64 → Option Int
  | .finite s u => some (signed s (u / one))
  | _ => none

def mul : Binary64 → Binary64 → Binary64
  | .nan _, _ | _, .nan _ => .nan 0
  | .infinite s, .infinite t => .infinite (s != t)
  | .infinite s, .finite t u | .finite s u, .infinite t =>
    if u = 0 then .nan 0 else .infinite (s != t)
  | .finite s u, .finite t v => ofRatio (s != t) (u * v) (one * one)

def add : Binary64 → Binary64 → Binary64
  | .nan _, _ | _, .nan _ => .nan 0
  | .infinite s, .infinite t => if s = t then .infinite s else .nan 0
  | .infinite s, _ | _, .infinite s => .infinite s
  | .finite s u, .finite t v =>
    let sum := signed s u + signed t v
    ofRatio (if sum = 0 then s && t else sum < 0) sum.natAbs one

end Binary64

end Syndicate
