/-! Bytes as text. A character takes one to four bytes, and of several ways to write it only the
shortest counts. -/

namespace Syndicate.Text

/-- The six bits of a byte that continues a character, if it lies in a range of such bytes. -/
def continuation? (low high : Nat) (b : UInt8) : Option Nat :=
  if low ≤ b.toNat && b.toNat ≤ high then some (b.toNat % 64) else none

/-- The number of bytes that a first byte asks for after it, its own bits, and the range that the
second byte must lie in. -/
def lead? (b : UInt8) : Option (Nat × Nat × Nat × Nat) :=
  let n := b.toNat
  if 0xc2 ≤ n && n ≤ 0xdf then some (1, n % 32, 0x80, 0xbf)
  else if n = 0xe0 then some (2, 0, 0xa0, 0xbf)
  else if n = 0xed then some (2, 13, 0x80, 0x9f)
  else if 0xe1 ≤ n && n ≤ 0xef then some (2, n % 16, 0x80, 0xbf)
  else if n = 0xf0 then some (3, 0, 0x90, 0xbf)
  else if 0xf1 ≤ n && n ≤ 0xf3 then some (3, n % 8, 0x80, 0xbf)
  else if n = 0xf4 then some (3, 4, 0x80, 0x8f)
  else none

/-- Where reading stands: between characters, or inside one with the bits so far. -/
inductive Pending where
  | none
  | more (count bits low high : Nat)

/-- The code points of bytes, with nothing for each run of bytes that makes no character. -/
def codePoints : Pending → List UInt8 → List (Option Nat)
  | .none, [] => []
  | .more .., [] => [.none]
  | .none, b :: bs =>
    if b < 0x80 then some b.toNat :: codePoints .none bs
    else match lead? b with
      | some (n, bits, low, high) => codePoints (.more n bits low high) bs
      | none => .none :: codePoints .none bs
  | .more n bits low high, b :: bs =>
    match continuation? low high b with
    | some six =>
      if n ≤ 1 then some (bits * 64 + six) :: codePoints .none bs
      else codePoints (.more (n - 1) (bits * 64 + six) 0x80 0xbf) bs
    | none =>
      if b < 0x80 then .none :: some b.toNat :: codePoints .none bs
      else match lead? b with
        | some (n, bits, low, high) => .none :: codePoints (.more n bits low high) bs
        | none => .none :: .none :: codePoints .none bs

/-- The text that bytes hold, if all of them make characters. -/
def ofBytes? (bs : List UInt8) : Option String :=
  ((codePoints .none bs).mapM fun (c : Option Nat) => c.map Char.ofNat).map String.ofList

/-- The text that bytes hold, with the replacement character where they make none. -/
def ofBytes (bs : List UInt8) : String :=
  String.ofList ((codePoints .none bs).map fun c => Char.ofNat (c.getD 0xfffd))

/-- A text with every kind of line end as a line feed. -/
def unifyLines : List Char → List Char
  | '\r' :: '\n' :: cs => '\n' :: unifyLines cs
  | '\r' :: cs => '\n' :: unifyLines cs
  | c :: cs => c :: unifyLines cs
  | [] => []

end Syndicate.Text
