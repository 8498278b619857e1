import Mathlib

/-!
# Base64

The alphabet and the decoder, which takes canonical text only: groups of four symbols, the last one padded, unused bits
zero.
-/

namespace Base64

/-- The symbol of a number below 64. -/
def symbol (x : Nat) : UInt8 :=
  UInt8.ofNat (if x < 26 then 0x41 + x else if x < 52 then 0x61 + (x - 26) else if x < 62 then 0x30 + (x - 52)
    else if x = 62 then 0x2b else 0x2f)

/-- The number of a symbol. -/
def value (c : UInt8) : Option Nat := (List.range 64).find? fun x => symbol x = c

/-- The symbol that fills the last group. -/
def PAD : UInt8 := 0x3d

def bytes1 (p q : Nat) : Option (List UInt8) := if q % 16 = 0 then some [UInt8.ofNat (4 * p + q / 16)] else none

def bytes2 (p q r : Nat) : Option (List UInt8) :=
  if r % 4 = 0 then some [UInt8.ofNat (4 * p + q / 16), UInt8.ofNat (q % 16 * 16 + r / 4)] else none

def bytes3 (p q r s : Nat) : List UInt8 :=
  [UInt8.ofNat (4 * p + q / 16), UInt8.ofNat (q % 16 * 16 + r / 4), UInt8.ofNat (r % 4 * 64 + s)]

/-- The bytes of a text. -/
def decode : List UInt8 → Option (List UInt8)
  | [] => some []
  | a :: b :: c :: d :: rest =>
    if d = PAD then
      if rest = [] then
        if c = PAD then (value a).bind fun p => (value b).bind fun q => bytes1 p q
        else (value a).bind fun p => (value b).bind fun q => (value c).bind fun r => bytes2 p q r
      else none
    else (value a).bind fun p => (value b).bind fun q => (value c).bind fun r => (value d).bind fun s =>
      (decode rest).map (bytes3 p q r s ++ ·)
  | _ => none

theorem value_symbol {x : Nat} (h : x < 64) : value (symbol x) = some x := by
  revert h x
  decide

theorem symbol_ne_pad {x : Nat} (h : x < 64) : symbol x ≠ PAD := by
  revert h x
  decide

variable {p q r s : Nat}

theorem decode_one (hp : p < 64) (hq : q < 64) (h : q % 16 = 0) :
    decode [symbol p, symbol q, PAD, PAD] = some [UInt8.ofNat (4 * p + q / 16)] := by
  rw [decode, if_pos rfl, if_pos rfl, if_pos rfl, value_symbol hp, value_symbol hq, Option.bind_some, Option.bind_some,
    bytes1, if_pos h]

theorem decode_two (hp : p < 64) (hq : q < 64) (hr : r < 64) (h : r % 4 = 0) :
    decode [symbol p, symbol q, symbol r, PAD] =
      some [UInt8.ofNat (4 * p + q / 16), UInt8.ofNat (q % 16 * 16 + r / 4)] := by
  rw [decode, if_pos rfl, if_pos rfl, if_neg (symbol_ne_pad hr), value_symbol hp, value_symbol hq, value_symbol hr,
    Option.bind_some, Option.bind_some, Option.bind_some, bytes2, if_pos h]

theorem decode_three (hp : p < 64) (hq : q < 64) (hr : r < 64) (hs : s < 64) (rest : List UInt8) :
    decode (symbol p :: symbol q :: symbol r :: symbol s :: rest) = (decode rest).map (bytes3 p q r s ++ ·) := by
  rw [decode, if_neg (symbol_ne_pad hs), value_symbol hp, value_symbol hq, value_symbol hr, value_symbol hs,
    Option.bind_some, Option.bind_some, Option.bind_some, Option.bind_some]

end Base64
