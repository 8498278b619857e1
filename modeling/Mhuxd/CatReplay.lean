import Mhuxd.CatTrace
import Mhuxd.RigctldClient

/-!
# Reading a trace line (`tests/cat/cat_replay.c`)

A line of a trace is a comment, a protocol line, a line of assertions, or data for the decoder. Of the time stamp of a
data line it matters here that it is one: its value goes to the clock of the replay, which is not part of this model. A
result that is an error has the text of the call of `fail`.
-/

namespace Mhuxd

open HttpConnection (chars)
open Printf (dec)

namespace CatReplay

def MAX_PAYLOAD : Nat := 4096

def hash : UInt8 := 35
def colon : UInt8 := 58
def point : UInt8 := 46

/-! ### Comments -/

/-- The loop of `strip_comment`; `skip`: the byte comes after a backslash in quotes. -/
def cutComment : (quoted skip : Bool) → List UInt8 → List UInt8
  | _, _, [] => []
  | quoted, true, c :: s => c :: cutComment quoted false s
  | quoted, false, c :: s =>
    if c = backslash ∧ quoted then c :: cutComment quoted true s
    else if c = quote then c :: cutComment (!quoted) false s
    else if c = hash ∧ quoted = false then []
    else c :: cutComment quoted false s

/-- `strip_comment`. -/
def stripComment (s : List UInt8) : List UInt8 := (cutComment false false s).rdropWhile isSpace

/-! ### The bytes -/

def hexval (c : UInt8) : Option Nat :=
  if 48 ≤ c ∧ c ≤ 57 then some (c.toNat - 48)
  else if 97 ≤ c ∧ c ≤ 102 then some (c.toNat - 97 + 10)
  else if 65 ≤ c ∧ c ≤ 70 then some (c.toNat - 65 + 10)
  else none

/-- Two hexadecimal digits. -/
def hexByte (h l : UInt8) : Option UInt8 :=
  match hexval h, hexval l with
  | some h, some l => some (UInt8.ofNat (h * 16 + l))
  | _, _ => none

/-- The byte of an escape but for `\x`. -/
def unescape (c : UInt8) : UInt8 :=
  if c = 114 then 13 else if c = 110 then 10 else if c = 116 then 9 else c

/-- `buf[n++] = c`. -/
def put (buf : List UInt8) (c : UInt8) : Except (List UInt8) (List UInt8) :=
  if buf.length = MAX_PAYLOAD then .error (chars "payload longer than " ++ dec MAX_PAYLOAD ++ chars " bytes")
  else .ok (buf ++ [c])

/-- The loops of `parse_payload`: the inner one, if `quoted`. -/
def payloadLoop : (quoted : Bool) → (buf s : List UInt8) → Except (List UInt8) (List UInt8)
  | false, buf, [] => .ok buf
  | true, _, [] => .error (chars "unterminated string")
  | true, buf, c :: s =>
    if c = quote then payloadLoop false buf s
    else if c ≠ backslash then put buf c >>= fun buf => payloadLoop true buf s
    else
      match s with
      | [] => put buf c >>= fun buf => payloadLoop true buf []
      | d :: s =>
        if d ≠ 120 then put buf (unescape d) >>= fun buf => payloadLoop true buf s
        else
          match s with
          | h :: l :: s =>
            match hexByte h l with
            | none => .error (chars "bad \\x escape")
            | some x => put buf x >>= fun buf => payloadLoop true buf s
          | _ => .error (chars "bad \\x escape")
  | false, buf, c :: s =>
    if isSpace c then payloadLoop false buf s
    else if c = quote then payloadLoop true buf s
    else
      match s with
      | [] => .error (chars "bad hex byte near '" ++ [c] ++ chars "'")
      | d :: s' =>
        match hexByte c d with
        | none => .error (chars "bad hex byte near '" ++ c :: s ++ chars "'")
        | some x => put buf x >>= fun buf => payloadLoop false buf s'

/-- `parse_payload`. -/
def parsePayload (s : List UInt8) : Except (List UInt8) (List UInt8) := payloadLoop false [] s

/-! ### The time stamp -/

def skipSign : List UInt8 → Bool × List UInt8
  | 45 :: s => (true, s)
  | 43 :: s => (false, s)
  | s => (false, s)

def lower (c : UInt8) : UInt8 := if 65 ≤ c ∧ c ≤ 90 then c + 32 else c

/-- The digits of a number before and after its point, and what comes after them. -/
def scanDigits (digit : UInt8 → Bool) (s : List UInt8) : List UInt8 × List UInt8 × List UInt8 :=
  match s.dropWhile digit with
  | 46 :: r => (s.takeWhile digit, r.takeWhile digit, r.dropWhile digit)
  | r => (s.takeWhile digit, [], r)

/-- The exponent of a number after the letter `e`, and what comes after it. -/
def scanExponent (e : UInt8) (s : List UInt8) : Int × List UInt8 :=
  match s with
  | [] => (0, [])
  | c :: r =>
    let (neg, r) := skipSign r
    if lower c = e ∧ r.head?.any isDigit then
      (if neg then -leadingNat r else leadingNat r, r.dropWhile isDigit)
    else (0, s)

def ofDigits (base : Nat) (s : List UInt8) : Nat := s.foldl (fun n c => base * n + (hexval c).getD 0) 0

/-- A number without its sign, and what comes after it; its exponent is one of `radix`. -/
def scanNumber (base radix : Nat) (digit : UInt8 → Bool) (e : UInt8) (s : List UInt8) : Option (ℚ × List UInt8) :=
  let (whole, frac, rest) := scanDigits digit s
  if whole = [] ∧ frac = [] then none
  else
    let (n, rest) := scanExponent e rest
    some (ofDigits base (whole ++ frac) * (radix : ℚ) ^ n / base ^ frac.length, rest)

def scanHex : List UInt8 → Option (ℚ × List UInt8)
  | 48 :: x :: s => if lower x = 120 then scanNumber 16 2 (fun c => (hexval c).isSome) 112 s else none
  | _ => none

/-- What comes after an infinity or a NaN. -/
def scanWord (s : List UInt8) : Option (List UInt8) :=
  [chars "infinity", chars "inf", chars "nan"].findSome? fun w =>
    if (s.take w.length).map lower = w then some (s.drop w.length) else none

/-- `strtod`, and the conversion `%lf`: the number, or none for an infinity or a NaN, and what comes after it. -/
def strtod (s : List UInt8) : Option (Option ℚ × List UInt8) :=
  let (neg, s) := skipSign (s.dropWhile isSpace)
  match scanHex s <|> scanNumber 10 10 isDigit 101 s with
  | some (v, rest) => some (some (if neg then -v else v), rest)
  | none => (scanWord s).map fun rest => (none, rest)

/-- `errno` is set: no normal `double` comes near the number. -/
def outOfRange (v : ℚ) : Bool := decide (v ≠ 0 ∧ (|v| < 1 / 2 ^ 1022 ∨ 2 ^ 1024 - 2 ^ 970 ≤ |v|))

/-- `%u`, and a colon after it. -/
def scanField (s : List UInt8) : Option (List UInt8) :=
  let s := (skipSign (s.dropWhile isSpace)).2
  match s.dropWhile isDigit with
  | c :: r => if s.head?.any isDigit ∧ c = colon then some r else none
  | [] => none

/-- The result of `parse_time`: the token is a time stamp. -/
def parseTime (tok : List UInt8) : Bool :=
  if tok.head?.any isDigit = false then false
  else if colon ∈ tok then
    match (scanField tok).bind fun s => (scanField s).bind strtod with
    | none => false
    | some (_, rest) => rest.isEmpty
  else
    match strtod tok with
    | none => false
    | some (v, rest) => !v.any outOfRange && rest.isEmpty

/-! ### Lines -/

/-- `parse_tag`: the direction and the client. -/
def parseTag (tok : List UInt8) : Option (CatDir × Nat) :=
  if tok = chars "R" then some (.radio, 0)
  else if tok = chars "M" then some (.own, 0)
  else
    match tok with
    | [h, n] => if h = 72 ∧ 49 ≤ n ∧ n.toNat ≤ 48 + CAT_MAX_CLIENTS then some (.host, n.toNat - 48) else none
    | _ => none

/-- `strsep` with blanks and tabs: the token, and what comes after it if something ends it. -/
def strsep (s : List UInt8) : List UInt8 × Option (List UInt8) :=
  match s.dropWhile fun c => !isBlank c with
  | [] => (s, none)
  | _ :: r => (s.takeWhile fun c => !isBlank c, some r)

/-- What a data line feeds the decoder with. -/
structure DataLine where
  dir : CatDir
  client : Nat
  buf : List UInt8
deriving DecidableEq

/-- `data_line`, the clock apart. -/
def dataLine (line : List UInt8) : Except (List UInt8) DataLine :=
  let (tok, p) := strsep line
  let (tag, p) :=
    if parseTime tok then
      match p with
      | none => (none, none)
      | some p =>
        let (tok, p) := strsep (p.dropWhile isSpace)
        (some tok, p)
    else (some tok, p)
  match tag.bind parseTag with
  | none => .error (chars "expected [time] H1..H9|M|R <bytes>, got '" ++ tok ++ chars "'")
  | some (dir, client) => (parsePayload (p.getD [])).map fun buf => ⟨dir, client, buf⟩

/-- A line, as `replay_file` takes it. -/
inductive Line
  | blank
  | config (s : List UInt8)
  | asserts (s : List UInt8)
  | data (d : Except (List UInt8) DataLine)

def readLine (line : List UInt8) : Line :=
  match (stripComment line).dropWhile isSpace with
  | [] => .blank
  | c :: s => if c = 64 then .config (c :: s) else if c = 61 then .asserts (c :: s) else .data (dataLine (c :: s))

end CatReplay

end Mhuxd
