import Mhuxd.Buffer
import Mhuxd.Channel

/-!
# The multiplexer towards the keyer (`mux.c`)

`mxMux` packs the channel buffers into sequences of up to five frames. A frame is a sync byte
(bit 7 clear, bit 6 set on all but the first frame of a sequence) and three payload bytes with bit 7
set: a byte for radio 1, one for radio 2 and one for the channel the frame is shared by. The sync
byte has a validity bit and the moved bit 7 of each of the three.
-/

namespace Mhuxd

/-- `MAX_SEQUENCE_SIZE`. -/
def MAX_SEQUENCE_SIZE : Nat := 5 * 4

/-- What a frame carries: a byte of radio 1, of radio 2 and of the shared channel, the latter with
its validity bit. -/
structure Frame where
  r1 : Option UInt8
  r2 : Option UInt8
  shared : Option (UInt8 × Bool)
deriving DecidableEq, Repr

/-- `c>>7`. -/
def msb (c : UInt8) : UInt8 := c >>> (7 : UInt8)

namespace Frame

def used (f : Frame) : Bool := f.r1.isSome || f.r2.isSome || f.shared.isSome

def syncByte (first : Bool) (f : Frame) : UInt8 :=
  let seq : UInt8 := if first then 0 else 0x40
  let seq := match f.r1 with
    | none => seq
    | some c => seq ||| 0x20 ||| (msb c <<< (2 : UInt8))
  let seq := match f.r2 with
    | none => seq
    | some c => seq ||| 0x10 ||| (msb c <<< (1 : UInt8))
  match f.shared with
    | none => seq
    | some (c, valid) => (if valid then seq ||| 0x08 else seq) ||| msb c

def payload : Option UInt8 → UInt8
  | none => 0x80
  | some c => 0x80 ||| c

/-- The four bytes of the frame on the wire. -/
def bytes (first : Bool) (f : Frame) : List UInt8 :=
  [f.syncByte first, payload f.r1, payload f.r2, payload (f.shared.map (·.1))]

end Frame

/-- The channel each frame of a sequence is shared by. -/
def outChannels : List Channel := [.flags, .control, .winkey, .r1Fsk, .r2Fsk]

/-- One frame: takes a byte of both radios and of the shared channel. -/
def mxFrame (channel : Channel) (ibuf : Channel → Buffer) : Frame × (Channel → Buffer) :=
  let (c1, b1) := (ibuf .r1).getC
  let ibuf := upd ibuf .r1 b1
  let (c2, b2) := (ibuf .r2).getC
  let ibuf := upd ibuf .r2 b2
  let (c, b) := (ibuf channel).getC
  -- no validity bit on the first and the last byte of a command, told by the read position
  let valid := channel != .control || (decide (1 < b.rpos) && decide (b.rpos < b.size))
  (⟨c1, c2, c.map (·, valid)⟩, upd ibuf channel b)

/-- The frames of a sequence, one for each channel of the list. -/
def mxFrames : List Channel → (Channel → Buffer) → List Frame × (Channel → Buffer)
  | [], ibuf => ([], ibuf)
  | ch :: chs, ibuf =>
    let (f, ibuf) := mxFrame ch ibuf
    let (fs, ibuf) := mxFrames chs ibuf
    (f :: fs, ibuf)

/-- The frames up to the last one that carries something (`size`). -/
def trimFrames : List Frame → List Frame
  | [] => []
  | f :: fs =>
    match trimFrames fs with
    | [] => if f.used then [f] else []
    | fs => f :: fs

/-- The bytes of a sequence (`seq`, its first `size` bytes). -/
def seqBytes : List Frame → List UInt8
  | [] => []
  | f :: fs => f.bytes true ++ fs.flatMap (Frame.bytes false)

/-- The loop of `mx_mux`: the output buffer, the channel buffers and `out_size`. Each round appends
at least a frame, so `BUFFER_CAPACITY` rounds are never used up (`mxLoop_full`). -/
def mxLoop : Nat → Buffer → (Channel → Buffer) → Nat → Buffer × (Channel → Buffer) × Nat
  | 0, bout, ibuf, outSize => (bout, ibuf, outSize)
  | fuel + 1, bout, ibuf, outSize =>
    let (fs, ibuf) := mxFrames outChannels ibuf
    match trimFrames fs with
    | [] => (bout, ibuf, outSize)
    | fs@(_ :: _) =>
      let bout := bout.append (seqBytes fs)
      let outSize := outSize + (seqBytes fs).length
      if MAX_SEQUENCE_SIZE ≤ bout.avail then mxLoop fuel bout ibuf outSize
      else (bout, ibuf, outSize)

/-- `mx_mux`. -/
def mxMux (bout : Buffer) (ibuf : Channel → Buffer) : Buffer × (Channel → Buffer) × Nat :=
  if bout.avail < MAX_SEQUENCE_SIZE then (bout, ibuf, 0)
  else mxLoop BUFFER_CAPACITY bout ibuf 0

end Mhuxd
