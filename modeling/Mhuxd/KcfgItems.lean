import Mathlib

/-!
# The keyer options (`kcfg.c`, `mhinfo.c`)

The keyer types, and for each the options its settings block has: a key, the offset of a byte, the highest
bit counted from there, the width and the default.
-/

namespace Mhuxd

/-! ### Keyer types -/

/-- `MHT_...`. -/
inductive KeyerType
  | ck | dk | dk2 | mk | mk2 | mk2r | mk2rp | sm | smd | u2r | mk3
deriving DecidableEq, Repr

namespace KeyerType

/-- `mhi_type_from_serial`: by the first two characters. -/
def ofSerial (serial : String) : Option KeyerType :=
  match serial.toList with
  | 'M' :: 'K' :: _ => some mk
  | 'D' :: 'K' :: _ => some dk
  | 'C' :: 'K' :: _ => some ck
  | 'M' :: '2' :: _ => some mk2
  | 'M' :: '3' :: _ => some mk3
  | 'D' :: '2' :: _ => some dk2
  | '2' :: 'R' :: _ => some mk2r
  | '2' :: 'P' :: _ => some mk2rp
  | 'U' :: 'R' :: _ => some u2r
  | 'S' :: 'M' :: _ => some sm
  | 'S' :: 'D' :: _ => some smd
  | _ => none

/-- `MHF_MHUXD_SUPPORTED`. -/
def supported (t : KeyerType) : Bool := t != u2r

/-- `MHF_HAS_R2`. -/
def hasR2 (t : KeyerType) : Bool := t == mk2r || t == mk2rp

/-- `is_mk_family`. -/
def isMkFamily (t : KeyerType) : Bool := t == mk || t == ck || t == dk

end KeyerType

/-! ### Options -/

namespace Kcfg

/-- `struct citem` of `kcfg.c`. -/
structure Citem where
  key : String
  off : Nat
  baseBit : Nat
  width : Nat
  dflt : Nat
deriving DecidableEq, Repr

def AUDIO_SW_D : Nat := 0
def AUDIO_SW_B : Nat := 1
def AUDIO_SW_A : Nat := 2
def AUDIO_SW_C : Nat := 3

/-- Where the MK family has the settings of a mode. -/
def MK1_FRBASE_CW : Nat := 10
def MK1_FRBASE_VOICE : Nat := 11
def MK1_FRBASE_DIGITAL : Nat := 12

def cBase : List Citem :=
  [⟨"r1FrBase_Digital.audioRx", 0, 1, 2, AUDIO_SW_B⟩, ⟨"r1FrBase_Digital.audioTx", 0, 3, 2, AUDIO_SW_B⟩,
    ⟨"r1FrBase_Digital.audioTxFootSw", 0, 5, 2, AUDIO_SW_D⟩, ⟨"r1FrBase_Digital.ptt1", 0, 6, 1, 1⟩,
    ⟨"r1FrBase_Digital.ptt2", 0, 7, 1, 1⟩, ⟨"r1DelaySerialPtt", 1, 0, 1, 1⟩, ⟨"fskDiddle", 1, 1, 1, 1⟩,
    ⟨"fskUos", 1, 2, 1, 1⟩, ⟨"restorePtt", 1, 3, 1, 1⟩, ⟨"restoreCompCw", 1, 4, 1, 1⟩,
    ⟨"restoreCompFsk", 1, 5, 1, 1⟩, ⟨"r1LnaPtt", 1, 6, 1, 1⟩, ⟨"r1InvertFsk", 1, 7, 1, 0⟩,
    ⟨"r1PaPtt", 2, 0, 1, 1⟩, ⟨"muteCompCw", 2, 1, 1, 0⟩, ⟨"muteCompFsk", 2, 2, 1, 0⟩,
    ⟨"r1I2cCoupled", 2, 7, 1, 0⟩, ⟨"r1PttDelay", 3, 7, 8, 1⟩, ⟨"r1InvertLnaPtt", 4, 0, 1, 0⟩,
    ⟨"r1ImmediateCw", 4, 1, 1, 0⟩, ⟨"r1TrDelay", 4, 7, 6, 0⟩, ⟨"sideTone", 5, 2, 3, 0⟩, ⟨"speedStep", 5, 7, 4, 2⟩,
    ⟨"r1ForceKeyerMode", 6, 0, 1, 1⟩, ⟨"fskTypeAhead", 6, 1, 1, 0⟩, ⟨"cwTypeAhead", 6, 2, 1, 0⟩,
    ⟨"r1UseLnaPttTail", 6, 3, 1, 1⟩, ⟨"r1FollowTxMode", 6, 4, 1, 1⟩, ⟨"r1AllowCwInVoice", 6, 5, 1, 0⟩,
    ⟨"qwertz", 6, 6, 1, 0⟩, ⟨"r1Qsk", 6, 7, 1, 0⟩, ⟨"r1LineOutRight", 7, 0, 1, 0⟩, ⟨"numLeadZeroT", 7, 1, 1, 0⟩,
    ⟨"numZeroT", 7, 2, 1, 0⟩, ⟨"numOneA", 7, 3, 1, 0⟩, ⟨"numNineN", 7, 4, 1, 0⟩, ⟨"r1KeyerMode", 7, 6, 2, 0⟩,
    ⟨"numReport5NN", 7, 7, 1, 0⟩, ⟨"r1PaPttTail", 8, 7, 8, 1⟩, ⟨"r1LnaPttTail", 9, 7, 8, 1⟩,
    ⟨"r1FrBase_Cw.audioRx", 10, 1, 2, AUDIO_SW_D⟩, ⟨"r1FrBase_Cw.audioTx", 10, 3, 2, AUDIO_SW_D⟩,
    ⟨"r1FrBase_Cw.audioTxFootSw", 10, 5, 2, AUDIO_SW_D⟩, ⟨"r1FrBase_Cw.ptt1", 10, 6, 1, 1⟩,
    ⟨"r1FrBase_Cw.ptt2", 10, 7, 1, 0⟩, ⟨"r1FrBase_Voice.audioRx", 11, 1, 2, AUDIO_SW_A⟩,
    ⟨"r1FrBase_Voice.audioTx", 11, 3, 2, AUDIO_SW_C⟩, ⟨"r1FrBase_Voice.audioTxFootSw", 11, 5, 2, AUDIO_SW_A⟩,
    ⟨"r1FrBase_Voice.ptt1", 11, 6, 1, 1⟩, ⟨"r1FrBase_Voice.ptt2", 11, 7, 1, 0⟩]

def cMk1 : List Citem :=
  [⟨"r1FrBase.audioRx", 0, 1, 2, 1⟩, ⟨"r1FrBase.audioTx", 0, 3, 2, 1⟩, ⟨"r1FrBase.audioTxFootSw", 0, 5, 2, 1⟩,
    ⟨"r1FrBase.ptt1", 0, 6, 1, 1⟩, ⟨"r1FrBase.ptt2", 0, 7, 1, 1⟩]

def cDk2 : List Citem :=
  [⟨"useAutoPtt", 28, 2, 1, 0⟩, ⟨"paddleOnlySideTone", 28, 3, 1, 0⟩, ⟨"downstreamOverFootSw", 28, 5, 1, 0⟩,
    ⟨"useQCw", 28, 6, 1, 0⟩, ⟨"usePFsk", 28, 7, 1, 0⟩, ⟨"civAddress", 40, 7, 8, 0x70⟩,
    ⟨"civBaudRate", 41, 7, 8, 0x18⟩, ⟨"civFunc", 42, 7, 8, 0x00⟩]

def cMk2 : List Citem :=
  [⟨"r1FrMpkExtra_Digital.pwmMonctr", 12, 4, 5, 0⟩, ⟨"r1FrMpkExtra_Digital.reserve", 12, 5, 1, 0⟩,
    ⟨"r1FrMpkExtra_Digital.onAirRecActive", 12, 6, 1, 0⟩,
    ⟨"r1FrMpkExtra_Digital.onAirRecControlByRouter", 12, 7, 1, 0⟩, ⟨"pwmContrast", 13, 4, 5, 15⟩,
    ⟨"pwmBlight", 14, 4, 5, 25⟩, ⟨"dispBg0", 15, 7, 8, 0x06⟩, ⟨"dispBg1", 16, 7, 8, 0x05⟩,
    ⟨"dispEv.recMsg", 17, 0, 1, 0⟩, ⟨"dispEv.playMsg", 17, 1, 1, 0⟩, ⟨"dispEv.txDecoder", 17, 2, 1, 0⟩,
    ⟨"dispEv.rxDecoder", 17, 3, 1, 0⟩, ⟨"dispEv.recDecoder", 17, 4, 1, 0⟩, ⟨"dispEv.wpmChange", 17, 5, 1, 0⟩,
    ⟨"dispEv.steppirCmd", 17, 6, 1, 0⟩, ⟨"dispEv.rxFreqChange", 17, 7, 1, 0⟩,
    ⟨"dispEv.txFreqChange", 17, 8, 1, 0⟩, ⟨"dispEv.modeChange", 17, 9, 1, 0⟩, ⟨"dispEv.micChange", 17, 10, 1, 0⟩,
    ⟨"dispEv.steppirLock", 17, 11, 1, 0⟩, ⟨"dispEv.sysPwr", 17, 12, 1, 1⟩, ⟨"dispEv.wpmInCwMode", 17, 13, 1, 0⟩,
    ⟨"dispEv.cfgOverriden", 17, 14, 1, 0⟩, ⟨"dispEv.wpmSnControlChange", 17, 15, 1, 0⟩,
    ⟨"dispEv.snChange", 17, 16, 1, 0⟩, ⟨"dispEv.snInCwMode", 17, 17, 1, 0⟩,
    ⟨"dispEv.wpmSnInCwMode", 17, 18, 1, 0⟩, ⟨"dispEv.operFreqChange", 17, 19, 1, 0⟩,
    ⟨"dispEv.vfoAFreqChange", 17, 20, 1, 0⟩, ⟨"dispEv.vfoBFreqChange", 17, 21, 1, 0⟩,
    ⟨"dispEv.steppirState", 17, 22, 1, 0⟩, ⟨"dispEv.smLock", 17, 23, 1, 0⟩,
    ⟨"dispEv.subRxFreqChange", 17, 24, 1, 0⟩, ⟨"dispEv.presetChange", 17, 25, 1, 0⟩,
    ⟨"dispEvLn.recMsg", 21, 0, 1, 0⟩, ⟨"dispEvLn.playMsg", 21, 1, 1, 0⟩, ⟨"dispEvLn.txDecoder", 21, 2, 1, 0⟩,
    ⟨"dispEvLn.rxDecoder", 21, 3, 1, 0⟩, ⟨"dispEvLn.recDecoder", 21, 4, 1, 0⟩,
    ⟨"dispEvLn.wpmChange", 21, 5, 1, 0⟩, ⟨"dispEvLn.steppirCmd", 21, 6, 1, 0⟩,
    ⟨"dispEvLn.rxFreqChange", 21, 7, 1, 0⟩, ⟨"dispEvLn.txFreqChange", 21, 8, 1, 0⟩,
    ⟨"dispEvLn.modeChange", 21, 9, 1, 0⟩, ⟨"dispEvLn.micChange", 21, 10, 1, 0⟩,
    ⟨"dispEvLn.steppirLock", 21, 11, 1, 0⟩, ⟨"dispEvLn.sysPwr", 21, 12, 1, 1⟩,
    ⟨"dispEvLn.wpmInCwMode", 21, 13, 1, 0⟩, ⟨"dispEvLn.cfgOverriden", 21, 14, 1, 0⟩,
    ⟨"dispEvLn.wpmSnControlChange", 21, 15, 1, 0⟩, ⟨"dispEvLn.snChange", 21, 16, 1, 0⟩,
    ⟨"dispEvLn.snInCwMode", 21, 17, 1, 0⟩, ⟨"dispEvLn.wpmSnInCwMode", 21, 18, 1, 0⟩,
    ⟨"dispEvLn.operFreqChange", 21, 19, 1, 0⟩, ⟨"dispEvLn.vfoAFreqChange", 21, 20, 1, 0⟩,
    ⟨"dispEvLn.vfoBFreqChange", 21, 21, 1, 0⟩, ⟨"dispEvLn.steppirState", 21, 22, 1, 0⟩,
    ⟨"dispEvLn.smLock", 21, 23, 1, 0⟩, ⟨"dispEvLn.subRxFreqChange", 21, 24, 1, 0⟩,
    ⟨"dispEvLn.presetChange", 21, 25, 1, 0⟩, ⟨"dispEvTime", 25, 7, 8, 200⟩,
    ⟨"r1FrMpkExtra_Cw.pwmMonctr", 26, 4, 5, 0⟩, ⟨"r1FrMpkExtra_Cw.reserve", 26, 5, 1, 0⟩,
    ⟨"r1FrMpkExtra_Cw.onAirRecActive", 26, 6, 1, 0⟩, ⟨"r1FrMpkExtra_Cw.onAirRecControlByRouter", 26, 7, 1, 0⟩,
    ⟨"r1FrMpkExtra_Voice.pwmMonctr", 27, 4, 5, 0⟩, ⟨"r1FrMpkExtra_Voice.reserve", 27, 5, 1, 0⟩,
    ⟨"r1FrMpkExtra_Voice.onAirRecActive", 27, 6, 1, 0⟩,
    ⟨"r1FrMpkExtra_Voice.onAirRecControlByRouter", 27, 7, 1, 0⟩, ⟨"micSelAuto", 28, 0, 1, 1⟩,
    ⟨"micSelFront", 28, 1, 1, 0⟩, ⟨"useAutoPtt", 28, 2, 1, 0⟩, ⟨"paddleOnlySideTone", 28, 3, 1, 0⟩,
    ⟨"enableSleepMode", 28, 4, 1, 0⟩, ⟨"downstreamOverFootSw", 28, 5, 1, 0⟩, ⟨"extSerBaudRate", 29, 7, 8, 24⟩,
    ⟨"civAddress", 40, 7, 8, 0x70⟩, ⟨"civBaudRate", 41, 7, 8, 0x24⟩, ⟨"civFunc", 42, 7, 8, 0x00⟩]

def cMk3 : List Citem :=
  [⟨"r1FrMpkExtra_Digital.pwmMonctr", 12, 4, 5, 0⟩, ⟨"r1FrMpkExtra_Digital.reserve", 12, 5, 1, 0⟩,
    ⟨"r1FrMpkExtra_Digital.onAirRecActive", 12, 6, 1, 0⟩,
    ⟨"r1FrMpkExtra_Digital.onAirRecControlByRouter", 12, 7, 1, 0⟩, ⟨"pwmContrast", 13, 4, 5, 15⟩,
    ⟨"pwmBlight", 14, 4, 5, 25⟩, ⟨"dispBg0", 15, 7, 8, 0x06⟩, ⟨"dispBg1", 16, 7, 8, 0x05⟩,
    ⟨"dispEv.recMsg", 17, 0, 1, 0⟩, ⟨"dispEv.playMsg", 17, 1, 1, 0⟩, ⟨"dispEv.txDecoder", 17, 2, 1, 0⟩,
    ⟨"dispEv.rxDecoder", 17, 3, 1, 0⟩, ⟨"dispEv.recDecoder", 17, 4, 1, 0⟩, ⟨"dispEv.wpmChange", 17, 5, 1, 0⟩,
    ⟨"dispEv.steppirCmd", 17, 6, 1, 0⟩, ⟨"dispEv.rxFreqChange", 17, 7, 1, 0⟩,
    ⟨"dispEv.txFreqChange", 17, 8, 1, 0⟩, ⟨"dispEv.modeChange", 17, 9, 1, 0⟩, ⟨"dispEv.micChange", 17, 10, 1, 0⟩,
    ⟨"dispEv.steppirLock", 17, 11, 1, 0⟩, ⟨"dispEv.sysPwr", 17, 12, 1, 1⟩, ⟨"dispEv.wpmInCwMode", 17, 13, 1, 0⟩,
    ⟨"dispEv.cfgOverriden", 17, 14, 1, 0⟩, ⟨"dispEv.wpmSnControlChange", 17, 15, 1, 0⟩,
    ⟨"dispEv.snChange", 17, 16, 1, 0⟩, ⟨"dispEv.snInCwMode", 17, 17, 1, 0⟩,
    ⟨"dispEv.wpmSnInCwMode", 17, 18, 1, 0⟩, ⟨"dispEv.operFreqChange", 17, 19, 1, 0⟩,
    ⟨"dispEv.vfoAFreqChange", 17, 20, 1, 0⟩, ⟨"dispEv.vfoBFreqChange", 17, 21, 1, 0⟩,
    ⟨"dispEv.steppirState", 17, 22, 1, 0⟩, ⟨"dispEv.smLock", 17, 23, 1, 0⟩,
    ⟨"dispEv.subRxFreqChange", 17, 24, 1, 0⟩, ⟨"dispEv.presetChange", 17, 25, 1, 0⟩,
    ⟨"dispEvLn.recMsg", 21, 0, 1, 0⟩, ⟨"dispEvLn.playMsg", 21, 1, 1, 0⟩, ⟨"dispEvLn.txDecoder", 21, 2, 1, 0⟩,
    ⟨"dispEvLn.rxDecoder", 21, 3, 1, 0⟩, ⟨"dispEvLn.recDecoder", 21, 4, 1, 0⟩,
    ⟨"dispEvLn.wpmChange", 21, 5, 1, 0⟩, ⟨"dispEvLn.steppirCmd", 21, 6, 1, 0⟩,
    ⟨"dispEvLn.rxFreqChange", 21, 7, 1, 0⟩, ⟨"dispEvLn.txFreqChange", 21, 8, 1, 0⟩,
    ⟨"dispEvLn.modeChange", 21, 9, 1, 0⟩, ⟨"dispEvLn.micChange", 21, 10, 1, 0⟩,
    ⟨"dispEvLn.steppirLock", 21, 11, 1, 0⟩, ⟨"dispEvLn.sysPwr", 21, 12, 1, 1⟩,
    ⟨"dispEvLn.wpmInCwMode", 21, 13, 1, 0⟩, ⟨"dispEvLn.cfgOverriden", 21, 14, 1, 0⟩,
    ⟨"dispEvLn.wpmSnControlChange", 21, 15, 1, 0⟩, ⟨"dispEvLn.snChange", 21, 16, 1, 0⟩,
    ⟨"dispEvLn.snInCwMode", 21, 17, 1, 0⟩, ⟨"dispEvLn.wpmSnInCwMode", 21, 18, 1, 0⟩,
    ⟨"dispEvLn.operFreqChange", 21, 19, 1, 0⟩, ⟨"dispEvLn.vfoAFreqChange", 21, 20, 1, 0⟩,
    ⟨"dispEvLn.vfoBFreqChange", 21, 21, 1, 0⟩, ⟨"dispEvLn.steppirState", 21, 22, 1, 0⟩,
    ⟨"dispEvLn.smLock", 21, 23, 1, 0⟩, ⟨"dispEvLn.subRxFreqChange", 21, 24, 1, 0⟩,
    ⟨"dispEvLn.presetChange", 21, 25, 1, 0⟩, ⟨"dispEvTime", 25, 7, 8, 200⟩,
    ⟨"r1FrMpkExtra_Cw.pwmMonctr", 26, 4, 5, 0⟩, ⟨"r1FrMpkExtra_Cw.reserve", 26, 5, 1, 0⟩,
    ⟨"r1FrMpkExtra_Cw.onAirRecActive", 26, 6, 1, 0⟩, ⟨"r1FrMpkExtra_Cw.onAirRecControlByRouter", 26, 7, 1, 0⟩,
    ⟨"r1FrMpkExtra_Voice.pwmMonctr", 27, 4, 5, 0⟩, ⟨"r1FrMpkExtra_Voice.reserve", 27, 5, 1, 0⟩,
    ⟨"r1FrMpkExtra_Voice.onAirRecActive", 27, 6, 1, 0⟩,
    ⟨"r1FrMpkExtra_Voice.onAirRecControlByRouter", 27, 7, 1, 0⟩, ⟨"micSelAuto", 28, 0, 1, 1⟩,
    ⟨"micSelFront", 28, 1, 1, 0⟩, ⟨"useAutoPtt", 28, 2, 1, 0⟩, ⟨"paddleOnlySideTone", 28, 3, 1, 0⟩,
    ⟨"enableSleepMode", 28, 4, 1, 0⟩, ⟨"downstreamOverFootSw", 28, 5, 1, 0⟩, ⟨"useQCw", 28, 6, 1, 0⟩,
    ⟨"usePFsk", 28, 7, 1, 0⟩, ⟨"extSerBaudRate", 29, 7, 8, 24⟩, ⟨"civAddress", 40, 7, 8, 0x70⟩,
    ⟨"civBaudRate", 41, 7, 8, 0x24⟩, ⟨"civFunc", 42, 7, 8, 0x00⟩]

def cMk2r : List Citem :=
  [⟨"r1FrMokExtra_Digital.audioRxMic", 12, 0, 1, 0⟩, ⟨"r1FrMokExtra_Digital.reserve1", 12, 1, 1, 0⟩,
    ⟨"r1FrMokExtra_Digital.audioTxMic", 12, 2, 1, 0⟩, ⟨"r1FrMokExtra_Digital.reserve2", 12, 3, 1, 0⟩,
    ⟨"r1FrMokExtra_Digital.audioTxFootSwMic", 12, 4, 1, 0⟩, ⟨"r1FrMokExtra_Digital.reserve3", 12, 5, 1, 0⟩,
    ⟨"r1FrMokExtra_Digital.voiceCodec", 12, 6, 1, 0⟩, ⟨"r1FrMokExtra_Digital.reserve4", 12, 7, 1, 0⟩,
    ⟨"r2FrBase_Digital.audioRx", 13, 1, 2, 1⟩, ⟨"r2FrBase_Digital.audioTx", 13, 3, 2, 1⟩,
    ⟨"r2FrBase_Digital.audioTxFootSw", 13, 5, 2, 1⟩, ⟨"r2FrBase_Digital.ptt1", 13, 6, 1, 1⟩,
    ⟨"r2FrBase_Digital.ptt2", 13, 7, 1, 1⟩, ⟨"r2FrMokExtra_Digital.audioRxMic", 14, 0, 1, 0⟩,
    ⟨"r2FrMokExtra_Digital.reserve1", 14, 1, 1, 0⟩, ⟨"r2FrMokExtra_Digital.audioTxMic", 14, 2, 1, 0⟩,
    ⟨"r2FrMokExtra_Digital.reserve2", 14, 3, 1, 0⟩, ⟨"r2FrMokExtra_Digital.audioTxFootSwMic", 14, 4, 1, 0⟩,
    ⟨"r2FrMokExtra_Digital.reserve3", 14, 5, 1, 0⟩, ⟨"r2FrMokExtra_Digital.voiceCodec", 14, 6, 1, 0⟩,
    ⟨"r2FrMokExtra_Digital.reserve4", 14, 7, 1, 0⟩, ⟨"r2PaPtt", 15, 0, 1, 1⟩, ⟨"singleSerialCw", 15, 1, 1, 0⟩,
    ⟨"singleSerialPtt", 15, 2, 1, 0⟩, ⟨"singleFootSwitch", 15, 7, 1, 0⟩, ⟨"r2DelaySerialPtt", 16, 0, 1, 1⟩,
    ⟨"r2I2cCoupled", 16, 1, 1, 0⟩, ⟨"lastOneWins", 16, 2, 1, 0⟩, ⟨"dualTx", 16, 3, 1, 0⟩,
    ⟨"useLptPtt", 16, 4, 1, 0⟩, ⟨"useLptCw", 16, 5, 1, 0⟩, ⟨"r2LnaPtt", 16, 6, 1, 1⟩,
    ⟨"r2InvertFsk", 16, 7, 1, 0⟩, ⟨"r2LineOutRight", 17, 0, 1, 0⟩, ⟨"lptDvk", 17, 1, 1, 0⟩,
    ⟨"disableBandLock", 17, 4, 1, 0⟩, ⟨"r2KeyerMode", 17, 6, 2, 0⟩, ⟨"useLptFsIn", 17, 7, 1, 0⟩,
    ⟨"r2ForceKeyerMode", 18, 0, 1, 1⟩, ⟨"singleSerialFsk", 18, 1, 1, 0⟩, ⟨"useChanFocus", 18, 2, 1, 0⟩,
    ⟨"r2UseLnaPttTail", 18, 3, 1, 1⟩, ⟨"r2FollowTxMode", 18, 4, 1, 1⟩, ⟨"r2AllowCwInVoice", 18, 5, 1, 0⟩,
    ⟨"singleWinkeyCwPtt", 18, 6, 1, 0⟩, ⟨"r2Qsk", 18, 7, 1, 0⟩, ⟨"r2PttDelay", 19, 7, 8, 1⟩,
    ⟨"modeA", 20, 7, 4, 0⟩, ⟨"modeB", 21, 3, 4, 0⟩, ⟨"modeC", 21, 7, 4, 0⟩, ⟨"txFocusAutoCmd", 22, 0, 1, 0⟩,
    ⟨"rxFocusAutoCmd", 22, 1, 1, 0⟩, ⟨"stereoFocusAutoCmd", 22, 2, 1, 0⟩, ⟨"txFocusAuto2Ptt", 22, 3, 1, 0⟩,
    ⟨"rxFocusFollowTx", 22, 4, 1, 0⟩, ⟨"stereoFocusNone", 22, 5, 1, 0⟩, ⟨"txFocusPinInverted", 23, 0, 1, 0⟩,
    ⟨"rxFocusPinInverted", 23, 1, 1, 0⟩, ⟨"stereoFocusPinInverted", 23, 2, 1, 0⟩, ⟨"txFocusPin3", 23, 3, 1, 0⟩,
    ⟨"stereoFocusPin5", 23, 4, 1, 0⟩, ⟨"ser1Source", 24, 1, 2, 0⟩, ⟨"r1OutputDataType", 24, 6, 3, 0⟩,
    ⟨"r1BandDataInput", 24, 7, 1, 0⟩, ⟨"pin4Function", 24, 11, 4, 0⟩, ⟨"pin5Function", 24, 15, 4, 0⟩,
    ⟨"ser2Source", 24, 17, 2, 0⟩, ⟨"r2OutputDataType", 24, 22, 3, 0⟩, ⟨"r2BandDataInput", 24, 23, 1, 0⟩,
    ⟨"pin3Function", 24, 27, 4, 0⟩, ⟨"pin2Function", 24, 31, 4, 0⟩, ⟨"audioSwitchingDelay", 28, 7, 8, 0⟩,
    ⟨"r2InvertLnaPtt", 29, 0, 1, 0⟩, ⟨"r1FrMokExtra_Cw.audioRxMic", 40, 0, 1, 0⟩,
    ⟨"r1FrMokExtra_Cw.reserve1", 40, 1, 1, 0⟩, ⟨"r1FrMokExtra_Cw.audioTxMic", 40, 2, 1, 0⟩,
    ⟨"r1FrMokExtra_Cw.reserve2", 40, 3, 1, 0⟩, ⟨"r1FrMokExtra_Cw.audioTxFootSwMic", 40, 4, 1, 0⟩,
    ⟨"r1FrMokExtra_Cw.reserve3", 40, 5, 1, 0⟩, ⟨"r1FrMokExtra_Cw.voiceCodec", 40, 6, 1, 1⟩,
    ⟨"r1FrMokExtra_Cw.reserve4", 40, 7, 1, 0⟩, ⟨"r2FrBase_Cw.audioRx", 41, 1, 2, 2⟩,
    ⟨"r2FrBase_Cw.audioTx", 41, 3, 2, 2⟩, ⟨"r2FrBase_Cw.audioTxFootSw", 41, 5, 2, 2⟩,
    ⟨"r2FrBase_Cw.ptt1", 41, 6, 1, 1⟩, ⟨"r2FrBase_Cw.ptt2", 41, 7, 1, 0⟩,
    ⟨"r2FrMokExtra_Cw.audioRxMic", 42, 0, 1, 0⟩, ⟨"r2FrMokExtra_Cw.reserve1", 42, 1, 1, 0⟩,
    ⟨"r2FrMokExtra_Cw.audioTxMic", 42, 2, 1, 0⟩, ⟨"r2FrMokExtra_Cw.reserve2", 42, 3, 1, 0⟩,
    ⟨"r2FrMokExtra_Cw.audioTxFootSwMic", 42, 4, 1, 0⟩, ⟨"r2FrMokExtra_Cw.reserve3", 42, 5, 1, 0⟩,
    ⟨"r2FrMokExtra_Cw.voiceCodec", 42, 6, 1, 1⟩, ⟨"r2FrMokExtra_Cw.reserve4", 42, 7, 1, 0⟩,
    ⟨"r1FrMokExtra_Voice.audioRxMic", 43, 0, 1, 0⟩, ⟨"r1FrMokExtra_Voice.reserve1", 43, 1, 1, 0⟩,
    ⟨"r1FrMokExtra_Voice.audioTxMic", 43, 2, 1, 1⟩, ⟨"r1FrMokExtra_Voice.reserve2", 43, 3, 1, 0⟩,
    ⟨"r1FrMokExtra_Voice.audioTxFootSwMic", 43, 4, 1, 0⟩, ⟨"r1FrMokExtra_Voice.reserve3", 43, 5, 1, 0⟩,
    ⟨"r1FrMokExtra_Voice.voiceCodec", 43, 6, 1, 1⟩, ⟨"r1FrMokExtra_Voice.reserve4", 43, 7, 1, 0⟩,
    ⟨"r2FrBase_Voice.audioRx", 44, 1, 2, 2⟩, ⟨"r2FrBase_Voice.audioTx", 44, 3, 2, 3⟩,
    ⟨"r2FrBase_Voice.audioTxFootSw", 44, 5, 2, 2⟩, ⟨"r2FrBase_Voice.ptt1", 44, 6, 1, 1⟩,
    ⟨"r2FrBase_Voice.ptt2", 44, 7, 1, 0⟩, ⟨"r2FrMokExtra_Voice.audioRxMic", 45, 0, 1, 0⟩,
    ⟨"r2FrMokExtra_Voice.reserve1", 45, 1, 1, 0⟩, ⟨"r2FrMokExtra_Voice.audioTxMic", 45, 2, 1, 1⟩,
    ⟨"r2FrMokExtra_Voice.reserve2", 45, 3, 1, 0⟩, ⟨"r2FrMokExtra_Voice.audioTxFootSwMic", 45, 4, 1, 0⟩,
    ⟨"r2FrMokExtra_Voice.reserve3", 45, 5, 1, 0⟩, ⟨"r2FrMokExtra_Voice.voiceCodec", 45, 6, 1, 1⟩,
    ⟨"r2FrMokExtra_Voice.reserve4", 45, 7, 1, 0⟩, ⟨"accSer1Func", 46, 7, 8, 0⟩, ⟨"accSer2Func", 47, 7, 8, 0⟩,
    ⟨"accSer1BaudRate", 48, 7, 8, 0x24⟩, ⟨"accSer1BaudRate", 49, 7, 8, 0x24⟩, ⟨"accSer1Par", 50, 7, 8, 0⟩,
    ⟨"accSer2Par", 51, 7, 8, 0⟩, ⟨"r2PaPttTail", 52, 7, 8, 1⟩, ⟨"r2LnaPttTail", 53, 7, 8, 1⟩]

def cU2r : List Citem :=
  [⟨"r2FrBase", 14, 7, 8, 0xEA⟩, ⟨"singleSerialCw", 15, 1, 1, 0⟩, ⟨"singleSerialPtt", 15, 2, 1, 0⟩,
    ⟨"r2DelaySerialPtt", 16, 1, 1, 0⟩, ⟨"lastOneWins", 16, 2, 1, 0⟩, ⟨"dualTx", 16, 3, 1, 0⟩,
    ⟨"useLptPtt", 16, 4, 1, 0⟩, ⟨"useLptCw", 16, 5, 1, 0⟩, ⟨"r2InvertFsk", 16, 7, 1, 0⟩,
    ⟨"disableBandLock", 17, 4, 1, 0⟩, ⟨"r2KeyerMode", 17, 6, 2, 0⟩, ⟨"r2ForceKeyerMode", 18, 0, 1, 0⟩,
    ⟨"singleSerialFsk", 18, 1, 1, 0⟩, ⟨"r2AllowCwInVoice", 18, 5, 1, 0⟩, ⟨"singleWinkeyCwPtt", 18, 6, 1, 0⟩,
    ⟨"r2PttDelay", 19, 7, 8, 0⟩, ⟨"txFocusAutoCmd", 22, 0, 1, 0⟩, ⟨"rxFocusAutoCmd", 22, 1, 1, 0⟩,
    ⟨"stereoFocusAutoCmd", 22, 2, 1, 0⟩, ⟨"txFocusAuto2Ptt", 22, 3, 1, 0⟩, ⟨"rxFocusFollowTx", 22, 4, 1, 0⟩,
    ⟨"stereoFocusNone", 22, 5, 1, 0⟩, ⟨"txFocusPinInverted", 23, 0, 1, 0⟩, ⟨"rxFocusPinInverted", 23, 1, 1, 0⟩,
    ⟨"stereoFocusPinInverted", 23, 2, 1, 0⟩, ⟨"txFocusPin3", 23, 3, 1, 0⟩, ⟨"stereoFocusPin5", 23, 4, 1, 0⟩,
    ⟨"audioSwitchingDelay", 28, 7, 8, 0⟩, ⟨"r2InvertLnaPtt", 29, 0, 1, 0⟩, ⟨"rxFocus_r1RxRx", 40, 0, 1, 0⟩,
    ⟨"split_r1RxRx", 40, 1, 1, 0⟩, ⟨"rxFocus_r1TxRxComputer", 40, 2, 1, 0⟩, ⟨"split_r1TxRxComputer", 40, 3, 1, 0⟩,
    ⟨"rxFocus_r2RxRx", 40, 4, 1, 0⟩, ⟨"split_r2RxRx", 40, 5, 1, 0⟩, ⟨"rxFocus_r2RxTxComputer", 40, 6, 1, 0⟩,
    ⟨"split_r2RxTxComputer", 40, 7, 1, 0⟩, ⟨"rxFocus_earsStereo", 40, 8, 1, 0⟩, ⟨"split_earsStereo", 40, 9, 1, 0⟩,
    ⟨"rxFocus_r1TxRxManual", 40, 12, 1, 0⟩, ⟨"split_r1TxRxManual", 40, 13, 1, 0⟩,
    ⟨"rxFocus_r2RxTxManual", 40, 14, 1, 0⟩, ⟨"split_r2RxTxManual", 40, 15, 1, 0⟩]

def cSm : List Citem :=
  [⟨"pwmContrast", 0, 4, 5, 15⟩, ⟨"pwmBlight", 1, 4, 5, 25⟩, ⟨"dispBg0", 2, 7, 8, 0x0d⟩,
    ⟨"dispBg1", 3, 7, 8, 0x10⟩, ⟨"dispEv.steppirState", 4, 0, 1, 0⟩, ⟨"dispEv.steppirLock", 4, 1, 1, 0⟩,
    ⟨"dispEv.steppirCommands", 4, 2, 1, 0⟩, ⟨"dispEv.portAVolt", 4, 3, 1, 0⟩, ⟨"dispEv.portBVolt", 4, 4, 1, 0⟩,
    ⟨"dispEv.txFreqChange", 4, 5, 1, 0⟩, ⟨"dispEv.rxFreqChange", 4, 6, 1, 0⟩,
    ⟨"dispEv.operFreqChange", 4, 7, 1, 0⟩, ⟨"dispEv.vfoAFreqChange", 4, 8, 1, 0⟩,
    ⟨"dispEv.vfoBFreqChange", 4, 9, 1, 0⟩, ⟨"dispEv.curAntChange", 4, 10, 1, 0⟩,
    ⟨"dispEv.rotatorStateChange", 4, 11, 1, 0⟩, ⟨"dispEv.bandChange", 4, 12, 1, 0⟩,
    ⟨"dispEv.antChange", 4, 13, 1, 0⟩, ⟨"dispEv.txAntChange", 4, 14, 1, 0⟩,
    ⟨"dispEv.virtRotatorStateChange", 4, 15, 1, 0⟩, ⟨"dispEv.andSelectionSplit", 4, 16, 1, 0⟩,
    ⟨"dispEv.group", 4, 17, 1, 0⟩, ⟨"dispEvLn.steppirState", 8, 0, 1, 0⟩, ⟨"dispEvLn.steppirLock", 8, 1, 1, 0⟩,
    ⟨"dispEvLn.steppirCommands", 8, 2, 1, 0⟩, ⟨"dispEvLn.portAVolt", 8, 3, 1, 0⟩,
    ⟨"dispEvLn.portBVolt", 8, 4, 1, 0⟩, ⟨"dispEvLn.txFreqChange", 8, 5, 1, 0⟩,
    ⟨"dispEvLn.rxFreqChange", 8, 6, 1, 0⟩, ⟨"dispEvLn.operFreqChange", 8, 7, 1, 0⟩,
    ⟨"dispEvLn.vfoAFreqChange", 8, 8, 1, 0⟩, ⟨"dispEvLn.vfoBFreqChange", 8, 9, 1, 0⟩,
    ⟨"dispEvLn.curAntChange", 8, 10, 1, 0⟩, ⟨"dispEvLn.rotatorStateChange", 8, 11, 1, 0⟩,
    ⟨"dispEvLn.bandChange", 8, 12, 1, 0⟩, ⟨"dispEvLn.antChange", 8, 13, 1, 0⟩,
    ⟨"dispEvLn.txAntChange", 8, 14, 1, 0⟩, ⟨"dispEvLn.virtRotatorStateChange", 8, 15, 1, 0⟩,
    ⟨"dispEvLn.andSelectionSplit", 8, 16, 1, 0⟩, ⟨"dispEvLn.group", 8, 17, 1, 0⟩, ⟨"dispEvTime", 12, 7, 8, 200⟩,
    ⟨"assignedToR2", 13, 0, 1, 0⟩, ⟨"enableSleepMode", 13, 1, 1, 0⟩, ⟨"buttonBeep", 13, 2, 1, 0⟩,
    ⟨"alarmBeep", 13, 3, 1, 0⟩, ⟨"forwardNumpadKeys", 13, 4, 1, 0⟩, ⟨"i2cCoupled", 13, 5, 1, 0⟩,
    ⟨"keyFuncFh2.1", 14, 7, 8, 0x04⟩, ⟨"keyFuncFh2.2", 15, 7, 8, 0x05⟩, ⟨"keyFuncFh2.3", 16, 7, 8, 0x06⟩,
    ⟨"keyFuncFh2.4", 17, 7, 8, 0x07⟩, ⟨"keyFuncFh2.5", 18, 7, 8, 0x08⟩, ⟨"keyFuncFh2.6", 19, 7, 8, 0x09⟩,
    ⟨"keyFuncFh2.7", 20, 7, 8, 0x0a⟩, ⟨"keyFuncFh2.8", 21, 7, 8, 0x0b⟩, ⟨"keyFuncFh2.9", 22, 7, 8, 0x0c⟩,
    ⟨"keyFuncFh2.10", 23, 7, 8, 0x0d⟩, ⟨"keyFuncFh2.11", 24, 7, 8, 0x0e⟩, ⟨"keyFuncFh2.12", 25, 7, 8, 0x0f⟩,
    ⟨"keyFuncPs2.shift0", 26, 7, 8, 0x22⟩, ⟨"keyFuncPs2.shift1", 27, 7, 8, 0x24⟩,
    ⟨"keyFuncPs2.shift2", 28, 7, 8, 0x25⟩, ⟨"keyFuncPs2.shift3", 29, 7, 8, 0x26⟩,
    ⟨"keyFuncPs2.shift4", 30, 7, 8, 0x27⟩, ⟨"keyFuncPs2.shift5", 31, 7, 8, 0x18⟩,
    ⟨"keyFuncPs2.shift6", 32, 7, 8, 0x19⟩, ⟨"keyFuncPs2.shift7", 33, 7, 8, 0x2b⟩,
    ⟨"keyFuncPs2.shift8", 34, 7, 8, 0x2c⟩, ⟨"keyFuncPs2.shift9", 35, 7, 8, 0x2d⟩,
    ⟨"keyFuncPs2.0", 36, 7, 8, 0x0d⟩, ⟨"keyFuncPs2.1", 37, 7, 8, 0x04⟩, ⟨"keyFuncPs2.2", 38, 7, 8, 0x05⟩,
    ⟨"keyFuncPs2.3", 39, 7, 8, 0x06⟩, ⟨"keyFuncPs2.4", 40, 7, 8, 0x07⟩, ⟨"keyFuncPs2.5", 41, 7, 8, 0x08⟩,
    ⟨"keyFuncPs2.6", 42, 7, 8, 0x09⟩, ⟨"keyFuncPs2.7", 43, 7, 8, 0x0a⟩, ⟨"keyFuncPs2.8", 44, 7, 8, 0x0b⟩,
    ⟨"keyFuncPs2.9", 45, 7, 8, 0x0c⟩]

/-- The items of a keyer: those of the MK family start with `r1FrBase_Digital`, which has another place there. -/
def items : KeyerType → List Citem
  | .ck | .dk => mkBase
  | .mk => mkBase ++ cMk1
  | .dk2 => cBase ++ cDk2
  | .mk2 => cBase ++ cMk2
  | .mk3 => cBase ++ cMk3
  | .mk2r | .mk2rp => cBase ++ cMk2r
  | .u2r => cBase ++ cU2r
  | .sm | .smd => cSm
where
  mkBase : List Citem := (cBase.take 5).map (fun i => { i with off := MK1_FRBASE_DIGITAL }) ++ cBase.drop 5

/-- The options that keep their default in CW. -/
def enforcedKeys : List String :=
  ["r1FrBase_Cw.audioTx", "r1FrBase_Cw.audioRx", "r1FrBase_Cw.audioTxFootSw", "r2FrBase_Cw.audioTx", "r2FrBase_Cw.audioRx",
    "r2FrBase_Cw.audioTxFootSw", "r1FrMpkExtra_Cw.onAirRecActive", "r1FrMpkExtra_Cw.onAirRecControlByRouter",
    "r2FrMpkExtra_Cw.onAirRecActive", "r2FrMpkExtra_Cw.onAirRecControlByRouter"]

end Kcfg

end Mhuxd
