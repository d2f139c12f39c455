/-
`minigb_apu`: the sound chip behind the registers 0xFF10..0xFF3F, as it is built for the device
(16-bit samples at 16 kHz). Everything is computed as the C code computes it, and whatever would be
undefined there faults: an index outside its array, a division by zero, a shift by too many bits, an
`int` result that does not fit, and a loop that does not end.
-/
import FoloGameboy.Core.State
import FoloGameboy.Lib.Loop

namespace FoloGameboy

/-! ## C arithmetic -/

/-- The result of an `int` operation. -/
def cInt (x : Int) : Option Int := if -2147483648 ≤ x ∧ x ≤ 2147483647 then some x else none

/-- Conversion to `int32_t`. -/
def wrapInt32 (x : Int) : Int := x.bmod 4294967296

/-- Conversion to `int16_t`. -/
def wrapInt16 (x : Int) : Int := x.bmod 65536

/-- Division of `unsigned` numbers. -/
def cDiv (x y : UInt32) : Option UInt32 := if y = 0 then none else some (x / y)

/-! ## Constants -/

def AUDIO_SAMPLE_RATE : Nat := 16000

/-- Samples of a channel in one call, a frame of the Game Boy at 4194304 / 70224 Hz. -/
def AUDIO_SAMPLES : Nat := AUDIO_SAMPLE_RATE * 70224 / 4194304

def FREQ_INC_MULT : UInt32 := 105
def FREQ_INC_REF : UInt32 := 1680000
def MAX_CHAN_VOLUME : UInt8 := 15
def AUDIO_SAMPLE_MAX : Int := 32767
/-- `VOL_INIT_MAX / MAX_CHAN_VOLUME` and `VOL_INIT_MIN / MAX_CHAN_VOLUME`. -/
def LEVEL_HIGH : Int := (AUDIO_SAMPLE_MAX.tdiv 8).tdiv 15
def LEVEL_LOW : Int := ((-32768 : Int).tdiv 8).tdiv 15
def AUDIO_MEM_SIZE : Nat := 0x30

/-! ## State -/

/-- `chan_len_ctr`; the flag is only ever tested against zero. -/
structure LenCtr where
  load : UInt8 := 0
  enabled : Bool := false
  counter : UInt32 := 0
  inc : UInt32 := 0

/-- `chan_vol_env` -/
structure VolEnv where
  step : UInt8 := 0
  up : Bool := false
  counter : UInt32 := 0
  inc : UInt32 := 0

/-- `chan_freq_sweep` -/
structure FreqSweep where
  rate : UInt8 := 0
  shift : UInt8 := 0
  down : Bool := false
  freq : UInt16 := 0
  counter : UInt32 := 0
  inc : UInt32 := 0

/-- The union at the end of a channel: four bytes that `square`, `noise` and `wave` share, so that a
duty written to the noise channel replaces the low byte of its shift register. -/
structure Shape where
  byte0 : UInt8 := 0
  byte1 : UInt8 := 0
  byte2 : UInt8 := 0
  byte3 : UInt8 := 0

namespace Shape

def duty (s : Shape) : UInt8 := s.byte0
def dutyCounter (s : Shape) : UInt8 := s.byte1
def lfsrReg (s : Shape) : UInt16 := s.byte0.toUInt16 ||| (s.byte1.toUInt16 <<< 8)
def lfsrWide (s : Shape) : Bool := s.byte2 ≠ 0
def lfsrDiv (s : Shape) : UInt8 := s.byte3
/-- An `int8_t`. -/
def sample (s : Shape) : Int := s.byte0.toInt8.toInt

def withDuty (d : UInt8) (s : Shape) : Shape := { s with byte0 := d }
def withDutyCounter (n : UInt8) (s : Shape) : Shape := { s with byte1 := n }
def withLfsrReg (r : UInt16) (s : Shape) : Shape := { s with byte0 := r.toUInt8, byte1 := (r >>> 8).toUInt8 }
def withSample (x : Int) (s : Shape) : Shape := { s with byte0 := (Int8.ofInt x).toUInt8 }

end Shape

/-- `chan` -/
structure Chan where
  enabled : Bool := false
  powered : Bool := false
  onLeft : UInt8 := 0
  onRight : UInt8 := 0
  volume : UInt8 := 0
  volumeInit : UInt8 := 0
  freq : UInt16 := 0
  freqCounter : UInt32 := 0
  freqInc : UInt32 := 0
  val : Int := 0
  len : LenCtr := {}
  env : VolEnv := {}
  sweep : FreqSweep := {}
  shape : Shape := {}

/-- `minigb_apu_ctx` -/
structure Apu where
  chans : Fin 4 → Chan := fun _ => {}
  volL : Int := 0
  volR : Int := 0
  audioMem : Buffer := .fill AUDIO_MEM_SIZE 0

/-- The channel with the sweep, the wave channel and the noise channel. -/
abbrev SWEEP_CHAN : Fin 4 := 0
abbrev WAVE_CHAN : Fin 4 := 2
abbrev NOISE_CHAN : Fin 4 := 3

def Apu.setChan (i : Fin 4) (c : Chan) (a : Apu) : Apu := { a with chans := Function.update a.chans i c }

/-- `ctx->chans[i]` -/
def chanIndex (i : Nat) : Option (Fin 4) := if h : i < 4 then some ⟨i, h⟩ else none

/-! ## Counters -/

def setNoteFreq (c : Chan) : Option Chan := do
  let freq ← cDiv 1048576 (2048 - c.freq.toUInt32)
  return { c with freqInc := freq * FREQ_INC_MULT }

/-- The low half of register 0xFF26: the channels that are on. -/
def enabledBits (chans : Fin 4 → Chan) : UInt8 :=
  let bit (i : Fin 4) (mask : UInt8) : UInt8 := if (chans i).enabled then mask else 0
  bit 3 8 ||| bit 2 4 ||| bit 1 2 ||| bit 0 1

def chanEnable (i : Fin 4) (enable : Bool) (a : Apu) : Option Apu := do
  let a := a.setChan i { a.chans i with enabled := enable }
  let status ← a.audioMem.load 0x16
  let audioMem ← a.audioMem.put 0x16 ((status &&& 0x80) ||| enabledBits a.chans)
  return { a with audioMem := audioMem }

/-- A step of the envelope. A volume below 0 or above 15 comes out as 15. -/
def envStep (c : Chan) : Chan :=
  if c.env.step ≠ 0 then
    let volume := if c.env.up then c.volume + 1 else c.volume - 1
    { c with
      volume := if MAX_CHAN_VOLUME ≤ volume then MAX_CHAN_VOLUME else volume
      env := { c.env with inc := if volume = 0 ∨ volume = MAX_CHAN_VOLUME then 0 else c.env.inc } }
  else c

/-- More passes than any of the loops makes. -/
def loopFuel : Nat := 256

def updateEnv (c : Chan) : Option Chan :=
  Loop.whileDo (fun c => (FREQ_INC_REF < c.env.counter, c))
    (fun c =>
      let c := envStep c
      some { c with env := { c.env with counter := c.env.counter - FREQ_INC_REF } })
    loopFuel { c with env := { c.env with counter := c.env.counter + c.env.inc } }

def updateLen (i : Fin 4) (a : Apu) : Option Apu :=
  let c := a.chans i
  if c.len.enabled then
    let counter := c.len.counter + c.len.inc
    if FREQ_INC_REF < counter then do
      let a ← chanEnable i false (a.setChan i { c with len := { c.len with counter := counter } })
      return a.setChan i { a.chans i with len := { (a.chans i).len with counter := 0 } }
    else some (a.setChan i { c with len := { c.len with counter := counter } })
  else some a

/-- One pass of the sweep; `inc *= -1` is the negation of a `uint16_t`. -/
def sweepStep (c : Chan) : Option Chan :=
  if c.sweep.shift ≠ 0 then
    if c.sweep.shift < 32 then
      let inc : UInt16 := .ofNat (c.sweep.freq.toNat >>> c.sweep.shift.toNat)
      let c := { c with freq := c.sweep.freq + if c.sweep.down then -inc else inc }
      if 2047 < c.freq then some { c with enabled := false }
      else do
        let c ← setNoteFreq c
        return { c with sweep := { c.sweep with freq := c.freq } }
    else none
  else if c.sweep.rate ≠ 0 then some { c with enabled := false }
  else some c

def updateSweep (c : Chan) : Option Chan :=
  Loop.whileDo (fun c => (FREQ_INC_REF < c.sweep.counter, c))
    (fun c => do
      let c ← sweepStep c
      return { c with sweep := { c.sweep with counter := c.sweep.counter - FREQ_INC_REF } })
    loopFuel { c with sweep := { c.sweep with counter := c.sweep.counter + c.sweep.inc } }

/-! ## Notes -/

/-- The channel and the local variables while the wave steps of one sample are made. -/
structure Note where
  chan : Chan
  pos : UInt32 := 0
  prevPos : UInt32 := 0
  sample : Int := 0

def updateFreq (n : Note) : Bool × Note :=
  let inc := n.chan.freqInc - n.pos
  let counter := n.chan.freqCounter + inc
  if FREQ_INC_REF < counter then
    (true, { n with chan := { n.chan with freqCounter := 0 }, pos := n.chan.freqInc - (counter - FREQ_INC_REF) })
  else (false, { n with chan := { n.chan with freqCounter := counter }, pos := n.chan.freqInc })

/-- `(pos - prev_pos) / c->freq_inc` -/
def elapsedPart (n : Note) : Option UInt32 := cDiv (n.pos - n.prevPos) n.chan.freqInc

def playNote (body : Note → Option Note) (c : Chan) : Option Note :=
  Loop.whileDo updateFreq body loopFuel { chan := c }

/-- What a pass of the loop over the samples comes to: `return`, `continue` or a sample. -/
inductive Pass where
  | stop
  | skip
  | sample (x : Int)

structure StereoSample where
  left : Int
  right : Int
deriving DecidableEq

/-- `samples[i] += sample * on * vol` -/
def addSample (out sample : Int) (on : UInt8) (vol : Int) : Option Int := do
  let x ← cInt (sample * on.toNat)
  let x ← cInt (x * vol)
  let x ← cInt (out + x)
  return wrapInt16 x

def mixSample (i : Fin 4) (a : Apu) (sample : Int) (out : StereoSample) : Option StereoSample := do
  let left ← addSample out.left sample (a.chans i).onLeft a.volL
  let right ← addSample out.right sample (a.chans i).onRight a.volR
  return ⟨left, right⟩

/-- The loop of a channel over the samples. -/
def eachSample (i : Fin 4) (pass : Apu → Option (Pass × Apu)) :
    List StereoSample → Apu → Option (List StereoSample × Apu)
  | [], a => some ([], a)
  | out :: rest, a => do
    match ← pass a with
    | (.stop, a) => return (out :: rest, a)
    | (.skip, a) =>
      let (rest, a) ← eachSample i pass rest a
      return (out :: rest, a)
    | (.sample x, a) =>
      let out ← mixSample i a x out
      let (rest, a) ← eachSample i pass rest a
      return (out :: rest, a)

/-- `sample += c->val; sample *= c->volume; sample /= 4` -/
def scaleSample (c : Chan) (sample : Int) : Option Int := do
  let sample ← cInt (sample + c.val)
  let sample ← cInt (sample * c.volume.toNat)
  return sample.tdiv 4

/-! ## Square channels -/

def squareTick (n : Note) : Option Note := do
  let c := n.chan
  let c := { c with shape := c.shape.withDutyCounter ((c.shape.dutyCounter + 1) &&& 7) }
  let part ← elapsedPart n
  let sample := wrapInt32 (n.sample + part.toNat * c.val)
  let high := c.shape.duty.toNat.testBit c.shape.dutyCounter.toNat
  return { n with chan := { c with val := if high then LEVEL_HIGH else LEVEL_LOW }, sample := sample, prevPos := n.pos }

def squarePass (i : Fin 4) (a : Apu) : Option (Pass × Apu) := do
  let a ← updateLen i a
  if (a.chans i).enabled then
    let c ← updateEnv (a.chans i)
    if c.volume = 0 then return (.skip, a.setChan i c)
    else
      let c ← (if i = 0 then updateSweep c else some c)
      let n ← playNote squareTick c
      let sample ← scaleSample n.chan n.sample
      return (.sample sample, a.setChan i n.chan)
  else return (.stop, a)

def updateSquare (ch2 : Bool) (out : List StereoSample) (a : Apu) : Option (List StereoSample × Apu) := do
  let i : Fin 4 := if ch2 then 1 else 0
  let c := a.chans i
  if c.powered ∧ c.enabled then
    let c ← setNoteFreq c
    eachSample i (squarePass i) out (a.setChan i c)
  else return (out, a)

/-! ## Wave channel -/

/-- The position is an `unsigned`, the result an `int8_t`. -/
def waveSample (audioMem : Buffer) (pos : Nat) (volume : UInt8) : Option Int := do
  let byte ← audioMem.load (0x20 + pos / 2)
  let sample := if pos % 2 = 1 then byte &&& 0xF else byte >>> 4
  let signed : Int := sample.toNat - 8
  if volume = 0 then return 0
  else if volume - 1 < 32 then return signed >>> (volume - 1).toNat
  else none

def AUDIO_STEP : Int := AUDIO_SAMPLE_MAX.tdiv 32

/-- `audio_sample_t div[] = { AUDIO_SAMPLE_MAX, 1, 2, 4 }` -/
def waveDiv : List Int := [AUDIO_SAMPLE_MAX, 1, 2, 4]

def waveTick (audioMem : Buffer) (n : Note) : Option Note := do
  let c := n.chan
  let val ← cInt (c.val + 1)
  let val := val % 32
  let part ← elapsedPart n
  let sample := wrapInt16 (n.sample + part.toNat * c.shape.sample * AUDIO_STEP)
  let next ← waveSample audioMem (val % 4294967296).toNat c.volume
  return { n with chan := { c with val := val, shape := c.shape.withSample next }, sample := sample, prevPos := n.pos }

def wavePass (a : Apu) : Option (Pass × Apu) := do
  let a ← updateLen 2 a
  let c := a.chans 2
  if c.enabled then
    let first ← waveSample a.audioMem (c.val % 4294967296).toNat c.volume
    let n ← playNote (waveTick a.audioMem) { c with shape := c.shape.withSample first }
    let sample := wrapInt16 (n.sample + n.chan.shape.sample * AUDIO_STEP)
    let div ← waveDiv[c.volume.toNat]?
    return (.sample ((sample.tdiv div).tdiv 4), a.setChan 2 n.chan)
  else return (.stop, a)

def updateWave (out : List StereoSample) (a : Apu) : Option (List StereoSample × Apu) := do
  let c := a.chans 2
  if c.powered ∧ c.enabled ∧ c.volume ≠ 0 then
    let c ← setNoteFreq c
    eachSample 2 wavePass out (a.setChan 2 { c with freqInc := c.freqInc * 2 })
  else return (out, a)

/-! ## Noise channel -/

def lfsrDivLut : List UInt32 := [8, 16, 32, 48, 64, 80, 96, 112]

/-- The bit below and the bit that leave the register. -/
def lfsrLevel (reg : UInt16) (wide : Bool) : Int :=
  let bit := if wide then 14 else 6
  if reg.toNat.testBit bit = reg.toNat.testBit (bit - 1) then LEVEL_HIGH else LEVEL_LOW

def noiseTick (n : Note) : Option Note := do
  let c := n.chan
  let reg : UInt16 := (c.shape.lfsrReg <<< 1) ||| if LEVEL_HIGH ≤ c.val then 1 else 0
  let val := lfsrLevel reg c.shape.lfsrWide
  let part ← elapsedPart n
  let sample := wrapInt32 (n.sample + part.toNat * val)
  return { n with chan := { c with val := val, shape := c.shape.withLfsrReg reg }, sample := sample, prevPos := n.pos }

def noisePass (a : Apu) : Option (Pass × Apu) := do
  let a ← updateLen 3 a
  if (a.chans 3).enabled then
    let c ← updateEnv (a.chans 3)
    if c.volume = 0 then return (.skip, a.setChan 3 c)
    else
      let n ← playNote noiseTick c
      let sample ← scaleSample n.chan n.sample
      return (.sample sample, a.setChan 3 n.chan)
  else return (.stop, a)

/-- The steps of the shift register at the channel's divisor and shift. -/
def noiseFreq (c : Chan) : Option Chan := do
  let div ← lfsrDivLut[c.shape.lfsrDiv.toNat]?
  if c.freq < 32 then
    let freq ← cDiv 4194304 (div <<< c.freq.toUInt32)
    return { c with freqInc := freq * FREQ_INC_MULT }
  else none

def updateNoise (out : List StereoSample) (a : Apu) : Option (List StereoSample × Apu) := do
  let c := a.chans 3
  let c := if 14 ≤ c.freq then { c with enabled := false } else c
  if c.powered ∧ c.enabled then
    let c ← noiseFreq c
    eachSample 3 noisePass out (a.setChan 3 c)
  else return (out, a.setChan 3 c)

/-! ## Callback -/

/-- The frame of samples, which the C code leaves interleaved in `stream`. -/
def minigbApuAudioCallback (a : Apu) : Option (List StereoSample × Apu) := do
  let out := List.replicate AUDIO_SAMPLES ⟨0, 0⟩
  let (out, a) ← updateSquare false out a
  let (out, a) ← updateSquare true out a
  let (out, a) ← updateWave out a
  updateNoise out a

/-! ## Registers -/

def incLut : List UInt32 := [840, 6720, 3360, 2240, 1680, 1344, 1120, 960]

def triggerEnv (val : UInt8) (c : Chan) : Option Chan := do
  let step := val &&& 0x7
  let inc ← incLut[step.toNat]?
  return { c with env := { step := step, up := hasBits val 0x8, inc := inc, counter := 0 } }

def triggerSweep (val : UInt8) (c : Chan) : Option Chan := do
  let rate := (val >>> 4) &&& 0x07
  let inc ← (if rate = 0 then some 0 else cDiv (128 * FREQ_INC_REF) (rate.toUInt32 * 16000))
  return { c with
    sweep := {
      freq := c.freq, rate := rate, down := hasBits val 0x08, shift := val &&& 0x07
      inc := inc, counter := FREQ_INC_REF } }

/-- Where a length counter that was not loaded starts. -/
def lenMax (i : Fin 4) : UInt32 := if i = 2 then 256 else 64

def triggerWave (i : Fin 4) (c : Chan) : Chan :=
  if i = 2 then { c with val := 0 }
  else if i = 3 then { c with val := LEVEL_LOW, shape := c.shape.withLfsrReg 0xFFFF }
  else c

def triggerLen (i : Fin 4) (c : Chan) : Option Chan := do
  let inc ← cDiv (256 * FREQ_INC_REF) (16000 * (lenMax i - c.len.load.toUInt32))
  return { c with len := { c.len with inc := inc, counter := 0 } }

def chanTrigger (i : Fin 4) (a : Apu) : Option Apu := do
  let a ← chanEnable i true a
  let c := { a.chans i with volume := (a.chans i).volumeInit }
  let env ← a.audioMem.load (0x02 + i.val * 5)
  let c ← triggerEnv env c
  let c ← (if i = 0 then (a.audioMem.load 0x00).bind fun sweep => triggerSweep sweep c else some c)
  let c ← triggerLen i (triggerWave i c)
  return a.setChan i c

def ortab : List UInt8 :=
  [0x80, 0x3f, 0x00, 0xff, 0xbf, 0xff, 0x3f, 0x00, 0xff, 0xbf, 0x7f, 0xff, 0x9f, 0xff, 0xbf,
    0xff, 0xff, 0x00, 0x00, 0xbf, 0x00, 0x00, 0x70] ++ List.replicate 9 0xff ++ List.replicate 16 0x00

def minigbApuAudioRead (addr : UInt16) (a : Apu) : Option UInt8 := do
  let byte ← a.audioMem.load (addr - 0xFF10).toNat
  let mask ← ortab[(addr - 0xFF10).toNat]?
  return byte ||| mask

/-- Register 0xFF26: power off clears every register below it. -/
def writePower (val : UInt8) (a : Apu) : Option Apu := do
  let audioMem ← a.audioMem.put 0x16 (val &&& 0x80)
  if val &&& 0x80 = 0 then
    let audioMem ← audioMem.copy 0 0x16 fun _ => 0
    return { a with audioMem := audioMem, chans := fun i => { a.chans i with enabled := false } }
  else return { a with audioMem := audioMem }

/-- "zombie mode": a volume register written while its channel plays. -/
def zombieVolume (val : UInt8) (c : Chan) : Chan :=
  if c.powered ∧ c.enabled then
    let volume :=
      if c.env.step = 0 ∧ c.env.inc ≠ 0 then if hasBits val 0x08 then c.volume + 1 else c.volume + 2
      else 16 - c.volume
    { c with volume := volume &&& 0x0F, env := { c.env with step := val &&& 0x07 } }
  else c

def writeVolume (val : UInt8) (c : Chan) : Chan :=
  zombieVolume val { c with volumeInit := val >>> 4, powered := val >>> 3 ≠ 0 }

def dutyLookup : List UInt8 := [0x10, 0x30, 0x3C, 0xCF]

def writeDuty (val : UInt8) (c : Chan) : Option Chan := do
  let duty ← dutyLookup[(val >>> 6).toNat]?
  return { c with len := { c.len with load := val &&& 0x3f }, shape := c.shape.withDuty duty }

/-- The length flag, and the trigger. -/
def writeControl (i : Fin 4) (val : UInt8) (a : Apu) : Option Apu :=
  let c := a.chans i
  let a := a.setChan i { c with len := { c.len with enabled := hasBits val 0x40 } }
  if hasBits val 0x80 then chanTrigger i a else some a

def writePanning (val : UInt8) (a : Apu) : Apu :=
  { a with chans := fun j =>
      { a.chans j with onLeft := (val >>> (4 + .ofNat j.val)) &&& 1, onRight := (val >>> .ofNat j.val) &&& 1 } }

/-- The channel of a register; the masters and the wave memory come out as others, which are not used. -/
def regChannel (addr : UInt16) : Option (Fin 4) := chanIndex ((addr - 0xFF10).toNat / 5)

/-- The register of a channel, once `audio_mem` has the byte. -/
def writeRegister (addr : UInt16) (val : UInt8) (a : Apu) : Option Apu :=
  if addr ∈ [0xFF12, 0xFF17, 0xFF21] then do
    let i ← regChannel addr
    return a.setChan i (writeVolume val (a.chans i))
  else if addr = 0xFF1C then do
    let i ← regChannel addr
    let volume := (val >>> 5) &&& 0x03
    return a.setChan i { a.chans i with volume := volume, volumeInit := volume }
  else if addr ∈ [0xFF11, 0xFF16, 0xFF20] then do
    let i ← regChannel addr
    let c ← writeDuty val (a.chans i)
    return a.setChan i c
  else if addr = 0xFF1B then do
    let i ← regChannel addr
    let c := a.chans i
    return a.setChan i { c with len := { c.len with load := val } }
  else if addr ∈ [0xFF13, 0xFF18, 0xFF1D] then do
    let i ← regChannel addr
    let c := a.chans i
    return a.setChan i { c with freq := (c.freq &&& 0xFF00) ||| val.toUInt16 }
  else if addr = 0xFF1A then do
    let i ← regChannel addr
    let on := hasBits val 0x80
    chanEnable i on (a.setChan i { a.chans i with powered := on })
  else if addr ∈ [0xFF14, 0xFF19, 0xFF1E] then do
    let i ← regChannel addr
    let c := a.chans i
    let high : UInt16 := (val &&& 0x07).toUInt16 <<< 8
    writeControl i val (a.setChan i { c with freq := (c.freq &&& 0x00FF) ||| high })
  else if addr = 0xFF23 then do
    let i ← regChannel addr
    writeControl i val a
  else if addr = 0xFF22 then
    let c := a.chans 3
    let wide : UInt8 := if hasBits val 0x08 then 0 else 1
    some (a.setChan 3 { c with
      freq := (val >>> 4).toUInt16, shape := { c.shape with byte2 := wide, byte3 := val &&& 0x07 } })
  else if addr = 0xFF24 then
    some { a with volL := ((val >>> 4) &&& 0x07).toNat, volR := (val &&& 0x07).toNat }
  else if addr = 0xFF25 then some (writePanning val a)
  else some a

def minigbApuAudioWrite (addr : UInt16) (val : UInt8) (a : Apu) : Option Apu :=
  if addr = 0xFF26 then writePower val a
  else do
    let power ← a.audioMem.load 0x16
    if power = 0 then return a
    else
      let audioMem ← a.audioMem.put (addr - 0xFF10).toNat val
      writeRegister addr val { a with audioMem := audioMem }

def regsInit : List UInt8 :=
  [0x80, 0xBF, 0xF3, 0xFF, 0x3F, 0xFF, 0x3F, 0x00, 0xFF, 0x3F, 0x7F, 0xFF, 0x9F, 0xFF, 0x3F,
    0xFF, 0xFF, 0x00, 0x00, 0x3F, 0x77, 0xF3, 0xF1]

def waveInit : List UInt8 :=
  [0xac, 0xdd, 0xda, 0x48, 0x36, 0x02, 0xcf, 0x16, 0x2c, 0x04, 0xe5, 0x2c, 0xac, 0xdd, 0xda, 0x48]

/-- Write the bytes to the registers from `addr` on. -/
def writeAll (addr : UInt16) (bytes : List UInt8) (a : Apu) : Option Apu :=
  bytes.zipIdx.foldlM (fun a b => minigbApuAudioWrite (addr + .ofNat b.2) b.1 a) a

def minigbApuAudioInit (a : Apu) : Option Apu := do
  let chans (i : Fin 4) : Chan := if i.val ≤ 1 then { val := -1 } else {}
  let a ← writeAll 0xFF10 regsInit { a with chans := chans }
  writeAll 0xFF30 waveInit a

end FoloGameboy
