/-
`uni_iine_protocol`: the scrambled packets of the controller, the requests that may be sent, and the
records of its input reports. Parsing a built packet gives it back.
-/
import Mathlib.Data.List.Basic

namespace FoloGameboy

def IINE_PACKET_MAX : Nat := 20
def IINE_PAYLOAD_MAX : Nat := 15

/-! ## Packets -/

def iineMask : List UInt8 :=
  [161, 82, 213, 163, 245, 137, 246, 143, 240, 157, 72, 147, 234, 52, 49, 186, 195, 77, 198, 235,
    73, 96, 216, 163, 218, 42, 83, 141, 244, 97, 24, 191, 174, 215, 111, 81, 228, 160, 217, 146]

def payloadMask : List UInt8 := [51, 99, 157, 121, 242, 219, 162, 26, 170, 33, 139, 232, 116, 211, 88]

/-- One bit of `checksum`. -/
def checksumBit (value : UInt8) : UInt8 := (value >>> 1) ^^^ (if value &&& 1 ≠ 0 then 0xeb else 0)

def checksum (bytes : List UInt8) : UInt8 :=
  bytes.foldl (fun value byte => (List.range 8).foldl (fun value _ => checksumBit value) (value ^^^ byte)) 0

/-- `iine_packet_t`; its length is that of the payload. -/
structure IinePacket where
  opcode : UInt8
  serial : UInt8
  payload : List UInt8
deriving DecidableEq

/-- The bytes of a frame against the mask, in either direction. -/
def maskBytes (offset : Nat) (bytes : List UInt8) : List UInt8 := List.zipWith (· ^^^ ·) bytes (iineMask.drop offset)

/-- The bytes of a payload against its mask, in either direction. -/
def scramblePayload (sum : UInt8) (payload : List UInt8) : List UInt8 :=
  List.zipWith (fun byte mask => byte ^^^ (sum - mask)) payload payloadMask

def maskOffset (nonceByte : UInt8) : Nat := if nonceByte &&& 2 ≠ 0 then 20 else 0

/-- The bytes written; none is a refusal. -/
def iinePacketBuild (capacity : Nat) (opcode serial nonce : UInt8) (payload : List UInt8) : List UInt8 :=
  let length := payload.length
  if IINE_PAYLOAD_MAX < length ∨ capacity < length + 5 then []
  else
    let frame := [opcode, UInt8.ofNat (length + 5), serial, nonce] ++ payload
    let check := checksum frame
    let sum := serial + nonce
    let f0 := opcode ^^^ (sum - 154)
    let f1 := UInt8.ofNat (length + 5) ^^^ (sum + 155)
    let f2 := (serial - 173) ^^^ nonce
    let f3 := (nonce + 191) ^^^ 219
    maskBytes (maskOffset f3) ([f0, f1, f2, f3] ++ (scramblePayload sum payload ++ [check]))

def iinePacketParse (wire : List UInt8) : Option IinePacket :=
  if wire.length < 5 ∨ IINE_PACKET_MAX < wire.length then none
  else
    let offset := maskOffset (wire.getD 3 0 ^^^ iineMask.getD 3 0)
    match maskBytes offset wire with
    | f0 :: f1 :: f2 :: f3 :: rest =>
      let nonce := (f3 ^^^ 219) - 191
      let serial := (f2 ^^^ nonce) + 173
      let sum := serial + nonce
      let opcode := f0 ^^^ (sum - 154)
      let size := f1 ^^^ (sum + 155)
      let payload := scramblePayload sum rest.dropLast
      if (size &&& 31).toNat ≠ wire.length ∨ checksum ([opcode, size, serial, nonce] ++ payload)
        ≠ rest.getLastD 0 then none
      else some { opcode := opcode, serial := serial, payload := payload }
    | _ => none

/-- `iine_packet_parse` with its output, which only a packet that is accepted sets. -/
def iinePacketParseInto (wire : List UInt8) (packet : IinePacket) : Bool × IinePacket :=
  match iinePacketParse wire with
  | some decoded => (true, decoded)
  | none => (false, packet)

/-- A null payload has length zero. -/
def iineRequestAllowed (opcode : UInt8) (payload : Option (List UInt8)) : Bool :=
  if opcode = 0x90 ∨ opcode = 0x91 then (payload.getD []).isEmpty
  else
    match payload with
    | none => false
    | some payload =>
      if opcode = 0xb0 then payload == [0, 1]
      else if (opcode = 0x1d ∨ opcode = 0x1e) ∧ payload.length = 3 then payload == [2, 0xdf, 0xab]
      else opcode == 0x1d && payload == [5, 0xdf, 0xab, 0, 6, 5]

/-! ## Input reports -/

/-- `iine_input_state_t`. -/
structure IineInputState where
  buttons : UInt32 := 0
  axes : Vector Int 6 := .replicate 6 0
  axesPresent : UInt8 := 0
  hat : Int := 0
  dpad : UInt8 := 0
deriving DecidableEq

/-- The bytes a record takes. -/
def recordSize (code : UInt8) : Nat :=
  if code = 0x12 ∨ code = 0x13 then 6 else if code = 7 ∨ code = 8 then 4 else 2

/-- The button of a code. -/
def recordButton (code : UInt8) : Option Nat :=
  if 1 ≤ code ∧ code ≤ 8 then some (code.toNat - 1)
  else if code = 0x5d then some 8
  else if code = 0x5e then some 9
  else if code = 0x0b ∨ code = 0x0c then some (code.toNat - 1)
  else none

def IineInputState.axis (next : IineInputState) (i : Nat) (value : UInt8) : IineInputState :=
  { next with axes := next.axes.setIfInBounds i value.toNat }

/-- One record, with the bytes after its code. -/
def decodeRecord (active code : UInt8) (rest : List UInt8) (next : IineInputState) : Option IineInputState :=
  if code = 0x12 ∨ code = 0x13 then
    let axis := if code = 0x12 then 0 else 3
    let next := (next.axis axis (rest.getD 0 0)).axis (axis + 1) (rest.getD 1 0)
    some { next with axesPresent := next.axesPresent ||| 3 <<< UInt8.ofNat axis }
  else if 0x0d ≤ code ∧ code ≤ 0x10 then
    let bit := ([2, 1, 4, 8] : List UInt8).getD (code - 0x0d).toNat 0
    some { next with dpad := if active ≠ 0 then next.dpad ||| bit else next.dpad &&& ~~~bit }
  else
    match recordButton code with
    | none => none
    | some button =>
      let bit : UInt32 := 1 <<< UInt32.ofNat button
      let next := { next with buttons := if active ≠ 0 then next.buttons ||| bit else next.buttons &&& ~~~bit }
      if code = 7 ∨ code = 8 then
        let axis := if code = 7 then 2 else 5
        let next := next.axis axis (rest.getD 0 0)
        some { next with axesPresent := next.axesPresent ||| 1 <<< UInt8.ofNat axis }
      else some next

/-- The records from a cursor on; every record takes a byte at least. -/
def decodeRecords : Nat → List UInt8 → IineInputState → Option IineInputState
  | 0, _, next => some next
  | fuel + 1, records, next =>
    match records with
    | [] => some next
    | [_] => none
    | active :: code :: rest =>
      if 1 < active ∨ records.length < recordSize code then none
      else
        match decodeRecord active code rest next with
        | none => none
        | some next => decodeRecords fuel (records.drop (recordSize code)) next

/-- The state after a report; a report that is not accepted leaves none. -/
def iineInputDecode (payload : List UInt8) (state : IineInputState) : Option IineInputState :=
  if payload.length < 3 ∨ IINE_PAYLOAD_MAX < payload.length ∨ (payload.getD 0 0).toNat ≠ payload.length - 1 then none
  else decodeRecords payload.length (payload.drop 1) state

/-- `iine_input_decode` with its state, which only a report that is accepted changes. -/
def iineInputDecodeInto (payload : List UInt8) (state : IineInputState) : Bool × IineInputState :=
  match iineInputDecode payload state with
  | some next => (true, next)
  | none => (false, state)

/-! ## The codec -/

theorem xor_self_cancel (a b : UInt8) : (a ^^^ b) ^^^ b = a := by
  rw [UInt8.xor_assoc, UInt8.xor_self, UInt8.xor_zero]

/-- Masking twice is nothing. -/
theorem zipWith_xor_cancel (f : UInt8 → UInt8) : ∀ (bytes masks : List UInt8), bytes.length ≤ masks.length →
    List.zipWith (fun byte mask => byte ^^^ f mask) (List.zipWith (fun byte mask => byte ^^^ f mask)
      bytes masks) masks = bytes
  | [], _, _ => rfl
  | _ :: _, [], h => absurd h (Nat.not_succ_le_zero _)
  | byte :: bytes, mask :: masks, h => by
    rw [List.zipWith_cons_cons, List.zipWith_cons_cons, xor_self_cancel,
      zipWith_xor_cancel f bytes masks (Nat.le_of_succ_le_succ h)]

theorem maskBytes_cancel {offset : Nat} {bytes : List UInt8} (h : bytes.length + offset ≤ 40) :
    maskBytes offset (maskBytes offset bytes) = bytes := by
  refine zipWith_xor_cancel id bytes (iineMask.drop offset) ?_
  rw [List.length_drop]
  show bytes.length ≤ 40 - offset
  omega

theorem scramblePayload_cancel (sum : UInt8) {payload : List UInt8}
    (h : payload.length ≤ IINE_PAYLOAD_MAX) :
    scramblePayload sum (scramblePayload sum payload) = payload :=
  zipWith_xor_cancel (sum - ·) payload payloadMask h

theorem length_maskBytes {offset : Nat} {bytes : List UInt8} (h : bytes.length + offset ≤ 40) :
    (maskBytes offset bytes).length = bytes.length := by
  unfold maskBytes
  rw [List.length_zipWith, List.length_drop]
  show min bytes.length (40 - offset) = bytes.length
  omega

theorem length_scramblePayload (sum : UInt8) {payload : List UInt8}
    (h : payload.length ≤ IINE_PAYLOAD_MAX) :
    (scramblePayload sum payload).length = payload.length := by
  unfold scramblePayload
  rw [List.length_zipWith]
  exact Nat.min_eq_left h

theorem maskOffset_cases (b : UInt8) : maskOffset b = 0 ∨ maskOffset b = 20 := by
  unfold maskOffset
  split
  · exact .inr rfl
  · exact .inl rfl

/-- The fourth byte has the same mask at both offsets. -/
theorem maskBytes_nonce (f0 f1 f2 f3 : UInt8) (rest : List UInt8) {offset : Nat}
    (h : offset = 0 ∨ offset = 20) :
    (maskBytes offset (f0 :: f1 :: f2 :: f3 :: rest)).getD 3 0 = f3 ^^^ 163 := by
  rcases h with rfl | rfl <;> rfl

theorem length_byte : ∀ n, n ≤ 15 → (UInt8.ofNat (n + 5) &&& 31).toNat = n + 5 := by decide +kernel

theorem iinePacketBuild_eq {capacity : Nat} {opcode serial nonce : UInt8} {payload : List UInt8}
    (hlen : payload.length ≤ IINE_PAYLOAD_MAX)
    (hcap : payload.length + 5 ≤ capacity) : iinePacketBuild capacity opcode serial nonce payload =
      maskBytes (maskOffset ((nonce + 191) ^^^ 219))
        ((opcode ^^^ (serial + nonce - 154)) ::
          (UInt8.ofNat (payload.length + 5) ^^^ (serial + nonce + 155)) ::
          ((serial - 173) ^^^ nonce) ::
          ((nonce + 191) ^^^ 219) :: (scramblePayload (serial + nonce) payload ++
            [checksum ([opcode, UInt8.ofNat (payload.length + 5), serial, nonce] ++ payload)])) := by
  unfold iinePacketBuild
  dsimp only
  rw [if_neg (by omega)]
  rfl

/-- What is built is parsed to what it was built from. -/
theorem iinePacketParse_build {capacity : Nat} (opcode serial nonce : UInt8) {payload : List UInt8}
    (hlen : payload.length ≤ IINE_PAYLOAD_MAX) (hcap : payload.length + 5 ≤ capacity) :
    iinePacketParse (iinePacketBuild capacity opcode serial nonce payload) =
      some { opcode := opcode, serial := serial, payload := payload } := by
  rw [iinePacketBuild_eq hlen hcap]
  generalize hcheck :
    checksum ([opcode, UInt8.ofNat (payload.length + 5), serial, nonce] ++ payload) = check
  generalize hframe :
    (opcode ^^^ (serial + nonce - 154)) ::
    (UInt8.ofNat (payload.length + 5) ^^^ (serial + nonce + 155)) ::
    ((serial - 173) ^^^ nonce) :: ((nonce + 191) ^^^ 219) ::
      (scramblePayload (serial + nonce) payload ++ [check]) = frame
  have hframeLen : frame.length = payload.length + 5 := by
    rw [← hframe]
    simp only [List.length_cons, List.length_append, length_scramblePayload _ hlen, List.length_nil]
  have hbound : frame.length + maskOffset ((nonce + 191) ^^^ 219) ≤ 40 := by
    unfold IINE_PAYLOAD_MAX at hlen
    rcases maskOffset_cases ((nonce + 191) ^^^ 219) with h | h <;> omega
  have hwireLen := length_maskBytes hbound
  -- the offset is recovered from the fourth byte
  have hnonce : (maskBytes (maskOffset ((nonce + 191) ^^^ 219)) frame).getD 3 0 ^^^
      iineMask.getD 3 0 = (nonce + 191) ^^^ 219 := by
    rw [← hframe, maskBytes_nonce _ _ _ _ _ (maskOffset_cases _)]
    exact xor_self_cancel _ _
  unfold iinePacketParse
  have hsize : ¬ ((maskBytes (maskOffset ((nonce + 191) ^^^ 219)) frame).length < 5 ∨
      IINE_PACKET_MAX < (maskBytes (maskOffset ((nonce + 191) ^^^ 219)) frame).length) := by
    rw [hwireLen, hframeLen]
    unfold IINE_PAYLOAD_MAX at hlen
    unfold IINE_PACKET_MAX
    omega
  rw [if_neg hsize]
  dsimp only
  rw [hnonce, maskBytes_cancel hbound, hwireLen, hframeLen, ← hframe]
  dsimp only
  have hn : (nonce + 191 ^^^ 219 ^^^ 219) - 191 = nonce := by
    rw [xor_self_cancel, UInt8.add_sub_cancel]
  have hs : ((serial - 173) ^^^ nonce ^^^ nonce) + 173 = serial := by
    rw [xor_self_cancel, UInt8.sub_add_cancel]
  rw [hn, hs, xor_self_cancel, xor_self_cancel, List.dropLast_concat, scramblePayload_cancel _ hlen,
    hcheck, length_byte _ hlen]
  rw [if_neg]
  rw [not_or, not_not, not_not]
  exact ⟨rfl, by simp⟩

end FoloGameboy
