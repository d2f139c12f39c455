/-
A frame with one wrong byte is refused: the checksum is a fold that loses nothing, and the layers
over it are undone byte by byte. The serial number and the nonce are left out, as they key the layers.
-/
import FoloGameboy.Iine.Protocol
import FoloGameboy.Lib.Change

namespace FoloGameboy

open Change

/-! ## The checksum -/

/-- The inverse of `checksumBit`. -/
def checksumUnbit (value : UInt8) : UInt8 := if value &&& 0x80 ≠ 0 then ((value ^^^ 0xeb) <<< 1) ||| 1 else value <<< 1

theorem checksumUnbit_checksumBit :
    ∀ n < 256, checksumUnbit (checksumBit (UInt8.ofNat n)) = UInt8.ofNat n := by decide +kernel

theorem checksumBit_injective : Function.Injective checksumBit := by
  refine Function.LeftInverse.injective (g := checksumUnbit) fun value => ?_
  have h := checksumUnbit_checksumBit value.toNat value.toNat_lt
  rwa [UInt8.ofNat_toNat] at h

/-- One byte of `checksum`. -/
def checksumByte (value byte : UInt8) : UInt8 :=
  (List.range 8).foldl (fun value _ => checksumBit value) (value ^^^ byte)

theorem checksumByte_injective_left (byte : UInt8) : Function.Injective (checksumByte · byte) := by
  intro a b h
  have hx : a ^^^ byte = b ^^^ byte := foldl_injective (fun _ => checksumBit_injective) (List.range 8) h
  rw [← xor_self_cancel a byte, hx, xor_self_cancel]

theorem checksumByte_injective_right (value : UInt8) : Function.Injective (checksumByte value) := by
  intro a b h
  refine checksumByte_injective_left value ?_
  show checksumByte a value = checksumByte b value
  unfold checksumByte at h ⊢
  rw [UInt8.xor_comm a, UInt8.xor_comm b]
  exact h

theorem checksum_ne {i : Nat} {l m : List UInt8} (h : DiffersAt i l m) : checksum l ≠ checksum m :=
  h.foldl_ne checksumByte_injective_left checksumByte_injective_right 0

/-! ## Frames -/

theorem xor_injective_left (k : UInt8) : Function.Injective (· ^^^ k) := fun a b h => by
  rw [← xor_self_cancel a k, show a ^^^ k = b ^^^ k from h, xor_self_cancel]

theorem maskBytes_differsAt {i offset : Nat} {l m : List UInt8} (h : DiffersAt i l m)
    (hlen : l.length + offset ≤ 40) :
    DiffersAt i (maskBytes offset l) (maskBytes offset m) := by
  refine h.zipWith xor_injective_left ?_
  rw [List.length_drop]
  show l.length ≤ 40 - offset
  omega

theorem scramblePayload_differsAt {i : Nat} {l m : List UInt8} (h : DiffersAt i l m) (sum : UInt8)
    (hlen : l.length ≤ IINE_PAYLOAD_MAX) :
    DiffersAt i (scramblePayload sum l) (scramblePayload sum m) :=
  h.zipWith (fun mask => xor_injective_left (sum - mask)) hlen

/-- The bytes the checksum of a frame covers, unscrambled. -/
def frameBytes (f0 f1 f2 f3 : UInt8) (body : List UInt8) : List UInt8 :=
  let nonce := (f3 ^^^ 219) - 191
  let serial := (f2 ^^^ nonce) + 173
  let sum := serial + nonce
  [f0 ^^^ (sum - 154), f1 ^^^ (sum + 155), serial, nonce] ++ scramblePayload sum body

/-- A frame is refused when its last byte is not its checksum. -/
theorem iinePacketParse_frame {wire body : List UInt8} {f0 f1 f2 f3 last : UInt8}
    (h : maskBytes (maskOffset (wire.getD 3 0 ^^^ iineMask.getD 3 0)) wire = f0 :: f1 :: f2 :: f3 ::
      (body ++ [last]))
    (hlast : checksum (frameBytes f0 f1 f2 f3 body) ≠ last) : iinePacketParse wire = none := by
  unfold iinePacketParse
  split
  · rfl
  · dsimp only
    rw [h]
    dsimp only
    rw [List.dropLast_concat, List.getLastD_concat, if_pos (.inr hlast)]

/-- The checksum of an accepted frame is its last byte. -/
theorem checksum_of_parse {wire body : List UInt8} {f0 f1 f2 f3 last : UInt8} {packet : IinePacket}
    (h : maskBytes (maskOffset (wire.getD 3 0 ^^^ iineMask.getD 3 0)) wire = f0 :: f1 :: f2 :: f3 ::
      (body ++ [last]))
    (hp : iinePacketParse wire = some packet) : checksum (frameBytes f0 f1 f2 f3 body) = last := by
  by_contra hne
  exact absurd ((iinePacketParse_frame h hne).symm.trans hp) nofun

/-- Where the frame of two wires that differ in one byte differs. The nonce keys the mask, so it is
the same. -/
theorem frame_differsAt {wire wire' : List UInt8} {i : Nat} (h : DiffersAt i wire wire')
    (h3 : i ≠ 3) (hlen : wire.length ≤ IINE_PACKET_MAX) :
    maskOffset (wire'.getD 3 0 ^^^ iineMask.getD 3 0) = maskOffset (wire.getD 3 0 ^^^ iineMask.getD 3 0) ∧
      DiffersAt i (maskBytes (maskOffset (wire.getD 3 0 ^^^ iineMask.getD 3 0)) wire)
        (maskBytes (maskOffset (wire.getD 3 0 ^^^ iineMask.getD 3 0)) wire') := by
  constructor
  · have heq : wire'.getD 3 0 = wire.getD 3 0 := by
      rw [List.getD_eq_getElem?_getD, ← h.getElem? (Ne.symm h3), ← List.getD_eq_getElem?_getD]
    rw [heq]
  · refine maskBytes_differsAt h ?_
    unfold IINE_PACKET_MAX at hlen
    rcases maskOffset_cases (wire.getD 3 0 ^^^ iineMask.getD 3 0) with ho | ho <;> omega

theorem exists_frame : ∀ {l : List UInt8}, 5 ≤ l.length → ∃ f0 f1 f2 f3 body last,
    l = f0 :: f1 :: f2 :: f3 :: (body ++ [last])
  | f0 :: f1 :: f2 :: f3 :: rest, h => by
    rcases List.eq_nil_or_concat rest with rfl | ⟨body, last, rfl⟩
    · exact absurd h (by simp)
    · exact ⟨f0, f1, f2, f3, body, last, by rw [List.concat_eq_append]⟩

/-- What the checksum covers changes, or the last byte does. -/
theorem frameBytes_ne {f0 f1 f2 f3 last : UInt8} {body frame : List UInt8} {i : Nat}
    (hbody : body.length ≤ IINE_PAYLOAD_MAX)
    (h : DiffersAt i (f0 :: f1 :: f2 :: f3 :: (body ++ [last])) frame) (h2 : i ≠ 2) (h3 : i ≠ 3)
    (hcheck : checksum (frameBytes f0 f1 f2 f3 body) = last) :
    ∃ g0 g1 body' last', frame = g0 :: g1 :: f2 :: f3 :: (body' ++ [last']) ∧
      checksum (frameBytes g0 g1 f2 f3 body') ≠ last' := by
  match i, frame with
  | 0, g0 :: _ =>
    obtain ⟨hne, rfl⟩ := h
    have hd : DiffersAt 0 (frameBytes f0 f1 f2 f3 body) (frameBytes g0 f1 f2 f3 body) :=
      ⟨fun hx => hne (xor_injective_left _ hx), rfl⟩
    exact ⟨g0, f1, body, last, rfl, fun heq => checksum_ne hd (hcheck.trans heq.symm)⟩
  | 1, _ :: g1 :: _ =>
    obtain ⟨rfl, hne, rfl⟩ := h
    have hd : DiffersAt 1 (frameBytes f0 f1 f2 f3 body) (frameBytes f0 g1 f2 f3 body) :=
      ⟨rfl, fun hx => hne (xor_injective_left _ hx), rfl⟩
    exact ⟨f0, g1, body, last, rfl, fun heq => checksum_ne hd (hcheck.trans heq.symm)⟩
  | 2, _ => exact absurd rfl h2
  | 3, _ => exact absurd rfl h3
  | k + 4, _ :: _ :: _ :: _ :: _ =>
    obtain ⟨rfl, rfl, rfl, rfl, h⟩ := h
    rcases h.concat with ⟨body', rfl, hd⟩ | ⟨last', hne, rfl⟩
    · have hd' : DiffersAt (k + 4) (frameBytes f0 f1 f2 f3 body) (frameBytes f0 f1 f2 f3 body') :=
        ⟨rfl, rfl, rfl, rfl, scramblePayload_differsAt hd _ hbody⟩
      exact ⟨f0, f1, body', last, rfl, fun heq => checksum_ne hd' (hcheck.trans heq.symm)⟩
    · exact ⟨f0, f1, body, last', rfl, fun heq => hne (heq.symm.trans hcheck)⟩

/-- A wire that differs in one byte from an accepted one is refused. -/
theorem iinePacketParse_differsAt {wire wire' : List UInt8} {packet : IinePacket} {i : Nat}
    (hp : iinePacketParse wire = some packet)
    (h : DiffersAt i wire wire') (h2 : i ≠ 2) (h3 : i ≠ 3) : iinePacketParse wire' = none := by
  have hsize : ¬ (wire.length < 5 ∨ IINE_PACKET_MAX < wire.length) := by
    intro hs
    unfold iinePacketParse at hp
    rw [if_pos hs] at hp
    exact absurd hp nofun
  rw [not_or, Nat.not_lt, Nat.not_lt] at hsize
  obtain ⟨ho, hd⟩ := frame_differsAt h h3 hsize.2
  have hlen : (maskBytes (maskOffset (wire.getD 3 0 ^^^ iineMask.getD 3 0)) wire).length = wire.length := by
    refine length_maskBytes ?_
    have hle := hsize.2
    unfold IINE_PACKET_MAX at hle
    rcases maskOffset_cases (wire.getD 3 0 ^^^ iineMask.getD 3 0) with ho | ho <;> omega
  obtain ⟨f0, f1, f2, f3, body, last, hframe⟩ := exists_frame (hlen ▸ hsize.1)
  have hbody : body.length ≤ IINE_PAYLOAD_MAX := by
    rw [hframe] at hlen
    simp only [List.length_cons, List.length_append, List.length_nil] at hlen
    have hle := hsize.2
    unfold IINE_PACKET_MAX at hle
    unfold IINE_PAYLOAD_MAX
    omega
  rw [hframe] at hd
  obtain ⟨g0, g1, body', last', hframe', hne⟩ := frameBytes_ne hbody hd h2 h3 (checksum_of_parse hframe hp)
  exact iinePacketParse_frame (ho.symm ▸ hframe') hne

/-- A packet that is built is parsed to what it was built from, and after a change of one byte, but of the
serial number and the nonce, it is refused and the output keeps its value. -/
theorem iinePacketParseInto_build {capacity : Nat} (opcode serial nonce : UInt8) {payload : List UInt8}
    (hlen : payload.length ≤ IINE_PAYLOAD_MAX) (hcap : payload.length + 5 ≤ capacity) (packet : IinePacket) :
    let wire := iinePacketBuild capacity opcode serial nonce payload
    iinePacketParseInto wire packet = (true, { opcode := opcode, serial := serial, payload := payload }) ∧
      ∀ i (hi : i < wire.length) byte, i ≠ 2 → i ≠ 3 → byte ≠ wire[i] →
        iinePacketParseInto (wire.set i byte) packet = (false, packet) := by
  intro wire
  have hp : iinePacketParse wire =
      some { opcode := opcode, serial := serial, payload := payload } :=
    iinePacketParse_build _ _ _ hlen hcap
  unfold iinePacketParseInto
  refine ⟨by rw [hp], fun i hi byte h2 h3 hb => ?_⟩
  rw [iinePacketParse_differsAt hp (differsAt_set hi hb) h2 h3]

theorem iinePacketParseInto_build_caps :
    iinePacketParseInto ((iinePacketBuild IINE_PACKET_MAX 0xb0 130 7 [0, 1]).set 0 0)
    { opcode := 1, serial := 2, payload := [3] } = (false, { opcode := 1, serial := 2, payload := [3] }) :=
  (@iinePacketParseInto_build IINE_PACKET_MAX 0xb0 130 7 [0, 1] (by decide) (by decide)
    { opcode := 1, serial := 2, payload := [3] }).2 0 (by decide) 0 (by decide) (by decide) (by decide)

end FoloGameboy
