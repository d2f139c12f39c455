/-
The format of a save file: the 52 byte header, the CRC-32 over everything but itself, the two paths of
a ROM's copies, and the check of a copy.
-/
import FoloGameboy.Saves.Volume
import FoloGameboy.Storage.Catalog

namespace FoloGameboy

/-! ## Paths -/

/-- The name of a copy: 16 hex digits of the ROM's hash, a dot and `a` or `b`. -/
def saveName (hash : Vector UInt8 32) (copy : UInt8) : Path :=
  hexBytes (hash.toList.take 8) ++ [0x2E, copy]

/-- `save_path`. -/
def savePath (hash : Vector UInt8 32) (copy : UInt8) : Path := savesPrefix ++ saveName hash copy

def copyA : UInt8 := 0x61
def copyB : UInt8 := 0x62

/-! ## The header -/

/-- `save_header_t` before the checksum. -/
structure SaveHead where
  magic : Vector UInt8 4
  version : UInt16
  reserved : UInt16
  sequence : UInt32
  sramBytes : UInt32
  romHash : Vector UInt8 32
deriving DecidableEq

/-- `save_header_t`. -/
structure SaveHeader extends SaveHead where
  crc32 : UInt32
deriving DecidableEq

def saveHeadCodec : Codec SaveHead :=
  ((Codec.raw 4).pair (Codec.le16.pair (Codec.le16.pair (Codec.le32.pair (Codec.le32.pair (Codec.raw 32)))))).iso
    { toFun := fun ⟨magic, version, reserved, sequence, sramBytes, romHash⟩ =>
        ⟨magic, version, reserved, sequence, sramBytes, romHash⟩
      invFun := fun h => (h.magic, h.version, h.reserved, h.sequence, h.sramBytes, h.romHash)
      left_inv := fun _ => rfl
      right_inv := fun _ => rfl }

def saveHeaderCodec : Codec SaveHeader :=
  (saveHeadCodec.pair Codec.le32).iso
    { toFun := fun ⟨head, crc32⟩ => { head with crc32 := crc32 }
      invFun := fun h => (h.toSaveHead, h.crc32)
      left_inv := fun _ => rfl
      right_inv := fun _ => rfl }

theorem saveHeaderCodec_size : saveHeaderCodec.size = 52 := rfl

/-- `"FGBS"`. -/
def saveMagic : Vector UInt8 4 := #v[0x46, 0x47, 0x42, 0x53]

/-! ## The checksum -/

/-- One step of the bit loop of `crc_update`. -/
def crcBit (crc : UInt32) : UInt32 := (crc >>> 1) ^^^ (0xedb88320 &&& (0 - (crc &&& 1)))

def crcByte (crc : UInt32) (b : UInt8) : UInt32 := (List.range 8).foldl (fun crc _ => crcBit crc) (crc ^^^ b.toUInt32)

def crcUpdate (crc : UInt32) (data : List UInt8) : UInt32 := data.foldl crcByte crc

theorem crcUpdate_append (crc : UInt32) (a b : List UInt8) :
    crcUpdate crc (a ++ b) = crcUpdate (crcUpdate crc a) b :=
  List.foldl_append

/-! ## The check of a copy -/

/-- The payload loop of `check_copy`: chunks of 512 bytes. -/
def readPayload (remaining : Nat) (file : List UInt8) (crc : UInt32) : Option (UInt32 × List UInt8) :=
  if _h : remaining = 0 then some (crc, file)
  else
    let n := if remaining < 512 then remaining else 512
    if file.length < n then none else readPayload (remaining - n) (file.drop n) (crcUpdate crc (file.take n))
termination_by remaining
decreasing_by
  show remaining - (if remaining < 512 then remaining else 512) < remaining
  split <;> omega

/-- What `check_copy` checks of the bytes of a file. -/
def checkFile (hash : Vector UInt8 32) (sram : Nat) (file : List UInt8) : Option SaveHeader :=
  if file.length < saveHeaderCodec.size then none
  else
    let h := saveHeaderCodec.get fun i => file.getD i 0
    if h.magic ≠ saveMagic ∨ h.version ≠ 1 ∨ h.reserved ≠ 0 ∨
      h.sramBytes ≠ UInt32.ofNat sram ∨ h.romHash ≠ hash then none
    else
      let crc := crcUpdate 0xffffffff (saveHeadCodec.bytes h.toSaveHead)
      match readPayload (sram + 10) (file.drop saveHeaderCodec.size) crc with
      | none => none
      | some (crc, rest) => if rest = [] ∧ crc ^^^ 0xffffffff = h.crc32 then some h else none

/-! ## Written copies -/

/-- What a save stores: the SRAM and the clock. -/
structure Snapshot where
  sram : List UInt8
  rtc : List UInt8
deriving DecidableEq

/-- The header fields `gb_saves_write` fills before the checksum. -/
def newHead (hash : Vector UInt8 32) (sequence : UInt32) (sram : Nat) : SaveHead :=
  { magic := saveMagic, version := 1, reserved := 0, sequence := sequence,
    sramBytes := UInt32.ofNat sram, romHash := hash }

def newHeader (hash : Vector UInt8 32) (sequence : UInt32) (p : Snapshot) : SaveHeader :=
  let head := newHead hash sequence p.sram.length
  { head with
    crc32 := crcUpdate (crcUpdate (crcUpdate 0xffffffff (saveHeadCodec.bytes head)) p.sram) p.rtc ^^^ 0xffffffff }

/-- The bytes of a complete copy. -/
def copyBytes (hash : Vector UInt8 32) (sequence : UInt32) (p : Snapshot) : List UInt8 :=
  saveHeaderCodec.bytes (newHeader hash sequence p) ++ p.sram ++ p.rtc

/-- The payload of a copy's bytes. -/
def payloadOf (sram : Nat) (file : List UInt8) : Snapshot :=
  { sram := (file.drop saveHeaderCodec.size).take sram, rtc := (file.drop (saveHeaderCodec.size + sram)).take 10 }

theorem readPayload_eq (remaining : Nat) (file : List UInt8) (crc : UInt32) :
    readPayload remaining file crc =
      if file.length < remaining then none else some (crcUpdate crc (file.take remaining),
        file.drop remaining) := by
  unfold readPayload
  split
  · rename_i h
    subst h
    rfl
  · rename_i hpos
    generalize hn : (if remaining < 512 then remaining else 512) = n
    have hn0 : 0 < n ∧ n ≤ remaining := by
      rw [← hn]
      split <;> omega
    dsimp only
    by_cases hlt : file.length < n
    · rw [if_pos hlt, if_pos (by omega)]
    · rw [if_neg hlt, readPayload_eq (remaining - n)]
      have hlen : (file.drop n).length = file.length - n := List.length_drop
      by_cases hshort : file.length < remaining
      · rw [if_pos (by omega), if_pos hshort]
      · rw [if_neg (by omega), if_neg hshort, ← crcUpdate_append, List.drop_drop, Nat.add_sub_cancel' hn0.2]
        have htake : file.take n ++ (file.drop n).take (remaining - n) = file.take remaining := by
          rw [← List.take_add, Nat.add_sub_cancel' hn0.2]
        rw [htake]
termination_by remaining
decreasing_by
  omega

/-! ## What the check accepts -/

theorem checkFile_length {hash : Vector UInt8 32} {sram : Nat} {file : List UInt8} {h : SaveHeader}
    (hc : checkFile hash sram file = some h) : file.length = 62 + sram := by
  unfold checkFile at hc
  rw [saveHeaderCodec_size] at hc
  split at hc
  · cases hc
  rename_i hlen
  dsimp only at hc
  split at hc
  · cases hc
  rw [readPayload_eq] at hc
  have hdrop : (file.drop 52).length = file.length - 52 := List.length_drop
  split at hc
  · cases hc
  · rename_i hpayload
    split at hpayload
    · cases hpayload
    · rename_i hge
      obtain ⟨-, hrest⟩ := Prod.mk.inj (Option.some.inj hpayload)
      split at hc
      · rename_i hend
        have hempty : ((file.drop 52).drop (sram + 10)).length = 0 := by rw [hrest, hend.1]; rfl
        rw [List.length_drop] at hempty
        omega
      · cases hc

/-- A truncated copy is not valid. -/
theorem checkFile_short {hash : Vector UInt8 32} {sram : Nat} {file : List UInt8}
    (h : file.length ≠ 62 + sram) :
    checkFile hash sram file = none := by
  cases hc : checkFile hash sram file with
  | none => rfl
  | some h' => exact absurd (checkFile_length hc) h

theorem copyBytes_length (hash : Vector UInt8 32) (sequence : UInt32) {p : Snapshot}
    (hrtc : p.rtc.length = 10) :
    (copyBytes hash sequence p).length = 62 + p.sram.length := by
  unfold copyBytes
  rw [List.length_append, List.length_append, Codec.length_bytes, saveHeaderCodec_size, hrtc]
  omega

theorem copyBytes_drop (hash : Vector UInt8 32) (sequence : UInt32) (p : Snapshot) :
    (copyBytes hash sequence p).drop saveHeaderCodec.size = p.sram ++ p.rtc := by
  unfold copyBytes
  rw [List.append_assoc]
  exact List.drop_left' (Codec.length_bytes _ _)

/-- A complete copy is valid and holds what was saved. -/
theorem checkFile_copy (hash : Vector UInt8 32) (sequence : UInt32) {p : Snapshot}
    (hrtc : p.rtc.length = 10) :
    checkFile hash p.sram.length (copyBytes hash sequence p) = some (newHeader hash sequence p) := by
  have hlen := copyBytes_length hash sequence hrtc
  have hheader : (saveHeaderCodec.get fun i => (copyBytes hash sequence p).getD i 0) =
      newHeader hash sequence p := by
    unfold copyBytes
    rw [List.append_assoc]
    exact saveHeaderCodec.get_bytes_append _ _
  unfold checkFile
  rw [if_neg (by rw [hlen, saveHeaderCodec_size]; omega)]
  dsimp only
  rw [hheader, copyBytes_drop, readPayload_eq]
  have hpayload : (p.sram ++ p.rtc).length = p.sram.length + 10 := by rw [List.length_append, hrtc]
  rw [if_neg (by simp [newHeader, newHead]), if_neg (by omega), List.take_of_length_le (by omega),
    List.drop_of_length_le (by omega),
    crcUpdate_append]
  have hcrc : crcUpdate
      (crcUpdate (crcUpdate 0xffffffff (saveHeadCodec.bytes (newHeader hash sequence p).toSaveHead))
      p.sram) p.rtc ^^^ 0xffffffff = (newHeader hash sequence p).crc32 := rfl
  exact if_pos ⟨rfl, hcrc⟩

theorem payloadOf_copy (hash : Vector UInt8 32) (sequence : UInt32) {p : Snapshot}
    (hrtc : p.rtc.length = 10) :
    payloadOf p.sram.length (copyBytes hash sequence p) = p := by
  unfold payloadOf
  rw [← List.drop_drop, copyBytes_drop, List.take_left' rfl, List.drop_left' rfl,
    List.take_of_length_le (by omega)]

end FoloGameboy
