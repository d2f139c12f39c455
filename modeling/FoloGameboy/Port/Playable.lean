/-
An accepted upload as a game: the new row opens and delivers what was received, and `gb_port_create`
makes a session of it just when its RAM size code is one the core supports.
-/
import FoloGameboy.Lib.Devices
import FoloGameboy.Port.Session
import FoloGameboy.Storage.Invariant
import FoloGameboy.Storage.Open

namespace FoloGameboy

open Effect

variable {σ : Type} {P : Partition} {f f' : Flash} {s s' : Catalog} {data : List UInt8}

/-! ## The header checks -/

/-- At most 32 KB of cartridge RAM; an MBC2 has its own. -/
def RamCodeOK (type code : UInt8) : Prop := code ≤ 3 ∨ code ≤ 5 ∧ (type = 0x05 ∨ type = 0x06)

instance (type code : UInt8) : Decidable (RamCodeOK type code) := by unfold RamCodeOK; infer_instance

theorem detectMBC_mbc2 : ∀ type, detectMBC type = .mbc2 ↔ type = 0x05 ∨ type = 0x06 :=
  forall_byte (by decide +kernel)

/-- The size of the cartridge RAM that `loadRom` persists, if it accepts the header. -/
def persistSize (type code : UInt8) : Option Nat :=
  (ramSizeOf code).bind fun ramSize =>
    let persist := if detectMBC type = .mbc2 then 512 else ramSize
    if 32768 < persist then none else some persist

theorem persistSize_isSome (type code : UInt8) : (persistSize type code).isSome = true ↔
    RamCodeOK type code := by
  unfold persistSize RamCodeOK
  rw [← detectMBC_mbc2]
  by_cases hm : detectMBC type = .mbc2
  · simp only [hm, if_true, and_true]
    exact forall_byte (P := fun code => ((ramSizeOf code).bind fun _ => if 32768 < 512 then none
      else some 512).isSome = true ↔
      code ≤ 3 ∨ code ≤ 5) (by decide +kernel) code
  · simp only [hm, if_false, and_false, or_false]
    exact forall_byte
      (P := fun code => ((ramSizeOf code).bind fun ramSize => if 32768 < ramSize then none
      else some ramSize).isSome = true ↔
      code ≤ 3) (by decide +kernel) code

theorem supportedType_eq (type : UInt8) : supportedType type = supportedCart type := rfl

theorem romSizeOf_eq : ∀ code, romSizeOf code = declaredRomSize code := forall_byte (by decide +kernel)

/-- `loadRom` accepts a cartridge by its RAM size code. -/
theorem loadRom_isSome {rom : Option Buffer} {size : Nat} {g : GBEmulator σ} {header : Buffer}
    (hsize : 0x150 ≤ size)
    (hheader : (if rom.isSome = true then rom else g.bus.rom.romBank0) = some header) :
    (loadRom rom size g).isSome = true ↔ RamCodeOK (header.get 0x147) (header.get 0x149) := by
  rw [← persistSize_isSome]
  unfold loadRom persistSize
  dsimp only
  rw [hheader, if_pos (by omega)]
  dsimp only [Buffer.byteOf]
  rw [if_neg (by omega)]
  cases ramSizeOf (header.get 0x149) with
  | none => simp
  | some ramSize =>
    simp only [Option.bind_some, Option.map_some, Option.getD_some]
    by_cases hm : detectMBC (header.get 0x147) = .mbc2
    · simp [hm]
    · by_cases hlarge : 32768 < ramSize
      · simp [hm, hlarge]
      · simp [hm, hlarge]

/-! ## The opened ROM as a cartridge -/

/-- The callbacks of the port are those of an opened ROM, and its reads succeed. -/
structure SourceOf (P : Partition) (f : Flash) (e : RomEntry) (env : Env σ) : Prop where
  succeeds : ∀ n, env.romReadFails n = none
  delivers : ∀ offset bytes m f', (readSelected e offset bytes).Exec (flashSucceeding P) f (some (some m)) f' →
    ∀ i < bytes, env.rom (offset + i) = m i

theorem SourceOf.rom {e : RomEntry} {env : Env σ} (h : SourceOf P f e env) (hin : e.stop ≤ P.size.toNat)
    (hbytes : romBytes f e = data) {i : Nat} (hi : i < data.length) : env.rom i = data.getD i 0 := by
  have hlen : data.length = e.size.toNat := by rw [← hbytes, romBytes, List.length_map, List.length_range]
  have hread : (readSelected e i 1).Exec (flashSucceeding P) f
      (some (some fun j => f (e.offset.toNat + i + j))) f := by
    unfold readSelected partitionRead
    rw [if_pos ⟨by omega, by omega⟩]
    refine .perform ?_ (.pure _ _)
    have hend : e.offset.toNat + i + 1 ≤ P.size.toNat := by
      unfold RomEntry.stop at hin
      omega
    exact ⟨.inl ⟨hend, rfl, rfl⟩, rfl⟩
  obtain ⟨-, m, hm, hdata⟩ := Prog.wp_exec (readSelected_succeeds (by omega)) hread
  obtain rfl := Option.some.inj hm
  have hrom := (h.delivers i 1 _ f hread 0 (by decide)).trans (hdata 0 (by decide))
  rwa [Nat.add_zero, hbytes] at hrom

theorem prepare_romBank0 {setup : Setup} {bank0 : Buffer} {slots : Nat}
    (h : setup.cache = some (bank0, slots)) :
    (prepare setup : GBEmulator σ).bus.rom.romBank0 = some bank0 := by
  unfold prepare
  rw [h]
  split <;> rfl

theorem powerOn_isSome {setup : Setup} {header : Buffer} (hheap : setup.heap = true)
    (hsize : 0x150 ≤ setup.size)
    (hheader : (if setup.data.isSome = true then setup.data else (prepare setup :
    GBEmulator σ).bus.rom.romBank0) = some header) :
    (powerOn setup : Option (GBEmulator σ)).isSome = true ↔
      RamCodeOK (header.get 0x147) (header.get 0x149) := by
  rw [← loadRom_isSome hsize hheader]
  unfold powerOn
  rw [hheap]
  cases loadRom setup.data setup.size (prepare setup : GBEmulator σ) <;> simp [init]

/-- `gb_port_create` on an opened ROM, mapped or streaming, while memory suffices. -/
theorem gbPortCreate_isSome {e : RomEntry} {env : Env σ} (h : SourceOf P f e env)
    (hin : e.stop ≤ P.size.toNat)
    (hbytes : romBytes f e = data) (hsize : 32768 ≤ data.length ∧ data.length ≤ 4194304 ∧
      data.length % 16384 = 0)
    (hheader : HeaderOK data.length data) (mapped cgb : Bool) (apu : σ) :
    (gbPortCreate env ⟨cgb, true, apu⟩ ⟨e.size.toNat, mapped⟩).isSome = true ↔
      RamCodeOK (data.getD 0x147 0) (data.getD 0x149 0) := by
  have hlen : data.length = e.size.toNat := by rw [← hbytes, romBytes, List.length_map, List.length_range]
  -- the source shows the bytes of the row
  have hrom : ∀ i < data.length, env.rom i = data.getD i 0 := fun i hi => h.rom hin hbytes hi
  have hread : ∀ n offset, readRom env n offset = some fun i => env.rom (offset + i) := by
    intro n offset
    unfold readRom
    rw [h.succeeds]
  obtain ⟨hcolour, htype, hdeclared⟩ := hheader
  rw [supportedType_eq] at htype
  rw [romSizeOf_eq] at hdeclared
  have hhead : ∀ i < 0x150, env.rom (0 + i) = data.getD i 0 :=
    fun i hi => by rw [Nat.zero_add, hrom i (by omega)]
  have haccepted : ¬ (e.size.toNat < 32768 ∨ 4194304 < e.size.toNat ∨ e.size.toNat % 16384 ≠ 0) := by omega
  have hplayable : ¬ (env.rom (0 + 0x143) = 0xC0 ∨ ¬ supportedCart (env.rom (0 + 0x147)) = true ∨
      declaredRomSize (env.rom (0 + 0x148)) ≠ e.size.toNat ∨ ¬ true = true) := by
    rw [hhead 0x143 (by decide), hhead 0x147 (by decide), hhead 0x148 (by decide)]
    rintro (hc | ht | hd | hh)
    · exact hcolour hc
    · exact ht htype
    · exact hd (hdeclared.trans hlen)
    · exact hh rfl
  unfold gbPortCreate
  rw [if_neg haccepted, hread]
  dsimp only
  rw [if_neg hplayable]
  rw [Option.isSome_map]
  unfold sessionSetup
  -- both kinds of session show the header; only the RAM code is left to decide
  cases mapped with
  | true =>
    have hget : ∀ i < 0x150, (⟨e.size.toNat, env.rom⟩ : Buffer).get i = data.getD i 0 := by
      intro i hi
      rw [← hhead i hi, Nat.zero_add]
      exact if_pos (show i < e.size.toNat by omega)
    rw [if_pos rfl, Option.bind_some, ← hget 0x147 (by decide), ← hget 0x149 (by decide)]
    refine powerOn_isSome rfl ?_ rfl
    show 0x150 ≤ e.size.toNat
    omega
  | false =>
    have hget : ∀ i < 0x150, (⟨ROM_BANK_SIZE, fun i => env.rom (0 + i)⟩ : Buffer).get i =
        data.getD i 0 := by
      intro i hi
      rw [← hhead i hi]
      exact if_pos (show i < ROM_BANK_SIZE from Nat.lt_trans hi (by decide))
    rw [if_neg Bool.false_ne_true, hread, Option.map_some,
      Option.bind_some, ← hget 0x147 (by decide), ← hget 0x149 (by decide)]
    refine powerOn_isSome rfl ?_ (prepare_romBank0 rfl)
    show 0x150 ≤ e.size.toNat
    omega

/-! ## Uploads -/

/-- A row opens and delivers these bytes, and `gb_port_create` makes a session of the resulting source,
while Flash and memory allow it. -/
def Plays (P : Partition) (f : Flash) (s : Catalog) (index : Nat) (data : List UInt8) (apu : σ) : Prop :=
  Delivers P f s index data ∧ ∀ e, s.entries[index]? = some e → ∀ (env : Env σ), SourceOf P f e env → ∀ mapped cgb,
    ∃ session, gbPortCreate env ⟨cgb, true, apu⟩ ⟨e.size.toNat, mapped⟩ = some session

/-- What an upload that returns true leaves. -/
structure UploadAccepted (P : Partition) (s : Catalog) (bytes : Nat)
    (reader : Reader) (s' : Catalog) (f' : Flash) (data : List UInt8) :
    Prop where
  received : received reader bytes 0 [] = some data
  length : data.length = bytes
  header : HeaderOK bytes data
  opened : s'.needsReload = false
  inside : ∀ e ∈ s'.entries, e.stop ≤ P.size.toNat
  row : ∃ e, s'.entries[s.entries.length]? = some e ∧ romBytes f' e = data ∧ P.sha256 data = e.sha256
  size : 32768 ≤ bytes ∧ bytes % ROM_BANK_BYTES = 0

theorem upload_accepted {torn : Flash → Flash → Flash → Prop} (h : RamOK P s) {name : List UInt8}
    {bytes : Nat} {reader : Reader}
    (he : (gbStorageUpload P name bytes reader s).Exec (flashDevice P torn) f (some (true, s')) f') :
    ∃ data, UploadAccepted P s bytes reader s' f' data := by
  have hpost : Uploaded P torn name bytes reader s f (some (true, s')) f' :=
    Prog.wp_exec (gbStorageUpload_wp P torn name bytes reader s f) he
  cases hpost with
  | @published data f₁ _ _ hok hdata hlen hheader hw hp =>
    have hcatalog := (Built.upload hok hdata hheader).catalogOK h.catalog
    have hslots := (h.slots hok.partition hok.noReload).1
    have hgap := hok.found h.catalog
    have hbytes : (UInt32.ofNat bytes).toNat = bytes := by
      have hhigh := hgap.high
      have hlt := (dataEnd P).toNat_lt
      rw [UInt32.toNat_ofNat', Nat.mod_eq_of_lt (by omega)]
    obtain rfl := hp.end.confirmed s' rfl
    have hstops : ∀ e ∈ s.entries ++ [uploadedEntry P name bytes data s.entries],
      e.stop ≤ (dataEnd P).toNat :=
      fun e he => (hcatalog.region e he).high
    have hroms := hp.roms hslots fun e (he : e ∈ [uploadedEntry P name bytes data s.entries]) =>
      hstops e (List.mem_append_right _ he)
    have hkept : romBytes f' (uploadedEntry P name bytes data s.entries) =
        romBytes f₁ (uploadedEntry P name bytes data s.entries) := by
      simpa [romsOf] using hroms
    have hgeometry := (slot_geometry hslots).1
    refine ⟨data, hdata, hlen, hheader, rfl,
      fun e he => ?_, ⟨uploadedEntry P name bytes data s.entries, ?_, ?_, rfl⟩, hok.min, hok.banks⟩
    · have hstop := hstops e he
      omega
    · exact List.getElem?_concat_length
    · rw [hkept, uploaded_romBytes name hbytes hlen hw]

theorem declaredRomSize_le : ∀ code, declaredRomSize code ≤ 4194304 := forall_byte (by decide +kernel)

/-- The port as it sees an opened ROM, on a device without other inputs. -/
def sourceEnv (f : Flash) (e : RomEntry) : Env σ where
  rom i := f (e.offset.toNat + i)
  romReadFails _ := none
  millis _ := 0
  cheats := []
  soundWrite chip _ _ := chip
  soundRead _ _ := 0xFF
  patchBank _ bytes := bytes
  applyToBank _ _ bytes := bytes

theorem sourceEnv_source (P : Partition) (f : Flash) (e : RomEntry) :
    SourceOf P f e (sourceEnv f e : Env σ) := by
  refine ⟨fun _ => rfl, fun offset bytes m f' he i _ => ?_⟩
  unfold readSelected at he
  split at he
  · generalize hout : some (some m) = out at he
    cases he with
    | perform hd hk =>
      cases hk with
      | pure r f₁ =>
        obtain ⟨-, hr, -⟩ := succeeding_done hd
        have hm := Option.some.inj ((Option.some.inj hout).trans hr)
        rw [hm]
        exact congrArg f (Nat.add_assoc _ _ _).symm
    | cut hc => cases hout
  · cases he

/-- An accepted upload plays just when its RAM size code is supported. -/
theorem UploadAccepted.plays {bytes : Nat} {reader : Reader}
    (h : UploadAccepted P s bytes reader s' f' data) (apu : σ) :
    Plays P f' s' s.entries.length data apu ↔ RamCodeOK (data.getD 0x147 0) (data.getD 0x149 0) := by
  obtain ⟨e, he, hbytes, hhash⟩ := h.row
  have hin := h.inside e (List.mem_of_getElem? he)
  obtain ⟨hmin, hbanks⟩ := h.size
  have hlen := h.length
  have hmax := declaredRomSize_le (data.getD 0x148 0)
  have hheader := h.header
  rw [← romSizeOf_eq, hheader.2.2] at hmax
  have hcreate : ∀ env : Env σ, SourceOf P f' e env → ∀ mapped cgb,
      ((gbPortCreate env ⟨cgb, true, apu⟩ ⟨e.size.toNat, mapped⟩).isSome = true ↔
        RamCodeOK (data.getD 0x147 0) (data.getD 0x149 0)) :=
    fun env hsource mapped cgb => gbPortCreate_isSome hsource hin hbytes
      (by rw [hlen]; exact ⟨hmin, hmax, hbanks⟩)
      (by rw [hlen]; exact hheader) mapped cgb apu
  constructor
  · rintro ⟨-, hplays⟩
    obtain ⟨session, hsession⟩ := hplays e he (sourceEnv f' e) (sourceEnv_source P f' e) true true
    refine (hcreate _ (sourceEnv_source P f' e) true true).mp ?_
    rw [hsession]
    rfl
  · intro hram
    refine ⟨delivers_row h.opened h.inside he hbytes hhash, fun e' he' env hsource mapped cgb => ?_⟩
    obtain rfl := Option.some.inj (he.symm.trans he')
    exact Option.isSome_iff_exists.mp ((hcreate env hsource mapped cgb).mpr hram)

/-! ## An upload while nothing fails -/

theorem writeChunks_accepted (reader : Reader) {offset bytes : Nat}
    (hin : offset + bytes ≤ P.size.toNat) (n : Nat) (data : List UInt8) :
    (writeChunks reader offset bytes n data).Only (accepted P) := by
  unfold writeChunks
  by_cases hlt : data.length < bytes
  · rw [if_pos hlt]
    dsimp only
    generalize hwant : (if 1024 < bytes - data.length then 1024 else bytes - data.length) = want
    have hle : want ≤ bytes - data.length := by rw [← hwant]; split <;> omega
    by_cases hbuf : (reader n want).length = 0 ∨ want < (reader n want).length
    · rw [dif_pos hbuf]
      exact trivial
    · rw [dif_neg hbuf]
      refine Prog.only_bind (Prog.only_op ?_) fun written => ?_
      · show offset + data.length + (reader n want).length ≤ P.size.toNat
        omega
      refine Prog.only_bind ?_ fun updated => ?_
      · split
        · exact Prog.only_op trivial
        · exact trivial
      · split
        · exact writeChunks_accepted reader hin (n + 1) _
        · exact trivial
  · rw [if_neg hlt]
    exact trivial
termination_by bytes - data.length
decreasing_by
  rw [List.length_append]
  omega

/-- While Flash succeeds, an upload that passes the checks does. -/
theorem upload_exec (h : RamOK P s) (hsize : P.size.toNat % 4096 = 0) {name : List UInt8}
    {bytes : Nat} {reader : Reader}
    (hok : UploadOK P s name bytes) (hdata : received reader bytes 0 [] = some data)
    (hheader : HeaderOK bytes data) (f : Flash) :
    ∃ s' f', (gbStorageUpload P name bytes reader s).Exec (flashDevice P anyTear) f
      (some (true, s')) f' := by
  have hgap := hok.found h.catalog
  have hr := (h.slots hok.partition hok.noReload).1
  have hend := (slot_geometry hr).1
  have hhigh := hgap.high
  have hbanks : bytes % 16384 = 0 := hok.banks
  -- every operation of the upload is one Flash accepts
  have honly : (gbStorageUpload P name bytes reader s).Only (accepted P) := by
    unfold gbStorageUpload partitionErase
    split
    · exact trivial
    dsimp only
    split
    · exact trivial
    refine Prog.only_bind (Prog.only_op ⟨hgap.aligned, by omega, by omega⟩) fun erased => ?_
    split
    · exact trivial
    refine Prog.only_bind (Prog.only_op trivial) fun started => Prog.only_bind ?_ fun out => ?_
    · split
      · exact writeChunks_accepted reader (by omega) 0 []
      · exact trivial
    split
    · exact trivial
    refine Prog.only_bind ⟨trivial, fun _ => trivial⟩ fun digest => ?_
    unfold addRom
    split
    · exact trivial
    split
    · exact trivial
    · exact publishDirectory_accepted hr hsize _
  obtain ⟨⟨ok, s'⟩, f', he⟩ := Prog.Only.exec (flashSucceeding_done P) honly f
  have hsuccess : ok = true := Prog.wp_exec (built_succeeds h (.upload hok hdata hheader) f) he
  rw [hsuccess] at he
  exact ⟨s', f', he.refines (flashSucceeding_refines P anyTear)⟩

/-- A reader that delivers a ROM as it is asked. -/
def deliver (rom : List UInt8) : Reader := fun n want => (rom.drop (1024 * n)).take want

theorem received_deliver (rom : List UInt8) (n : Nat) :
    received (deliver rom) rom.length n (rom.take (1024 * n)) = some rom := by
  unfold received
  by_cases hlt : (rom.take (1024 * n)).length < rom.length
  · rw [if_pos hlt]
    dsimp only
    rw [List.length_take] at hlt ⊢
    have hmin : min (1024 * n) rom.length = 1024 * n := by omega
    rw [hmin]
    generalize hwant : (if 1024 < rom.length - 1024 * n then 1024 else rom.length - 1024 * n) = want
    have hwant' : 0 < want ∧ want ≤ 1024 ∧ want ≤ rom.length - 1024 * n ∧
        (want = 1024 ∨ want = rom.length - 1024 * n) := by
      rw [← hwant]
      split <;> omega
    have hlen : (deliver rom n want).length = want := by
      unfold deliver
      rw [List.length_take, List.length_drop]
      omega
    have hnext : rom.take (1024 * n) ++ deliver rom n want = rom.take (1024 * (n + 1)) := by
      unfold deliver
      rw [← List.take_add]
      obtain hw | hw := hwant'.2.2.2
      · rw [hw, Nat.mul_succ]
      · rw [List.take_of_length_le (by omega), List.take_of_length_le (by omega)]
    rw [dif_neg (by rw [hlen]; omega), hnext]
    exact received_deliver rom (n + 1)
  · rw [if_neg hlt]
    rw [List.length_take] at hlt
    rw [List.take_of_length_le (by omega)]
termination_by rom.length - 1024 * n
decreasing_by
  rw [List.length_take] at hlt
  omega

/-- A blank partition, and the catalog loaded from it. -/
def blankPartition : Partition := ⟨65536, fun _ => .replicate 32 0⟩

def blankFlash : Flash := fun _ => 0xFF

def blankCatalog : Catalog := ((gbStorageInit blankPartition {}).run (flashOk blankPartition) blankFlash).1.2

theorem blankCatalog_run : StorageRun blankPartition anyTear {} blankFlash blankCatalog
    ((gbStorageInit blankPartition {}).run (flashOk blankPartition) blankFlash).2 :=
  @CallRun.call _ _ _ _ _ _ _ (some _) (.start {} blankFlash) .init
    (Prog.exec_run (flashOk_done blankPartition anyTear) _ _)

/-- A 32 KB cartridge without a mapper, with a RAM size code. -/
def plainRom (ramCode : UInt8) : List UInt8 := (List.replicate 32768 0).set 0x149 ramCode

theorem plainRom_getD (ramCode : UInt8) {i : Nat} (hi : i ≠ 0x149) : (plainRom ramCode).getD i 0 = 0 := by
  unfold plainRom
  rw [List.getD_eq_getElem?_getD, List.getElem?_set_ne hi.symm, List.getElem?_replicate]
  split <;> rfl

theorem plainRom_ramCode (ramCode : UInt8) : (plainRom ramCode).getD 0x149 0 = ramCode := by
  unfold plainRom
  rw [List.getD_eq_getElem?_getD, List.getElem?_set_self (by rw [List.length_replicate]; decide)]
  rfl

theorem plainRom_received (ramCode : UInt8) :
    received (deliver (plainRom ramCode)) 32768 0 [] = some (plainRom ramCode) := by
  have hlen : (plainRom ramCode).length = 32768 := by
    unfold plainRom
    rw [List.length_set, List.length_replicate]
  have hdata := received_deliver (plainRom ramCode) 0
  rwa [hlen, Nat.mul_zero, List.take_zero] at hdata

/-- Its upload to the blank partition is accepted, whatever the code. -/
theorem plainRom_uploads (ramCode : UInt8) :
    ∃ s' f', (gbStorageUpload blankPartition [0x47] 32768 (deliver (plainRom ramCode))
      blankCatalog).Exec
    (flashDevice blankPartition anyTear)
      ((gbStorageInit blankPartition {}).run (flashOk blankPartition) blankFlash).2
      (some (true, s')) f' := by
  have hentries : blankCatalog.entries = [] := by decide +kernel
  have hok : UploadOK blankPartition blankCatalog [0x47] 32768 := by
    refine ⟨by decide +kernel, by decide +kernel, ?_, ?_, by decide, ?_, by decide, ?_, ?_⟩
    · rw [hentries]
      decide
    · rw [hentries]
      decide
    · decide +kernel
    · decide +kernel
    · rw [hentries]
      decide +kernel
  have hheader : HeaderOK 32768 (plainRom ramCode) := by
    unfold HeaderOK
    rw [plainRom_getD ramCode (by decide), plainRom_getD ramCode (by decide),
      plainRom_getD ramCode (by decide)]
    decide
  exact upload_exec (storageRun_ramOK (ramOK_boot _) blankCatalog_run) (by decide) hok
    (plainRom_received ramCode) hheader _

/-! ## Accepted uploads -/

/-- A ROM uploaded in any run of storage calls, in chunks of any sizes, opens and becomes a session,
mapped or streaming, just when its RAM size code is one the core supports. -/
theorem upload_plays (P : Partition) (f₀ : Flash) (s : Catalog) (f : Flash) (hrun : StorageRun P anyTear {} f₀ s f)
    (name : List UInt8) (bytes : Nat) (reader : Reader) (s' : Catalog) (f' : Flash)
    (he : (gbStorageUpload P name bytes reader s).Exec (flashDevice P anyTear) f (some (true, s')) f') (apu : σ) :
    ∃ data, received reader bytes 0 [] = some data ∧
      (Plays P f' s' s.entries.length data apu ↔ RamCodeOK (data.getD 0x147 0) (data.getD 0x149 0)) := by
  obtain ⟨data, haccepted⟩ := upload_accepted (storageRun_ramOK (ramOK_boot P) hrun) he
  exact ⟨data, haccepted.received, haccepted.plays apu⟩

theorem upload_plays_plain : ∃ s f s' f', StorageRun blankPartition anyTear {} blankFlash s f ∧
    (gbStorageUpload blankPartition [0x47] 32768 (deliver (plainRom 2)) s).Exec
      (flashDevice blankPartition anyTear) f (some (true, s')) f' ∧
    ∃ data, received (deliver (plainRom 2)) 32768 0 [] = some data ∧
      (Plays blankPartition f' s' s.entries.length data () ↔ RamCodeOK (data.getD 0x147 0) (data.getD 0x149 0)) := by
  obtain ⟨s', f', he⟩ := plainRom_uploads 2
  exact ⟨_, _, s', f', blankCatalog_run, he, upload_plays _ _ _ _ blankCatalog_run _ _ _ _ _ he ()⟩

/-- A cartridge with 128 KB of RAM is accepted, and no session is ever made of it. -/
theorem upload_unplayable : ∃ s f s' f', StorageRun blankPartition anyTear {} blankFlash s f ∧
    (gbStorageUpload blankPartition [0x47] 32768 (deliver (plainRom 4)) s).Exec
      (flashDevice blankPartition anyTear) f (some (true, s')) f' ∧
    ∃ data, received (deliver (plainRom 4)) 32768 0 [] = some data ∧
      ¬ Plays blankPartition f' s' s.entries.length data () := by
  obtain ⟨s', f', he⟩ := plainRom_uploads 4
  refine ⟨_, _, s', f', blankCatalog_run, he, plainRom 4, plainRom_received 4, ?_⟩
  obtain ⟨data, haccepted⟩ := upload_accepted (storageRun_ramOK (ramOK_boot _) blankCatalog_run) he
  obtain rfl := Option.some.inj ((plainRom_received 4).symm.trans haccepted.received)
  rw [haccepted.plays, plainRom_getD 4 (by decide), plainRom_ramCode]
  decide

end FoloGameboy
