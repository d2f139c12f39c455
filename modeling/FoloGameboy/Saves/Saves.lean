/-
`gb_saves`: checking, loading and writing the two copies of a battery ROM's save, deleting them, and
pruning copies of ROMs that are no longer in the catalog.
-/
import FoloGameboy.Port.Battery
import FoloGameboy.Saves.Format

namespace FoloGameboy

open Effect

variable {σ : Type}

/-! ## Operations -/

def fopenRead (verify : Bool) (path : Path) : SavesM (Option (List UInt8)) := Prog.op (FileOp.fopenRead verify path)

def fcloseRead (verify : Bool) : SavesM Bool := Prog.op (FileOp.fcloseRead verify)

def fopenWrite (path : Path) : SavesM Bool := Prog.op (FileOp.fopenWrite path)

def fwrite (data : List UInt8) : SavesM Bool := Prog.op (FileOp.fwrite data)

def fflush : SavesM Bool := Prog.op FileOp.fflush

def fsync : SavesM Bool := Prog.op FileOp.fsync

def fclose : SavesM Bool := Prog.op FileOp.fclose

def removeFile (path : Path) : SavesM Removal := Prog.op (FileOp.remove path)

def opendir : SavesM Bool := Prog.op FileOp.opendir

def readdir : SavesM DirItem := Prog.op FileOp.readdir

def rewinddir : SavesM Unit := Prog.op FileOp.rewinddir

def closedir : SavesM Bool := Prog.op FileOp.closedir

/-- `gb_port_read_sram`. -/
def readSram (s : Session σ) (offset bytes : Nat) : SavesM (Option (List UInt8)) := do
  let okay ← Prog.op FileOp.port
  pure (if okay then gbPortReadSram offset bytes s else none)

/-! ## Checking a copy -/

/-- `check_copy`; the final check of `gb_saves_write` passes no header to fill. -/
def checkCopy (verify : Bool) (path : Path) (hash : Vector UInt8 32) (sram : Nat) : SavesM (Option SaveHeader) := do
  match ← fopenRead verify path with
  | none => pure none
  | some file =>
    let closed ← fcloseRead verify
    pure (if closed then checkFile hash sram file else none)

/-- `exists`. -/
def fileExists (path : Path) : SavesM Bool := do
  match ← fopenRead false path with
  | none => pure false
  | some _ =>
    let _ ← fcloseRead false
    pure true

/-! ## Loading -/

inductive SaveResult where
  | empty | loaded | error
deriving DecidableEq

/-- The SRAM loop of `gb_saves_load`: whether it succeeded, and what is left of the file. -/
def loadSram (sram offset : Nat) (file : List UInt8) (s : Session σ) : Bool × List UInt8 × Session σ :=
  if offset < sram then
    let n := if 512 < sram - offset then 512 else sram - offset
    if file.length < n then (false, file, s)
    else
      match gbPortWriteSram offset (file.take n) s with
      | none => (false, file.drop n, s)
      | some s => loadSram sram (offset + 512) (file.drop n) s
  else (true, file, s)
termination_by sram - offset
decreasing_by omega

/-- The copy both `gb_saves_load` and `gb_saves_write` take for the newest is the first one. -/
def firstNewest (ha hb : Option SaveHeader) : Bool :=
  match ha, hb with
  | some ha, some hb => newer ha.sequence hb.sequence
  | some _, none => true
  | none, _ => false

def gbSavesLoad (hash : Vector UInt8 32) (s : Session σ) : SavesM (SaveResult × Session σ) := do
  if ¬ gbPortHasBattery s then pure (.empty, s)
  else
    let sram := gbPortSramSize s
    let a := savePath hash copyA
    let b := savePath hash copyB
    let ha ← checkCopy false a hash sram
    let hb ← checkCopy false b hash sram
    if ha.isNone ∧ hb.isNone then
      if ← fileExists a then pure (.error, s)
      else
        if ← fileExists b then pure (.error, s) else pure (.empty, s)
    else
      match ← fopenRead false (if firstNewest ha hb then a else b) with
      | none => pure (.error, s)
      | some file =>
        let (okay, rest, s) := loadSram sram 0 (file.drop saveHeaderCodec.size) s
        let okay := okay && 10 ≤ rest.length
        let s := if okay then gbPortImportRtc (rest.take 10) s else s
        let closed ← fcloseRead false
        let okay := closed && okay
        pure (if okay then (.loaded, gbPortMarkSaved s) else (.error, s))

/-! ## Writing -/

/-- The checksum loop of `gb_saves_write`. -/
def crcSram (s : Session σ) (sram offset : Nat) (crc : UInt32) : SavesM (Option UInt32) :=
  if offset < sram then do
    match ← readSram s offset (if 512 < sram - offset then 512 else sram - offset) with
    | none => pure none
    | some chunk => crcSram s sram (offset + 512) (crcUpdate crc chunk)
  else pure (some crc)
termination_by sram - offset
decreasing_by omega

/-- Its write loop. -/
def writeSram (s : Session σ) (sram offset : Nat) : SavesM Bool :=
  if offset < sram then do
    match ← readSram s offset (if 512 < sram - offset then 512 else sram - offset) with
    | none => pure false
    | some chunk =>
      let okay ← fwrite chunk
      if okay then writeSram s sram (offset + 512) else pure false
  else pure true
termination_by sram - offset
decreasing_by omega

/-- The rest after a step that succeeded. -/
def whenOkay (okay : Bool) (p : SavesM Bool) : SavesM Bool := if okay then p else pure false

/-- From `fopen` on: the file is written, synced, closed and verified. -/
def writeCopy (target : Path) (hash : Vector UInt8 32) (sram : Nat)
    (h : SaveHeader) (rtc : List UInt8) (s : Session σ) :
    SavesM Bool := do
  let opened ← fopenWrite target
  whenOkay opened do
    let okay ← fwrite (saveHeaderCodec.bytes h)
    let okay ← whenOkay okay (writeSram s sram 0)
    let okay ← whenOkay okay (fwrite rtc)
    let okay ← whenOkay okay fflush
    let okay ← whenOkay okay fsync
    let closed ← fclose
    whenOkay (closed && okay) do
      let valid ← checkCopy true target hash sram
      pure valid.isSome

/-- The sequence number a new copy follows. -/
def latestSequence (ha hb : Option SaveHeader) : UInt32 :=
  match ha, hb with
  | some ha, some hb => if newer ha.sequence hb.sequence then ha.sequence else hb.sequence
  | some ha, none => ha.sequence
  | none, some hb => hb.sequence
  | none, none => 0

/-- The copy to overwrite, unless both are missing or invalid. -/
def targetCopy (ha hb : Option SaveHeader) : UInt8 :=
  match ha, hb with
  | none, _ => copyA
  | some _, none => copyB
  | some ha, some hb => if newer ha.sequence hb.sequence then copyB else copyA

/-- The copy `gb_saves_write` overwrites; nothing when both exist and neither is valid. -/
def chooseTarget (hash : Vector UInt8 32) (ha hb : Option SaveHeader) : SavesM (Option Path) := do
  if ha.isNone ∧ hb.isNone then
    if ← fileExists (savePath hash copyA) then
      if ← fileExists (savePath hash copyB) then pure none else pure (some (savePath hash copyB))
    else pure (some (savePath hash copyA))
  else pure (some (savePath hash (targetCopy ha hb)))

def gbSavesWrite (env : Env σ) (hash : Vector UInt8 32) (s : Session σ) : SavesM (Bool × Session σ) := do
  if ¬ gbPortHasBattery s then pure (true, s)
  else if ¬ gbPortNeedsSave s then pure (true, s)
  else
    let sram := gbPortSramSize s
    let ha ← checkCopy false (savePath hash copyA) hash sram
    let hb ← checkCopy false (savePath hash copyB) hash sram
    match ← chooseTarget hash ha hb with
    | none => pure (false, s)
    | some target =>
      let head := newHead hash (latestSequence ha hb + 1) sram
      match ← crcSram s sram 0 (crcUpdate 0xffffffff (saveHeadCodec.bytes head)) with
      | none => pure (false, s)
      | some crc =>
        let okay ← Prog.op FileOp.port
        if ¬ okay then pure (false, s)
        else
          let (rtc, s) := gbPortExportRtc env s
          let h : SaveHeader := { head with crc32 := crcUpdate crc rtc ^^^ 0xffffffff }
          let okay ← writeCopy target hash sram h rtc s
          pure (okay, if okay then gbPortMarkSaved s else s)

/-! ## Deleting and pruning -/

def removeCopy (path : Path) : SavesM Bool := do
  match ← removeFile path with
  | .failed => pure false
  | _ => pure true

/-- `gb_saves_delete`, with `s_mounted`. -/
def gbSavesDelete (mounted : Bool) (hash : Vector UInt8 32) : SavesM Bool := do
  if ¬ mounted then pure false
  else
    let first ← removeCopy (savePath hash copyA)
    let second ← removeCopy (savePath hash copyB)
    pure (first && second)

/-- One entry of the loop of `live_save_name`. -/
def matchesHash (filename : Path) (e : RomEntry) : Bool :=
  (e.sha256.toList.take 8).zipIdx.all fun (b, byte) =>
    filename.getD (byte * 2) 0 = hexDigit (b >>> 4) && filename.getD (byte * 2 + 1) 0 = hexDigit (b &&& 15)

def liveSaveName (entries : List RomEntry) (filename : Path) : Bool := entries.any (matchesHash filename)

def isHexDigit (c : UInt8) : Bool := (0x30 ≤ c && c ≤ 0x39) || (0x61 ≤ c && c ≤ 0x66)

/-- The form of a copy's name: 16 lowercase hex digits, a dot and `a` or `b`. -/
def isSaveName (name : Path) : Bool :=
  decide (name.length = 18) && name.getD 16 0 == 0x2E && (name.getD 17 0 == copyA || name.getD 17 0 == copyB) &&
    (name.take 16).all isHexDigit

/-- The scan of `gb_saves_prune_orphans`, for at most `fuel` entries; nothing when they are not enough. -/
def pruneLoop (entries : List RomEntry) : (fuel : Nat) → (okay : Bool) → SavesM (Option Bool)
  | 0, _ => pure none
  | fuel + 1, okay => do
    match ← readdir with
    | .error => pure (some false)
    | .finished => pure (some okay)
    | .entry name =>
      if ¬ isSaveName name ∨ liveSaveName entries name then pruneLoop entries fuel okay
      else
        let removed ← removeCopy (savesPrefix ++ name)
        if ¬ removed then pruneLoop entries fuel false
        else
          rewinddir
          pruneLoop entries fuel okay

def gbSavesPruneOrphans (mounted : Bool) (s : Catalog) (fuel : Nat) : SavesM (Option Bool) := do
  if ¬ mounted ∨ ¬ s.catalogTrusted then pure (some false)
  else
    let opened ← opendir
    if ¬ opened then pure (some false)
    else
      match ← pruneLoop s.entries fuel true with
      | none => pure none
      | some okay =>
        let closed ← closedir
        pure (some (closed && okay))

end FoloGameboy
