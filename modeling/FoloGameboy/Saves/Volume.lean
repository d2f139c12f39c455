/-
The `saves` volume as a device: files by path, one stream open for writing and one open directory.
Opening a copy for writing truncates it; what a failed or interrupted write leaves is either complete
or recognised as incomplete by the check of the copies.
-/
import FoloGameboy.Lib.Crash
import Mathlib.Data.List.Nodup
import Mathlib.Logic.Function.Basic

namespace FoloGameboy

open Effect

/-- A path, a C string. -/
abbrev Path : Type := List UInt8

abbrev Volume : Type := Path → Option (List UInt8)

/-- `GB_SAVES_PREFIX`, that is "/saves/". -/
def savesPrefix : Path := [0x2F, 0x73, 0x61, 0x76, 0x65, 0x73, 0x2F]

/-! ## Operations -/

inductive Removal where
  | removed | noEntry | failed
deriving DecidableEq

/-- What `readdir` returns: an entry, or NULL with `errno` clear or set. -/
inductive DirItem where
  | entry (name : Path)
  | finished
  | error

/-- What `gb_saves` calls: `stdio`, `dirent`, and the port, which may refuse. Only the reads that
verify a written copy may fail. -/
inductive FileOp where
  | fopenRead (verify : Bool) (path : Path)
  | fcloseRead (verify : Bool)
  | fopenWrite (path : Path)
  | fwrite (data : List UInt8)
  | fflush
  | fsync
  | fclose
  | remove (path : Path)
  | opendir
  | readdir
  | rewinddir
  | closedir
  | port

/-- A stream opened for reading answers with the bytes it delivers. -/
abbrev FileRes : FileOp → Type
  | .fopenRead _ _ => Option (List UInt8)
  | .remove _ => Removal
  | .readdir => DirItem
  | .rewinddir => Unit
  | _ => Bool

abbrev SavesM : Type → Type := Prog FileOp FileRes

/-! ## The device -/

structure SaveFs where
  files : Volume
  writing : Option (Path × List UInt8) := none
  scan : List Path := []

namespace SaveFs

def store (path : Path) (c : Option (List UInt8)) (v : SaveFs) : SaveFs :=
  { v with files := Function.update v.files path c }

/-- The stream on a path, with what the file holds. -/
def hold (path : Path) (c : List UInt8) (v : SaveFs) : SaveFs :=
  { v.store path (some c) with writing := some (path, c) }

def closed (v : SaveFs) : SaveFs := { v with writing := none }

end SaveFs

/-- A directory scan lists exactly the files present. -/
def Lists (files : Volume) (names : List Path) : Prop :=
  names.Nodup ∧ ∀ n, n ∈ names ↔ (files (savesPrefix ++ n)).isSome

/-- What a stream that should hold `c` is left with when an operation on it fails or is cut. -/
def LeftWith (incomplete : List UInt8 → Prop) (c c' : List UInt8) : Prop := c' = c ∨ incomplete c'

/-- An operation on the stream that should leave it with `next held`. -/
def StreamDone (incomplete : List UInt8 → Prop) (next : List UInt8 → List UInt8)
    (v : SaveFs) (r : Bool) (v' : SaveFs) : Prop :=
  ∃ path held, v.writing = some (path, held) ∧
    ((r = true ∧ v' = v.hold path (next held)) ∨
      (r = false ∧ ∃ c, LeftWith incomplete (next held) c ∧ v' = v.hold path c))

def StreamCut (incomplete : List UInt8 → Prop) (next : List UInt8 → List UInt8) (v v' : SaveFs) : Prop :=
  ∃ path held c, v.writing = some (path, held) ∧ LeftWith incomplete (next held) c ∧ v' = v.hold path c

def fileDone (incomplete : List UInt8 → Prop) : (o : FileOp) → SaveFs → FileRes o → SaveFs → Prop
  | .fopenRead verify path, v, r, v' => v' = v ∧ (r = v.files path ∨ (verify = true ∧ r = none))
  | .fcloseRead verify, v, r, v' => v' = v ∧ (r = true ∨ (verify = true ∧ r = false))
  | .fopenWrite path, v, r, v' =>
    (r = true ∧ v' = v.hold path []) ∨ (r = false ∧ (v' = v ∨ ∃ c, incomplete c ∧ v' = v.store path (some c)))
  | .fwrite data, v, r, v' => StreamDone incomplete (· ++ data) v r v'
  | .fflush, v, r, v' => StreamDone incomplete id v r v'
  | .fsync, v, r, v' => StreamDone incomplete id v r v'
  | .fclose, v, r, v' => ∃ v₁, StreamDone incomplete id v r v₁ ∧ v' = v₁.closed
  | .remove path, v, r, v' =>
    (r = .removed ∧ (v.files path).isSome ∧ v' = v.store path none) ∨ (r = .noEntry ∧ v.files path = none ∧ v' = v) ∨
      (r = .failed ∧ (v' = v ∨ v' = v.store path none))
  | .opendir, v, r, v' =>
      (r = true ∧ ∃ names, Lists v.files names ∧ v' = { v with scan := names }) ∨ (r = false ∧ v' = v)
  | .readdir, v, r, v' =>
    (r = .error ∧ v' = v) ∨ (r = .finished ∧ v.scan = [] ∧ v' = v) ∨
      ∃ name rest, r = .entry name ∧ v.scan = name :: rest ∧ v' = { v with scan := rest }
  | .rewinddir, v, _, v' => ∃ names, Lists v.files names ∧ v' = { v with scan := names }
  | .closedir, v, _, v' => v' = v
  | .port, v, _, v' => v' = v

def fileCut (incomplete : List UInt8 → Prop) : FileOp → SaveFs → SaveFs → Prop
  | .fopenWrite path, v, v' => v' = v ∨ ∃ c, incomplete c ∧ v' = v.store path (some c)
  | .fwrite data, v, v' => StreamCut incomplete (· ++ data) v v'
  | .fflush, v, v' => StreamCut incomplete id v v'
  | .fsync, v, v' => StreamCut incomplete id v v'
  | .fclose, v, v' => StreamCut incomplete id v v'
  | .remove path, v, v' => v' = v ∨ v' = v.store path none
  | _, v, v' => v' = v

/-- The volume under any failures and power cuts. -/
def saveDevice (incomplete : List UInt8 → Prop) : Device FileOp FileRes SaveFs where
  done := fileDone incomplete
  cut := fileCut incomplete

end FoloGameboy
