/-
`gb_web`: the request handlers of the management page over the catalog and the save files, with
`gb_name_url_decode`.
-/
import FoloGameboy.Lib.Devices
import FoloGameboy.Storage.Catalog
import FoloGameboy.Saves.Saves

namespace FoloGameboy

open Effect

/-! ## Names in a query -/

/-- `hex_digit`; nothing is -1. -/
def hexValue (c : UInt8) : Option UInt8 :=
  if 0x30 ≤ c ∧ c ≤ 0x39 then some (c - 0x30)
  else if 0x41 ≤ c ∧ c ≤ 0x46 then some (c - 0x41 + 10)
  else if 0x61 ≤ c ∧ c ≤ 0x66 then some (c - 0x61 + 10)
  else none

/-- The loop of `gb_name_url_decode` over the bytes before the NUL: what is written to an output of
so many bytes. -/
def urlDecodeFrom (outputSize : Nat) : (encoded output : List UInt8) → Option (List UInt8)
  | [], output => some output
  | c :: encoded, output =>
    let store (value : UInt8) : Option (List UInt8) :=
      if value = 0 ∨ outputSize ≤ output.length + 1 then none else some (output ++ [value])
    if c = 0x25 then
      match encoded with
      | high :: low :: rest =>
        match hexValue high, hexValue low with
        | some high, some low => (store ((high <<< 4) ||| low)).bind (urlDecodeFrom outputSize rest)
        | _, _ => none
      | _ => none
    else (store (if c = 0x2B then 0x20 else c)).bind (urlDecodeFrom outputSize encoded)

def gbNameUrlDecode (encoded : List UInt8) (outputSize : Nat) : Option (List UInt8) :=
  if outputSize < 2 then none
  else (urlDecodeFrom outputSize (cstr encoded) []).bind fun name => if gbNameValid name then some name else none

/-! ## Requests and responses -/

/-- What the handlers read of a request: the length of its Origin header and the header if it fits
the buffer, the query values if there are any that fit, the declared length and the body. -/
structure WebRequest where
  originLength : Nat := 0
  origin : Option (List UInt8) := none
  token : Option (List UInt8) := none
  name : Option (List UInt8) := none
  contentLen : Nat := 0
  body : Reader := fun _ _ => []

structure Response where
  status : Nat
  body : List UInt8

/-- A response with a text. -/
def respond (status : Nat) (text : String) : Response := ⟨status, text.toUTF8.toList⟩

abbrev WebM : Type → Type := Prog (FlashOp ⊕ FileOp) (Sum.elim FlashRes FileRes)

/-- `same_origin`. -/
def sameOrigin (req : WebRequest) : Bool :=
  if req.originLength = 0 then true
  else if 48 ≤ req.originLength then false
  else
    match req.origin with
    | none => false
    | some origin => cstr origin = "http://192.168.4.1".toUTF8.toList

def forbidden : Response := respond 403 "拒绝跨站请求"

/-! ## The list -/

/-- `%lu`. -/
def decimal (n : Nat) : List UInt8 := (Nat.toDigits 10 n).map fun c => UInt8.ofNat c.toNat

/-- An upper case hex digit. -/
def upperDigit (n : UInt8) : UInt8 := if n < 10 then 0x30 + n else 0x41 + (n - 10)

/-- A name in a JSON string. -/
def escapeName (name : List UInt8) : List UInt8 :=
  (cstr name).flatMap fun (c : UInt8) =>
    if c = 0x22 ∨ c = 0x5C then [0x5C, c]
    else if c < 0x20 then "\\u00".toUTF8.toList ++ [upperDigit (c >>> 4), upperDigit (c &&& 15)]
    else [c]

/-- A game of the list: its row and entry with the token that names them. -/
structure Listed where
  row : Nat
  entry : RomEntry
  token : List UInt8

def listItem (g : Listed) : List UInt8 :=
  (if g.row = 0 then [] else ",".toUTF8.toList) ++ "\x7b\"name\":\"".toUTF8.toList ++ escapeName g.entry.name.toList ++
    "\",\"size\":".toUTF8.toList ++ decimal g.entry.size.toNat ++ ",\"token\":\"".toUTF8.toList ++
      g.token ++ "\"\x7d".toUTF8.toList

section
variable (P : Partition)

/-- What the list sends of these rows, and whether that is all: a refused token breaks it off. -/
def listGames (s : Catalog) : List (RomEntry × Nat) → StorageM (List Listed × Bool)
  | [] => pure ([], true)
  | (e, row) :: rest => do
    match ← gbStorageToken P row s with
    | none => pure ([], false)
    | some token => do
      let (games, complete) ← listGames s rest
      pure (⟨row, e, token⟩ :: games, complete)

/-- `list_handler`: the response as far as it is sent, and whether it is complete. -/
def listHandler (s : Catalog) : StorageM (Response × Bool) := do
  if s.needsReload then pure (respond 503 "游戏目录状态未确认，请重启设备后重新读取列表", true)
  else
    let head := "\x7b\"used\":".toUTF8.toList ++ decimal (gbStorageUsed s) ++ ",\"capacity\":".toUTF8.toList ++
      decimal (gbStorageLimit P s) ++ ",\"available\":".toUTF8.toList ++ decimal (gbStorageAvailable P s) ++
      ",\"games\":[".toUTF8.toList
    let (games, complete) ← listGames P s s.entries.zipIdx
    pure (⟨200, head ++ games.flatMap listItem ++ (if complete then "]\x7d".toUTF8.toList else [])⟩, complete)

/-! ## Changes -/

def uploadHandler (req : WebRequest) (s : Catalog) : WebM (Response × Catalog) :=
  if ¬ sameOrigin req then pure (forbidden, s)
  else
    let invalid := respond 400 "文件大小或名称无效"
    if req.contentLen < 32768 ∨ gbStorageLimit P s < req.contentLen then pure (invalid, s)
    else
      match req.name.bind fun encoded => gbNameUrlDecode encoded 32 with
      | none => pure (invalid, s)
      | some name => do
        let (ok, s) ← (gbStorageUpload P name req.contentLen req.body s).inl
        if s.needsReload then pure (respond 503 "游戏目录状态未确认，请重启设备后核对上传结果", s)
        else if ok then pure (respond 200 "上传成功", s)
        else pure (respond 400 "上传失败：格式、容量或名称无效，名称不能重复", s)

def renameHandler (req : WebRequest) (s : Catalog) : WebM (Response × Catalog) :=
  if ¬ sameOrigin req then pure (forbidden, s)
  else
    match req.token, req.name.bind fun encoded => gbNameUrlDecode encoded 32 with
    | some token, some name =>
      if s.needsReload then pure (respond 503 "游戏目录状态未确认，请重启设备后重新读取列表", s)
      else do
        match ← (gbStorageResolveToken P token s).inl with
        | none => pure (respond 409 "游戏列表已变化，请刷新后重试", s)
        | some index => do
          let (ok, s) ← (gbStorageRename P index name s).inl
          if ok then pure (respond 200 "名称已更新，存档保持不变", s)
          else if s.needsReload then pure (respond 503 "游戏目录状态未确认，请重启设备后核对改名结果", s)
          else pure (respond 400 "重命名失败：名称可能重复", s)
    | _, _ => pure (respond 400 "名称无效：最多 31 字节，约 10 个汉字", s)

/-- Another row holds the same ROM. -/
def sharedSave (index : Nat) (entries : List RomEntry) : Bool :=
  entries.zipIdx.any fun (other, i) => i ≠ index && other.sha256 = (entries.getD index .zero).sha256

/-- `delete_handler`, with `gb_saves_ready`; a resolved row exists. -/
def deleteHandler (mounted : Bool) (req : WebRequest) (s : Catalog) : WebM (Response × Catalog) :=
  if ¬ sameOrigin req then pure (forbidden, s)
  else
    match req.token with
    | none => pure (respond 400 "缺少有效的游戏标识，请刷新列表", s)
    | some token =>
      if s.needsReload then pure (respond 503 "游戏目录状态未确认，请重启设备后重新读取列表", s)
      else do
        match ← (gbStorageResolveToken P token s).inl with
        | none => pure (respond 409 "游戏列表已变化，请刷新后重试", s)
        | some index =>
          let hash := (s.entries.getD index .zero).sha256
          let shared := sharedSave index s.entries
          if ¬ shared ∧ ¬ mounted then pure (respond 503 "存档空间不可用，游戏未删除", s)
          else do
            let (ok, s) ← (gbStorageDelete P index s).inl
            if ¬ ok then
              if s.needsReload then pure (respond 503 "游戏目录状态未确认，存档未清理；请重启设备后核对删除结果", s)
              else pure (respond 500 "游戏目录写入失败，游戏未删除", s)
            else if shared then pure (respond 200 "游戏已删除；相同 ROM 仍在，存档共用并保留", s)
            else
              let deleted ← (gbSavesDelete mounted hash).inr
              if deleted then pure (respond 200 "游戏和对应存档均已删除", s)
              else pure (respond 500 "游戏已删除，存档清理失败；重进游戏管理会重试", s)

end

end FoloGameboy
