/-
The `roms` partition as a device: a byte array of NOR Flash whose erases and writes may fail or be
cut, leaving anything in the sectors they address.
-/
import FoloGameboy.Lib.Crash
import FoloGameboy.Storage.Layout

namespace FoloGameboy

open Effect

/-- The size of the partition, and the SHA-256 of mbedtls. -/
structure Partition where
  size : UInt32
  sha256 : List UInt8 → Vector UInt8 32

abbrev Flash : Type := Nat → UInt8

/-! ## Operations -/

/-- What `gb_storage` asks of the platform: the partition, heap blocks, `esp_partition_*`, and the
SHA-256 of mbedtls, in one call or in parts. -/
inductive FlashOp where
  | findPartition
  | alloc
  | mmap (offset len : Nat)
  | read (offset len : Nat)
  | erase (offset len : Nat)
  | write (offset : Nat) (data : List UInt8)
  /-- A call of `mbedtls_sha256`, or of its `_starts`, `_update` or `_finish`, on these bytes. -/
  | sha256 (bytes : List UInt8)

/-- A read answers with a view of the bytes from its offset on. -/
abbrev FlashRes : FlashOp → Type
  | .read _ _ => Option (Nat → UInt8)
  | _ => Bool

abbrev StorageM : Type → Type := Prog FlashOp FlashRes

def partitionFind : StorageM Bool := Prog.op FlashOp.findPartition

/-- `malloc` and `calloc`. -/
def allocate : StorageM Bool := Prog.op FlashOp.alloc

def partitionMmap (offset len : Nat) : StorageM Bool := Prog.op (FlashOp.mmap offset len)

def partitionRead (offset len : Nat) : StorageM (Option (Nat → UInt8)) := Prog.op (FlashOp.read offset len)

def partitionErase (offset len : Nat) : StorageM Bool := Prog.op (FlashOp.erase offset len)

def partitionWrite (offset : Nat) (data : List UInt8) : StorageM Bool := Prog.op (FlashOp.write offset data)

section
variable (P : Partition)

/-- The digest, unless the hashing fails. -/
def mbedtlsSha256 (bytes : List UInt8) : StorageM (Option (Vector UInt8 32)) := do
  let ok ← Prog.op (FlashOp.sha256 bytes)
  pure (if ok then some (P.sha256 bytes) else none)

def mbedtlsSha256Starts : StorageM Bool := Prog.op (FlashOp.sha256 [])

def mbedtlsSha256Update (bytes : List UInt8) : StorageM Bool := Prog.op (FlashOp.sha256 bytes)

/-- The digest of all bytes that were added since the start. -/
def mbedtlsSha256Finish (bytes : List UInt8) : StorageM (Option (Vector UInt8 32)) := do
  let ok ← Prog.op (FlashOp.sha256 [])
  pure (if ok then some (P.sha256 bytes) else none)

end

/-- The argument checks of `esp_partition_*`. -/
def accepted (P : Partition) : FlashOp → Prop
  | .read offset len => offset + len ≤ P.size.toNat
  | .erase offset len => offset % 4096 = 0 ∧ len % 4096 = 0 ∧ offset + len ≤ P.size.toNat
  | .write offset data => offset + data.length ≤ P.size.toNat
  | _ => True

instance (P : Partition) : DecidablePred (accepted P)
  | .findPartition => inferInstanceAs (Decidable True)
  | .alloc => inferInstanceAs (Decidable True)
  | .mmap _ _ => inferInstanceAs (Decidable True)
  | .read offset len => inferInstanceAs (Decidable (offset + len ≤ P.size.toNat))
  | .erase offset len => inferInstanceAs (Decidable (offset % 4096 = 0 ∧ len % 4096 = 0 ∧ offset + len ≤ P.size.toNat))
  | .write offset data => inferInstanceAs (Decidable (offset + data.length ≤ P.size.toNat))
  | .sha256 _ => inferInstanceAs (Decidable True)

/-- The contents after a completed operation: an erase sets every bit, a write only clears bits. -/
def completed : FlashOp → Flash → Flash
  | .erase offset len, f => fun i => if offset ≤ i ∧ i < offset + len then 0xFF else f i
  | .write offset data, f => fun i =>
    if offset ≤ i ∧ i < offset + data.length then f i &&& data.getD (i - offset) 0 else f i
  | _, f => f

/-- Whether an operation addresses the sector of an offset. -/
def addressed : FlashOp → Nat → Prop
  | .erase offset len, i => offset ≤ i ∧ i < offset + len
  | .write offset data, i => offset / 4096 ≤ i / 4096 ∧ i / 4096 ≤ (offset + data.length - 1) / 4096
  | _, _ => False

/-- The answer of an operation that succeeds. -/
def success : (o : FlashOp) → Flash → FlashRes o
  | .findPartition, _ => true
  | .alloc, _ => true
  | .mmap _ _, _ => true
  | .read offset _, f => some fun i => f (offset + i)
  | .erase _ _, _ => true
  | .write _ _, _ => true
  | .sha256 _, _ => true

/-- The answer of an operation that fails. -/
def failure : (o : FlashOp) → FlashRes o
  | .findPartition => false
  | .alloc => false
  | .mmap _ _ => false
  | .read _ _ => none
  | .erase _ _ => false
  | .write _ _ => false
  | .sha256 _ => false

/-! ## The device -/

/-- What an operation that fails or is cut may leave: anything in the sectors it addresses, within
the assumption `torn` on the contents before it, after its completion and actually left. -/
structure Harmed (P : Partition) (torn : Flash → Flash → Flash → Prop) (o : FlashOp) (f f' : Flash) : Prop where
  accepted : accepted P o
  other : ∀ i, ¬ addressed o i → f' i = f i
  torn : torn f (completed o f) f'

/-- The partition under any failures and power cuts. -/
def flashDevice (P : Partition) (torn : Flash → Flash → Flash → Prop) : Device FlashOp FlashRes Flash where
  done o f r f' := (accepted P o ∧ r = success o f ∧ f' = completed o f) ∨
    (r = failure o ∧ (f' = f ∨ Harmed P torn o f f'))
  cut o f f' := f' = f ∨ Harmed P torn o f f'

/-- The partition while every operation succeeds that can. -/
def flashOk (P : Partition) (o : FlashOp) (f : Flash) : FlashRes o × Flash :=
  if accepted P o then (success o f, completed o f) else (failure o, f)

/-- No assumption on what is left. -/
abbrev anyTear : Flash → Flash → Flash → Prop := fun _ _ _ => True

theorem flashOk_done (P : Partition) (torn : Flash → Flash → Flash → Prop) (o : FlashOp) (f : Flash) :
    (flashDevice P torn).done o f (flashOk P o f).1 (flashOk P o f).2 := by
  unfold flashOk
  split
  · rename_i h
    exact .inl ⟨h, rfl, rfl⟩
  · exact .inr ⟨rfl, .inl rfl⟩

section
variable {P : Partition} {torn : Flash → Flash → Flash → Prop} {f f' : Flash}

/-- An operation leaves everything outside the sectors it addresses. -/
theorem completed_other (o : FlashOp) {i : Nat} (h : ¬ addressed o i) : completed o f i = f i := by
  cases o with
  | erase offset len => exact if_neg h
  | write offset data =>
    refine if_neg fun hi => h ?_
    unfold addressed
    constructor <;> exact Nat.div_le_div_right (by omega)
  | findPartition => rfl
  | alloc => rfl
  | mmap offset len => rfl
  | read offset len => rfl
  | sha256 bytes => rfl

theorem done_other {o : FlashOp} {r : FlashRes o} (h : (flashDevice P torn).done o f r f') {i : Nat}
    (hi : ¬ addressed o i) : f' i = f i := by
  rcases h with ⟨-, -, rfl⟩ | ⟨-, rfl | h⟩
  · exact completed_other o hi
  · rfl
  · exact h.other i hi

theorem cut_other {o : FlashOp} (h : (flashDevice P torn).cut o f f') {i : Nat}
    (hi : ¬ addressed o i) : f' i = f i := by
  rcases h with rfl | h
  · rfl
  · exact h.other i hi

theorem read_done {offset len : Nat} {r : Option (Nat → UInt8)}
    (h : (flashDevice P torn).done (.read offset len) f r f') :
    f' = f ∧ (r = none ∨ (offset + len ≤ P.size.toNat ∧ r = some fun i => f (offset + i))) := by
  rcases h with ⟨ha, rfl, rfl⟩ | ⟨rfl, rfl | h⟩
  · exact ⟨rfl, .inr ⟨ha, rfl⟩⟩
  · exact ⟨rfl, .inl rfl⟩
  · exact ⟨funext fun i => h.other i id, .inl rfl⟩

theorem erase_done {offset len : Nat} {r : Bool}
    (h : (flashDevice P torn).done (.erase offset len) f r f') :
    (r = true ∧ accepted P (.erase offset len) ∧ f' = completed (.erase offset len) f) ∨
      (r = false ∧ (f' = f ∨ Harmed P torn (.erase offset len) f f')) := by
  rcases h with ⟨ha, hr, hf⟩ | h
  · exact .inl ⟨hr, ha, hf⟩
  · exact .inr h

theorem write_done {offset : Nat} {data : List UInt8} {r : Bool}
    (h : (flashDevice P torn).done (.write offset data) f r f') :
    (r = true ∧ accepted P (.write offset data) ∧ f' = completed (.write offset data) f) ∨
      (r = false ∧ (f' = f ∨ Harmed P torn (.write offset data) f f')) := by
  rcases h with ⟨ha, hr, hf⟩ | h
  · exact .inl ⟨hr, ha, hf⟩
  · exact .inr h

theorem alloc_done {r : Bool} (h : (flashDevice P torn).done .alloc f r f') : f' = f :=
  funext fun _ => done_other h id

theorem findPartition_done {r : Bool} (h : (flashDevice P torn).done .findPartition f r f') : f' = f :=
  funext fun _ => done_other h id

theorem sha256_done {bytes : List UInt8} {r : Bool} (h : (flashDevice P torn).done (.sha256 bytes) f r f') : f' = f :=
  funext fun _ => done_other h id

theorem quiet_cut {o : FlashOp} (ho : ∀ i, ¬ addressed o i) (h : (flashDevice P torn).cut o f f') :
    f' = f :=
  funext fun i => cut_other h (ho i)

end

/-! ## When everything succeeds -/

/-- The answer says that the operation succeeded. -/
def Succeeds : (o : FlashOp) → FlashRes o → Prop
  | .findPartition, r => r = true
  | .alloc, r => r = true
  | .mmap _ _, r => r = true
  | .read _ _, r => r.isSome = true
  | .erase _ _, r => r = true
  | .write _ _, r => r = true
  | .sha256 _, r => r = true

/-- The partition in executions in which every operation succeeds. -/
def flashSucceeding (P : Partition) : Device FlashOp FlashRes Flash := (flashDevice P anyTear).answering Succeeds

section
variable {P : Partition} {f f' : Flash}

theorem succeeding_done {o : FlashOp} {r : FlashRes o} (h : (flashSucceeding P).done o f r f') :
    accepted P o ∧ r = success o f ∧ f' = completed o f := by
  obtain ⟨h | ⟨rfl, -⟩, hr⟩ := h
  · exact h
  · cases o with
    | read offset len => cases hr
    | findPartition => cases hr
    | alloc => cases hr
    | mmap offset len => cases hr
    | erase offset len => cases hr
    | write offset data => cases hr
    | sha256 bytes => cases hr

/-- What succeeds may happen on every device, whatever is left of what fails. -/
theorem flashSucceeding_refines (P : Partition) (torn : Flash → Flash → Flash → Prop) :
    (flashSucceeding P).Refines (flashDevice P torn) :=
  ⟨fun _ _ _ _ h => .inl (succeeding_done h), fun _ _ _ h => h.elim⟩

theorem flashSucceeding_done (P : Partition) (o : FlashOp) (f : Flash) (ha : accepted P o) :
    ∃ r f', (flashSucceeding P).done o f r f' := by
  refine ⟨success o f, completed o f, .inl ⟨ha, rfl, rfl⟩, ?_⟩
  cases o with
  | read offset len => exact rfl
  | findPartition => exact rfl
  | alloc => exact rfl
  | mmap offset len => exact rfl
  | erase offset len => exact rfl
  | write offset data => exact rfl
  | sha256 bytes => exact rfl

/-- An operation that succeeds, then the rest. -/
theorem succeeding_perform {α : Type} {o : FlashOp} {k : FlashRes o → StorageM α} {Q : α → Flash → Prop}
    (h : accepted P o → (k (success o f)).wp (flashSucceeding P) Q (fun _ => False) (completed o f)) :
    (Prog.op o >>= k).wp (flashSucceeding P) Q (fun _ => False) f := by
  refine Prog.wp_perform ?_ (fun _ hc => hc)
  intro r f' hd
  obtain ⟨ha, rfl, rfl⟩ := succeeding_done hd
  exact h ha

/-- A hash that succeeds, then the rest. -/
theorem succeeding_sha256 {α : Type} {bytes : List UInt8} {k : Option (Vector UInt8 32) → StorageM α}
    {Q : α → Flash → Prop} (h : (k (some (P.sha256 bytes))).wp (flashSucceeding P) Q (fun _ => False) f) :
    (mbedtlsSha256 P bytes >>= k).wp (flashSucceeding P) Q (fun _ => False) f := by
  refine ⟨?_, fun _ hc => hc⟩
  intro r f' hd
  obtain ⟨-, rfl, rfl⟩ := succeeding_done hd
  exact h

theorem succeeding_finish {α : Type} {bytes : List UInt8} {k : Option (Vector UInt8 32) → StorageM α}
    {Q : α → Flash → Prop} (h : (k (some (P.sha256 bytes))).wp (flashSucceeding P) Q (fun _ => False) f) :
    (mbedtlsSha256Finish P bytes >>= k).wp (flashSucceeding P) Q (fun _ => False) f := by
  refine ⟨?_, fun _ hc => hc⟩
  intro r f' hd
  obtain ⟨-, rfl, rfl⟩ := succeeding_done hd
  exact h

end

end FoloGameboy
