import BioShield.Machinery.Process
import BioShield.Machinery.BoundedMap

/-!
# Core/NicXdp — the packet filter (`src/core/nic_xdp.c`)

`xdp_deepfake_filter` is a program over the maps it shares with the other CPUs.  Each helper call
and each read through `block_count` is one call of the program.  A stored element is never deleted,
and the pointer is assumed to read whatever is stored for the source at that moment: the kernel's
`bpf_map_update_elem` puts a new element in the place of a hash map's old one, and what a pointer to
the old one reads after that is the kernel's affair.
-/

namespace BioShield

open Machinery

namespace NicXdp

/-- A byte of a frame, or the `__u8` stored in `block_map`. -/
abbrev Byte : Type := BitVec 8

/-- `saddr`, byte by byte. -/
structure SourceIp where
  a : Byte
  b : Byte
  c : Byte
  d : Byte
  deriving DecidableEq

/-- A frame from `data` to `data_end`, and the CPU that got it. -/
structure Packet where
  cpu : ℕ
  data : List Byte

/-- `XDP_PASS` and `XDP_DROP`. -/
inductive XdpAction
  | pass | drop
  deriving DecidableEq

/-- `DEEPFAKE_BLOCK_THRESHOLD`. -/
def blockThreshold : Byte := 5

/-! ## The maps -/

/-- The two per-CPU counters. -/
inductive Counter
  | packetCount | blockedCount
  deriving DecidableEq

/-- `block_map`, `packet_count_map` and `blocked_count_map`. -/
structure Maps where
  blockMap : BoundedMap SourceIp Byte 100000
  counters : Counter → ℕ → BitVec 64

/-- What the filter asks the kernel. -/
inductive Call
  /-- `bpf_map_lookup_elem(&block_map, …)`: whether the pointer is not null. -/
  | lookupBlock (srcIp : SourceIp)
  /-- `*block_count`, assumed to be what is stored at the moment of the read. -/
  | readBlockCount (srcIp : SourceIp)
  /-- `bpf_map_update_elem(&block_map, …, BPF_ANY)`, its return code ignored. -/
  | updateBlock (srcIp : SourceIp) (newCount : Byte)
  /-- `bpf_map_lookup_elem` of a counter's only entry. -/
  | lookupCounter (counter : Counter)
  /-- `__sync_fetch_and_add(…, 1)`. -/
  | fetchAndAdd (counter : Counter) (cpu : ℕ)
  deriving DecidableEq

/-- What the kernel answers. -/
abbrev Ret : Call → Type
  | .lookupBlock _ | .lookupCounter _ => Bool
  | .readBlockCount _ => Byte
  | .updateBlock _ _ | .fetchAndAdd _ _ => Unit

namespace Maps

/-- The count stored for a source, zero if there is none. -/
def count (w : Maps) (srcIp : SourceIp) : Byte := (w.blockMap.lookup srcIp).getD 0

/-- The maps after an update of `block_map`. -/
def updateBlock (w : Maps) (srcIp : SourceIp) (newCount : Byte) : Maps :=
  { w with blockMap := w.blockMap.update srcIp newCount }

/-- The maps after a counter went up. -/
def bump (w : Maps) (counter : Counter) (cpu : ℕ) : Maps :=
  { w with counters := fun c i =>
      if c = counter ∧ i = cpu then w.counters c i + 1 else w.counters c i }

/-- What the maps answer. -/
def answer (w : Maps) : (c : Call) → Ret c × Maps
  | .lookupBlock srcIp => ((w.blockMap.lookup srcIp).isSome, w)
  | .readBlockCount srcIp => (w.count srcIp, w)
  | .updateBlock srcIp newCount => ((), w.updateBlock srcIp newCount)
  | .lookupCounter _ => (true, w)
  | .fetchAndAdd counter cpu => ((), w.bump counter cpu)

@[simp] theorem blockMap_updateBlock (w : Maps) (srcIp : SourceIp) (newCount : Byte) :
    (w.updateBlock srcIp newCount).blockMap = w.blockMap.update srcIp newCount := rfl

theorem count_of_lookup {w : Maps} {srcIp : SourceIp} {c : Byte}
    (h : w.blockMap.lookup srcIp = some c) : w.count srcIp = c := by
  rw [count, h, Option.getD_some]

theorem count_of_none {w : Maps} {srcIp : SourceIp} (h : w.blockMap.lookup srcIp = none) :
    w.count srcIp = 0 := by
  rw [count, h, Option.getD_none]

section Update

variable (w : Maps) {srcIp : SourceIp} (n : Byte)

/-- An update changes the count of its own source only… -/
theorem count_updateBlock_of_ne {src : SourceIp} (hne : src ≠ srcIp) :
    (w.updateBlock srcIp n).count src = w.count src := by
  rw [count, blockMap_updateBlock, w.blockMap.lookup_update_of_ne _ _ hne, count]

/-- …to the count it writes, if the source is stored or there is room for it… -/
theorem count_updateBlock_self
    (h : (w.blockMap.lookup srcIp).isSome ∨ w.blockMap.size < 100000) :
    (w.updateBlock srcIp n).count srcIp = n :=
  count_of_lookup (w.blockMap.lookup_update_self srcIp n h)

/-- …and nothing at all otherwise. -/
theorem updateBlock_of_full (hnone : w.blockMap.lookup srcIp = none)
    (hfull : 100000 ≤ w.blockMap.size) : w.updateBlock srcIp n = w := by
  rw [updateBlock, w.blockMap.update_of_full _ _ hnone hfull]

end Update

end Maps

/-! ## The filter -/

/-- Calling a helper, or reading through the pointer it returned. -/
def helper (c : Call) : Prog Call Ret (Ret c) := .perform c

/-- The byte at an offset. -/
def byteAt (data : List Byte) (i : ℕ) : Byte := data.getD i 0

/-- The source of an IPv4/UDP frame with complete Ethernet and IP headers; the filter passes every
other frame. -/
def sourceIp (data : List Byte) : Option SourceIp :=
  if data.length < 14 then none
  else if ¬ (byteAt data 12 = 0x08 ∧ byteAt data 13 = 0x00) then none
  else if data.length < 34 then none
  else if byteAt data 23 ≠ 17 then none
  else some ⟨byteAt data 26, byteAt data 27, byteAt data 28, byteAt data 29⟩

/-- The loop over the payload: the bytes from index `i` on, with `n` rounds to go. -/
def lowVarianceLoop (first : Byte) : ℕ → List Byte → Bool
  | 0, _ => true
  | _, [] => true
  | n + 1, byte :: bytes => if byte ≠ first then false else lowVarianceLoop first n bytes

/-- `low_variance`, of the payload after the UDP header. -/
def lowVariance (data : List Byte) : Bool :=
  match data.drop 42 with
  | [] => true
  | first :: bytes => lowVarianceLoop first 7 bytes

/-- `block_count && *block_count >= DEEPFAKE_BLOCK_THRESHOLD`. -/
def isBlocked (srcIp : SourceIp) (blockCount : Bool) : Prog Call Ret Bool :=
  if blockCount then do
    let count ← helper (.readBlockCount srcIp)
    return blockThreshold ≤ count
  else return false

/-- `new_count`. -/
def newCount (srcIp : SourceIp) (blockCount : Bool) : Prog Call Ret Byte :=
  if blockCount then do
    let count ← helper (.readBlockCount srcIp)
    return count + 1
  else return 1

/-- Adding one to a counter. -/
def countPacket (counter : Counter) (cpu : ℕ) : Prog Call Ret Unit := do
  let entry ← helper (.lookupCounter counter)
  if entry then helper (.fetchAndAdd counter cpu) else return ()

/-- The filter from the blacklist check on. -/
def filterSource (p : Packet) (srcIp : SourceIp) : Prog Call Ret XdpAction := do
  let blockCount ← helper (.lookupBlock srcIp)
  let blocked ← isBlocked srcIp blockCount
  if blocked then do
    countPacket .blockedCount p.cpu
    return .drop
  else if p.data.length < 42 then return .pass
  else if lowVariance p.data then do
    let newCount ← newCount srcIp blockCount
    helper (.updateBlock srcIp newCount)
    return .drop
  else do
    countPacket .packetCount p.cpu
    return .pass

section Branches

variable {α : Type} (srcIp : SourceIp)

@[simp] theorem helper_eq (c : Call) : helper c = .call c .ret := rfl

/-- With no pointer there is nothing to read… -/
@[simp] theorem isBlocked_false : isBlocked srcIp false = .ret false := rfl

@[simp] theorem newCount_false : newCount srcIp false = .ret 1 := rfl

/-- …and with one, each of the two reads is a call. -/
@[simp] theorem isBlocked_true_bind (f : Bool → Prog Call Ret α) :
    (isBlocked srcIp true >>= f) =
      .call (.readBlockCount srcIp) fun count => f (blockThreshold ≤ count) := rfl

@[simp] theorem newCount_true_bind (f : Byte → Prog Call Ret α) :
    (newCount srcIp true >>= f) = .call (.readBlockCount srcIp) fun count => f (count + 1) := rfl

@[simp] theorem countPacket_bind (counter : Counter) (cpu : ℕ) (f : Unit → Prog Call Ret α) :
    (countPacket counter cpu >>= f) = .call (.lookupCounter counter) fun entry =>
      if entry then .call (.fetchAndAdd counter cpu) f else f () := by
  refine congrArg (Prog.call (Call.lookupCounter counter)) (funext fun entry => ?_)
  cases entry <;> rfl

end Branches

/-- `xdp_deepfake_filter`. -/
def xdpDeepfakeFilter (p : Packet) : Prog Call Ret XdpAction :=
  match sourceIp p.data with
  | none => return .pass
  | some srcIp => filterSource p srcIp

end NicXdp

end BioShield
