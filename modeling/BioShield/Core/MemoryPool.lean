import BioShield.Core.LockFreeQueue
import Mathlib

/-!
# Core/MemoryPool — the engine's block allocator (`core/memory_pool.cpp`)

`initialize` maps the pool and makes it one block; `allocate` rounds the size up to eight bytes and
takes the best fitting free block *whole*, `deallocate` gives a block back and merges.  No block is
ever split, so the first block is the only one there is: the pool holds one allocation at a time
(`Shape`), and whoever got a pointer can free it (`exists_step_deallocate`).

All sizes are `size_t`, and two computations on them can wrap: the round-up, and the subtraction of
the header when the first block is made.  `along_backed_iff` says when what is handed out lies in
the pool, and `serves_iff` that requests the pool has room for are served one at a time.
-/

namespace BioShield

open Machinery

/-- A block header, and the address it lies at; the `next` pointers are the order of the list the
block is in. -/
structure Block where
  addr : SizeT
  size : SizeT
  used : Bool
  data : SizeT
  deriving DecidableEq

/-- `sizeof(Block)`. -/
def sizeofBlock : SizeT := 32

/-- `SIZE_MAX`. -/
def sizeMax : SizeT := BitVec.allOnes 64

/-- `MAP_FAILED`, the pointer `-1`. -/
def mapFailed : SizeT := BitVec.allOnes 64

/-- The statics of `MemoryPool`. -/
structure MemoryPool where
  sPool : SizeT
  sPoolSize : SizeT
  sUsedBytes : SizeT
  sFreeList : List Block
  sInitialized : Bool
  deriving DecidableEq

namespace MemoryPool

/-- The statics as the program starts. -/
def fresh : MemoryPool := ⟨0, 0, 0, [], false⟩

/-- `init_free_list`: the whole pool becomes one block. -/
def initFreeList (pool : MemoryPool) : MemoryPool :=
  { pool with
    sFreeList := [{
      addr := pool.sPool
      size := pool.sPoolSize - sizeofBlock
      used := false
      data := pool.sPool + sizeofBlock }] }

/-- `MemoryPool::initialize`. -/
def initializePool (mmap : SizeT → SizeT) (poolSizeBytes : SizeT) (pool : MemoryPool) :
    MemoryPool :=
  if pool.sInitialized then pool
  else if mmap poolSizeBytes = mapFailed then { pool with sPool := mapFailed }
  else
    initFreeList { pool with
      sPool := mmap poolSizeBytes
      sPoolSize := poolSizeBytes
      sUsedBytes := 0
      sInitialized := true }

/-- `(size + 7) & ~7`; the mask is an `int`, sign-extended. -/
def roundUp (size : SizeT) : SizeT := (size + 7) &&& ~~~(7 : SizeT)

/-- One round of the loop of `find_free_block`, on `(best, best_size)`. -/
def betterFit (size : SizeT) (best : Option Block × SizeT) (current : Block) :
    Option Block × SizeT :=
  if !current.used ∧ current.size ≥ size ∧ current.size < best.2 then (some current, current.size)
  else best

/-- `find_free_block`: the smallest free block that is large enough, the first of equals. -/
def findFreeBlock (pool : MemoryPool) (size : SizeT) : Option Block :=
  (pool.sFreeList.foldl (betterFit size) (none, sizeMax)).1

/-- `block->used = used`. -/
def setUsed (addr : SizeT) (used : Bool) (blocks : List Block) : List Block :=
  blocks.map fun block => if block.addr = addr then { block with used := used } else block

/-- `allocate`; the null pointer is 0. -/
def allocate (pool : MemoryPool) (size : SizeT) : MemoryPool × SizeT :=
  if !pool.sInitialized then (pool, 0)
  else
    match pool.findFreeBlock (roundUp size) with
    | none => (pool, 0)
    | some block =>
      ({ pool with
          sFreeList := setUsed block.addr true pool.sFreeList
          sUsedBytes := pool.sUsedBytes + block.size },
        block.data)

/-- The loop of `merge_free_blocks` at `current`, with the blocks after it: a merge stays at
`current`, else the loop moves on. -/
def mergeFrom (current : Block) : List Block → List Block
  | [] => [current]
  | next :: rest =>
      if !current.used ∧ !next.used ∧ current.data + current.size = next.data then
        mergeFrom { current with size := current.size + (sizeofBlock + next.size) } rest
      else current :: mergeFrom next rest

/-- `merge_free_blocks`. -/
def mergeFreeBlocks : List Block → List Block
  | [] => []
  | current :: rest => mergeFrom current rest

/-- `deallocate`; `none` when there is no block header before `ptr`. -/
def deallocate (pool : MemoryPool) (ptr : SizeT) : Option MemoryPool :=
  if ptr = 0 ∨ !pool.sInitialized then some pool
  else
    (pool.sFreeList.find? fun block => block.addr = ptr - sizeofBlock).map fun block =>
      { pool with
        sFreeList := mergeFreeBlocks (setUsed block.addr false pool.sFreeList)
        sUsedBytes := pool.sUsedBytes - block.size }

/-! ## The pool and its callers -/

/-- The addresses of `n` bytes from `p` on. -/
def range (p n : SizeT) : Set ℕ := Set.Ico p.toNat (p.toNat + n.toNat)

/-- The pool, and the pointers handed out and not yet freed with the sizes asked for. -/
structure Heap where
  pool : MemoryPool
  live : List (SizeT × SizeT)

/-- What the callers do. -/
inductive Call
  | allocate (n : SizeT)
  | deallocate (ptr : SizeT)

/-- The calls, one after the other; only a live pointer is freed. -/
def heap : Machine Heap Call SizeT where
  step s
    | .allocate n =>
      let r := s.pool.allocate n
      some (⟨r.1, if r.2 = 0 then s.live else (r.2, n) :: s.live⟩, [r.2])
    | .deallocate ptr =>
      if ptr ∈ s.live.map Prod.fst then
        (s.pool.deallocate ptr).map fun pool => (⟨pool, s.live.filter fun a => a.1 ≠ ptr⟩, [])
      else none

/-- The heap once the pool is mapped. -/
def Heap.start (mmap : SizeT → SizeT) (poolSizeBytes : SizeT) : Heap :=
  ⟨initializePool mmap poolSizeBytes fresh, []⟩

/-- **What `mmap` promises**: where it succeeds, the mapping begins a page. -/
def MapsPages (mmap : SizeT → SizeT) : Prop :=
  ∀ n, mmap n ≠ mapFailed → (mmap n).toNat % 4096 = 0

/-- **Backed by the pool**: a pointer that `allocate` returns begins a range in the pool, apart from
every live one. -/
def Backed (s : Heap) : Call → Prop
  | .allocate n =>
    let ptr := (s.pool.allocate n).2
    ptr ≠ 0 → range ptr n ⊆ range s.pool.sPool s.pool.sPoolSize ∧
      ∀ a ∈ s.live, Disjoint (range ptr n) (range a.1 a.2)
  | .deallocate _ => True

/-- **When a call is safe**: the pool is taken, or nothing is asked for, or neither computation
wraps; where the header is longer than the pool, the wrapped size must be `SIZE_MAX`, which the
search never accepts, or still too small. -/
def Safe (s : Heap) : Call → Prop
  | .allocate n =>
    s.live ≠ [] ∨ n = 0 ∨
      (sizeofBlock ≤ s.pool.sPoolSize ∧ n.toNat + 7 < 2 ^ 64) ∨
      (s.pool.sPoolSize < sizeofBlock ∧
        (s.pool.sPoolSize - sizeofBlock = sizeMax ∨
          s.pool.sPoolSize - sizeofBlock < roundUp n))
  | .deallocate _ => True

/-! ## One block -/

/-- The one block of a pool of `size` bytes mapped at `base`. -/
def firstBlock (base size : SizeT) (used : Bool) : Block where
  addr := base
  size := size - sizeofBlock
  used := used
  data := base + sizeofBlock

/-- The free block passes the test of `find_free_block` for a request of `n` bytes: it is large
enough, and smaller than the `SIZE_MAX` the search starts from. -/
def Accepts (size n : SizeT) : Prop :=
  roundUp n ≤ size - sizeofBlock ∧ size - sizeofBlock < sizeMax

/-- **The shapes of a heap**: one block, free or handed out. -/
inductive Shape (base size : SizeT) : Heap → Prop
  | free : Shape base size ⟨⟨base, size, 0, [firstBlock base size false], true⟩, []⟩
  | taken (n : SizeT) : Shape base size
      ⟨⟨base, size, size - sizeofBlock, [firstBlock base size true], true⟩,
        [(base + sizeofBlock, n)]⟩

section Pool

variable {mmap : SizeT → SizeT} {base size n : SizeT}

theorem shape_start (hmap : mmap size ≠ mapFailed) :
    Shape (mmap size) size (.start mmap size) := by
  have hstart : Heap.start mmap size =
      ⟨⟨mmap size, size, 0, [firstBlock (mmap size) size false], true⟩, []⟩ := by
    simp [Heap.start, initializePool, fresh, hmap, initFreeList, firstBlock]
  rw [hstart]
  exact .free

/-- The free block is taken if it accepts the request… -/
theorem allocate_of_accepts (h : Accepts size n) :
    allocate ⟨base, size, 0, [firstBlock base size false], true⟩ n =
      (⟨base, size, size - sizeofBlock, [firstBlock base size true], true⟩,
        base + sizeofBlock) := by
  simp [allocate, findFreeBlock, betterFit, firstBlock, setUsed, h.1, h.2]

/-- …and nothing happens if not. -/
theorem allocate_of_not_accepts (h : ¬ Accepts size n) :
    allocate ⟨base, size, 0, [firstBlock base size false], true⟩ n =
      (⟨base, size, 0, [firstBlock base size false], true⟩, 0) := by
  rw [Accepts] at h
  simp [allocate, findFreeBlock, betterFit, firstBlock, h]

/-- A block in use is never found. -/
theorem allocate_taken {used : SizeT} :
    allocate ⟨base, size, used, [firstBlock base size true], true⟩ n =
      (⟨base, size, used, [firstBlock base size true], true⟩, 0) := by
  simp [allocate, findFreeBlock, betterFit, firstBlock]

/-- Freeing the block restores the pool. -/
theorem deallocate_taken (hptr : base + sizeofBlock ≠ 0) :
    deallocate ⟨base, size, size - sizeofBlock, [firstBlock base size true], true⟩
      (base + sizeofBlock) = some ⟨base, size, 0, [firstBlock base size false], true⟩ := by
  have haddr : base = base + sizeofBlock - sizeofBlock := (BitVec.add_sub_cancel _ _).symm
  rw [deallocate, if_neg (by simpa using hptr)]
  simp [firstBlock, setUsed, mergeFreeBlocks, mergeFrom, ← haddr]

/-- Whole pages leave room for a header: its end does not wrap. -/
theorem MapsPages.toNat_add_sizeofBlock (h : MapsPages mmap) (hmap : mmap size ≠ mapFailed) :
    (mmap size + sizeofBlock).toNat = (mmap size).toNat + 32 := by
  have haligned := h size hmap
  have hlt := (mmap size).isLt
  simp only [sizeofBlock, BitVec.toNat_add, BitVec.reduceToNat]
  omega

theorem MapsPages.add_sizeofBlock_ne_zero (h : MapsPages mmap) (hmap : mmap size ≠ mapFailed) :
    mmap size + sizeofBlock ≠ 0 := by
  intro hzero
  have hnat := h.toNat_add_sizeofBlock hmap
  have hzero' : (0 : SizeT).toNat = 0 := rfl
  rw [hzero, hzero'] at hnat
  omega

/-- **No call leaves the shapes**: the block is never split, so merging finds nothing to do. -/
theorem Shape.step (hptr : base + sizeofBlock ≠ 0) {s s' : Heap} {e : Call} {o : List SizeT}
    (h : Shape base size s) (hs : heap.step s e = some (s', o)) : Shape base size s' := by
  cases e with
  | allocate m =>
    obtain ⟨rfl, -⟩ := Prod.mk.inj (Option.some.inj hs)
    cases h with
    | free =>
      by_cases hfit : Accepts size m
      · rw [allocate_of_accepts hfit, if_neg hptr]
        exact .taken m
      · rw [allocate_of_not_accepts hfit, if_pos rfl]
        exact .free
    | taken k =>
      rw [allocate_taken, if_pos rfl]
      exact .taken k
  | deallocate ptr =>
    cases h with
    | free => simp [heap] at hs
    | taken k =>
      by_cases heq : ptr = base + sizeofBlock
      · subst heq
        simp only [heap, List.map_cons, List.map_nil, List.mem_singleton, if_true,
          deallocate_taken hptr, Option.map_some, Option.some.injEq, Prod.mk.injEq] at hs
        obtain ⟨rfl, -⟩ := hs
        simpa using Shape.free
      · simp [heap, heq] at hs

theorem shape_of_run (h : MapsPages mmap) (hmap : mmap size ≠ mapFailed) {es : List Call}
    {s : Heap} {os : List SizeT} (hrun : heap.run (.start mmap size) es = some (s, os)) :
    Shape (mmap size) size s :=
  heap.run_invariant (I := fun s _ => Shape (mmap size) size s)
    (fun _ _ _ _ _ hs => hs.step (h.add_sizeofBlock_ne_zero hmap)) (shape_start hmap) hrun

/-- **A live pointer can always be freed**: its header is one of the list. -/
theorem exists_step_deallocate (h : MapsPages mmap) (hmap : mmap size ≠ mapFailed)
    {es : List Call} {s : Heap} {os : List SizeT}
    (hrun : heap.run (.start mmap size) es = some (s, os)) {ptr : SizeT}
    (hlive : ptr ∈ s.live.map Prod.fst) : ∃ s', heap.step s (.deallocate ptr) = some (s', []) := by
  cases shape_of_run h hmap hrun with
  | free => simp at hlive
  | taken k =>
    obtain rfl : ptr = mmap size + sizeofBlock := by simpa using hlive
    refine ⟨⟨⟨mmap size, size, 0, [firstBlock (mmap size) size false], true⟩, []⟩, ?_⟩
    simp only [heap, if_pos hlive, deallocate_taken (h.add_sizeofBlock_ne_zero hmap),
      Option.map_some]
    simp

/-! ## What is handed out -/

/-- Clearing the low bits is a shift there and back. -/
theorem and_not_seven (n : SizeT) : n &&& ~~~(7 : SizeT) = (n >>> 3) <<< 3 := by
  have hseven : ∀ i (hi : i < 64), (7 : SizeT)[i] = decide (i < 3) := by decide
  ext i hi
  rw [BitVec.getElem_and, BitVec.getElem_not, hseven i hi, BitVec.getElem_shiftLeft]
  by_cases h : i < 3
  · simp [h]
  · simp [h, show 3 + (i - 3) = i by omega, BitVec.getLsbD_eq_getElem hi]

theorem toNat_roundUp (n : SizeT) : (roundUp n).toNat = (n + 7).toNat / 8 * 8 := by
  have hlt := (n + 7).isLt
  rw [roundUp, and_not_seven, BitVec.toNat_shiftLeft, BitVec.toNat_ushiftRight,
    Nat.shiftRight_eq_div_pow, Nat.shiftLeft_eq]
  omega

/-- The round-up is one, where it does not wrap… -/
theorem le_toNat_roundUp (hn : n.toNat + 7 < 2 ^ 64) : n.toNat ≤ (roundUp n).toNat := by
  have hseven : (7 : SizeT).toNat = 7 := rfl
  rw [toNat_roundUp, BitVec.toNat_add, hseven, Nat.mod_eq_of_lt hn]
  omega

/-- …and where it does, it is zero. -/
theorem roundUp_eq_zero (hn : 2 ^ 64 ≤ n.toNat + 7) : roundUp n = 0 := by
  have hlt := n.isLt
  refine BitVec.eq_of_toNat_eq ?_
  have hseven : (7 : SizeT).toNat = 7 := rfl
  have hzero : (0 : SizeT).toNat = 0 := rfl
  rw [toNat_roundUp, BitVec.toNat_add, hseven, hzero]
  omega

/-- A request is refused when the block is too small, or of size `SIZE_MAX`. -/
theorem not_accepts_iff :
    ¬ Accepts size n ↔ size - sizeofBlock = sizeMax ∨ size - sizeofBlock < roundUp n := by
  have hmax : size - sizeofBlock < sizeMax ↔ size - sizeofBlock ≠ sizeMax := BitVec.lt_allOnes_iff
  rw [Accepts, hmax, not_and_or, not_not, BitVec.not_le, or_comm]

section Header

variable (hheader : sizeofBlock ≤ size)
include hheader

theorem toNat_sub_sizeofBlock : (size - sizeofBlock).toNat + 32 = size.toNat := by
  have hle : 32 ≤ size.toNat := BitVec.le_def.mp hheader
  have hsub : (size - sizeofBlock).toNat = size.toNat - 32 := BitVec.toNat_sub_of_le hheader
  omega

/-- The rest of the pool takes what it is asked for… -/
theorem Accepts.le (h : Accepts size n) (hn : n.toNat + 7 < 2 ^ 64) :
    32 + n.toNat ≤ size.toNat := by
  have hsub := toNat_sub_sizeofBlock hheader
  have hround := le_toNat_roundUp hn
  have hfit := BitVec.le_def.mp h.1
  omega

/-- …and accepts a request that rounds to zero. -/
theorem accepts_of_wrap (hn : 2 ^ 64 ≤ n.toNat + 7) : Accepts size n := by
  have hsub := toNat_sub_sizeofBlock hheader
  have hlt := size.isLt
  have hmax : sizeMax.toNat = 2 ^ 64 - 1 := rfl
  exact ⟨roundUp_eq_zero hn ▸ Nat.zero_le _, BitVec.lt_def.mpr (by omega)⟩

end Header

/-- **A free block is handed out within the pool**, if it is, exactly for the safe sizes. -/
theorem within_iff (h : MapsPages mmap) (hmap : mmap size ≠ mapFailed) :
    (Accepts size n → range (mmap size + sizeofBlock) n ⊆ range (mmap size) size) ↔
      n = 0 ∨ (sizeofBlock ≤ size ∧ n.toNat + 7 < 2 ^ 64) ∨
        (size < sizeofBlock ∧ (size - sizeofBlock = sizeMax ∨ size - sizeofBlock < roundUp n)) := by
  have hptr := h.toNat_add_sizeofBlock hmap
  by_cases hzero : n = 0
  · subst hzero
    simp [range]
  have hpos : 0 < n.toNat := by bv_omega
  have hsubset : range (mmap size + sizeofBlock) n ⊆ range (mmap size) size ↔
      32 + n.toNat ≤ size.toNat := by
    rw [range, range, Set.Ico_subset_Ico_iff (by omega)]
    omega
  rw [hsubset, or_iff_right hzero]
  by_cases hheader : sizeofBlock ≤ size
  · rw [or_iff_left fun hs => BitVec.not_lt.mpr hheader hs.1, and_iff_right hheader]
    refine ⟨fun hfit => ?_, fun hn hacc => hacc.le hheader hn⟩
    by_contra hwrap
    have hlt := size.isLt
    have hle := hfit (accepts_of_wrap hheader (not_lt.mp hwrap))
    omega
  · have hshort : size < sizeofBlock := BitVec.not_le.mp hheader
    have hlt : size.toNat < 32 := BitVec.lt_def.mp hshort
    have hout : ¬ 32 + n.toNat ≤ size.toNat := by omega
    rw [or_iff_right fun hs => hheader hs.1, and_iff_right hshort, ← not_accepts_iff]
    exact ⟨fun hfit hacc => hout (hfit hacc), fun hrefuse hacc => absurd hacc hrefuse⟩

/-- Under a shape, a call is backed exactly if it is safe. -/
theorem Shape.backed_iff_safe (h : MapsPages mmap) (hmap : mmap size ≠ mapFailed) {s : Heap}
    {e : Call} (hs : Shape (mmap size) size s) : Backed s e ↔ Safe s e := by
  have hptr := h.add_sizeofBlock_ne_zero hmap
  cases e with
  | deallocate ptr => exact Iff.rfl
  | allocate n =>
    cases hs with
    | taken k => simp [Backed, Safe, allocate_taken]
    | free =>
      have hne : ¬ (([] : List (SizeT × SizeT)) ≠ []) := fun hne => hne rfl
      rw [Safe, or_iff_right hne, ← within_iff h hmap, Backed]
      by_cases hfit : Accepts size n
      · rw [allocate_of_accepts hfit]
        exact ⟨fun hb _ => (hb hptr).1, fun hw _ => ⟨hw hfit, fun a ha => absurd ha (by simp)⟩⟩
      · rw [allocate_of_not_accepts hfit]
        exact iff_of_true (fun hzero => absurd rfl hzero) fun hacc => absurd hacc hfit

/-- **When the pool backs what it hands out**: in every run of calls on a mapped pool, each
`allocate` is backed if and only if each is safe. -/
theorem along_backed_iff (h : MapsPages mmap) (hmap : mmap size ≠ mapFailed) {es : List Call}
    {s : Heap} {os : List SizeT} (hrun : heap.run (.start mmap size) es = some (s, os)) :
    heap.Along Backed (.start mmap size) es ↔ heap.Along Safe (.start mmap size) es :=
  heap.along_iff (I := Shape (mmap size) size)
    (fun _ _ _ _ hs => hs.step (h.add_sizeofBlock_ne_zero hmap))
    (fun _ _ _ _ hs _ => hs.backed_iff_safe h hmap) (shape_start hmap) hrun

/-! ## Allocations without a free -/

/-- What a request needs of a pool that is divided: its size rounded up to eight bytes, and a
header. -/
def room (n : SizeT) : ℕ := (n.toNat + 7) / 8 * 8 + 32

/-- **The requests are served**, one after the other: none returns the null pointer. -/
def Serves (s : Heap) (sizes : List SizeT) : Prop :=
  ∃ s' ptrs, heap.run s (sizes.map .allocate) = some (s', ptrs) ∧ ∀ ptr ∈ ptrs, ptr ≠ 0

/-- Initializing forgets what the statics were. -/
theorem initializePool_eq {pool : MemoryPool} (hinit : pool.sInitialized = false)
    (hmap : mmap size ≠ mapFailed) :
    initializePool mmap size pool =
      ⟨mmap size, size, 0, [firstBlock (mmap size) size false], true⟩ := by
  simp [initializePool, hinit, hmap, initFreeList, firstBlock]

/-- A request there is room for is accepted. -/
theorem accepts_of_room (h : room n ≤ size.toNat) : Accepts size n := by
  have hlt := size.isLt
  have hroom : (n.toNat + 7) / 8 * 8 + 32 ≤ size.toNat := h
  have hheader : sizeofBlock ≤ size := BitVec.le_def.mpr (show 32 ≤ size.toNat by omega)
  have hsub := toNat_sub_sizeofBlock hheader
  have hseven : (7 : SizeT).toNat = 7 := rfl
  have hround : (roundUp n).toNat = (n.toNat + 7) / 8 * 8 := by
    rw [toNat_roundUp, BitVec.toNat_add, hseven, Nat.mod_eq_of_lt (by omega)]
  have hmax : sizeMax.toNat = 2 ^ 64 - 1 := rfl
  exact ⟨BitVec.le_def.mpr (by omega), BitVec.lt_def.mpr (by omega)⟩

/-- The first request takes the block… -/
theorem step_allocate_free (hptr : base + sizeofBlock ≠ 0) (h : Accepts size n) :
    heap.step ⟨⟨base, size, 0, [firstBlock base size false], true⟩, []⟩ (.allocate n) =
      some (⟨⟨base, size, size - sizeofBlock, [firstBlock base size true], true⟩,
        [(base + sizeofBlock, n)]⟩, [base + sizeofBlock]) := by
  simp only [heap, allocate_of_accepts h, if_neg hptr]

/-- …and the next gets the null pointer, whatever is left of it. -/
theorem step_allocate_taken {used : SizeT} {live : List (SizeT × SizeT)} :
    heap.step ⟨⟨base, size, used, [firstBlock base size true], true⟩, live⟩ (.allocate n) =
      some (⟨⟨base, size, used, [firstBlock base size true], true⟩, live⟩, [0]) := by
  simp only [heap, allocate_taken, if_pos]

/-- **When a mapped pool serves what it has room for**: one request. -/
theorem serves_iff (h : MapsPages mmap) (hmap : mmap size ≠ mapFailed) {pool : MemoryPool}
    (hinit : pool.sInitialized = false) {sizes : List SizeT}
    (hroom : (sizes.map room).sum ≤ size.toNat) :
    Serves ⟨initializePool mmap size pool, []⟩ sizes ↔ sizes.length ≤ 1 := by
  have hptr := h.add_sizeofBlock_ne_zero hmap
  rw [initializePool_eq hinit hmap]
  match sizes with
  | [] => exact iff_of_true ⟨_, [], rfl, by simp⟩ (Nat.zero_le 1)
  | [n] =>
    have hfirst := step_allocate_free hptr (accepts_of_room (by simpa using hroom))
    exact iff_of_true ⟨_, _, heap.run_singleton hfirst, by simpa using hptr⟩ le_rfl
  | n :: m :: ns =>
    refine iff_of_false ?_ (by simp)
    rintro ⟨s', ptrs, hrun, hserved⟩
    have hmem : room n ∈ (n :: m :: ns).map room := List.mem_map_of_mem List.mem_cons_self
    have hfirst := step_allocate_free hptr
      (accepts_of_room ((List.le_sum_of_mem hmem).trans hroom))
    obtain ⟨s₁, o₁, o₂, hs₁, hrun₁, rfl⟩ := heap.run_cons_iff.mp hrun
    obtain ⟨rfl, rfl⟩ := Prod.mk.inj (Option.some.inj (hfirst.symm.trans hs₁))
    obtain ⟨s₂, o₃, o₄, hs₂, -, rfl⟩ := heap.run_cons_iff.mp hrun₁
    obtain ⟨rfl, rfl⟩ := Prod.mk.inj (Option.some.inj (step_allocate_taken.symm.trans hs₂))
    exact hserved 0 (by simp) rfl

end Pool

/-! ## A pool of one page -/

/-- A kernel that maps a page and nothing else. -/
def onePage (n : SizeT) : SizeT := if n = 4096 then 0x10000 else mapFailed

theorem mapsPages_onePage : MapsPages onePage := by
  intro n hn
  obtain rfl : n = 4096 := by
    by_contra hne
    exact hn (if_neg hne)
  decide

/-- An allocation, a refused one, and again an allocation after the first is freed. -/
def reuse : List Call := [.allocate 100, .allocate 8, .deallocate 0x10020, .allocate 4064]

theorem along_backed_reuse :
    (∃ s, heap.run (.start onePage 4096) reuse = some (s, [0x10020, 0, 0x10020])) ∧
      heap.Along Backed (.start onePage 4096) reuse := by
  have hrun : heap.run (.start onePage 4096) reuse = some
      (⟨⟨0x10000, 4096, 4064, [firstBlock 0x10000 4096 true], true⟩, [(0x10020, 4064)]⟩,
        [0x10020, 0, 0x10020]) := rfl
  refine ⟨⟨_, hrun⟩, (along_backed_iff mapsPages_onePage (by decide) hrun).mpr ?_⟩
  -- the two that find the block free fit into a page; the other finds it taken
  refine heap.along_cons rfl (.inr (.inr (.inl ⟨by decide, by decide⟩))) ?_
  refine heap.along_cons rfl (.inl (List.cons_ne_nil _ _)) ?_
  refine heap.along_cons rfl trivial ?_
  exact heap.along_cons rfl (.inr (.inr (.inl ⟨by decide, by decide⟩))) (heap.along_nil _ _)

/-- **Not everything handed out is backed**: a request for `SIZE_MAX` bytes rounds to zero, and the
pool hands out its block. -/
theorem not_forall_along_backed :
    ¬ ∀ (mmap : SizeT → SizeT) (size : SizeT) (es : List Call) (s : Heap) (os : List SizeT),
      MapsPages mmap → mmap size ≠ mapFailed → heap.run (.start mmap size) es = some (s, os) →
        heap.Along Backed (.start mmap size) es := by
  intro h
  have hbacked := (h onePage 4096 [.allocate sizeMax] _ _ mapsPages_onePage (by decide) rfl).1
  have hin := (hbacked (by decide)).1
  have hmem : 0x11000 ∈ range 0x10020 sizeMax := ⟨by decide, by decide⟩
  exact absurd (hin hmem).2 (by decide)

/-- A request is served. -/
theorem serves_one : Serves ⟨initializePool onePage 4096 fresh, []⟩ [100] :=
  (serves_iff mapsPages_onePage (by decide) rfl (by decide)).mpr (by decide)

/-- **Not everything there is room for is served**: of two requests for eight bytes, the second
gets nothing from a pool of a page. -/
theorem not_forall_serves :
    ¬ ∀ (mmap : SizeT → SizeT) (size : SizeT) (pool : MemoryPool) (sizes : List SizeT),
      MapsPages mmap → mmap size ≠ mapFailed → pool.sInitialized = false →
        (sizes.map room).sum ≤ size.toNat →
        Serves ⟨initializePool mmap size pool, []⟩ sizes := by
  intro h
  obtain ⟨s', ptrs, hrun, hserved⟩ :=
    h onePage 4096 fresh [8, 8] mapsPages_onePage (by decide) rfl (by decide)
  have htwo : heap.run ⟨initializePool onePage 4096 fresh, []⟩ ([8, 8].map .allocate) = some
      (⟨⟨0x10000, 4096, 4064, [firstBlock 0x10000 4096 true], true⟩, [(0x10020, 8)]⟩,
        [0x10020, 0]) := rfl
  obtain ⟨-, rfl⟩ := Prod.mk.inj (Option.some.inj (htwo.symm.trans hrun))
  exact hserved 0 (by simp) rfl

end MemoryPool

end BioShield
