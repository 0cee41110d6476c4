import BioShield.Core.MemoryPool
import BioShield.Machinery.Tiling

/-!
# Core/MemoryTiling — the block list as a tiling of the pool (`core/memory_pool.cpp`)

Whatever the blocks of a list are, used or free, `allocate` and `deallocate` change a flag and
nothing else: `allocate` sets the flag of a best fitting block (`allocate_cases`), `deallocate`
clears one (`deallocate_eq`).  The merge that should follow compares the end of a block's data with
the *data* of the next, not with its header, so in a list that tiles the pool it never merges
(`mergeFreeBlocks_eq`).  Two free neighbours stay two blocks, and `meets_iff` says when there are
any.
-/

namespace BioShield

open Machinery

namespace Block

/-- The address of a block's header. -/
def start (block : Block) : ℕ := block.addr.toNat

/-- The length of a block with its header. -/
def extent (block : Block) : ℕ := 32 + block.size.toNat

/-- The end of a block's data. -/
def stop (block : Block) : ℕ := block.start + block.extent

end Block

namespace MemoryPool

/-- The sizes of the used blocks, added up. -/
def usedSizes (blocks : List Block) : ℕ :=
  ((blocks.filter Block.used).map fun block => block.size.toNat).sum

/-- **A well-formed block list**, of a pool that is initialized and ends at an address: each block's
data follows its header, the blocks with their headers tile the pool in the order of the list, and
the sizes of those in use are counted. -/
structure WellFormed (pool : MemoryPool) : Prop where
  initialized : pool.sInitialized = true
  inMemory : pool.sPool.toNat + pool.sPoolSize.toNat < 2 ^ 64
  data : ∀ block ∈ pool.sFreeList, block.data = block.addr + sizeofBlock
  tiles : Tiles Block.start Block.extent pool.sPool.toNat
    (pool.sPool.toNat + pool.sPoolSize.toNat) pool.sFreeList
  usedBytes : pool.sUsedBytes.toNat = usedSizes pool.sFreeList

/-- A free block that is at least as large as the request rounded up to eight bytes. -/
def Fits (n : SizeT) (block : Block) : Prop :=
  block.used = false ∧ (n.toNat + 7) / 8 * 8 ≤ block.size.toNat

/-- **What `allocate` is to do**: mark one block, a smallest of those that fit, or return null and
change nothing, if none does. -/
inductive Allocates (pool : MemoryPool) (n : SizeT) : Prop
  | marks (pre post : List Block) (block : Block) (hlist : pool.sFreeList = pre ++ block :: post)
      (hfits : Fits n block) (hbest : ∀ other ∈ pool.sFreeList, Fits n other →
        block.size ≤ other.size)
      (hdata : block.data ≠ 0)
      (heq : pool.allocate n =
        ({ pool with
            sFreeList := pre ++ { block with used := true } :: post
            sUsedBytes := pool.sUsedBytes + block.size },
          block.data))
  | refuses (hnone : ∀ block ∈ pool.sFreeList, ¬ Fits n block) (heq : pool.allocate n = (pool, 0))

/-- **What `deallocate` is to leave behind**: a well-formed list with the other used blocks in it,
the count without the block, and no two free blocks side by side. -/
structure Deallocates (pool : MemoryPool) (ptr : SizeT) (pool' : MemoryPool) : Prop where
  wellFormed : pool'.WellFormed
  keeps : ∀ other ∈ pool.sFreeList, other.used → other.data ≠ ptr → other ∈ pool'.sFreeList
  usedBytes : ∀ block ∈ pool.sFreeList, block.data = ptr →
    pool'.sUsedBytes.toNat + block.size.toNat = pool.sUsedBytes.toNat
  coalesced : ∀ block ∈ pool'.sFreeList, ∀ next ∈ pool'.sFreeList, block.used = false →
    next.used = false → block.stop ≠ next.start

/-- A request that can be rounded up, or the data of a used block. -/
def Admissible (pool : MemoryPool) : Call → Prop
  | .allocate n => n.toNat + 7 < 2 ^ 64
  | .deallocate ptr => ∃ block ∈ pool.sFreeList, block.used ∧ block.data = ptr

/-- **A call does what it is for**. -/
def Meets (pool : MemoryPool) : Call → Prop
  | .allocate n => (pool.allocate n).1.WellFormed ∧ Allocates pool n
  | .deallocate ptr => ∃ pool', pool.deallocate ptr = some pool' ∧ Deallocates pool ptr pool'

/-- The block is free, or about to be. -/
def Vacant (ptr : SizeT) (block : Block) : Prop := block.used = false ∨ block.data = ptr

/-- Of the blocks that are free once the call is done, no two lie side by side. -/
def Separated (pool : MemoryPool) : Call → Prop
  | .allocate _ => True
  | .deallocate ptr => ∀ block ∈ pool.sFreeList, ∀ next ∈ pool.sFreeList, Vacant ptr block →
      Vacant ptr next → block.stop ≠ next.start

/-! ## Addresses and counts -/

theorem WellFormed.stop_lt {pool : MemoryPool} (h : pool.WellFormed) {block : Block}
    (hblock : block ∈ pool.sFreeList) : block.stop < 2 ^ 64 :=
  (h.tiles.bounds hblock).2.trans_lt h.inMemory

/-- No byte of the pool is outside the blocks. -/
theorem WellFormed.iUnion_Ico {pool : MemoryPool} (h : pool.WellFormed) :
    ⋃ block ∈ pool.sFreeList, Set.Ico block.start block.stop =
      Set.Ico pool.sPool.toNat (pool.sPool.toNat + pool.sPoolSize.toNat) :=
  h.tiles.iUnion_Ico

/-- The data of a block starts right after its header, and is not null. -/
theorem WellFormed.toNat_data {pool : MemoryPool} (h : pool.WellFormed) {block : Block}
    (hblock : block ∈ pool.sFreeList) : block.data.toNat = block.start + 32 := by
  have hstop := h.stop_lt hblock
  have hheader : sizeofBlock.toNat = 32 := rfl
  simp only [Block.stop, Block.start, Block.extent] at hstop ⊢
  rw [h.data block hblock, BitVec.toNat_add, hheader, Nat.mod_eq_of_lt (by omega)]

theorem WellFormed.data_ne_zero {pool : MemoryPool} (h : pool.WellFormed) {block : Block}
    (hblock : block ∈ pool.sFreeList) : block.data ≠ 0 := by
  intro hzero
  have hnat := h.toNat_data hblock
  rw [hzero] at hnat
  exact absurd hnat (Nat.succ_ne_zero _).symm

/-- Two blocks of a list have different addresses. -/
theorem WellFormed.addr_ne {pool : MemoryPool} (h : pool.WellFormed) {pre post : List Block}
    {block : Block} (hlist : pool.sFreeList = pre ++ block :: post) :
    ∀ other ∈ pre ++ post, other.addr ≠ block.addr := by
  have hpairs := h.tiles.pairwise
  rw [hlist, List.pairwise_append, List.pairwise_cons] at hpairs
  obtain ⟨-, ⟨hafter, -⟩, hacross⟩ := hpairs
  intro other hother heq
  have hstart : other.start = block.start := congrArg BitVec.toNat heq
  rcases List.mem_append.mp hother with hpre | hpost
  · have hle := hacross other hpre block List.mem_cons_self
    simp only [Block.extent] at hle
    omega
  · have hle := hafter other hpost
    simp only [Block.extent] at hle
    omega

theorem setUsed_of_ne {addr : SizeT} {used : Bool} {blocks : List Block}
    (h : ∀ block ∈ blocks, block.addr ≠ addr) : setUsed addr used blocks = blocks :=
  (List.map_congr_left fun block hblock => if_neg (h block hblock)).trans (List.map_id' blocks)

/-- A block of another address stays in the list. -/
theorem mem_setUsed_of_ne {addr : SizeT} {used : Bool} {blocks : List Block} {block : Block}
    (hblock : block ∈ blocks) (hne : block.addr ≠ addr) : block ∈ setUsed addr used blocks :=
  List.mem_map.mpr ⟨block, hblock, if_neg hne⟩

/-- Marking a block leaves every used block used, and marks it. -/
theorem exists_used_setUsed {addr : SizeT} {blocks : List Block} {block : Block}
    (hblock : block ∈ blocks) (hused : block.used ∨ block.addr = addr) :
    ∃ b ∈ setUsed addr true blocks, b.used ∧ b.data = block.data := by
  refine ⟨_, List.mem_map_of_mem hblock, ?_, by split_ifs <;> rfl⟩
  split_ifs with haddr
  · rfl
  · exact hused.resolve_right haddr

/-- **Writing a block's flag** changes that block and no other. -/
theorem WellFormed.setUsed_eq {pool : MemoryPool} (h : pool.WellFormed) {pre post : List Block}
    {block : Block} (hlist : pool.sFreeList = pre ++ block :: post) (used : Bool) :
    setUsed block.addr used pool.sFreeList = pre ++ { block with used := used } :: post := by
  have hne := List.forall_mem_append.mp (h.addr_ne hlist)
  have hpre : setUsed block.addr used pre = pre := setUsed_of_ne hne.1
  have hpost : setUsed block.addr used post = post := setUsed_of_ne hne.2
  rw [setUsed] at hpre hpost
  rw [hlist, setUsed, List.map_append, List.map_cons, hpre, hpost, if_pos rfl]

theorem usedSizes_append (pre post : List Block) :
    usedSizes (pre ++ post) = usedSizes pre + usedSizes post := by
  rw [usedSizes, List.filter_append, List.map_append, List.sum_append, usedSizes, usedSizes]

theorem usedSizes_cons (block : Block) (blocks : List Block) :
    usedSizes (block :: blocks) =
      (if block.used then block.size.toNat else 0) + usedSizes blocks := by
  cases hused : block.used <;> simp [usedSizes, hused]

theorem usedSizes_le (blocks : List Block) :
    usedSizes blocks ≤ (blocks.map Block.extent).sum := by
  induction blocks with
  | nil => exact le_rfl
  | cons block blocks ih =>
    rw [usedSizes_cons, List.map_cons, List.sum_cons]
    refine Nat.add_le_add ?_ ih
    split_ifs
    · exact Nat.le_add_left _ _
    · exact Nat.zero_le _

theorem WellFormed.data_setUsed {pool : MemoryPool} (h : pool.WellFormed) (addr : SizeT)
    (used : Bool) : ∀ block ∈ setUsed addr used pool.sFreeList,
      block.data = block.addr + sizeofBlock := by
  refine List.forall_mem_map.mpr fun block hblock => ?_
  split_ifs
  · exact h.data block hblock
  · exact h.data block hblock

/-- The count of the used blocks, before and after a flag is written. -/
theorem WellFormed.usedSizes_setUsed {pool : MemoryPool} (h : pool.WellFormed)
    {pre post : List Block} {block : Block} (hlist : pool.sFreeList = pre ++ block :: post)
    (used : Bool) :
    usedSizes (setUsed block.addr used pool.sFreeList) +
        (if block.used then block.size.toNat else 0) =
      usedSizes pool.sFreeList + if used then block.size.toNat else 0 := by
  rw [h.setUsed_eq hlist, hlist, usedSizes_append, usedSizes_append, usedSizes_cons,
    usedSizes_cons]
  dsimp only
  omega

/-- Whatever the flags are, the list tiles the pool… -/
theorem WellFormed.tiles_setUsed {pool : MemoryPool} (h : pool.WellFormed) (addr : SizeT)
    (used : Bool) : Tiles Block.start Block.extent pool.sPool.toNat
      (pool.sPool.toNat + pool.sPoolSize.toNat) (setUsed addr used pool.sFreeList) :=
  h.tiles.map (fun block => by split_ifs <;> rfl) (fun block => by split_ifs <;> rfl)

/-- …and the count of its used blocks does not wrap. -/
theorem WellFormed.usedSizes_setUsed_lt {pool : MemoryPool} (h : pool.WellFormed) (addr : SizeT)
    (used : Bool) : usedSizes (setUsed addr used pool.sFreeList) < 2 ^ 64 := by
  have hsum := (h.tiles_setUsed addr used).add_sum
  have hle := usedSizes_le (setUsed addr used pool.sFreeList)
  have hmem := h.inMemory
  omega

/-- **A flag and its count**: the list stays well formed. -/
theorem WellFormed.setUsed {pool : MemoryPool} (h : pool.WellFormed) {addr usedBytes : SizeT}
    {used : Bool} (hcount : usedBytes.toNat = usedSizes (setUsed addr used pool.sFreeList)) :
    WellFormed { pool with
      sFreeList := MemoryPool.setUsed addr used pool.sFreeList
      sUsedBytes := usedBytes } where
  initialized := h.initialized
  inMemory := h.inMemory
  data := h.data_setUsed addr used
  tiles := h.tiles_setUsed addr used
  usedBytes := hcount

/-! ## `allocate` -/

/-- **The search finds a best fit**: what it started from, if nothing is better, or a free block
that is large enough and smaller than what it started from, a smallest of those. -/
theorem foldl_betterFit (size : SizeT) (blocks : List Block) (best : Option Block × SizeT) :
    (blocks.foldl (betterFit size) best = best ∧
      ∀ other ∈ blocks, other.used = false → size ≤ other.size → best.2 ≤ other.size) ∨
    ∃ block ∈ blocks, blocks.foldl (betterFit size) best = (some block, block.size) ∧
      block.used = false ∧ size ≤ block.size ∧ block.size < best.2 ∧
      ∀ other ∈ blocks, other.used = false → size ≤ other.size → block.size ≤ other.size := by
  induction blocks generalizing best with
  | nil => exact .inl ⟨rfl, by simp⟩
  | cons current blocks ih =>
    rw [List.foldl_cons]
    by_cases hbetter : !current.used ∧ current.size ≥ size ∧ current.size < best.2
    · obtain ⟨hfree, hsize, hless⟩ := hbetter
      rw [betterFit, if_pos ⟨hfree, hsize, hless⟩]
      rw [Bool.not_eq_true'] at hfree
      rcases ih (some current, current.size) with ⟨heq, hmin⟩ | ⟨block, hblock, heq, hblock'⟩
      · exact .inr ⟨current, List.mem_cons_self, heq, hfree, hsize, hless,
          List.forall_mem_cons.mpr ⟨fun _ _ => BitVec.le_refl _, hmin⟩⟩
      · obtain ⟨hfree', hsize', hless', hmin⟩ := hblock'
        exact .inr ⟨block, List.mem_cons_of_mem _ hblock, heq, hfree', hsize',
          BitVec.lt_trans hless' hless,
          List.forall_mem_cons.mpr ⟨fun _ _ => BitVec.le_of_lt hless', hmin⟩⟩
    · have hcurrent : current.used = false → size ≤ current.size → best.2 ≤ current.size :=
        fun hfree hsize => BitVec.not_lt.mp fun hless => hbetter ⟨by simp [hfree], hsize, hless⟩
      rw [betterFit, if_neg hbetter]
      rcases ih best with ⟨heq, hmin⟩ | ⟨block, hblock, heq, hfree, hsize, hless, hmin⟩
      · exact .inl ⟨heq, List.forall_mem_cons.mpr ⟨hcurrent, hmin⟩⟩
      · exact .inr ⟨block, List.mem_cons_of_mem _ hblock, heq, hfree, hsize, hless,
          List.forall_mem_cons.mpr ⟨fun hfree' hsize' =>
            BitVec.le_trans (BitVec.le_of_lt hless) (hcurrent hfree' hsize'), hmin⟩⟩

/-- **What `allocate` does to a well-formed list**, whatever is asked for: it sets the flag of a
best fit, or nothing. -/
theorem allocate_cases {pool : MemoryPool} (h : pool.WellFormed) (n : SizeT) :
    (∃ pre block post, pool.sFreeList = pre ++ block :: post ∧ block.used = false ∧
      roundUp n ≤ block.size ∧
      (∀ other ∈ pool.sFreeList, other.used = false → roundUp n ≤ other.size →
        block.size ≤ other.size) ∧
      pool.allocate n =
        ({ pool with
            sFreeList := setUsed block.addr true pool.sFreeList
            sUsedBytes := pool.sUsedBytes + block.size },
          block.data)) ∨
    (∀ block ∈ pool.sFreeList, block.used = false → ¬ roundUp n ≤ block.size) ∧
      pool.allocate n = (pool, 0) := by
  have hfound : pool.allocate n = (pool.findFreeBlock (roundUp n)).elim (pool, 0) fun block =>
      ({ pool with
          sFreeList := setUsed block.addr true pool.sFreeList
          sUsedBytes := pool.sUsedBytes + block.size },
        block.data) := by
    rw [allocate, h.initialized]
    cases pool.findFreeBlock (roundUp n) <;> rfl
  rw [findFreeBlock] at hfound
  rcases foldl_betterFit (roundUp n) pool.sFreeList (none, sizeMax) with
    ⟨heq, hmin⟩ | ⟨block, hblock, heq, hfree, hsize, -, hmin⟩
  · rw [heq] at hfound
    refine .inr ⟨fun block hblock hfree hsize => ?_, hfound⟩
    -- no block of the pool is as large as the search starts from
    have hmax : 2 ^ 64 - 1 ≤ block.size.toNat := BitVec.le_def.mp (hmin block hblock hfree hsize)
    have hstop := h.stop_lt hblock
    simp only [Block.stop, Block.extent] at hstop
    omega
  · rw [heq] at hfound
    obtain ⟨pre, post, hlist⟩ := List.append_of_mem hblock
    exact .inl ⟨pre, block, post, hlist, hfree, hsize, hmin, hfound⟩

/-- **`allocate` keeps the list well formed**, whatever is asked for. -/
theorem WellFormed.allocate {pool : MemoryPool} (h : pool.WellFormed) (n : SizeT) :
    (pool.allocate n).1.WellFormed := by
  rcases allocate_cases h n with ⟨pre, block, post, hlist, hfree, -, -, heq⟩ | ⟨-, heq⟩
  · have hcount := h.usedSizes_setUsed hlist true
    have hlt := h.usedSizes_setUsed_lt block.addr true
    rw [hfree, if_neg Bool.false_ne_true, if_pos rfl, add_zero] at hcount
    rw [heq]
    refine h.setUsed ?_
    rw [hcount] at hlt ⊢
    rw [BitVec.toNat_add, h.usedBytes, Nat.mod_eq_of_lt hlt]
  · rw [heq]
    exact h

/-- The rounded size, as a number. -/
theorem roundUp_le_iff {n size : SizeT} (hn : n.toNat + 7 < 2 ^ 64) :
    roundUp n ≤ size ↔ (n.toNat + 7) / 8 * 8 ≤ size.toNat := by
  have hseven : (7 : SizeT).toNat = 7 := rfl
  rw [BitVec.le_def, toNat_roundUp, BitVec.toNat_add, hseven, Nat.mod_eq_of_lt hn]

/-- **A request that does not wrap** is served by a best fit, if there is one. -/
theorem allocates {pool : MemoryPool} (h : pool.WellFormed) {n : SizeT}
    (hn : n.toNat + 7 < 2 ^ 64) : Allocates pool n := by
  rcases allocate_cases h n with ⟨pre, block, post, hlist, hfree, hsize, hmin, heq⟩ | ⟨hnone, heq⟩
  · have hblock : block ∈ pool.sFreeList := hlist ▸ List.mem_append_right pre List.mem_cons_self
    rw [h.setUsed_eq hlist] at heq
    exact .marks pre post block hlist ⟨hfree, (roundUp_le_iff hn).mp hsize⟩
      (fun other hother hfits => hmin other hother hfits.1 ((roundUp_le_iff hn).mpr hfits.2))
      (h.data_ne_zero hblock) heq
  · exact .refuses (fun block hblock hfits =>
      hnone block hblock hfits.1 ((roundUp_le_iff hn).mpr hfits.2)) heq

/-! ## `deallocate` -/

/-- **Nothing is merged** in a list that tiles: between the data of one block and that of the next
lies a header. -/
theorem mergeFrom_eq {current : Block} {rest : List Block} {lo hi : ℕ}
    (htiles : Tiles Block.start Block.extent lo hi (current :: rest))
    (hdata : ∀ block ∈ current :: rest, block.data = block.addr + sizeofBlock) :
    mergeFrom current rest = current :: rest := by
  induction rest generalizing current lo with
  | nil => rfl
  | cons next rest ih =>
    obtain ⟨hcurrent, hrest⟩ := List.forall_mem_cons.mp hdata
    have hstart : next.start = current.start + current.extent := htiles.1 ▸ htiles.2.1
    have hgap : current.data + current.size ≠ next.data := by
      rw [hcurrent, hrest next List.mem_cons_self]
      simp only [Block.start, Block.extent, sizeofBlock] at hstart ⊢
      bv_omega
    rw [mergeFrom, if_neg fun hmerge => hgap hmerge.2.2, ih htiles.2 hrest]

theorem mergeFreeBlocks_eq {blocks : List Block} {lo hi : ℕ}
    (htiles : Tiles Block.start Block.extent lo hi blocks)
    (hdata : ∀ block ∈ blocks, block.data = block.addr + sizeofBlock) :
    mergeFreeBlocks blocks = blocks := by
  cases blocks with
  | nil => rfl
  | cons current rest => exact mergeFrom_eq htiles hdata

/-- **What `deallocate` does to a well-formed list**: it clears a flag. -/
theorem deallocate_eq {pool : MemoryPool} (h : pool.WellFormed) {block : Block}
    (hblock : block ∈ pool.sFreeList) :
    pool.deallocate block.data = some { pool with
      sFreeList := setUsed block.addr false pool.sFreeList
      sUsedBytes := pool.sUsedBytes - block.size } := by
  have hptr : ¬ (block.data = 0 ∨ !pool.sInitialized) := by
    rintro (hzero | hinit)
    · exact h.data_ne_zero hblock hzero
    · simp [h.initialized] at hinit
  have haddr : block.data - sizeofBlock = block.addr := by
    rw [h.data block hblock, BitVec.add_sub_cancel]
  obtain ⟨pre, post, hlist⟩ := List.append_of_mem hblock
  have hfind : (pool.sFreeList.find? fun other => other.addr = block.addr) = some block := by
    have hne := (List.forall_mem_append.mp (h.addr_ne hlist)).1
    refine List.find?_eq_some_iff_append.mpr ⟨by simp, pre, post, hlist, fun other hother => ?_⟩
    simpa using hne other hother
  have hmerge : mergeFreeBlocks (setUsed block.addr false pool.sFreeList) =
      setUsed block.addr false pool.sFreeList :=
    mergeFreeBlocks_eq (h.tiles_setUsed _ _) (h.data_setUsed _ _)
  rw [deallocate, if_neg hptr, haddr, hfind, Option.map_some, hmerge]

/-- The count without the block. -/
theorem toNat_usedBytes_sub {pool : MemoryPool} (h : pool.WellFormed) {block : Block}
    (hblock : block ∈ pool.sFreeList) (hused : block.used) :
    (pool.sUsedBytes - block.size).toNat + block.size.toNat = pool.sUsedBytes.toNat ∧
      (pool.sUsedBytes - block.size).toNat =
        usedSizes (setUsed block.addr false pool.sFreeList) := by
  obtain ⟨pre, post, hlist⟩ := List.append_of_mem hblock
  have hcount := h.usedSizes_setUsed hlist false
  rw [if_pos hused, if_neg Bool.false_ne_true, add_zero, ← h.usedBytes] at hcount
  have hle : block.size ≤ pool.sUsedBytes := BitVec.le_def.mpr (by omega)
  rw [BitVec.toNat_sub_of_le hle]
  omega

/-- **`deallocate` keeps the list well formed**. -/
theorem WellFormed.deallocate {pool pool' : MemoryPool} (h : pool.WellFormed) {block : Block}
    (hblock : block ∈ pool.sFreeList) (hused : block.used)
    (heq : pool.deallocate block.data = some pool') : pool'.WellFormed := by
  rw [deallocate_eq h hblock] at heq
  obtain rfl := Option.some.inj heq
  exact h.setUsed (toNat_usedBytes_sub h hblock hused).2

theorem WellFormed.eq_of_addr_eq {pool : MemoryPool} (h : pool.WellFormed) {block other : Block}
    (hblock : block ∈ pool.sFreeList) (hother : other ∈ pool.sFreeList)
    (haddr : other.addr = block.addr) : other = block := by
  obtain ⟨pre, post, hlist⟩ := List.append_of_mem hblock
  rw [hlist, List.mem_append, List.mem_cons] at hother
  by_contra hne
  have hrest : other ∈ pre ++ post := by
    rw [List.mem_append]
    exact hother.imp_right fun hmem => hmem.resolve_left hne
  exact h.addr_ne hlist other hrest haddr

/-- A block has the data of another only if it is the other. -/
theorem WellFormed.data_eq_iff {pool : MemoryPool} (h : pool.WellFormed) {block other : Block}
    (hblock : block ∈ pool.sFreeList) (hother : other ∈ pool.sFreeList) :
    other.data = block.data ↔ other.addr = block.addr := by
  rw [h.data block hblock, h.data other hother, BitVec.add_left_inj]

/-- The blocks that are vacant are those that are free once the block's flag is cleared… -/
theorem WellFormed.vacant_iff {pool : MemoryPool} (h : pool.WellFormed) {block other : Block}
    (hblock : block ∈ pool.sFreeList) (hother : other ∈ pool.sFreeList) :
    Vacant block.data other ↔
      (if other.addr = block.addr then { other with used := false } else other).used = false := by
  rw [Vacant, h.data_eq_iff hblock hother]
  split_ifs with haddr
  · exact iff_of_true (.inr haddr) rfl
  · exact or_iff_left haddr

/-- …so no two of these lie side by side if and only if the call is separated. -/
theorem WellFormed.separated_iff {pool : MemoryPool} (h : pool.WellFormed) {block : Block}
    (hblock : block ∈ pool.sFreeList) :
    pool.Separated (.deallocate block.data) ↔
      ∀ b ∈ MemoryPool.setUsed block.addr false pool.sFreeList,
        ∀ next ∈ MemoryPool.setUsed block.addr false pool.sFreeList,
          b.used = false → next.used = false → b.stop ≠ next.start := by
  have hstop : ∀ b : Block, (if b.addr = block.addr then { b with used := false } else b).stop =
      b.stop := fun b => by split_ifs <;> rfl
  have hstart : ∀ b : Block, (if b.addr = block.addr then { b with used := false } else b).start =
      b.start := fun b => by split_ifs <;> rfl
  rw [MemoryPool.setUsed, List.forall_mem_map]
  refine forall₂_congr fun b hb => ?_
  rw [List.forall_mem_map]
  refine forall₂_congr fun next hnext => ?_
  rw [h.vacant_iff hblock hb, h.vacant_iff hblock hnext, hstop, hstart]

/-- **Giving a block back** leaves no two free blocks side by side exactly if there are none among
those that are free already or given back. -/
theorem deallocates_iff {pool : MemoryPool} (h : pool.WellFormed) {block : Block}
    (hblock : block ∈ pool.sFreeList) (hused : block.used) :
    (∃ pool', pool.deallocate block.data = some pool' ∧ Deallocates pool block.data pool') ↔
      pool.Separated (.deallocate block.data) := by
  have hdeallocate := deallocate_eq h hblock
  obtain ⟨hcount, -⟩ := toNat_usedBytes_sub h hblock hused
  rw [h.separated_iff hblock]
  constructor
  · rintro ⟨pool', heq, hpool'⟩
    obtain rfl := Option.some.inj (hdeallocate.symm.trans heq)
    exact hpool'.coalesced
  · intro hcoalesced
    refine ⟨_, hdeallocate, h.deallocate hblock hused hdeallocate, fun other hother _ hne => ?_,
      fun other hother hdata => ?_, hcoalesced⟩
    · exact mem_setUsed_of_ne hother fun haddr => hne ((h.data_eq_iff hblock hother).mpr haddr)
    · obtain rfl := h.eq_of_addr_eq hblock hother ((h.data_eq_iff hblock hother).mp hdata)
      exact hcount

/-- **When a call on a well-formed list does what it is for**: always, except that a block given
back beside a free one is not merged with it, nor any two that were free before. -/
theorem meets_iff {pool : MemoryPool} {call : Call} (h : pool.WellFormed)
    (hcall : pool.Admissible call) : pool.Meets call ↔ pool.Separated call := by
  cases call with
  | allocate n => exact iff_of_true ⟨h.allocate n, allocates h hcall⟩ trivial
  | deallocate ptr =>
    obtain ⟨block, hblock, hused, rfl⟩ := hcall
    exact deallocates_iff h hblock hused

/-! ## Runs -/

/-- **A well-formed heap**: every live pointer is the data of a used block of a well-formed list. -/
structure Heap.WellFormed (s : Heap) : Prop where
  pool : s.pool.WellFormed
  live : ∀ a ∈ s.live, ∃ block ∈ s.pool.sFreeList, block.used ∧ block.data = a.1

/-- **A pointer is given back**: it was the data of a used block, and is no longer live. -/
theorem Heap.WellFormed.deallocate_cases {s s' : Heap} {ptr : SizeT} {o : List SizeT}
    (h : s.WellFormed) (hs : heap.step s (.deallocate ptr) = some (s', o)) :
    ∃ block ∈ s.pool.sFreeList, block.used ∧ block.data = ptr ∧
      s.pool.deallocate ptr = some s'.pool ∧ s'.live = s.live.filter fun a => a.1 ≠ ptr := by
  simp only [heap] at hs
  split_ifs at hs with hlive
  obtain ⟨a, ha, rfl⟩ := List.mem_map.mp hlive
  obtain ⟨block, hblock, hused, hdata⟩ := h.live a ha
  obtain ⟨pool, hpool, heq⟩ := Option.map_eq_some_iff.mp hs
  obtain ⟨rfl, -⟩ := Prod.mk.inj heq
  exact ⟨block, hblock, hused, hdata, hpool, rfl⟩

/-- **`allocate` keeps the heap well formed**… -/
theorem Heap.WellFormed.step_allocate {s s' : Heap} {n : SizeT} {o : List SizeT}
    (h : s.WellFormed) (hs : heap.step s (.allocate n) = some (s', o)) : s'.WellFormed := by
  obtain ⟨rfl, -⟩ := Prod.mk.inj (Option.some.inj hs)
  refine ⟨h.pool.allocate n, ?_⟩
  rcases allocate_cases h.pool n with ⟨pre, block, post, hlist, -, -, -, heq⟩ | ⟨-, heq⟩
  · have hblock : block ∈ s.pool.sFreeList :=
      hlist ▸ List.mem_append_right pre List.mem_cons_self
    rw [heq, if_neg (h.pool.data_ne_zero hblock)]
    refine List.forall_mem_cons.mpr ⟨exists_used_setUsed hblock (.inr rfl), fun a ha => ?_⟩
    obtain ⟨other, hother, hused, hdata⟩ := h.live a ha
    exact hdata ▸ exists_used_setUsed hother (.inl hused)
  · rw [heq]
    exact h.live

/-- …and so does `deallocate`: the blocks of the other live pointers stay in the list. -/
theorem Heap.WellFormed.step_deallocate {s s' : Heap} {ptr : SizeT} {o : List SizeT}
    (h : s.WellFormed) (hs : heap.step s (.deallocate ptr) = some (s', o)) : s'.WellFormed := by
  obtain ⟨block, hblock, hused, rfl, hpool, hlive⟩ := h.deallocate_cases hs
  refine ⟨h.pool.deallocate hblock hused hpool, fun a ha => ?_⟩
  rw [deallocate_eq h.pool hblock] at hpool
  rw [hlive] at ha
  obtain ⟨ha, hne⟩ := List.mem_filter.mp ha
  obtain ⟨other, hother, hused', hdata⟩ := h.live a ha
  have haddr : other.addr ≠ block.addr := fun haddr =>
    of_decide_eq_true hne (hdata.symm.trans ((h.pool.data_eq_iff hblock hother).mpr haddr))
  rw [← Option.some.inj hpool]
  exact ⟨other, mem_setUsed_of_ne hother haddr, hused', hdata⟩

/-- **A call keeps the heap well formed**. -/
theorem Heap.WellFormed.step {s s' : Heap} {e : Call} {o : List SizeT} (h : s.WellFormed)
    (hs : heap.step s e = some (s', o)) : s'.WellFormed := by
  cases e with
  | allocate n => exact h.step_allocate hs
  | deallocate ptr => exact h.step_deallocate hs

/-- **The block list stays a tiling of the pool**, in every run… -/
theorem Heap.WellFormed.run {s s' : Heap} {es : List Call} {os : List SizeT} (h : s.WellFormed)
    (hrun : heap.run s es = some (s', os)) : s'.WellFormed :=
  heap.run_invariant (I := fun s _ => s.WellFormed) (fun _ _ _ _ _ h hs => h.step hs) h hrun

/-- …and each of its calls does what it is for if and only if it leaves the free blocks apart. -/
theorem along_meets_iff {s s' : Heap} {es : List Call} {os : List SizeT} (h : s.WellFormed)
    (hsizes : ∀ n, .allocate n ∈ es → n.toNat + 7 < 2 ^ 64)
    (hrun : heap.run s es = some (s', os)) :
    heap.Along (fun s e => s.pool.Meets e) s es ↔
      heap.Along (fun s e => s.pool.Separated e) s es := by
  refine heap.along_iff_of_keeps (I := Heap.WellFormed) (fun _ _ _ _ _ h _ hs => h.step hs)
    (fun e he s s' o h hs => meets_iff h.pool ?_) h hrun
  cases e with
  | allocate n => exact hsizes n he
  | deallocate ptr =>
    obtain ⟨block, hblock, hused, hdata, -⟩ := h.deallocate_cases hs
    exact ⟨block, hblock, hused, hdata⟩

/-- A pool that has just been mapped, with room for a header, is one well-formed block. -/
theorem wellFormed_start {mmap : SizeT → SizeT} {size : SizeT} (hmap : mmap size ≠ mapFailed)
    (hheader : sizeofBlock ≤ size) (hmem : (mmap size).toNat + size.toNat < 2 ^ 64) :
    (Heap.start mmap size).WellFormed := by
  have hsize := toNat_sub_sizeofBlock hheader
  have hstart : Heap.start mmap size =
      ⟨⟨mmap size, size, 0, [firstBlock (mmap size) size false], true⟩, []⟩ := by
    rw [Heap.start, initializePool_eq rfl hmap]
  have htiles : (mmap size).toNat + (32 + (size - sizeofBlock).toNat) =
      (mmap size).toNat + size.toNat := by omega
  rw [hstart]
  exact ⟨⟨rfl, hmem, by simp [firstBlock], ⟨rfl, htiles⟩, rfl⟩, by simp⟩

/-- One block has no neighbour… -/
theorem Shape.separated {base size : SizeT} {s : Heap} (h : Shape base size s) (call : Call) :
    s.pool.Separated call := by
  have hone : ∀ used, ∀ block ∈ [firstBlock base size used], ∀ next ∈ [firstBlock base size used],
      block.stop ≠ next.start := by
    intro used block hblock next hnext
    obtain rfl := List.mem_singleton.mp hblock
    obtain rfl := List.mem_singleton.mp hnext
    simp only [Block.stop, Block.extent]
    omega
  cases call with
  | allocate n => trivial
  | deallocate ptr =>
    cases h with
    | free => exact fun block hblock next hnext _ _ => hone false block hblock next hnext
    | taken n => exact fun block hblock next hnext _ _ => hone true block hblock next hnext

/-- …so from the start, where no block is ever split, every call does what it is for. -/
theorem along_meets_start {mmap : SizeT → SizeT} {size : SizeT} (hmap : mmap size ≠ mapFailed)
    (hheader : sizeofBlock ≤ size) (hmem : (mmap size).toNat + size.toNat < 2 ^ 64)
    {s : Heap} {es : List Call} {os : List SizeT}
    (hsizes : ∀ n, .allocate n ∈ es → n.toNat + 7 < 2 ^ 64)
    (hrun : heap.run (.start mmap size) es = some (s, os)) :
    heap.Along (fun s e => s.pool.Meets e) (.start mmap size) es := by
  have hptr : mmap size + sizeofBlock ≠ 0 := by
    have hle := BitVec.le_def.mp hheader
    simp only [sizeofBlock] at hle ⊢
    bv_omega
  refine (along_meets_iff (wellFormed_start hmap hheader hmem) hsizes hrun).mpr ?_
  refine (heap.along_iff (G := fun _ _ => True) (I := Shape (mmap size) size)
    (fun _ _ _ _ hs => hs.step hptr) (fun _ e _ _ hs _ => ?_) (shape_start hmap) hrun).mp
    (heap.along_true _ es)
  exact iff_of_true trivial (hs.separated e)

/-! ## Two blocks -/

/-- A pool of 80 bytes in two blocks of eight, the second in use. -/
def twoBlocks (used : Bool) : MemoryPool where
  sPool := 0x10000
  sPoolSize := 80
  sUsedBytes := if used then 16 else 8
  sFreeList := [⟨0x10000, 8, used, 0x10020⟩, ⟨0x10028, 8, true, 0x10048⟩]
  sInitialized := true

theorem wellFormed_twoBlocks (used : Bool) : (twoBlocks used).WellFormed where
  initialized := rfl
  inMemory := (by decide : 0x10000 + 80 < 2 ^ 64)
  data := by simp [twoBlocks, sizeofBlock]
  tiles := ⟨rfl, rfl, rfl⟩
  usedBytes := by cases used <;> rfl

theorem admissible_twoBlocks (used : Bool) :
    (twoBlocks used).Admissible (.deallocate 0x10048) :=
  ⟨⟨0x10028, 8, true, 0x10048⟩, by simp [twoBlocks], rfl, rfl⟩

/-- Given back beside a free block, the second is not merged with it. -/
theorem not_forall_meets : ¬ ∀ (pool : MemoryPool) (call : Call), pool.WellFormed →
    pool.Admissible call → pool.Meets call := by
  intro h
  have hafter : (twoBlocks false).deallocate 0x10048 = some { twoBlocks false with
      sUsedBytes := 0
      sFreeList := [⟨0x10000, 8, false, 0x10020⟩, ⟨0x10028, 8, false, 0x10048⟩] } := rfl
  obtain ⟨pool', heq, hpool'⟩ := h _ _ (wellFormed_twoBlocks false) (admissible_twoBlocks false)
  obtain rfl := Option.some.inj (hafter.symm.trans heq)
  exact hpool'.coalesced ⟨0x10000, 8, false, 0x10020⟩ (by simp) ⟨0x10028, 8, false, 0x10048⟩
    (by simp) rfl rfl rfl

/-- Given back beside a used one, it is free again. -/
theorem meets_twoBlocks : (twoBlocks true).Meets (.deallocate 0x10048) := by
  refine (meets_iff (wellFormed_twoBlocks true) (admissible_twoBlocks true)).mpr ?_
  intro block hblock next hnext hvacant hvacant'
  simp only [twoBlocks, List.mem_cons, List.not_mem_nil, or_false] at hblock hnext
  rcases hblock with rfl | rfl <;> rcases hnext with rfl | rfl
  · decide
  · simp [Vacant] at hvacant
  · decide
  · decide

end MemoryPool

end BioShield
