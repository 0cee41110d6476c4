import BioShield.Core.MemoryTiling
import Mathlib

/-!
# Core/PoolLifetimes — the pool from one `initialize` to the next (`core/memory_pool.cpp`)

`MemoryPool` is static: it is mapped, used, unmapped and mapped again, and pointers of an earlier
lifetime may come back.  Over all calls of the class, in any order:

* `mappings_run` — it unmaps what it has mapped, once and before it maps again;
* `pointer_exclusive` — a block is not handed out again until its pointer is freed or the pool is
  shut down;
* `usedBytes_iff` — `get_used_bytes` tells what is in use exactly if the frees that found the block
  free already, since the pool was last initialized, add up to a multiple of `2^64` bytes: each
  takes the block's size off the count.

A `Lifetime` is the abstract pool, with these frees counted.  What `mmap` does is in the event; a
`deallocate` of a pointer with no block header before it is no step.
-/

namespace BioShield

open Machinery

namespace MemoryPool

/-- `MemoryPool::shutdown`. -/
def shutdown (pool : MemoryPool) : MemoryPool :=
  if !pool.sInitialized then pool
  else
    { sPool := 0
      sPoolSize := 0
      sUsedBytes := 0
      sFreeList := []
      sInitialized := false }

/-- `allocate_array`; the product may wrap. -/
def allocateArray (pool : MemoryPool) (sizeofT count : SizeT) : MemoryPool × SizeT :=
  pool.allocate (count * sizeofT)

/-- `get_used_bytes`. -/
def getUsedBytes (pool : MemoryPool) : SizeT := pool.sUsedBytes

/-- A call of the class; `initialize` with what `mmap` does. -/
inductive ClassCall
  | initializePool (mmap : SizeT → SizeT) (maps : MapsPages mmap) (poolSizeBytes : SizeT)
  | shutdown
  | allocate (n : SizeT)
  | allocateArray (sizeofT count : SizeT)
  | deallocate (ptr : SizeT)

/-- What a call does outside the class. -/
inductive Effect
  | mapped (addr length : SizeT)
  | unmapped (addr length : SizeT)
  | pointer (ptr : SizeT)
  deriving DecidableEq

/-- The class, as a machine. -/
def lifetimes : Machine MemoryPool ClassCall Effect where
  step pool
    | .initializePool mmap _ n =>
        some (initializePool mmap n pool,
          if pool.sInitialized ∨ mmap n = mapFailed then [] else [.mapped (mmap n) n])
    | .shutdown =>
        some (pool.shutdown,
          if pool.sInitialized then [.unmapped pool.sPool pool.sPoolSize] else [])
    | .allocate n => some ((pool.allocate n).1, [.pointer (pool.allocate n).2])
    | .allocateArray sizeofT count =>
        some ((pool.allocateArray sizeofT count).1, [.pointer (pool.allocateArray sizeofT count).2])
    | .deallocate ptr => (pool.deallocate ptr).map fun pool' => (pool', [])

/-! ## Lifetimes -/

instance (size n : SizeT) : Decidable (Accepts size n) := inferInstanceAs (Decidable (_ ∧ _))

/-- **A lifetime of the pool**: where it is mapped, whether its block is handed out, and how many
frees have found the block free. -/
structure Lifetime where
  base : SizeT
  size : SizeT
  taken : Bool
  idleFrees : ℕ
  header : base + sizeofBlock ≠ 0

namespace Lifetime

/-- The bytes of the block that are handed out. -/
def inUse (life : Lifetime) : SizeT := if life.taken then life.size - sizeofBlock else 0

/-- The bytes that frees of the free block have taken off the count. -/
def miscounted (life : Lifetime) : SizeT :=
  BitVec.ofNat 64 (life.idleFrees * (life.size - sizeofBlock).toNat)

/-- The statics in a lifetime. -/
def pool (life : Lifetime) : MemoryPool where
  sPool := life.base
  sPoolSize := life.size
  sUsedBytes := life.inUse - life.miscounted
  sFreeList := [firstBlock life.base life.size life.taken]
  sInitialized := true

/-- A request. -/
def ask (life : Lifetime) (n : SizeT) : Lifetime :=
  { life with taken := life.taken || decide (Accepts life.size n) }

/-- A free of the block. -/
def free (life : Lifetime) : Lifetime :=
  { life with
    taken := false
    idleFrees := if life.taken then life.idleFrees else life.idleFrees + 1 }

end Lifetime

/-- What a call makes of the lifetime there is. -/
def follow : Option Lifetime → ClassCall → Option Lifetime
  | some life, .initializePool .. => some life
  | none, .initializePool mmap maps n =>
      if h : mmap n = mapFailed then none
      else some ⟨mmap n, n, false, 0, maps.add_sizeofBlock_ne_zero h⟩
  | _, .shutdown => none
  | life, .allocate n => life.map (·.ask n)
  | life, .allocateArray sizeofT count => life.map (·.ask (count * sizeofT))
  | life, .deallocate ptr => if ptr = 0 then life else life.map (·.free)

/-- **The statics represent a lifetime**, or none; a failed `mmap` leaves its answer in `s_pool`. -/
def Represents (pool : MemoryPool) : Option Lifetime → Prop
  | some life => pool = life.pool
  | none => pool.sInitialized = false ∧ pool.sUsedBytes = 0 ∧ pool.sFreeList = []

section OneBlock

variable {base size used : SizeT}

/-- A request to a pool of one free block, whatever its count is… -/
theorem allocate_free (n : SizeT) :
    allocate ⟨base, size, used, [firstBlock base size false], true⟩ n =
      if Accepts size n then
        (⟨base, size, used + (size - sizeofBlock), [firstBlock base size true], true⟩,
          base + sizeofBlock)
      else (⟨base, size, used, [firstBlock base size false], true⟩, 0) := by
  split_ifs with hfit
  · simp [allocate, findFreeBlock, betterFit, firstBlock, setUsed, hfit.1, hfit.2]
  · rw [Accepts] at hfit
    simp [allocate, findFreeBlock, betterFit, firstBlock, hfit]

/-- …and a free, which only asks for a header. -/
theorem deallocate_firstBlock (taken : Bool) {ptr : SizeT} (hptr : ptr ≠ 0) :
    deallocate ⟨base, size, used, [firstBlock base size taken], true⟩ ptr =
      if base = ptr - sizeofBlock then
        some ⟨base, size, used - (size - sizeofBlock), [firstBlock base size false], true⟩
      else none := by
  rw [deallocate, if_neg (by simpa using hptr)]
  split_ifs with haddr
  · simp [firstBlock, setUsed, mergeFreeBlocks, mergeFrom, ← haddr]
  · simp [firstBlock, haddr]

end OneBlock

namespace Lifetime

theorem allocate_pool (life : Lifetime) (n : SizeT) :
    life.pool.allocate n =
      ((life.ask n).pool,
        if life.taken = false ∧ Accepts life.size n then life.base + sizeofBlock else 0) := by
  obtain ⟨base, size, taken, idleFrees, header⟩ := life
  cases taken with
  | true => exact allocate_taken
  | false =>
    rw [pool, allocate_free]
    by_cases hfit : Accepts size n
    · simp [pool, ask, hfit, inUse, miscounted, sub_eq_neg_add]
    · simp [pool, ask, hfit, inUse, miscounted]

/-- A free of the free block takes its size off the count once more. -/
theorem ofNat_succ_mul (k : ℕ) (size : SizeT) :
    BitVec.ofNat 64 ((k + 1) * size.toNat) = BitVec.ofNat 64 (k * size.toNat) + size := by
  rw [Nat.succ_mul, BitVec.ofNat_add, BitVec.ofNat_toNat, BitVec.setWidth_eq]

theorem deallocate_pool {life : Lifetime} {ptr : SizeT} {pool' : MemoryPool}
    (h : life.pool.deallocate ptr = some pool') (hptr : ptr ≠ 0) :
    ptr = life.base + sizeofBlock ∧ pool' = life.free.pool := by
  obtain ⟨base, size, taken, idleFrees, header⟩ := life
  rw [pool, deallocate_firstBlock _ hptr] at h
  split_ifs at h with haddr
  obtain rfl := Option.some.inj h
  refine ⟨by rw [haddr]; exact (BitVec.sub_add_cancel ptr sizeofBlock).symm, ?_⟩
  cases taken with
  | true => simp [pool, free, inUse, miscounted, sub_sub_cancel_left]
  | false =>
    simp only [pool, free, inUse, miscounted, Bool.false_eq_true, if_false, ofNat_succ_mul,
      sub_sub]

end Lifetime

section Follows

variable {pool pool' : MemoryPool} {life : Option Lifetime} {e : ClassCall} {o : List Effect}

/-- The statics without a lifetime answer every request with null… -/
theorem allocate_of_none (h : pool.sInitialized = false) (n : SizeT) :
    pool.allocate n = (pool, 0) := by
  simp [allocate, h]

/-- …and ignore every free. -/
theorem deallocate_of_none (h : pool.sInitialized = false) (ptr : SizeT) :
    pool.deallocate ptr = some pool := by
  simp [deallocate, h]

theorem Represents.allocate (h : Represents pool life) (n : SizeT) :
    Represents (pool.allocate n).1 (life.map (·.ask n)) := by
  cases life with
  | none => rw [allocate_of_none h.1]; exact h
  | some life =>
    obtain rfl : pool = life.pool := h
    rw [life.allocate_pool]
    rfl

/-- **Every call follows the lifetime**. -/
theorem Represents.step (h : Represents pool life)
    (hs : lifetimes.step pool e = some (pool', o)) : Represents pool' (follow life e) := by
  cases e with
  | initializePool mmap maps n =>
    obtain ⟨rfl, -⟩ := Prod.mk.inj (Option.some.inj hs)
    cases life with
    | none =>
      obtain ⟨hinit, hused, hlist⟩ := h
      by_cases hmap : mmap n = mapFailed
      · simp [follow, Represents, initializePool, hinit, hused, hlist, hmap]
      · simp [follow, Represents, initializePool_eq hinit hmap, hmap, Lifetime.pool,
          Lifetime.inUse, Lifetime.miscounted]
    | some life =>
      obtain rfl : pool = life.pool := h
      simp [follow, Represents, initializePool, Lifetime.pool]
  | shutdown =>
    obtain ⟨rfl, -⟩ := Prod.mk.inj (Option.some.inj hs)
    cases life with
    | none =>
      rw [shutdown, h.1]
      exact h
    | some life =>
      obtain rfl : pool = life.pool := h
      exact ⟨rfl, rfl, rfl⟩
  | allocate n =>
    obtain ⟨rfl, -⟩ := Prod.mk.inj (Option.some.inj hs)
    rw [follow]
    exact h.allocate n
  | allocateArray sizeofT count =>
    obtain ⟨rfl, -⟩ := Prod.mk.inj (Option.some.inj hs)
    rw [follow]
    exact h.allocate (count * sizeofT)
  | deallocate ptr =>
    obtain ⟨pool₁, hfree, heq⟩ := Option.map_eq_some_iff.mp hs
    obtain ⟨rfl, -⟩ := Prod.mk.inj heq
    by_cases hptr : ptr = 0
    · rw [MemoryPool.deallocate, if_pos (.inl hptr)] at hfree
      obtain rfl := Option.some.inj hfree
      simpa [follow, hptr] using h
    · rw [follow, if_neg hptr]
      cases life with
      | none =>
        rw [deallocate_of_none h.1] at hfree
        exact Option.some.inj hfree ▸ h
      | some life =>
        obtain rfl : pool = life.pool := h
        exact (Lifetime.deallocate_pool hfree hptr).2

/-- **In every run**, the statics represent the lifetime that the calls come to. -/
theorem represents_run {es : List ClassCall} {os : List Effect}
    (hrun : lifetimes.run fresh es = some (pool, os)) :
    Represents pool (es.foldl follow none) := by
  refine lifetimes.run_history (I := fun pool es _ => Represents pool (es.foldl follow none))
    (fun s es _ e s' o h hs => ?_) ⟨rfl, rfl, rfl⟩ hrun
  rw [List.foldl_append]
  exact h.step hs

end Follows

/-! ## The count -/

/-- The bytes that frees of a free block have taken off the count since the pool was initialized. -/
def idleBytes (es : List ClassCall) : ℕ :=
  (es.foldl follow none).elim 0 fun life => life.idleFrees * (life.size - sizeofBlock).toNat

theorem toNat_inUse (life : Lifetime) : life.inUse.toNat = usedSizes life.pool.sFreeList := by
  obtain ⟨base, size, taken, idleFrees, header⟩ := life
  cases taken <;> simp [Lifetime.inUse, Lifetime.pool, usedSizes, firstBlock]

/-- **When `get_used_bytes` tells what is in use**, in every run of the class. -/
theorem usedBytes_iff {es : List ClassCall} {pool : MemoryPool} {os : List Effect}
    (hrun : lifetimes.run fresh es = some (pool, os)) :
    pool.getUsedBytes.toNat = usedSizes pool.sFreeList ↔ 2 ^ 64 ∣ idleBytes es := by
  have hrep := represents_run hrun
  rw [idleBytes]
  cases hlife : es.foldl follow none with
  | none =>
    rw [hlife] at hrep
    obtain ⟨-, hused, hlist⟩ := hrep
    simp [getUsedBytes, hused, hlist, usedSizes]
  | some life =>
    rw [hlife] at hrep
    obtain rfl : pool = life.pool := hrep
    rw [← toNat_inUse, BitVec.toNat_inj]
    change life.inUse - life.miscounted = life.inUse ↔ _
    rw [sub_eq_self, ← BitVec.toNat_inj]
    simp [Lifetime.miscounted, Nat.dvd_iff_mod_eq_zero]

/-- Two lifetimes: in the first the block is freed twice, in the second it is kept. -/
def twoLifetimes : List ClassCall :=
  [.initializePool onePage mapsPages_onePage 4096, .allocate 100, .deallocate 0x10020,
    .deallocate 0x10020, .shutdown, .initializePool onePage mapsPages_onePage 4096,
    .allocateArray 4 16]

/-- The page, handed out. -/
def page (taken : Bool) : MemoryPool where
  sPool := 0x10000
  sPoolSize := 4096
  sUsedBytes := if taken then 4064 else 0
  sFreeList := [firstBlock 0x10000 4096 taken]
  sInitialized := true

def twoLifetimesEffects : List Effect :=
  [.mapped 0x10000 4096, .pointer 0x10020, .unmapped 0x10000 4096, .mapped 0x10000 4096,
    .pointer 0x10020]

theorem run_twoLifetimes :
    lifetimes.run fresh twoLifetimes = some (page true, twoLifetimesEffects) := rfl

theorem usedBytes_iff_twoLifetimes :
    (page true).getUsedBytes.toNat = usedSizes (page true).sFreeList ↔
      2 ^ 64 ∣ idleBytes twoLifetimes :=
  usedBytes_iff run_twoLifetimes

/-! ## The mappings -/

/-- The effect is one on the address space. -/
def Effect.isMapping : Effect → Bool
  | .pointer _ => false
  | _ => true

/-- Mapping, and unmapping the same. -/
def once (mapping : SizeT × SizeT) : List Effect :=
  [.mapped mapping.1 mapping.2, .unmapped mapping.1 mapping.2]

/-- The mapping there is. -/
def current (pool : MemoryPool) : List Effect :=
  if pool.sInitialized then [.mapped pool.sPool pool.sPoolSize] else []

theorem current_allocate (pool : MemoryPool) (n : SizeT) :
    current (pool.allocate n).1 = current pool := by
  rw [allocate]
  split_ifs
  · rfl
  · cases pool.findFreeBlock (roundUp n) <;> rfl

theorem current_deallocate {pool pool' : MemoryPool} {ptr : SizeT}
    (h : pool.deallocate ptr = some pool') : current pool' = current pool := by
  rw [deallocate] at h
  split_ifs at h
  · rw [Option.some.inj h]
  · obtain ⟨block, -, rfl⟩ := Option.map_eq_some_iff.mp h
    rfl

/-- A step of the class unmaps the mapping there is, or makes one where there is none. -/
theorem mappings_step {pool pool' : MemoryPool} {e : ClassCall} {o : List Effect}
    (hs : lifetimes.step pool e = some (pool', o)) :
    (o.filter Effect.isMapping = [] ∧ current pool' = current pool) ∨
      (o.filter Effect.isMapping = current pool' ∧ current pool = []) ∨
      ∃ mapping, current pool ++ o.filter Effect.isMapping = once mapping ∧ current pool' = [] := by
  cases e with
  | initializePool mmap maps n =>
    obtain ⟨rfl, rfl⟩ := Prod.mk.inj (Option.some.inj hs)
    by_cases hinit : pool.sInitialized = true
    · exact .inl (by simp [initializePool, hinit])
    · rw [Bool.not_eq_true] at hinit
      by_cases hmap : mmap n = mapFailed
      · exact .inl (by simp [initializePool, hinit, hmap, current])
      · refine .inr (.inl ?_)
        simp [initializePool_eq hinit hmap, hinit, hmap, current, Effect.isMapping]
  | shutdown =>
    obtain ⟨rfl, rfl⟩ := Prod.mk.inj (Option.some.inj hs)
    by_cases hinit : pool.sInitialized = true
    · refine .inr (.inr ⟨(pool.sPool, pool.sPoolSize), ?_⟩)
      simp [shutdown, hinit, current, Effect.isMapping, once]
    · exact .inl (by simp [shutdown, hinit])
  | allocate n =>
    obtain ⟨rfl, rfl⟩ := Prod.mk.inj (Option.some.inj hs)
    exact .inl ⟨rfl, current_allocate pool n⟩
  | allocateArray sizeofT count =>
    obtain ⟨rfl, rfl⟩ := Prod.mk.inj (Option.some.inj hs)
    exact .inl ⟨rfl, current_allocate pool (count * sizeofT)⟩
  | deallocate ptr =>
    obtain ⟨pool₁, hfree, heq⟩ := Option.map_eq_some_iff.mp hs
    obtain ⟨rfl, rfl⟩ := Prod.mk.inj heq
    exact .inl ⟨rfl, current_deallocate hfree⟩

/-- **What is mapped is unmapped**, once, and before the pool is mapped again. -/
theorem mappings_run {es : List ClassCall} {pool : MemoryPool} {os : List Effect}
    (hrun : lifetimes.run fresh es = some (pool, os)) :
    ∃ past : List (SizeT × SizeT),
      os.filter Effect.isMapping = past.flatMap once ++ current pool := by
  refine lifetimes.run_invariant
    (I := fun pool os => ∃ past, os.filter Effect.isMapping = past.flatMap once ++ current pool)
    (fun s os e s' o ⟨past, hpast⟩ hs => ?_) ⟨[], rfl⟩ hrun
  rw [List.filter_append, hpast]
  obtain ⟨hnone, hsame⟩ | ⟨hmap, hidle⟩ | ⟨mapping, honce, hidle⟩ := mappings_step hs
  · exact ⟨past, by rw [hnone, hsame, List.append_nil]⟩
  · exact ⟨past, by rw [hmap, hidle, List.append_nil]⟩
  · refine ⟨past ++ [mapping], ?_⟩
    rw [List.append_assoc, honce, hidle, List.flatMap_append, List.flatMap_singleton,
      List.append_nil]

theorem mappings_run_twoLifetimes :
    ∃ past : List (SizeT × SizeT),
      twoLifetimesEffects.filter Effect.isMapping = past.flatMap once ++ current (page true) :=
  mappings_run run_twoLifetimes

/-! ## The pointers -/

/-- A call that returns a pointer takes the block of the lifetime there is. -/
theorem taken_of_pointer {pool pool' : MemoryPool} {life : Option Lifetime} {e : ClassCall}
    {p : SizeT} (h : Represents pool life)
    (hs : lifetimes.step pool e = some (pool', [.pointer p])) (hp : p ≠ 0) :
    ∃ l, life = some l ∧ l.taken = false ∧
      ∃ l', Represents pool' (some l') ∧ l'.taken = true ∧ p = l'.base + sizeofBlock := by
  have hask : ∀ n, (pool.allocate n).2 = p → ∃ l, life = some l ∧ l.taken = false ∧
      ∃ l', Represents (pool.allocate n).1 (some l') ∧ l'.taken = true ∧
        p = l'.base + sizeofBlock := by
    rintro n rfl
    cases life with
    | none =>
      rw [allocate_of_none h.1] at hp
      exact absurd rfl hp
    | some l =>
      obtain rfl : pool = l.pool := h
      rw [l.allocate_pool] at hp ⊢
      by_cases htake : l.taken = false ∧ Accepts l.size n
      · exact ⟨l, rfl, htake.1, l.ask n, rfl, by simp [Lifetime.ask, htake.2], if_pos htake⟩
      · exact absurd (if_neg htake) hp
  cases e with
  | initializePool mmap maps n =>
    obtain ⟨-, ho⟩ := Prod.mk.inj (Option.some.inj hs)
    split_ifs at ho
    exact absurd (List.head_eq_of_cons_eq ho) (by simp)
  | shutdown =>
    obtain ⟨-, ho⟩ := Prod.mk.inj (Option.some.inj hs)
    split_ifs at ho
    exact absurd (List.head_eq_of_cons_eq ho) (by simp)
  | allocate n =>
    obtain ⟨rfl, ho⟩ := Prod.mk.inj (Option.some.inj hs)
    exact hask n (Effect.pointer.inj (List.head_eq_of_cons_eq ho))
  | allocateArray sizeofT count =>
    obtain ⟨rfl, ho⟩ := Prod.mk.inj (Option.some.inj hs)
    exact hask (count * sizeofT) (Effect.pointer.inj (List.head_eq_of_cons_eq ho))
  | deallocate ptr =>
    obtain ⟨pool₁, -, heq⟩ := Option.map_eq_some_iff.mp hs
    obtain ⟨-, ho⟩ := Prod.mk.inj heq
    cases ho

/-- **A block is handed out once**: before a call returns a pointer again, the pool is shut down or
somebody frees the pointer that was returned before. -/
theorem pointer_exclusive {es mid : List ClassCall} {e e' : ClassCall}
    {s₁ s₂ s₃ s₄ : MemoryPool} {os os' : List Effect} {p q : SizeT}
    (hrun : lifetimes.run fresh es = some (s₁, os))
    (hfirst : lifetimes.step s₁ e = some (s₂, [.pointer p]))
    (hmid : lifetimes.run s₂ mid = some (s₃, os'))
    (hsecond : lifetimes.step s₃ e' = some (s₄, [.pointer q])) (hp : p ≠ 0) (hq : q ≠ 0) :
    .shutdown ∈ mid ∨ .deallocate p ∈ mid := by
  by_contra hnot
  rw [not_or] at hnot
  obtain ⟨-, -, -, taken⟩ := taken_of_pointer (represents_run hrun) hfirst hp
  have hstays : ∃ l, Represents s₃ (some l) ∧ l.taken = true ∧ p = l.base + sizeofBlock := by
    refine lifetimes.run_invariant_along
      (G := fun _ e => e ≠ .shutdown ∧ e ≠ .deallocate p)
      (I := fun s _ => ∃ l, Represents s (some l) ∧ l.taken = true ∧ p = l.base + sizeofBlock)
      (fun s _ e s' o ⟨l, hrep, htaken, hbase⟩ hG hs => ?_) taken
      (lifetimes.along_of_forall fun e he s =>
        ⟨fun h => hnot.1 (h ▸ he), fun h => hnot.2 (h ▸ he)⟩) hmid
    have hstep := hrep.step hs
    cases e with
    | initializePool mmap maps n => exact ⟨l, hstep, htaken, hbase⟩
    | shutdown => exact absurd rfl hG.1
    | allocate n => exact ⟨l.ask n, hstep, by simp [Lifetime.ask, htaken], hbase⟩
    | allocateArray sizeofT count =>
      exact ⟨l.ask (count * sizeofT), hstep, by simp [Lifetime.ask, htaken], hbase⟩
    | deallocate ptr =>
      by_cases hptr : ptr = 0
      · rw [follow, if_pos hptr] at hstep
        exact ⟨l, hstep, htaken, hbase⟩
      · obtain ⟨pool₁, hfree, -⟩ := Option.map_eq_some_iff.mp hs
        obtain rfl : s = l.pool := hrep
        have heq := (Lifetime.deallocate_pool hfree hptr).1
        exact absurd (congrArg ClassCall.deallocate (heq.trans hbase.symm)) hG.2
  obtain ⟨l, hrep, htaken, -⟩ := hstays
  obtain ⟨l', heq, hfree, -⟩ := taken_of_pointer hrep hsecond hq
  obtain rfl := Option.some.inj heq
  exact Bool.noConfusion (htaken.symm.trans hfree)

theorem pointer_exclusive_reuse :
    ClassCall.shutdown ∈ [ClassCall.deallocate 0x10020] ∨
      ClassCall.deallocate 0x10020 ∈ [ClassCall.deallocate 0x10020] := by
  have hrun : lifetimes.run fresh [.initializePool onePage mapsPages_onePage 4096] =
      some (page false, [.mapped 0x10000 4096]) := rfl
  have hask : lifetimes.step (page false) (.allocate 100) =
      some (page true, [.pointer 0x10020]) := rfl
  have hfree : lifetimes.run (page true) [.deallocate 0x10020] = some (page false, []) := rfl
  exact pointer_exclusive hrun hask hfree hask (by decide) (by decide)

end MemoryPool

end BioShield
