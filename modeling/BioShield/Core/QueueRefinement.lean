import BioShield.Machinery.Fifo
import BioShield.Core.LockFreeQueue
import Mathlib.Data.Nat.Bitwise
import Mathlib.Data.Nat.Log
import Mathlib.Data.Int.ModEq

/-!
# Core/QueueRefinement — the ring buffer is a bounded FIFO queue

The indices are only known modulo `2^64` and a slot modulo the capacity, so the simulation relation
`Represents k base s l` carries the one absolute number they are all read from: `base`, how many
packets were ever popped.  The list `l` is the abstract queue; what the two calls in flight may
rely on is stated relative to it:

* a `push` past its test knows the queue still has room — only `pop` has moved meanwhile;
* a `pop` past its test knows the head of `l` — only `push` has moved meanwhile.

Each thread's step is simulated on its own (`Represents.push_step`, `Represents.pop_step`), and
`run_refines` carries the result to every interleaving.
-/

namespace BioShield

open Machinery TelemetryPacket

namespace LockFreeQueue

/-! ## Index arithmetic -/

theorem toNat_two_pow {k : ℕ} (hk : k < 64) : (BitVec.ofNat 64 (2 ^ k)).toNat = 2 ^ k := by
  rw [BitVec.toNat_ofNat, Nat.mod_eq_of_lt (Nat.pow_lt_pow_right (by omega) hk)]

theorem shiftLeft_two_pow (j : ℕ) :
    BitVec.ofNat 64 (2 ^ j) <<< 1 = BitVec.ofNat 64 (2 ^ (j + 1)) := by
  apply BitVec.eq_of_toNat_eq
  simp [Nat.shiftLeft_eq, pow_succ]

/-- **Masking is reduction modulo the capacity**, also when the index has wrapped: the capacity is
a power of two dividing `2^64`. -/
theorem slot_ofNat {q : LockFreeQueue} {k : ℕ} (hk : k < 64)
    (hq : q.mCapacity = BitVec.ofNat 64 (2 ^ k)) (n : ℕ) :
    q.slot (BitVec.ofNat 64 n) = n % 2 ^ k := by
  have hpos : 0 < 2 ^ k := Nat.two_pow_pos k
  have hlt : 2 ^ k < 2 ^ 64 := Nat.pow_lt_pow_right (by omega) hk
  have hmask : (q.mCapacity - 1).toNat = 2 ^ k - 1 := by
    rw [hq, BitVec.toNat_sub_of_le, toNat_two_pow hk]
    · rfl
    · rw [BitVec.le_def, toNat_two_pow hk]
      exact hpos
  rw [slot, BitVec.toNat_and, hmask, BitVec.toNat_ofNat, Nat.and_two_pow_sub_one_eq_mod,
    Nat.mod_mod_of_dvd _ (Nat.pow_dvd_pow 2 hk.le)]

theorem two_pow_lt_iff {k : ℕ} (hk : k < 64) {capacity : SizeT} :
    BitVec.ofNat 64 (2 ^ k) < capacity ↔ 2 ^ k < capacity.toNat := by
  rw [BitVec.lt_def, toNat_two_pow hk]

/-- **The doubling loop ends in a power of two**, the first it meets that is at least the requested
capacity… -/
theorem roundCapacity_two_pow {capacity : SizeT} (hc : capacity.toNat ≤ 2 ^ 63) {fuel j : ℕ}
    (hj : j ≤ 63) (hfuel : 63 ≤ j + fuel) :
    roundCapacity capacity fuel (BitVec.ofNat 64 (2 ^ j)) =
      some (BitVec.ofNat 64 (2 ^ max j (Nat.clog 2 capacity.toNat))) := by
  have hclog : Nat.clog 2 capacity.toNat ≤ 63 := (Nat.clog_le_iff_le_pow Nat.one_lt_two).mpr hc
  have hlt : BitVec.ofNat 64 (2 ^ j) < capacity ↔ j < Nat.clog 2 capacity.toNat := by
    rw [two_pow_lt_iff (by omega), Nat.lt_clog_iff_pow_lt Nat.one_lt_two]
  induction fuel generalizing j with
  | zero =>
    obtain rfl : j = 63 := by omega
    rw [roundCapacity, if_neg (hlt.not.mpr (not_lt.mpr hclog)), max_eq_left hclog]
  | succ fuel ih =>
    rw [roundCapacity]
    split_ifs with hsmall
    · have hj' : j + 1 ≤ Nat.clog 2 capacity.toNat := hlt.mp hsmall
      rw [shiftLeft_two_pow, ih (by omega) (by omega), max_eq_right hj',
        max_eq_right (Nat.le_of_succ_le hj')]
      rw [two_pow_lt_iff (by omega), Nat.lt_clog_iff_pow_lt Nat.one_lt_two]
    · rw [max_eq_left (not_lt.mp (hlt.not.mp hsmall))]

/-- …so its result is one. -/
theorem roundCapacity_eq {capacity : SizeT} (hc : capacity.toNat ≤ 2 ^ 63) {fuel j : ℕ}
    (hj : j ≤ 63) (hfuel : 63 ≤ j + fuel) :
    ∃ k, k < 64 ∧ capacity.toNat ≤ 2 ^ k ∧
      roundCapacity capacity fuel (BitVec.ofNat 64 (2 ^ j)) = some (BitVec.ofNat 64 (2 ^ k)) := by
  have hclog : Nat.clog 2 capacity.toNat ≤ 63 := (Nat.clog_le_iff_le_pow Nat.one_lt_two).mpr hc
  refine ⟨max j (Nat.clog 2 capacity.toNat), by omega, ?_, roundCapacity_two_pow hc hj hfuel⟩
  exact (Nat.clog_le_iff_le_pow Nat.one_lt_two).mp (le_max_right _ _)

/-- The distance between two indices, wrapped or not. -/
theorem ofNat_add_sub (base n : ℕ) :
    BitVec.ofNat 64 (base + n) - BitVec.ofNat 64 base = BitVec.ofNat 64 n := by
  rw [BitVec.ofNat_add, BitVec.add_comm, BitVec.add_sub_cancel]

/-- Two slots less than one revolution apart are different. -/
theorem mod_ne_mod (base : ℕ) {i n m : ℕ} (hin : i < n) (hnm : n < i + m) :
    (base + i) % m ≠ (base + n) % m := by
  intro h
  have hdvd : m ∣ (base + n) - (base + i) := (Nat.modEq_iff_dvd' (by omega)).mp h
  exact absurd (Nat.le_of_dvd (by omega) hdvd) (by omega)

/-! ## What the calls in flight rely on -/

/-- What a `push` in flight knows about the queue. -/
def Push.Consistent (k base : ℕ) (q : LockFreeQueue) (l : List TelemetryPacket) : Push → Prop
  | .idle => True
  | .loadedWrite _ writeIdx => writeIdx = BitVec.ofNat 64 (base + l.length)
  | .writing packet writeIdx done =>
      writeIdx = BitVec.ofNat 64 (base + l.length) ∧ l.length < 2 ^ k ∧
        AgreeOn done (q.mBuffer ((base + l.length) % 2 ^ k)) packet

/-- What a `pop` in flight knows about the queue. -/
def Pop.Consistent (base : ℕ) (l : List TelemetryPacket) : Pop → Prop
  | .idle => True
  | .loadedRead _ readIdx => readIdx = BitVec.ofNat 64 base
  | .reading packet readIdx done =>
      readIdx = BitVec.ofNat 64 base ∧ ∃ a, l.head? = some a ∧ AgreeOn done packet a

/-- An append does not move the head a `pop` in flight is reading. -/
theorem Pop.Consistent.append {base : ℕ} {l : List TelemetryPacket} {c : Pop}
    (h : c.Consistent base l) (packet : TelemetryPacket) : c.Consistent base (l ++ [packet]) := by
  cases c with
  | idle => trivial
  | loadedRead dst readIdx => exact h
  | reading dst readIdx done =>
    obtain ⟨hr, a, ha, hagree⟩ := h
    exact ⟨hr, a, by rw [List.head?_append, ha]; rfl, hagree⟩

/-- Popping frees a slot: a `push` in flight keeps what it knew. -/
theorem Push.Consistent.tail {k base : ℕ} {q q' : LockFreeQueue} {packet : TelemetryPacket}
    {t : List TelemetryPacket} {p : Push} (hbuffer : q'.mBuffer = q.mBuffer)
    (h : p.Consistent k base q (packet :: t)) : p.Consistent k (base + 1) q' t := by
  have hlen : base + (packet :: t).length = base + 1 + t.length := by
    rw [List.length_cons]
    omega
  cases p with
  | idle => trivial
  | loadedWrite packet' writeIdx => exact h.trans (by rw [hlen])
  | writing packet' writeIdx done =>
    obtain ⟨hw, hlt, hagree⟩ := h
    refine ⟨hw.trans (by rw [hlen]), Nat.lt_of_succ_lt hlt, ?_⟩
    rwa [hlen, ← hbuffer] at hagree

/-- **The simulation relation**: the shared memory and the calls in flight, read against the
abstract queue `l` and the number `base` of packets popped so far. -/
structure Represents (k base : ℕ) (s : Threads) (l : List TelemetryPacket) : Prop where
  capacity : s.queue.mCapacity = BitVec.ofNat 64 (2 ^ k)
  readIndex : s.queue.mReadIndex = BitVec.ofNat 64 base
  writeIndex : s.queue.mWriteIndex = BitVec.ofNat 64 (base + l.length)
  room : l.length ≤ 2 ^ k
  slots : ∀ (i : ℕ) (h : i < l.length), s.queue.mBuffer ((base + i) % 2 ^ k) = l[i]
  producer : s.producer.Consistent k base s.queue l
  consumer : s.consumer.Consistent base l

/-- What a return says about the abstract queue; the observers say nothing. -/
def Return.op : Return → Option (FifoOp TelemetryPacket)
  | .push packet true => some (.enq packet)
  | .push _ false => some .enqFull
  | .pop (some packet) => some (.deq packet)
  | .pop none => some .deqEmpty
  | _ => none

theorem Observe.Moves.op_eq_nil {q : LockFreeQueue} {t t' : Observe} {e : ObserveEvent}
    {os : List Return} (h : Observe.Moves q t e t' os) : os.filterMap Return.op = [] := by
  cases h with
  | loadWrite query => rfl
  | @loadRead query writeIdx => cases query <;> rfl

/-- Only the load of `m_read_index` makes a `push` return false. -/
theorem producer_of_push_refused {s s' : Threads} {e : Event} {packet : TelemetryPacket}
    (h : Moves s e s' [.push packet false]) :
    ∃ writeIdx, s.producer = .loadedWrite packet writeIdx := by
  obtain ⟨q, p, c, o⟩ := s
  cases h with
  | producer hm => cases hm with | refuse _ => exact ⟨_, rfl⟩
  | consumer hm => cases hm
  | observer hm => exact absurd hm.op_eq_nil (List.cons_ne_nil _ _)

/-- Only the load of `m_write_index` makes a `pop` return false. -/
theorem consumer_of_pop_refused {s s' : Threads} {e : Event}
    (h : Moves s e s' [.pop none]) :
    ∃ packet readIdx, s.consumer = .loadedRead packet readIdx := by
  obtain ⟨q, p, c, o⟩ := s
  cases h with
  | producer hm => cases hm
  | consumer hm => cases hm with | refuse _ _ => exact ⟨_, _, rfl⟩
  | observer hm => exact absurd hm.op_eq_nil (List.cons_ne_nil _ _)

section Simulation

variable {k base : ℕ} {s : Threads} {l : List TelemetryPacket} (hk : k < 64)
  (h : Represents k base s l)
include hk h

/-- The queue's own fullness test is the abstract one. -/
theorem Represents.full_iff :
    s.queue.mCapacity ≤ s.queue.mWriteIndex - s.queue.mReadIndex ↔ l.length = 2 ^ k := by
  have hlt : 2 ^ k < 2 ^ 64 := Nat.pow_lt_pow_right (by omega) hk
  have hroom := h.room
  rw [h.capacity, h.writeIndex, h.readIndex, ofNat_add_sub, BitVec.le_def, toNat_two_pow hk,
    BitVec.toNat_ofNat, Nat.mod_eq_of_lt (by omega)]
  omega

/-- The queue's own emptiness test is the abstract one. -/
theorem Represents.empty_iff :
    s.queue.mReadIndex = s.queue.mWriteIndex ↔ l = [] := by
  have hlt : 2 ^ k < 2 ^ 64 := Nat.pow_lt_pow_right (by omega) hk
  have hroom := h.room
  have hdist := ofNat_add_sub base l.length
  rw [h.readIndex, h.writeIndex]
  constructor
  · intro heq
    rw [← heq, BitVec.sub_self] at hdist
    have h0 : l.length % 2 ^ 64 = 0 := by
      rw [← BitVec.toNat_ofNat, ← hdist]
      rfl
    rw [Nat.mod_eq_of_lt (by omega)] at h0
    exact List.length_eq_zero_iff.mp h0
  · rintro rfl
    rfl

/-- **A step of `push` is at most one step of the abstract queue.** -/
theorem Represents.push_step {e : PushEvent} {q' : LockFreeQueue} {p' : Push} {os : List Return}
    (hm : Push.Moves s.queue s.producer e q' p' os) :
    ∃ l', Path (Fifo.Step (2 ^ k)) l (os.filterMap Return.op) l' ∧
      Represents k base { s with queue := q', producer := p' } l' := by
  obtain ⟨q, p, c, o⟩ := s
  have hprod := h.producer
  cases hm with
  | loadWrite packet => exact ⟨l, .nil l, { h with producer := h.writeIndex }⟩
  | @refuse packet writeIdx hfull =>
    -- the write index it loaded is still the queue's: only this thread stores it
    obtain rfl : writeIdx = q.mWriteIndex := hprod.trans h.writeIndex.symm
    exact ⟨l, .single (.enqFull ((h.full_iff hk).mp hfull)), { h with producer := trivial }⟩
  | @accept packet writeIdx hroom =>
    obtain rfl : writeIdx = q.mWriteIndex := hprod.trans h.writeIndex.symm
    have hlt : l.length < 2 ^ k := lt_of_le_of_ne h.room (mt (h.full_iff hk).mpr hroom)
    exact ⟨l, .nil l, { h with producer := ⟨h.writeIndex, hlt, agreeOn_empty _ _⟩ }⟩
  | @field packet writeIdx done f hf =>
    obtain ⟨hw, hlt, hagree⟩ := hprod
    have hslot : q.slot writeIdx = (base + l.length) % 2 ^ k := by
      rw [hw, slot_ofNat hk h.capacity]
    refine ⟨l, .nil l, { h with slots := fun i hi => ?_, producer := ⟨hw, hlt, ?_⟩ }⟩
    · -- the slot being written is none of the queued ones
      have hne := mod_ne_mod base hi (by omega : l.length < i + 2 ^ k)
      simp only [writeField, hslot, Function.update_of_ne hne]
      exact h.slots i hi
    · simp only [writeField, hslot, Function.update_self]
      exact hagree.copyField f
  | @store packet writeIdx =>
    obtain ⟨hw, hlt, hagree⟩ := hprod
    have hlen : base + (l ++ [packet]).length = base + l.length + 1 := by
      rw [List.length_append, List.length_singleton, Nat.add_assoc]
    refine ⟨l ++ [packet], .single (.enq packet hlt), ⟨h.capacity, h.readIndex, ?_, ?_,
      fun i hi => ?_, trivial, h.consumer.append packet⟩⟩
    · rw [hlen, BitVec.ofNat_add, hw]
      rfl
    · rw [List.length_append, List.length_singleton]
      exact hlt
    · rcases Nat.lt_or_ge i l.length with hi' | hi'
      · rw [List.getElem_append_left hi']
        exact h.slots i hi'
      · obtain rfl : i = l.length := by
          rw [List.length_append, List.length_singleton] at hi
          omega
        rw [List.getElem_concat_length rfl]
        exact hagree.eq

/-- **A step of `pop` is at most one step of the abstract queue.** -/
theorem Represents.pop_step {e : PopEvent} {q' : LockFreeQueue} {p' : Pop} {os : List Return}
    (hm : Pop.Moves s.queue s.consumer e q' p' os) :
    ∃ base' l', Path (Fifo.Step (2 ^ k)) l (os.filterMap Return.op) l' ∧
      Represents k base' { s with queue := q', consumer := p' } l' := by
  obtain ⟨q, p, c, o⟩ := s
  have hcons := h.consumer
  cases hm with
  | loadRead packet => exact ⟨base, l, .nil l, { h with consumer := h.readIndex }⟩
  | @refuse packet readIdx hempty =>
    -- the read index it loaded is still the queue's: only this thread stores it
    obtain rfl : readIdx = q.mReadIndex := hcons.trans h.readIndex.symm
    obtain rfl : l = [] := (h.empty_iff hk).mp hempty
    exact ⟨base, [], .single .deqEmpty, { h with consumer := trivial }⟩
  | @accept packet readIdx hsome =>
    obtain rfl : readIdx = q.mReadIndex := hcons.trans h.readIndex.symm
    obtain ⟨a, t, rfl⟩ := List.exists_cons_of_ne_nil (mt (h.empty_iff hk).mpr hsome)
    exact ⟨base, a :: t, .nil _, { h with
      consumer := ⟨h.readIndex, a, rfl, agreeOn_empty _ _⟩ }⟩
  | @field packet readIdx done f hf =>
    obtain ⟨hr, a, ha, hagree⟩ := hcons
    obtain ⟨t, rfl⟩ : ∃ t, l = a :: t := ⟨l.tail, List.eq_cons_of_mem_head? ha⟩
    have hslot : q.mBuffer (q.slot readIdx) = a := by
      rw [hr, slot_ofNat hk h.capacity]
      exact h.slots 0 (Nat.succ_pos _)
    refine ⟨base, a :: t, .nil _, { h with consumer := ⟨hr, a, rfl, ?_⟩ }⟩
    rw [hslot]
    exact hagree.copyField f
  | @store packet readIdx =>
    obtain ⟨hr, a, ha, hagree⟩ := hcons
    obtain ⟨t, rfl⟩ : ∃ t, l = a :: t := ⟨l.tail, List.eq_cons_of_mem_head? ha⟩
    obtain rfl : packet = a := hagree.eq
    have hlen : base + (packet :: t).length = base + 1 + t.length := by
      rw [List.length_cons]
      omega
    refine ⟨base + 1, t, .single (.deq packet t), ⟨h.capacity, ?_, ?_, ?_,
      fun i hi => ?_, h.producer.tail rfl, trivial⟩⟩
    · rw [BitVec.ofNat_add, hr]
      rfl
    · rw [← hlen]
      exact h.writeIndex
    · exact Nat.le_of_succ_le h.room
    · have := h.slots (i + 1) (Nat.succ_lt_succ hi)
      rwa [show base + (i + 1) = base + 1 + i by omega] at this

/-- **A step of any thread is at most one step of the abstract queue** — an observer's is none. -/
theorem Represents.step {e : Event} {s' : Threads} {os : List Return}
    (hs : threads.step s e = some (s', os)) :
    ∃ base' l', Path (Fifo.Step (2 ^ k)) l (os.filterMap Return.op) l' ∧
      Represents k base' s' l' := by
  cases moves_of_step hs with
  | producer hm =>
    obtain ⟨l', hpath, h'⟩ := h.push_step hk hm
    exact ⟨base, l', hpath, h'⟩
  | consumer hm => exact h.pop_step hk hm
  | observer hm => exact ⟨base, l, by rw [hm.op_eq_nil]; exact .nil l, { h with }⟩

/-- **Never read while written**: a `push` writes the slot past the queue, a `pop` reads its
head. -/
theorem Represents.slots_disjoint {i : ℕ} (hi : s.writingSlot = some i) :
    s.readingSlot ≠ some i := by
  obtain ⟨q, p, c, o⟩ := s
  have hprod := h.producer
  have hcons := h.consumer
  intro hj
  cases p with
  | idle => cases hi
  | loadedWrite _ _ => cases hi
  | writing packet writeIdx done =>
    cases c with
    | idle => cases hj
    | loadedRead _ _ => cases hj
    | reading dst readIdx done' =>
      obtain ⟨hw, hlt, -⟩ := hprod
      obtain ⟨hr, a, ha, -⟩ := hcons
      have hpos : 0 < l.length := by
        rw [List.eq_cons_of_mem_head? ha]
        exact Nat.succ_pos _
      have hslots : q.slot readIdx = q.slot writeIdx :=
        Option.some.inj (hj.trans hi.symm)
      rw [hr, hw, slot_ofNat hk h.capacity, slot_ofNat hk h.capacity] at hslots
      exact mod_ne_mod base hpos (by omega : l.length < 0 + 2 ^ k) hslots

/-- **A `push` is refused at a moment of its own call at which the queue is full.** -/
theorem Represents.push_refused {e : Event} {s' : Threads} {packet : TelemetryPacket}
    (hs : threads.step s e = some (s', [.push packet false])) :
    (∃ writeIdx, s.producer = .loadedWrite packet writeIdx) ∧ l.length = 2 ^ k := by
  obtain ⟨_, _, hpath, _⟩ := h.step hk hs
  refine ⟨producer_of_push_refused (moves_of_step hs), ?_⟩
  cases hpath with
  | cons hT _ =>
    cases hT with
    | enqFull hfull => exact hfull

/-- **A `pop` is refused at a moment of its own call at which the queue is empty.** -/
theorem Represents.pop_refused {e : Event} {s' : Threads}
    (hs : threads.step s e = some (s', [.pop none])) :
    (∃ packet readIdx, s.consumer = .loadedRead packet readIdx) ∧ l = [] := by
  obtain ⟨_, _, hpath, _⟩ := h.step hk hs
  refine ⟨consumer_of_pop_refused (moves_of_step hs), ?_⟩
  cases hpath with
  | cons hT _ =>
    cases hT with
    | deqEmpty => rfl

end Simulation

/-! ## Whole runs -/

/-- The packets given to the successful pushes, in order. -/
def pushed (os : List Return) : List TelemetryPacket := Fifo.enqueued (os.filterMap Return.op)

/-- The packets returned by the successful pops, in order. -/
def popped (os : List Return) : List TelemetryPacket := Fifo.dequeued (os.filterMap Return.op)

theorem represents_start {k : ℕ} {q : LockFreeQueue} (hq : q = init (BitVec.ofNat 64 (2 ^ k))) :
    Represents k 0 (Threads.start q) [] := by
  subst hq
  exact ⟨rfl, rfl, rfl, Nat.zero_le _, fun i hi => absurd hi (Nat.not_lt_zero i), trivial, trivial⟩

/-- **Every run is a run of the abstract queue**, whatever the interleaving. -/
theorem run_represents {k : ℕ} (hk : k < 64) {q : LockFreeQueue}
    (hq : q = init (BitVec.ofNat 64 (2 ^ k))) {es : List Event} {s : Threads} {os : List Return}
    (hrun : threads.run (Threads.start q) es = some (s, os)) :
    ∃ base l, Path (Fifo.Step (2 ^ k)) [] (os.filterMap Return.op) l ∧ Represents k base s l := by
  obtain ⟨l, hpath, base, hl⟩ := threads.run_refines Return.op
    (R := fun s l => ∃ base, Represents k base s l)
    (fun s l e s' o ⟨_, h⟩ hs => by
      obtain ⟨base', l', hpath, h'⟩ := h.step hk hs
      exact ⟨l', hpath, base', h'⟩)
    ⟨0, represents_start hq⟩ hrun
  exact ⟨base, l, hpath, hl⟩

/-- **The ring buffer is a bounded FIFO queue for one producer and one consumer.**  The
constructor returns for every capacity up to `2^63`, and then, after any schedule of the threads'
atomic steps: the returns are those of a bounded FIFO queue; what was popped is a prefix of what was
pushed; the packets in between are at most `m_capacity`; no slot is read while it is written; and a
call is refused only at a moment of its own at which the queue is full, or empty. -/
theorem lockFreeQueue_refines_fifo (capacity : SizeT) (hc : capacity.toNat ≤ 2 ^ 63) :
    ∃ q, new 63 capacity = some q ∧ capacity.toNat ≤ q.mCapacity.toNat ∧
      ∀ (es : List Event) (s : Threads) (os : List Return),
        threads.run (Threads.start q) es = some (s, os) →
        (∃ l, Path (Fifo.Step q.mCapacity.toNat) [] (os.filterMap Return.op) l) ∧
        popped os <+: pushed os ∧
        (pushed os).length ≤ (popped os).length + q.mCapacity.toNat ∧
        (∀ i, s.writingSlot = some i → s.readingSlot ≠ some i) ∧
        (∀ e s' packet, threads.step s e = some (s', [.push packet false]) →
          (∃ writeIdx, s.producer = .loadedWrite packet writeIdx) ∧
            (pushed os).length = (popped os).length + q.mCapacity.toNat) ∧
        (∀ e s', threads.step s e = some (s', [.pop none]) →
          (∃ packet readIdx, s.consumer = .loadedRead packet readIdx) ∧
            pushed os = popped os) := by
  obtain ⟨k, hk, hle, hround⟩ := roundCapacity_eq hc (Nat.zero_le 63) (by rfl : 63 ≤ 0 + 63)
  refine ⟨init (BitVec.ofNat 64 (2 ^ k)), congrArg (Option.map init) hround, ?_, ?_⟩
  · exact hle.trans_eq (toNat_two_pow hk).symm
  · intro es s os hrun
    obtain ⟨base, l, hpath, h⟩ := run_represents hk rfl hrun
    have hcap : (init (BitVec.ofNat 64 (2 ^ k))).mCapacity.toNat = 2 ^ k := toNat_two_pow hk
    have hsplit : pushed os = popped os ++ l := Fifo.enqueued_eq hpath
    have hlen : (pushed os).length = (popped os).length + l.length := by
      rw [hsplit, List.length_append]
    rw [hcap]
    refine ⟨⟨l, hpath⟩, Fifo.dequeued_prefix hpath, ?_, fun i hi => h.slots_disjoint hk hi,
      fun e s' packet hs => ?_, fun e s' hs => ?_⟩
    · exact hlen.le.trans (Nat.add_le_add_left h.room _)
    · obtain ⟨hcall, hfull⟩ := h.push_refused hk hs
      exact ⟨hcall, by rw [hlen, hfull]⟩
    · obtain ⟨hcall, rfl⟩ := h.pop_refused hk hs
      exact ⟨hcall, by rw [hsplit, List.append_nil]⟩

/-- A pop on a fresh queue of capacity 2 is refused while a push is in flight: nothing was popped
before it was pushed. -/
theorem lockFreeQueue_refines_fifo_two :
    ∃ q s, new 63 2 = some q ∧
      threads.run (Threads.start q)
        [.producer (.loadWrite .zero), .consumer (.loadRead .zero), .producer .loadRead,
          .consumer .loadWrite, .producer (.field .channelId)] = some (s, [.pop none]) ∧
      (∃ i, s.writingSlot = some i ∧ s.readingSlot ≠ some i) ∧
      popped [.pop none] <+: pushed [.pop none] := by
  obtain ⟨q, hq, -, hrun⟩ := lockFreeQueue_refines_fifo 2 (by decide)
  obtain rfl : init 2 = q := Option.some.inj hq
  obtain ⟨-, hpre, -, hdisj, -⟩ := hrun
    [.producer (.loadWrite .zero), .consumer (.loadRead .zero), .producer .loadRead,
      .consumer .loadWrite, .producer (.field .channelId)] _ _ rfl
  exact ⟨init 2, _, hq, rfl, ⟨0, rfl, hdisj 0 rfl⟩, hpre⟩

end LockFreeQueue

end BioShield
