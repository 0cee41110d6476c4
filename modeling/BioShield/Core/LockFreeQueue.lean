import BioShield.Machinery.Machine
import Mathlib.Data.Fintype.Sum
import Mathlib.Tactic.DeriveFintype

/-!
# Core/LockFreeQueue — the telemetry ring buffer (`core/lockfree_queue.cpp`)

One producer thread calls `push`, one consumer thread calls `pop`, and the telemetry thread calls
`size`, `empty` or `full`.  Every load or store of an index and every field of a slot is a step of
its own; what a thread computes between two such steps is folded into the step before.  A packet
assignment copies the fields one by one in whatever order the compiler chose, so a thread copying a
slot carries the set of fields it has copied.

Indices are `size_t`: `BitVec 64`, wrapping.
-/

namespace BioShield

/-- `size_t` on the target. -/
abbrev SizeT := BitVec 64

/-- A telemetry packet (`core/lockfree_queue.h`); the floats are kept as their bit patterns. -/
structure TelemetryPacket where
  sourceIp : BitVec 64
  timestampNs : BitVec 64
  channelId : BitVec 32
  numSamples : BitVec 32
  frequencyData : Vector (BitVec 32) 64
  deriving DecidableEq

namespace TelemetryPacket

/-- The fields a packet assignment copies, the array element by element. -/
inductive Field
  | sourceIp | timestampNs | channelId | numSamples
  | frequencyData (i : Fin 64)
  deriving DecidableEq, Fintype

/-- A packet of zero bytes, as `memset` leaves it. -/
def zero : TelemetryPacket := ⟨0, 0, 0, 0, Vector.replicate 64 0⟩

/-- `dst` after one field of `src` was copied into it. -/
def copyField (dst src : TelemetryPacket) : Field → TelemetryPacket
  | .sourceIp => { dst with sourceIp := src.sourceIp }
  | .timestampNs => { dst with timestampNs := src.timestampNs }
  | .channelId => { dst with channelId := src.channelId }
  | .numSamples => { dst with numSamples := src.numSamples }
  | .frequencyData i => { dst with frequencyData := dst.frequencyData.set i src.frequencyData[i] }

/-- The two packets hold the same value in a field. -/
def Agree (p q : TelemetryPacket) : Field → Prop
  | .sourceIp => p.sourceIp = q.sourceIp
  | .timestampNs => p.timestampNs = q.timestampNs
  | .channelId => p.channelId = q.channelId
  | .numSamples => p.numSamples = q.numSamples
  | .frequencyData i => p.frequencyData[i] = q.frequencyData[i]

/-- A packet is its fields. -/
theorem eq_of_agree {p q : TelemetryPacket} (h : ∀ f, p.Agree q f) : p = q := by
  obtain ⟨s, t, c, n, d⟩ := p
  obtain ⟨s', t', c', n', d'⟩ := q
  obtain rfl : s = s' := h .sourceIp
  obtain rfl : t = t' := h .timestampNs
  obtain rfl : c = c' := h .channelId
  obtain rfl : n = n' := h .numSamples
  obtain rfl : d = d' := Vector.ext fun i hi => h (.frequencyData ⟨i, hi⟩)
  rfl

/-- Copying a field makes the packets agree on it… -/
theorem agree_copyField_self (dst src : TelemetryPacket) (f : Field) :
    (dst.copyField src f).Agree src f := by
  cases f <;> simp [copyField, Agree]

/-- …and never undoes a field copied before. -/
theorem Agree.copyField {dst src : TelemetryPacket} {g : Field} (h : dst.Agree src g) (f : Field) :
    (dst.copyField src f).Agree src g := by
  cases f <;> cases g <;> simp_all [TelemetryPacket.copyField, Agree, Vector.getElem_set]

/-- A copy in progress: the fields in `done` are already those of `src`. -/
def AgreeOn (done : Finset Field) (p src : TelemetryPacket) : Prop := ∀ f ∈ done, p.Agree src f

theorem agreeOn_empty (p src : TelemetryPacket) : AgreeOn ∅ p src :=
  fun f hf => absurd hf (Finset.notMem_empty f)

theorem AgreeOn.copyField {done : Finset Field} {p src : TelemetryPacket} (h : AgreeOn done p src)
    (f : Field) : AgreeOn (insert f done) (p.copyField src f) src := by
  intro g hg
  rcases Finset.mem_insert.mp hg with rfl | hg
  · exact agree_copyField_self p src g
  · exact (h g hg).copyField f

/-- **No torn packet**: a copy of all fields is the packet. -/
theorem AgreeOn.eq {p src : TelemetryPacket} (h : AgreeOn Finset.univ p src) : p = src :=
  eq_of_agree fun f => h f (Finset.mem_univ f)

end TelemetryPacket

open TelemetryPacket (Field)

/-! ## The queue and its constructor -/

/-- The members of `LockFreeQueue`; a slot of `mBuffer` is meaningful below `mCapacity`. -/
structure LockFreeQueue where
  mCapacity : SizeT
  mBuffer : ℕ → TelemetryPacket
  mWriteIndex : SizeT
  mReadIndex : SizeT

namespace LockFreeQueue

/-- `while (m_capacity < capacity) m_capacity <<= 1`, cut after `fuel` rounds: `none` says the loop
was still running. -/
def roundCapacity (capacity : SizeT) : ℕ → SizeT → Option SizeT
  | 0, mCapacity => if mCapacity < capacity then none else some mCapacity
  | fuel + 1, mCapacity =>
      if mCapacity < capacity then roundCapacity capacity fuel (mCapacity <<< 1)
      else some mCapacity

/-- The members once the loop has settled `mCapacity`. -/
def init (mCapacity : SizeT) : LockFreeQueue where
  mCapacity := mCapacity
  mBuffer := fun _ => TelemetryPacket.zero
  mWriteIndex := 0
  mReadIndex := 0

/-- The constructor. -/
def new (fuel : ℕ) (capacity : SizeT) : Option LockFreeQueue :=
  (roundCapacity capacity fuel 1).map init

/-- `idx & (m_capacity - 1)`. -/
def slot (q : LockFreeQueue) (idx : SizeT) : ℕ := (idx &&& (q.mCapacity - 1)).toNat

/-- One field of `m_buffer[write_idx & (m_capacity - 1)] = packet`. -/
def writeField (q : LockFreeQueue) (writeIdx : SizeT) (packet : TelemetryPacket) (f : Field) :
    LockFreeQueue :=
  { q with
    mBuffer := Function.update q.mBuffer (q.slot writeIdx)
      ((q.mBuffer (q.slot writeIdx)).copyField packet f) }

/-! ## `push` -/

/-- Where a thread running `push` stands. -/
inductive Push
  /-- Between two calls. -/
  | idle
  /-- `m_write_index` is loaded. -/
  | loadedWrite (packet : TelemetryPacket) (writeIdx : SizeT)
  /-- The queue had room; the fields in `done` are written to the slot. -/
  | writing (packet : TelemetryPacket) (writeIdx : SizeT) (done : Finset Field)

/-- What the producer does next. -/
inductive PushEvent
  /-- `push(packet)` is called and loads `m_write_index`. -/
  | loadWrite (packet : TelemetryPacket)
  /-- `m_read_index` is loaded and the test `write_idx - read_idx >= m_capacity` decides. -/
  | loadRead
  /-- One field of the slot is written. -/
  | field (f : Field)
  /-- `m_write_index` is stored and the call returns true. -/
  | store

/-- What a call returns; `push` and `pop` together with their packet. -/
inductive Return
  | push (packet : TelemetryPacket) (ok : Bool)
  | pop (packet : Option TelemetryPacket)
  | size (n : SizeT)
  | empty (b : Bool)
  | full (b : Bool)
  deriving DecidableEq

/-- A step of `push`. -/
def Push.step (q : LockFreeQueue) : Push → PushEvent → Option (LockFreeQueue × Push × List Return)
  | .idle, .loadWrite packet => some (q, .loadedWrite packet q.mWriteIndex, [])
  | .loadedWrite packet writeIdx, .loadRead =>
      if q.mCapacity ≤ writeIdx - q.mReadIndex then some (q, .idle, [.push packet false])
      else some (q, .writing packet writeIdx ∅, [])
  | .writing packet writeIdx done, .field f =>
      if f ∈ done then none
      else some (q.writeField writeIdx packet f, .writing packet writeIdx (insert f done), [])
  | .writing packet writeIdx done, .store =>
      if done = Finset.univ then
        some ({ q with mWriteIndex := writeIdx + 1 }, .idle, [.push packet true])
      else none
  | _, _ => none

/-- What a step of `push` can do, guards included. -/
inductive Push.Moves (q : LockFreeQueue) :
    Push → PushEvent → LockFreeQueue → Push → List Return → Prop
  | loadWrite (packet : TelemetryPacket) :
      Moves q .idle (.loadWrite packet) q (.loadedWrite packet q.mWriteIndex) []
  | refuse {packet : TelemetryPacket} {writeIdx : SizeT}
      (hfull : q.mCapacity ≤ writeIdx - q.mReadIndex) :
      Moves q (.loadedWrite packet writeIdx) .loadRead q .idle [.push packet false]
  | accept {packet : TelemetryPacket} {writeIdx : SizeT}
      (hroom : ¬ q.mCapacity ≤ writeIdx - q.mReadIndex) :
      Moves q (.loadedWrite packet writeIdx) .loadRead q (.writing packet writeIdx ∅) []
  | field {packet : TelemetryPacket} {writeIdx : SizeT} {done : Finset Field} {f : Field}
      (hf : f ∉ done) :
      Moves q (.writing packet writeIdx done) (.field f) (q.writeField writeIdx packet f)
        (.writing packet writeIdx (insert f done)) []
  | store {packet : TelemetryPacket} {writeIdx : SizeT} :
      Moves q (.writing packet writeIdx Finset.univ) .store { q with mWriteIndex := writeIdx + 1 }
        .idle [.push packet true]

theorem Push.moves_of_step {q q' : LockFreeQueue} {p p' : Push} {e : PushEvent} {os : List Return}
    (h : p.step q e = some (q', p', os)) : Push.Moves q p e q' p' os := by
  cases p <;> cases e <;> simp only [Push.step, reduceCtorEq] at h
  case idle.loadWrite packet => cases h; exact .loadWrite packet
  case loadedWrite.loadRead packet writeIdx =>
    split at h
    case isTrue hfull => cases h; exact .refuse hfull
    case isFalse hroom => cases h; exact .accept hroom
  case writing.field packet writeIdx done f =>
    split at h
    case isTrue => cases h
    case isFalse hf => cases h; exact .field hf
  case writing.store packet writeIdx done =>
    split at h
    case isTrue hdone => subst hdone; cases h; exact .store
    case isFalse => cases h

theorem Push.Moves.step_eq {q q' : LockFreeQueue} {p p' : Push} {e : PushEvent} {os : List Return}
    (h : Push.Moves q p e q' p' os) : p.step q e = some (q', p', os) := by
  cases h <;> simp_all [Push.step]

/-! ## `pop` -/

/-- Where a thread running `pop(packet)` stands; `packet` is the caller's object. -/
inductive Pop
  /-- Between two calls. -/
  | idle
  /-- `m_read_index` is loaded. -/
  | loadedRead (packet : TelemetryPacket) (readIdx : SizeT)
  /-- The queue had a packet; the fields in `done` are read into `packet`. -/
  | reading (packet : TelemetryPacket) (readIdx : SizeT) (done : Finset Field)

/-- What the consumer does next. -/
inductive PopEvent
  /-- `pop(packet)` is called and loads `m_read_index`. -/
  | loadRead (packet : TelemetryPacket)
  /-- `m_write_index` is loaded and the test `read_idx == write_idx` decides. -/
  | loadWrite
  /-- One field of the slot is read. -/
  | field (f : Field)
  /-- `m_read_index` is stored and the call returns true. -/
  | store

/-- A step of `pop`. -/
def Pop.step (q : LockFreeQueue) : Pop → PopEvent → Option (LockFreeQueue × Pop × List Return)
  | .idle, .loadRead packet => some (q, .loadedRead packet q.mReadIndex, [])
  | .loadedRead packet readIdx, .loadWrite =>
      if readIdx = q.mWriteIndex then some (q, .idle, [.pop none])
      else some (q, .reading packet readIdx ∅, [])
  | .reading packet readIdx done, .field f =>
      if f ∈ done then none
      else some (q, .reading (packet.copyField (q.mBuffer (q.slot readIdx)) f) readIdx
        (insert f done), [])
  | .reading packet readIdx done, .store =>
      if done = Finset.univ then
        some ({ q with mReadIndex := readIdx + 1 }, .idle, [.pop (some packet)])
      else none
  | _, _ => none

/-- What a step of `pop` can do, guards included. -/
inductive Pop.Moves (q : LockFreeQueue) :
    Pop → PopEvent → LockFreeQueue → Pop → List Return → Prop
  | loadRead (packet : TelemetryPacket) :
      Moves q .idle (.loadRead packet) q (.loadedRead packet q.mReadIndex) []
  | refuse {packet : TelemetryPacket} (readIdx : SizeT) (hempty : readIdx = q.mWriteIndex) :
      Moves q (.loadedRead packet readIdx) .loadWrite q .idle [.pop none]
  | accept {packet : TelemetryPacket} {readIdx : SizeT} (hsome : readIdx ≠ q.mWriteIndex) :
      Moves q (.loadedRead packet readIdx) .loadWrite q (.reading packet readIdx ∅) []
  | field {packet : TelemetryPacket} {readIdx : SizeT} {done : Finset Field} {f : Field}
      (hf : f ∉ done) :
      Moves q (.reading packet readIdx done) (.field f) q
        (.reading (packet.copyField (q.mBuffer (q.slot readIdx)) f) readIdx (insert f done)) []
  | store {packet : TelemetryPacket} {readIdx : SizeT} :
      Moves q (.reading packet readIdx Finset.univ) .store { q with mReadIndex := readIdx + 1 }
        .idle [.pop (some packet)]

theorem Pop.moves_of_step {q q' : LockFreeQueue} {p p' : Pop} {e : PopEvent} {os : List Return}
    (h : p.step q e = some (q', p', os)) : Pop.Moves q p e q' p' os := by
  cases p <;> cases e <;> simp only [Pop.step, reduceCtorEq] at h
  case idle.loadRead packet => cases h; exact .loadRead packet
  case loadedRead.loadWrite packet readIdx =>
    split at h
    case isTrue hempty => cases h; exact .refuse readIdx hempty
    case isFalse hsome => cases h; exact .accept hsome
  case reading.field packet readIdx done f =>
    split at h
    case isTrue => cases h
    case isFalse hf => cases h; exact .field hf
  case reading.store packet readIdx done =>
    split at h
    case isTrue hdone => subst hdone; cases h; exact .store
    case isFalse => cases h

theorem Pop.Moves.step_eq {q q' : LockFreeQueue} {p p' : Pop} {e : PopEvent} {os : List Return}
    (h : Pop.Moves q p e q' p' os) : p.step q e = some (q', p', os) := by
  cases h <;> simp_all [Pop.step]

/-! ## `size`, `empty`, `full` -/

/-- Which of the three observers a thread runs. -/
inductive Query
  | size | empty | full
  deriving DecidableEq

/-- Where a thread running an observer stands. -/
inductive Observe
  | idle
  /-- `m_write_index` is loaded. -/
  | loadedWrite (query : Query) (writeIdx : SizeT)

/-- What the observing thread does next. -/
inductive ObserveEvent
  /-- An observer is called and loads `m_write_index`. -/
  | loadWrite (query : Query)
  /-- `m_read_index` is loaded and the call returns. -/
  | loadRead

/-- The value an observer computes from its two loads. -/
def answer (q : LockFreeQueue) (writeIdx readIdx : SizeT) : Query → Return
  | .size => .size (writeIdx - readIdx)
  | .empty => .empty (decide (writeIdx - readIdx = 0))
  | .full => .full (decide (q.mCapacity ≤ writeIdx - readIdx))

/-- A step of an observer. -/
def Observe.step (q : LockFreeQueue) : Observe → ObserveEvent → Option (Observe × List Return)
  | .idle, .loadWrite query => some (.loadedWrite query q.mWriteIndex, [])
  | .loadedWrite query writeIdx, .loadRead =>
      some (.idle, [q.answer writeIdx q.mReadIndex query])
  | _, _ => none

/-- What a step of an observer can do. -/
inductive Observe.Moves (q : LockFreeQueue) :
    Observe → ObserveEvent → Observe → List Return → Prop
  | loadWrite (query : Query) :
      Moves q .idle (.loadWrite query) (.loadedWrite query q.mWriteIndex) []
  | loadRead {query : Query} {writeIdx : SizeT} :
      Moves q (.loadedWrite query writeIdx) .loadRead .idle [q.answer writeIdx q.mReadIndex query]

theorem Observe.moves_of_step {q : LockFreeQueue} {t t' : Observe} {e : ObserveEvent}
    {os : List Return} (h : t.step q e = some (t', os)) : Observe.Moves q t e t' os := by
  cases t <;> cases e <;> simp only [Observe.step, reduceCtorEq] at h
  case idle.loadWrite query => cases h; exact .loadWrite query
  case loadedWrite.loadRead query writeIdx => cases h; exact .loadRead

theorem Observe.Moves.step_eq {q : LockFreeQueue} {t t' : Observe} {e : ObserveEvent}
    {os : List Return} (h : Observe.Moves q t e t' os) : t.step q e = some (t', os) := by
  cases h <;> rfl

/-! ## The three threads together -/

/-- The queue and the three threads that share it. -/
structure Threads where
  queue : LockFreeQueue
  producer : Push
  consumer : Pop
  observer : Observe

/-- Which thread moves, and how. -/
inductive Event
  | producer (e : PushEvent)
  | consumer (e : PopEvent)
  | observer (e : ObserveEvent)

/-- **Any interleaving of the three threads.** -/
def threads : Machinery.Machine Threads Event Return where
  step s
    | .producer e =>
        (s.producer.step s.queue e).map fun r =>
          ({ s with queue := r.1, producer := r.2.1 }, r.2.2)
    | .consumer e =>
        (s.consumer.step s.queue e).map fun r =>
          ({ s with queue := r.1, consumer := r.2.1 }, r.2.2)
    | .observer e =>
        (s.observer.step s.queue e).map fun r => ({ s with observer := r.1 }, r.2)

/-- What a step of the machine can do: one thread moves, the others stand. -/
inductive Moves (s : Threads) : Event → Threads → List Return → Prop
  | producer {e : PushEvent} {q' : LockFreeQueue} {p' : Push} {os : List Return}
      (h : Push.Moves s.queue s.producer e q' p' os) :
      Moves s (.producer e) { s with queue := q', producer := p' } os
  | consumer {e : PopEvent} {q' : LockFreeQueue} {p' : Pop} {os : List Return}
      (h : Pop.Moves s.queue s.consumer e q' p' os) :
      Moves s (.consumer e) { s with queue := q', consumer := p' } os
  | observer {e : ObserveEvent} {t' : Observe} {os : List Return}
      (h : Observe.Moves s.queue s.observer e t' os) :
      Moves s (.observer e) { s with observer := t' } os

theorem moves_of_step {s s' : Threads} {e : Event} {os : List Return}
    (h : threads.step s e = some (s', os)) : Moves s e s' os := by
  cases e with
  | producer e =>
    obtain ⟨⟨q', p', o⟩, hstep, heq⟩ := Option.map_eq_some_iff.mp h
    cases heq
    exact .producer (Push.moves_of_step hstep)
  | consumer e =>
    obtain ⟨⟨q', p', o⟩, hstep, heq⟩ := Option.map_eq_some_iff.mp h
    cases heq
    exact .consumer (Pop.moves_of_step hstep)
  | observer e =>
    obtain ⟨⟨t', o⟩, hstep, heq⟩ := Option.map_eq_some_iff.mp h
    cases heq
    exact .observer (Observe.moves_of_step hstep)

/-- All threads between calls. -/
def Threads.start (q : LockFreeQueue) : Threads where
  queue := q
  producer := .idle
  consumer := .idle
  observer := .idle

/-- The slot `push` is writing, from its first field to its last. -/
def Threads.writingSlot (s : Threads) : Option ℕ :=
  match s.producer with
  | .writing _ writeIdx _ => some (s.queue.slot writeIdx)
  | _ => none

/-- The slot `pop` is reading. -/
def Threads.readingSlot (s : Threads) : Option ℕ :=
  match s.consumer with
  | .reading _ readIdx _ => some (s.queue.slot readIdx)
  | _ => none

end LockFreeQueue

end BioShield
