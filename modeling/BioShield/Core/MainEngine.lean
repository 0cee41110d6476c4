import BioShield.Core.KernelReads
import BioShield.Core.QueueObservers
import Mathlib

/-!
# Core/MainEngine — the processing loop (`core/main_engine.cpp`)

The main thread is the consumer of the telemetry queue: while `g_running` it pops, and what it pops
it counts, analyzes and, if the verdict is a deepfake, blocks.  The producer and the telemetry
thread go on in between, so the engine is the queue's machine with a verdict after each successful
pop (`run_threads`, `run_emitted`).

A packet carries up to 64 samples and says how many; nobody compares the two.  An analysis stays in
the packet exactly if the packet says no more than 64 (`reads_lt_iff_popped`).
-/

namespace BioShield

open Machinery LockFreeQueue

/-- The globals of the engine, the threads that share its queue, and the counter behind
`EBPFLoader::block_ip`. -/
structure Engine where
  gQueue : Threads
  gRunning : Bool
  gTotalPackets : BitVec 64
  gBlockedPackets : BitVec 64
  sBlockedCount : BitVec 64

namespace Engine

/-- The engine at the head of its loop. -/
def start (q : LockFreeQueue) : Engine := ⟨.start q, true, 0, 0, 0⟩

/-- What happens to the engine: a signal, or a step of a thread on the queue. -/
inductive EngineEvent
  | signal
  | queue (e : Event)

/-- What the engine shows: what the calls on the queue return, and the analyses. -/
inductive Emitted
  | returned (ret : Return)
  | analyzed (packet : TelemetryPacket) (isDeepfake : Reading ℕ Bool)

/-- The return of a call on the queue. -/
def Emitted.ret : Emitted → Option Return
  | .returned ret => some ret
  | .analyzed _ _ => none

/-- The calls on the queue that returned. -/
def returns (os : List Emitted) : List Return := os.filterMap Emitted.ret

/-- The step that begins a call of `pop`. -/
def beginsPop : Event → Bool
  | .consumer (.loadRead _) => true
  | _ => false

section Loop

variable {K : Type} [Field K] [LinearOrder K]
variable (pow : K → K → K) (toFloat : BitVec 32 → K) (beyond : ℕ → K)
variable (detector : DeepfakeDetector K)

/-- `packet.frequency_data`, and the memory after it. -/
def samples (packet : TelemetryPacket) (i : ℕ) : K :=
  if h : i < 64 then toFloat (packet.frequencyData.get ⟨i, h⟩) else beyond i

/-- `analyze_voice_channel(packet.frequency_data, packet.num_samples)`. -/
def analyze (packet : TelemetryPacket) : Reading ℕ Bool :=
  detector.analyzeVoiceChannelReading pow (samples toFloat beyond packet) packet.numSamples.toNat

/-- The body of the loop, once `pop` returned: `block_ip` counts, and does nothing else. -/
def body (engine : Engine) : Return → Engine
  | .pop (some packet) =>
    let isDeepfake := (analyze pow toFloat beyond detector packet).result
    let engine := { engine with gTotalPackets := engine.gTotalPackets + 1 }
    if isDeepfake then
      { engine with
        gBlockedPackets := engine.gBlockedPackets + 1
        sBlockedCount := engine.sBlockedCount + 1 }
    else engine
  | _ => engine

/-- What is seen of a return. -/
def emit : Return → List Emitted
  | .pop (some packet) =>
    [.returned (.pop (some packet)), .analyzed packet (analyze pow toFloat beyond detector packet)]
  | ret => [.returned ret]

/-- **The engine**: the queue's threads, with the loop's body after each return to the main
thread.  A signal ends the loop before its next `pop`. -/
def engine : Machine Engine EngineEvent Emitted where
  step s
    | .signal => some ({ s with gRunning := false }, [])
    | .queue e =>
      if beginsPop e ∧ !s.gRunning then none
      else
        (threads.step s.gQueue e).map fun r =>
          (r.2.foldl (body pow toFloat beyond detector) { s with gQueue := r.1 },
            r.2.flatMap (emit pow toFloat beyond detector))

/-! ## The engine and its queue -/

variable {pow toFloat beyond detector}

theorem body_gQueue (s : Engine) (ret : Return) :
    (body pow toFloat beyond detector s ret).gQueue = s.gQueue ∧
      (body pow toFloat beyond detector s ret).gRunning = s.gRunning := by
  unfold body
  split
  · dsimp only
    split_ifs <;> exact ⟨rfl, rfl⟩
  · exact ⟨rfl, rfl⟩

/-- The bodies leave the threads alone, and the signal. -/
theorem foldl_body_gQueue (rets : List Return) (s : Engine) :
    (rets.foldl (body pow toFloat beyond detector) s).gQueue = s.gQueue ∧
      (rets.foldl (body pow toFloat beyond detector) s).gRunning = s.gRunning := by
  induction rets generalizing s with
  | nil => exact ⟨rfl, rfl⟩
  | cons ret rets ih =>
    obtain ⟨hqueue, hrunning⟩ := ih (body pow toFloat beyond detector s ret)
    obtain ⟨hqueue', hrunning'⟩ :=
      @body_gQueue K _ _ pow toFloat beyond detector s ret
    exact ⟨hqueue.trans hqueue', hrunning.trans hrunning'⟩

theorem returns_append (os os' : List Emitted) : returns (os ++ os') = returns os ++ returns os' :=
  List.filterMap_append

/-- The returns are seen as they are. -/
theorem returns_flatMap_emit (rets : List Return) :
    returns (rets.flatMap (emit pow toFloat beyond detector)) = rets := by
  induction rets with
  | nil => rfl
  | cons ret rets ih =>
    have hret : returns (emit pow toFloat beyond detector ret) = [ret] := by
      unfold emit
      split <;> rfl
    rw [List.flatMap_cons, returns_append, hret, ih, List.singleton_append]

/-- What a step on the queue does. -/
theorem step_queue {s s' : Engine} {e : Event} {o : List Emitted}
    (h : (engine pow toFloat beyond detector).step s (.queue e) = some (s', o)) :
    threads.step s.gQueue e = some (s'.gQueue, returns o) ∧
      o = (returns o).flatMap (emit pow toFloat beyond detector) ∧
      s' = (returns o).foldl (body pow toFloat beyond detector)
        { s with gQueue := s'.gQueue } := by
  simp only [engine] at h
  split_ifs at h
  obtain ⟨⟨t, rets⟩, hstep, heq⟩ := Option.map_eq_some_iff.mp h
  obtain ⟨rfl, rfl⟩ := Prod.mk.inj heq
  rw [returns_flatMap_emit, (foldl_body_gQueue rets _).1]
  exact ⟨hstep, rfl, rfl⟩

/-- **The engine's queue runs as the queue.** -/
theorem run_threads {s s' : Engine} {es : List EngineEvent} {os : List Emitted}
    (hrun : (engine pow toFloat beyond detector).run s es = some (s', os)) :
    ∃ es', threads.run s.gQueue es' = some (s'.gQueue, returns os) := by
  refine ⟨_, Machine.run_project (I := fun _ => True) Engine.gQueue
    (fun | .signal => none | .queue e => some e) Emitted.ret (fun _ _ _ _ _ _ => trivial)
    ?_ ?_ trivial hrun⟩
  · rintro s (_ | e) e₂ s' o - he hstep
    · cases he
    · obtain rfl : e = e₂ := Option.some.inj he
      exact (step_queue hstep).1
  · rintro s (_ | e) s' o he hstep
    · obtain ⟨rfl, rfl⟩ := Prod.mk.inj (Option.some.inj hstep)
      exact ⟨rfl, rfl⟩
    · cases he

/-- **What is popped is analyzed**, and nothing else is. -/
theorem run_emitted {s s' : Engine} {es : List EngineEvent} {os : List Emitted}
    (hrun : (engine pow toFloat beyond detector).run s es = some (s', os)) :
    os = (returns os).flatMap (emit pow toFloat beyond detector) := by
  refine (engine pow toFloat beyond detector).run_invariant
    (I := fun _ os => os = (returns os).flatMap (emit pow toFloat beyond detector)) ?_ rfl hrun
  rintro s os (_ | e) s' o hos hstep
  · obtain ⟨rfl, rfl⟩ := Prod.mk.inj (Option.some.inj hstep)
    rwa [List.append_nil]
  · rw [returns_append, List.flatMap_append, ← hos, ← (step_queue hstep).2.1]

/-- While it runs, the engine takes every schedule of its queue. -/
theorem exists_run_queue {s : Engine} {es : List Event} {t : Threads} {rets : List Return}
    (hrunning : s.gRunning = true) (hrun : threads.run s.gQueue es = some (t, rets)) :
    ∃ s', (engine pow toFloat beyond detector).run s (es.map .queue) =
      some (s', rets.flatMap (emit pow toFloat beyond detector)) := by
  induction es generalizing s rets with
  | nil =>
    obtain ⟨-, rfl⟩ := Prod.mk.inj (Option.some.inj hrun)
    exact ⟨s, rfl⟩
  | cons e es ih =>
    obtain ⟨t₁, o, o', hstep, hrest, rfl⟩ := (Machine.run_cons_iff threads).mp hrun
    obtain ⟨hqueue, hrunning'⟩ := @foldl_body_gQueue K _ _ pow toFloat beyond detector o
      { s with gQueue := t₁ }
    obtain ⟨s', hs'⟩ := ih (hrunning'.trans hrunning) (by rw [hqueue]; exact hrest)
    refine ⟨s', (Machine.run_cons_iff _).mpr ⟨_, _, _, ?_, hs', List.flatMap_append⟩⟩
    simp [engine, hrunning, hstep]

/-! ## What the engine counts, and what it reads -/

/-- The packet a call of `pop` returned. -/
def poppedPacket : Return → Option TelemetryPacket
  | .pop packet => packet
  | _ => none

theorem popped_eq (rets : List Return) : popped rets = rets.filterMap poppedPacket := by
  induction rets with
  | nil => rfl
  | cons ret rets ih =>
    cases ret with
    | push packet ok => cases ok <;> exact ih
    | pop packet =>
      cases packet with
      | none => exact ih
      | some packet => exact congrArg (packet :: ·) ih
    | size _ => exact ih
    | empty _ => exact ih
    | full _ => exact ih

theorem popped_append (rets rets' : List Return) :
    popped (rets ++ rets') = popped rets ++ popped rets' := by
  simp only [popped_eq, List.filterMap_append]

/-- A packet is analyzed when it is popped. -/
theorem analyzed_mem_emit_iff {rets : List Return} {packet : TelemetryPacket}
    {isDeepfake : Reading ℕ Bool} :
    .analyzed packet isDeepfake ∈ rets.flatMap (emit pow toFloat beyond detector) ↔
      packet ∈ popped rets ∧ isDeepfake = analyze pow toFloat beyond detector packet := by
  have hret : ∀ ret, .analyzed packet isDeepfake ∈ emit pow toFloat beyond detector ret ↔
      poppedPacket ret = some packet ∧
        isDeepfake = analyze pow toFloat beyond detector packet := by
    intro ret
    rcases ret with ⟨_, _⟩ | ⟨_ | packet'⟩ | _ | _ | _ <;> simp [emit, poppedPacket]
    constructor <;> (rintro ⟨rfl, h⟩; exact ⟨rfl, h⟩)
  simp only [List.mem_flatMap, popped_eq, List.mem_filterMap, hret]
  exact ⟨fun ⟨ret, hmem, hpop, heq⟩ => ⟨⟨ret, hmem, hpop⟩, heq⟩,
    fun ⟨⟨ret, hmem, hpop⟩, heq⟩ => ⟨ret, hmem, hpop, heq⟩⟩

variable (pow toFloat beyond detector) in
/-- **The counters** after the engine has dealt with `packets`, modulo `2^64`. -/
structure Counts (s : Engine) (packets : List TelemetryPacket) : Prop where
  total : s.gTotalPackets = BitVec.ofNat 64 packets.length
  blocked : s.gBlockedPackets = BitVec.ofNat 64 (packets.countP fun packet =>
    (analyze pow toFloat beyond detector packet).result)
  loader : s.sBlockedCount = s.gBlockedPackets

/-- One packet more is counted, and as blocked if its verdict is a deepfake… -/
theorem Counts.body {s : Engine} {packets : List TelemetryPacket}
    (h : Counts pow toFloat beyond detector s packets) (ret : Return) :
    Counts pow toFloat beyond detector (body pow toFloat beyond detector s ret)
      (packets ++ popped [ret]) := by
  have hother : popped [ret] = [] → Engine.body pow toFloat beyond detector s ret = s →
      Counts pow toFloat beyond detector (Engine.body pow toFloat beyond detector s ret)
        (packets ++ popped [ret]) := by
    intro hnil hsame
    rwa [hnil, hsame, List.append_nil]
  rcases ret with ⟨packet, _ | _⟩ | ⟨_ | packet⟩ | _ | _ | _
  case pop.some =>
    have hpop : popped [.pop (some packet)] = [packet] := rfl
    rw [hpop, Engine.body]
    by_cases hdeepfake : (analyze pow toFloat beyond detector packet).result
    · rw [if_pos hdeepfake]
      refine ⟨?_, ?_, ?_⟩
      · rw [List.length_append, BitVec.ofNat_add, ← h.total]
        rfl
      · rw [List.countP_append, BitVec.ofNat_add, ← h.blocked, List.countP_singleton,
          if_pos hdeepfake]
        rfl
      · exact congrArg (· + 1) h.loader
    · rw [if_neg hdeepfake]
      refine ⟨?_, ?_, h.loader⟩
      · rw [List.length_append, BitVec.ofNat_add, ← h.total]
        rfl
      · rw [List.countP_append, List.countP_singleton, if_neg hdeepfake, Nat.add_zero]
        exact h.blocked
  all_goals exact hother rfl rfl

/-- …so **the engine counts what it pops**, in every run. -/
theorem run_counts {q : LockFreeQueue} {es : List EngineEvent} {s : Engine} {os : List Emitted}
    (hrun : (engine pow toFloat beyond detector).run (.start q) es = some (s, os)) :
    Counts pow toFloat beyond detector s (popped (returns os)) := by
  have hfold : ∀ (rets : List Return) (s : Engine) (packets : List TelemetryPacket),
      Counts pow toFloat beyond detector s packets →
        Counts pow toFloat beyond detector (rets.foldl (body pow toFloat beyond detector) s)
          (packets ++ popped rets) := by
    intro rets
    induction rets with
    | nil => exact fun s packets h => by rwa [show popped [] = [] from rfl, List.append_nil]
    | cons ret rets ih =>
      intro s packets h
      rw [List.foldl_cons, ← List.singleton_append, popped_append, ← List.append_assoc]
      exact ih _ _ (h.body ret)
  refine (engine pow toFloat beyond detector).run_invariant
    (I := fun s os => Counts pow toFloat beyond detector s (popped (returns os)))
    ?_ ⟨rfl, rfl, rfl⟩ hrun
  rintro s os (_ | e) s' o h hstep
  · obtain ⟨rfl, rfl⟩ := Prod.mk.inj (Option.some.inj hstep)
    rw [List.append_nil]
    exact ⟨h.total, h.blocked, h.loader⟩
  · rw [(step_queue hstep).2.2, returns_append, popped_append]
    exact hfold _ _ _ ⟨h.total, h.blocked, h.loader⟩

/-- An analysis stays in the packet if the packet says no more than 64 samples. -/
theorem analyze_reads_lt_iff (packet : TelemetryPacket) :
    (∀ i ∈ (analyze pow toFloat beyond detector packet).reads, i < 64) ↔
      packet.numSamples.toNat ≤ 64 := by
  simp only [analyze, DeepfakeDetector.mem_reads_analyzeVoiceChannelReading_iff]
  refine ⟨fun h => ?_, fun hle i hi => by omega⟩
  by_contra hlt
  exact absurd (h 64 ⟨by omega, by omega⟩) (by decide)

/-- **When the engine stays in its packets**: in every run, if no popped packet says more than 64
samples. -/
theorem reads_lt_iff_popped {q : LockFreeQueue} {es : List EngineEvent} {s : Engine}
    {os : List Emitted}
    (hrun : (engine pow toFloat beyond detector).run (.start q) es = some (s, os)) :
    (∀ packet isDeepfake, .analyzed packet isDeepfake ∈ os → ∀ i ∈ isDeepfake.reads, i < 64) ↔
      ∀ packet ∈ popped (returns os), packet.numSamples.toNat ≤ 64 := by
  have hmem : ∀ packet isDeepfake, .analyzed packet isDeepfake ∈ os ↔
      packet ∈ popped (returns os) ∧
        isDeepfake = analyze pow toFloat beyond detector packet := by
    intro packet isDeepfake
    conv_lhs => rw [run_emitted hrun]
    exact analyzed_mem_emit_iff
  constructor
  · intro h packet hpop
    exact (analyze_reads_lt_iff packet).mp (h packet _ ((hmem packet _).mpr ⟨hpop, rfl⟩))
  · intro h packet isDeepfake hin
    obtain ⟨hpop, rfl⟩ := (hmem packet isDeepfake).mp hin
    exact (analyze_reads_lt_iff packet).mpr (h packet hpop)

/-- What the engine pops was pushed before… -/
theorem popped_prefix_pushed {fuel : ℕ} {capacity : SizeT} {q : LockFreeQueue}
    (hq : new fuel capacity = some q) {es : List EngineEvent} {s : Engine} {os : List Emitted}
    (hrun : (engine pow toFloat beyond detector).run (.start q) es = some (s, os)) :
    popped (returns os) <+: pushed (returns os) := by
  obtain ⟨k, hk, rfl⟩ := exists_eq_init hq
  obtain ⟨es', hqueue⟩ := run_threads hrun
  obtain ⟨base, l, hpath, -⟩ := run_represents hk rfl hqueue
  exact Fifo.dequeued_prefix hpath

/-- …so producers that keep to 64 samples keep the engine in its packets. -/
theorem reads_lt_of_pushed {fuel : ℕ} {capacity : SizeT} {q : LockFreeQueue}
    (hq : new fuel capacity = some q) {es : List EngineEvent} {s : Engine} {os : List Emitted}
    (hrun : (engine pow toFloat beyond detector).run (.start q) es = some (s, os))
    (hpushed : ∀ packet ∈ pushed (returns os), packet.numSamples.toNat ≤ 64) :
    ∀ packet isDeepfake, .analyzed packet isDeepfake ∈ os → ∀ i ∈ isDeepfake.reads, i < 64 := by
  intro packet isDeepfake hin
  rw [run_emitted hrun] at hin
  obtain ⟨hpop, rfl⟩ := analyzed_mem_emit_iff.mp hin
  exact (analyze_reads_lt_iff packet).mpr
    (hpushed packet ((popped_prefix_pushed hq hrun).subset hpop))

end Loop

/-! ## One packet through the queue of `main` -/

/-- The queue `main` makes. -/
theorem new_131072 : new 63 131072 = some (init 131072) := rfl

/-- A packet is pushed, and popped. -/
theorem exists_run_one (packet : TelemetryPacket) :
    ∃ es t, threads.run (.start (init 131072)) es =
      some (t, [.push packet true, .pop (some packet)]) := by
  obtain ⟨buffer, hpush⟩ := run_pushEvents (init 131072) .idle .idle packet (by decide)
  obtain ⟨packet', hpop⟩ := run_popEvents
    { init 131072 with mBuffer := buffer, mWriteIndex := (init 131072).mWriteIndex + 1 } .idle
    .idle .zero (show (0 : SizeT) ≠ 0 + 1 by decide)
  have hrun := (Machine.run_append_iff threads).mpr ⟨_, _, _, hpush, hpop, rfl⟩
  obtain ⟨base, l, hpath, -⟩ := run_represents (k := 17) (by decide) rfl hrun
  -- the queue hands out what it took in
  obtain rfl : packet' = packet := by
    simpa [Return.op, Fifo.dequeued, Fifo.enqueued] using Fifo.dequeued_prefix hpath
  exact ⟨_, _, hrun⟩

/-- A packet of zeros that says `n` samples. -/
def zeros (n : BitVec 32) : TelemetryPacket := { TelemetryPacket.zero with numSamples := n }

/-- The engine of `main`, on samples of zero. -/
noncomputable def zeroEngine : Machine Engine EngineEvent Emitted :=
  engine (K := ℝ) Real.rpow (fun _ => 0) (fun _ => 0) DeepfakeDetector.new.initializeDetector

theorem exists_run_zeros (n : BitVec 32) :
    ∃ es s os, zeroEngine.run (.start (init 131072)) es = some (s, os) ∧
      returns os = [.push (zeros n) true, .pop (some (zeros n))] := by
  obtain ⟨es, t, hqueue⟩ := exists_run_one (zeros n)
  obtain ⟨s, hrun⟩ : ∃ s, zeroEngine.run (.start (init 131072)) (es.map .queue) = some (s, _) :=
    exists_run_queue rfl hqueue
  exact ⟨_, s, _, hrun, returns_flatMap_emit _⟩

/-- A full packet is read to its end and no further. -/
theorem reads_lt_full :
    ∃ es s os, zeroEngine.run (.start (init 131072)) es = some (s, os) ∧
      returns os = [.push (zeros 64) true, .pop (some (zeros 64))] ∧
      ∀ packet isDeepfake, .analyzed packet isDeepfake ∈ os → ∀ i ∈ isDeepfake.reads, i < 64 := by
  obtain ⟨es, s, os, hrun, hrets⟩ := exists_run_zeros 64
  refine ⟨es, s, os, hrun, hrets, (reads_lt_iff_popped hrun).mpr ?_⟩
  rw [hrets]
  simp [popped, Return.op, Fifo.dequeued, zeros]

/-- **The engine does read past a packet**: one that says 65 samples is taken as it is. -/
theorem not_forall_reads_lt :
    ¬ ∀ (q : LockFreeQueue) (es : List EngineEvent) (s : Engine) (os : List Emitted),
      new 63 131072 = some q → zeroEngine.run (.start q) es = some (s, os) →
        ∀ packet isDeepfake, .analyzed packet isDeepfake ∈ os →
          ∀ i ∈ isDeepfake.reads, i < 64 := by
  intro h
  obtain ⟨es, s, os, hrun, hrets⟩ := exists_run_zeros 65
  have hpop : zeros 65 ∈ popped (returns os) := by
    rw [hrets]
    simp [popped, Return.op, Fifo.dequeued]
  have hin : .analyzed (zeros 65) (analyze (K := ℝ) Real.rpow (fun _ => 0) (fun _ => 0)
      DeepfakeDetector.new.initializeDetector (zeros 65)) ∈ os := by
    rw [run_emitted hrun]
    exact analyzed_mem_emit_iff.mpr ⟨hpop, rfl⟩
  have hlt := h _ es s os new_131072 hrun (zeros 65) _ hin
  exact absurd ((analyze_reads_lt_iff _).mp hlt) (by decide)

end Engine

end BioShield
