import BioShield.Core.MainEngine
import BioShield.Core.QueueProgress

/-!
# Core/EngineThreads — `main` and the telemetry thread (`core/main_engine.cpp`)

`main` counts a packet, analyzes it, counts it as blocked and hands its source to the loader, one
step after another; every five seconds the telemetry thread loads the two counters, asks the queue
for its size and prints.  Between any two steps of one, the other, the producer or a signal may
come.

Whatever the interleaving, the packets counted are the first of those pushed, each once, and what is
blocked is what is a deepfake among them (`counted_prefix_pushed`).
-/

namespace BioShield

open Machinery LockFreeQueue

/-! ## The two threads -/

/-- Where `main` stands. -/
inductive MainLoop
  /-- At the test of `g_running`. -/
  | head
  /-- In `g_queue->pop(packet)`. -/
  | popping
  /-- `pop` returned true; the packet is not counted yet. -/
  | popped (packet : TelemetryPacket)
  /-- The packet is counted, and not analyzed yet. -/
  | counted (packet : TelemetryPacket)
  /-- The packet is a deepfake, counted as blocked, and not handed to the loader yet. -/
  | flagged (packet : TelemetryPacket)
  /-- Out of the loop, at `telemetry.join()`. -/
  | left
  /-- The telemetry thread is joined. -/
  | joined

namespace MainLoop

/-- The packet in hand that is popped and not counted yet… -/
def uncounted : MainLoop → List TelemetryPacket
  | .popped packet => [packet]
  | _ => []

/-- …counted and not analyzed yet… -/
def unjudged : MainLoop → List TelemetryPacket
  | .counted packet => [packet]
  | _ => []

/-- …and blocked and not handed to the loader yet. -/
def unlisted : MainLoop → List TelemetryPacket
  | .flagged packet => [packet]
  | _ => []

end MainLoop

/-- Where the telemetry thread stands; times are the nanoseconds of the steady clock. -/
inductive Telemetry
  /-- At the test of `g_running`. -/
  | head (lastReport : ℤ)
  /-- A report is due. -/
  | due (now : ℤ)
  /-- `g_total_packets` is loaded. -/
  | loadedTotal (now : ℤ) (total : BitVec 64)
  /-- `g_blocked_packets` is loaded. -/
  | loadedBlocked (now : ℤ) (total blocked : BitVec 64)
  /-- In `g_queue->size()`, between its two loads. -/
  | sizing (now : ℤ) (total blocked : BitVec 64)
  /-- Out of the loop. -/
  | left

/-- The engine's globals and its two threads. -/
structure EngineProcess where
  engine : Engine
  main : MainLoop
  telemetry : Telemetry

namespace EngineProcess

/-- What `main` does next. -/
inductive MainEvent
  /-- A step of `pop`. -/
  | pop (e : PopEvent)
  /-- The one step there is outside `pop`. -/
  | next

/-- What the telemetry thread does next. -/
inductive TelemetryEvent
  /-- The test of `g_running`, and the time it is then. -/
  | check (now : ℤ)
  /-- The one step there is after it. -/
  | next

/-- Who moves. -/
inductive ProcessEvent
  | signal
  | producer (e : PushEvent)
  | main (e : MainEvent)
  | telemetry (e : TelemetryEvent)

/-- A line of `[STATS]`, and when it was due. -/
structure Report where
  now : ℤ
  total : BitVec 64
  blocked : BitVec 64
  queue : SizeT

/-- What the process shows. -/
inductive Shown
  /-- A call on the queue returned. -/
  | returned (ret : Return)
  /-- `g_total_packets++`. -/
  | counted (packet : TelemetryPacket)
  /-- `g_blocked_packets++`. -/
  | blocked (packet : TelemetryPacket)
  /-- `EBPFLoader::block_ip`. -/
  | blockIp (ipAddress : BitVec 32)
  /-- The telemetry thread printed. -/
  | report (r : Report)

/-- The engine once it is loaded; the telemetry thread starts at `lastReport`. -/
def start (q : LockFreeQueue) (lastReport : ℤ) : EngineProcess :=
  ⟨.start q, .head, .head lastReport⟩

/-- Where `main` goes from a step of `pop`. -/
def afterPop : List Return → MainLoop
  | [] => .popping
  | .pop (some packet) :: _ => .popped packet
  | _ => .head

/-- The report, once the size is there. -/
def printed (now : ℤ) (total blocked : BitVec 64) : List Return → List Shown
  | [.size n] => [.report ⟨now, total, blocked, n⟩]
  | _ => []

section Machine

variable (isDeepfake : TelemetryPacket → Bool)

/-- The engine with other threads on its queue. -/
def withQueue (s : EngineProcess) (t : Threads) : Engine := { s.engine with gQueue := t }

/-- A step of `main`, up to the join. -/
def mainStep (s : EngineProcess) : MainLoop → MainEvent → Option (EngineProcess × List Shown)
  | .head, .next => some ({ s with main := if s.engine.gRunning then .popping else .left }, [])
  | .popping, .pop e =>
      (threads.step s.engine.gQueue (.consumer e)).map fun r =>
        ({ s with engine := s.withQueue r.1, main := afterPop r.2 }, r.2.map .returned)
  | .popped packet, .next =>
      some ({ s with
        engine := { s.engine with gTotalPackets := s.engine.gTotalPackets + 1 }
        main := .counted packet }, [.counted packet])
  | .counted packet, .next =>
      if isDeepfake packet then
        some ({ s with
          engine := { s.engine with gBlockedPackets := s.engine.gBlockedPackets + 1 }
          main := .flagged packet }, [.blocked packet])
      else some ({ s with main := .head }, [])
  | .flagged packet, .next =>
      some ({ s with
        engine := { s.engine with sBlockedCount := s.engine.sBlockedCount + 1 }
        main := .head }, [.blockIp (packet.sourceIp.setWidth 32)])
  | .left, .next =>
      match s.telemetry with
      | .left => some ({ s with main := .joined }, [])
      | _ => none
  | _, _ => none

/-- A step of the telemetry thread. -/
def telemetryStep (s : EngineProcess) :
    Telemetry → TelemetryEvent → Option (EngineProcess × List Shown)
  | .head lastReport, .check now =>
      some ({ s with
        telemetry :=
          if s.engine.gRunning then
            if 5000000000 ≤ now - lastReport then .due now else .head lastReport
          else .left }, [])
  | .due now, .next => some ({ s with telemetry := .loadedTotal now s.engine.gTotalPackets }, [])
  | .loadedTotal now total, .next =>
      some ({ s with telemetry := .loadedBlocked now total s.engine.gBlockedPackets }, [])
  | .loadedBlocked now total blocked, .next =>
      (threads.step s.engine.gQueue (.observer (.loadWrite .size))).map fun r =>
        ({ s with engine := s.withQueue r.1, telemetry := .sizing now total blocked },
          r.2.map .returned)
  | .sizing now total blocked, .next =>
      (threads.step s.engine.gQueue (.observer .loadRead)).map fun r =>
        ({ s with engine := s.withQueue r.1, telemetry := .head now },
          r.2.map .returned ++ printed now total blocked r.2)
  | _, _ => none

/-- **The process**: any interleaving of `main`, the telemetry thread, a producer and signals.
`isDeepfake` is the verdict of `analyze_voice_channel` on a packet. -/
def process : Machine EngineProcess ProcessEvent Shown where
  step s
    | .signal => some ({ s with engine := { s.engine with gRunning := false } }, [])
    | .producer e =>
        (threads.step s.engine.gQueue (.producer e)).map fun r =>
          ({ s with engine := s.withQueue r.1 }, r.2.map .returned)
    | .main e => s.mainStep isDeepfake s.main e
    | .telemetry e => s.telemetryStep s.telemetry e

variable {isDeepfake}

variable (isDeepfake) in
/-- What a step of the process can do, guards included. -/
inductive Moves (s : EngineProcess) : ProcessEvent → EngineProcess → List Shown → Prop
  | signal : Moves s .signal { s with engine := { s.engine with gRunning := false } } []
  | producer {e : PushEvent} {q' : LockFreeQueue} {p' : Push} {rets : List Return}
      (h : Push.Moves s.engine.gQueue.queue s.engine.gQueue.producer e q' p' rets) :
      Moves s (.producer e)
        { s with engine := s.withQueue { s.engine.gQueue with queue := q', producer := p' } }
        (rets.map .returned)
  | enter (hmain : s.main = .head) (hrunning : s.engine.gRunning = true) :
      Moves s (.main .next) { s with main := .popping } []
  | leave (hmain : s.main = .head) (hrunning : s.engine.gRunning = false) :
      Moves s (.main .next) { s with main := .left } []
  | pop {e : PopEvent} {q' : LockFreeQueue} {c' : Pop} {rets : List Return}
      (hmain : s.main = .popping)
      (h : Pop.Moves s.engine.gQueue.queue s.engine.gQueue.consumer e q' c' rets) :
      Moves s (.main (.pop e))
        { s with
          engine := s.withQueue { s.engine.gQueue with queue := q', consumer := c' }
          main := afterPop rets } (rets.map .returned)
  | count {packet : TelemetryPacket} (hmain : s.main = .popped packet) :
      Moves s (.main .next)
        { s with
          engine := { s.engine with gTotalPackets := s.engine.gTotalPackets + 1 }
          main := .counted packet } [.counted packet]
  | flag {packet : TelemetryPacket} (hmain : s.main = .counted packet)
      (hdeepfake : isDeepfake packet = true) :
      Moves s (.main .next)
        { s with
          engine := { s.engine with gBlockedPackets := s.engine.gBlockedPackets + 1 }
          main := .flagged packet } [.blocked packet]
  | pass {packet : TelemetryPacket} (hmain : s.main = .counted packet)
      (hhuman : isDeepfake packet = false) :
      Moves s (.main .next) { s with main := .head } []
  | block {packet : TelemetryPacket} (hmain : s.main = .flagged packet) :
      Moves s (.main .next)
        { s with
          engine := { s.engine with sBlockedCount := s.engine.sBlockedCount + 1 }
          main := .head } [.blockIp (packet.sourceIp.setWidth 32)]
  | join (hmain : s.main = .left) (htelemetry : s.telemetry = .left) :
      Moves s (.main .next) { s with main := .joined } []
  | sleep {lastReport now : ℤ} (htelemetry : s.telemetry = .head lastReport)
      (hrunning : s.engine.gRunning = true) (hearly : ¬ 5000000000 ≤ now - lastReport) :
      Moves s (.telemetry (.check now)) { s with telemetry := .head lastReport } []
  | due {lastReport now : ℤ} (htelemetry : s.telemetry = .head lastReport)
      (hrunning : s.engine.gRunning = true) (hlate : 5000000000 ≤ now - lastReport) :
      Moves s (.telemetry (.check now)) { s with telemetry := .due now } []
  | retire {lastReport now : ℤ} (htelemetry : s.telemetry = .head lastReport)
      (hrunning : s.engine.gRunning = false) :
      Moves s (.telemetry (.check now)) { s with telemetry := .left } []
  | loadTotal {now : ℤ} (htelemetry : s.telemetry = .due now) :
      Moves s (.telemetry .next)
        { s with telemetry := .loadedTotal now s.engine.gTotalPackets } []
  | loadBlocked {now : ℤ} {total : BitVec 64} (htelemetry : s.telemetry = .loadedTotal now total) :
      Moves s (.telemetry .next)
        { s with telemetry := .loadedBlocked now total s.engine.gBlockedPackets } []
  | loadWrite {now : ℤ} {total blocked : BitVec 64} {t' : Observe} {rets : List Return}
      (htelemetry : s.telemetry = .loadedBlocked now total blocked)
      (h : Observe.Moves s.engine.gQueue.queue s.engine.gQueue.observer (.loadWrite .size) t'
        rets) :
      Moves s (.telemetry .next)
        { s with
          engine := s.withQueue { s.engine.gQueue with observer := t' }
          telemetry := .sizing now total blocked } (rets.map .returned)
  | report {now : ℤ} {total blocked : BitVec 64} {t' : Observe} {rets : List Return}
      (htelemetry : s.telemetry = .sizing now total blocked)
      (h : Observe.Moves s.engine.gQueue.queue s.engine.gQueue.observer .loadRead t' rets) :
      Moves s (.telemetry .next)
        { s with
          engine := s.withQueue { s.engine.gQueue with observer := t' }
          telemetry := .head now } (rets.map .returned ++ printed now total blocked rets)

theorem moves_of_mainStep {s s' : EngineProcess} {e : MainEvent} {os : List Shown}
    (h : s.mainStep isDeepfake s.main e = some (s', os)) : Moves isDeepfake s (.main e) s' os := by
  generalize hmain : s.main = main at h
  cases main <;> cases e <;> simp only [mainStep, reduceCtorEq] at h
  case head.next =>
    cases h
    split_ifs with hrunning
    · exact .enter hmain hrunning
    · exact .leave hmain (Bool.eq_false_of_not_eq_true hrunning)
  case popping.pop e =>
    obtain ⟨⟨t, rets⟩, hstep, heq⟩ := Option.map_eq_some_iff.mp h
    obtain ⟨⟨q', c', rets'⟩, hpop, hrets⟩ := Option.map_eq_some_iff.mp hstep
    cases hrets
    cases heq
    exact .pop hmain (Pop.moves_of_step hpop)
  case popped.next packet => cases h; exact .count hmain
  case counted.next packet =>
    split_ifs at h with hdeepfake
    · cases h
      exact .flag hmain hdeepfake
    · cases h
      exact .pass hmain (Bool.eq_false_of_not_eq_true hdeepfake)
  case flagged.next packet => cases h; exact .block hmain
  case left.next =>
    split at h
    case h_1 htelemetry => cases h; exact .join hmain htelemetry
    case h_2 => cases h

theorem moves_of_telemetryStep {s s' : EngineProcess} {e : TelemetryEvent} {os : List Shown}
    (h : s.telemetryStep s.telemetry e = some (s', os)) :
    Moves isDeepfake s (.telemetry e) s' os := by
  have hobserve : ∀ {e t rets}, threads.step s.engine.gQueue (.observer e) = some (t, rets) →
      ∃ t', t = { s.engine.gQueue with observer := t' } ∧
        Observe.Moves s.engine.gQueue.queue s.engine.gQueue.observer e t' rets := by
    intro e t rets hstep
    obtain ⟨⟨t', rets'⟩, hobs, heq⟩ := Option.map_eq_some_iff.mp hstep
    cases heq
    exact ⟨t', rfl, Observe.moves_of_step hobs⟩
  generalize htelemetry : s.telemetry = telemetry at h
  cases telemetry <;> cases e <;> simp only [telemetryStep, reduceCtorEq] at h
  case head.check lastReport now =>
    cases h
    split_ifs with hrunning hlate
    · exact .due htelemetry hrunning hlate
    · exact .sleep htelemetry hrunning hlate
    · exact .retire htelemetry (Bool.eq_false_of_not_eq_true hrunning)
  case due.next now => cases h; exact .loadTotal htelemetry
  case loadedTotal.next now total => cases h; exact .loadBlocked htelemetry
  case loadedBlocked.next now total blocked =>
    obtain ⟨⟨t, rets⟩, hstep, heq⟩ := Option.map_eq_some_iff.mp h
    obtain ⟨t', rfl, hobs⟩ := hobserve hstep
    cases heq
    exact .loadWrite htelemetry hobs
  case sizing.next now total blocked =>
    obtain ⟨⟨t, rets⟩, hstep, heq⟩ := Option.map_eq_some_iff.mp h
    obtain ⟨t', rfl, hobs⟩ := hobserve hstep
    cases heq
    exact .report htelemetry hobs

theorem moves_of_step {s s' : EngineProcess} {e : ProcessEvent} {os : List Shown}
    (h : (process isDeepfake).step s e = some (s', os)) : Moves isDeepfake s e s' os := by
  cases e with
  | signal => cases h; exact .signal
  | producer e =>
    obtain ⟨⟨t, rets⟩, hstep, heq⟩ := Option.map_eq_some_iff.mp h
    obtain ⟨⟨q', p', rets'⟩, hpush, hrets⟩ := Option.map_eq_some_iff.mp hstep
    cases hrets
    cases heq
    exact .producer (Push.moves_of_step hpush)
  | main e => exact moves_of_mainStep h
  | telemetry e => exact moves_of_telemetryStep h

/-! ## What is counted, blocked and reported -/

/-- The packets counted so far, in order. -/
def countedPackets (os : List Shown) : List TelemetryPacket :=
  os.filterMap fun | .counted packet => some packet | _ => none

/-- The packets counted as blocked so far. -/
def blockedPackets (os : List Shown) : List TelemetryPacket :=
  os.filterMap fun | .blocked packet => some packet | _ => none

/-- The addresses handed to the loader so far. -/
def blockedIps (os : List Shown) : List (BitVec 32) :=
  os.filterMap fun | .blockIp ipAddress => some ipAddress | _ => none

/-- The calls on the queue that returned so far. -/
def queueReturns (os : List Shown) : List Return :=
  os.filterMap fun | .returned ret => some ret | _ => none

/-- The reports so far. -/
def reports (os : List Shown) : List Report :=
  os.filterMap fun | .report r => some r | _ => none

section Append

variable (os os' : List Shown)

@[simp] theorem countedPackets_append :
    countedPackets (os ++ os') = countedPackets os ++ countedPackets os' := List.filterMap_append

@[simp] theorem blockedPackets_append :
    blockedPackets (os ++ os') = blockedPackets os ++ blockedPackets os' := List.filterMap_append

@[simp] theorem blockedIps_append :
    blockedIps (os ++ os') = blockedIps os ++ blockedIps os' := List.filterMap_append

@[simp] theorem queueReturns_append :
    queueReturns (os ++ os') = queueReturns os ++ queueReturns os' := List.filterMap_append

@[simp] theorem reports_append : reports (os ++ os') = reports os ++ reports os' :=
  List.filterMap_append

end Append

/-- Returns of the queue's calls are nothing else. -/
theorem shown_returned (rets : List Return) :
    countedPackets (rets.map .returned) = [] ∧ blockedPackets (rets.map .returned) = [] ∧
      blockedIps (rets.map .returned) = [] ∧ queueReturns (rets.map .returned) = rets ∧
      reports (rets.map .returned) = [] := by
  simp [countedPackets, blockedPackets, blockedIps, queueReturns, reports, List.filterMap_map]

/-- A report is nothing else. -/
theorem shown_printed (now : ℤ) (total blocked : BitVec 64) (rets : List Return) :
    countedPackets (printed now total blocked rets) = [] ∧
      blockedPackets (printed now total blocked rets) = [] ∧
      blockedIps (printed now total blocked rets) = [] ∧
      queueReturns (printed now total blocked rets) = [] := by
  unfold printed
  split <;> exact ⟨rfl, rfl, rfl, rfl⟩

theorem reports_returned (rets : List Return) : reports (rets.map .returned) = [] :=
  (shown_returned rets).2.2.2.2

/-- What is printed is one report, of the counts loaded. -/
theorem reports_printed (now : ℤ) (total blocked : BitVec 64) (rets : List Return) :
    reports (printed now total blocked rets) = [] ∨
      ∃ n, reports (printed now total blocked rets) = [⟨now, total, blocked, n⟩] := by
  unfold printed
  split
  · exact .inr ⟨_, rfl⟩
  · exact .inl rfl

variable (isDeepfake) in
/-- **The tally**: in order and each once, what is popped is counted, of what is counted the
deepfakes are blocked, and of what is blocked the source goes to the loader, but for the one packet
`main` has in hand; the counters count it. -/
structure Tally (s : EngineProcess) (os : List Shown) : Prop where
  popped : popped (queueReturns os) = countedPackets os ++ s.main.uncounted
  judged : (countedPackets os).filter isDeepfake =
    blockedPackets os ++ s.main.unjudged.filter isDeepfake
  listed : (blockedPackets os).map (·.sourceIp.setWidth 32) =
    blockedIps os ++ s.main.unlisted.map (·.sourceIp.setWidth 32)
  total : s.engine.gTotalPackets = BitVec.ofNat 64 (countedPackets os).length
  blocked : s.engine.gBlockedPackets = BitVec.ofNat 64 (blockedPackets os).length
  loader : s.engine.sBlockedCount = BitVec.ofNat 64 (blockedIps os).length

/-- Only a pop hands out a packet, and `main` has it in hand. -/
theorem popped_of_pop {q q' : LockFreeQueue} {c c' : Pop} {e : PopEvent} {rets : List Return}
    (h : Pop.Moves q c e q' c' rets) :
    LockFreeQueue.popped rets = (afterPop rets).uncounted ∧ (afterPop rets).unjudged = [] ∧
      (afterPop rets).unlisted = [] := by
  cases h <;> exact ⟨rfl, rfl, rfl⟩

theorem popped_of_push {q q' : LockFreeQueue} {p p' : Push} {e : PushEvent} {rets : List Return}
    (h : Push.Moves q p e q' p' rets) : LockFreeQueue.popped rets = [] := by
  cases h <;> rfl

theorem popped_of_observe {q : LockFreeQueue} {t t' : Observe} {e : ObserveEvent}
    {rets : List Return} (h : Observe.Moves q t e t' rets) : LockFreeQueue.popped rets = [] := by
  rw [LockFreeQueue.popped, h.op_eq_nil]
  rfl

/-- A step that leaves the counters leaves the tally, if `main` has in hand what it had and what the
step popped. -/
theorem Tally.quiet {s s' : EngineProcess} {os o : List Shown} (hT : Tally isDeepfake s os)
    (htotal : s'.engine.gTotalPackets = s.engine.gTotalPackets)
    (hblocked : s'.engine.gBlockedPackets = s.engine.gBlockedPackets)
    (hloader : s'.engine.sBlockedCount = s.engine.sBlockedCount)
    (hpopped : s'.main.uncounted = s.main.uncounted ++ LockFreeQueue.popped (queueReturns o))
    (hjudged : s'.main.unjudged.filter isDeepfake = s.main.unjudged.filter isDeepfake)
    (hlisted : s'.main.unlisted = s.main.unlisted)
    (ho : countedPackets o = [] ∧ blockedPackets o = [] ∧ blockedIps o = []) :
    Tally isDeepfake s' (os ++ o) := by
  obtain ⟨hcount, hblock, hips⟩ := ho
  constructor
  · rw [queueReturns_append, Engine.popped_append, hT.popped, hpopped, countedPackets_append,
      hcount, List.append_nil, List.append_assoc]
  · simpa [hcount, hblock, hjudged] using hT.judged
  · simpa [hblock, hips, hlisted] using hT.listed
  · simpa [hcount, htotal] using hT.total
  · simpa [hblock, hblocked] using hT.blocked
  · simpa [hips, hloader] using hT.loader

/-- The calls of the other threads pop nothing. -/
theorem Tally.other {s s' : EngineProcess} {os o : List Shown} {rets : List Return}
    (hT : Tally isDeepfake s os) (hrets : LockFreeQueue.popped rets = [])
    (htotal : s'.engine.gTotalPackets = s.engine.gTotalPackets)
    (hblocked : s'.engine.gBlockedPackets = s.engine.gBlockedPackets)
    (hloader : s'.engine.sBlockedCount = s.engine.sBlockedCount) (hmain : s'.main = s.main)
    (ho : countedPackets o = [] ∧ blockedPackets o = [] ∧ blockedIps o = [] ∧
      queueReturns o = rets) : Tally isDeepfake s' (os ++ o) := by
  obtain ⟨hcount, hblock, hips, hreturns⟩ := ho
  refine hT.quiet htotal hblocked hloader ?_ (by rw [hmain]) (by rw [hmain]) ⟨hcount, hblock, hips⟩
  rw [hreturns, hrets, hmain, List.append_nil]

/-- **The tally is kept** by every step. -/
theorem Tally.step {s s' : EngineProcess} {os o : List Shown} {e : ProcessEvent}
    (hT : Tally isDeepfake s os) (h : Moves isDeepfake s e s' o) :
    Tally isDeepfake s' (os ++ o) := by
  cases h with
  | signal =>
    exact hT.other (show LockFreeQueue.popped [] = [] from rfl) rfl rfl rfl rfl
      ⟨rfl, rfl, rfl, rfl⟩
  | @producer _ _ _ rets h =>
    obtain ⟨hcount, hblock, hips, hreturns, -⟩ := shown_returned rets
    exact hT.other (popped_of_push h) rfl rfl rfl rfl ⟨hcount, hblock, hips, hreturns⟩
  | enter hmain =>
    refine hT.quiet rfl rfl rfl ?_ ?_ ?_ ⟨rfl, rfl, rfl⟩ <;> rw [hmain] <;> rfl
  | leave hmain =>
    refine hT.quiet rfl rfl rfl ?_ ?_ ?_ ⟨rfl, rfl, rfl⟩ <;> rw [hmain] <;> rfl
  | @pop _ _ _ rets hmain h =>
    obtain ⟨hcount, hblock, hips, hreturns, -⟩ := shown_returned rets
    obtain ⟨huncounted, hunjudged, hunlisted⟩ := popped_of_pop h
    refine hT.quiet rfl rfl rfl ?_ ?_ ?_ ⟨hcount, hblock, hips⟩ <;> rw [hmain]
    · rw [hreturns, huncounted]
      rfl
    · exact congrArg (List.filter isDeepfake) hunjudged
    · exact hunlisted
  | @count packet hmain =>
    obtain ⟨hpopped, hjudged, hlisted, htotal, hblocked, hloader⟩ := hT
    rw [hmain] at hpopped hjudged hlisted
    constructor
    · simpa [queueReturns, countedPackets, MainLoop.uncounted] using hpopped
    · simpa [countedPackets, blockedPackets, MainLoop.unjudged] using hjudged
    · simpa [blockedPackets, blockedIps, MainLoop.unlisted] using hlisted
    · rw [countedPackets_append, List.length_append, BitVec.ofNat_add, ← htotal]
      rfl
    · simpa [blockedPackets] using hblocked
    · simpa [blockedIps] using hloader
  | @flag packet hmain hdeepfake =>
    obtain ⟨hpopped, hjudged, hlisted, htotal, hblocked, hloader⟩ := hT
    rw [hmain] at hpopped hjudged hlisted
    constructor
    · simpa [queueReturns, countedPackets, MainLoop.uncounted] using hpopped
    · simpa [countedPackets, blockedPackets, MainLoop.unjudged, hdeepfake] using hjudged
    · simpa [blockedPackets, blockedIps, MainLoop.unlisted] using hlisted
    · simpa [countedPackets] using htotal
    · rw [blockedPackets_append, List.length_append, BitVec.ofNat_add, ← hblocked]
      rfl
    · simpa [blockedIps] using hloader
  | @pass packet hmain hhuman =>
    refine hT.quiet rfl rfl rfl ?_ ?_ ?_ ⟨rfl, rfl, rfl⟩ <;> rw [hmain]
    · rfl
    · simp [MainLoop.unjudged, hhuman]
    · rfl
  | @block packet hmain =>
    obtain ⟨hpopped, hjudged, hlisted, htotal, hblocked, hloader⟩ := hT
    rw [hmain] at hpopped hjudged hlisted
    constructor
    · simpa [queueReturns, countedPackets, MainLoop.uncounted] using hpopped
    · simpa [countedPackets, blockedPackets, MainLoop.unjudged] using hjudged
    · simpa [blockedPackets, blockedIps, MainLoop.unlisted] using hlisted
    · simpa [countedPackets] using htotal
    · simpa [blockedPackets] using hblocked
    · rw [blockedIps_append, List.length_append, BitVec.ofNat_add, ← hloader]
      rfl
  | join hmain =>
    refine hT.quiet rfl rfl rfl ?_ ?_ ?_ ⟨rfl, rfl, rfl⟩ <;> rw [hmain] <;> rfl
  | sleep | due | retire | loadTotal | loadBlocked =>
    exact hT.other (show LockFreeQueue.popped [] = [] from rfl) rfl rfl rfl rfl
      ⟨rfl, rfl, rfl, rfl⟩
  | @loadWrite _ _ _ _ rets _ h =>
    obtain ⟨hcount, hblock, hips, hreturns, -⟩ := shown_returned rets
    exact hT.other (popped_of_observe h) rfl rfl rfl rfl ⟨hcount, hblock, hips, hreturns⟩
  | @report now total blocked _ rets _ h =>
    obtain ⟨hcount, hblock, hips, hreturns, -⟩ := shown_returned rets
    obtain ⟨hcount', hblock', hips', hreturns'⟩ := shown_printed now total blocked rets
    refine hT.other (popped_of_observe h) rfl rfl rfl rfl ⟨?_, ?_, ?_, ?_⟩ <;>
      simp [hcount, hblock, hips, hreturns, hcount', hblock', hips', hreturns']

/-- **Nothing is lost or counted twice**, whatever the interleaving. -/
theorem run_tally {q : LockFreeQueue} {lastReport : ℤ} {s : EngineProcess}
    {es : List ProcessEvent} {os : List Shown}
    (hrun : (process isDeepfake).run (.start q lastReport) es = some (s, os)) :
    Tally isDeepfake s os :=
  (process isDeepfake).run_invariant (I := Tally isDeepfake)
    (fun _ _ _ _ _ hT hs => hT.step (moves_of_step hs)) ⟨rfl, rfl, rfl, rfl, rfl, rfl⟩ hrun

/-- Of the packets counted, no more are blocked. -/
theorem Tally.length_le {s : EngineProcess} {os : List Shown} (hT : Tally isDeepfake s os) :
    (blockedPackets os).length ≤ (countedPackets os).length := by
  have hlen := congrArg List.length hT.judged
  rw [List.length_append] at hlen
  have hle := (countedPackets os).length_filter_le isDeepfake
  omega

/-! ## From the producer to the loader -/

/-- A step of the process is at most one of its queue. -/
theorem Moves.threads {s s' : EngineProcess} {e : ProcessEvent} {os : List Shown}
    (h : Moves isDeepfake s e s' os) :
    s'.engine.gQueue = s.engine.gQueue ∧ queueReturns os = [] ∨
      ∃ e', threads.step s.engine.gQueue e' = some (s'.engine.gQueue, queueReturns os) := by
  have hreturns (rets : List Return) : queueReturns (rets.map .returned) = rets :=
    (shown_returned rets).2.2.2.1
  cases h with
  | signal | enter | leave | count | flag | pass | block | join | sleep | due | retire | loadTotal
  | loadBlocked => exact .inl ⟨rfl, rfl⟩
  | @producer e _ _ rets h =>
    refine .inr ⟨.producer e, ?_⟩
    simp [LockFreeQueue.threads, hreturns, h.step_eq, withQueue]
  | @pop e _ _ rets _ h =>
    refine .inr ⟨.consumer e, ?_⟩
    simp [LockFreeQueue.threads, hreturns, h.step_eq, withQueue]
  | @loadWrite _ _ _ _ rets _ h =>
    refine .inr ⟨.observer (.loadWrite .size), ?_⟩
    simp [LockFreeQueue.threads, hreturns, h.step_eq, withQueue]
  | @report now total blocked _ rets _ h =>
    have hprinted := (shown_printed now total blocked rets).2.2.2
    refine .inr ⟨.observer .loadRead, ?_⟩
    simp [LockFreeQueue.threads, hreturns, hprinted, h.step_eq, withQueue]

/-- **The queue of the process runs as the queue.** -/
theorem run_threads {q : LockFreeQueue} {lastReport : ℤ} {s : EngineProcess}
    {es : List ProcessEvent} {os : List Shown}
    (hrun : (process isDeepfake).run (.start q lastReport) es = some (s, os)) :
    ∃ es', threads.run (.start q) es' = some (s.engine.gQueue, queueReturns os) := by
  refine (process isDeepfake).run_invariant
    (I := fun s os => ∃ es', threads.run (.start q) es' = some (s.engine.gQueue, queueReturns os))
    ?_ ⟨[], rfl⟩ hrun
  rintro s os e s' o ⟨es', hes'⟩ hs
  rw [queueReturns_append]
  rcases (moves_of_step hs).threads with ⟨hqueue, hnone⟩ | ⟨e', he'⟩
  · exact ⟨es', by rw [hqueue, hnone, List.append_nil]; exact hes'⟩
  · exact ⟨es' ++ [e'], (Machine.run_append_iff threads).mpr
      ⟨_, _, _, hes', threads.run_singleton he', rfl⟩⟩

/-- What the process pops was pushed before, and in that order. -/
theorem popped_prefix_pushed {fuel : ℕ} {capacity : SizeT} {q : LockFreeQueue}
    (hq : new fuel capacity = some q) {lastReport : ℤ} {s : EngineProcess}
    {es : List ProcessEvent} {os : List Shown}
    (hrun : (process isDeepfake).run (.start q lastReport) es = some (s, os)) :
    LockFreeQueue.popped (queueReturns os) <+: pushed (queueReturns os) := by
  obtain ⟨k, hk, rfl⟩ := exists_eq_init hq
  obtain ⟨es', hqueue⟩ := run_threads hrun
  obtain ⟨base, l, hpath, -⟩ := run_represents hk rfl hqueue
  exact Fifo.dequeued_prefix hpath

/-! ## A run in which one report is printed -/

/-- A call of `push`, step by step. -/
def pushSteps (packet : TelemetryPacket) : List PushEvent :=
  .loadWrite packet :: .loadRead :: allFields.map .field ++ [.store]

/-- A call of `pop`, step by step, up to its last. -/
def popSteps (packet : TelemetryPacket) : List PopEvent :=
  .loadRead packet :: .loadWrite :: allFields.map .field

theorem pushEvents_eq (packet : TelemetryPacket) :
    pushEvents packet = (pushSteps packet).map .producer := by
  simp [pushEvents, pushSteps]

theorem popEvents_eq (packet : TelemetryPacket) :
    popEvents packet = (popSteps packet).map .consumer ++ [.consumer .store] := by
  simp [popEvents, popSteps]

variable (isDeepfake) in
/-- What the producer does on the queue, it does in the process… -/
theorem run_pushing {s : EngineProcess} {es : List PushEvent} {t : Threads} {rets : List Return}
    (hrun : threads.run s.engine.gQueue (es.map .producer) = some (t, rets)) :
    (process isDeepfake).run s (es.map .producer) =
      some ({ s with engine := s.withQueue t }, rets.map .returned) := by
  induction es generalizing s rets with
  | nil =>
    obtain ⟨rfl, rfl⟩ := Prod.mk.inj (Option.some.inj hrun)
    rfl
  | cons e es ih =>
    obtain ⟨t₁, o, o', hs, hr, rfl⟩ := (Machine.run_cons_iff threads).mp hrun
    have hstep : (process isDeepfake).step s (.producer e) =
        some ({ s with engine := s.withQueue t₁ }, o.map .returned) := by
      simp only [process, hs, Option.map_some]
    rw [List.map_append]
    exact (process isDeepfake).run_cons hstep (ih hr)

variable (isDeepfake) in
/-- …and so does `main` in a call of `pop` that has not returned. -/
theorem run_popping {s : EngineProcess} {es : List PopEvent} {t : Threads}
    (hmain : s.main = .popping)
    (hrun : threads.run s.engine.gQueue (es.map .consumer) = some (t, [])) :
    (process isDeepfake).run s (es.map fun e => .main (.pop e)) =
      some ({ s with engine := s.withQueue t }, []) := by
  induction es generalizing s with
  | nil =>
    obtain ⟨rfl, -⟩ := Prod.mk.inj (Option.some.inj hrun)
    rfl
  | cons e es ih =>
    obtain ⟨t₁, o, o', hs, hr, happ⟩ := (Machine.run_cons_iff threads).mp hrun
    obtain ⟨rfl, rfl⟩ := List.nil_eq_append_iff.mp happ
    have hstep : (process isDeepfake).step s (.main (.pop e)) =
        some ({ s with engine := s.withQueue t₁, main := .popping }, []) := by
      simp only [process, mainStep, hmain, hs, Option.map_some]
      rfl
    have hrest := ih (s := { s with engine := s.withQueue t₁, main := .popping }) rfl hr
    obtain ⟨engine, main, telemetry⟩ := s
    obtain rfl : main = .popping := hmain
    exact (process isDeepfake).run_cons hstep hrest

/-- The process between two packets: the queue empty, the producer and `main` at rest. -/
structure Resting (s : EngineProcess) : Prop where
  running : s.engine.gRunning = true
  main : s.main = .head
  producer : s.engine.gQueue.producer = .idle
  consumer : s.engine.gQueue.consumer = .idle
  capacity : s.engine.gQueue.queue.mCapacity = 131072
  empty : s.engine.gQueue.queue.mReadIndex = s.engine.gQueue.queue.mWriteIndex

/-- The last step of a pop returns a packet. -/
theorem eq_of_step_store {t t' : Threads} {rets : List Return}
    (h : threads.step t (.consumer .store) = some (t', rets)) :
    ∃ packet, rets = [.pop (some packet)] := by
  obtain ⟨⟨q', c', rets'⟩, hstep, heq⟩ := Option.map_eq_some_iff.mp h
  cases heq
  have hmoves := Pop.moves_of_step hstep
  generalize t.consumer = c at hmoves
  cases hmoves
  exact ⟨_, rfl⟩

/-- A pop that gets through returns at its last step. -/
theorem exists_run_popSteps (q : LockFreeQueue) (p : Push) (t : Observe) (packet : TelemetryPacket)
    (hsome : q.mReadIndex ≠ q.mWriteIndex) :
    ∃ t₁ t₂ packet',
      threads.run ⟨q, p, .idle, t⟩ ((popSteps packet).map .consumer) = some (t₁, []) ∧
      threads.step t₁ (.consumer .store) = some (t₂, [.pop (some packet')]) ∧
      t₂ = ⟨{ q with mReadIndex := q.mReadIndex + 1 }, p, .idle, t⟩ := by
  obtain ⟨packet', hpop⟩ := run_popEvents q p t packet hsome
  rw [popEvents_eq] at hpop
  obtain ⟨t₁, o₁, o₂, hfirst, hlast, happ⟩ := (Machine.run_append_iff threads).mp hpop
  obtain ⟨t₂, o₃, o₄, hstep, hnil, rfl⟩ := (Machine.run_cons_iff threads).mp hlast
  obtain ⟨rfl, rfl⟩ := Prod.mk.inj (Option.some.inj hnil)
  obtain ⟨packet'', rfl⟩ := eq_of_step_store hstep
  rw [List.append_nil] at happ
  obtain ⟨rfl, hlast⟩ : o₁ = [] ∧ [.pop (some packet')] = [Return.pop (some packet'')] := by
    cases o₁ with
    | nil => exact ⟨rfl, happ⟩
    | cons o o₁ => simp at happ
  exact ⟨t₁, _, packet', hfirst, by rw [hlast]; exact hstep, rfl⟩

/-- **At rest, a packet gets through** from the producer to `main`. -/
theorem exists_run_popped {s : EngineProcess} (hs : Resting s) (packet : TelemetryPacket) :
    ∃ es t packet', (process isDeepfake).run s es =
        some ({ s with engine := s.withQueue t, main := .popped packet' },
          [.returned (.push packet true), .returned (.pop (some packet'))]) ∧
      t.producer = .idle ∧ t.consumer = .idle ∧ t.observer = s.engine.gQueue.observer ∧
      t.queue.mCapacity = 131072 ∧ t.queue.mReadIndex = t.queue.mWriteIndex := by
  obtain ⟨⟨⟨q, p, c, o⟩, running, total, blocked, loader⟩, main, telemetry⟩ := s
  obtain ⟨hrunning, hmain, hproducer, hconsumer, hcapacity, hempty⟩ := hs
  simp only at hrunning hmain hproducer hconsumer hcapacity hempty
  subst hrunning hmain hproducer hconsumer
  obtain ⟨buffer, hpush⟩ := run_pushEvents q .idle o packet (by
    rw [hcapacity, hempty, BitVec.sub_self]
    decide)
  obtain ⟨t₁, t₂, packet', hfirst, hlast, ht₂⟩ := exists_run_popSteps
    { q with mBuffer := buffer, mWriteIndex := q.mWriteIndex + 1 } .idle o .zero (by
      simp [hempty])
  rw [pushEvents_eq] at hpush
  have hpushed := run_pushing isDeepfake
    (s := ⟨⟨⟨q, .idle, .idle, o⟩, true, total, blocked, loader⟩, .head, telemetry⟩) hpush
  have hpopping := run_popping isDeepfake
    (s := ⟨⟨_, true, total, blocked, loader⟩, .popping, telemetry⟩) rfl hfirst
  have hpopped : ∀ {s : EngineProcess}, s.main = .popping → s.engine.gQueue = t₁ →
      (process isDeepfake).step s (.main (.pop .store)) =
        some ({ s with engine := s.withQueue t₂, main := .popped packet' },
          [.returned (.pop (some packet'))]) := by
    intro s hmain hqueue
    simp only [process, mainStep, hmain, hqueue, hlast, Option.map_some]
    rfl
  refine ⟨_, t₂, packet', (Machine.run_append_iff _).mpr ⟨_, _, _, hpushed,
    (process isDeepfake).run_cons (o := []) (rfl : (process isDeepfake).step _ (.main .next) = _)
      ((Machine.run_append_iff _).mpr
        ⟨_, _, _, hpopping, Machine.run_singleton _ (hpopped rfl rfl), rfl⟩), rfl⟩, ?_⟩
  subst ht₂
  exact ⟨rfl, rfl, rfl, hcapacity, by rw [hempty]⟩

/-- `main` counts a deepfake, counts it as blocked and hands its source to the loader. -/
theorem run_of_popped {s : EngineProcess} {packet : TelemetryPacket}
    (hmain : s.main = .popped packet) (hdeepfake : isDeepfake packet = true) :
    (process isDeepfake).run s [.main .next, .main .next, .main .next] =
      some ({ s with
        engine :=
          { s.engine with
            gTotalPackets := s.engine.gTotalPackets + 1
            gBlockedPackets := s.engine.gBlockedPackets + 1
            sBlockedCount := s.engine.sBlockedCount + 1 }
        main := .head },
        [.counted packet, .blocked packet, .blockIp (packet.sourceIp.setWidth 32)]) := by
  simp [Machine.run, process, mainStep, hmain, hdeepfake]

/-- **Packet after packet**, while the telemetry thread stands between its two loads. -/
theorem exists_run_blocked {packet : TelemetryPacket} (hdeepfake : isDeepfake packet = true)
    (lastReport : ℤ) (n : ℕ) :
    ∃ es s os, (process isDeepfake).run (.start (init 131072) lastReport) es = some (s, os) ∧
      Resting s ∧ s.telemetry = .loadedTotal (lastReport + 5000000000) 0 ∧
      s.engine.gQueue.observer = .idle ∧ reports os = [] ∧
      countedPackets os = List.replicate n packet ∧ blockedPackets os = List.replicate n packet ∧
      ∀ packet' ∈ pushed (queueReturns os), packet' = packet := by
  induction n with
  | zero =>
    refine ⟨[.telemetry (.check (lastReport + 5000000000)), .telemetry .next],
      ⟨.start (init 131072), .head, .loadedTotal (lastReport + 5000000000) 0⟩, [], ?_,
      ⟨rfl, rfl, rfl, rfl, rfl, rfl⟩, rfl, rfl, rfl, rfl, rfl,
      fun packet' h => absurd h List.not_mem_nil⟩
    simp [Machine.run, process, telemetryStep, start, Engine.start]
  | succ n ih =>
    obtain ⟨es, s, os, hrun, hs, htelemetry, hobserver, hreports, hcounted, hblocked, hpushed⟩ := ih
    obtain ⟨es', t, packet', hrun', hproducer, hconsumer, hobserver', hcapacity, hempty⟩ :=
      exists_run_popped hs packet
    have hboth := (Machine.run_append_iff _).mpr ⟨_, _, _, hrun, hrun', rfl⟩
    have hpushed' : ∀ packet'' ∈ pushed (queueReturns (os ++
        [.returned (.push packet true), .returned (.pop (some packet'))])), packet'' = packet := by
      intro packet'' hmem
      rw [queueReturns_append, pushed, List.filterMap_append, Fifo.enqueued_append] at hmem
      rcases List.mem_append.mp hmem with hmem | hmem
      · exact hpushed packet'' hmem
      · exact List.mem_singleton.mp hmem
    -- the queue hands out what it took in
    obtain rfl : packet' = packet := by
      refine hpushed' packet' ((popped_prefix_pushed Engine.new_131072 hboth).subset ?_)
      rw [queueReturns_append, Engine.popped_append]
      exact List.mem_append_right _ List.mem_cons_self
    refine ⟨_, _, _,
      (Machine.run_append_iff _).mpr ⟨_, _, _, hboth, run_of_popped rfl hdeepfake, rfl⟩,
      ⟨hs.running, rfl, hproducer, hconsumer, hcapacity, hempty⟩, htelemetry,
      hobserver'.trans hobserver, ?_, ?_, ?_, ?_⟩
    · rw [reports_append, reports_append, hreports]
      rfl
    · rw [countedPackets_append, countedPackets_append, hcounted, List.replicate_succ',
        List.append_assoc]
      rfl
    · rw [blockedPackets_append, blockedPackets_append, hblocked, List.replicate_succ',
        List.append_assoc]
      rfl
    · rw [queueReturns_append]
      simpa [queueReturns] using hpushed'

/-- The telemetry thread then reports them all as blocked, and none in total. -/
theorem exists_run_reported {packet : TelemetryPacket} (hdeepfake : isDeepfake packet = true)
    (lastReport : ℤ) (n : ℕ) :
    ∃ es s os, (process isDeepfake).run (.start (init 131072) lastReport) es = some (s, os) ∧
      s.engine.gRunning = true ∧ s.telemetry = .head (lastReport + 5000000000) ∧
      s.engine.gQueue.observer = .idle ∧ (countedPackets os).length = n ∧
      (blockedPackets os).length = n ∧ ∃ queue,
        reports os = [⟨lastReport + 5000000000, 0, BitVec.ofNat 64 n, queue⟩] := by
  obtain ⟨es, s, os, hrun, hs, htelemetry, hobserver, hreports, hcounted, hblocked, -⟩ :=
    exists_run_blocked hdeepfake lastReport n
  have htotal := (run_tally hrun).blocked
  rw [hblocked, List.length_replicate] at htotal
  obtain ⟨⟨⟨q, p, c, o⟩, running, total, blocked, loader⟩, main, telemetry⟩ := s
  obtain rfl : telemetry = _ := htelemetry
  obtain rfl : o = .idle := hobserver
  obtain rfl : blocked = _ := htotal
  have hreport : (process isDeepfake).run
      ⟨⟨⟨q, p, c, .idle⟩, running, total, BitVec.ofNat 64 n, loader⟩, main,
        .loadedTotal (lastReport + 5000000000) 0⟩
      [.telemetry .next, .telemetry .next, .telemetry .next] =
        some (⟨⟨⟨q, p, c, .idle⟩, running, total, BitVec.ofNat 64 n, loader⟩, main,
          .head (lastReport + 5000000000)⟩,
          [.returned (.size (q.mWriteIndex - q.mReadIndex)),
            .report ⟨lastReport + 5000000000, 0, BitVec.ofNat 64 n,
              q.mWriteIndex - q.mReadIndex⟩]) := by
    rfl
  refine ⟨_, _, _, (Machine.run_append_iff _).mpr ⟨_, _, _, hrun, hreport, rfl⟩, hs.running, rfl,
    rfl, ?_, ?_, q.mWriteIndex - q.mReadIndex, ?_⟩
  · rw [countedPackets_append, hcounted]
    simp [countedPackets]
  · rw [blockedPackets_append, hblocked]
    simp [blockedPackets]
  · rw [reports_append, hreports]
    rfl

variable (isDeepfake) in
/-- Five seconds after a report comes the next, of the counters as they are. -/
theorem exists_run_report {s : EngineProcess} (hrunning : s.engine.gRunning = true)
    {lastReport : ℤ} (htelemetry : s.telemetry = .head lastReport)
    (hobserver : s.engine.gQueue.observer = .idle) :
    ∃ es s' os queue, (process isDeepfake).run s es = some (s', os) ∧ countedPackets os = [] ∧
      reports os =
        [⟨lastReport + 5000000000, s.engine.gTotalPackets, s.engine.gBlockedPackets, queue⟩] := by
  obtain ⟨⟨⟨q, p, c, o⟩, running, total, blocked, loader⟩, main, telemetry⟩ := s
  obtain rfl : running = true := hrunning
  obtain rfl : telemetry = _ := htelemetry
  obtain rfl : o = .idle := hobserver
  have hcheck : (process isDeepfake).step
      ⟨⟨⟨q, p, c, .idle⟩, true, total, blocked, loader⟩, main, .head lastReport⟩
      (.telemetry (.check (lastReport + 5000000000))) =
        some (⟨⟨⟨q, p, c, .idle⟩, true, total, blocked, loader⟩, main,
          .due (lastReport + 5000000000)⟩, []) := by
    simp [process, telemetryStep]
  have hreport : (process isDeepfake).run
      ⟨⟨⟨q, p, c, .idle⟩, true, total, blocked, loader⟩, main, .due (lastReport + 5000000000)⟩
      [.telemetry .next, .telemetry .next, .telemetry .next, .telemetry .next] =
        some (⟨⟨⟨q, p, c, .idle⟩, true, total, blocked, loader⟩, main,
          .head (lastReport + 5000000000)⟩,
          [.returned (.size (q.mWriteIndex - q.mReadIndex)),
            .report ⟨lastReport + 5000000000, total, blocked,
              q.mWriteIndex - q.mReadIndex⟩]) := by
    rfl
  exact ⟨_, _, _, _, (process isDeepfake).run_cons hcheck hreport, rfl, rfl⟩

/-- **From the producer to the loader**: whatever the interleaving, the packets counted are the
first of those pushed, in order and each once; those counted as blocked are the first of the
deepfakes among them; and the loader gets the sources of the first of these.  The counters are their
numbers. -/
theorem counted_prefix_pushed {fuel : ℕ} {capacity : SizeT} {q : LockFreeQueue}
    (hq : new fuel capacity = some q) {lastReport : ℤ} {s : EngineProcess}
    {es : List ProcessEvent} {os : List Shown}
    (hrun : (process isDeepfake).run (.start q lastReport) es = some (s, os)) :
    countedPackets os <+: pushed (queueReturns os) ∧
      blockedPackets os <+: (countedPackets os).filter isDeepfake ∧
      blockedIps os <+: (blockedPackets os).map (·.sourceIp.setWidth 32) ∧
      s.engine.gTotalPackets = BitVec.ofNat 64 (countedPackets os).length ∧
      s.engine.gBlockedPackets = BitVec.ofNat 64 (blockedPackets os).length ∧
      s.engine.sBlockedCount = BitVec.ofNat 64 (blockedIps os).length ∧
      (LockFreeQueue.popped (queueReturns os)).length ≤ (countedPackets os).length + 1 ∧
      (countedPackets os).countP isDeepfake ≤ (blockedIps os).length + 1 := by
  have hT := run_tally hrun
  have hcounted : countedPackets os <+: LockFreeQueue.popped (queueReturns os) := by
    rw [hT.popped]
    exact List.prefix_append _ _
  have hhand : s.main.uncounted.length ≤ 1 ∧
      s.main.unjudged.length + s.main.unlisted.length ≤ 1 := by
    cases s.main <;> simp [MainLoop.uncounted, MainLoop.unjudged, MainLoop.unlisted]
  refine ⟨hcounted.trans (popped_prefix_pushed hq hrun), ?_, ?_, hT.total, hT.blocked, hT.loader,
    ?_, ?_⟩
  · rw [hT.judged]
    exact List.prefix_append _ _
  · rw [hT.listed]
    exact List.prefix_append _ _
  · rw [hT.popped, List.length_append]
    omega
  · have hjudged := congrArg List.length hT.judged
    have hlisted := congrArg List.length hT.listed
    have hle := s.main.unjudged.length_filter_le isDeepfake
    rw [List.length_append] at hjudged
    rw [List.length_append, List.length_map, List.length_map] at hlisted
    rw [List.countP_eq_length_filter]
    omega

/-- A packet is pushed, counted and blocked. -/
theorem counted_prefix_pushed_one :
    ∃ es s os, (process fun _ => true).run (.start (init 131072) 0) es = some (s, os) ∧
      (countedPackets os).length = 1 ∧ countedPackets os <+: pushed (queueReturns os) := by
  obtain ⟨es, s, os, hrun, -, -, -, hcount, -⟩ :=
    @exists_run_reported (fun _ => true) .zero rfl 0 1
  exact ⟨es, s, os, hrun, hcount, (counted_prefix_pushed Engine.new_131072 hrun).1⟩

end Machine

end EngineProcess

end BioShield
