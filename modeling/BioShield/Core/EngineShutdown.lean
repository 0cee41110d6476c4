import BioShield.Core.EngineThreads

/-!
# Core/EngineShutdown — from a signal to the join (`core/main_engine.cpp`)

The signal handler clears `g_running`, and each thread tests it once a round.  After the signal at
most one packet is counted and one report printed, and `main` has joined the telemetry thread
within a fixed number of steps of the two (`shutdown_within`): a call of `pop` does not wait, and no
loop is entered again.
-/

namespace BioShield

open Machinery LockFreeQueue

namespace EngineProcess

variable {isDeepfake : TelemetryPacket → Bool}

/-! ## After a signal -/

/-- The steps of `main` and of the telemetry thread. -/
def ProcessEvent.own : ProcessEvent → Bool
  | .main _ | .telemetry _ => true
  | .signal | .producer _ => false

/-- The steps `main` takes at most until it has joined, after a signal. -/
def mainToGo (s : EngineProcess) : ℕ :=
  match s.main with
  | .head => 2
  | .popping => s.engine.gQueue.consumer.toGo + 5
  | .popped _ => 5
  | .counted _ => 4
  | .flagged _ => 3
  | .left => 1
  | .joined => 0

/-- The steps the telemetry thread takes until it has left. -/
def telemetryToGo (s : EngineProcess) : ℕ :=
  match s.telemetry with
  | .head _ => 1
  | .due _ => 5
  | .loadedTotal _ _ => 4
  | .loadedBlocked _ _ _ => 3
  | .sizing _ _ _ => 2
  | .left => 0

/-- The packets `main` may count yet… -/
def toCount (s : EngineProcess) : ℕ :=
  match s.main with
  | .popping | .popped _ => 1
  | _ => 0

/-- …and the reports the telemetry thread may print yet. -/
def toReport (s : EngineProcess) : ℕ :=
  match s.telemetry with
  | .head _ | .left => 0
  | _ => 1

/-- A call of `pop` comes closer to its return, or returns. -/
theorem afterPop_toGo {q q' : LockFreeQueue} {c c' : Pop} {e : PopEvent} {rets : List Return}
    (h : Pop.Moves q c e q' c' rets) :
    (afterPop rets = .popping ∧ c'.toGo + 1 ≤ c.toGo) ∨
      ((∃ packet, afterPop rets = .popped packet) ∨ afterPop rets = .head) ∧ 0 < c.toGo := by
  have hgo := h.toGo
  cases h with
  | loadRead | accept | field => exact .inl ⟨rfl, by simpa using hgo⟩
  | refuse => exact .inr ⟨.inr rfl, by simp only [Pop.toGo]; omega⟩
  | store => exact .inr ⟨.inl ⟨_, rfl⟩, by simp only [Pop.toGo]; omega⟩

/-- **After a signal**, every step of the two threads brings them closer to the end, and nothing the
others do takes them away from it. -/
theorem Moves.toGo {s s' : EngineProcess} {e : ProcessEvent} {os : List Shown}
    (h : Moves isDeepfake s e s' os) (hsignal : s.engine.gRunning = false) :
    s'.engine.gRunning = false ∧
      s'.mainToGo + s'.telemetryToGo + [e].countP ProcessEvent.own ≤
        s.mainToGo + s.telemetryToGo := by
  cases h with
  | signal | producer => exact ⟨by first | rfl | exact hsignal, le_rfl⟩
  | enter _ hrunning | sleep _ hrunning | due _ hrunning => rw [hsignal] at hrunning; cases hrunning
  | leave hmain | count hmain | flag hmain | pass hmain | block hmain | join hmain =>
    refine ⟨hsignal, ?_⟩
    simp only [mainToGo, telemetryToGo, hmain, ProcessEvent.own, List.countP_cons,
      List.countP_nil, if_true]
    omega
  | pop hmain hpop =>
    refine ⟨hsignal, ?_⟩
    simp only [mainToGo, telemetryToGo, hmain, ProcessEvent.own, List.countP_cons,
      List.countP_nil, if_true, withQueue]
    rcases afterPop_toGo hpop with ⟨hafter, hgo⟩ | ⟨⟨packet, hafter⟩ | hafter, hgo⟩ <;>
      simp only [hafter] <;> omega
  | retire htelemetry | loadTotal htelemetry | loadBlocked htelemetry | loadWrite htelemetry
  | report htelemetry =>
    refine ⟨hsignal, ?_⟩
    simp only [mainToGo, telemetryToGo, htelemetry, ProcessEvent.own, List.countP_cons,
      List.countP_nil, if_true, withQueue]
    omega

/-- A packet counted or a report printed after the signal was under way at the signal. -/
theorem Moves.toCount {s s' : EngineProcess} {e : ProcessEvent} {os : List Shown}
    (h : Moves isDeepfake s e s' os) (hsignal : s.engine.gRunning = false) :
    s'.toCount + (countedPackets os).length ≤ s.toCount ∧
      s'.toReport + (reports os).length ≤ s.toReport := by
  cases h with
  | signal => exact ⟨le_rfl, le_rfl⟩
  | @producer _ _ _ rets =>
    obtain ⟨hcount, -, -, -, hreports⟩ := shown_returned rets
    rw [hcount, hreports]
    exact ⟨le_rfl, le_rfl⟩
  | enter _ hrunning | sleep _ hrunning | due _ hrunning => rw [hsignal] at hrunning; cases hrunning
  | leave hmain | count hmain | flag hmain | pass hmain | block hmain | join hmain =>
    simp [EngineProcess.toCount, toReport, hmain, countedPackets, reports]
  | @pop _ _ _ rets hmain hpop =>
    obtain ⟨hcount, -, -, -, hreports⟩ := shown_returned rets
    rw [hcount, hreports]
    refine ⟨?_, le_rfl⟩
    simp only [EngineProcess.toCount, hmain, List.length_nil]
    rcases afterPop_toGo hpop with ⟨hafter, -⟩ | ⟨⟨packet, hafter⟩ | hafter, -⟩ <;> simp [hafter]
  | retire htelemetry | loadTotal htelemetry | loadBlocked htelemetry =>
    simp [EngineProcess.toCount, toReport, htelemetry, countedPackets, reports]
  | @loadWrite _ _ _ _ rets htelemetry =>
    obtain ⟨hcount, -, -, -, hreports⟩ := shown_returned rets
    rw [hcount, hreports]
    simp [EngineProcess.toCount, toReport, htelemetry]
  | @report now total blocked _ rets htelemetry =>
    obtain ⟨hcount, -, -, -, hreports⟩ := shown_returned rets
    have hprinted := (shown_printed now total blocked rets).1
    simp only [countedPackets_append, reports_append, hcount, hreports, hprinted,
      EngineProcess.toCount, toReport, htelemetry]
    rcases reports_printed now total blocked rets with hnone | ⟨n, hone⟩ <;> simp [*]

/-- The observer is where the telemetry thread is. -/
def Coherent (s : EngineProcess) : Prop :=
  match s.telemetry with
  | .sizing _ _ _ => ∃ query writeIdx, s.engine.gQueue.observer = .loadedWrite query writeIdx
  | _ => s.engine.gQueue.observer = .idle

theorem Coherent.step {s s' : EngineProcess} {e : ProcessEvent} {os : List Shown}
    (hI : Coherent s) (h : Moves isDeepfake s e s' os) : Coherent s' := by
  cases h with
  | signal | producer | enter | leave | pop | count | flag | pass | block | join => exact hI
  | sleep htelemetry | due htelemetry | retire htelemetry | loadTotal htelemetry
  | loadBlocked htelemetry =>
    simpa only [Coherent, htelemetry] using hI
  | loadWrite htelemetry hobs =>
    generalize s.engine.gQueue.observer = t at hobs
    cases hobs
    exact ⟨_, _, rfl⟩
  | report htelemetry hobs =>
    generalize s.engine.gQueue.observer = t at hobs
    cases hobs
    rfl

/-- **Neither thread is ever stuck** before the join. -/
theorem exists_own_step {s : EngineProcess} (hI : Coherent s) (hjoined : s.main ≠ .joined) :
    ∃ e r, ProcessEvent.own e = true ∧ (process isDeepfake).step s e = some r := by
  obtain ⟨engine, main, telemetry⟩ := s
  cases main with
  | head | popped | flagged => exact ⟨.main .next, _, rfl, rfl⟩
  | popping =>
    obtain ⟨e, t, rets, he, hstep⟩ := engine.gQueue.exists_step .consumer
    cases e with
    | consumer e => exact ⟨.main (.pop e), _, rfl, by simp only [process, mainStep, hstep]; rfl⟩
    | producer | observer => cases he
  | counted packet =>
    refine ⟨.main .next, ?_⟩
    by_cases hdeepfake : isDeepfake packet <;>
      simp [ProcessEvent.own, process, mainStep, hdeepfake]
  | left =>
    cases telemetry with
    | head => exact ⟨.telemetry (.check 0), _, rfl, rfl⟩
    | due | loadedTotal => exact ⟨.telemetry .next, _, rfl, rfl⟩
    | loadedBlocked =>
      refine ⟨.telemetry .next, ?_⟩
      simp only [Coherent] at hI
      simp [ProcessEvent.own, process, telemetryStep, threads, Observe.step, hI]
    | sizing =>
      obtain ⟨query, writeIdx, hobs⟩ := hI
      refine ⟨.telemetry .next, ?_⟩
      simp only at hobs
      simp [ProcessEvent.own, process, telemetryStep, threads, Observe.step, hobs]
    | left => exact ⟨.main .next, _, rfl, rfl⟩
  | joined => exact absurd rfl hjoined

/-- **Shutdown**: however a run goes on after a signal, at most one more packet is counted and one
more report printed, `main` and the telemetry thread take no more than a call of `pop` and ten more
steps between them, and until `main` has joined one of the two can go on. -/
theorem shutdown_within {q : LockFreeQueue} {lastReport : ℤ} {s s' : EngineProcess}
    {es es' : List ProcessEvent} {os os' : List Shown}
    (hrun : (process isDeepfake).run (.start q lastReport) es = some (s, os))
    (hsignal : s.engine.gRunning = false)
    (hrun' : (process isDeepfake).run s es' = some (s', os')) :
    (countedPackets os').length ≤ 1 ∧ (reports os').length ≤ 1 ∧
      es'.countP ProcessEvent.own ≤ Thread.consumer.callSteps + 10 ∧
      (s'.main = .joined ∨
        ∃ e r, ProcessEvent.own e = true ∧ (process isDeepfake).step s' e = some r) := by
  have hcoherent : ∀ {s s' : EngineProcess} {es : List ProcessEvent} {os : List Shown},
      (process isDeepfake).run s es = some (s', os) → Coherent s → Coherent s' :=
    fun hrun hI => (process isDeepfake).run_invariant (I := fun s _ => Coherent s)
      (fun _ _ _ _ _ hI hs => hI.step (moves_of_step hs)) hI hrun
  have hcounts := (process isDeepfake).run_invariant
    (I := fun s₁ os₁ => s₁.engine.gRunning = false ∧
      s₁.toCount + (countedPackets os₁).length ≤ s.toCount ∧
      s₁.toReport + (reports os₁).length ≤ s.toReport)
    (fun s₁ os₁ e s₂ o hI hs => by
      have hgo := (moves_of_step hs).toGo hI.1
      have hcount := (moves_of_step hs).toCount hI.1
      rw [countedPackets_append, reports_append, List.length_append, List.length_append]
      exact ⟨hgo.1, by omega, by omega⟩)
    ⟨hsignal, le_rfl, le_rfl⟩ hrun'
  have hsteps := (process isDeepfake).run_potential ProcessEvent.own (fun _ => false) 0
    (fun s => s.mainToGo + s.telemetryToGo) (I := fun s => s.engine.gRunning = false)
    (fun _ _ _ _ hI hs => ((moves_of_step hs).toGo hI).1)
    (fun _ _ _ _ hI hs => by simpa using ((moves_of_step hs).toGo hI).2) hsignal hrun'
  have hcountLe : s.toCount ≤ 1 := by rw [toCount]; split <;> omega
  have hreportLe : s.toReport ≤ 1 := by rw [toReport]; split <;> omega
  have hmainLe : s.mainToGo ≤ Thread.consumer.callSteps + 5 := by
    have hcall := s.engine.gQueue.toGo_le .consumer
    rw [Threads.toGo] at hcall
    rw [mainToGo]
    split <;> omega
  have htelemetryLe : s.telemetryToGo ≤ 5 := by rw [telemetryToGo]; split <;> omega
  refine ⟨by omega, by omega, by omega, ?_⟩
  by_cases hjoined : s'.main = .joined
  · exact .inl hjoined
  · exact .inr (exists_own_step (hcoherent hrun' (hcoherent hrun rfl)) hjoined)

/-- A signal when a packet is popped and a report is due: the packet is counted and the report is
printed, and `main` joins after ten steps. -/
theorem shutdown_within_popped :
    ∃ es es' s s' os os', (process fun _ => true).run (.start (init 131072) 0) es = some (s, os) ∧
      s.main.uncounted.length = 1 ∧ s.telemetry = .due 5000000000 ∧
      (process fun _ => true).run s es' = some (s', os') ∧ s'.main = .joined ∧
      (countedPackets os').length = 1 ∧ (reports os').length = 1 ∧
      es'.countP ProcessEvent.own = 10 ∧
      ((countedPackets os').length ≤ 1 ∧ (reports os').length ≤ 1 ∧
        es'.countP ProcessEvent.own ≤ Thread.consumer.callSteps + 10) := by
  have hdue : (process fun _ => true).run (.start (init 131072) 0)
      [.telemetry (.check 5000000000)] =
        some (⟨.start (init 131072), .head, .due 5000000000⟩, []) := by
    simp [Machine.run, process, telemetryStep, start, Engine.start]
  obtain ⟨es, ⟨q, p, c, o⟩, packet, hpopped, -, -, hobserver, -, -⟩ :=
    @exists_run_popped (fun _ => true) ⟨.start (init 131072), .head, .due 5000000000⟩
      ⟨rfl, rfl, rfl, rfl, rfl, rfl⟩ .zero
  obtain rfl : o = .idle := hobserver
  have hsignal : (process fun _ => true).run
      ⟨⟨⟨q, p, c, .idle⟩, true, 0, 0, 0⟩, .popped packet, .due 5000000000⟩ [.signal] =
        some (⟨⟨⟨q, p, c, .idle⟩, false, 0, 0, 0⟩, .popped packet, .due 5000000000⟩, []) := rfl
  have hrun := (Machine.run_append_iff _).mpr ⟨_, _, _, hdue, (Machine.run_append_iff _).mpr
    ⟨_, _, _, hpopped, hsignal, rfl⟩, rfl⟩
  have hrun' : (process fun _ => true).run
      ⟨⟨⟨q, p, c, .idle⟩, false, 0, 0, 0⟩, .popped packet, .due 5000000000⟩
      [.main .next, .telemetry .next, .main .next, .telemetry .next, .main .next,
        .telemetry .next, .telemetry .next, .main .next, .telemetry (.check 0), .main .next] =
        some (_, _) := rfl
  have h := shutdown_within hrun rfl hrun'
  exact ⟨_, _, _, _, _, _, hrun, rfl, rfl, hrun', rfl, rfl, rfl, rfl, h.1, h.2.1, h.2.2.1⟩

end EngineProcess

end BioShield
