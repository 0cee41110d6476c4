import BioShield.Core.EngineThreads

/-!
# Core/EngineReports — what the telemetry thread prints (`core/main_engine.cpp`)

A report is no snapshot, but its two counts are each true of a moment, the total of an earlier one
than the blocked, and successive reports tell of successive moments (`reports_moments`).  So counts
never go down, and a report never shows more blocked packets than any later report shows in all
(`reports_pairwise`), though it may itself show any number blocked and none in total
(`report_ahead`).
-/

namespace BioShield

open Machinery LockFreeQueue

namespace EngineProcess

variable {isDeepfake : TelemetryPacket → Bool}

/-! ## The moments of a report -/

/-- Two counts are those of two moments, given by what the process had shown by then: the total of
the first, the blocked packets of the second. -/
structure Tells (total blocked : BitVec 64) (m : List Shown × List Shown) : Prop where
  le : m.1 <+: m.2
  total : total = BitVec.ofNat 64 (countedPackets m.1).length
  blocked : blocked = BitVec.ofNat 64 (blockedPackets m.2).length
  length_le : (blockedPackets m.2).length ≤ (countedPackets m.2).length

/-- The counts loaded for the next report are those of moments after all of `moments`. -/
def Told (moments : List (List Shown × List Shown)) (os : List Shown) : Telemetry → Prop
  | .head _ | .due _ | .left => True
  | .loadedTotal _ total => ∃ os₁, os₁ <+: os ∧
      total = BitVec.ofNat 64 (countedPackets os₁).length ∧ ∀ m ∈ moments, m.2 <+: os₁
  | .loadedBlocked _ total blocked | .sizing _ total blocked =>
      ∃ m, Tells total blocked m ∧ m.2 <+: os ∧ ∀ m' ∈ moments, m'.2 <+: m.1

/-- **The chronicle**: every report so far tells of two moments, and those of a later report come
after those of an earlier one. -/
def Chronicle (os : List Shown) (telemetry : Telemetry) : Prop :=
  ∃ moments : List (List Shown × List Shown),
    List.Forall₂ (fun r => Tells r.total r.blocked) (reports os) moments ∧
      moments.Pairwise (fun m m' => m.2 <+: m'.1) ∧ (∀ m ∈ moments, m.2 <+: os) ∧
      Told moments os telemetry

/-- What is shown besides reports leaves the chronicle. -/
theorem Chronicle.append {os o : List Shown} {telemetry : Telemetry} (h : Chronicle os telemetry)
    (ho : reports o = []) : Chronicle (os ++ o) telemetry := by
  obtain ⟨moments, htells, hsorted, hpast, htold⟩ := h
  have hprefix : ∀ {os₁ : List Shown}, os₁ <+: os → os₁ <+: os ++ o :=
    fun h => h.trans (List.prefix_append os o)
  refine ⟨moments, by simpa [ho] using htells, hsorted, fun m hm => hprefix (hpast m hm), ?_⟩
  cases telemetry with
  | head | due | left => trivial
  | loadedTotal now total =>
    obtain ⟨os₁, hos₁, htotal, hafter⟩ := htold
    exact ⟨os₁, hprefix hos₁, htotal, hafter⟩
  | loadedBlocked now total blocked | sizing now total blocked =>
    obtain ⟨m, hm, hos, hafter⟩ := htold
    exact ⟨m, hm, hprefix hos, hafter⟩

/-- A report adds its moments. -/
theorem Chronicle.report {os o : List Shown} {r : Report}
    (h : Chronicle os (.sizing r.now r.total r.blocked)) (ho : reports o = [r]) :
    Chronicle (os ++ o) (.head r.now) := by
  obtain ⟨moments, htells, hsorted, hpast, m, hm, hos, hafter⟩ := h
  refine ⟨moments ++ [m], ?_, ?_, ?_, trivial⟩
  · rw [reports_append, ho]
    exact List.rel_append htells (.cons hm .nil)
  · exact List.pairwise_append.mpr ⟨hsorted, List.pairwise_singleton _ _, fun m' hm' m₁ hm₁ => by
      rw [List.mem_singleton.mp hm₁]
      exact hafter m' hm'⟩
  · intro m' hm'
    refine List.IsPrefix.trans ?_ (List.prefix_append os o)
    rcases List.mem_append.mp hm' with hm' | hm'
    · exact hpast m' hm'
    · rwa [List.mem_singleton.mp hm']

/-- The telemetry thread loads the two counters one after the other. -/
theorem Chronicle.step {s s' : EngineProcess} {os o : List Shown} {e : ProcessEvent}
    (hT : Tally isDeepfake s os) (h : Chronicle os s.telemetry) (hs : Moves isDeepfake s e s' o) :
    Chronicle (os ++ o) s'.telemetry := by
  cases hs with
  | signal | enter | leave | count | flag | pass | block | join => exact h.append rfl
  | producer | pop => exact h.append (reports_returned _)
  | sleep htelemetry | due htelemetry | retire htelemetry =>
    obtain ⟨moments, htells, hsorted, hpast, -⟩ := h
    exact Chronicle.append ⟨moments, htells, hsorted, hpast, trivial⟩ rfl
  | loadTotal htelemetry =>
    obtain ⟨moments, htells, hsorted, hpast, -⟩ := h
    exact Chronicle.append
      ⟨moments, htells, hsorted, hpast, os, List.prefix_rfl, hT.total, hpast⟩ rfl
  | loadBlocked htelemetry =>
    obtain ⟨moments, htells, hsorted, hpast, htold⟩ := h
    rw [htelemetry] at htold
    obtain ⟨os₁, hos₁, htotal, hafter⟩ := htold
    exact Chronicle.append ⟨moments, htells, hsorted, hpast, (os₁, os),
      ⟨hos₁, htotal, hT.blocked, hT.length_le⟩, List.prefix_rfl, hafter⟩ rfl
  | loadWrite htelemetry =>
    rw [htelemetry] at h
    exact Chronicle.append h (reports_returned _)
  | @report now total blocked _ rets htelemetry _ =>
    rw [htelemetry] at h
    have hreturned := reports_returned rets
    rcases reports_printed now total blocked rets with hnone | ⟨n, hone⟩
    · obtain ⟨moments, htells, hsorted, hpast, -⟩ := h
      exact Chronicle.append ⟨moments, htells, hsorted, hpast, trivial⟩ (by simp [hreturned, hnone])
    · exact Chronicle.report (r := ⟨now, total, blocked, n⟩) h (by simp [hreturned, hone])

/-- **What the reports tell**, in every run: each the total of one moment and the blocked packets of
a later one, report after report. -/
theorem reports_moments {q : LockFreeQueue} {lastReport : ℤ} {s : EngineProcess}
    {es : List ProcessEvent} {os : List Shown}
    (hrun : (process isDeepfake).run (.start q lastReport) es = some (s, os)) :
    Chronicle os s.telemetry := by
  refine ((process isDeepfake).run_invariant
    (I := fun s os => Tally isDeepfake s os ∧ Chronicle os s.telemetry)
    (fun _ _ _ _ _ hI hs => ?_) ⟨⟨rfl, rfl, rfl, rfl, rfl, rfl⟩, ?_⟩ hrun).2
  · exact ⟨hI.1.step (moves_of_step hs), Chronicle.step hI.1 hI.2 (moves_of_step hs)⟩
  · exact ⟨[], .nil, .nil, fun m hm => absurd hm List.not_mem_nil, trivial⟩

/-! ## The times of the reports -/

/-- The next report is five seconds after all of `os`. -/
def OnTime (os : List Shown) : Telemetry → Prop
  | .head lastReport => ∀ r ∈ reports os, r.now ≤ lastReport
  | .due now | .loadedTotal now _ | .loadedBlocked now _ _ | .sizing now _ _ =>
      ∀ r ∈ reports os, r.now + 5000000000 ≤ now
  | .left => True

/-- Reports are five seconds apart, and so will the next one be. -/
def Spaced (os : List Shown) (telemetry : Telemetry) : Prop :=
  (reports os).Pairwise (fun r r' => r.now + 5000000000 ≤ r'.now) ∧ OnTime os telemetry

theorem Spaced.append {os o : List Shown} {telemetry : Telemetry} (h : Spaced os telemetry)
    (ho : reports o = []) : Spaced (os ++ o) telemetry := by
  have hreports : reports (os ++ o) = reports os := by rw [reports_append, ho, List.append_nil]
  refine ⟨by rw [hreports]; exact h.1, ?_⟩
  have htime := h.2
  cases telemetry <;> simp only [OnTime, hreports] <;> exact htime

theorem Spaced.step {s s' : EngineProcess} {os o : List Shown} {e : ProcessEvent}
    (h : Spaced os s.telemetry) (hs : Moves isDeepfake s e s' o) :
    Spaced (os ++ o) s'.telemetry := by
  cases hs with
  | signal | enter | leave | count | flag | pass | block | join => exact h.append rfl
  | producer | pop => exact h.append (reports_returned _)
  | sleep htelemetry =>
    rw [htelemetry] at h
    exact Spaced.append h rfl
  | @due lastReport now htelemetry _ hlate =>
    rw [htelemetry] at h
    refine Spaced.append ⟨h.1, fun r hr => ?_⟩ rfl
    have hlast := h.2 r hr
    omega
  | retire => exact Spaced.append ⟨h.1, trivial⟩ rfl
  | loadTotal htelemetry | loadBlocked htelemetry =>
    rw [htelemetry] at h
    exact Spaced.append h rfl
  | loadWrite htelemetry =>
    rw [htelemetry] at h
    exact Spaced.append h (reports_returned _)
  | @report now total blocked _ rets htelemetry _ =>
    rw [htelemetry] at h
    have hreturned := reports_returned rets
    obtain ⟨hpairs, htime⟩ := h
    rcases reports_printed now total blocked rets with hnone | ⟨n, hone⟩
    · refine Spaced.append ⟨hpairs, fun r hr => ?_⟩ (by simp [hreturned, hnone])
      have hr := htime r hr
      omega
    · have hreports : reports (os ++ (rets.map .returned ++ printed now total blocked rets)) =
          reports os ++ [⟨now, total, blocked, n⟩] := by simp [hreturned, hone]
      rw [Spaced, OnTime, hreports]
      refine ⟨List.pairwise_append.mpr ⟨hpairs, List.pairwise_singleton _ _, ?_⟩, ?_⟩
      · intro r hr r' hr'
        rw [List.mem_singleton.mp hr']
        exact htime r hr
      · intro r hr
        rcases List.mem_append.mp hr with hr | hr
        · have hr := htime r hr
          omega
        · rw [List.mem_singleton.mp hr]

theorem run_spaced {q : LockFreeQueue} {lastReport : ℤ} {s : EngineProcess}
    {es : List ProcessEvent} {os : List Shown}
    (hrun : (process isDeepfake).run (.start q lastReport) es = some (s, os)) :
    Spaced os s.telemetry :=
  (process isDeepfake).run_invariant (I := fun s os => Spaced os s.telemetry)
    (fun _ _ _ _ _ h hs => h.step (moves_of_step hs))
    ⟨.nil, fun _ hr => absurd hr List.not_mem_nil⟩ hrun

/-! ## Reports in order -/

/-- A relation between entries is one between what corresponds to them. -/
theorem pairwise_of_forall₂ {α β : Type} {R : α → β → Prop} {S : β → β → Prop} {T : α → α → Prop}
    (hRS : ∀ a a' b b', R a b → R a' b' → S b b' → T a a') {as : List α} {bs : List β}
    (h : List.Forall₂ R as bs) (hbs : bs.Pairwise S) : as.Pairwise T := by
  induction h with
  | nil => exact .nil
  | @cons a b as bs hab h ih =>
    obtain ⟨hb, hbs⟩ := List.pairwise_cons.mp hbs
    refine List.pairwise_cons.mpr ⟨fun a' ha' => ?_, ih hbs⟩
    obtain ⟨i, hi, rfl⟩ := List.getElem_of_mem ha'
    have hi' : i < bs.length := h.length_eq ▸ hi
    exact hRS a as[i] b bs[i] hab ((List.forall₂_iff_get.mp h).2 i hi hi')
      (hb _ (List.getElem_mem hi'))

theorem length_countedPackets_le {os os' : List Shown} (h : os <+: os') :
    (countedPackets os).length ≤ (countedPackets os').length := by
  obtain ⟨o, rfl⟩ := h
  simp

theorem length_blockedPackets_le {os os' : List Shown} (h : os <+: os') :
    (blockedPackets os).length ≤ (blockedPackets os').length := by
  obtain ⟨o, rfl⟩ := h
  simp

/-- Counts that fit are compared as they are. -/
theorem ofNat_le_ofNat {a b : ℕ} (h : a ≤ b) (hb : b < 2 ^ 64) :
    BitVec.ofNat 64 a ≤ BitVec.ofNat 64 b := by
  rwa [BitVec.le_def, BitVec.toNat_ofNat, BitVec.toNat_ofNat, Nat.mod_eq_of_lt hb,
    Nat.mod_eq_of_lt (by omega)]

/-- **Reports are in order**: while fewer than `2^64` packets are counted, of any two reports the
later one comes five seconds after, neither count is lower than before, and it shows at least as
many packets as the earlier one showed blocked. -/
theorem reports_pairwise {q : LockFreeQueue} {lastReport : ℤ} {s : EngineProcess}
    {es : List ProcessEvent} {os : List Shown}
    (hrun : (process isDeepfake).run (.start q lastReport) es = some (s, os))
    (hcount : (countedPackets os).length < 2 ^ 64) :
    (reports os).Pairwise fun r r' => r.now + 5000000000 ≤ r'.now ∧ r.total ≤ r'.total ∧
      r.blocked ≤ r'.blocked ∧ r.blocked ≤ r'.total := by
  obtain ⟨moments, htells, hsorted, hpast, -⟩ := reports_moments hrun
  have hwithin : moments.Pairwise fun m m' => m.2 <+: m'.1 ∧ m'.2 <+: os :=
    (List.Pairwise.and_mem.mp hsorted).imp fun h => ⟨h.2.2, hpast _ h.2.1⟩
  have hcounts : (reports os).Pairwise fun r r' =>
      r.total ≤ r'.total ∧ r.blocked ≤ r'.blocked ∧ r.blocked ≤ r'.total := by
    refine pairwise_of_forall₂ ?_ htells hwithin
    rintro r r' m m' h h' ⟨hle, hos⟩
    rw [h.total, h.blocked, h'.total, h'.blocked]
    -- the moments in order: total, blocked, the later total, the later blocked, now
    have htotal := length_countedPackets_le (h.le.trans hle)
    have hboth := length_countedPackets_le hle
    have hblocked := length_blockedPackets_le (hle.trans h'.le)
    have hnow := length_countedPackets_le h'.le
    have hend := length_countedPackets_le hos
    have hlen := h.length_le
    have hlen' := h'.length_le
    exact ⟨ofNat_le_ofNat htotal (by omega), ofNat_le_ofNat hblocked (by omega),
      ofNat_le_ofNat (hlen.trans hboth) (by omega)⟩
  exact (run_spaced hrun).1.and hcounts

/-- Two reports: one before the packet is loaded as counted, and one after. -/
theorem reports_pairwise_two :
    ∃ es s os r r', (process fun _ => true).run (.start (init 131072) 0) es = some (s, os) ∧
      reports os = [r, r'] ∧ (r.total = 0 ∧ r.blocked = 1) ∧ (r'.total = 1 ∧ r'.blocked = 1) ∧
        (reports os).Pairwise fun r r' => r.now + 5000000000 ≤ r'.now ∧ r.total ≤ r'.total ∧
          r.blocked ≤ r'.blocked ∧ r.blocked ≤ r'.total := by
  obtain ⟨es, s, os, hrun, hrunning, htelemetry, hobserver, hcount, hblocked, queue,
    hreports⟩ := @exists_run_reported (fun _ => true) .zero rfl 0 1
  have htally := run_tally hrun
  obtain ⟨es', s', os', queue', hrun', hcount', hreports'⟩ :=
    exists_run_report (fun _ => true) hrunning htelemetry hobserver
  have hboth := (Machine.run_append_iff _).mpr ⟨_, _, _, hrun, hrun', rfl⟩
  have hlen : (countedPackets (os ++ os')).length < 2 ^ 64 := by
    rw [countedPackets_append, hcount', List.append_nil, hcount]
    decide
  refine ⟨_, _, _, _, _, hboth, by rw [reports_append, hreports, hreports']; rfl, ⟨rfl, rfl⟩,
    ⟨?_, ?_⟩, reports_pairwise hboth hlen⟩
  · exact htally.total.trans (by rw [hcount]; rfl)
  · exact htally.blocked.trans (by rw [hblocked]; rfl)

/-- A report's blocked packets were blocked by the end of the run. -/
theorem blocked_of_mem_reports {q : LockFreeQueue} {lastReport : ℤ} {s : EngineProcess}
    {es : List ProcessEvent} {os : List Shown}
    (hrun : (process isDeepfake).run (.start q lastReport) es = some (s, os)) {r : Report}
    (hr : r ∈ reports os) :
    ∃ n ≤ (blockedPackets os).length, r.blocked = BitVec.ofNat 64 n := by
  obtain ⟨moments, htells, -, hpast, -⟩ := reports_moments hrun
  obtain ⟨i, hi, rfl⟩ := List.getElem_of_mem hr
  have hi' : i < moments.length := htells.length_eq ▸ hi
  exact ⟨_, length_blockedPackets_le (hpast _ (List.getElem_mem hi')),
    ((List.forall₂_iff_get.mp htells).2 i hi hi').blocked⟩

/-- **How far a report can run ahead of itself**: by any number of packets, if some packet is a
deepfake; and if none is, no report shows a packet blocked. -/
theorem report_ahead :
    (∀ packet, isDeepfake packet = true → ∀ (lastReport : ℤ) (n : ℕ), ∃ es s os r,
        (process isDeepfake).run (.start (init 131072) lastReport) es = some (s, os) ∧
          r ∈ reports os ∧ r.total = 0 ∧ r.blocked = BitVec.ofNat 64 n) ∧
      ((∀ packet, isDeepfake packet = false) → ∀ q lastReport es s os,
        (process isDeepfake).run (.start q lastReport) es = some (s, os) →
          ∀ r ∈ reports os, r.blocked = 0) := by
  constructor
  · intro packet hdeepfake lastReport n
    obtain ⟨es, s, os, hrun, -, -, -, -, -, queue, hreports⟩ :=
      exists_run_reported hdeepfake lastReport n
    exact ⟨es, s, os, _, hrun, by rw [hreports]; exact List.mem_cons_self, rfl, rfl⟩
  · intro hnone q lastReport es s os hrun r hr
    have hnil : blockedPackets os = [] := by
      have hjudged := (run_tally hrun).judged
      rw [List.filter_eq_nil_iff.mpr fun packet _ hdeepfake => by
        rw [hnone packet] at hdeepfake
        cases hdeepfake] at hjudged
      exact (List.nil_eq_append_iff.mp hjudged).1
    obtain ⟨n, hn, hblocked⟩ := blocked_of_mem_reports hrun hr
    rw [hnil, List.length_nil, Nat.le_zero] at hn
    rw [hblocked, hn]
    rfl

/-- Three deepfakes, and a line that shows them blocked and no packet in total. -/
theorem report_ahead_three :
    ∃ es s os r, (process fun _ => true).run (.start (init 131072) 0) es = some (s, os) ∧
      r ∈ reports os ∧ r.total = 0 ∧ r.blocked = 3 :=
  (@report_ahead fun _ => true).1 .zero rfl 0 3

end EngineProcess

end BioShield
