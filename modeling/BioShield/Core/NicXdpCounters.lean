import BioShield.Core.NicXdpPolicy
import Mathlib.Algebra.BigOperators.Group.Finset.Basic

/-!
# Core/NicXdpCounters — what the two per-CPU counters add up to

A frame moves at most one counter, that of the CPU that got it (`counters_exec`).  Summed over the
CPUs, `packet_count_map` holds the frames that were inspected and passed, and `blocked_count_map`
those dropped for their source alone: a frame dropped for its payload is stored in `block_map` and
counted nowhere (`counters_count_iff`).
-/

namespace BioShield

open Machinery

namespace NicXdp

/-- Complete Ethernet, IPv4 and UDP headers. -/
def completeHeaders (data : List Byte) : Bool := (sourceIp data).isSome && 42 ≤ data.length

/-- A counter's value, summed over the CPUs. -/
def Maps.total (w : Maps) (counter : Counter) (cpus : ℕ) : ℕ :=
  ∑ i ∈ Finset.range cpus, (w.counters counter i).toNat

/-- The frames dropped. -/
def dropped (os : List Processed) : ℕ := os.countP fun o => o.action = .drop

/-- The frames with complete headers that were passed. -/
def passed (os : List Processed) : ℕ :=
  os.countP fun o => completeHeaders o.packet.data && o.action = .pass

/-! ## One frame -/

theorem Maps.counters_bump (w : Maps) (counter c : Counter) (cpu i : ℕ) :
    (w.bump counter cpu).counters c i =
      w.counters c i + if cpu = i ∧ c = counter then 1 else 0 := by
  simp only [bump, eq_comm (a := i), and_comm (a := c = counter)]
  split_ifs <;> simp

/-- The frames a counter goes up for. -/
def countedBy : Counter → Processed → Bool
  | .packetCount, o => completeHeaders o.packet.data && o.action = .pass
  | .blockedCount, o => o.action = .drop && !o.judged

/-- A frame as the filter leaves it. -/
def process (w : Maps) (p : Packet) : Processed :=
  ⟨p, judgedLowVariance w p, ((xdpDeepfakeFilter p).exec Maps.answer w).1⟩

theorem nic_step (w : Maps) (p : Packet) :
    nic.step w p = some (((xdpDeepfakeFilter p).exec Maps.answer w).2, [process w p]) := rfl

/-- **A frame moves the counters that count it**, on its own CPU, by one. -/
theorem counters_exec (w : Maps) (p : Packet) (counter : Counter) (i : ℕ) :
    ((xdpDeepfakeFilter p).exec Maps.answer w).2.counters counter i =
      w.counters counter i +
        if p.cpu = i ∧ countedBy counter (process w p) then 1 else 0 := by
  cases hsrc : sourceIp p.data with
  | none =>
    have hexec : (xdpDeepfakeFilter p).exec Maps.answer w = (.pass, w) := by
      rw [xdpDeepfakeFilter, hsrc]
      rfl
    cases counter <;> simp [process, hexec, countedBy, completeHeaders, hsrc]
  | some srcIp =>
    have hjudged : judgedLowVariance w p = (!(blockThreshold ≤ w.count srcIp) &&
        42 ≤ p.data.length && lowVariance p.data) := by
      simp only [judgedLowVariance, hsrc]
    rw [process, hjudged, exec_of_sourceIp hsrc, exec_filterSource]
    by_cases hblocked : blockThreshold ≤ w.count srcIp
    · rw [if_pos hblocked]
      cases counter <;> simp [Maps.counters_bump, countedBy, hblocked]
    rw [if_neg hblocked]
    by_cases hlen : p.data.length < 42
    · rw [if_pos hlen]
      cases counter <;> simp [countedBy, completeHeaders, hlen]
    rw [if_neg hlen]
    have hlong : 42 ≤ p.data.length := not_lt.mp hlen
    by_cases hlow : lowVariance p.data
    · rw [if_pos hlow]
      cases counter <;> simp [Maps.updateBlock, countedBy, hblocked, hlong, hlow]
    · rw [if_neg hlow]
      cases counter <;>
        simp [Maps.counters_bump, countedBy, completeHeaders, hsrc, hlong]

/-! ## A run -/

/-- The frames of a run are those it was given. -/
theorem map_packet_of_run {w w' : Maps} {packets : List Packet} {os : List Processed}
    (hrun : nic.run w packets = some (w', os)) : os.map Processed.packet = packets := by
  refine Machine.run_echo (fun w p w' o hs => ?_) hrun
  obtain ⟨-, rfl⟩ := Prod.mk.inj (Option.some.inj hs)
  rfl

/-- **A counter of a CPU** holds, modulo `2 ^ 64`, the frames the CPU got that it counts. -/
theorem counters_run {w w' : Maps} {packets : List Packet} {os : List Processed}
    (hzero : ∀ counter i, w.counters counter i = 0)
    (hrun : nic.run w packets = some (w', os)) (counter : Counter) (i : ℕ) :
    w'.counters counter i =
      BitVec.ofNat 64 (os.countP fun o => o.packet.cpu = i ∧ countedBy counter o) := by
  refine nic.run_invariant
    (I := fun w os => w.counters counter i =
      BitVec.ofNat 64 (os.countP fun o => o.packet.cpu = i ∧ countedBy counter o))
    (fun w os p w' o h hs => ?_) (hzero counter i) hrun
  obtain ⟨rfl, rfl⟩ := Prod.mk.inj (Option.some.inj hs)
  rw [counters_exec, h, List.countP_append, List.countP_singleton, BitVec.ofNat_add]
  by_cases hcounted : p.cpu = i ∧ countedBy counter (process w p)
  · rw [if_pos hcounted, if_pos (by simpa [process] using hcounted)]
    rfl
  · rw [if_neg hcounted, if_neg (by simpa [process] using hcounted)]
    rfl

/-- What is counted CPU by CPU is counted. -/
theorem sum_countP_cpu {cpus : ℕ} {os : List Processed} (h : ∀ o ∈ os, o.packet.cpu < cpus)
    (q : Processed → Bool) :
    ∑ i ∈ Finset.range cpus, os.countP (fun o => o.packet.cpu = i ∧ q o) = os.countP q := by
  induction os with
  | nil => simp
  | cons o os ih =>
    obtain ⟨ho, hos⟩ := List.forall_mem_cons.mp h
    simp only [List.countP_cons, Finset.sum_add_distrib, ih hos]
    by_cases hq : q o <;> simp [hq, ho]

section Totals

variable {w w' : Maps} {packets : List Packet} {os : List Processed} {cpus : ℕ}

/-- **A counter, summed over the CPUs**, holds the frames it counts, as long as no CPU gets more of
them than its counter holds. -/
theorem total_run (hzero : ∀ counter i, w.counters counter i = 0)
    (hcpu : ∀ p ∈ packets, p.cpu < cpus)
    (hsmall : ∀ i, packets.countP (fun p => p.cpu = i) < 2 ^ 64)
    (hrun : nic.run w packets = some (w', os)) (counter : Counter) :
    w'.total counter cpus = os.countP (countedBy counter) := by
  have hpackets := map_packet_of_run hrun
  have hcpu' : ∀ o ∈ os, o.packet.cpu < cpus := fun o ho =>
    hcpu _ (hpackets ▸ List.mem_map_of_mem ho)
  rw [← sum_countP_cpu hcpu', Maps.total]
  refine Finset.sum_congr rfl fun i _ => ?_
  have hle : os.countP (fun o => o.packet.cpu = i ∧ countedBy counter o) ≤
      packets.countP fun p => p.cpu = i := by
    rw [← hpackets, List.countP_map]
    exact List.countP_mono_left fun o _ h => by simp_all
  rw [counters_run hzero hrun, BitVec.toNat_ofNat, Nat.mod_eq_of_lt (hle.trans_lt (hsmall i))]

/-- Only a dropped frame is judged… -/
theorem action_of_judged (hrun : nic.run w packets = some (w', os)) :
    ∀ o ∈ os, o.judged → o.action = .drop := by
  refine nic.run_invariant (I := fun _ os => ∀ o ∈ os, o.judged → o.action = .drop)
    (fun w os p w' o h hs a ha hj => ?_) (fun o ho => absurd ho List.not_mem_nil) hrun
  obtain ⟨-, rfl⟩ := Prod.mk.inj (Option.some.inj hs)
  rcases List.mem_append.mp ha with ha | ha
  · exact h a ha hj
  · obtain rfl := List.mem_singleton.mp ha
    obtain ⟨srcIp, hsrc⟩ := exists_sourceIp_of_judged hj
    exact (action_eq_drop_iff hsrc).mpr (.inr hj)

/-- …so the frames dropped are those counted and those judged. -/
theorem dropped_eq_add (hrun : nic.run w packets = some (w', os)) :
    dropped os = os.countP (countedBy .blockedCount) + os.countP Processed.judged := by
  have hjudged := action_of_judged hrun
  clear hrun
  induction os with
  | nil => rfl
  | cons o os ih =>
    obtain ⟨ho, hos⟩ := List.forall_mem_cons.mp hjudged
    rw [dropped] at ih ⊢
    rw [List.countP_cons, List.countP_cons, List.countP_cons, ih hos]
    by_cases hj : o.judged
    · simp [countedBy, hj, ho hj, add_assoc]
    · simp [countedBy, hj]
      omega

/-- **The drop counter counts drops** as long as no frame is judged to be of low variance, and only
then; the packet counter counts what was passed in any case. -/
theorem counters_count_iff (hzero : ∀ counter i, w.counters counter i = 0)
    (hcpu : ∀ p ∈ packets, p.cpu < cpus)
    (hsmall : ∀ i, packets.countP (fun p => p.cpu = i) < 2 ^ 64)
    (hrun : nic.run w packets = some (w', os)) :
    (w'.total .blockedCount cpus = dropped os ∧ w'.total .packetCount cpus = passed os) ↔
      nic.Along (fun w p => ¬ judgedLowVariance w p) w packets := by
  have hpassed : w'.total .packetCount cpus = passed os := total_run hzero hcpu hsmall hrun _
  have hblocked : w'.total .blockedCount cpus = _ := total_run hzero hcpu hsmall hrun _
  have hguard : nic.Along (fun w p => ¬ judgedLowVariance w p) w packets ↔
      ∀ o ∈ os, ¬ o.judged := by
    rw [← nic.along_outputs_iff hrun]
    refine nic.along_iff (I := fun _ => True) (fun _ _ _ _ _ _ => trivial)
      (fun w p w' o _ hs => ?_) trivial hrun
    obtain ⟨rfl, rfl⟩ := Prod.mk.inj (Option.some.inj hs)
    simp [nic]
  rw [and_iff_left hpassed, hguard, hblocked, dropped_eq_add hrun, left_eq_add,
    List.countP_eq_zero]

end Totals

/-- One flat frame is dropped and not counted. -/
theorem not_forall_counters_count :
    ¬ ∀ (w w' : Maps) (packets : List Packet) (os : List Processed) (cpus : ℕ),
      (∀ counter i, w.counters counter i = 0) → (∀ p ∈ packets, p.cpu < cpus) →
      (∀ i, packets.countP (fun p => p.cpu = i) < 2 ^ 64) →
      nic.run w packets = some (w', os) →
      w'.total .blockedCount cpus = dropped os ∧ w'.total .packetCount cpus = passed os := by
  intro h
  have hstep := nic.run_singleton (nic_step_of_judged (sourceIp_frame outsider _)
    (judgedLowVariance_flatFrame (w := .loaded) rfl))
  have hsmall : ∀ i, [flatFrame outsider].countP (fun p => p.cpu = i) < 2 ^ 64 := fun i =>
    List.countP_le_length.trans_lt (by simp)
  have hone := (h .loaded _ [flatFrame outsider] _ 1 (fun _ _ => rfl) (by simp [flatFrame, frame])
    hsmall hstep).1
  exact absurd hone (by decide)

/-- A frame of a blocked source and a varied frame of another source: one is dropped, one is passed,
and both are counted. -/
theorem counters_count_blockedFrame : ∃ w os,
    nic.run (Maps.loaded.updateBlock outsider blockThreshold)
        [flatFrame outsider, variedFrame (floodIp 0)] = some (w, os) ∧
      dropped os = 1 ∧ passed os = 1 ∧
      w.total .blockedCount 1 = dropped os ∧ w.total .packetCount 1 = passed os := by
  have hsmall : ∀ i, [flatFrame outsider, variedFrame (floodIp 0)].countP (fun p => p.cpu = i) <
      2 ^ 64 := fun i => List.countP_le_length.trans_lt (by simp)
  have hcpu : ∀ p ∈ [flatFrame outsider, variedFrame (floodIp 0)], p.cpu < 1 := by
    simp [flatFrame, variedFrame, frame]
  have hrun := nic.run_cons (nic_step (Maps.loaded.updateBlock outsider blockThreshold)
    (flatFrame outsider)) (nic.run_singleton (nic_step _ (variedFrame (floodIp 0))))
  have hguard : nic.Along (fun w p => ¬ judgedLowVariance w p)
      (Maps.loaded.updateBlock outsider blockThreshold)
      [flatFrame outsider, variedFrame (floodIp 0)] :=
    nic.along_cons (nic_step _ _) (by decide)
      (nic.along_cons (nic_step _ _) (by decide) (nic.along_nil _ _))
  exact ⟨_, _, hrun, by decide, by decide,
    (counters_count_iff (fun _ _ => rfl) hcpu hsmall hrun).mpr hguard⟩

end NicXdp

end BioShield
