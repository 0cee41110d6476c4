import BioShield.Machinery.ParallelFor
import BioShield.Core.Avx512Math
import BioShield.Api.MajorityVoters
import Mathlib

/-!
# Core/MultiChannelProcessor — the channels in parallel (`core/multi_channel_core.cpp`)

`process_channels` is an `omp parallel for`: each iteration reads its channel twice, for the mean
and for the squares, and stores a variance.  The arrays are pointers into one memory, and nothing
keeps `results` off the samples.

* `iteration_outcome_iff` — the loop computes the variances under every schedule exactly if no
  result is stored over another channel's samples;
* `verdict_after` — what `ensemble_vote` then says, after any calls of `initialize` and `shutdown`,
  of which some may run out of memory.

A channel of no samples has the variance `0 / 0`, a NaN, and votes against.
-/

namespace BioShield

open Machinery Finset

namespace MultiChannelProcessor

/-- The arguments of `process_channels`: an address for each array. -/
structure Channels where
  channelData : ℕ → ℕ
  numChannels : ℕ
  samplesPerChannel : ℕ
  results : ℕ

/-! ## One iteration -/

section Iteration

variable {K : Type} [Field K]

/-- The samples from `ptr` on, loaded one after the other. -/
def loads (ptr : ℕ) : ℕ → MemProg ℕ K (ℕ → K)
  | 0 => pure 0
  | n + 1 => do
      let data ← loads ptr n
      let x ← Prog.perform (.load (ptr + n))
      pure (Function.update data n x)

/-- The second half of `calculate_variance_avx512`: the squares around a mean. -/
def varianceAround (mean : K) (data : ℕ → K) (length : ℕ) : K :=
  if length < 16 then
    scalarSum length (fun i variance =>
      let diff := data i - mean
      variance + diff * diff) / length
  else
    vectorSum length (fun i varianceVec =>
        let diff := M512.subPs (M512.loaduPs data i) (M512.set1Ps mean)
        M512.fmaddPs diff diff varianceVec)
      (fun i totalVariance =>
        let diff := data i - mean
        totalVariance + diff * diff) / length

/-- `calculate_variance_avx512`, access by access. -/
def loadVariance (data length : ℕ) : MemProg ℕ K K := do
  let sums ← loads data length
  let diffs ← loads data length
  pure (varianceAround (calculateMeanAvx512 sums length) diffs length)

/-- `results[i] = calculate_variance_avx512(channel_data[i], samples_per_channel)`. -/
def iteration (c : Channels) (i : ℕ) : MemProg ℕ K Unit := do
  let variance ← loadVariance (c.channelData i) c.samplesPerChannel
  Prog.perform (Access.store (c.results + i) variance)

theorem calculateVarianceAvx512_eq_varianceAround (data : ℕ → K) (length : ℕ) :
    calculateVarianceAvx512 data length =
      varianceAround (calculateMeanAvx512 data length) data length := by
  simp only [calculateVarianceAvx512, varianceAround, calculateMeanAvx512]
  split_ifs <;> rfl

theorem varianceAround_eq (mean : K) (data : ℕ → K) (length : ℕ) :
    varianceAround mean data length = (∑ i ∈ range length, (data i - mean) ^ 2) / length := by
  simp only [varianceAround, sq]
  split_ifs
  · exact congrArg (· / (length : K)) (scalarSum_eq fun _ _ => rfl)
  · exact congrArg (· / (length : K)) (vectorSum_eq (fun _ _ _ => add_comm _ _) fun _ _ => rfl)

/-- Alone, the loads answer what is there… -/
theorem loads_alone (ptr n : ℕ) (m : ℕ → K) :
    (loads ptr n).alone m = (fun k => if k < n then m (ptr + k) else 0, m) := by
  induction n with
  | zero => rfl
  | succ n ih =>
    have hnext : Function.update (fun k => if k < n then m (ptr + k) else 0) n (m (ptr + n)) =
        fun k => if k < n + 1 then m (ptr + k) else 0 := by
      funext k
      rcases Nat.lt_trichotomy k n with hk | rfl | hk
      · simp [Function.update_of_ne hk.ne, hk, hk.trans (Nat.lt_succ_self n)]
      · simp
      · have hk' : ¬ k < n + 1 := by omega
        simp [Function.update_of_ne hk.ne', hk.not_gt, hk']
    rw [loads, MemProg.alone_bind, ih, ← hnext]
    rfl

theorem calculateMeanAvx512_loads (ptr n : ℕ) (m : ℕ → K) :
    calculateMeanAvx512 ((loads ptr n).alone m).1 n =
      calculateMeanAvx512 (fun k => m (ptr + k)) n := by
  rw [loads_alone, calculateMeanAvx512_eq, calculateMeanAvx512_eq]
  exact congrArg (· / (n : K)) (sum_congr rfl fun k hk => if_pos (mem_range.mp hk))

theorem varianceAround_loads (mean : K) (ptr n : ℕ) (m : ℕ → K) :
    varianceAround mean ((loads ptr n).alone m).1 n =
      varianceAround mean (fun k => m (ptr + k)) n := by
  rw [loads_alone, varianceAround_eq, varianceAround_eq]
  refine congrArg (· / (n : K)) (sum_congr rfl fun k hk => ?_)
  simp only [if_pos (mem_range.mp hk)]

/-- …and the variance is that of the samples. -/
theorem loadVariance_alone (ptr n : ℕ) (m : ℕ → K) :
    (loadVariance ptr n).alone m = (calculateVarianceAvx512 (fun k => m (ptr + k)) n, m) := by
  have hm : ((loads ptr n).alone m).2 = m := by rw [loads_alone]
  rw [loadVariance, MemProg.alone_bind, MemProg.alone_bind, hm]
  refine Prod.ext ?_ hm
  rw [calculateVarianceAvx512_eq_varianceAround, ← calculateMeanAvx512_loads,
    ← varianceAround_loads]
  rfl

theorem iteration_alone (c : Channels) (i : ℕ) (m : ℕ → K) :
    (iteration c i).alone m = ((), Function.update m (c.results + i)
      (calculateVarianceAvx512 (fun k => m (c.channelData i + k)) c.samplesPerChannel)) := by
  rw [iteration, MemProg.alone_bind, loadVariance_alone]
  rfl

/-- The cells of a channel's samples. -/
def Channels.samples (c : Channels) (i : ℕ) : Set ℕ :=
  Set.Ico (c.channelData i) (c.channelData i + c.samplesPerChannel)

theorem loads_within {reads writes : Set ℕ} {ptr n : ℕ} (h : Set.Ico ptr (ptr + n) ⊆ reads) :
    (loads ptr n : MemProg ℕ K _).Within reads writes := by
  induction n with
  | zero => exact MemProg.within_ret _
  | succ n ih =>
    have hprev : Set.Ico ptr (ptr + n) ⊆ reads :=
      (Set.Ico_subset_Ico_right (Nat.le_succ _)).trans h
    refine (ih hprev).bind fun data => MemProg.within_call.mpr ⟨?_, fun x => trivial⟩
    exact h ⟨Nat.le_add_right _ _, Nat.lt_succ_self _⟩

/-- An iteration reads its channel's samples and writes its own result. -/
def footprint (c : Channels) : Footprint (iteration (K := K) c) where
  reads := c.samples
  writes i := {c.results + i}
  within i := by
    have hloads : (loads (c.channelData i) c.samplesPerChannel : MemProg ℕ K _).Within
        (c.samples i) {c.results + i} := loads_within subset_rfl
    refine (hloads.bind fun sums => hloads.bind fun diffs => MemProg.within_ret _).bind
      fun variance => MemProg.within_call.mpr ⟨rfl, fun _ => trivial⟩

/-- No result is stored over the samples of another channel. -/
def Channels.Separate (c : Channels) : Prop :=
  ∀ i < c.numChannels, ∀ j < c.numChannels, i ≠ j → c.results + i ∉ c.samples j

theorem Channels.Separate.apart {c : Channels} (h : c.Separate) :
    (footprint (K := K) c).Apart (List.range c.numChannels) := by
  rintro i hi j hj hij a rfl
  rintro (ha | ha)
  · exact h i (List.mem_range.mp hi) j (List.mem_range.mp hj) hij ha
  · exact hij (Nat.add_left_cancel (Set.mem_singleton_iff.mp ha))

/-- **The parallel loop is the plain loop**, for separate channels… -/
theorem Channels.Separate.ends_iff {c : Channels} (h : c.Separate) {m m' : ℕ → K} :
    Ends (iteration c) (List.range c.numChannels) m m' ↔
      m' = serial (iteration c) (List.range c.numChannels) m := by
  have hserial := ends_serial (iteration (K := K) c) (List.Perm.refl (List.range c.numChannels)) m
  constructor
  · exact fun hends => hends.unique (footprint c) h.apart List.nodup_range hserial
  · rintro rfl
    exact hserial

/-- …and each gets its variance, whatever the schedule. -/
theorem Channels.Separate.outcome {c : Channels} (h : c.Separate) {m m' : ℕ → K}
    (hends : Ends (iteration c) (List.range c.numChannels) m m') {i : ℕ}
    (hi : i < c.numChannels) :
    m' (c.results + i) =
      calculateVarianceAvx512 (fun k => m (c.channelData i + k)) c.samplesPerChannel := by
  rw [hends.apart (footprint c) h.apart List.nodup_range (List.mem_range.mpr hi) rfl,
    iteration_alone]
  exact Function.update_self _ _ _

end Iteration

/-! ## A race

On samples that are all one, every variance is zero.  Let iteration `j` read them for its mean,
`i` store its zero over one of them, and `j` read them for the squares: now one differs from the
mean. -/

section Race

variable {K : Type} [Field K] {c : Channels} {i j : ℕ}

/-- What is left of an iteration after its first pass. -/
def secondPass (c : Channels) (j : ℕ) (sums : ℕ → K) : MemProg ℕ K Unit := do
  let diffs ← loads (c.channelData j) c.samplesPerChannel
  Prog.perform (Access.store (c.results + j)
    (varianceAround (calculateMeanAvx512 sums c.samplesPerChannel) diffs c.samplesPerChannel))

theorem iteration_eq_bind (c : Channels) (j : ℕ) :
    iteration (K := K) c j = loads (c.channelData j) c.samplesPerChannel >>= secondPass c j := by
  rw [iteration, loadVariance, Prog.bind_assoc]
  refine congrArg _ (funext fun sums => ?_)
  rw [Prog.bind_assoc]
  rfl

/-- It may read other samples than the first pass did. -/
theorem secondPass_alone (c : Channels) (j : ℕ) (m m' : ℕ → K) :
    (secondPass c j ((loads (c.channelData j) c.samplesPerChannel).alone m).1).alone m' =
      ((), Function.update m' (c.results + j) (varianceAround
        (calculateMeanAvx512 (fun k => m (c.channelData j + k)) c.samplesPerChannel)
        (fun k => m' (c.channelData j + k)) c.samplesPerChannel)) := by
  have hm' : ((loads (c.channelData j) c.samplesPerChannel).alone m').2 = m' := by
    rw [loads_alone]
  rw [secondPass, MemProg.alone_bind, hm', calculateMeanAvx512_loads, ← varianceAround_loads]
  rfl

/-- The mean of ones. -/
theorem calculateMeanAvx512_one [CharZero K] {n : ℕ} (hn : 0 < n) :
    calculateMeanAvx512 (fun _ => (1 : K)) n = 1 := by
  rw [calculateMeanAvx512_eq, sum_const, card_range, nsmul_one,
    div_self (Nat.cast_ne_zero.mpr hn.ne')]

theorem calculateVarianceAvx512_one [CharZero K] (n : ℕ) :
    calculateVarianceAvx512 (fun _ => (1 : K)) n = 0 := by
  rcases Nat.eq_zero_or_pos n with rfl | hn
  · simp [calculateVarianceAvx512_eq]
  · simp [calculateVarianceAvx512_eq, calculateMeanAvx512_one hn]

/-- The schedule of the race, and what it leaves. -/
theorem exists_race (hi : i < c.numChannels) (hj : j < c.numChannels) (hij : i ≠ j)
    (m : ℕ → K) : ∃ m', Ends (iteration c) (List.range c.numChannels) m m' ∧
      m' (c.results + j) = varianceAround
        (calculateMeanAvx512 (fun k => m (c.channelData j + k)) c.samplesPerChannel)
        (fun k => ((iteration c i).alone m).2 (c.channelData j + k)) c.samplesPerChannel := by
  have hm : ((loads (c.channelData j) c.samplesPerChannel).alone m).2 = m := by rw [loads_alone]
  have hstart : (parallelFor (iteration (K := K) c)).step ⟨m, []⟩ (.start j) =
      some (⟨m, [⟨j, [], iteration c j⟩]⟩, []) := rfl
  obtain ⟨es₁, os₁, hist₁, hfirst⟩ := exists_run_bind (iteration (K := K) c)
    (loads (c.channelData j) c.samplesPerChannel) (secondPass c j) m j [] [] []
  rw [← iteration_eq_bind, hm] at hfirst
  obtain ⟨es₂, os₂, hist₂, hother⟩ := exists_run_start (iteration (K := K) c) m i
    [⟨j, hist₁, secondPass c j ((loads (c.channelData j) c.samplesPerChannel).alone m).1⟩]
  obtain ⟨es₃, os₃, hist₃, hsecond⟩ := exists_run_finish (iteration (K := K) c)
    (secondPass c j ((loads (c.channelData j) c.samplesPerChannel).alone m).1)
    ((iteration c i).alone m).2 j hist₁ [] [⟨i, hist₂, .ret ()⟩]
  obtain ⟨es₄, os₄, runs, hrest, hreq, hret⟩ := exists_run_serial (iteration (K := K) c)
    ((List.range c.numChannels).filter fun k => k ≠ j ∧ k ≠ i) _
    ([] ++ ⟨j, hist₃, .ret ()⟩ :: [⟨i, hist₂, .ret ()⟩]) (by simp)
  have hrun := (parallelFor (iteration (K := K) c)).run_cons hstart
    ((Machine.run_append_iff _).mpr ⟨_, _, _, hfirst, (Machine.run_append_iff _).mpr
      ⟨_, _, _, hother, (Machine.run_append_iff _).mpr ⟨_, _, _, hsecond, hrest, rfl⟩, rfl⟩, rfl⟩)
  refine ⟨_, ⟨_, _, _, hrun, ?_, hret, rfl⟩, ?_⟩
  · have hnodup : (j :: i :: (List.range c.numChannels).filter fun k => k ≠ j ∧ k ≠ i).Nodup := by
      simp [List.nodup_range.filter, hij.symm]
    rw [hreq]
    refine (List.perm_ext_iff_of_nodup hnodup List.nodup_range).mpr fun k => ?_
    simp only [List.mem_cons, List.mem_filter, List.mem_range, decide_eq_true_eq]
    grind
  · refine (serial_apply (fun k hk m => ?_) _).trans ?_
    · have hkj : k ≠ j := (of_decide_eq_true (List.mem_filter.mp hk).2).1
      rw [iteration_alone]
      exact Function.update_of_ne (by omega) _ _
    · rw [secondPass_alone]
      exact Function.update_self _ _ _

end Race

/-- **When the parallel loop is right**: it leaves the variance of each channel's samples under
every schedule and from every memory exactly if no result is stored over another channel's
samples. -/
theorem iteration_outcome_iff (K : Type) [Field K] [LinearOrder K] [IsStrictOrderedRing K]
    (c : Channels) :
    (∀ m m' : ℕ → K, Ends (iteration c) (List.range c.numChannels) m m' →
      ∀ i < c.numChannels, m' (c.results + i) =
        calculateVarianceAvx512 (fun k => m (c.channelData i + k)) c.samplesPerChannel) ↔
      c.Separate := by
  refine ⟨fun h i hi j hj hij hmem => ?_, fun h m m' hends i hi => h.outcome hends hi⟩
  obtain ⟨m', hends, hj'⟩ := exists_race hi hj hij (fun _ => (1 : K))
  have hzero := h _ m' hends j hj
  have hpos : 0 < c.samplesPerChannel := by
    have := hmem.1.trans_lt hmem.2
    omega
  obtain ⟨k, hk⟩ := Nat.exists_eq_add_of_le hmem.1
  have hklt : k < c.samplesPerChannel := by
    have := hmem.2
    omega
  rw [hj', calculateVarianceAvx512_one, calculateMeanAvx512_one hpos, varianceAround_eq,
    iteration_alone, calculateVarianceAvx512_one,
    div_eq_zero_iff, or_iff_left (Nat.cast_ne_zero.mpr hpos.ne'),
    sum_eq_zero_iff_of_nonneg fun _ _ => sq_nonneg _] at hzero
  have hk' := hzero k (mem_range.mpr hklt)
  simp [← hk] at hk'

/-- Two channels of three samples each, and two results behind them. -/
def twoChannels : Channels := ⟨fun i => 3 * i, 2, 3, 6⟩

theorem twoChannels_separate : twoChannels.Separate := by
  intro i hi j hj _ hmem
  simp only [twoChannels, Channels.samples, Set.mem_Ico] at hi hj hmem
  omega

theorem iteration_outcome_twoChannels :
    twoChannels.Separate ∧ ∀ m m' : ℕ → ℚ, Ends (iteration twoChannels) (List.range 2) m m' →
      ∀ i < 2, m' (6 + i) = calculateVarianceAvx512 (fun k => m (3 * i + k)) 3 :=
  ⟨twoChannels_separate, (iteration_outcome_iff ℚ twoChannels).mpr twoChannels_separate⟩

end MultiChannelProcessor

/-! ## The processor -/

/-- The members of `MultiChannelProcessor` that its functions read. -/
structure MultiChannelProcessor where
  initialized : Bool
  maxChannels : ℕ
  samplesPerChannel : ℕ

namespace MultiChannelProcessor

/-- The constructor. -/
def constructed : MultiChannelProcessor := ⟨false, 0, 0⟩

/-- `initialize`; an initialized processor keeps its sizes.  Without memory for the channels it
throws (`none`), with its sizes set already. -/
def initializeChannels (p : MultiChannelProcessor) (maxChannels samplesPerChannel : ℕ)
    (allocated : Bool) : MultiChannelProcessor × Option Bool :=
  if p.initialized then (p, some true)
  else if allocated then (⟨true, maxChannels, samplesPerChannel⟩, some true)
  else (⟨false, maxChannels, samplesPerChannel⟩, none)

/-- `shutdown`. -/
def shutdown (p : MultiChannelProcessor) : MultiChannelProcessor :=
  if !p.initialized then p else { p with initialized := false }

/-- The memory after the loop, as floats: a sum over no samples, divided by their number, is a
NaN. -/
def Channels.floats (c : Channels) (m : ℕ → ℚ) (a : ℕ) : PyFloat :=
  if c.samplesPerChannel = 0 ∧ c.results ≤ a ∧ a < c.results + c.numChannels then .nan
  else .finite (m a)

/-- `process_channels`: from the memory `m` it may leave `m'` and return `ok`. -/
def ProcessChannels (p : MultiChannelProcessor) (c : Channels) (m : ℕ → ℚ) (m' : ℕ → PyFloat)
    (ok : Bool) : Prop :=
  if !p.initialized then m' = .finite ∘ m ∧ ok = false
  else if c.numChannels > p.maxChannels then m' = .finite ∘ m ∧ ok = false
  else (∃ final, Ends (iteration c) (List.range c.numChannels) m final ∧ m' = c.floats final) ∧
    ok = true

/-- `calculate_channel_variances`: what `process_channels` returns is dropped. -/
def CalculateChannelVariances (p : MultiChannelProcessor) (c : Channels) (m : ℕ → ℚ)
    (m' : ℕ → PyFloat) : Prop :=
  ∃ ok, p.ProcessChannels c m m' ok

/-- The calls that change the processor. -/
inductive Lifecycle
  | initializeChannels (maxChannels samplesPerChannel : ℕ) (allocated : Bool)
  | shutdown
  deriving DecidableEq

/-- The processor after a call. -/
def apply (p : MultiChannelProcessor) : Lifecycle → MultiChannelProcessor
  | .initializeChannels maxChannels samplesPerChannel allocated =>
      (p.initializeChannels maxChannels samplesPerChannel allocated).1
  | .shutdown => p.shutdown

/-- The processor after some calls. -/
def after (calls : List Lifecycle) : MultiChannelProcessor := calls.foldl apply constructed

/-- The calls since the last `shutdown`. -/
def sinceShutdown (calls : List Lifecycle) : List Lifecycle := calls.rtakeWhile (· ≠ .shutdown)

/-- The call is an `initialize` that gets its memory. -/
def Lifecycle.gets : Lifecycle → Bool
  | .initializeChannels _ _ allocated => allocated
  | .shutdown => false

/-- The first `initialize` since the last `shutdown` to get its memory. -/
def inForce (calls : List Lifecycle) : Option Lifecycle :=
  (sinceShutdown calls).find? Lifecycle.gets

/-- The sizes in force are those of that call. -/
theorem after_eq (calls : List Lifecycle) :
    (inForce calls = none ∧ (after calls).initialized = false) ∨
      ∃ maxChannels samplesPerChannel,
        inForce calls = some (.initializeChannels maxChannels samplesPerChannel true) ∧
          after calls = ⟨true, maxChannels, samplesPerChannel⟩ := by
  induction calls using List.reverseRecOn with
  | nil => exact .inl ⟨rfl, rfl⟩
  | append_singleton calls call ih =>
    have hafter : after (calls ++ [call]) = (after calls).apply call := by simp [after]
    rw [hafter]
    cases call with
    | shutdown =>
      have hsince : sinceShutdown (calls ++ [.shutdown]) = [] :=
        List.rtakeWhile_concat_neg _ _ _ (by simp)
      refine .inl ⟨by rw [inForce, hsince, List.find?_nil], ?_⟩
      by_cases hinit : (after calls).initialized <;> simp [apply, shutdown, hinit]
    | initializeChannels maxChannels samplesPerChannel allocated =>
      have hsince :
          sinceShutdown (calls ++ [.initializeChannels maxChannels samplesPerChannel allocated]) =
            sinceShutdown calls ++ [.initializeChannels maxChannels samplesPerChannel allocated] :=
        List.rtakeWhile_concat_pos _ _ _ (by simp)
      have hforce :
          inForce (calls ++ [.initializeChannels maxChannels samplesPerChannel allocated]) =
            (inForce calls).or
              (if allocated then some (.initializeChannels maxChannels samplesPerChannel allocated)
              else none) := by
        rw [inForce, hsince, List.find?_append]
        cases allocated <;> simp [inForce, Lifecycle.gets]
      rw [hforce]
      rcases ih with ⟨hnone, hinit⟩ | ⟨max, samples, hsome, heq⟩
      · rw [hnone]
        cases allocated with
        | false => exact .inl ⟨rfl, by simp [apply, initializeChannels, hinit]⟩
        | true => exact .inr ⟨maxChannels, samplesPerChannel, rfl,
            by simp [apply, initializeChannels, hinit]⟩
      · exact .inr ⟨max, samples, by rw [hsome]; rfl, by rw [heq]; rfl⟩

/-- The call is an `initialize` for that many channels. -/
def Lifecycle.allows (numChannels : ℕ) : Lifecycle → Bool
  | .initializeChannels maxChannels _ _ => numChannels ≤ maxChannels
  | .shutdown => false

/-- The first `initialize` since the last `shutdown` to get its memory is for that many channels. -/
def Covers (calls : List Lifecycle) (numChannels : ℕ) : Prop :=
  (inForce calls).any (Lifecycle.allows numChannels) = true

instance (calls : List Lifecycle) (numChannels : ℕ) : Decidable (Covers calls numChannels) :=
  inferInstanceAs (Decidable (_ = true))

section Covers

variable {calls : List Lifecycle} {c : Channels} {m : ℕ → ℚ} {m' : ℕ → PyFloat}

/-- Covered channels are processed… -/
theorem Covers.ends (h : Covers calls c.numChannels)
    (hcalc : (after calls).CalculateChannelVariances c m m') :
    ∃ final, Ends (iteration c) (List.range c.numChannels) m final ∧ m' = c.floats final := by
  obtain ⟨ok, hproc⟩ := hcalc
  rcases after_eq calls with ⟨hnone, -⟩ | ⟨maxChannels, samplesPerChannel, hsome, heq⟩
  · simp [Covers, hnone] at h
  · have hle : c.numChannels ≤ maxChannels := by
      simpa [Covers, hsome, Lifecycle.allows] using h
    simp only [ProcessChannels, heq, Bool.not_true, Bool.false_eq_true, if_false,
      if_neg (not_lt.mpr hle)] at hproc
    exact hproc.1

/-- …and otherwise nothing is written. -/
theorem eq_of_not_covers (h : ¬ Covers calls c.numChannels)
    (hcalc : (after calls).CalculateChannelVariances c m m') : m' = .finite ∘ m := by
  obtain ⟨ok, hproc⟩ := hcalc
  rcases after_eq calls with ⟨-, hinit⟩ | ⟨maxChannels, samplesPerChannel, hsome, heq⟩
  · simp only [ProcessChannels, hinit, Bool.not_false, if_true] at hproc
    exact hproc.1
  · have hgt : c.numChannels > maxChannels := by
      simpa [Covers, hsome, Lifecycle.allows] using h
    simp only [ProcessChannels, heq, Bool.not_true, Bool.false_eq_true, if_false, if_pos hgt]
      at hproc
    exact hproc.1

end Covers

/-- `calculate_variance_avx512`, as a float: of no samples it is a NaN. -/
def varianceFloat (data : ℕ → ℚ) (length : ℕ) : PyFloat :=
  if length = 0 then .nan else .finite (calculateVarianceAvx512 data length)

/-- What a vote finds in the array: the variances of the samples if the channels are covered, and
otherwise what it held before, since nobody looks at what `process_channels` returned. -/
def evidence (calls : List Lifecycle) (c : Channels) (m : ℕ → ℚ) (i : ℕ) : PyFloat :=
  if Covers calls c.numChannels then
    varianceFloat (fun k => m (c.channelData i + k)) c.samplesPerChannel
  else .finite (m (c.results + i))

/-- After the call the array holds the evidence. -/
theorem evidence_of_calculateChannelVariances {c : Channels} (hsep : c.Separate)
    {calls : List Lifecycle} {m : ℕ → ℚ} {m' : ℕ → PyFloat}
    (hcalc : (after calls).CalculateChannelVariances c m m') {i : ℕ} (hi : i < c.numChannels) :
    m' (c.results + i) = evidence calls c m i := by
  rw [evidence]
  split_ifs with hcovers
  · obtain ⟨final, hends, rfl⟩ := hcovers.ends hcalc
    rw [Channels.floats, varianceFloat, hsep.outcome hends hi]
    simp [hi]
  · rw [eq_of_not_covers hcovers hcalc]
    rfl

/-- **The vote is the majority of the evidence**, after any calls of `initialize` and `shutdown` and
under any schedule of the loop. -/
theorem verdict_after {c : Channels} (hsep : c.Separate) (hnum : c.numChannels < 2 ^ 64)
    {calls : List Lifecycle} {m : ℕ → ℚ} {m' : ℕ → PyFloat}
    (hcalc : (after calls).CalculateChannelVariances c m m') (threshold : ℚ) :
    ensembleVote ((List.range c.numChannels).map fun i => m' (c.results + i))
        (.ofNat 64 c.numChannels) (.finite threshold) = true ↔
      Majority ((List.range c.numChannels).map fun i =>
        (evidence calls c m i).lt (.finite threshold)) := by
  have hlen : ((List.range c.numChannels).map fun i => m' (c.results + i)).length =
      c.numChannels := by simp
  have hvote := @ensembleVote_eq _ (.finite threshold) (hlen.symm ▸ hnum)
  rw [hlen] at hvote
  rw [hvote, decide_eq_true_eq, List.map_map]
  refine iff_of_eq (congrArg Majority (List.map_congr_left fun i hi => ?_))
  rw [Function.comp_apply,
    evidence_of_calculateChannelVariances hsep hcalc (List.mem_range.mp hi)]

/-- The first `initialize` gets no memory and the third changes nothing, and two channels of zeros
vote for a deepfake. -/
theorem verdict_after_twoChannels :
    ensembleVote ((List.range 2).map fun i => twoChannels.floats
        (serial (iteration twoChannels) (List.range 2) fun _ => (0 : ℚ)) (6 + i))
      (.ofNat 64 2) (.finite 1) = true := by
  have hcalc : (after [.initializeChannels 1 1 false, .initializeChannels 2 3 true,
      .initializeChannels 1 1 true]).CalculateChannelVariances twoChannels (fun _ => (0 : ℚ))
      (twoChannels.floats (serial (iteration twoChannels) (List.range 2) fun _ => (0 : ℚ))) :=
    ⟨true, ⟨_, twoChannels_separate.ends_iff.mpr rfl, rfl⟩, rfl⟩
  refine (verdict_after twoChannels_separate (by decide) hcalc 1).mpr ?_
  have hzero : ∀ i, evidence [.initializeChannels 1 1 false, .initializeChannels 2 3 true,
      .initializeChannels 1 1 true] twoChannels (fun _ => (0 : ℚ)) i = .finite 0 := by
    intro i
    have hvariance : calculateVarianceAvx512 (fun _ => (0 : ℚ)) 3 = 0 := by
      simp [calculateVarianceAvx512_eq, calculateMeanAvx512_eq]
    exact congrArg PyFloat.finite hvariance
  simp only [hzero]
  decide

end MultiChannelProcessor

end BioShield
