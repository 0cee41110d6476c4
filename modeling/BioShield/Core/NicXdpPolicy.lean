import BioShield.Core.NicXdp

/-!
# Core/NicXdpPolicy — the threshold policy over packet histories

Frames processed one at a time.  A source is counted from its first low-variance frame on, up to the
threshold, unless that frame finds `block_map` full: then the source is never stored, and all the
filter does about it is drop its low-variance frames (`threshold_policy`).
-/

namespace BioShield

open Machinery

namespace NicXdp

/-! ## One frame -/

section Exec

variable {α : Type} (w : Maps) (srcIp : SourceIp)

/-- The blacklist check looks at the count stored… -/
theorem exec_isBlocked (f : Bool → Prog Call Ret α) :
    (isBlocked srcIp (w.blockMap.lookup srcIp).isSome >>= f).exec Maps.answer w =
      (f (blockThreshold ≤ w.count srcIp)).exec Maps.answer w := by
  cases hl : w.blockMap.lookup srcIp with
  | none =>
    rw [Maps.count_of_none hl]
    rfl
  | some c => rfl

/-- …and the new count is its successor. -/
theorem exec_newCount (f : Byte → Prog Call Ret α) :
    (newCount srcIp (w.blockMap.lookup srcIp).isSome >>= f).exec Maps.answer w =
      (f (w.count srcIp + 1)).exec Maps.answer w := by
  cases hl : w.blockMap.lookup srcIp with
  | none =>
    rw [Maps.count_of_none hl]
    rfl
  | some c => rfl

/-- **The filter on its own**: what it does with a source's frame, by the count stored for it. -/
theorem exec_filterSource (p : Packet) :
    (filterSource p srcIp).exec Maps.answer w =
      if blockThreshold ≤ w.count srcIp then (.drop, w.bump .blockedCount p.cpu)
      else if p.data.length < 42 then (.pass, w)
      else if lowVariance p.data then (.drop, w.updateBlock srcIp (w.count srcIp + 1))
      else (.pass, w.bump .packetCount p.cpu) := by
  have hlookup : (filterSource p srcIp).exec Maps.answer w =
      (isBlocked srcIp (w.blockMap.lookup srcIp).isSome >>= fun blocked => _).exec
        Maps.answer w := rfl
  rw [hlookup, exec_isBlocked]
  by_cases hblocked : blockThreshold ≤ w.count srcIp
  · simp only [hblocked, decide_true, if_true]
    rfl
  · simp only [hblocked, decide_false, Bool.false_eq_true, if_false]
    by_cases hlen : p.data.length < 42
    · simp only [hlen, if_true]
      rfl
    · simp only [hlen, if_false]
      by_cases hlow : lowVariance p.data
      · simp only [hlow, if_true]
        exact exec_newCount w srcIp _
      · simp only [hlow, Bool.false_eq_true, if_false]
        rfl

end Exec

/-- The filter gets as far as the payload, and finds its variance low. -/
def judgedLowVariance (w : Maps) (p : Packet) : Bool :=
  match sourceIp p.data with
  | none => false
  | some srcIp => !(blockThreshold ≤ w.count srcIp) && 42 ≤ p.data.length && lowVariance p.data

/-- A frame that was processed. -/
structure Processed where
  packet : Packet
  judged : Bool
  action : XdpAction

/-- The filter with nobody else at work, frame after frame. -/
def nic : Machine Maps Packet Processed where
  step w p :=
    let (action, w') := (xdpDeepfakeFilter p).exec Maps.answer w
    some (w', [⟨p, judgedLowVariance w p, action⟩])

/-- Everything empty, as the program is loaded. -/
def Maps.loaded : Maps := ⟨.empty, fun _ _ => 0⟩

section Frames

variable {w : Maps} {p : Packet} {srcIp : SourceIp}

theorem exec_of_sourceIp (hsrc : sourceIp p.data = some srcIp) :
    (xdpDeepfakeFilter p).exec Maps.answer w = (filterSource p srcIp).exec Maps.answer w := by
  rw [xdpDeepfakeFilter, hsrc]

theorem judgedLowVariance_iff (hsrc : sourceIp p.data = some srcIp) :
    judgedLowVariance w p ↔
      ¬ blockThreshold ≤ w.count srcIp ∧ ¬ p.data.length < 42 ∧ lowVariance p.data := by
  simp [judgedLowVariance, hsrc, and_assoc]

/-- A frame that is judged to be of low variance is counted and dropped… -/
theorem exec_of_judged (hsrc : sourceIp p.data = some srcIp) (hj : judgedLowVariance w p) :
    (xdpDeepfakeFilter p).exec Maps.answer w =
      (.drop, w.updateBlock srcIp (w.count srcIp + 1)) := by
  obtain ⟨hblocked, hlen, hlow⟩ := (judgedLowVariance_iff hsrc).mp hj
  rw [exec_of_sourceIp hsrc, exec_filterSource, if_neg hblocked, if_neg hlen, if_pos hlow]

theorem nic_step_of_judged (hsrc : sourceIp p.data = some srcIp) (hj : judgedLowVariance w p) :
    nic.step w p = some (w.updateBlock srcIp (w.count srcIp + 1), [⟨p, true, .drop⟩]) := by
  simp only [nic, exec_of_judged hsrc hj, hj]

/-- …and any other frame leaves the block map alone. -/
theorem blockMap_of_not_judged (hj : ¬ judgedLowVariance w p) :
    ((xdpDeepfakeFilter p).exec Maps.answer w).2.blockMap = w.blockMap := by
  cases hsrc : sourceIp p.data with
  | none => rw [xdpDeepfakeFilter, hsrc]; rfl
  | some srcIp =>
    rw [judgedLowVariance_iff hsrc] at hj
    rw [exec_of_sourceIp hsrc, exec_filterSource]
    split_ifs with hblocked hlen hlow
    · rfl
    · rfl
    · exact absurd ⟨hblocked, hlen, hlow⟩ hj
    · rfl

/-- A frame of a source is dropped if the source is blocked or the frame is judged. -/
theorem action_eq_drop_iff (hsrc : sourceIp p.data = some srcIp) :
    ((xdpDeepfakeFilter p).exec Maps.answer w).1 = .drop ↔
      blockThreshold ≤ w.count srcIp ∨ judgedLowVariance w p := by
  rw [judgedLowVariance_iff hsrc, exec_of_sourceIp hsrc, exec_filterSource]
  split_ifs with hblocked hlen hlow <;> simp_all

end Frames

/-! ## One source through a history -/

/-- The number of frames from a source that were judged to be of low variance. -/
def judgedFrom (srcIp : SourceIp) (os : List Processed) : ℕ :=
  os.countP fun o => sourceIp o.packet.data = some srcIp ∧ o.judged

/-- The policy: the count stored for the source is that of its judged frames, up to five; then
everything it sends is dropped, and before that only what is itself judged. -/
structure Policy (srcIp : SourceIp) (w : Maps) (os : List Processed) : Prop where
  counted : (w.count srcIp).toNat = min 5 (judgedFrom srcIp os)
  blocks : 5 ≤ judgedFrom srcIp os → ∀ p, sourceIp p.data = some srcIp →
    ((xdpDeepfakeFilter p).exec Maps.answer w).1 = .drop
  spares : judgedFrom srcIp os < 5 → ∀ p, sourceIp p.data = some srcIp →
    ((xdpDeepfakeFilter p).exec Maps.answer w).1 = .drop → judgedLowVariance w p

/-- If the frame is the source's and judged, the source is stored or there is room for it. -/
def Room (srcIp : SourceIp) (w : Maps) (p : Packet) : Prop :=
  sourceIp p.data = some srcIp → judgedLowVariance w p →
    (w.blockMap.lookup srcIp).isSome ∨ w.blockMap.size < 100000

/-- The source is not stored, and there is no room for it. -/
structure Shut (srcIp : SourceIp) (w : Maps) : Prop where
  unstored : w.blockMap.lookup srcIp = none
  full : 100000 ≤ w.blockMap.size

theorem judgedFrom_concat (srcIp : SourceIp) (os : List Processed) (o : Processed) :
    judgedFrom srcIp (os ++ [o]) =
      judgedFrom srcIp os + if sourceIp o.packet.data = some srcIp ∧ o.judged then 1 else 0 := by
  simp [judgedFrom, List.countP_append, List.countP_singleton]

section Steps

variable {srcIp : SourceIp} {w w' : Maps} {p : Packet} {os o : List Processed}

/-- A frame that is judged has a source. -/
theorem exists_sourceIp_of_judged (hj : judgedLowVariance w p) :
    ∃ src, sourceIp p.data = some src := by
  cases hsrc : sourceIp p.data with
  | none => simp [judgedLowVariance, hsrc] at hj
  | some src => exact ⟨src, rfl⟩

/-- The count kept so far: exact, and at most the threshold. -/
def Counted (srcIp : SourceIp) (w : Maps) (os : List Processed) : Prop :=
  (w.count srcIp).toNat = judgedFrom srcIp os ∧ judgedFrom srcIp os ≤ 5

theorem Counted.step (h : Counted srcIp w os) (hroom : Room srcIp w p)
    (hs : nic.step w p = some (w', o)) : Counted srcIp w' (os ++ o) := by
  obtain ⟨rfl, rfl⟩ := Prod.mk.inj (Option.some.inj hs)
  by_cases hj : judgedLowVariance w p
  · obtain ⟨src, hsrc⟩ := exists_sourceIp_of_judged hj
    rw [Counted, judgedFrom_concat, exec_of_judged hsrc hj]
    by_cases hne : src = srcIp
    · subst hne
      have hlt : ¬ blockThreshold ≤ w.count src := ((judgedLowVariance_iff hsrc).mp hj).1
      have hstored : (w.updateBlock src (w.count src + 1)).count src = w.count src + 1 :=
        w.count_updateBlock_self _ (hroom hsrc hj)
      have hsmall : (w.count src).toNat < 5 := by
        rw [BitVec.le_def] at hlt
        simpa [blockThreshold] using hlt
      have hsucc : (w.count src + 1).toNat = (w.count src).toNat + 1 := by
        rw [BitVec.toNat_add]
        exact Nat.mod_eq_of_lt (by simp; omega)
      rw [hstored, hsucc, if_pos ⟨hsrc, hj⟩]
      have := h.1
      omega
    · rw [w.count_updateBlock_of_ne _ (Ne.symm hne), if_neg (by simp [hsrc, hne])]
      exact h
  · have hsame : ((xdpDeepfakeFilter p).exec Maps.answer w).2.count srcIp = w.count srcIp := by
      rw [Maps.count, blockMap_of_not_judged hj, Maps.count]
    rw [Counted, judgedFrom_concat, hsame, if_neg (by simp [hj])]
    exact h

theorem Counted.policy (h : Counted srcIp w os) : Policy srcIp w os := by
  have hblocked : blockThreshold ≤ w.count srcIp ↔ 5 ≤ judgedFrom srcIp os := by
    rw [BitVec.le_def, h.1]
    exact Iff.rfl
  refine ⟨h.1.trans (min_eq_right h.2).symm, fun hfive p hsrc => ?_, fun hfew p hsrc hdrop => ?_⟩
  · exact (action_eq_drop_iff hsrc).mpr (.inl (hblocked.mpr hfive))
  · refine ((action_eq_drop_iff hsrc).mp hdrop).resolve_left fun hle => ?_
    exact absurd (hblocked.mp hle) (not_le.mpr hfew)

/-- A source that is shut out stays so… -/
theorem Shut.step (h : Shut srcIp w) (hs : nic.step w p = some (w', o)) : Shut srcIp w' := by
  obtain ⟨rfl, -⟩ := Prod.mk.inj (Option.some.inj hs)
  by_cases hj : judgedLowVariance w p
  · obtain ⟨src, hsrc⟩ := exists_sourceIp_of_judged hj
    rw [exec_of_judged hsrc hj]
    refine ⟨?_, h.full.trans (w.blockMap.size_le_size_update src _)⟩
    by_cases hne : srcIp = src
    · subst hne
      rw [w.updateBlock_of_full _ h.unstored h.full]
      exact h.unstored
    · rw [Maps.blockMap_updateBlock, w.blockMap.lookup_update_of_ne src _ hne]
      exact h.unstored
  · have hsame := blockMap_of_not_judged hj
    exact ⟨hsame ▸ h.unstored, hsame ▸ h.full⟩

/-- …and its frames are dropped exactly if they are judged. -/
theorem Shut.action_eq_drop_iff (h : Shut srcIp w) (hs : nic.step w p = some (w', o)) :
    ∀ a ∈ o, sourceIp a.packet.data = some srcIp → (a.action = .drop ↔ a.judged) := by
  obtain ⟨-, rfl⟩ := Prod.mk.inj (Option.some.inj hs)
  intro a ha hsrc
  obtain rfl := List.mem_singleton.mp ha
  refine (NicXdp.action_eq_drop_iff hsrc).trans (or_iff_right ?_)
  rw [Maps.count_of_none h.unstored]
  decide

end Steps

/-- **The threshold policy**: a source none of whose judged frames finds the map full without it is
counted, blocked and spared as the policy says; one that is shut out stays unstored, and loses
exactly its judged frames. -/
theorem threshold_policy (srcIp : SourceIp) :
    (∀ (packets : List Packet) (w : Maps) (os : List Processed),
      nic.run .loaded packets = some (w, os) → nic.Along (Room srcIp) .loaded packets →
      Policy srcIp w os) ∧
    ∀ (packets : List Packet) (w w' : Maps) (os : List Processed), Shut srcIp w →
      nic.run w packets = some (w', os) →
      Shut srcIp w' ∧
        ∀ a ∈ os, sourceIp a.packet.data = some srcIp → (a.action = .drop ↔ a.judged) := by
  constructor
  · intro packets w os hrun hroom
    have hcounted : Counted srcIp w os := nic.run_invariant_along (I := Counted srcIp)
      (fun _ _ _ _ _ h hroom hs => h.step hroom hs) ⟨rfl, Nat.zero_le 5⟩ hroom hrun
    exact hcounted.policy
  · intro packets w w' os hshut hrun
    refine nic.run_invariant
      (I := fun w os => Shut srcIp w ∧
        ∀ a ∈ os, sourceIp a.packet.data = some srcIp → (a.action = .drop ↔ a.judged))
      (fun w os p w' o h hs => ⟨h.1.step hs, fun a ha => ?_⟩)
      ⟨hshut, fun a ha => absurd ha List.not_mem_nil⟩ hrun
    rcases List.mem_append.mp ha with ha | ha
    · exact h.2 a ha
    · exact h.1.action_eq_drop_iff hs a ha

/-! ## A flood of sources -/

/-- An Ethernet/IPv4/UDP frame. -/
def frame (srcIp : SourceIp) (payload : List Byte) : Packet where
  cpu := 0
  data := List.replicate 12 0 ++ [0x08, 0x00] ++ List.replicate 9 0 ++ [17, 0, 0,
    srcIp.a, srcIp.b, srcIp.c, srcIp.d] ++ List.replicate 12 0 ++ payload

theorem sourceIp_frame (srcIp : SourceIp) (payload : List Byte) :
    sourceIp (frame srcIp payload).data = some srcIp := by
  simp [sourceIp, frame, byteAt, List.replicate]

/-- A frame with eight equal bytes of payload. -/
def flatFrame (srcIp : SourceIp) : Packet := frame srcIp (List.replicate 8 1)

/-- A frame with two different bytes of payload. -/
def variedFrame (srcIp : SourceIp) : Packet := frame srcIp [1, 2]

theorem judgedLowVariance_flatFrame {w : Maps} {srcIp : SourceIp}
    (h : w.blockMap.lookup srcIp = none) : judgedLowVariance w (flatFrame srcIp) := by
  refine (judgedLowVariance_iff (sourceIp_frame srcIp _)).mpr ⟨?_, ?_, ?_⟩
  · rw [Maps.count_of_none h]
    decide
  · simp [frame]
  · simp [frame, lowVariance, lowVarianceLoop, List.replicate]

/-- The `i`th source of the flood. -/
def floodIp (i : ℕ) : SourceIp :=
  ⟨BitVec.ofNat 8 i, BitVec.ofNat 8 (i / 256), BitVec.ofNat 8 (i / 65536), 0⟩

theorem floodIp_injective {i j : ℕ} (hi : i < 100000) (hj : j < 100000)
    (h : floodIp i = floodIp j) : i = j := by
  simp only [floodIp, SourceIp.mk.injEq] at h
  obtain ⟨ha, hb, hc, -⟩ := h
  have ha' := congrArg BitVec.toNat ha
  have hb' := congrArg BitVec.toNat hb
  have hc' := congrArg BitVec.toNat hc
  simp only [BitVec.toNat_ofNat] at ha' hb' hc'
  omega

/-- A source that takes no part in the flood. -/
def outsider : SourceIp := ⟨0, 0, 0, 1⟩

theorem outsider_ne_floodIp (i : ℕ) : outsider ≠ floodIp i := by
  intro h
  simp [outsider, floodIp] at h

/-- **A flood fills the map** with its own sources. -/
theorem run_flood {n : ℕ} (hn : n ≤ 100000) :
    ∃ w os, nic.run .loaded ((List.range n).map fun i => flatFrame (floodIp i)) = some (w, os) ∧
      w.blockMap.size = n ∧ judgedFrom outsider os = 0 ∧ w.blockMap.lookup outsider = none ∧
      ∀ i, n ≤ i → i < 100000 → w.blockMap.lookup (floodIp i) = none := by
  induction n with
  | zero => exact ⟨_, _, rfl, rfl, rfl, rfl, fun _ _ _ => rfl⟩
  | succ n ih =>
    obtain ⟨w, os, hrun, hsize, hjudged, hout, hnew⟩ := ih (Nat.le_of_succ_le hn)
    have hlookup : w.blockMap.lookup (floodIp n) = none := hnew n le_rfl hn
    have hstep := nic.run_singleton (nic_step_of_judged (sourceIp_frame (floodIp n) _)
      (judgedLowVariance_flatFrame hlookup))
    rw [List.range_succ, List.map_append]
    have hrun' := nic.run_append_iff.mpr ⟨_, _, _, hrun, hstep, rfl⟩
    refine ⟨_, _, hrun', ?_, ?_, ?_, fun i hi hlt => ?_⟩
    · rw [Maps.blockMap_updateBlock, w.blockMap.size_update_of_new _ _ hlookup (hsize ▸ hn), hsize]
    · rw [judgedFrom_concat, hjudged, if_neg]
      simp [sourceIp_frame, (outsider_ne_floodIp n).symm]
    · rw [Maps.blockMap_updateBlock, w.blockMap.lookup_update_of_ne _ _ (outsider_ne_floodIp n)]
      exact hout
    · have hne : floodIp i ≠ floodIp n := fun h =>
        absurd (floodIp_injective hlt hn h) (Nat.ne_of_gt hi)
      rw [Maps.blockMap_updateBlock, w.blockMap.lookup_update_of_ne _ _ hne]
      exact hnew i (Nat.le_of_succ_le hi) hlt

/-- A source that is shut out may send judged frames for ever. -/
theorem run_shut {w : Maps} {srcIp : SourceIp} (h : Shut srcIp w) (n : ℕ) :
    nic.run w (List.replicate n (flatFrame srcIp)) =
      some (w, List.replicate n ⟨flatFrame srcIp, true, .drop⟩) := by
  have hstep := nic_step_of_judged (sourceIp_frame srcIp _) (judgedLowVariance_flatFrame h.unstored)
  rw [w.updateBlock_of_full _ h.unstored h.full] at hstep
  induction n with
  | zero => rfl
  | succ n ih => exact nic.run_cons hstep ih

/-- The outsider's five judged frames do not get it blocked. -/
theorem not_forall_policy :
    ¬ ∀ (srcIp : SourceIp) (packets : List Packet) (w : Maps) (os : List Processed),
      nic.run .loaded packets = some (w, os) → Policy srcIp w os := by
  intro h
  obtain ⟨w, os, hrun, hsize, hjudged, hout, -⟩ := run_flood le_rfl
  have hshut : Shut outsider w := ⟨hout, hsize.ge⟩
  have hpolicy := h outsider _ w _ (nic.run_append_iff.mpr ⟨_, _, _, hrun, run_shut hshut 5, rfl⟩)
  have hfive : 5 ≤ judgedFrom outsider
      (os ++ List.replicate 5 ⟨flatFrame outsider, true, .drop⟩) := by
    rw [judgedFrom, List.countP_append]
    have : judgedFrom outsider (List.replicate 5 ⟨flatFrame outsider, true, .drop⟩) = 5 := by
      decide
    rw [judgedFrom] at this
    omega
  have hdrop := hpolicy.blocks hfive (variedFrame outsider) (sourceIp_frame outsider _)
  rcases (action_eq_drop_iff (sourceIp_frame outsider _)).mp hdrop with hblocked | hj
  · rw [Maps.count_of_none hout] at hblocked
    exact absurd hblocked (by decide)
  · have hlow := ((judgedLowVariance_iff (sourceIp_frame outsider _)).mp hj).2.2
    exact absurd hlow (by decide)

/-- Six flat frames from one source: five are judged, the sixth finds it blocked. -/
theorem policy_outsider : ∃ w os,
    nic.run .loaded (List.replicate 6 (flatFrame outsider)) = some (w, os) ∧
      Policy outsider w os := by
  have hroom : nic.Along (Room outsider) .loaded (List.replicate 6 (flatFrame outsider)) := by
    iterate 6 refine nic.along_cons rfl (fun _ _ => .inr (by decide)) ?_
    exact nic.along_nil _ _
  exact ⟨_, _, rfl, (threshold_policy outsider).1 _ _ _ rfl hroom⟩

end NicXdp

end BioShield
