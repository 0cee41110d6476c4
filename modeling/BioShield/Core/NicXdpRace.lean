import BioShield.Core.NicXdpPolicy

/-!
# Core/NicXdpRace — the packet filter on many CPUs

Any number of CPUs run the filter at once, interleaved at their helper calls and at their reads
through `block_count`.  Counting is a lookup, a read and an update that nothing holds together, so a
CPU may write a count that others have passed; a blocked source stays blocked exactly in the runs
where none does (`staysBlocked_iff`).  Schedules on which nobody else updates a source between a
run's lookup of it and its update are of this kind (`staysBlocked_of_undisturbed`).
-/

namespace BioShield

open Machinery

namespace NicXdp

/-- The CPUs at work: the maps, and every run of the filter so far. -/
abbrev Cpus : Type := Pool Maps Packet Call Ret XdpAction

/-- **The filter on all CPUs**, a call at a time. -/
def cpus : Machine Cpus (Sched Packet Unit) (Done Packet Call Ret) :=
  pool xdpDeepfakeFilter fun _ => Maps.answer

/-- The step makes no source's count go down. -/
def KeepsCounts (s : Cpus) (e : Sched Packet Unit) : Prop :=
  ∀ s' o, cpus.step s e = some (s', o) → ∀ srcIp, s.world.count srcIp ≤ s'.world.count srcIp

/-- One more than the count a run read last, or one if it read none. -/
def nextCount (hist : List (Reply Call Ret)) : Byte :=
  hist.foldl (fun n a => match a with | ⟨.readBlockCount _, count⟩ => count + 1 | _ => n) 1

/-- If the run is about to update a source's count, that count has not passed what the run read of
it by more than one. -/
def UpToDate (s : Cpus) : Sched Packet Unit → Prop
  | .start _ => True
  | .advance i _ => ∀ p srcIp n k, s.runs[i]? = some p → p.rest = .call (.updateBlock srcIp n) k →
      s.world.count srcIp ≤ nextCount p.history

/-! ## Counts -/

/-- The call, if it is an update, writes one after a lookup that found nothing; and after one that
did and two reads, the first of a count below the threshold, one more than the second. -/
def CountsOn (hist : List (Reply Call Ret)) (c : Call) : Prop :=
  ∀ srcIp n, c = .updateBlock srcIp n → hist = [⟨.lookupBlock srcIp, false⟩] ∧ n = 1 ∨
    ∃ count₁ count₂, ¬ blockThreshold ≤ count₁ ∧ hist = [⟨.lookupBlock srcIp, true⟩,
      ⟨.readBlockCount srcIp, count₁⟩, ⟨.readBlockCount srcIp, count₂⟩] ∧ n = count₂ + 1

/-- **How the filter counts.** -/
theorem each_countsOn (p : Packet) : (xdpDeepfakeFilter p).Each CountsOn [] := by
  cases hsrc : sourceIp p.data with
  | none => simp [xdpDeepfakeFilter, hsrc]
  | some srcIp =>
    simp only [xdpDeepfakeFilter, hsrc, filterSource, helper_eq, Prog.call_bind, Prog.ret_bind,
      Prog.each_call]
    refine ⟨nofun, fun found => ?_⟩
    cases found with
    | false =>
      simp only [isBlocked_false, newCount_false, Prog.ret_bind]
      split_ifs <;> simp [CountsOn]
    | true =>
      simp only [isBlocked_true_bind, newCount_true_bind, Prog.each_call]
      refine ⟨nofun, fun count => ?_⟩
      by_cases hcount : blockThreshold ≤ count
      · simp [hcount, CountsOn]
      · simp only [hcount, decide_false, Bool.false_eq_true, if_false]
        split_ifs <;> simp [CountsOn, BitVec.not_le.mp hcount]

/-- The call, if it is an update, writes what the history makes the next count. -/
def WritesNext (hist : List (Reply Call Ret)) (c : Call) : Prop :=
  ∀ srcIp n, c = .updateBlock srcIp n → n = nextCount hist

/-- The filter writes one more than it read. -/
theorem each_writesNext (p : Packet) : (xdpDeepfakeFilter p).Each WritesNext [] := by
  refine (each_countsOn p).mono fun hist c h srcIp n hc => ?_
  rcases h srcIp n hc with ⟨rfl, rfl⟩ | ⟨count₁, count₂, -, rfl, rfl⟩ <;> rfl

/-- An update lowers no count exactly if it writes at least what is stored. -/
theorem count_le_updateBlock_iff {w : Maps} {srcIp : SourceIp} {n : Byte} :
    (∀ src, w.count src ≤ (w.updateBlock srcIp n).count src) ↔ w.count srcIp ≤ n := by
  by_cases hroom : (w.blockMap.lookup srcIp).isSome ∨ w.blockMap.size < 100000
  · have hself := w.count_updateBlock_self n hroom
    refine ⟨fun h => hself ▸ h srcIp, fun h src => ?_⟩
    by_cases hne : src = srcIp
    · rwa [hne, hself]
    · rw [w.count_updateBlock_of_ne n hne]
      exact BitVec.le_refl _
  · -- the source is not stored, and stays so
    rw [not_or, Option.not_isSome_iff_eq_none, not_lt] at hroom
    rw [w.updateBlock_of_full n hroom.1 hroom.2, Maps.count_of_none hroom.1]
    exact ⟨fun _ => BitVec.le_def.mpr (Nat.zero_le _), fun _ _ => BitVec.le_refl _⟩

/-- No other call changes a count. -/
theorem count_answer {w : Maps} {c : Call} (hc : ∀ srcIp n, c ≠ .updateBlock srcIp n)
    (src : SourceIp) : (w.answer c).2.count src = w.count src := by
  cases c with
  | updateBlock srcIp n => exact absurd rfl (hc srcIp n)
  | _ => rfl

/-- What it means for a run's next call to be up to date. -/
theorem upToDate_advance_iff {w : Maps} {pre post : List (Process Packet Call Ret XdpAction)}
    {p : Packet} {hist : List (Reply Call Ret)} {c : Call} {k : Ret c → Prog Call Ret XdpAction}
    {x : Unit} : UpToDate ⟨w, pre ++ ⟨p, hist, .call c k⟩ :: post⟩ (.advance pre.length x) ↔
      ∀ srcIp n, c = .updateBlock srcIp n → w.count srcIp ≤ nextCount hist := by
  have hget : (pre ++ ⟨p, hist, .call c k⟩ :: post)[pre.length]? = some ⟨p, hist, .call c k⟩ := by
    simp
  constructor
  · rintro h srcIp n rfl
    exact h _ srcIp n k hget rfl
  · intro h p' srcIp n k' hp' hrest
    obtain rfl := Option.some.inj (hget.symm.trans hp')
    cases hrest
    exact h srcIp n rfl

/-- **One step**: no count goes down if and only if the step is up to date. -/
theorem keepsCounts_iff {s s' : Cpus} {e : Sched Packet Unit} {o : List (Done Packet Call Ret)}
    (hs : Pool.Faithful xdpDeepfakeFilter s) (hstep : cpus.step s e = some (s', o)) :
    KeepsCounts s e ↔ UpToDate s e := by
  have hkeeps : KeepsCounts s e ↔ ∀ src, s.world.count src ≤ s'.world.count src := by
    refine ⟨fun h => h s' o hstep, fun h t p ht => ?_⟩
    obtain ⟨rfl, -⟩ := Prod.mk.inj (Option.some.inj (hstep.symm.trans ht))
    exact h
  rw [hkeeps]
  cases Pool.moves_of_step hstep with
  | start w runs p => exact ⟨fun _ => trivial, fun _ _ => BitVec.le_refl _⟩
  | advance w pre post p hist c k x =>
    rw [upToDate_advance_iff]
    by_cases hc : ∃ srcIp n, c = .updateBlock srcIp n
    · obtain ⟨srcIp, n, rfl⟩ := hc
      have hn : n = nextCount hist :=
        hs.each each_writesNext (p := ⟨p, hist, .call (.updateBlock srcIp n) k⟩) (by simp) rfl
          srcIp n rfl
      refine count_le_updateBlock_iff.trans ⟨fun h src m heq => ?_, fun h => hn ▸ h srcIp n rfl⟩
      obtain ⟨rfl, rfl⟩ := Call.updateBlock.inj heq
      exact hn ▸ h
    · simp only [not_exists] at hc
      exact ⟨fun _ src m heq => absurd heq (hc src m),
        fun _ src => (count_answer hc src).symm ▸ BitVec.le_refl _⟩

/-! ## Blocked sources -/

/-- The answers a source's runs get while it is blocked. -/
def ToldBlocked (srcIp : SourceIp) : (c : Call) → Ret c → Prop
  | .lookupBlock src, found => src = srcIp → found = true
  | .readBlockCount src, count => src = srcIp → blockThreshold ≤ count
  | _, _ => True

theorem toldBlocked_answer {w : Maps} {srcIp : SourceIp} (h : blockThreshold ≤ w.count srcIp)
    (c : Call) : ToldBlocked srcIp c (w.answer c).1 := by
  cases c with
  | lookupBlock src =>
    rintro rfl
    cases hl : w.blockMap.lookup src with
    | none =>
      rw [Maps.count_of_none hl] at h
      exact absurd h (by decide)
    | some count => exact congrArg Option.isSome hl
  | readBlockCount src =>
    rintro rfl
    exact h
  | _ => trivial

/-- A run that gets these answers drops its frame. -/
theorem ends_drop {p : Packet} {srcIp : SourceIp} (hsrc : sourceIp p.data = some srcIp) :
    (xdpDeepfakeFilter p).Ends (ToldBlocked srcIp) (· = .drop) := by
  simp only [xdpDeepfakeFilter, hsrc, filterSource, helper_eq, Prog.call_bind, Prog.ret_bind,
    Prog.ends_call]
  intro found hfound
  obtain rfl : found = true := hfound rfl
  simp only [isBlocked_true_bind, Prog.ends_call]
  intro count hcount
  simp [hcount rfl]

/-- **A blocked source stays blocked**: no step makes a count go down, and whatever run starts on a
source's frame after its count has reached the threshold drops it. -/
structure StaysBlocked (w : Maps) (es : List (Sched Packet Unit)) : Prop where
  keeps : cpus.Along KeepsCounts ⟨w, []⟩ es
  blocks : ∀ es₁ es₂ s₁ s₂ os₁ os₂ srcIp, es = es₁ ++ es₂ →
    cpus.run ⟨w, []⟩ es₁ = some (s₁, os₁) → cpus.run s₁ es₂ = some (s₂, os₂) →
    blockThreshold ≤ s₁.world.count srcIp →
    ∀ i p, s₁.runs.length ≤ i → s₂.runs[i]? = some p → sourceIp p.request.data = some srcIp →
      ∀ action, p.rest = .ret action → action = .drop

/-- The state while a source is blocked: the runs from the `n`th on are bound to drop its frames. -/
structure Blocked (srcIp : SourceIp) (n : ℕ) (s : Cpus) : Prop where
  count : blockThreshold ≤ s.world.count srcIp
  ends : ∀ i p, n ≤ i → s.runs[i]? = some p → sourceIp p.request.data = some srcIp →
    p.rest.Ends (ToldBlocked srcIp) (· = .drop)

theorem Blocked.step {srcIp : SourceIp} {n : ℕ} {s s' : Cpus} {e : Sched Packet Unit}
    {o : List (Done Packet Call Ret)} (h : Blocked srcIp n s) (hkeeps : KeepsCounts s e)
    (hstep : cpus.step s e = some (s', o)) : Blocked srcIp n s' := by
  have hmoves := Pool.moves_of_step hstep
  refine ⟨BitVec.le_trans h.count (hkeeps s' o hstep srcIp), ?_⟩
  refine hmoves.ends (T := fun p => sourceIp p.data = some srcIp) (fun _ => ends_drop) ?_ h.ends
  cases hmoves with
  | start w runs p => exact fun _ hd => absurd hd List.not_mem_nil
  | advance w pre post p hist c k x =>
    intro d hd
    obtain rfl := List.mem_singleton.mp hd
    exact toldBlocked_answer h.count c

/-- Where no count goes down, blocked sources stay blocked. -/
theorem StaysBlocked.of_keeps {w : Maps} {es : List (Sched Packet Unit)}
    (h : cpus.Along KeepsCounts ⟨w, []⟩ es) : StaysBlocked w es := by
  refine ⟨h, ?_⟩
  rintro es₁ es₂ s₁ s₂ os₁ os₂ srcIp rfl hrun₁ hrun₂ hcount i p hi hp hsrc action hrest
  have hkeeps := ((cpus.along_append_iff hrun₁).mp h).2
  have hblocked : Blocked srcIp s₁.runs.length s₂ :=
    cpus.run_invariant_along (I := fun s _ => Blocked srcIp s₁.runs.length s)
      (fun _ _ _ _ _ h hk hstep => h.step hk hstep)
      ⟨hcount, fun i p hi hp => by simp [List.getElem?_eq_none hi] at hp⟩ hkeeps hrun₂
  have hends := hblocked.ends i p hi hp hsrc
  rwa [hrest] at hends

/-- The steps of a run keep the counts exactly when they are up to date. -/
theorem along_keepsCounts_iff {w : Maps} {s : Cpus} {es : List (Sched Packet Unit)}
    {os : List (Done Packet Call Ret)} (hrun : cpus.run ⟨w, []⟩ es = some (s, os)) :
    cpus.Along KeepsCounts ⟨w, []⟩ es ↔ cpus.Along UpToDate ⟨w, []⟩ es :=
  cpus.along_iff (I := Pool.Faithful xdpDeepfakeFilter)
    (fun _ _ _ _ hs hstep => (Pool.moves_of_step hstep).faithful hs)
    (fun _ _ _ _ hs hstep => keepsCounts_iff hs hstep) (Pool.faithful_nil w) hrun

/-- **Blocked sources stay blocked exactly when no stale count is written.** -/
theorem staysBlocked_iff {w : Maps} {s : Cpus} {es : List (Sched Packet Unit)}
    {os : List (Done Packet Call Ret)} (hrun : cpus.run ⟨w, []⟩ es = some (s, os)) :
    StaysBlocked w es ↔ cpus.Along UpToDate ⟨w, []⟩ es := by
  have hiff := along_keepsCounts_iff hrun
  exact ⟨fun h => hiff.mp h.keeps, fun h => .of_keeps (hiff.mpr h)⟩

/-- Two flat frames, one after the other. -/
theorem staysBlocked_two_frames :
    StaysBlocked .loaded [.start (flatFrame outsider), .advance 0 (), .advance 0 (),
      .start (flatFrame outsider), .advance 1 (), .advance 1 (), .advance 1 (), .advance 1 ()] := by
  refine (staysBlocked_iff rfl).mpr ?_
  iterate 8
    refine cpus.along_cons rfl ?_ ?_
    · first
      | trivial
      | intro p srcIp n k hp hrest
        obtain rfl := Option.some.inj hp
        injection hrest with hcall
        cases hcall <;> decide
  exact cpus.along_nil _ _

/-! ## Schedules that let nobody go -/

/-- The call updates the source's count. -/
def Updates (srcIp : SourceIp) (c : Call) : Prop := ∃ n, c = .updateBlock srcIp n

/-- **Nobody counts in between**: from a run's lookup of a source to its update of the source, no
other run updates it. -/
def Undisturbed (os : List (Done Packet Call Ret)) : Prop :=
  ∀ srcIp pre mid post d d', os = pre ++ d :: mid ++ d' :: post → d.call = .lookupBlock srcIp →
    Updates srcIp d'.call → d'.run = d.run → ∀ e ∈ mid, Updates srcIp e.call → e.run = d.run

theorem Undisturbed.of_append {os o : List (Done Packet Call Ret)} (h : Undisturbed (os ++ o)) :
    Undisturbed os := by
  rintro srcIp pre mid post d d' rfl
  exact h srcIp pre mid (post ++ o) d d' (by simp)

/-- The call asks about the source's entry. -/
def Asks (srcIp : SourceIp) (c : Call) : Prop := c = .lookupBlock srcIp ∨ c = .readBlockCount srcIp

/-- What the maps say of a source's entry depends on nothing else… -/
theorem answer_congr {w w' : Maps} {srcIp : SourceIp} {c : Call} (hc : Asks srcIp c)
    (h : w.blockMap.lookup srcIp = w'.blockMap.lookup srcIp) :
    (w.answer c).1 = (w'.answer c).1 := by
  rcases hc with rfl | rfl
  · exact congrArg Option.isSome h
  · exact congrArg (Option.getD · 0) h

/-- …and only an update of the source changes it. -/
theorem lookup_answer {w : Maps} {srcIp : SourceIp} {c : Call} (hc : ¬ Updates srcIp c) :
    (w.answer c).2.blockMap.lookup srcIp = w.blockMap.lookup srcIp := by
  cases c with
  | updateBlock src n =>
    have hne : srcIp ≠ src := fun h => hc ⟨n, h ▸ rfl⟩
    exact w.blockMap.lookup_update_of_ne _ _ hne
  | _ => rfl

/-- **Until a source is updated**, the maps would answer again what they answered about it. -/
theorem answers_last {w : Maps} {s : Cpus} {es : List (Sched Packet Unit)}
    {os : List (Done Packet Call Ret)} (hrun : cpus.run ⟨w, []⟩ es = some (s, os))
    (srcIp : SourceIp) : ∀ mid, mid <:+ os → (∀ d ∈ mid, ¬ Updates srcIp d.call) →
      ∀ d ∈ mid, Asks srcIp d.call → (s.world.answer d.call).1 = d.answer := by
  refine cpus.run_invariant
    (I := fun s os => ∀ mid, mid <:+ os → (∀ d ∈ mid, ¬ Updates srcIp d.call) →
      ∀ d ∈ mid, Asks srcIp d.call → (s.world.answer d.call).1 = d.answer)
    (fun s os e s' o hI hs mid hmid hno d hd hasks => ?_) ?_ hrun
  · cases Pool.moves_of_step hs with
    | start w runs p => exact hI mid (by rwa [List.append_nil] at hmid) hno d hd hasks
    | advance w pre post p hist c k x =>
      rcases List.suffix_concat_iff.mp hmid with rfl | ⟨mid', rfl, hmid'⟩
      · exact absurd hd List.not_mem_nil
      obtain ⟨hno', hlast⟩ := List.forall_mem_append.mp hno
      have hsame := lookup_answer (w := w) (hlast _ (List.mem_singleton_self _))
      rw [answer_congr hasks hsame]
      rcases List.mem_append.mp hd with hd | hd
      · exact hI mid' hmid' hno' d hd hasks
      · obtain rfl := List.mem_singleton.mp hd
        rfl
  · intro mid hmid _ d hd
    rw [List.suffix_nil.mp hmid] at hd
    exact absurd hd List.not_mem_nil

/-- What a run was told of a source since it looked the source up still holds when it comes to
update it, if nobody else did in between. -/
theorem answers_of_undisturbed {w : Maps} {s : Cpus} {es : List (Sched Packet Unit)}
    {os : List (Done Packet Call Ret)} (hrun : cpus.run ⟨w, []⟩ es = some (s, os)) {i : ℕ}
    {q : Packet} {srcIp : SourceIp} {n : Byte} {found : Bool} {tail : List (Reply Call Ret)}
    (h : Undisturbed (os ++ [⟨i, q, .updateBlock srcIp n, ()⟩]))
    (hhist : (os.filter fun d => d.run = i).map Done.reply = ⟨.lookupBlock srcIp, found⟩ :: tail)
    (htail : ∀ r ∈ tail, r.1 = .readBlockCount srcIp) :
    ∀ r ∈ (⟨.lookupBlock srcIp, found⟩ :: tail : List (Reply Call Ret)),
      (s.world.answer r.1).1 = r.2 := by
  obtain ⟨d, ds, hfilter, hd, rfl⟩ := List.map_eq_cons_iff.mp hhist
  obtain ⟨pre, mid, rfl, -, hrund, rfl⟩ := List.filter_eq_cons_iff.mp hfilter
  have hcall : d.call = .lookupBlock srcIp := congrArg Sigma.fst hd
  have hdi : d.run = i := by simpa using hrund
  have hreads : ∀ e ∈ mid, e.run = i → e.call = .readBlockCount srcIp := fun e he hei =>
    htail e.reply (List.mem_map_of_mem (List.mem_filter.mpr ⟨he, by simpa using hei⟩))
  have hno : ∀ e ∈ d :: mid, ¬ Updates srcIp e.call := by
    refine List.forall_mem_cons.mpr ⟨fun ⟨m, hm⟩ => ?_, fun e he hup => ?_⟩
    · exact absurd (hcall.symm.trans hm) nofun
    · have hei := h srcIp pre mid [] d _ rfl hcall ⟨n, rfl⟩ hdi.symm e he hup
      obtain ⟨m, hm⟩ := hup
      exact absurd ((hreads e he (hei.trans hdi)).symm.trans hm) nofun
  have hlast := answers_last hrun srcIp (d :: mid) (List.suffix_append _ _) hno
  intro r hr
  rcases List.mem_cons.mp hr with rfl | hr
  · rw [← hd]
    exact hlast d List.mem_cons_self (.inl hcall)
  · obtain ⟨e, he, rfl⟩ := List.mem_map.mp hr
    obtain ⟨he, hei⟩ := List.mem_filter.mp he
    exact hlast e (List.mem_cons_of_mem _ he) (.inr (hreads e he (by simpa using hei)))

/-- **An undisturbed update is up to date**: the count it adds one to is the one stored. -/
theorem upToDate_of_undisturbed {w : Maps} {s s' : Cpus} {es : List (Sched Packet Unit)}
    {e : Sched Packet Unit} {os o : List (Done Packet Call Ret)}
    (hrun : cpus.run ⟨w, []⟩ es = some (s, os)) (hstep : cpus.step s e = some (s', o))
    (h : Undisturbed (os ++ o)) : UpToDate s e := by
  cases e with
  | start p => trivial
  | advance i x =>
    rintro ⟨q, hist, rest⟩ srcIp n k hp rfl
    obtain rfl : o = [⟨i, q, .updateBlock srcIp n, ()⟩] := by
      simp only [cpus, pool, hp] at hstep
      cases hstep
      rfl
    have hhist : hist = (os.filter fun d => d.run = i).map Done.reply := by
      simpa [hp] using history_eq_filter hrun i
    rcases (Pool.faithful_of_run hrun).each each_countsOn (List.mem_of_getElem? hp) rfl srcIp n
      rfl with ⟨hshape, -⟩ | ⟨count₁, count₂, hcount, hshape, -⟩
    · -- the source was not stored, and still is not
      have hnone : (s.world.blockMap.lookup srcIp).isSome = false :=
        answers_of_undisturbed hrun h (hhist.symm.trans hshape) (by simp) _ List.mem_cons_self
      have hzero : s.world.count srcIp = 0 :=
        Maps.count_of_none (Option.isNone_iff_eq_none.mp (Option.isSome_eq_false_iff.mp hnone))
      rw [hzero]
      exact BitVec.le_def.mpr (Nat.zero_le _)
    · -- both reads were of the count stored, which is below the threshold
      have hreads := answers_of_undisturbed hrun h (hhist.symm.trans hshape) (by simp)
      have h₁ : s.world.count srcIp = count₁ := hreads ⟨.readBlockCount srcIp, count₁⟩ (by simp)
      have h₂ : s.world.count srcIp = count₂ := hreads ⟨.readBlockCount srcIp, count₂⟩ (by simp)
      have hnext : nextCount hist = count₂ + 1 := by
        subst hshape
        rfl
      rw [hnext, ← h₂]
      rw [← h₁, blockThreshold] at hcount
      bv_omega

/-- **Where nobody counts in between, blocked sources stay blocked.** -/
theorem staysBlocked_of_undisturbed {w : Maps} {s : Cpus} {es : List (Sched Packet Unit)}
    {os : List (Done Packet Call Ret)} (hrun : cpus.run ⟨w, []⟩ es = some (s, os))
    (h : Undisturbed os) : StaysBlocked w es := by
  refine .of_keeps ((along_keepsCounts_iff hrun).mpr ?_)
  induction es using List.reverseRecOn generalizing s os with
  | nil => trivial
  | append_singleton es e ih =>
    obtain ⟨s₁, o, o', hrun₁, hlast, rfl⟩ := cpus.run_append_iff.mp hrun
    obtain ⟨s₂, o₁, o₂, hstep, hnil, rfl⟩ := (cpus.run_cons_iff).mp hlast
    obtain ⟨rfl, rfl⟩ := Prod.mk.inj (Option.some.inj hnil)
    rw [List.append_nil] at h
    exact (cpus.along_append_iff hrun₁).mpr ⟨ih hrun₁ h.of_append,
      cpus.along_cons hstep (upToDate_of_undisturbed hrun₁ hstep h) trivial⟩

/-! ## A blocked source let go -/

/-- `block_map` is not full. -/
def NotFull (s : Cpus) (_ : Sched Packet Unit) : Prop := s.world.blockMap.size < 100000

theorem size_answer_le (w : Maps) (c : Call) :
    (w.answer c).2.blockMap.size ≤ w.blockMap.size + 1 := by
  cases c with
  | updateBlock srcIp n => exact w.blockMap.size_update_le srcIp n
  | _ => exact Nat.le_succ _

/-- A step stores at most one source more. -/
theorem along_notFull {s : Cpus} {es : List (Sched Packet Unit)}
    (h : s.world.blockMap.size + es.length ≤ 100000) : cpus.Along NotFull s es := by
  induction es generalizing s with
  | nil => trivial
  | cons e es ih =>
    rw [List.length_cons] at h
    refine ⟨show s.world.blockMap.size < 100000 by omega, fun s' o hstep => ih ?_⟩
    have hsize : s'.world.blockMap.size ≤ s.world.blockMap.size + 1 := by
      cases Pool.moves_of_step hstep with
      | start w runs p => exact Nat.le_succ _
      | advance w pre post p hist c k x => exact size_answer_le w c
    omega

/-- Letting a run make its next `n` calls. -/
def advances (i n : ℕ) : List (Sched Packet Unit) := .replicate n (.advance i ())

/-- The first CPU finds no entry for the outsider, and is overtaken by five others, which count the
outsider's flat frames one after another. -/
def overtaken : List (Sched Packet Unit) :=
  .start (flatFrame outsider) :: advances 0 1 ++
    .start (flatFrame outsider) :: advances 1 2 ++
    .start (flatFrame outsider) :: advances 2 4 ++
    .start (flatFrame outsider) :: advances 3 4 ++
    .start (flatFrame outsider) :: advances 4 4 ++
    .start (flatFrame outsider) :: advances 5 4

/-- The first CPU writes its count, and the outsider sends a varied frame. -/
def letGo : List (Sched Packet Unit) :=
  advances 0 1 ++ .start (variedFrame outsider) :: advances 6 4

/-- The varied frame passes: its source was blocked, and the late update let it go. -/
theorem not_forall_staysBlocked :
    ¬ ∀ (es : List (Sched Packet Unit)) (s : Cpus) (os : List (Done Packet Call Ret)),
      cpus.run ⟨.loaded, []⟩ es = some (s, os) → cpus.Along NotFull ⟨.loaded, []⟩ es →
      StaysBlocked .loaded es := by
  intro h
  have hstays : StaysBlocked .loaded (overtaken ++ letGo) :=
    h (overtaken ++ letGo) _ _ rfl (along_notFull (by decide))
  have hdrop := hstays.blocks overtaken letGo _ _ _ _ outsider rfl rfl rfl (by decide) 6 _
    (by decide) rfl (sourceIp_frame outsider _) .pass rfl
  exact absurd hdrop (by decide)

end NicXdp

end BioShield
