import BioShield.Core.QueueRefinement

/-!
# Core/QueueObservers — what `size`, `empty` and `full` report (`core/lockfree_queue.cpp`)

An observer loads the write index and then the read index, while both threads go on.  A `pop` that
gets in between lowers the difference of the two even below zero, so a call may return a number the
queue never held.  It does not if, while a call is under way, a `pop` stores the read index only

* for `size`, while the write index is still the one the call loaded;
* for `empty`, likewise, or to a value other than the one the call loaded;
* for `full`, short of the write index the call loaded.
-/

namespace BioShield

open Machinery TelemetryPacket

namespace LockFreeQueue

/-! ## Soundness -/

/-- How many packets are in the queue, by what has been returned so far. -/
def depth (os : List Return) : ℕ := (pushed os).length - (popped os).length

/-- The depths the queue has after `pre` and on, through the steps of `mid`. -/
def DepthDuring (q : LockFreeQueue) (pre mid : List Event) (d : ℕ) : Prop :=
  ∃ mid' s os, mid' <+: mid ∧ threads.run (.start q) (pre ++ mid') = some (s, os) ∧ depth os = d

/-- An observer's answer is true of one of the depths `D`: a size is one of them and within the
capacity, a queue reported empty or full was so. -/
def Return.SoundFor (cap : ℕ) (D : ℕ → Prop) : Return → Prop
  | .size n => n.toNat ≤ cap ∧ D n.toNat
  | .empty b => b = true → D 0
  | .full b => b = true → D cap
  | .push _ _ | .pop _ => True

/-- **The observers are sound**: what a call returns is true of a moment between its two loads. -/
def ObserversSound (q : LockFreeQueue) (es : List Event) : Prop :=
  ∀ query pre mid post s os s' ret,
    es = pre ++ .observer (.loadWrite query) :: mid ++ .observer .loadRead :: post →
    (∀ e ∈ mid, ∀ o, e ≠ .observer o) →
    threads.run (.start q) (pre ++ .observer (.loadWrite query) :: mid) = some (s, os) →
    threads.step s (.observer .loadRead) = some (s', [ret]) →
    ret.SoundFor q.mCapacity.toNat (DepthDuring q (pre ++ [.observer (.loadWrite query)]) mid)

/-- The condition on a `pop` that stores the read index while an observer is between its loads. -/
def SafePop (s : Threads) : Event → Prop
  | .consumer .store =>
    match s.observer with
    | .idle => True
    | .loadedWrite .size writeIdx => s.queue.mWriteIndex = writeIdx
    | .loadedWrite .empty writeIdx =>
      s.queue.mReadIndex + 1 = writeIdx → s.queue.mWriteIndex = writeIdx
    | .loadedWrite .full writeIdx => s.queue.mReadIndex ≠ writeIdx
  | _ => True

theorem Return.SoundFor.mono {cap : ℕ} {D D' : ℕ → Prop} (hD : ∀ d, D d → D' d) {ret : Return}
    (h : ret.SoundFor cap D) : ret.SoundFor cap D' := by
  cases ret with
  | size n => exact ⟨h.1, hD _ h.2⟩
  | empty b => exact fun hb => hD _ (h hb)
  | full b => exact fun hb => hD _ (h hb)
  | push _ _ => trivial
  | pop _ => trivial

/-! ## One step -/

section Step

variable {k base : ℕ} {s : Threads} {l : List TelemetryPacket} {D : ℕ → Prop}

/-- **Two loads at one moment are sound.** -/
theorem Represents.soundFor_answer (hk : k < 64) (h : Represents k base s l) (hD : D l.length)
    (query : Query) :
    (s.queue.answer s.queue.mWriteIndex s.queue.mReadIndex query).SoundFor (2 ^ k) D := by
  have hlt : 2 ^ k < 2 ^ 64 := Nat.pow_lt_pow_right (by omega) hk
  have hroom := h.room
  cases query with
  | size =>
    have hsize : (s.queue.mWriteIndex - s.queue.mReadIndex).toNat = l.length := by
      rw [h.writeIndex, h.readIndex, ofNat_add_sub, BitVec.toNat_ofNat, Nat.mod_eq_of_lt (by omega)]
    exact ⟨hsize.trans_le hroom, hsize ▸ hD⟩
  | empty =>
    intro hempty
    have heq : s.queue.mReadIndex = s.queue.mWriteIndex :=
      ((BitVec.sub_eq_iff_eq_add.mp (of_decide_eq_true hempty)).trans (BitVec.zero_add _)).symm
    rw [(h.empty_iff hk).mp heq] at hD
    exact hD
  | full =>
    intro hfull
    rwa [← (h.full_iff hk).mp (of_decide_eq_true hfull)]

/-- A safe `pop` leaves an answer sound… -/
theorem soundFor_pop (hk : k < 64) {q : LockFreeQueue} {query : Query} {writeIdx : SizeT}
    (h : Represents k base s l) (hD : D l.length)
    (hq : s.queue = { q with mReadIndex := q.mReadIndex + 1 })
    (hsafe : match query with
      | .size => q.mWriteIndex = writeIdx
      | .empty => q.mReadIndex + 1 = writeIdx → q.mWriteIndex = writeIdx
      | .full => q.mReadIndex ≠ writeIdx)
    (hsound : (q.answer writeIdx q.mReadIndex query).SoundFor (2 ^ k) D) :
    (s.queue.answer writeIdx s.queue.mReadIndex query).SoundFor (2 ^ k) D := by
  have hnow : q.mWriteIndex = writeIdx →
      (s.queue.answer writeIdx s.queue.mReadIndex query).SoundFor (2 ^ k) D := fun hw => by
    have hanswer := h.soundFor_answer hk hD query
    rwa [show s.queue.mWriteIndex = writeIdx by rw [hq]; exact hw] at hanswer
  cases query with
  | size => exact hnow hsafe
  | empty =>
    intro hempty
    have heq := (BitVec.sub_eq_iff_eq_add.mp (of_decide_eq_true hempty)).trans (BitVec.zero_add _)
    rw [hq] at heq
    exact hnow (hsafe heq.symm) hempty
  | full =>
    intro hfull
    have hle := of_decide_eq_true hfull
    simp only [hq] at hle
    refine hsound (decide_eq_true ?_)
    simp only at hsafe
    bv_omega

/-- …and so does every other step of the two threads: only a `pop` moves the read index. -/
theorem soundFor_step (hk : k < 64) {base' : ℕ} {s' : Threads} {l' : List TelemetryPacket}
    {e : Event} {o : List Return} {query : Query} {writeIdx : SizeT}
    (h : Represents k base s l) (h' : Represents k base' s' l') (hD : D l'.length)
    (hobserver : s.observer = .loadedWrite query writeIdx) (hsafe : SafePop s e)
    (hother : ∀ o, e ≠ .observer o) (hstep : threads.step s e = some (s', o))
    (hsound : (s.queue.answer writeIdx s.queue.mReadIndex query).SoundFor (2 ^ k) D) :
    s'.observer = .loadedWrite query writeIdx ∧
      (s'.queue.answer writeIdx s'.queue.mReadIndex query).SoundFor (2 ^ k) D := by
  obtain ⟨q, p, c, t⟩ := s
  cases moves_of_step hstep with
  | producer hm => cases hm <;> exact ⟨hobserver, hsound⟩
  | observer hm => exact absurd rfl (hother _)
  | consumer hm =>
    have hcons := h.consumer
    cases hm with
    | loadRead packet => exact ⟨hobserver, hsound⟩
    | refuse readIdx hempty => exact ⟨hobserver, hsound⟩
    | accept hsome => exact ⟨hobserver, hsound⟩
    | field hf => exact ⟨hobserver, hsound⟩
    | @store packet readIdx =>
      -- the read index it loaded is still the queue's: only this thread stores it
      obtain rfl : readIdx = q.mReadIndex := hcons.1.trans h.readIndex.symm
      obtain rfl : t = .loadedWrite query writeIdx := hobserver
      refine ⟨rfl, soundFor_pop (q := q) hk h' hD rfl ?_ hsound⟩
      cases query <;> exact hsafe

end Step

/-! ## A whole call -/

/-- A capacity shifted out to zero stays there, and the loop goes on. -/
theorem roundCapacity_zero {capacity : SizeT} (hpos : 0 < capacity) (fuel : ℕ) :
    roundCapacity capacity fuel 0 = none := by
  induction fuel with
  | zero => rw [roundCapacity, if_pos hpos]
  | succ fuel ih =>
    have hshift : (0 : SizeT) <<< 1 = 0 := rfl
    rwa [roundCapacity, if_pos hpos, hshift]

/-- The loop ends in a power of two, if it ends. -/
theorem exists_two_pow_of_roundCapacity {capacity mCapacity : SizeT} {fuel j : ℕ} (hj : j < 64)
    (h : roundCapacity capacity fuel (BitVec.ofNat 64 (2 ^ j)) = some mCapacity) :
    ∃ k, k < 64 ∧ mCapacity = BitVec.ofNat 64 (2 ^ k) := by
  induction fuel generalizing j with
  | zero =>
    rw [roundCapacity] at h
    split_ifs at h
    exact ⟨j, hj, (Option.some.inj h).symm⟩
  | succ fuel ih =>
    rw [roundCapacity] at h
    split_ifs at h with hlt
    · rw [shiftLeft_two_pow] at h
      by_cases hj' : j + 1 < 64
      · exact ih hj' h
      · obtain rfl : j = 63 := by omega
        have hzero : BitVec.ofNat 64 (2 ^ (63 + 1)) = 0 := rfl
        have hpos : 0 < capacity := by bv_omega
        rw [hzero, roundCapacity_zero hpos] at h
        cases h
    · exact ⟨j, hj, (Option.some.inj h).symm⟩

theorem exists_eq_init {capacity : SizeT} {fuel : ℕ} {q : LockFreeQueue}
    (h : new fuel capacity = some q) : ∃ k, k < 64 ∧ q = init (BitVec.ofNat 64 (2 ^ k)) := by
  obtain ⟨mCapacity, hround, rfl⟩ := Option.map_eq_some_iff.mp h
  obtain ⟨k, hk, rfl⟩ := exists_two_pow_of_roundCapacity (j := 0) (by omega) hround
  exact ⟨k, hk, rfl⟩

section Call

variable {k : ℕ} (hk : k < 64) {q : LockFreeQueue} (hq : q = init (BitVec.ofNat 64 (2 ^ k)))
include hk hq

/-- After any run, the abstract queue has the depth the returns tell. -/
theorem exists_represents {es : List Event} {s : Threads} {os : List Return}
    (hrun : threads.run (.start q) es = some (s, os)) :
    ∃ base l, Represents k base s l ∧ depth os = l.length := by
  obtain ⟨base, l, hpath, h⟩ := run_represents hk hq hrun
  exact ⟨base, l, h, (Fifo.length_eq hpath).symm⟩

/-- **While a call is under way, its answer would be sound**, as long as the pops are safe. -/
theorem soundFor_of_along {pre mid : List Event} {query : Query} {s : Threads} {os : List Return}
    (hother : ∀ e ∈ mid, ∀ o, e ≠ .observer o)
    (hrun : threads.run (.start q) (pre ++ [.observer (.loadWrite query)] ++ mid) = some (s, os))
    (hsafe : threads.Along SafePop (.start q) (pre ++ [.observer (.loadWrite query)] ++ mid)) :
    ∃ writeIdx, s.observer = .loadedWrite query writeIdx ∧
      (s.queue.answer writeIdx s.queue.mReadIndex query).SoundFor (2 ^ k)
        (DepthDuring q (pre ++ [.observer (.loadWrite query)]) mid) := by
  induction mid using List.reverseRecOn generalizing s os with
  | nil =>
    obtain ⟨base, l, h, hdepth⟩ := exists_represents hk hq hrun
    have hnow : DepthDuring q (pre ++ [.observer (.loadWrite query)]) [] l.length :=
      ⟨[], _, _, List.nil_prefix, hrun, hdepth⟩
    rw [List.append_nil] at hrun
    obtain ⟨⟨q₁, p₁, c₁, t₁⟩, o₁, o₂, -, hload, -⟩ := (Machine.run_append_iff threads).mp hrun
    obtain ⟨s₂, o₃, o₄, hstep, hnil, -⟩ := (Machine.run_cons_iff threads).mp hload
    obtain ⟨rfl, -⟩ := Prod.mk.inj (Option.some.inj hnil)
    cases moves_of_step hstep with
    | observer hm =>
      cases hm with
      | loadWrite query => exact ⟨_, rfl, h.soundFor_answer hk hnow query⟩
  | append_singleton mid e ih =>
    obtain ⟨base', l', h', hdepth⟩ := exists_represents hk hq hrun
    have hnow : DepthDuring q (pre ++ [.observer (.loadWrite query)]) (mid ++ [e]) l'.length :=
      ⟨_, _, _, List.prefix_rfl, hrun, hdepth⟩
    rw [← List.append_assoc] at hrun hsafe
    obtain ⟨s₁, o₁, o₂, hmid, hlast, -⟩ := (Machine.run_append_iff threads).mp hrun
    obtain ⟨s₂, o₃, o₄, hstep, hnil, -⟩ := (Machine.run_cons_iff threads).mp hlast
    obtain ⟨rfl, -⟩ := Prod.mk.inj (Option.some.inj hnil)
    rw [Machine.along_append_iff threads hmid] at hsafe
    obtain ⟨writeIdx, hobserver, hsound⟩ :=
      ih (fun e' he' => hother e' (List.mem_append_left _ he')) hmid hsafe.1
    obtain ⟨base, l, h, -⟩ := exists_represents hk hq hmid
    refine ⟨writeIdx, soundFor_step hk h h' hnow hobserver hsafe.2.1
      (hother e (List.mem_append_right _ (List.mem_singleton_self e))) hstep (hsound.mono ?_)⟩
    rintro d ⟨mid', s', os', hprefix, hrest⟩
    exact ⟨mid', s', os', hprefix.trans (List.prefix_append _ _), hrest⟩

end Call

/-- **When the observers are sound**: in every run of the three threads whose pops are safe, each
call of `size`, `empty` and `full` returns what is true of a moment between its loads. -/
theorem observersSound_of_along {fuel : ℕ} {capacity : SizeT} {q : LockFreeQueue}
    (hnew : new fuel capacity = some q) {es : List Event} {s : Threads} {os : List Return}
    (hrun : threads.run (.start q) es = some (s, os))
    (hsafe : threads.Along SafePop (.start q) es) : ObserversSound q es := by
  obtain ⟨k, hk, hq⟩ := exists_eq_init hnew
  rintro query pre mid post s₁ os₁ s₂ ret rfl hother hmid hstep
  have hes : pre ++ .observer (.loadWrite query) :: mid =
      pre ++ [.observer (.loadWrite query)] ++ mid := by simp
  rw [hes] at hmid hsafe
  have hcap : q.mCapacity.toNat = 2 ^ k := by rw [hq]; exact toNat_two_pow hk
  rw [Machine.along_append_iff threads hmid] at hsafe
  obtain ⟨writeIdx, hobserver, hsound⟩ := soundFor_of_along hk hq hother hmid hsafe.1
  obtain ⟨q₁, p₁, c₁, t₁⟩ := s₁
  obtain rfl : t₁ = .loadedWrite query writeIdx := hobserver
  rw [hcap]
  cases moves_of_step hstep with
  | observer hm =>
    cases hm with
    | loadRead => exact hsound

/-! ## A push and a pop within one call -/

/-- The fields of a packet, in one order of many. -/
def allFields : List Field :=
  [.sourceIp, .timestampNs, .channelId, .numSamples] ++ (List.finRange 64).map .frequencyData

theorem toFinset_allFields : allFields.toFinset = Finset.univ := by
  ext f
  cases f <;> simp [allFields]

theorem nodup_allFields : allFields.Nodup := by
  refine List.nodup_append.mpr ⟨by decide, ?_, ?_⟩
  · exact (List.nodup_finRange 64).map fun i j h => Field.frequencyData.inj h
  · simp

/-- A call of `push` from beginning to end. -/
def pushEvents (packet : TelemetryPacket) : List Event :=
  .producer (.loadWrite packet) :: .producer .loadRead ::
    (allFields.map fun f => .producer (.field f)) ++ [.producer .store]

/-- A call of `pop` from beginning to end. -/
def popEvents (packet : TelemetryPacket) : List Event :=
  .consumer (.loadRead packet) :: .consumer .loadWrite ::
    (allFields.map fun f => .consumer (.field f)) ++ [.consumer .store]

theorem exists_of_mem_pushEvents {packet : TelemetryPacket} {e : Event}
    (he : e ∈ pushEvents packet) : ∃ o, e = .producer o := by
  simp only [pushEvents, List.mem_cons, List.mem_append, List.mem_map, List.not_mem_nil,
    or_false] at he
  rcases he with (rfl | rfl | ⟨f, -, rfl⟩) | rfl <;> exact ⟨_, rfl⟩

theorem exists_of_mem_popEvents {packet : TelemetryPacket} {e : Event}
    (he : e ∈ popEvents packet) : ∃ o, e = .consumer o := by
  simp only [popEvents, List.mem_cons, List.mem_append, List.mem_map, List.not_mem_nil,
    or_false] at he
  rcases he with (rfl | rfl | ⟨f, -, rfl⟩) | rfl <;> exact ⟨_, rfl⟩

/-- **All fields are copied, in any order**: if every field not copied yet can be, the run over a
list of distinct ones copies them all.  `S a done` is the state with the fields `done` copied, `e f`
the event that copies `f`. -/
theorem run_fields {α : Type} {S : α → Finset Field → Threads} {e : Field → Event}
    (hstep : ∀ a done f, f ∉ done →
      ∃ b, threads.step (S a done) (e f) = some (S b (insert f done), []))
    {fs : List Field} (hfs : fs.Nodup) (a : α) {done : Finset Field} (hdone : ∀ f ∈ fs, f ∉ done) :
    ∃ b, threads.run (S a done) (fs.map e) = some (S b (fs.toFinset ∪ done), []) := by
  induction fs generalizing a done with
  | nil => exact ⟨a, by simp⟩
  | cons f fs ih =>
    obtain ⟨hf, hfs⟩ := List.nodup_cons.mp hfs
    obtain ⟨b, hb⟩ := hstep a done f (hdone f List.mem_cons_self)
    have hrest : ∀ g ∈ fs, g ∉ insert f done := fun g hg => by
      rw [Finset.mem_insert, not_or]
      exact ⟨fun h => hf (h ▸ hg), hdone g (List.mem_cons_of_mem _ hg)⟩
    obtain ⟨c, hc⟩ := ih hfs b hrest
    rw [List.toFinset_cons, Finset.insert_union, ← Finset.union_insert]
    exact ⟨c, (Machine.run_cons_iff threads).mpr ⟨_, [], [], hb, hc, rfl⟩⟩

/-- A call copies all the fields. -/
theorem run_allFields {α : Type} {S : α → Finset Field → Threads} {e : Field → Event}
    (hstep : ∀ a done f, f ∉ done →
      ∃ b, threads.step (S a done) (e f) = some (S b (insert f done), [])) (a : α) :
    ∃ b, threads.run (S a ∅) (allFields.map e) = some (S b Finset.univ, []) := by
  obtain ⟨b, hb⟩ := run_fields hstep nodup_allFields a fun f _ => Finset.notMem_empty f
  rw [toFinset_allFields, Finset.union_empty] at hb
  exact ⟨b, hb⟩

/-- **A push that finds room gets through**, if nobody interferes… -/
theorem run_pushEvents (q : LockFreeQueue) (c : Pop) (t : Observe) (packet : TelemetryPacket)
    (hroom : ¬ q.mCapacity ≤ q.mWriteIndex - q.mReadIndex) :
    ∃ buffer, threads.run ⟨q, .idle, c, t⟩ (pushEvents packet) =
      some (⟨{ q with mBuffer := buffer, mWriteIndex := q.mWriteIndex + 1 }, .idle, c, t⟩,
        [.push packet true]) := by
  obtain ⟨buffer, hfields⟩ := run_allFields (e := fun f => .producer (.field f))
    (S := fun buffer done =>
      ⟨{ q with mBuffer := buffer }, .writing packet q.mWriteIndex done, c, t⟩)
    (fun buffer done f hf => ⟨_, by simp [threads, Push.step, hf, writeField]; rfl⟩) q.mBuffer
  have hroom' : threads.step ⟨q, .loadedWrite packet q.mWriteIndex, c, t⟩ (.producer .loadRead) =
      some (⟨q, .writing packet q.mWriteIndex ∅, c, t⟩, []) := by
    simp only [threads, Push.step, if_neg hroom, Option.map_some]
  refine ⟨buffer, (Machine.run_cons_iff threads).mpr ⟨_, [], _, rfl, ?_, rfl⟩⟩
  refine (Machine.run_cons_iff threads).mpr ⟨_, [], _, hroom', ?_, rfl⟩
  refine (Machine.run_append_iff threads).mpr ⟨_, [], _, hfields, ?_, rfl⟩
  refine Machine.run_singleton threads ?_
  simp [threads, Push.step]

/-- …and so does a pop that finds a packet. -/
theorem run_popEvents (q : LockFreeQueue) (p : Push) (t : Observe) (packet : TelemetryPacket)
    (hsome : q.mReadIndex ≠ q.mWriteIndex) :
    ∃ packet', threads.run ⟨q, p, .idle, t⟩ (popEvents packet) =
      some (⟨{ q with mReadIndex := q.mReadIndex + 1 }, p, .idle, t⟩, [.pop (some packet')]) := by
  obtain ⟨packet', hfields⟩ := run_allFields (e := fun f => .consumer (.field f))
    (S := fun packet done => ⟨q, p, .reading packet q.mReadIndex done, t⟩)
    (fun packet done f hf => ⟨_, by simp [threads, Pop.step, hf]; rfl⟩) packet
  have hsome' : threads.step ⟨q, p, .loadedRead packet q.mReadIndex, t⟩ (.consumer .loadWrite) =
      some (⟨q, p, .reading packet q.mReadIndex ∅, t⟩, []) := by
    simp only [threads, Pop.step, if_neg hsome, Option.map_some]
  refine ⟨packet', (Machine.run_cons_iff threads).mpr ⟨_, [], _, rfl, ?_, rfl⟩⟩
  refine (Machine.run_cons_iff threads).mpr ⟨_, [], _, hsome', ?_, rfl⟩
  refine (Machine.run_append_iff threads).mpr ⟨_, [], _, hfields, ?_, rfl⟩
  refine Machine.run_singleton threads ?_
  simp [threads, Pop.step]

/-- While nothing is pushed, pops are safe for a call of `size`. -/
theorem along_safePop_of_consumer {s : Threads} {es : List Event}
    (hes : ∀ e ∈ es, ∃ o, e = .consumer o)
    (hobserver : s.observer = .loadedWrite .size s.queue.mWriteIndex) :
    threads.Along SafePop s es := by
  induction es generalizing s with
  | nil => trivial
  | cons e es ih =>
    obtain ⟨⟨o, rfl⟩, hrest⟩ := List.forall_mem_cons.mp hes
    refine ⟨by cases o <;> simp [SafePop, hobserver], fun s' os hs => ih hrest ?_⟩
    obtain ⟨q, p, c, t⟩ := s
    cases moves_of_step hs with
    | consumer hm => cases hm <;> exact hobserver

/-- A call of `size` on a queue of one slot, with a pop between its loads. -/
def sizeDuringPop : List Event :=
  pushEvents .zero ++ .observer (.loadWrite .size) :: (popEvents .zero ++ [.observer .loadRead])

/-- The pop does not disturb the call. -/
theorem observersSound_sizeDuringPop :
    (∃ r, threads.run (.start (init 1)) sizeDuringPop = some r) ∧
      ObserversSound (init 1) sizeDuringPop := by
  obtain ⟨buffer, hpush⟩ := run_pushEvents (init 1) .idle .idle .zero (by decide)
  obtain ⟨packet', hpop⟩ := run_popEvents
    { init 1 with mBuffer := buffer, mWriteIndex := (init 1).mWriteIndex + 1 } .idle
    (.loadedWrite .size 1) .zero (show (0 : SizeT) ≠ 0 + 1 by decide)
  have hload : threads.step
      ⟨{ init 1 with mBuffer := buffer, mWriteIndex := (init 1).mWriteIndex + 1 }, .idle, .idle,
        .idle⟩ (.observer (.loadWrite .size)) =
      some (⟨{ init 1 with mBuffer := buffer, mWriteIndex := (init 1).mWriteIndex + 1 }, .idle,
        .idle, .loadedWrite .size 1⟩, []) := rfl
  have hcall := (Machine.run_cons_iff threads).mpr ⟨_, _, _, hload,
    (Machine.run_append_iff threads).mpr ⟨_, _, _, hpop,
      Machine.run_singleton threads (rfl : threads.step _ (.observer .loadRead) = _), rfl⟩, rfl⟩
  have hrun := (Machine.run_append_iff threads).mpr ⟨_, _, _, hpush, hcall, rfl⟩
  have hsafe : threads.Along SafePop (.start (init 1)) sizeDuringPop := by
    refine (Machine.along_append_iff threads hpush).mpr
      ⟨threads.along_of_forall fun e he s => ?_, threads.along_cons hload trivial
        ((Machine.along_append_iff threads hpop).mpr
          ⟨along_safePop_of_consumer (fun e he => exists_of_mem_popEvents he) rfl,
            threads.along_of_forall fun e he s => ?_⟩)⟩
    · obtain ⟨o, rfl⟩ := exists_of_mem_pushEvents he
      trivial
    · obtain rfl := List.mem_singleton.mp he
      trivial
  exact ⟨⟨_, hrun⟩, observersSound_of_along (rfl : new 0 1 = some (init 1)) hrun hsafe⟩

/-- With a pop after the push, the queue of one slot reports a size of `2 ^ 64 - 1`. -/
theorem not_forall_observersSound :
    ¬ ∀ (fuel : ℕ) (capacity : SizeT) (q : LockFreeQueue) (es : List Event) (s : Threads)
      (os : List Return), new fuel capacity = some q →
      threads.run (.start q) es = some (s, os) → ObserversSound q es := by
  intro h
  obtain ⟨buffer, hpush⟩ := run_pushEvents (init 1) .idle (.loadedWrite .size 0) .zero (by decide)
  obtain ⟨packet', hpop⟩ := run_popEvents
    { init 1 with mBuffer := buffer, mWriteIndex := (init 1).mWriteIndex + 1 } .idle
    (.loadedWrite .size 0) .zero (show (0 : SizeT) ≠ 0 + 1 by decide)
  have hmid := (Machine.run_cons_iff threads).mpr ⟨_, _, _,
    (rfl : threads.step (.start (init 1)) (.observer (.loadWrite .size)) = _),
    (Machine.run_append_iff threads).mpr ⟨_, _, _, hpush, hpop, rfl⟩, rfl⟩
  have hrun := (Machine.run_append_iff threads).mpr ⟨_, _, _, hmid,
    Machine.run_singleton threads (rfl : threads.step _ (.observer .loadRead) = _), rfl⟩
  have hother : ∀ e ∈ pushEvents .zero ++ popEvents .zero, ∀ o, e ≠ .observer o := by
    intro e he o
    rcases List.mem_append.mp he with he | he
    · obtain ⟨o', rfl⟩ := exists_of_mem_pushEvents he
      exact nofun
    · obtain ⟨o', rfl⟩ := exists_of_mem_popEvents he
      exact nofun
  have hsound := h 0 1 (init 1) _ _ _ rfl hrun .size [] (pushEvents .zero ++ popEvents .zero) []
    _ _ _ _ rfl hother hmid rfl
  exact absurd hsound.1 (show ¬ (0 - (0 + 1) : SizeT).toNat ≤ (1 : SizeT).toNat by decide)

end LockFreeQueue

end BioShield
