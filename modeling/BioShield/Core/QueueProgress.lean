import BioShield.Core.LockFreeQueue

/-!
# Core/QueueProgress — the queue is wait-free (`core/lockfree_queue.cpp`)

No call waits for another thread: wherever the others stand, a thread has a next step, and after so
many steps of its own its call has returned, whatever the others did meanwhile (`waitFree`).  A call
of `push` or `pop` takes two loads, a step for each field of the packet and a store; an observer
takes two loads.
-/

namespace BioShield

open Machinery TelemetryPacket

namespace LockFreeQueue

/-- The three threads. -/
inductive Thread
  | producer | consumer | observer
  deriving DecidableEq

/-- Who moves. -/
def Event.thread : Event → Thread
  | .producer _ => .producer
  | .consumer _ => .consumer
  | .observer _ => .observer

/-- Whose call returns. -/
def Return.thread : Return → Thread
  | .push _ _ => .producer
  | .pop _ => .consumer
  | .size _ | .empty _ | .full _ => .observer

/-- The steps of a call that is refused nothing. -/
def Thread.callSteps : Thread → ℕ
  | .producer | .consumer => 3 + Fintype.card Field
  | .observer => 2

/-! ## The steps to go -/

/-- The steps `push` takes at most until it returns; between two calls, the steps of the next. -/
def Push.toGo : Push → ℕ
  | .idle => 3 + Fintype.card Field
  | .loadedWrite _ _ => 2 + Fintype.card Field
  | .writing _ _ done => 1 + doneᶜ.card

/-- The steps `pop` takes at most until it returns. -/
def Pop.toGo : Pop → ℕ
  | .idle => 3 + Fintype.card Field
  | .loadedRead _ _ => 2 + Fintype.card Field
  | .reading _ _ done => 1 + doneᶜ.card

/-- The steps an observer takes until it returns. -/
def Observe.toGo : Observe → ℕ
  | .idle => 2
  | .loadedWrite _ _ => 1

/-- A field more is copied, a field fewer is left. -/
theorem card_compl_insert {done : Finset Field} {f : Field} (hf : f ∉ done) :
    (insert f done)ᶜ.card + 1 = doneᶜ.card := by
  rw [Finset.compl_insert, Finset.card_erase_add_one (Finset.mem_compl.mpr hf)]

theorem Push.Moves.toGo {q q' : LockFreeQueue} {p p' : Push} {e : PushEvent} {os : List Return}
    (h : Push.Moves q p e q' p' os) :
    p'.toGo + 1 ≤ p.toGo + Thread.producer.callSteps * os.countP (·.thread = .producer) := by
  cases h with
  | field hf =>
    have hcard := card_compl_insert hf
    simp only [Push.toGo, List.countP_nil]
    omega
  | _ => simp [Push.toGo, Thread.callSteps, Return.thread]; try omega

theorem Pop.Moves.toGo {q q' : LockFreeQueue} {p p' : Pop} {e : PopEvent} {os : List Return}
    (h : Pop.Moves q p e q' p' os) :
    p'.toGo + 1 ≤ p.toGo + Thread.consumer.callSteps * os.countP (·.thread = .consumer) := by
  cases h with
  | field hf =>
    have hcard := card_compl_insert hf
    simp only [Pop.toGo, List.countP_nil]
    omega
  | _ => simp [Pop.toGo, Thread.callSteps, Return.thread]; try omega

theorem Observe.Moves.toGo {q : LockFreeQueue} {t t' : Observe} {e : ObserveEvent}
    {os : List Return} (h : Observe.Moves q t e t' os) :
    t'.toGo + 1 ≤ t.toGo + Thread.observer.callSteps * os.countP (·.thread = .observer) := by
  cases h with
  | loadWrite query => simp [Observe.toGo]
  | @loadRead query _ =>
    cases query <;> simp [Observe.toGo, Thread.callSteps, answer, Return.thread]

/-- The steps a thread takes at most until its call returns. -/
def Threads.toGo (s : Threads) : Thread → ℕ
  | .producer => s.producer.toGo
  | .consumer => s.consumer.toGo
  | .observer => s.observer.toGo

/-- A thread has a step to go… -/
theorem Threads.toGo_pos (s : Threads) (t : Thread) : 0 < s.toGo t := by
  obtain ⟨q, p, c, o⟩ := s
  cases t
  case producer => cases p <;> simp only [toGo, Push.toGo] <;> omega
  case consumer => cases c <;> simp only [toGo, Pop.toGo] <;> omega
  case observer => cases o <;> simp only [toGo, Observe.toGo] <;> omega

/-- …and never more than a call has. -/
theorem Threads.toGo_le (s : Threads) (t : Thread) : s.toGo t ≤ t.callSteps := by
  have hcard (done : Finset Field) : doneᶜ.card ≤ Fintype.card Field := Finset.card_le_univ _
  obtain ⟨q, p, c, o⟩ := s
  cases t
  case producer =>
    cases p with
    | writing _ _ done => have := hcard done; simp only [toGo, Push.toGo, Thread.callSteps]; omega
    | _ => simp [toGo, Push.toGo, Thread.callSteps]
  case consumer =>
    cases c with
    | reading _ _ done => have := hcard done; simp only [toGo, Pop.toGo, Thread.callSteps]; omega
    | _ => simp [toGo, Pop.toGo, Thread.callSteps]
  case observer => cases o <;> simp [toGo, Observe.toGo, Thread.callSteps]

/-- A thread's own steps bring it closer to its return, and nobody else's take it away. -/
theorem Moves.toGo {s s' : Threads} {e : Event} {os : List Return} (h : Moves s e s' os)
    (t : Thread) :
    s'.toGo t + [e].countP (·.thread = t) ≤
      s.toGo t + t.callSteps * os.countP (·.thread = t) := by
  cases h with
  | producer h =>
    cases t
    case producer => simpa [Event.thread, Threads.toGo] using h.toGo
    all_goals simp [Event.thread, Threads.toGo]
  | consumer h =>
    cases t
    case consumer => simpa [Event.thread, Threads.toGo] using h.toGo
    all_goals simp [Event.thread, Threads.toGo]
  | observer h =>
    cases t
    case observer => simpa [Event.thread, Threads.toGo] using h.toGo
    all_goals simp [Event.thread, Threads.toGo]

/-! ## No call waits -/

/-- A copy that is not done has a field to go. -/
theorem exists_field_notMem {done : Finset Field} (hdone : done ≠ Finset.univ) :
    ∃ f, f ∉ done := by
  simpa [Finset.eq_univ_iff_forall] using hdone

/-- **A thread is never stuck**, wherever it and the others stand. -/
theorem Threads.exists_step (s : Threads) (t : Thread) :
    ∃ e s' os, e.thread = t ∧ threads.step s e = some (s', os) := by
  obtain ⟨q, p, c, o⟩ := s
  cases t
  case producer =>
    cases p with
    | idle => exact ⟨.producer (.loadWrite .zero), _, _, rfl, rfl⟩
    | loadedWrite packet writeIdx =>
      refine ⟨.producer .loadRead, ?_⟩
      by_cases hfull : q.mCapacity ≤ writeIdx - q.mReadIndex <;>
        simp [Event.thread, threads, Push.step, hfull]
    | writing packet writeIdx done =>
      by_cases hdone : done = Finset.univ
      · exact ⟨.producer .store, by simp [Event.thread, threads, Push.step, hdone]⟩
      · obtain ⟨f, hf⟩ := exists_field_notMem hdone
        exact ⟨.producer (.field f), by simp [Event.thread, threads, Push.step, hf]⟩
  case consumer =>
    cases c with
    | idle => exact ⟨.consumer (.loadRead .zero), _, _, rfl, rfl⟩
    | loadedRead packet readIdx =>
      refine ⟨.consumer .loadWrite, ?_⟩
      by_cases hempty : readIdx = q.mWriteIndex <;>
        simp [Event.thread, threads, Pop.step, hempty]
    | reading packet readIdx done =>
      by_cases hdone : done = Finset.univ
      · exact ⟨.consumer .store, by simp [Event.thread, threads, Pop.step, hdone]⟩
      · obtain ⟨f, hf⟩ := exists_field_notMem hdone
        exact ⟨.consumer (.field f), by simp [Event.thread, threads, Pop.step, hf]⟩
  case observer =>
    cases o with
    | idle => exact ⟨.observer (.loadWrite .size), _, _, rfl, rfl⟩
    | loadedWrite query writeIdx => exact ⟨.observer .loadRead, _, _, rfl, rfl⟩

/-- **So many steps, so many returns**: whatever the others do, a thread has not taken the steps of
one call more than it has returned from. -/
theorem countP_thread_lt {s s' : Threads} {es : List Event} {os : List Return} (t : Thread)
    (hrun : threads.run s es = some (s', os)) :
    es.countP (·.thread = t) < t.callSteps * (os.countP (·.thread = t) + 1) := by
  have hpot := threads.run_potential (·.thread = t) (·.thread = t) t.callSteps (·.toGo t)
    (I := fun _ => True) (fun _ _ _ _ _ _ => trivial)
    (fun _ _ _ _ _ hs => (moves_of_step hs).toGo t) trivial hrun
  have hpos := s'.toGo_pos t
  have hle := s.toGo_le t
  rw [Nat.mul_add, Nat.mul_one]
  omega

/-- **The queue is wait-free**: from any state and whatever the other threads do, a thread returns
from its call within the steps of a call; and it can take them, with the others standing still
wherever they are. -/
theorem waitFree (s : Threads) (t : Thread) :
    (∀ es s' os, threads.run s es = some (s', os) →
      t.callSteps ≤ es.countP (·.thread = t) → ∃ ret ∈ os, ret.thread = t) ∧
    ∃ es s' os, (∀ e ∈ es, e.thread = t) ∧ es.length = t.callSteps ∧
      threads.run s es = some (s', os) ∧ ∃ ret ∈ os, ret.thread = t := by
  have hreturns : ∀ es s' os, threads.run s es = some (s', os) →
      t.callSteps ≤ es.countP (·.thread = t) → ∃ ret ∈ os, ret.thread = t := by
    intro es s' os hrun hown
    have hlt := countP_thread_lt t hrun
    by_contra hnone
    have hzero : os.countP (·.thread = t) = 0 :=
      List.countP_eq_zero.mpr fun ret hret hmine => hnone ⟨ret, hret, of_decide_eq_true hmine⟩
    rw [hzero] at hlt
    omega
  obtain ⟨es, s', os, hown, hlen, hrun⟩ := threads.exists_run_own (·.thread = t)
    (I := fun _ => True) (fun _ _ _ _ _ _ => trivial)
    (fun s _ => by simpa using s.exists_step t) trivial t.callSteps
  have hall : es.countP (·.thread = t) = t.callSteps := by
    rw [List.countP_eq_length.mpr hown, hlen]
  exact ⟨hreturns, es, s', os, fun e he => of_decide_eq_true (hown e he), hlen, hrun,
    hreturns es s' os hrun hall.ge⟩

end LockFreeQueue

end BioShield
