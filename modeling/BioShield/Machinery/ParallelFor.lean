import BioShield.Machinery.Process
import Mathlib

/-!
# Machinery/ParallelFor — the iterations of a loop, interleaved access by access

A parallel loop runs its iterations on one memory in any interleaving of their loads and stores.

    what an iteration reads and writes   `Footprint`
    no iteration writes there for another   `Footprint.Apart`

Under `Apart` the loop has one outcome, whatever the schedule: each iteration leaves in its own
cells what it would alone (`Ends.apart`), as the plain loop does (`ends_serial`).
-/

namespace Machinery

/-- An access to memory. -/
inductive Access (A V : Type) : Type
  | load (a : A)
  | store (a : A) (v : V)

namespace Access

variable {A V : Type}

/-- What an access answers. -/
abbrev Answer : Access A V → Type
  | .load _ => V
  | .store _ _ => Unit

/-- The access, on a memory. -/
def run [DecidableEq A] (m : A → V) : (c : Access A V) → c.Answer × (A → V)
  | .load a => (m a, m)
  | .store a v => ((), Function.update m a v)

/-- The access keeps to the cells it may read and write. -/
def Within (reads writes : Set A) : Access A V → Prop
  | .load a => a ∈ reads
  | .store a _ => a ∈ writes

variable [DecidableEq A] {reads writes : Set A} {c : Access A V} {m m' : A → V}

/-- An access changes only what it may write… -/
theorem Within.run_apply (h : c.Within reads writes) {a : A} (ha : a ∉ writes) :
    (c.run m).2 a = m a := by
  cases c with
  | load b => rfl
  | store b v =>
    refine Function.update_of_ne ?_ _ _
    rintro rfl
    exact ha h

/-- …answers by what it may read… -/
theorem Within.run_fst (h : c.Within reads writes) (hm : ∀ a ∈ reads ∪ writes, m a = m' a) :
    (c.run m).1 = (c.run m').1 := by
  cases c with
  | load b => exact hm b (.inl h)
  | store b v => rfl

/-- …and keeps two memories the same where they are. -/
theorem run_congr {a : A} (ha : m a = m' a) : (c.run m).2 a = (c.run m').2 a := by
  cases c with
  | load b => exact ha
  | store b v =>
    by_cases hab : a = b
    · subst hab
      simp [Access.run]
    · simpa [Access.run, Function.update_of_ne hab] using ha

end Access

/-! ## Programs on memory -/

section Memory

variable {A V α β ι : Type}

/-- A program that loads and stores. -/
abbrev MemProg (A V α : Type) : Type := Prog (Access A V) Access.Answer α

namespace MemProg

/-- Every access of the program, on every branch, keeps to its cells. -/
def Within (reads writes : Set A) (p : MemProg A V α) : Prop :=
  p.Each (fun _ c => c.Within reads writes) []

variable {reads writes : Set A}

theorem within_ret (a : α) : Within reads writes (.ret a : MemProg A V α) := trivial

/-- What an access keeps to does not depend on those before it. -/
theorem each_iff_within {p : MemProg A V α} {h : List (Reply (Access A V) Access.Answer)} :
    p.Each (fun _ c => c.Within reads writes) h ↔ p.Within reads writes := by
  induction p generalizing h with
  | ret a => exact Iff.rfl
  | call c k ih =>
    simp only [Within, Prog.each_call, List.nil_append]
    exact and_congr_right fun _ => forall_congr' fun r => (ih r).trans (ih r).symm

theorem within_call {c : Access A V} {k : c.Answer → MemProg A V α} :
    Within reads writes (.call c k : MemProg A V α) ↔
      c.Within reads writes ∧ ∀ r, (k r).Within reads writes :=
  and_congr_right fun _ => forall_congr' fun _ => each_iff_within

theorem Within.bind {p : MemProg A V α} {f : α → MemProg A V β} (hp : p.Within reads writes)
    (hf : ∀ a, (f a).Within reads writes) : Within reads writes (p >>= f) := by
  induction p with
  | ret a => exact hf a
  | call c k ih =>
    obtain ⟨hc, hk⟩ := within_call.mp hp
    exact within_call.mpr ⟨hc, fun r => ih r (hk r)⟩

variable [DecidableEq A]

/-- The program run alone: its result and the memory it leaves. -/
abbrev alone (p : MemProg A V α) (m : A → V) : α × (A → V) := p.exec Access.run m

theorem alone_bind (p : MemProg A V α) (f : α → MemProg A V β) (m : A → V) :
    alone (p >>= f) m = (f (p.alone m).1).alone (p.alone m).2 := by
  induction p generalizing m with
  | ret a => rfl
  | call c k ih => exact ih _ _

end MemProg

/-! ## The loop -/

/-- **The parallel loop**: iterations are started at will, and interleaved access by access. -/
def parallelFor [DecidableEq A] (body : ι → MemProg A V Unit) :
    Machine (Pool (A → V) ι (Access A V) Access.Answer Unit) (Sched ι Unit)
      (Done ι (Access A V) Access.Answer) :=
  pool body fun _ => Access.run

/-- The loop over the iterations `l` has run on `m`, all of it, and left `m'`. -/
def Ends [DecidableEq A] (body : ι → MemProg A V Unit) (l : List ι) (m m' : A → V) : Prop :=
  ∃ es s os, (parallelFor body).run ⟨m, []⟩ es = some (s, os) ∧
    (s.runs.map Process.request).Perm l ∧ (∀ p ∈ s.runs, p.rest = .ret ()) ∧ s.world = m'

/-- The plain loop. -/
def serial [DecidableEq A] (body : ι → MemProg A V Unit) (l : List ι) (m : A → V) : A → V :=
  l.foldl (fun m i => ((body i).alone m).2) m

/-- The plain loop changes only what its iterations may. -/
theorem serial_apply [DecidableEq A] {body : ι → MemProg A V Unit} {l : List ι} {a : A}
    (h : ∀ i ∈ l, ∀ m, ((body i).alone m).2 a = m a) (m : A → V) : serial body l m a = m a := by
  induction l generalizing m with
  | nil => rfl
  | cons i l ih =>
    exact (ih (fun j hj => h j (List.mem_cons_of_mem _ hj)) _).trans (h i List.mem_cons_self m)

/-- The cells an iteration keeps to. -/
structure Footprint (body : ι → MemProg A V Unit) where
  reads : ι → Set A
  writes : ι → Set A
  within : ∀ i, (body i).Within (reads i) (writes i)

/-- No iteration of `l` writes where another one reads or writes. -/
def Footprint.Apart {body : ι → MemProg A V Unit} (F : Footprint body) (l : List ι) : Prop :=
  ∀ i ∈ l, ∀ j ∈ l, i ≠ j → ∀ a ∈ F.writes i, a ∉ F.reads j ∪ F.writes j

section Outcome

variable [DecidableEq A] {body : ι → MemProg A V Unit} {l : List ι} {m m' : A → V}

/-- While the loop runs: what is left of an iteration ends as the iteration would alone, on a memory
that is the present one as far as it can see, and what no iteration writes is as it was. -/
def Footprint.Undisturbed (F : Footprint body) (m : A → V)
    (s : Pool (A → V) ι (Access A V) Access.Answer Unit) : Prop :=
  (∀ p ∈ s.runs, ∃ m', MemProg.alone p.rest m' = (body p.request).alone m ∧
      ∀ a ∈ F.reads p.request ∪ F.writes p.request, s.world a = m' a) ∧
    ∀ a, (∀ p ∈ s.runs, a ∉ F.writes p.request) → s.world a = m a

/-- A new iteration finds what it sees as it was. -/
theorem Footprint.Undisturbed.start {F : Footprint body} (hF : F.Apart l)
    {runs : List (Process ι (Access A V) Access.Answer Unit)} {i : ι}
    (hnodup : ((runs.map Process.request) ++ [i]).Nodup)
    (hl : ∀ j ∈ (runs.map Process.request) ++ [i], j ∈ l)
    (h : F.Undisturbed m ⟨m', runs⟩) : F.Undisturbed m ⟨m', runs ++ [⟨i, [], body i⟩]⟩ := by
  refine ⟨fun p hp => ?_, fun a ha => h.2 a fun p hp => ha p (List.mem_append_left _ hp)⟩
  rcases List.mem_append.mp hp with hp | hp
  · exact h.1 p hp
  obtain rfl := List.mem_singleton.mp hp
  refine ⟨m, rfl, fun a ha => h.2 a fun q hq haq => ?_⟩
  have hmem : q.request ∈ runs.map Process.request := List.mem_map_of_mem hq
  have hne : q.request ≠ i := fun heq =>
    (List.nodup_append.mp hnodup).2.2 q.request hmem i (List.mem_singleton_self i) heq
  exact hF q.request (hl _ (List.mem_append_left _ hmem)) i (hl _ (by simp)) hne a haq ha

/-- An access of one iteration is not seen by the others. -/
theorem Footprint.Undisturbed.advance {F : Footprint body} (hF : F.Apart l)
    {pre post : List (Process ι (Access A V) Access.Answer Unit)} {i : ι}
    {hist hist' : List (Reply (Access A V) Access.Answer)} {c : Access A V}
    {k : c.Answer → MemProg A V Unit}
    (hnodup : ((pre ++ ⟨i, hist, .call c k⟩ :: post).map Process.request).Nodup)
    (hl : ∀ j ∈ (pre ++ ⟨i, hist, .call c k⟩ :: post).map Process.request, j ∈ l)
    (hc : c.Within (F.reads i) (F.writes i))
    (h : F.Undisturbed m ⟨m', pre ++ ⟨i, hist, .call c k⟩ :: post⟩) :
    F.Undisturbed m ⟨(c.run m').2, pre ++ ⟨i, hist', k (c.run m').1⟩ :: post⟩ := by
  have hi : i ∈ l := hl i (by simp)
  have hother : ∀ p, p ∈ pre ∨ p ∈ post → ∃ m'',
      MemProg.alone p.rest m'' = (body p.request).alone m ∧
        ∀ a ∈ F.reads p.request ∪ F.writes p.request, (c.run m').2 a = m'' a := by
    intro p hp
    have hmem : p ∈ pre ++ ⟨i, hist, .call c k⟩ :: post := by
      simp only [List.mem_append, List.mem_cons]
      tauto
    have hne : i ≠ p.request := by
      rintro rfl
      rw [List.map_append, List.map_cons] at hnodup
      rcases hp with hp | hp
      · exact (List.nodup_append.mp hnodup).2.2 _ (List.mem_map_of_mem hp) _
          List.mem_cons_self rfl
      · exact (List.nodup_cons.mp (List.nodup_append.mp hnodup).2.1).1
          (List.mem_map.mpr ⟨p, hp, rfl⟩)
    obtain ⟨m'', hrest, hsame⟩ := h.1 p hmem
    refine ⟨m'', hrest, fun a ha => ?_⟩
    have hna : a ∉ F.writes i := fun haw =>
      hF i hi p.request (hl _ (List.mem_map_of_mem hmem)) hne a haw ha
    exact (hc.run_apply hna).trans (hsame a ha)
  constructor
  · intro p hp
    rcases List.mem_append.mp hp with hp | hp
    · exact hother p (.inl hp)
    rcases List.mem_cons.mp hp with rfl | hp
    · obtain ⟨m'', hrest, hsame⟩ := h.1 ⟨i, hist, .call c k⟩ (by simp)
      refine ⟨(c.run m'').2, ?_, fun a ha => Access.run_congr (hsame a ha)⟩
      rw [← hrest, hc.run_fst hsame]
      rfl
    · exact hother p (.inr hp)
  · intro a ha
    have hna : a ∉ F.writes i := ha ⟨i, hist', k (c.run m').1⟩ (by simp)
    refine (hc.run_apply hna).trans (h.2 a fun p hp => ?_)
    rcases List.mem_append.mp hp with hp | hp
    · exact ha p (List.mem_append_left _ hp)
    · rcases List.mem_cons.mp hp with rfl | hp
      · exact hna
      · exact ha p (List.mem_append_right _ (List.mem_cons_of_mem _ hp))

/-- No schedule disturbs iterations that are apart. -/
theorem Footprint.undisturbed_of_run (F : Footprint body) (hF : F.Apart l)
    {es : List (Sched ι Unit)} {s : Pool (A → V) ι (Access A V) Access.Answer Unit}
    {os : List (Done ι (Access A V) Access.Answer)}
    (hrun : (parallelFor body).run ⟨m, []⟩ es = some (s, os))
    (hnodup : (s.runs.map Process.request).Nodup) (hl : ∀ i ∈ s.runs.map Process.request, i ∈ l) :
    F.Undisturbed m s := by
  refine ((parallelFor body).run_invariant (I := fun s _ => Pool.Faithful body s ∧
    ((s.runs.map Process.request).Nodup → (∀ i ∈ s.runs.map Process.request, i ∈ l) →
      F.Undisturbed m s)) (fun s os e s' o hI hs => ?_)
    ⟨Pool.faithful_nil m, fun _ _ => ⟨by simp, fun _ _ => rfl⟩⟩ hrun).2 hnodup hl
  have hmoves := Pool.moves_of_step hs
  refine ⟨hmoves.faithful hI.1, fun hnodup hl => ?_⟩
  cases hmoves with
  | start w runs q =>
    rw [List.map_append] at hnodup hl
    exact (hI.2 (List.nodup_append.mp hnodup).1 fun i hi =>
      hl i (List.mem_append_left _ hi)).start hF hnodup hl
  | advance w pre post q hist c k x =>
    have hsame : ∀ hist' (r : c.Answer), (pre ++ ⟨q, hist', k r⟩ :: post).map Process.request =
        (pre ++ ⟨q, hist, .call c k⟩ :: post).map Process.request := by
      simp
    rw [hsame] at hnodup hl
    have hres : Prog.Residual (body q) hist (.call c k) := hI.1 ⟨q, hist, .call c k⟩ (by simp)
    have hc : c.Within (F.reads q) (F.writes q) := ((F.within q).of_residual hres).1
    exact (hI.2 hnodup hl).advance hF hnodup hl hc

/-- **One outcome**: a loop whose iterations are apart leaves in the cells of each what it leaves
there alone… -/
theorem Ends.apart (F : Footprint body) (hF : F.Apart l) (hl : l.Nodup) (h : Ends body l m m')
    {i : ι} (hi : i ∈ l) {a : A} (ha : a ∈ F.writes i) : m' a = ((body i).alone m).2 a := by
  obtain ⟨es, s, os, hrun, hperm, hret, rfl⟩ := h
  obtain ⟨hruns, -⟩ := F.undisturbed_of_run hF hrun (hperm.nodup_iff.mpr hl)
    fun i => hperm.mem_iff.mp
  obtain ⟨p, hp, rfl⟩ := List.mem_map.mp (hperm.mem_iff.mpr hi)
  obtain ⟨m', hrest, hsame⟩ := hruns p hp
  rw [hsame a (.inr ha), ← hrest, hret p hp]
  rfl

/-- …and the rest as it was. -/
theorem Ends.apart_of_notMem (F : Footprint body) (hF : F.Apart l) (hl : l.Nodup)
    (h : Ends body l m m') {a : A} (ha : ∀ i ∈ l, a ∉ F.writes i) : m' a = m a := by
  obtain ⟨es, s, os, hrun, hperm, -, rfl⟩ := h
  obtain ⟨-, hrest⟩ := F.undisturbed_of_run hF hrun (hperm.nodup_iff.mpr hl)
    fun i => hperm.mem_iff.mp
  exact hrest a fun p hp => ha _ (hperm.mem_iff.mp (List.mem_map_of_mem hp))

/-- So two schedules end alike. -/
theorem Ends.unique (F : Footprint body) (hF : F.Apart l) (hl : l.Nodup) {m₁ m₂ : A → V}
    (h₁ : Ends body l m m₁) (h₂ : Ends body l m m₂) : m₁ = m₂ := by
  funext a
  by_cases ha : ∃ i ∈ l, a ∈ F.writes i
  · obtain ⟨i, hi, hai⟩ := ha
    rw [h₁.apart F hF hl hi hai, h₂.apart F hF hl hi hai]
  · have hnone : ∀ i ∈ l, a ∉ F.writes i := fun i hi hai => ha ⟨i, hi, hai⟩
    rw [h₁.apart_of_notMem F hF hl hnone, h₂.apart_of_notMem F hF hl hnone]

end Outcome

/-! ## Schedules that exist -/

section Schedules

variable [DecidableEq A] (body : ι → MemProg A V Unit)

/-- An iteration can run the first part of what is left of it undisturbed… -/
theorem exists_run_bind (p : MemProg A V α) (f : α → MemProg A V Unit) (m : A → V) (i : ι)
    (hist : List (Reply (Access A V) Access.Answer))
    (pre post : List (Process ι (Access A V) Access.Answer Unit)) :
    ∃ es os hist', (parallelFor body).run ⟨m, pre ++ ⟨i, hist, p >>= f⟩ :: post⟩ es =
      some (⟨(p.alone m).2, pre ++ ⟨i, hist', f (p.alone m).1⟩ :: post⟩, os) := by
  induction p generalizing m hist with
  | ret a => exact ⟨[], [], hist, rfl⟩
  | call c k ih =>
    obtain ⟨es, os, hist', hrun⟩ := ih (c.run m).1 (c.run m).2 (hist ++ [⟨c, (c.run m).1⟩])
    have hstep : (parallelFor body).step ⟨m, pre ++ ⟨i, hist, .call c k >>= f⟩ :: post⟩
        (.advance pre.length ()) = some (⟨(c.run m).2,
          pre ++ ⟨i, hist ++ [⟨c, (c.run m).1⟩], k (c.run m).1 >>= f⟩ :: post⟩,
          [⟨pre.length, i, c, (c.run m).1⟩]) := by
      simp [parallelFor, pool]
    exact ⟨_, _, hist', (parallelFor body).run_cons hstep hrun⟩

/-- …and all of it… -/
theorem exists_run_finish (p : MemProg A V Unit) (m : A → V) (i : ι)
    (hist : List (Reply (Access A V) Access.Answer))
    (pre post : List (Process ι (Access A V) Access.Answer Unit)) :
    ∃ es os hist', (parallelFor body).run ⟨m, pre ++ ⟨i, hist, p⟩ :: post⟩ es =
      some (⟨(p.alone m).2, pre ++ ⟨i, hist', .ret ()⟩ :: post⟩, os) := by
  have hrun := exists_run_bind body p .ret m i hist pre post
  rwa [Prog.bind_ret] at hrun

/-- …so it can run from its start to its end. -/
theorem exists_run_start (m : A → V) (i : ι)
    (runs : List (Process ι (Access A V) Access.Answer Unit)) :
    ∃ es os hist, (parallelFor body).run ⟨m, runs⟩ es =
      some (⟨((body i).alone m).2, runs ++ [⟨i, hist, .ret ()⟩]⟩, os) := by
  have hstart : (parallelFor body).step ⟨m, runs⟩ (.start i) =
      some (⟨m, runs ++ [⟨i, [], body i⟩]⟩, []) := rfl
  obtain ⟨es, os, hist, hrun⟩ := exists_run_finish body (body i) m i [] runs []
  exact ⟨_, _, hist, (parallelFor body).run_cons hstart hrun⟩

/-- From a pool that is at rest, the iterations `l` can run one after the other. -/
theorem exists_run_serial (l : List ι) (m : A → V)
    (runs : List (Process ι (Access A V) Access.Answer Unit))
    (hret : ∀ p ∈ runs, p.rest = .ret ()) :
    ∃ es os runs', (parallelFor body).run ⟨m, runs⟩ es = some (⟨serial body l m, runs'⟩, os) ∧
      runs'.map Process.request = runs.map Process.request ++ l ∧
      ∀ p ∈ runs', p.rest = .ret () := by
  induction l generalizing m runs with
  | nil => exact ⟨[], [], runs, rfl, by simp, hret⟩
  | cons i l ih =>
    obtain ⟨es, os, hist, hrun⟩ := exists_run_start body m i runs
    have hret' : ∀ p ∈ runs ++ [⟨i, hist, .ret ()⟩], p.rest = .ret () := by
      simpa [or_imp, forall_and] using hret
    obtain ⟨es', os', runs', hrun', hreq, hdone⟩ := ih _ _ hret'
    refine ⟨es ++ es', os ++ os', runs', ?_, by simpa using hreq, hdone⟩
    exact ((parallelFor body).run_append_iff).mpr ⟨_, os, os', hrun, hrun', rfl⟩

/-- **The plain loop is a schedule**, in any order of the iterations. -/
theorem ends_serial {l l' : List ι} (hperm : l'.Perm l) (m : A → V) :
    Ends body l m (serial body l' m) := by
  obtain ⟨es, os, runs, hrun, hreq, hret⟩ :=
    exists_run_serial body l' m [] (by simp)
  exact ⟨es, _, os, hrun, by simpa [hreq] using hperm, hret, rfl⟩

end Schedules

end Memory

end Machinery
