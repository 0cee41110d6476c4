import Mathlib.Data.List.Basic
import Mathlib.Data.List.Induction
import Mathlib.Tactic.Common

/-!
# Machinery/Machine — runs of a machine under a schedule

A `Machine` is a partial step function: an event, where the state enables it, moves the state and
emits outputs.  Everything the environment decides (who moves next, what an outside call answers)
sits in the event, so a list of events is a schedule and `run` is a function.

These rules carry every result about runs:

* `run_invariant` — a relation between a state and the outputs so far, kept by each step, holds
  after every run; `run_invariant_along` is the same for the schedules whose steps all meet a guard,
  and `run_history` for a relation that speaks of the events so far;
* `along_iff` — a property of single steps holds all along a run as soon as it follows from the
  guard under the invariant; `forall_prefix_iff_along` reads such a property off the states and
  outputs at every moment of the run;
* `run_potential` — own steps of a thread against what it gets done: what each step does to a
  potential, a run does; `exists_run_own` — a thread that is never stuck runs as long as it likes;
* `run_refines` — a simulation of single steps is a simulation of runs; `run_project` is the case of
  a component that is a machine itself.
-/

namespace Machinery

/-- **A machine**: in a state, an enabled event gives the next state and what the step emits. -/
structure Machine (σ ε ω : Type*) where
  /-- One step; `none` when the event is not enabled. -/
  step : σ → ε → Option (σ × List ω)

variable {σ ε ω τ : Type*}

namespace Machine

variable (M : Machine σ ε ω)

/-- The run of a schedule: the final state and all outputs, in order. -/
def run : σ → List ε → Option (σ × List ω)
  | s, [] => some (s, [])
  | s, e :: es =>
      match M.step s e with
      | none => none
      | some (s₁, o) => (run s₁ es).map fun r => (r.1, o ++ r.2)

@[simp] theorem run_nil (s : σ) : M.run s [] = some (s, []) := rfl

theorem run_cons_iff {s s₂ : σ} {e : ε} {es : List ε} {os : List ω} :
    M.run s (e :: es) = some (s₂, os) ↔
      ∃ s₁ o o', M.step s e = some (s₁, o) ∧ M.run s₁ es = some (s₂, o') ∧ os = o ++ o' := by
  constructor
  · intro h
    rw [run] at h
    cases hs : M.step s e with
    | none => rw [hs] at h; cases h
    | some r =>
      obtain ⟨s₁, o⟩ := r
      rw [hs] at h
      obtain ⟨⟨t, o'⟩, hr, heq⟩ := Option.map_eq_some_iff.mp h
      obtain ⟨rfl, rfl⟩ := Prod.mk.inj heq
      exact ⟨s₁, o, o', rfl, hr, rfl⟩
  · rintro ⟨s₁, o, o', hs, hr, rfl⟩
    simp only [run, hs, hr, Option.map_some]

/-- A step before a run. -/
theorem run_cons {s s₁ s₂ : σ} {e : ε} {es : List ε} {o o' : List ω}
    (h : M.step s e = some (s₁, o)) (h' : M.run s₁ es = some (s₂, o')) :
    M.run s (e :: es) = some (s₂, o ++ o') :=
  (run_cons_iff M).mpr ⟨s₁, o, o', h, h', rfl⟩

/-- A single step is a run. -/
theorem run_singleton {s s' : σ} {e : ε} {o : List ω} (h : M.step s e = some (s', o)) :
    M.run s [e] = some (s', o) := by
  simpa only [List.append_nil] using M.run_cons h (M.run_nil s')

/-- **Runs compose**: a run of `es ++ es'` is a run of `es` followed by one of `es'`. -/
theorem run_append_iff {s s₂ : σ} {es es' : List ε} {os : List ω} :
    M.run s (es ++ es') = some (s₂, os) ↔
      ∃ s₁ o o', M.run s es = some (s₁, o) ∧ M.run s₁ es' = some (s₂, o') ∧ os = o ++ o' := by
  induction es generalizing s os with
  | nil =>
    constructor
    · exact fun h => ⟨s, [], os, rfl, h, rfl⟩
    · rintro ⟨s₁, o, o', h, h', rfl⟩
      obtain ⟨rfl, rfl⟩ := Prod.mk.inj (Option.some.inj h)
      exact h'
  | cons e es ih =>
    rw [List.cons_append, run_cons_iff]
    constructor
    · rintro ⟨s₁, o, o', hs, hr, rfl⟩
      obtain ⟨t, p, p', hp, hp', rfl⟩ := ih.mp hr
      exact ⟨t, o ++ p, p', M.run_cons hs hp, hp', (List.append_assoc o p p').symm⟩
    · rintro ⟨t, q, p', hq, hp', rfl⟩
      obtain ⟨s₁, o, p, hs, hp, rfl⟩ := (run_cons_iff M).mp hq
      exact ⟨s₁, o, p ++ p', hs, ih.mpr ⟨t, p, p', hp, hp', rfl⟩, List.append_assoc o p p'⟩

/-! ## Guards along a run -/

/-- Every step the schedule takes from `s` meets the guard `G`, a condition on the state before the
step and the event. -/
def Along (G : σ → ε → Prop) : σ → List ε → Prop
  | _, [] => True
  | s, e :: es => G s e ∧ ∀ s' o, M.step s e = some (s', o) → Along G s' es

@[simp] theorem along_nil (G : σ → ε → Prop) (s : σ) : M.Along G s [] := trivial

theorem along_cons {G : σ → ε → Prop} {s s' : σ} {e : ε} {es : List ε} {o : List ω}
    (hs : M.step s e = some (s', o)) (hG : G s e) (h : M.Along G s' es) :
    M.Along G s (e :: es) := by
  refine ⟨hG, fun t p ht => ?_⟩
  obtain ⟨rfl, -⟩ := Prod.mk.inj (Option.some.inj (hs.symm.trans ht))
  exact h

/-- A guard that only some events can fail is met where none of them occurs. -/
theorem along_of_forall {G : σ → ε → Prop} {s : σ} {es : List ε} (h : ∀ e ∈ es, ∀ s, G s e) :
    M.Along G s es := by
  induction es generalizing s with
  | nil => trivial
  | cons e es ih =>
    exact ⟨h e List.mem_cons_self s, fun s' _ _ => ih fun e' he' =>
      h e' (List.mem_cons_of_mem _ he')⟩

/-- A weaker guard is met wherever a stronger one is. -/
theorem along_mono {G H : σ → ε → Prop} (himp : ∀ s e, G s e → H s e) {s : σ} {es : List ε}
    (h : M.Along G s es) : M.Along H s es := by
  induction es generalizing s with
  | nil => trivial
  | cons e es ih => exact ⟨himp s e h.1, fun s' o hs => ih (h.2 s' o hs)⟩

theorem along_true (s : σ) (es : List ε) : M.Along (fun _ _ => True) s es :=
  M.along_of_forall fun _ _ _ => trivial

/-- A schedule guarded as a whole is guarded on each part. -/
theorem along_append_iff {G : σ → ε → Prop} {s s₁ : σ} {es es' : List ε} {o : List ω}
    (h : M.run s es = some (s₁, o)) :
    M.Along G s (es ++ es') ↔ M.Along G s es ∧ M.Along G s₁ es' := by
  induction es generalizing s o with
  | nil =>
    obtain ⟨rfl, rfl⟩ := Prod.mk.inj (Option.some.inj h)
    simp
  | cons e es ih =>
    obtain ⟨t, p, p', hs, hr, rfl⟩ := (run_cons_iff M).mp h
    have htail : ∀ H : σ → Prop, (∀ s' q, M.step s e = some (s', q) → H s') ↔ H t := by
      refine fun H => ⟨fun hH => hH t p hs, fun hH s' q hq => ?_⟩
      obtain ⟨rfl, -⟩ := Prod.mk.inj (Option.some.inj (hs.symm.trans hq))
      exact hH
    simp only [List.cons_append, Along, htail (fun s' => M.Along G s' (es ++ es')),
      htail (fun s' => M.Along G s' es), ih hr, and_assoc]

/-- A relation between a state and the outputs so far that every guarded step keeps is kept by every
run whose steps meet the guard… -/
theorem run_keeps {G : σ → ε → Prop} {I : σ → List ω → Prop}
    (hstep : ∀ s os e s' o, I s os → G s e → M.step s e = some (s', o) → I s' (os ++ o))
    {s s' : σ} {es : List ε} {os os' : List ω} (hI : I s os) (hG : M.Along G s es)
    (hrun : M.run s es = some (s', os')) : I s' (os ++ os') := by
  induction es generalizing s os os' with
  | nil =>
    obtain ⟨rfl, rfl⟩ := Prod.mk.inj (Option.some.inj hrun)
    rwa [List.append_nil]
  | cons e es ih =>
    obtain ⟨s₁, o, o', hs, hr, rfl⟩ := (run_cons_iff M).mp hrun
    rw [← List.append_assoc]
    exact ih (hstep s os e s₁ o hI hG.1 hs) (hG.2 s₁ o hs) hr

/-- …so it holds after the run if it does before. **The invariant rule, guarded.** -/
theorem run_invariant_along {G : σ → ε → Prop} {I : σ → List ω → Prop}
    (hstep : ∀ s os e s' o, I s os → G s e → M.step s e = some (s', o) → I s' (os ++ o))
    {s s' : σ} {es : List ε} {os : List ω} (hI : I s []) (hG : M.Along G s es)
    (hrun : M.run s es = some (s', os)) : I s' os :=
  M.run_keeps hstep hI hG hrun

/-- **The invariant rule.** -/
theorem run_invariant {I : σ → List ω → Prop}
    (hstep : ∀ s os e s' o, I s os → M.step s e = some (s', o) → I s' (os ++ o))
    {s s' : σ} {es : List ε} {os : List ω} (hI : I s [])
    (hrun : M.run s es = some (s', os)) : I s' os :=
  M.run_invariant_along (G := fun _ _ => True) (fun s os e s' o h _ => hstep s os e s' o h) hI
    (M.along_true s es) hrun

/-- **The invariant rule, with history**: a relation between a state, the events and the outputs so
far. -/
theorem run_history {I : σ → List ε → List ω → Prop}
    (hstep : ∀ s es os e s' o, I s es os → M.step s e = some (s', o) →
      I s' (es ++ [e]) (os ++ o))
    {s s' : σ} {es : List ε} {os : List ω} (hI : I s [] [])
    (hrun : M.run s es = some (s', os)) : I s' es os := by
  induction es using List.reverseRecOn generalizing s' os with
  | nil =>
    obtain ⟨rfl, rfl⟩ := Prod.mk.inj (Option.some.inj hrun)
    exact hI
  | append_singleton es e ih =>
    obtain ⟨s₁, o, o', hr, hlast, rfl⟩ := (run_append_iff M).mp hrun
    obtain ⟨s₂, o₁, o₂, hs, hnil, rfl⟩ := (run_cons_iff M).mp hlast
    obtain ⟨rfl, rfl⟩ := Prod.mk.inj (Option.some.inj hnil)
    rw [List.append_nil]
    exact hstep s₁ es o e s₂ o₁ (ih hr) hs

/-- Two guards that agree under an invariant agree along runs, if the steps that meet the guard keep
the invariant… -/
theorem along_iff_of_keeps {G H : σ → ε → Prop} {I : σ → Prop}
    {s s' : σ} {es : List ε} {os : List ω}
    (hstep : ∀ e ∈ es, ∀ s s' o, I s → G s e → M.step s e = some (s', o) → I s')
    (hiff : ∀ e ∈ es, ∀ s s' o, I s → M.step s e = some (s', o) → (G s e ↔ H s e))
    (hI : I s) (hrun : M.run s es = some (s', os)) : M.Along G s es ↔ M.Along H s es := by
  induction es generalizing s os with
  | nil => exact Iff.rfl
  | cons e es ih =>
    obtain ⟨hstep₁, hstep⟩ := List.forall_mem_cons.mp hstep
    obtain ⟨hiff₁, hiff⟩ := List.forall_mem_cons.mp hiff
    obtain ⟨s₁, o, o', hs, hr, rfl⟩ := (run_cons_iff M).mp hrun
    rw [Along, Along, ← hiff₁ s s₁ o hI hs]
    refine and_congr_right fun hG => forall₃_congr fun t q hq => ?_
    obtain ⟨rfl, -⟩ := Prod.mk.inj (Option.some.inj (hs.symm.trans hq))
    exact ih hstep hiff (hstep₁ s s₁ o hI hG hs) hr

/-- …and in particular if every step does. **Agreement of guards.** -/
theorem along_iff {G H : σ → ε → Prop} {I : σ → Prop}
    (hstep : ∀ s e s' o, I s → M.step s e = some (s', o) → I s')
    (hiff : ∀ s e s' o, I s → M.step s e = some (s', o) → (G s e ↔ H s e))
    {s s' : σ} {es : List ε} {os : List ω} (hI : I s) (hrun : M.run s es = some (s', os)) :
    M.Along G s es ↔ M.Along H s es :=
  M.along_iff_of_keeps (fun e _ s s' o hI _ hs => hstep s e s' o hI hs)
    (fun e _ s s' o => hiff s e s' o) hI hrun

/-- What a run emits is what its steps emit. -/
theorem along_outputs_iff {P : ω → Prop} {s s' : σ} {es : List ε} {os : List ω}
    (hrun : M.run s es = some (s', os)) :
    M.Along (fun s e => ∀ s' o, M.step s e = some (s', o) → ∀ x ∈ o, P x) s es ↔ ∀ x ∈ os, P x := by
  induction es generalizing s os with
  | nil =>
    obtain ⟨rfl, rfl⟩ := Prod.mk.inj (Option.some.inj hrun)
    simp
  | cons e es ih =>
    obtain ⟨s₁, o, o', hs, hr, rfl⟩ := (run_cons_iff M).mp hrun
    simp only [Along, hs, Option.some.injEq, Prod.mk.injEq, List.forall_mem_append, and_imp,
      forall_apply_eq_imp_iff, forall_eq', ih hr]

/-- **What every step establishes, every moment of the run has**, and conversely: `P` holds of each
state reached and `Q` of all that was emitted on the way there. -/
theorem forall_prefix_iff_along {P : σ → Prop} {Q : ω → Prop} {s : σ} {es : List ε} (hP : P s) :
    (∀ pre post s' o, es = pre ++ post → M.run s pre = some (s', o) → P s' ∧ ∀ x ∈ o, Q x) ↔
      M.Along (fun s e => ∀ s' o, M.step s e = some (s', o) → P s' ∧ ∀ x ∈ o, Q x) s es := by
  constructor
  · intro h
    induction es generalizing s with
    | nil => trivial
    | cons e es ih =>
      have hfirst : ∀ s' o, M.step s e = some (s', o) → P s' ∧ ∀ x ∈ o, Q x :=
        fun s' o hs => h [e] es s' o rfl (M.run_singleton hs)
      refine ⟨hfirst, fun s' o hs => ih (hfirst s' o hs).1 fun pre post t p hes hpre => ?_⟩
      have hall := h (e :: pre) post t (o ++ p) (by rw [hes]; rfl)
        ((run_cons_iff M).mpr ⟨s', o, p, hs, hpre, rfl⟩)
      exact ⟨hall.1, fun x hx => hall.2 x (List.mem_append_right o hx)⟩
  · rintro h pre post s' o rfl hpre
    refine M.run_invariant_along (I := fun s os => P s ∧ ∀ x ∈ os, Q x)
      (fun s os e s' o hI hG hs => ?_) ⟨hP, fun x hx => absurd hx List.not_mem_nil⟩
      ((along_append_iff M hpre).mp h).1 hpre
    obtain ⟨hP', hQ⟩ := hG s' o hs
    exact ⟨hP', List.forall_mem_append.mpr ⟨hI.2, hQ⟩⟩

/-- Once `P` holds it holds ever after: between any two moments of the run, it is not lost. -/
def Stays (P : σ → Prop) (s : σ) (es : List ε) : Prop :=
  ∀ pre mid post s₁ s₂ o o', es = pre ++ mid ++ post → M.run s pre = some (s₁, o) →
    M.run s₁ mid = some (s₂, o') → P s₁ → P s₂

/-- **What no step loses, no run loses**, and conversely. -/
theorem stays_iff_along {P : σ → Prop} {s : σ} {es : List ε} :
    M.Stays P s es ↔
      M.Along (fun s e => ∀ s' o, M.step s e = some (s', o) → P s → P s') s es := by
  constructor
  · intro h
    induction es generalizing s with
    | nil => trivial
    | cons e es ih =>
      refine ⟨fun s' o hs => h [] [e] es s s' [] o rfl rfl (M.run_singleton hs), ?_⟩
      intro s' o hs
      refine ih fun pre mid post s₁ s₂ p p' hes hpre hmid => ?_
      exact h (e :: pre) mid post s₁ s₂ (o ++ p) p' (by rw [hes]; rfl)
        ((run_cons_iff M).mpr ⟨s', o, p, hs, hpre, rfl⟩) hmid
  · rintro h pre mid post s₁ s₂ o o' rfl hpre hmid hP
    rw [List.append_assoc, along_append_iff M hpre, along_append_iff M hmid] at h
    exact M.run_invariant_along (I := fun s _ => P s)
      (fun _ _ _ _ _ hI hG hs => hG _ _ hs hI) hP h.2.1 hmid

/-! ## Progress

The steps of one thread are those whose event is its `own`; an output that `pays` is what it is
after, a call that returns. -/

section Progress

variable {I : σ → Prop} (own : ε → Bool)

/-- **The potential rule**: if a step of its own costs a thread one, an output that pays brings it
at most `b`, and what the others do brings it nothing, then own steps come out of the potential and
the payments. -/
theorem run_potential (pays : ω → Bool) (b : ℕ) (μ : σ → ℕ)
    (hkeep : ∀ s e s' o, I s → M.step s e = some (s', o) → I s')
    (hstep : ∀ s e s' o, I s → M.step s e = some (s', o) →
      μ s' + [e].countP own ≤ μ s + b * o.countP pays)
    {s s' : σ} {es : List ε} {os : List ω} (hI : I s) (hrun : M.run s es = some (s', os)) :
    μ s' + es.countP own ≤ μ s + b * os.countP pays := by
  induction es generalizing s os with
  | nil =>
    obtain ⟨rfl, rfl⟩ := Prod.mk.inj (Option.some.inj hrun)
    simp
  | cons e es ih =>
    obtain ⟨s₁, o, o', hs, hr, rfl⟩ := (run_cons_iff M).mp hrun
    have hfirst := hstep s e s₁ o hI hs
    have hrest := ih (hkeep s e s₁ o hI hs) hr
    rw [← List.singleton_append, List.countP_append, List.countP_append, Nat.mul_add]
    omega

/-- **A thread that is never stuck** takes as many steps of its own as it likes. -/
theorem exists_run_own (hkeep : ∀ s e s' o, I s → M.step s e = some (s', o) → I s')
    (hstep : ∀ s, I s → ∃ e s' o, own e = true ∧ M.step s e = some (s', o)) {s : σ} (hI : I s)
    (n : ℕ) :
    ∃ es s' os, (∀ e ∈ es, own e = true) ∧ es.length = n ∧ M.run s es = some (s', os) := by
  induction n generalizing s with
  | zero => exact ⟨[], s, [], by simp, rfl, rfl⟩
  | succ n ih =>
    obtain ⟨e, s₁, o, he, hs⟩ := hstep s hI
    obtain ⟨es, s', os, hes, hlen, hr⟩ := ih (hkeep s e s₁ o hI hs)
    exact ⟨e :: es, s', o ++ os, List.forall_mem_cons.mpr ⟨he, hes⟩,
      congrArg (· + 1) hlen, M.run_cons hs hr⟩

end Progress

/-! ## Machines that answer each event once -/

section Echo

variable {M} {f : ω → ε}
variable (hecho : ∀ s e s' o, M.step s e = some (s', o) → o.map f = [e])

include hecho

/-- The answers of a run tell its schedule… -/
theorem run_echo {s s' : σ} {es : List ε} {os : List ω} (hrun : M.run s es = some (s', os)) :
    os.map f = es := by
  induction es generalizing s os with
  | nil =>
    obtain ⟨-, rfl⟩ := Prod.mk.inj (Option.some.inj hrun)
    rfl
  | cons e es ih =>
    obtain ⟨s₁, o, o', hs, hr, rfl⟩ := (run_cons_iff M).mp hrun
    rw [List.map_append, hecho _ _ _ _ hs, ih hr, List.singleton_append]

/-- …so a run splits where its answers do. -/
theorem run_split {s s' : σ} {es : List ε} {os os' : List ω}
    (hrun : M.run s es = some (s', os ++ os')) :
    ∃ s₁, M.run s (os.map f) = some (s₁, os) ∧ M.run s₁ (os'.map f) = some (s', os') := by
  have hes := run_echo hecho hrun
  rw [← hes, List.map_append] at hrun
  obtain ⟨s₁, o, o', hr, hr', happ⟩ := (run_append_iff M).mp hrun
  have ho : o.map f = os.map f := run_echo hecho hr
  have hlen : os.length = o.length := by simpa using (congrArg List.length ho).symm
  obtain ⟨rfl, rfl⟩ := List.append_inj happ hlen
  exact ⟨s₁, hr, hr'⟩

end Echo

end Machine

/-! ## Refinement

The specification is a relation on abstract states labelled by outputs; the machine refines it when
a relation between the two kinds of state follows each step. -/

/-- A path of the specification `T` along a list of labels. -/
inductive Path (T : τ → ω → τ → Prop) : τ → List ω → τ → Prop
  | nil (t : τ) : Path T t [] t
  | cons {t t₁ t₂ : τ} {o : ω} {os : List ω} : T t o t₁ → Path T t₁ os t₂ → Path T t (o :: os) t₂

namespace Path

variable {T : τ → ω → τ → Prop}

theorem single {t t' : τ} {o : ω} (h : T t o t') : Path T t [o] t' := cons h (nil t')

theorem append {t t₁ t₂ : τ} {os os' : List ω} (h : Path T t os t₁) (h' : Path T t₁ os' t₂) :
    Path T t (os ++ os') t₂ := by
  induction h with
  | nil t => exact h'
  | cons hT _ ih => exact cons hT (ih h')

end Path

/-- **A simulation of steps is a simulation of runs**: what an observer makes of the outputs of a
run (`obs` may drop some) is a path of the specification. -/
theorem Machine.run_refines (M : Machine σ ε ω) {π : Type*} (obs : ω → Option π)
    {T : τ → π → τ → Prop} {R : σ → τ → Prop}
    (hstep : ∀ s t e s' o, R s t → M.step s e = some (s', o) →
      ∃ t', Path T t (o.filterMap obs) t' ∧ R s' t')
    {s s' : σ} {t : τ} {es : List ε} {os : List ω} (hR : R s t)
    (hrun : M.run s es = some (s', os)) : ∃ t', Path T t (os.filterMap obs) t' ∧ R s' t' := by
  refine M.run_invariant (I := fun s' os => ∃ t', Path T t (os.filterMap obs) t' ∧ R s' t')
    (fun s₀ os₀ e s₁ o ⟨t₀, hp, hR₀⟩ hs => ?_) ⟨t, .nil t, hR⟩ hrun
  obtain ⟨t₁, hq, hR₁⟩ := hstep s₀ t₀ e s₁ o hR₀ hs
  exact ⟨t₁, by rw [List.filterMap_append]; exact hp.append hq, hR₁⟩

/-- **Projection onto a component**: if, under an invariant, `N` follows every step of `M` that
concerns it and ignores the others, it follows every run. -/
theorem Machine.run_project {σ₂ ε₂ ω₂ : Type*} {M : Machine σ ε ω} {N : Machine σ₂ ε₂ ω₂}
    (proj : σ → σ₂) (ev : ε → Option ε₂) (out : ω → Option ω₂) {I : σ → Prop}
    (hI : ∀ s e s' o, I s → M.step s e = some (s', o) → I s')
    (hmine : ∀ s e e₂ s' o, I s → ev e = some e₂ → M.step s e = some (s', o) →
      N.step (proj s) e₂ = some (proj s', o.filterMap out))
    (hother : ∀ s e s' o, ev e = none → M.step s e = some (s', o) →
      proj s' = proj s ∧ o.filterMap out = [])
    {s s' : σ} {es : List ε} {os : List ω} (hs : I s) (hrun : M.run s es = some (s', os)) :
    N.run (proj s) (es.filterMap ev) = some (proj s', os.filterMap out) := by
  induction es generalizing s os with
  | nil =>
    obtain ⟨rfl, rfl⟩ := Prod.mk.inj (Option.some.inj hrun)
    rfl
  | cons e es ih =>
    obtain ⟨s₁, o, o', hstep, hr, rfl⟩ := (Machine.run_cons_iff M).mp hrun
    have hrest := ih (hI s e s₁ o hs hstep) hr
    rw [List.filterMap_append]
    cases he : ev e with
    | none =>
      obtain ⟨hproj, hout⟩ := hother s e s₁ o he hstep
      rwa [List.filterMap_cons_none he, hout, List.nil_append, ← hproj]
    | some e₂ =>
      rw [List.filterMap_cons_some he]
      exact (Machine.run_cons_iff N).mpr ⟨_, _, _, hmine s e e₂ s₁ o hs he hstep, hrest, rfl⟩

end Machinery
