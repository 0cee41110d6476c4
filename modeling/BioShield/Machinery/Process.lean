import BioShield.Machinery.Machine
import Mathlib

/-!
# Machinery/Process — programs that call a shared world, alone and interleaved

A `Prog C R α` is a program as its callers see it: it makes calls `c : C`, goes on with the answer
`r : R c`, and ends with an `α`.  One program text has two readings here:

* `exec` — run to its end with nobody else touching the world;
* `pool` — any number of runs started from requests and interleaved call by call.

A run in the pool keeps the list of its own calls with their answers.  What is left of its program
is a function of that history (`Residual`), which turns an invariant of the pool into a question
about one program text; and what all runs of the pool did together is what each did
(`sum_spent_eq`), which turns a budget for each program into one for the pool
(`total_cost_le_gain`).
-/

namespace Machinery

/-- **A program**: it ends, or it calls the world and goes on with the answer. -/
inductive Prog (C : Type) (R : C → Type) (α : Type) : Type
  | ret (a : α)
  | call (c : C) (k : R c → Prog C R α)

/-- A call together with its answer. -/
abbrev Reply (C : Type) (R : C → Type) : Type := (c : C) × R c

namespace Prog

variable {C : Type} {R : C → Type} {α β : Type}

/-- `p`, then `f` of its result. -/
def bind : Prog C R α → (α → Prog C R β) → Prog C R β
  | .ret a, f => f a
  | .call c k, f => .call c fun r => (k r).bind f

instance : Monad (Prog C R) where
  pure := .ret
  bind := .bind

@[simp] theorem pure_eq (a : α) : (pure a : Prog C R α) = .ret a := rfl

@[simp] theorem ret_bind (a : α) (f : α → Prog C R β) : (Prog.ret a >>= f) = f a := rfl

@[simp] theorem call_bind (c : C) (k : R c → Prog C R α) (f : α → Prog C R β) :
    (Prog.call c k >>= f) = .call c fun r => k r >>= f := rfl

theorem bind_ret (p : Prog C R α) : p >>= Prog.ret = p := by
  induction p with
  | ret a => rfl
  | call c k ih => exact congrArg (Prog.call c) (funext ih)

theorem bind_assoc {γ : Type} (p : Prog C R α) (f : α → Prog C R β) (g : β → Prog C R γ) :
    (p >>= f) >>= g = p >>= fun a => f a >>= g := by
  induction p with
  | ret a => rfl
  | call c k ih => exact congrArg (Prog.call c) (funext ih)

/-- A single call. -/
def perform (c : C) : Prog C R (R c) := .call c .ret

/-! ## Running alone -/

section Exec

variable {W : Type} (h : W → (c : C) → R c × W)

/-- **The run of a program nobody interferes with**, over a world that answers by `h`. -/
def exec : Prog C R α → W → α × W
  | .ret a, w => (a, w)
  | .call c k, w => exec (k (h w c).1) (h w c).2

/-- The calls such a run makes, with their answers. -/
def calls : Prog C R α → W → List (Reply C R)
  | .ret _, _ => []
  | .call c k, w => ⟨c, (h w c).1⟩ :: calls (k (h w c).1) (h w c).2

@[simp] theorem exec_ret (a : α) (w : W) : exec h (.ret a : Prog C R α) w = (a, w) := rfl

@[simp] theorem exec_call (c : C) (k : R c → Prog C R α) (w : W) :
    exec h (.call c k) w = exec h (k (h w c).1) (h w c).2 := rfl

@[simp] theorem calls_ret (a : α) (w : W) : calls h (.ret a : Prog C R α) w = [] := rfl

@[simp] theorem calls_call (c : C) (k : R c → Prog C R α) (w : W) :
    calls h (.call c k) w = ⟨c, (h w c).1⟩ :: calls h (k (h w c).1) (h w c).2 := rfl

/-- What every call of a run keeps, the run keeps. -/
theorem exec_keeps {Q : W → Prop} {p : Prog C R α} {w : W}
    (hcalls : ∀ a ∈ calls h p w, ∀ w', Q w' → Q (h w' a.1).2) (hw : Q w) :
    Q (exec h p w).2 := by
  induction p generalizing w with
  | ret a => exact hw
  | call c k ih =>
    exact ih _ (fun a ha => hcalls a (List.mem_cons_of_mem _ ha))
      (hcalls _ List.mem_cons_self w hw)

end Exec

/-! ## What is left of a program -/

/-- `Residual p h p'`: having made the calls `h`, the program `p` has `p'` left to do. -/
inductive Residual : Prog C R α → List (Reply C R) → Prog C R α → Prop
  | nil (p : Prog C R α) : Residual p [] p
  | cons {c : C} {k : R c → Prog C R α} {r : R c} {h : List (Reply C R)} {p : Prog C R α} :
      Residual (k r) h p → Residual (.call c k) (⟨c, r⟩ :: h) p

/-- The next call of a program extends its history. -/
theorem Residual.snoc {p : Prog C R α} {h : List (Reply C R)} {c : C} {k : R c → Prog C R α}
    (hres : Residual p h (.call c k)) (r : R c) : Residual p (h ++ [⟨c, r⟩]) (k r) := by
  generalize hq : Prog.call c k = q at hres
  induction hres with
  | nil p =>
    subst hq
    exact .cons (.nil _)
  | cons _ ih => exact .cons (ih hq)

/-! ## Properties of program texts

Both are defined by recursion on the program, so each is proved of a program by going through its
branches once. -/

/-- Every branch of the program on which the answers are `ok` ends with a `post`. -/
def Ends (ok : (c : C) → R c → Prop) (post : α → Prop) : Prog C R α → Prop
  | .ret a => post a
  | .call c k => ∀ r, ok c r → Ends ok post (k r)

/-- Every call of the program is a `P` of the calls before it. -/
def Each (P : List (Reply C R) → C → Prop) : List (Reply C R) → Prog C R α → Prop
  | _, .ret _ => True
  | h, .call c k => P h c ∧ ∀ r, Each P (h ++ [⟨c, r⟩]) (k r)

@[simp] theorem ends_ret {ok : (c : C) → R c → Prop} {post : α → Prop} {a : α} :
    Ends ok post (.ret a : Prog C R α) ↔ post a := Iff.rfl

@[simp] theorem ends_call {ok : (c : C) → R c → Prop} {post : α → Prop} {c : C}
    {k : R c → Prog C R α} : Ends ok post (.call c k) ↔ ∀ r, ok c r → Ends ok post (k r) := Iff.rfl

@[simp] theorem each_ret {P : List (Reply C R) → C → Prop} {h : List (Reply C R)} {a : α} :
    Each P h (.ret a : Prog C R α) := trivial

@[simp] theorem each_call {P : List (Reply C R) → C → Prop} {h : List (Reply C R)} {c : C}
    {k : R c → Prog C R α} :
    Each P h (.call c k) ↔ P h c ∧ ∀ r, Each P (h ++ [⟨c, r⟩]) (k r) := Iff.rfl

theorem Each.mono {P P' : List (Reply C R) → C → Prop} (himp : ∀ h c, P h c → P' h c)
    {h : List (Reply C R)} {p : Prog C R α} (hp : Each P h p) : Each P' h p := by
  induction p generalizing h with
  | ret a => trivial
  | call c k ih => exact ⟨himp h c hp.1, fun r => ih r (hp.2 r)⟩

theorem Each.of_residual {P : List (Reply C R) → C → Prop} {p q : Prog C R α}
    {h₀ h : List (Reply C R)} (hp : Each P h₀ p) (hres : Residual p h q) : Each P (h₀ ++ h) q := by
  induction hres generalizing h₀ with
  | nil p => rwa [List.append_nil]
  | @cons c k r h q _ ih =>
    have key := ih (hp.2 r)
    rwa [List.append_assoc, List.singleton_append] at key

end Prog

/-! ## Interleaved runs -/

section Pool

variable {C Q X W α : Type} {R : C → Type}

/-- One run of the pool: its request, the calls it made, and what is left of it. -/
structure Process (Q C : Type) (R : C → Type) (α : Type) where
  request : Q
  history : List (Reply C R)
  rest : Prog C R α

/-- The shared world and all runs ever started. -/
structure Pool (W Q C : Type) (R : C → Type) (α : Type) where
  world : W
  runs : List (Process Q C R α)

/-- What the scheduler may do: start a run, or let run `i` make its next call, which the
environment meets with `x`. -/
inductive Sched (Q X : Type)
  | start (q : Q)
  | advance (i : ℕ) (x : X)

/-- A call made in the pool: by which run, for which request, and with which answer. -/
structure Done (Q C : Type) (R : C → Type) where
  run : ℕ
  request : Q
  call : C
  answer : R call

/-- **The pool**: runs of `handler q` started at will and interleaved at their calls. -/
def pool (handler : Q → Prog C R α) (h : X → W → (c : C) → R c × W) :
    Machine (Pool W Q C R α) (Sched Q X) (Done Q C R) where
  step s
    | .start q => some ({ s with runs := s.runs ++ [⟨q, [], handler q⟩] }, [])
    | .advance i x =>
        match s.runs[i]? with
        | some ⟨q, hist, .call c k⟩ =>
            some (⟨(h x s.world c).2,
                s.runs.set i ⟨q, hist ++ [⟨c, (h x s.world c).1⟩], k (h x s.world c).1⟩⟩,
              [⟨i, q, c, (h x s.world c).1⟩])
        | _ => none

variable {handler : Q → Prog C R α} {h : X → W → (c : C) → R c × W}

/-- What a step of the pool can do. -/
inductive Pool.Moves (handler : Q → Prog C R α) (h : X → W → (c : C) → R c × W) :
    Pool W Q C R α → Sched Q X → Pool W Q C R α → List (Done Q C R) → Prop
  | start (w : W) (runs : List (Process Q C R α)) (q : Q) :
      Moves handler h ⟨w, runs⟩ (.start q) ⟨w, runs ++ [⟨q, [], handler q⟩]⟩ []
  | advance (w : W) (pre post : List (Process Q C R α)) (q : Q) (hist : List (Reply C R)) (c : C)
      (k : R c → Prog C R α) (x : X) :
      Moves handler h ⟨w, pre ++ ⟨q, hist, .call c k⟩ :: post⟩ (.advance pre.length x)
        ⟨(h x w c).2,
          pre ++ ⟨q, hist ++ [⟨c, (h x w c).1⟩], k (h x w c).1⟩ :: post⟩
        [⟨pre.length, q, c, (h x w c).1⟩]

theorem Pool.moves_of_step {s s' : Pool W Q C R α} {e : Sched Q X} {os : List (Done Q C R)}
    (hs : (pool handler h).step s e = some (s', os)) : Pool.Moves handler h s e s' os := by
  obtain ⟨w, runs⟩ := s
  cases e with
  | start q =>
    cases hs
    exact .start w runs q
  | advance i x =>
    simp only [pool] at hs
    split at hs
    case h_2 => cases hs
    case h_1 q hist c k hi =>
      cases hs
      obtain ⟨hlt, heq⟩ := List.getElem?_eq_some_iff.mp hi
      have hsplit : runs = runs.take i ++ ⟨q, hist, .call c k⟩ :: runs.drop (i + 1) := by
        rw [← heq, List.getElem_cons_drop, List.take_append_drop]
      have hset : ∀ p, runs.set i p = runs.take i ++ p :: runs.drop (i + 1) := fun p => by
        rw [List.set_eq_take_append_cons_drop, if_pos hlt]
      have hlen : (runs.take i).length = i := List.length_take_of_le (Nat.le_of_lt hlt)
      have key : Pool.Moves handler h _ _ _ _ :=
        .advance w (runs.take i) (runs.drop (i + 1)) q hist c k x
      rwa [hlen, ← hsplit, ← hset] at key

/-! ### Each run follows its own program -/

/-- Every run is where its history puts it in its program. -/
def Pool.Faithful (handler : Q → Prog C R α) (s : Pool W Q C R α) : Prop :=
  ∀ p ∈ s.runs, Prog.Residual (handler p.request) p.history p.rest

theorem Pool.faithful_nil (w : W) : Pool.Faithful handler ⟨w, []⟩ :=
  fun _ hp => absurd hp List.not_mem_nil

theorem Pool.Moves.faithful {s s' : Pool W Q C R α} {e : Sched Q X} {os : List (Done Q C R)}
    (hm : Pool.Moves handler h s e s' os) (hs : Pool.Faithful handler s) :
    Pool.Faithful handler s' := by
  cases hm with
  | start w runs q =>
    intro p hp
    rcases List.mem_append.mp hp with hp | hp
    · exact hs p hp
    · obtain rfl := List.mem_singleton.mp hp
      exact .nil _
  | advance w pre post q hist c k x =>
    intro p hp
    rcases List.mem_append.mp hp with hp | hp
    · exact hs p (List.mem_append_left _ hp)
    · rcases List.mem_cons.mp hp with rfl | hp
      · exact (hs ⟨q, hist, .call c k⟩ (by simp)).snoc _
      · exact hs p (List.mem_append_right _ (List.mem_cons_of_mem _ hp))

/-- A pool that starts empty stays faithful. -/
theorem Pool.faithful_of_run {w : W} {s : Pool W Q C R α} {es : List (Sched Q X)}
    {os : List (Done Q C R)} (hrun : (pool handler h).run ⟨w, []⟩ es = some (s, os)) :
    Pool.Faithful handler s :=
  (pool handler h).run_invariant (I := fun s _ => Pool.Faithful handler s)
    (fun _ _ _ _ _ hs hstep => (Pool.moves_of_step hstep).faithful hs)
    (Pool.faithful_nil w) hrun

/-- The next call of a run of the pool is what each call of its program is. -/
theorem Pool.Faithful.each {P : List (Reply C R) → C → Prop} {s : Pool W Q C R α}
    (hs : Pool.Faithful handler s) (hP : ∀ q, (handler q).Each P []) {p : Process Q C R α}
    (hp : p ∈ s.runs) {c : C} {k : R c → Prog C R α} (hrest : p.rest = .call c k) :
    P p.history c := by
  have hres := hs p hp
  rw [hrest] at hres
  exact ((hP p.request).of_residual hres).1

/-- **Runs started from some moment on** keep to the branches of their programs on which the answers
are `ok`, if all answers from that moment on are. -/
theorem Pool.Moves.ends {ok : (c : C) → R c → Prop} {post : α → Prop} {T : Q → Prop} {n : ℕ}
    {s s' : Pool W Q C R α} {e : Sched Q X} {os : List (Done Q C R)}
    (hm : Pool.Moves handler h s e s' os) (hhandler : ∀ q, T q → (handler q).Ends ok post)
    (hok : ∀ d ∈ os, ok d.call d.answer)
    (hs : ∀ i p, n ≤ i → s.runs[i]? = some p → T p.request → p.rest.Ends ok post) :
    ∀ i p, n ≤ i → s'.runs[i]? = some p → T p.request → p.rest.Ends ok post := by
  cases hm with
  | start w runs q =>
    intro i p hi hp hT
    rcases Nat.lt_or_ge i runs.length with hlt | hge
    · exact hs i p hi (by rwa [List.getElem?_append_left hlt] at hp) hT
    · obtain rfl := List.mem_singleton.mp
        (List.mem_of_getElem? (by rwa [List.getElem?_append_right hge] at hp))
      exact hhandler q hT
  | advance w pre post' q hist c k x =>
    intro i p hi hp hT
    by_cases heq : i = pre.length
    · subst heq
      rw [List.getElem?_append_right le_rfl, Nat.sub_self] at hp
      obtain rfl := Option.some.inj hp
      have hold := hs pre.length ⟨q, hist, .call c k⟩ hi (by simp) hT
      exact hold _ (hok ⟨pre.length, q, c, _⟩ (List.mem_singleton_self _))
    · refine hs i p hi ?_ hT
      rcases Nat.lt_or_gt_of_ne heq with hlt | hgt
      · rwa [List.getElem?_append_left hlt] at hp ⊢
      · obtain ⟨j, rfl⟩ := Nat.exists_eq_add_of_lt hgt
        have hj : pre.length + j + 1 - pre.length = j + 1 := by omega
        rwa [List.getElem?_append_right (by omega), hj, List.getElem?_cons_succ] at hp ⊢

/-! ### What the runs did is what the pool did -/

section Totals

/-- The total of `f` over the calls made in the pool. -/
def total (f : Q → (c : C) → R c → ℕ) (os : List (Done Q C R)) : ℕ :=
  (os.map fun d => f d.request d.call d.answer).sum

/-- The total of `f` over a history of the request `q`. -/
def spent (f : Q → (c : C) → R c → ℕ) (q : Q) (hist : List (Reply C R)) : ℕ :=
  (hist.map fun a => f q a.1 a.2).sum

variable (f : Q → (c : C) → R c → ℕ)

theorem total_append (os os' : List (Done Q C R)) :
    total f (os ++ os') = total f os + total f os' := by
  simp [total]

theorem spent_append (q : Q) (hist hist' : List (Reply C R)) :
    spent f q (hist ++ hist') = spent f q hist + spent f q hist' := by
  simp [spent]

/-- **A total over the pool is the sum of the totals of its runs.** -/
theorem sum_spent_eq {w : W} {s : Pool W Q C R α} {es : List (Sched Q X)}
    {os : List (Done Q C R)} (hrun : (pool handler h).run ⟨w, []⟩ es = some (s, os)) :
    (s.runs.map fun p => spent f p.request p.history).sum = total f os := by
  refine (pool handler h).run_invariant
    (I := fun s os => (s.runs.map fun p => spent f p.request p.history).sum = total f os)
    (fun s os e s' o hI hs => ?_) rfl hrun
  rw [total_append, ← hI]
  cases Pool.moves_of_step hs with
  | start w runs q => simp [total, spent]
  | advance w pre post q hist c k x =>
    have h₁ : spent f q (hist ++ [⟨c, (h x w c).1⟩]) = spent f q hist + f q c (h x w c).1 := by
      rw [spent_append]
      simp [spent]
    have h₂ : total f [(⟨pre.length, q, c, (h x w c).1⟩ : Done Q C R)] = f q c (h x w c).1 := by
      simp [total]
    simp only [List.map_append, List.map_cons, List.sum_append, List.sum_cons, h₁, h₂]
    omega

/-- A call with its answer, whoever made it. -/
def Done.reply (d : Done Q C R) : Reply C R := ⟨d.call, d.answer⟩

/-- **A run's history** is its part of what the pool did. -/
theorem history_eq_filter {w : W} {s : Pool W Q C R α} {es : List (Sched Q X)}
    {os : List (Done Q C R)} (hrun : (pool handler h).run ⟨w, []⟩ es = some (s, os)) (i : ℕ) :
    (s.runs[i]?.map Process.history).getD [] =
      (os.filter fun d => d.run = i).map Done.reply := by
  refine (pool handler h).run_invariant
    (I := fun s os => (s.runs[i]?.map Process.history).getD [] =
      (os.filter fun d => d.run = i).map Done.reply)
    (fun s os e s' o hI hs => ?_) rfl hrun
  rw [List.filter_append, List.map_append, ← hI]
  cases Pool.moves_of_step hs with
  | start w runs q =>
    rw [List.filter_nil, List.map_nil, List.append_nil]
    rcases Nat.lt_or_ge i runs.length with hlt | hge
    · rw [List.getElem?_append_left hlt]
    · rw [List.getElem?_append_right hge, List.getElem?_eq_none hge]
      cases i - runs.length <;> rfl
  | advance w pre post q hist c k x =>
    by_cases heq : pre.length = i
    · subst heq
      simp [Done.reply]
    · rw [List.filter_cons_of_neg (by simpa using heq), List.filter_nil, List.map_nil,
        List.append_nil]
      rcases Nat.lt_or_gt_of_ne heq with hlt | hgt
      · obtain ⟨j, rfl⟩ := Nat.exists_eq_add_of_lt hlt
        have hj : pre.length + j + 1 - pre.length = j + 1 := by omega
        rw [List.getElem?_append_right (by omega), List.getElem?_append_right (by omega), hj,
          List.getElem?_cons_succ, List.getElem?_cons_succ]
      · rw [List.getElem?_append_left hgt, List.getElem?_append_left hgt]

/-- Every call in the history of a run was made in the pool, for the run's request. -/
theorem mem_done_of_mem_history {w : W} {s : Pool W Q C R α} {es : List (Sched Q X)}
    {os : List (Done Q C R)} (hrun : (pool handler h).run ⟨w, []⟩ es = some (s, os)) :
    ∀ p ∈ s.runs, ∀ a ∈ p.history,
      ∃ d ∈ os, d.request = p.request ∧ (⟨d.call, d.answer⟩ : Reply C R) = a := by
  refine (pool handler h).run_invariant
    (I := fun s os => ∀ p ∈ s.runs, ∀ a ∈ p.history,
      ∃ d ∈ os, d.request = p.request ∧ (⟨d.call, d.answer⟩ : Reply C R) = a)
    (fun s os e s' o hI hs => ?_) (fun _ hp => absurd hp List.not_mem_nil) hrun
  have hold : ∀ p ∈ s.runs, ∀ a ∈ p.history,
      ∃ d ∈ os ++ o, d.request = p.request ∧ (⟨d.call, d.answer⟩ : Reply C R) = a := by
    intro p hp a ha
    obtain ⟨d, hd, hda⟩ := hI p hp a ha
    exact ⟨d, List.mem_append_left _ hd, hda⟩
  cases Pool.moves_of_step hs with
  | start w runs q =>
    intro p hp a ha
    rcases List.mem_append.mp hp with hp | hp
    · exact hold p hp a ha
    · obtain rfl := List.mem_singleton.mp hp
      exact absurd ha List.not_mem_nil
  | advance w pre post q hist c k x =>
    intro p hp a ha
    rcases List.mem_append.mp hp with hp | hp
    · exact hold p (List.mem_append_left _ hp) a ha
    · rcases List.mem_cons.mp hp with rfl | hp
      · rcases List.mem_append.mp ha with ha | ha
        · exact hold ⟨q, hist, .call c k⟩ (by simp) a ha
        · obtain rfl := List.mem_singleton.mp ha
          exact ⟨_, List.mem_append_right _ (List.mem_singleton_self _), rfl, rfl⟩
      · exact hold p (List.mem_append_right _ (List.mem_cons_of_mem _ hp)) a ha

end Totals

/-! ### Budgets

A program affords its costs out of a balance `n` when no call costs more than the balance and what
that call itself brings in.  `ok` says which answers are to be expected. -/

section Budget

variable (ok : Q → (c : C) → R c → Prop) (cost gain : Q → (c : C) → R c → ℕ)

/-- Along every admitted branch, the program's costs are covered by `n` and its gains. -/
def Affords (q : Q) : Prog C R α → ℕ → Prop
  | .ret _, _ => True
  | .call c k, n => ∀ r, ok q c r →
      cost q c r ≤ n + gain q c r ∧ Affords q (k r) (n + gain q c r - cost q c r)

variable {ok cost gain}

theorem Affords.spent_le {q : Q} {p p' : Prog C R α} {n : ℕ} {hist : List (Reply C R)}
    (hp : Affords ok cost gain q p n) (hres : Prog.Residual p hist p')
    (hok : ∀ a ∈ hist, ok q a.1 a.2) : spent cost q hist ≤ n + spent gain q hist := by
  induction hres generalizing n with
  | nil p => exact Nat.zero_le _
  | @cons c k r hist p _ ih =>
    obtain ⟨hle, hrest⟩ := hp r (hok _ List.mem_cons_self)
    have := ih hrest fun a ha => hok a (List.mem_cons_of_mem _ ha)
    simp only [spent, List.map_cons, List.sum_cons] at this ⊢
    omega

/-- No run of the pool spends more than it earns… -/
theorem spent_cost_le_gain (hhandler : ∀ q, Affords ok cost gain q (handler q) 0) {w : W}
    {s : Pool W Q C R α} {es : List (Sched Q X)} {os : List (Done Q C R)}
    (hrun : (pool handler h).run ⟨w, []⟩ es = some (s, os))
    (hok : ∀ d ∈ os, ok d.request d.call d.answer) :
    ∀ p ∈ s.runs, spent cost p.request p.history ≤ spent gain p.request p.history := by
  intro p hp
  have hokp : ∀ a ∈ p.history, ok p.request a.1 a.2 := by
    intro a ha
    obtain ⟨d, hd, hreq, rfl⟩ := mem_done_of_mem_history hrun p hp a ha
    rw [← hreq]
    exact hok d hd
  simpa using (hhandler p.request).spent_le (Pool.faithful_of_run hrun p hp) hokp

/-- …and **budgets add up**: no interleaving does. -/
theorem total_cost_le_gain (hhandler : ∀ q, Affords ok cost gain q (handler q) 0) {w : W}
    {s : Pool W Q C R α} {es : List (Sched Q X)} {os : List (Done Q C R)}
    (hrun : (pool handler h).run ⟨w, []⟩ es = some (s, os))
    (hok : ∀ d ∈ os, ok d.request d.call d.answer) : total cost os ≤ total gain os := by
  rw [← sum_spent_eq cost hrun, ← sum_spent_eq gain hrun]
  exact List.sum_le_sum (spent_cost_le_gain hhandler hrun hok)

end Budget

end Pool

end Machinery
