import BioShield.Machinery.StridedLoop

/-!
# Machinery/Reading — computations that record what they read

A `Reading` is a result together with the addresses read on the way to it, in order.  A routine
written with `read` in place of an array access can be checked for both: `result` is what the plain
routine computes, `reads` is where it looked.

* `result_strided` — a recorded loop computes what the loop computes;
* `forall_mem_reads_strided` — where every round stays, the loop stays;
* `reads_strided`, `reads_strided_tail` — a loop whose round reads its own block reads every index
  once, in order, and so do the two loops in a row.
-/

namespace Machinery

/-- **A computation that reads memory**: its result, and the addresses it read, in order. -/
@[ext]
structure Reading (ι α : Type*) where
  result : α
  reads : List ι

namespace Reading

universe u v

variable {ι : Type u} {α β σ : Type v}

/-- Read one address. -/
def read (memory : ι → α) (i : ι) : Reading ι α := ⟨memory i, [i]⟩

instance : Monad (Reading ι) where
  pure a := ⟨a, []⟩
  bind m f := ⟨(f m.result).result, m.reads ++ (f m.result).reads⟩

@[simp] theorem result_read (memory : ι → α) (i : ι) : (read memory i).result = memory i := rfl

@[simp] theorem reads_read (memory : ι → α) (i : ι) : (read memory i).reads = [i] := rfl

@[simp] theorem result_pure (a : α) : (pure a : Reading ι α).result = a := rfl

@[simp] theorem reads_pure (a : α) : (pure a : Reading ι α).reads = [] := rfl

@[simp] theorem result_bind (m : Reading ι α) (f : α → Reading ι β) :
    (m >>= f).result = (f m.result).result := rfl

@[simp] theorem reads_bind (m : Reading ι α) (f : α → Reading ι β) :
    (m >>= f).reads = m.reads ++ (f m.result).reads := rfl

/-- **A recorded loop by strides**: `strided`, with a body that reads. -/
def strided (stride n : ℕ) (body : ℕ → σ → Reading ι σ) (i : ℕ) (s : σ) : Reading ι (ℕ × σ) :=
  if 0 < stride ∧ i + stride ≤ n then
    body i s >>= fun t => strided stride n body (i + stride) t
  else pure (i, s)
termination_by n - i

section Loops

variable {stride n : ℕ} {body : ℕ → σ → Reading ι σ}

/-- **The recorded loop computes what the loop computes.** -/
@[simp] theorem result_strided (i : ℕ) (s : σ) :
    (strided stride n body i s).result =
      Machinery.strided stride n (fun i s => (body i s).result) i s := by
  fun_induction Reading.strided stride n body i s with
  | case1 i s hle ih => rw [result_bind, ih, Machinery.strided.eq_def _ _ _ i, if_pos hle]
  | case2 i s hlt => rw [result_pure, Machinery.strided.eq_def, if_neg hlt]

/-- **Where every round stays, the loop stays.** -/
theorem forall_mem_reads_strided {P : ι → Prop} {i : ℕ}
    (hbody : ∀ k s, i ≤ k → k + stride ≤ n → ∀ a ∈ (body k s).reads, P a) (s : σ) :
    ∀ a ∈ (strided stride n body i s).reads, P a := by
  fun_induction Reading.strided stride n body i s with
  | case1 i s hle ih =>
    rw [reads_bind, List.forall_mem_append]
    exact ⟨hbody i s le_rfl hle.2, ih _ fun k t hk => hbody k t (by omega)⟩
  | case2 i s hlt => simp

/-- **A loop whose round reads its own block reads each index once**, in order; `f` picks the reads
of one array… -/
theorem reads_strided {f : ι → Option ℕ}
    (hbody : ∀ k s, (body k s).reads.filterMap f = List.range' k stride) (i : ℕ) (s : σ) :
    (strided stride n body i s).reads.filterMap f =
      List.range' i ((strided stride n body i s).result.1 - i) := by
  fun_induction Reading.strided stride n body i s with
  | case1 i s hle ih =>
    have hstop := @le_strided_fst σ stride n (fun k t => (body k t).result) (i + stride)
      (body i s).result
    rw [reads_bind, List.filterMap_append, hbody, ih, result_bind, result_strided,
      List.range'_append_1]
    congr 1
    omega
  | case2 i s hlt => simp

/-- …and so do the loop by blocks and the loop over the tail in a row. -/
theorem reads_strided_tail {τ : Type v} {f : ι → Option ℕ} {tail : ℕ → τ → Reading ι τ} {i : ℕ}
    (hbody : ∀ k s, (body k s).reads.filterMap f = List.range' k stride)
    (htail : ∀ k t, (tail k t).reads.filterMap f = List.range' k 1) (s : σ) (t : τ) (hi : i ≤ n) :
    ((strided stride n body i s).reads ++
        (strided 1 n tail (strided stride n body i s).result.1 t).reads).filterMap f =
      List.range' i (n - i) := by
  have hle := @le_strided_fst σ stride n (fun k t => (body k t).result) i s
  have hge := @strided_fst_le σ stride n (fun k t => (body k t).result) i s hi
  rw [List.filterMap_append, reads_strided hbody, reads_strided htail, result_strided,
    result_strided, strided_one_fst _ _ hge]
  obtain ⟨m, hm⟩ := Nat.exists_eq_add_of_le hle
  rw [hm] at hge ⊢
  rw [Nat.add_sub_cancel_left, List.range'_append_1]
  congr 1
  omega

end Loops

end Reading

end Machinery
