import BioShield.Machinery.Machine

/-!
# Machinery/Fifo — a bounded FIFO queue, as a specification

The abstract queue of capacity `cap` is a list; its four operations answer at once.  A path of
`Fifo.Step` is everything a client of the queue can observe, and `conservation` says what such
a path may show: the packets handed in are the packets handed out followed by the ones still
queued.
-/

namespace Machinery

/-- What a client sees a queue do. -/
inductive FifoOp (α : Type*)
  /-- An element was accepted. -/
  | enq (a : α)
  /-- An element was refused. -/
  | enqFull
  /-- An element was handed out. -/
  | deq (a : α)
  /-- Nothing could be handed out. -/
  | deqEmpty
  deriving DecidableEq

namespace Fifo

variable {α : Type*} {cap : ℕ}

/-- **The bounded FIFO queue**: it refuses an element only when full, and has none to hand out only
when empty. -/
inductive Step (cap : ℕ) : List α → FifoOp α → List α → Prop
  | enq {l : List α} (a : α) : l.length < cap → Step cap l (.enq a) (l ++ [a])
  | enqFull {l : List α} : l.length = cap → Step cap l .enqFull l
  | deq (a : α) (l : List α) : Step cap (a :: l) (.deq a) l
  | deqEmpty : Step cap [] .deqEmpty []

/-- The elements accepted, in order. -/
def enqueued : List (FifoOp α) → List α
  | [] => []
  | .enq a :: os => a :: enqueued os
  | _ :: os => enqueued os

/-- The elements handed out, in order. -/
def dequeued : List (FifoOp α) → List α
  | [] => []
  | .deq a :: os => a :: dequeued os
  | _ :: os => dequeued os

theorem enqueued_append (os os' : List (FifoOp α)) :
    enqueued (os ++ os') = enqueued os ++ enqueued os' := by
  induction os with
  | nil => rfl
  | cons o os ih => cases o <;> simp [enqueued, ih]

/-- **Conservation**: what was queued and what came in is what went out and what is left. -/
theorem conservation {l l' : List α} {os : List (FifoOp α)}
    (h : Path (Step cap) l os l') : l ++ enqueued os = dequeued os ++ l' := by
  induction h with
  | nil l => simp [enqueued, dequeued]
  | cons hT _ ih =>
    cases hT with
    | enq a _ => simpa [enqueued, dequeued] using ih
    | enqFull _ => simpa [enqueued, dequeued] using ih
    | deq a l => simpa [enqueued, dequeued] using ih
    | deqEmpty => simpa [enqueued, dequeued] using ih

theorem Step.length_le {l l' : List α} {o : FifoOp α} (h : Step cap l o l')
    (hl : l.length ≤ cap) : l'.length ≤ cap := by
  cases h with
  | enq a hlt =>
    rw [List.length_append, List.length_singleton]
    exact hlt
  | enqFull _ => exact hl
  | deq a l => exact Nat.le_of_succ_le hl
  | deqEmpty => exact hl

/-- The queue never holds more than its capacity. -/
theorem length_le {l l' : List α} {os : List (FifoOp α)} (h : Path (Step cap) l os l')
    (hl : l.length ≤ cap) : l'.length ≤ cap := by
  induction h with
  | nil _ => exact hl
  | cons hT _ ih => exact ih (hT.length_le hl)

section FromEmpty

variable {l : List α} {os : List (FifoOp α)} (h : Path (Step cap) [] os l)
include h

theorem enqueued_eq : enqueued os = dequeued os ++ l := by
  simpa using conservation h

/-- **No loss, no duplication, no reordering**: what came out is a prefix of what went in. -/
theorem dequeued_prefix : dequeued os <+: enqueued os :=
  ⟨l, (enqueued_eq h).symm⟩

/-- The number of elements in the queue, read off the history. -/
theorem length_eq : l.length = (enqueued os).length - (dequeued os).length := by
  rw [enqueued_eq h, List.length_append, Nat.add_sub_cancel_left]

end FromEmpty

end Fifo

end Machinery
