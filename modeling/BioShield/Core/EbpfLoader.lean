import BioShield.Machinery.Machine
import Mathlib

/-!
# Core/EbpfLoader — who owns `s_xdp_fd` (`core/ebpf_loader.cpp`)

`load_xdp_program` keeps the descriptor of the program it loads in `s_xdp_fd`, and
`unload_xdp_program` closes what it finds there.  A load that fails to attach closes its object, but
leaves the number behind: the next `unload_xdp_program` closes a descriptor that is not the
loader's any more (`closesOwn_iff`).  What a load that does attach has opened besides the program is
never closed (`card_run`).

What libbpf and the kernel answer is in the event; new descriptors are ones that were not open.
-/

namespace BioShield

open Machinery

namespace EbpfLoader

/-- What `load_xdp_program` is answered: by `bpf_object__open`, `bpf_object__find_program_by_name`,
`bpf_object__load`, `if_nametoindex`, `bpf_program__fd` and `bpf_set_link_xdp_fd`; and what else the
loaded object has open. -/
structure LoadReplies where
  opened : Bool
  found : Bool
  loaded : Bool
  ifindex : ℕ
  programFd : ℤ
  mapFds : Finset ℕ
  attached : Bool

/-- What `unload_xdp_program` is answered. -/
structure UnloadReplies where
  ifindex : ℕ
  detached : Bool

/-- A step of the process: a call of the loader, or other code that opens or closes a descriptor of
its own. -/
inductive Event
  | load (replies : LoadReplies)
  | unload (replies : UnloadReplies)
  | openOther (fd : ℕ)
  | closeOther (fd : ℕ)

/-- What a `close` of the loader meets. -/
inductive Closed
  /-- A program that the loader has loaded. -/
  | program
  /-- Something else that is open. -/
  | foreign
  /-- Nothing. -/
  | nothing
  deriving DecidableEq

/-- The process: `s_xdp_fd`, and its open descriptors. -/
structure State where
  xdpFd : ℤ
  programs : Finset ℕ
  maps : Finset ℕ
  others : Finset ℕ

namespace State

/-- At the start. -/
def start (others : Finset ℕ) : State := ⟨-1, ∅, ∅, others⟩

/-- Some descriptor is open under the number. -/
def IsOpen (s : State) (fd : ℕ) : Prop := fd ∈ s.programs ∨ fd ∈ s.maps ∨ fd ∈ s.others

instance (s : State) : DecidablePred s.IsOpen := fun _ => inferInstanceAs (Decidable (_ ∨ _ ∨ _))

/-- The descriptors of a loaded object are new. -/
def Fresh (s : State) (r : LoadReplies) : Prop :=
  r.loaded = true → (0 ≤ r.programFd → ¬ s.IsOpen r.programFd.toNat) ∧
    (∀ fd ∈ r.mapFds, ¬ s.IsOpen fd) ∧ ∀ fd ∈ r.mapFds, r.programFd ≠ fd

instance (s : State) (r : LoadReplies) : Decidable (s.Fresh r) :=
  inferInstanceAs (Decidable (_ → _ ∧ _ ∧ _))

/-- `load_xdp_program`.  `bpf_object__close` closes all that the object has open, so the object
leaves descriptors only where the program is attached. -/
def loadXdpProgram (s : State) (r : LoadReplies) : State × Bool :=
  if !r.opened then (s, false)
  else if !r.found then (s, false)
  else if !r.loaded then (s, false)
  else if r.ifindex = 0 then (s, false)
  else if r.programFd < 0 then ({ s with xdpFd := r.programFd }, false)
  else if !r.attached then ({ s with xdpFd := r.programFd }, false)
  else
    ({ s with
      xdpFd := r.programFd
      programs := insert r.programFd.toNat s.programs
      maps := s.maps ∪ r.mapFds }, true)

/-- `close`. -/
def close (s : State) (fd : ℕ) : State × Closed :=
  ({ s with programs := s.programs.erase fd, maps := s.maps.erase fd, others := s.others.erase fd },
    if fd ∈ s.programs then .program else if s.IsOpen fd then .foreign else .nothing)

/-- `unload_xdp_program`, and what it closes. -/
def unloadXdpProgram (s : State) (r : UnloadReplies) : State × List Closed :=
  if r.ifindex = 0 then (s, [])
  else if !r.detached then (s, [])
  else if 0 ≤ s.xdpFd then
    ({ (s.close s.xdpFd.toNat).1 with xdpFd := -1 }, [(s.close s.xdpFd.toNat).2])
  else (s, [])

end State

/-- The process, as a machine that tells what the loader closes. -/
def process : Machine State Event Closed where
  step s
    | .load r => if s.Fresh r then some ((s.loadXdpProgram r).1, []) else none
    | .unload r => some (s.unloadXdpProgram r)
    | .openOther fd =>
        if s.IsOpen fd then none else some ({ s with others := insert fd s.others }, [])
    | .closeOther fd =>
        if fd ∈ s.others then some ({ s with others := s.others.erase fd }, []) else none

/-! ## What the calls come to -/

/-- The load gets as far as the descriptor of its program… -/
def LoadReplies.GetsFd (r : LoadReplies) : Prop :=
  r.opened = true ∧ r.found = true ∧ r.loaded = true ∧ r.ifindex ≠ 0

/-- …and then attaches it, or fails to. -/
def LoadReplies.Attaches (r : LoadReplies) : Prop :=
  r.GetsFd ∧ 0 ≤ r.programFd ∧ r.attached = true

def LoadReplies.FailsToAttach (r : LoadReplies) : Prop :=
  r.GetsFd ∧ 0 ≤ r.programFd ∧ r.attached = false

/-- The program is detached from the interface. -/
def UnloadReplies.Detaches (r : UnloadReplies) : Prop := r.ifindex ≠ 0 ∧ r.detached = true

instance (r : LoadReplies) : Decidable r.GetsFd := inferInstanceAs (Decidable (_ ∧ _ ∧ _ ∧ _))

instance (r : LoadReplies) : Decidable r.Attaches := inferInstanceAs (Decidable (_ ∧ _ ∧ _))

instance (r : LoadReplies) : Decidable r.FailsToAttach := inferInstanceAs (Decidable (_ ∧ _ ∧ _))

instance (r : UnloadReplies) : Decidable r.Detaches := inferInstanceAs (Decidable (_ ∧ _))

/-- After an event, `s_xdp_fd` is the number of a program that failed to attach. -/
def staleAfter (stale : Bool) : Event → Bool
  | .load r => if r.GetsFd then r.FailsToAttach else stale
  | .unload r => if r.Detaches then false else stale
  | .openOther _ | .closeOther _ => stale

/-- The last load that got a descriptor has failed to attach, and nothing was detached since. -/
def Stale (es : List Event) : Bool := es.foldl staleAfter false

/-- Nothing is detached after a load that failed to attach. -/
def Careful (es : List Event) : Prop :=
  ∀ i r, es[i]? = some (.unload r) → r.Detaches → Stale (es.take i) = false

/-- What the loader has in hand: a program under `s_xdp_fd`, unless that is stale; and then neither
a program nor a map is there. -/
structure Holds (s : State) (stale : Bool) : Prop where
  held : stale = false → 0 ≤ s.xdpFd → s.xdpFd.toNat ∈ s.programs
  lost : stale = true → 0 ≤ s.xdpFd ∧ s.xdpFd.toNat ∉ s.programs ∧ s.xdpFd.toNat ∉ s.maps
  disjoint : Disjoint s.programs s.maps

/-- **What a load does.** -/
theorem loadXdpProgram_cases (s : State) (r : LoadReplies) :
    (¬ r.GetsFd ∧ (s.loadXdpProgram r).1 = s) ∨
    (r.GetsFd ∧ ¬ r.Attaches ∧ (s.loadXdpProgram r).1 = { s with xdpFd := r.programFd }) ∨
    (r.Attaches ∧ (s.loadXdpProgram r).1 =
      { s with
        xdpFd := r.programFd
        programs := insert r.programFd.toNat s.programs
        maps := s.maps ∪ r.mapFds }) := by
  by_cases hgets : r.GetsFd
  · obtain ⟨hopened, hfound, hloaded, hindex⟩ := hgets
    by_cases hattaches : r.Attaches
    · obtain ⟨hgets, hfd, hattached⟩ := hattaches
      refine .inr (.inr ⟨⟨hgets, hfd, hattached⟩, ?_⟩)
      simp [State.loadXdpProgram, hopened, hfound, hloaded, hindex, not_lt.mpr hfd, hattached]
    · refine .inr (.inl ⟨⟨hopened, hfound, hloaded, hindex⟩, hattaches, ?_⟩)
      by_cases hfd : r.programFd < 0
      · simp [State.loadXdpProgram, hopened, hfound, hloaded, hindex, hfd]
      · have hattached : r.attached = false := by
          simpa [LoadReplies.Attaches, LoadReplies.GetsFd, hopened, hfound, hloaded, hindex,
            not_lt.mp hfd] using hattaches
        simp [State.loadXdpProgram, hopened, hfound, hloaded, hindex, hfd, hattached]
  · refine .inl ⟨hgets, ?_⟩
    simp only [State.loadXdpProgram]
    split_ifs with hopened hfound hloaded hindex
    any_goals rfl
    all_goals simp_all [LoadReplies.GetsFd]

/-- **What an unload does.** -/
theorem unloadXdpProgram_cases (s : State) (r : UnloadReplies) :
    (¬ r.Detaches ∧ s.unloadXdpProgram r = (s, [])) ∨
    (r.Detaches ∧ s.xdpFd < 0 ∧ s.unloadXdpProgram r = (s, [])) ∨
    (r.Detaches ∧ 0 ≤ s.xdpFd ∧ s.unloadXdpProgram r =
      ({ (s.close s.xdpFd.toNat).1 with xdpFd := -1 }, [(s.close s.xdpFd.toNat).2])) := by
  by_cases hdetaches : r.Detaches
  · obtain ⟨hindex, hdetached⟩ := hdetaches
    rcases lt_or_ge s.xdpFd 0 with hneg | hpos
    · refine .inr (.inl ⟨⟨hindex, hdetached⟩, hneg, ?_⟩)
      simp [State.unloadXdpProgram, hindex, hdetached, not_le.mpr hneg]
    · refine .inr (.inr ⟨⟨hindex, hdetached⟩, hpos, ?_⟩)
      simp [State.unloadXdpProgram, hindex, hdetached, hpos]
  · refine .inl ⟨hdetaches, ?_⟩
    simp only [State.unloadXdpProgram]
    split_ifs with hindex hdetached
    any_goals rfl
    all_goals simp_all [UnloadReplies.Detaches]

theorem close_snd_eq_program_iff {s : State} {fd : ℕ} :
    (s.close fd).2 = .program ↔ fd ∈ s.programs := by
  simp only [State.close]
  split_ifs <;> simp_all

/-! ## Runs -/

theorem stale_concat (es : List Event) (e : Event) :
    Stale (es ++ [e]) = staleAfter (Stale es) e := by
  simp [Stale]

theorem careful_concat_iff {es : List Event} {e : Event} :
    Careful (es ++ [e]) ↔ Careful es ∧ ∀ r, e = .unload r → r.Detaches → Stale es = false := by
  constructor
  · intro h
    refine ⟨fun i r hi hr => ?_, fun r he hr => ?_⟩
    · have hlt := (List.getElem?_eq_some_iff.mp hi).1
      have hstale := h i r (by rwa [List.getElem?_append_left hlt]) hr
      rwa [List.take_append_of_le_length hlt.le] at hstale
    · have hstale := h es.length r (by simp [he]) hr
      rwa [List.take_left] at hstale
  · rintro ⟨hes, he⟩ i r hi hr
    rcases lt_or_ge i es.length with hlt | hge
    · rw [List.getElem?_append_left hlt] at hi
      rw [List.take_append_of_le_length hlt.le]
      exact hes i r hi hr
    · have hlen := (List.getElem?_eq_some_iff.mp hi).1
      obtain rfl : i = es.length := by simp at hlen; omega
      rw [List.take_left]
      exact he r (by simpa using hi) hr

theorem holds_start (others : Finset ℕ) : Holds (.start others) (Stale []) where
  held := fun _ h => absurd h (by simp [State.start])
  lost := fun h => absurd h (by simp [Stale])
  disjoint := by simp [State.start]

section Step

variable {s s' : State} {e : Event} {o : List Closed} {stale : Bool}

/-- A load leaves under `s_xdp_fd` what it attaches, or a number that is free. -/
theorem Holds.load (h : Holds s stale) {r : LoadReplies} (hfresh : s.Fresh r) :
    Holds (s.loadXdpProgram r).1 (staleAfter stale (.load r)) := by
  rcases loadXdpProgram_cases s r with ⟨hgets, heq⟩ | ⟨hgets, hnot, heq⟩ | ⟨hattaches, heq⟩
  · rw [heq, staleAfter, if_neg hgets]
    exact h
  · obtain ⟨hprogram, hmaps, hdistinct⟩ := hfresh hgets.2.2.1
    rw [heq, staleAfter, if_pos hgets]
    refine ⟨fun hstale hfd => ?_, fun hstale => ?_, h.disjoint⟩
    · have hattached : r.attached = true := by
        simpa [LoadReplies.FailsToAttach, hgets, show 0 ≤ r.programFd from hfd] using hstale
      exact absurd ⟨hgets, hfd, hattached⟩ hnot
    · obtain ⟨-, hfd, -⟩ := of_decide_eq_true hstale
      have hopen := hprogram hfd
      simp only [State.IsOpen, not_or] at hopen
      exact ⟨hfd, hopen.1, hopen.2.1⟩
  · obtain ⟨hgets, hfd, hattached⟩ := hattaches
    obtain ⟨hprogram, hmaps, hdistinct⟩ := hfresh hgets.2.2.1
    have hopen := hprogram hfd
    simp only [State.IsOpen, not_or] at hopen
    rw [heq, staleAfter, if_pos hgets]
    refine ⟨fun _ _ => Finset.mem_insert_self _ _, fun hstale => ?_, ?_⟩
    · simp [LoadReplies.FailsToAttach, hattached] at hstale
    · rw [Finset.disjoint_insert_left, Finset.disjoint_union_right, Finset.mem_union, not_or]
      refine ⟨⟨hopen.2.1, fun hmem => hdistinct _ hmem (by simp [hfd])⟩, h.disjoint, ?_⟩
      rw [Finset.disjoint_right]
      exact fun fd hfd' hmem => hmaps fd hfd' (.inl hmem)

/-- An unload that detaches closes the program, unless `s_xdp_fd` is stale. -/
theorem Holds.unload (h : Holds s stale) (r : UnloadReplies) :
    Holds (s.unloadXdpProgram r).1 (staleAfter stale (.unload r)) ∧
      ((∀ c ∈ (s.unloadXdpProgram r).2, c = .program) ↔ (r.Detaches → stale = false)) := by
  rcases unloadXdpProgram_cases s r with ⟨hnot, heq⟩ | ⟨hdetaches, hneg, heq⟩ |
    ⟨hdetaches, hpos, heq⟩
  · rw [heq, staleAfter, if_neg hnot]
    exact ⟨h, by simp [hnot]⟩
  · rw [heq, staleAfter, if_pos hdetaches]
    have hstale : stale = false := by
      by_contra hstale
      exact absurd (h.lost (by simpa using hstale)).1 (not_le.mpr hneg)
    exact ⟨⟨fun _ hfd => absurd hfd (not_le.mpr hneg), fun h => absurd h (by simp), h.disjoint⟩,
      by simp [hstale]⟩
  · rw [heq, staleAfter, if_pos hdetaches]
    refine ⟨⟨fun _ hfd => absurd hfd (by simp), fun h => absurd h (by simp), ?_⟩, ?_⟩
    · exact h.disjoint.mono (Finset.erase_subset _ _) (Finset.erase_subset _ _)
    · simp only [List.mem_singleton, forall_eq, close_snd_eq_program_iff, hdetaches, true_imp_iff]
      cases stale with
      | false => exact iff_of_true (h.held rfl hpos) rfl
      | true => exact iff_of_false (h.lost rfl).2.1 (by simp)

/-- A step. -/
theorem Holds.step (h : Holds s stale) (hs : process.step s e = some (s', o)) :
    Holds s' (staleAfter stale e) ∧
      ((∀ c ∈ o, c = .program) ↔ ∀ r, e = .unload r → r.Detaches → stale = false) := by
  cases e with
  | load r =>
    simp only [process] at hs
    split_ifs at hs with hfresh
    cases hs
    exact ⟨h.load hfresh, by simp⟩
  | unload r =>
    have heq : s.unloadXdpProgram r = (s', o) := Option.some.inj hs
    obtain ⟨hholds, hiff⟩ := h.unload r
    rw [heq] at hholds hiff
    exact ⟨hholds, by simpa using hiff⟩
  | openOther fd =>
    simp only [process] at hs
    split_ifs at hs
    cases hs
    exact ⟨⟨h.held, h.lost, h.disjoint⟩, by simp⟩
  | closeOther fd =>
    simp only [process] at hs
    split_ifs at hs
    cases hs
    exact ⟨⟨h.held, h.lost, h.disjoint⟩, by simp⟩

end Step

/-- **Whose descriptors are closed.** In every run, whatever libbpf and the kernel answer and
whatever other code opens and closes, all that the loader closes are programs that it has loaded, if
and only if nothing is detached after a load that failed to attach. -/
theorem closesOwn_iff {others : Finset ℕ} {es : List Event} {s : State} {os : List Closed}
    (hrun : process.run (.start others) es = some (s, os)) :
    (∀ c ∈ os, c = .program) ↔ Careful es := by
  refine (process.run_history (I := fun s es os =>
    Holds s (Stale es) ∧ ((∀ c ∈ os, c = .program) ↔ Careful es))
    (fun s es os e s' o hI hs => ?_) ⟨holds_start others, ?_⟩ hrun).2
  · obtain ⟨hholds, hiff⟩ := hI.1.step hs
    rw [stale_concat, careful_concat_iff, List.forall_mem_append, hI.2, hiff]
    exact ⟨hholds, Iff.rfl⟩
  · simp [Careful]

/-- A load that attaches program 3, with a map under 4. -/
def attachOk : LoadReplies := ⟨true, true, true, 2, 3, {4}, true⟩

/-- A load of program 3 that fails to attach. -/
def attachFails : LoadReplies := ⟨true, true, true, 2, 3, {4}, false⟩

/-- A load that fails to attach; other code opens what its program had been; and the unload closes
that. -/
def stolen : List Event := [.load attachFails, .openOther 3, .unload ⟨2, true⟩]

theorem closesOwn_iff_stolen : ¬ Careful stolen := by
  have hrun : process.run (.start {0, 1, 2}) stolen = some (_, [.foreign]) := rfl
  exact fun h => by simpa using (closesOwn_iff hrun).mpr h

/-! ## What is left open -/

/-- A load that attaches. -/
def attaches : Event → Bool
  | .load r => r.Attaches
  | .unload _ | .openOther _ | .closeOther _ => false

/-- The descriptors that an event leaves open besides the program. -/
def mapsLeft : Event → ℕ
  | .load r => if r.Attaches then r.mapFds.card else 0
  | .unload _ | .openOther _ | .closeOther _ => 0

/-- What a step adds to the programs and to the maps that are open. -/
theorem card_step {s s' : State} {e : Event} {o : List Closed} {stale : Bool}
    (h : Holds s stale) (hs : process.step s e = some (s', o)) :
    s'.programs.card + o.count .program = s.programs.card + (attaches e).toNat ∧
      s'.maps.card = s.maps.card + mapsLeft e := by
  cases e with
  | load r =>
    simp only [process] at hs
    split_ifs at hs with hfresh
    cases hs
    rcases loadXdpProgram_cases s r with ⟨hgets, heq⟩ | ⟨hgets, hnot, heq⟩ | ⟨hattaches, heq⟩
    · have hnot : ¬ r.Attaches := fun h => hgets h.1
      simp [heq, attaches, mapsLeft, hnot]
    · simp [heq, attaches, mapsLeft, hnot]
    · obtain ⟨hprogram, hmaps, -⟩ := hfresh hattaches.1.2.2.1
      have hopen := hprogram hattaches.2.1
      simp only [State.IsOpen, not_or] at hopen
      have hdisjoint : Disjoint s.maps r.mapFds := by
        rw [Finset.disjoint_right]
        exact fun fd hfd hmem => hmaps fd hfd (.inr (.inl hmem))
      simp [heq, attaches, mapsLeft, hattaches, Finset.card_insert_of_notMem hopen.1,
        Finset.card_union_of_disjoint hdisjoint]
  | unload r =>
    have heq : s.unloadXdpProgram r = (s', o) := Option.some.inj hs
    rcases unloadXdpProgram_cases s r with ⟨-, hcase⟩ | ⟨-, -, hcase⟩ | ⟨-, hpos, hcase⟩
    · cases heq.symm.trans hcase
      simp [attaches, mapsLeft]
    · cases heq.symm.trans hcase
      simp [attaches, mapsLeft]
    · cases heq.symm.trans hcase
      have hmap : s.xdpFd.toNat ∉ s.maps := by
        cases stale with
        | false => exact Finset.disjoint_left.mp h.disjoint (h.held rfl hpos)
        | true => exact (h.lost rfl).2.2
      by_cases hmem : s.xdpFd.toNat ∈ s.programs
      · have hclosed := close_snd_eq_program_iff.mpr hmem
        have hcard := Finset.card_erase_add_one hmem
        rw [hclosed]
        simpa [State.close, attaches, mapsLeft, Finset.erase_eq_of_notMem hmap] using hcard
      · have hclosed := mt close_snd_eq_program_iff.mp hmem
        have hcount : [(s.close s.xdpFd.toNat).2].count .program = 0 :=
          List.count_eq_zero.mpr (by simpa [eq_comm] using hclosed)
        rw [hcount]
        simp [State.close, attaches, mapsLeft, Finset.erase_eq_of_notMem hmap,
          Finset.erase_eq_of_notMem hmem]
  | openOther fd =>
    simp only [process] at hs
    split_ifs at hs
    cases hs
    simp [attaches, mapsLeft]
  | closeOther fd =>
    simp only [process] at hs
    split_ifs at hs
    cases hs
    simp [attaches, mapsLeft]

/-- **What is left open.** After every run, of the programs that were attached those are open that
the loader has not closed, and all other descriptors of their objects are. -/
theorem card_run {others : Finset ℕ} {es : List Event} {s : State} {os : List Closed}
    (hrun : process.run (.start others) es = some (s, os)) :
    s.programs.card + os.count .program = es.countP attaches ∧
      s.maps.card = (es.map mapsLeft).sum := by
  refine (process.run_history (I := fun s es os => Holds s (Stale es) ∧
    s.programs.card + os.count .program = es.countP attaches ∧
      s.maps.card = (es.map mapsLeft).sum)
    (fun s es os e s' o hI hs => ?_) ⟨holds_start others, by simp [State.start]⟩ hrun).2
  obtain ⟨hholds, hprograms, hmaps⟩ := hI
  obtain ⟨hcard, hcard'⟩ := card_step hholds hs
  rw [stale_concat]
  refine ⟨(hholds.step hs).1, ?_, ?_⟩
  · rw [List.count_append, List.countP_append, List.countP_singleton]
    cases hattaches : attaches e <;> simp [hattaches] at hcard ⊢ <;> omega
  · rw [List.map_append, List.sum_append, ← hmaps, hcard']
    simp

theorem card_run_attachOk :
    ∃ s os, process.run (.start {0, 1, 2}) [.load attachOk, .unload ⟨2, true⟩] = some (s, os) ∧
      s.programs.card + os.count .program = 1 ∧ s.maps.card = 1 := by
  have hrun : process.run (.start {0, 1, 2}) [.load attachOk, .unload ⟨2, true⟩] =
      some (_, [.program]) := rfl
  exact ⟨_, _, hrun, card_run hrun⟩

end EbpfLoader

end BioShield
