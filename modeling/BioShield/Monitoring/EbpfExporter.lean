import BioShield.Machinery.Dict
import BioShield.Machinery.Machine
import Mathlib

/-!
# Monitoring/EbpfExporter — the eBPF exporter (`monitoring/prometheus/exporters/ebpf_exporter.go`)

The update loop reads the kernel's counters, which are totals, and adds each reading to a Prometheus
counter, which keeps totals of its own.  The exported value of a verdict is the sum of all readings,
so it is the latest one only as long as all before it were zero (`republishes_iff`).
-/

namespace BioShield

open Machinery

namespace EbpfExporter

/-! ## Reading a map -/

/-- `unicode.IsSpace`. -/
def isSpace (c : Char) : Bool :=
  c.toNat ∈ [9, 10, 11, 12, 13, 32, 0x85, 0xa0, 0x1680, 0x2028, 0x2029, 0x202f, 0x205f, 0x3000] ||
    0x2000 ≤ c.toNat && c.toNat ≤ 0x200a

/-- `strings.Fields`. -/
def fields (line : List Char) : List String :=
  ((line.splitOnP isSpace).filter (· ≠ [])).map String.ofList

/-- The loop of `strconv.ParseUint(s, 10, 64)`, with `n` read so far: zero at a character that is no
digit, the largest `uint64` as soon as the number is too large. -/
def parseDigits : ℕ → List Char → ℕ
  | n, [] => n
  | n, c :: s =>
    if !c.isDigit then 0
    else if 2 ^ 64 ≤ 10 * n + (c.toNat - 48) then 2 ^ 64 - 1
    else parseDigits (10 * n + (c.toNat - 48)) s

/-- `strconv.ParseUint(s, 10, 64)`, its error ignored. -/
def parseUint (s : String) : ℕ := parseDigits 0 s.toList

/-- One line of a map: a later line of a key replaces an earlier one. -/
def readLine (result : Dict String ℕ) (line : List Char) : Dict String ℕ :=
  match fields line with
  | key :: val :: _ => result.setItem key (parseUint val)
  | _ => result

/-- `readBPFMap`, of the file's text; `none` if the file cannot be read. -/
def readBPFMap (file : Option String) : Option (Dict String ℕ) :=
  file.map fun data => (data.toList.splitOn (.ofNat 10)).foldl readLine .empty

theorem parseDigits_lt {n : ℕ} (hn : n < 2 ^ 64) (s : List Char) : parseDigits n s < 2 ^ 64 := by
  induction s generalizing n with
  | nil => exact hn
  | cons c s ih =>
    rw [parseDigits]
    split_ifs with hdigit hlarge
    · norm_num
    · norm_num
    · exact ih (not_le.mp hlarge)

/-- What is read fits a `uint64`, errors and all. -/
theorem parseUint_lt (s : String) : parseUint s < 2 ^ 64 := parseDigits_lt (by norm_num) s.toList

/-! ## The update loop -/

/-- The `float64` of Go and the counters of Prometheus: the conversion of a `uint64`, and the value
of a counter after `Add`. -/
structure Float64 (F : Type) where
  ofUint64 : ℕ → F
  add : F → F → F
  /-- A counter at zero takes the value that is added to it. -/
  zero_add : ∀ x, add (ofUint64 0) x = x

/-- Nothing is lost to rounding. -/
structure Float64.Exact {F : Type} (fl : Float64 F) : Prop where
  add_ofUint64 : ∀ n k, fl.add (fl.ofUint64 n) (fl.ofUint64 k) = fl.ofUint64 (n + k)
  injective : Function.Injective fl.ofUint64

/-- Exact arithmetic. -/
def exactFloat : Float64 ℚ := ⟨fun n => n, fun x y => x + y, fun x => by simp⟩

theorem exact_exactFloat : exactFloat.Exact := ⟨fun n k => by simp [exactFloat], Nat.cast_injective⟩

/-- The three metrics. -/
structure Metrics (F : Type) where
  packetCounter : String → F
  blockedIPs : F
  droppedPackets : F

/-- One round of the loop: what the file holds, and the order in which Go ranges over the map. -/
structure Round where
  file : Option String
  order : List (String × ℕ)

/-- The entries of the map, none if it could not be read. -/
def Round.packets (r : Round) : Dict String ℕ := (readBPFMap r.file).getD .empty

/-- The count of a verdict in the reading. -/
def Round.count (r : Round) (verdict : String) : ℕ := (r.packets.get? verdict).getD 0

section Loop

variable {F : Type} (fl : Float64 F)

/-- `packetCounter.WithLabelValues(verdict).Add(float64(count))`, for each entry. -/
def addPackets (counter : String → F) (order : List (String × ℕ)) : String → F :=
  order.foldl
    (fun counter p => Function.update counter p.1 (fl.add (counter p.1) (fl.ofUint64 p.2))) counter

/-- The body of the loop. -/
def update (m : Metrics F) (order : List (String × ℕ)) : Metrics F where
  packetCounter := addPackets fl m.packetCounter order
  blockedIPs := fl.ofUint64 100
  droppedPackets := fl.add m.droppedPackets (fl.ofUint64 50)

/-- The exporter, round after round: each shows what was read and the metrics after it. -/
def exporter : Machine (Metrics F) Round (Round × Metrics F) where
  step m r :=
    if r.order.Perm r.packets.items then
      some (update fl m r.order, [(r, update fl m r.order)])
    else none

/-- The metrics as they are registered. -/
def Metrics.registered : Metrics F :=
  ⟨fun _ => fl.ofUint64 0, fl.ofUint64 0, fl.ofUint64 0⟩

end Loop

/-! ## What is exported -/

section Export

variable {F : Type} {fl : Float64 F}

/-- A verdict that is not ranged over keeps its value… -/
theorem addPackets_of_notMem {counter : String → F} {order : List (String × ℕ)} {verdict : String}
    (h : verdict ∉ order.map Prod.fst) : addPackets fl counter order verdict = counter verdict := by
  induction order generalizing counter with
  | nil => rfl
  | cons p order ih =>
    rw [List.map_cons, List.mem_cons, not_or] at h
    exact (ih h.2).trans (Function.update_of_ne h.1 _ _)

/-- …and one that is has its count added, once. -/
theorem addPackets_of_mem {counter : String → F} {order : List (String × ℕ)} {verdict : String}
    {count : ℕ} (hnodup : (order.map Prod.fst).Nodup) (h : (verdict, count) ∈ order) :
    addPackets fl counter order verdict = fl.add (counter verdict) (fl.ofUint64 count) := by
  induction order generalizing counter with
  | nil => exact absurd h List.not_mem_nil
  | cons p order ih =>
    rw [List.map_cons, List.nodup_cons] at hnodup
    rcases List.mem_cons.mp h with rfl | h
    · exact (addPackets_of_notMem hnodup.1).trans (Function.update_self verdict _ counter)
    · have hne : verdict ≠ p.1 := fun heq => hnodup.1 (heq ▸ List.mem_map_of_mem h)
      exact (ih hnodup.2 h).trans (congrArg (fl.add · _) (Function.update_of_ne hne _ _))

variable {m m' : Metrics F} {r : Round} {rounds : List Round} {verdict : String}

/-- **One round adds one reading**, or nothing for a verdict it does not hold. -/
theorem packetCounter_step (verdict : String) {o : List (Round × Metrics F)}
    (hs : (exporter fl).step m r = some (m', o)) :
    m'.packetCounter verdict = fl.add (m.packetCounter verdict) (fl.ofUint64 (r.count verdict)) ∨
      r.count verdict = 0 ∧ m'.packetCounter verdict = m.packetCounter verdict := by
  simp only [exporter] at hs
  split_ifs at hs with hperm
  obtain ⟨rfl, -⟩ := Prod.mk.inj (Option.some.inj hs)
  have hkeys : (r.order.map Prod.fst).Perm (r.packets.items.map Prod.fst) := hperm.map _
  cases hget : r.packets.get? verdict with
  | none =>
    refine .inr ⟨by rw [Round.count, hget]; rfl, addPackets_of_notMem fun hmem => ?_⟩
    rw [hkeys.mem_iff, Dict.mem_keys_iff, hget] at hmem
    exact absurd hmem Bool.false_ne_true
  | some count =>
    have hmem := hperm.mem_iff.mpr ((r.packets.mem_items_iff verdict count).mpr hget)
    have hcount : r.count verdict = count := by rw [Round.count, hget]; rfl
    exact .inl (hcount ▸ addPackets_of_mem (hkeys.nodup_iff.mpr r.packets.nodup) hmem)

theorem exporter_echo (m : Metrics F) (r : Round) (m' : Metrics F) (o : List (Round × Metrics F))
    (hs : (exporter fl).step m r = some (m', o)) : o.map Prod.fst = [r] := by
  simp only [exporter] at hs
  split_ifs at hs
  obtain ⟨-, rfl⟩ := Prod.mk.inj (Option.some.inj hs)
  rfl

/-- As long as a verdict counts zero, it is exported as zero… -/
theorem packetCounter_of_zero {os : List (Round × Metrics F)}
    (hzero : ∀ r ∈ rounds, r.count verdict = 0)
    (hrun : (exporter fl).run (.registered fl) rounds = some (m, os)) :
    m.packetCounter verdict = fl.ofUint64 0 := by
  refine (exporter fl).run_invariant_along (G := fun _ r => r.count verdict = 0)
    (I := fun m _ => m.packetCounter verdict = fl.ofUint64 0) (fun m _ r m' o h hcount hs => ?_) rfl
    ((exporter fl).along_of_forall fun r hr _ => hzero r hr) hrun
  rcases packetCounter_step verdict hs with hadd | ⟨-, hsame⟩
  · rw [hadd, hcount, h, fl.zero_add]
  · exact hsame.trans h

/-- …and without rounding, what is exported is the sum of the readings. -/
theorem packetCounter_eq_sum (verdict : String) (hexact : fl.Exact) {os : List (Round × Metrics F)}
    (hrun : (exporter fl).run (.registered fl) rounds = some (m, os)) :
    m.packetCounter verdict = fl.ofUint64 (rounds.map fun r => r.count verdict).sum := by
  have hsum : m.packetCounter verdict =
      fl.ofUint64 ((os.map Prod.fst).map fun r => r.count verdict).sum := by
    refine (exporter fl).run_invariant
      (I := fun m os => m.packetCounter verdict =
        fl.ofUint64 ((os.map Prod.fst).map fun r => r.count verdict).sum)
      (fun m os r m' o h hs => ?_) rfl hrun
    rw [List.map_append, List.map_append, List.sum_append, exporter_echo m r m' o hs,
      List.map_singleton, List.sum_singleton]
    rcases packetCounter_step verdict hs with hadd | ⟨hcount, hsame⟩
    · rw [hadd, h, hexact.add_ofUint64]
    · rw [hsame, h, hcount, add_zero]
  rwa [Machine.run_echo exporter_echo hrun] at hsum

/-- **Republishing the kernel's counters**: the exported value of a verdict is the count of the
latest reading, as the `float64` the counter keeps it in, if every reading before it counts zero;
and only then, where nothing is lost to rounding.  That `float64` is the count itself only where the
count is representable, as all up to `2 ^ 53` are. -/
theorem republishes_iff {last : Round} {os : List (Round × Metrics F)}
    (hrun : (exporter fl).run (.registered fl) (rounds ++ [last]) = some (m, os)) :
    ((∀ r ∈ rounds, r.count verdict = 0) →
        m.packetCounter verdict = fl.ofUint64 (last.count verdict)) ∧
      (fl.Exact → m.packetCounter verdict = fl.ofUint64 (last.count verdict) →
        ∀ r ∈ rounds, r.count verdict = 0) := by
  constructor
  · intro hzero
    obtain ⟨m₁, o, o', hbefore, hlast, -⟩ := (exporter fl).run_append_iff.mp hrun
    obtain ⟨m₂, p, p', hs, hnil, -⟩ := (exporter fl).run_cons_iff.mp hlast
    obtain ⟨rfl, -⟩ := Prod.mk.inj (Option.some.inj hnil)
    have hvalue := packetCounter_of_zero hzero hbefore
    rcases packetCounter_step verdict hs with hadd | ⟨hcount, hsame⟩
    · rw [hadd, hvalue, fl.zero_add]
    · rw [hsame, hvalue, hcount]
  · intro hexact hvalue
    have hsum := hexact.injective ((packetCounter_eq_sum verdict hexact hrun).symm.trans hvalue)
    rw [List.map_append, List.sum_append, List.map_singleton, List.sum_singleton,
      Nat.add_eq_right, List.sum_eq_zero_iff] at hsum
    exact fun r hr => hsum _ (List.mem_map_of_mem hr)

end Export

/-- A round that ranges over the map in the order of the file. -/
theorem step_of_order {F : Type} (fl : Float64 F) {r : Round} (h : r.packets.items = r.order)
    (m : Metrics F) :
    (exporter fl).step m r = some (update fl m r.order, [(r, update fl m r.order)]) :=
  if_pos (h ▸ List.Perm.refl r.packets.items)

/-- A reading of nothing, and one of five dropped packets. -/
def noDrops : Round := ⟨some "", []⟩

def fiveDrops : Round := ⟨some "XDP_DROP 5", [("XDP_DROP", 5)]⟩

theorem count_fiveDrops : fiveDrops.count "XDP_DROP" = 5 := by decide

theorem items_fiveDrops : fiveDrops.packets.items = fiveDrops.order := by decide

/-- The same reading twice is exported as ten. -/
theorem not_forall_republishes :
    ¬ ∀ (rounds : List Round) (last : Round) (m : Metrics ℚ) (os : List (Round × Metrics ℚ))
      (verdict : String), (∀ r ∈ rounds ++ [last], r.file.isSome) →
      ((rounds ++ [last]).Pairwise fun r r' => ∀ v, r.count v ≤ r'.count v) →
      (exporter exactFloat).run (.registered exactFloat) (rounds ++ [last]) = some (m, os) →
      m.packetCounter verdict = exactFloat.ofUint64 (last.count verdict) := by
  intro h
  have hrun := (exporter exactFloat).run_cons
    (step_of_order exactFloat items_fiveDrops (.registered exactFloat))
    ((exporter exactFloat).run_singleton (step_of_order exactFloat items_fiveDrops _))
  have hten := packetCounter_eq_sum "XDP_DROP" exact_exactFloat hrun
  rw [h [fiveDrops] fiveDrops _ _ "XDP_DROP" (by simp [fiveDrops]) (by simp) hrun,
    exact_exactFloat.injective.eq_iff] at hten
  simp [count_fiveDrops] at hten

/-- After a reading of nothing, the first drops are exported as they are. -/
theorem republishes_fiveDrops : ∃ m os,
    (exporter exactFloat).run (.registered exactFloat) ([noDrops] ++ [fiveDrops]) = some (m, os) ∧
      m.packetCounter "XDP_DROP" = exactFloat.ofUint64 (fiveDrops.count "XDP_DROP") := by
  have hrun := (exporter exactFloat).run_cons
    (step_of_order exactFloat (r := noDrops) (by decide) (.registered exactFloat))
    ((exporter exactFloat).run_singleton (step_of_order exactFloat items_fiveDrops _))
  have hzero : ∀ r ∈ [noDrops], r.count "XDP_DROP" = 0 := by simp; decide
  exact ⟨_, _, hrun, (republishes_iff hrun).1 hzero⟩

end EbpfExporter

end BioShield
