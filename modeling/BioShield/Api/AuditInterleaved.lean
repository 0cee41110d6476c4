import BioShield.Api.CacheText

/-!
# Api/AuditInterleaved — audits in flight together (`api/routers/voice_audit.py`)

`audit_voice_stream` awaits Redis twice, and other requests run in between.  A request **looks**
when its `GET` is answered; if it misses it is in flight until its `SETEX` is answered, and then it
**stores** and returns.  Over every order of these moments:

* `exists_run_alone` — a request on its own is the route;
* `settled_of_run` — what a request is answered, and whether it is billed: exactly if it found
  nothing stored in the minute before it looked;
* `exists_inFlight` — the requests billed under one key within a minute are all in flight at once.
-/

namespace BioShield

open Machinery

/-- A moment of a request. -/
inductive AuditEvent (ι : Type)
  | looks (i : ι)
  | stores (i : ι)

/-- What a request gets, and the tasks it leaves for the background. -/
structure AuditReply (ι : Type) where
  request : ι
  content : Except RouteException (Json ℚ)
  tasks : List DeductCredit

/-- The cache, the requests that have looked into it, and those of them that are in flight. -/
structure Audits (ι : Type) where
  cache : RedisCacheService
  looked : Finset ι
  inFlight : Finset ι

/-- No request yet. -/
def Audits.start (ι : Type) (initialized : Bool) : Audits ι := ⟨.fresh initialized, ∅, ∅⟩

/-! ## What Redis holds -/

section Holds

variable {ι : Type} (ft : FloatText ℚ) (service : DeepfakeService) (hash : List PyFloat → ℤ)
variable (requests : ι → AuditTextRequest)

/-- The time of a moment. -/
def AuditEvent.time : AuditEvent ι → ℚ
  | .looks i => (requests i).request.readAt
  | .stores i => (requests i).request.writtenAt

/-- The moments are in the order of their times. -/
def InOrder (es : List (AuditEvent ι)) : Prop :=
  es.Pairwise fun e e' => e.time requests ≤ e'.time requests

/-- Request `j` had stored, under the key of `i` and within the minute before `i` looked. -/
def StoredFor (es : List (AuditEvent ι)) (i j : ι) : Prop :=
  [.stores j, .looks i].Sublist es ∧ (requests j).onSet.applied = true ∧
    (requests j).key hash = (requests i).key hash ∧
      (requests i).request.readAt < (requests j).request.writtenAt + 60

/-- Request `i` finds a result in the cache. -/
def Finds (initialized : Bool) (es : List (AuditEvent ι)) (i : ι) : Prop :=
  initialized = true ∧ (requests i).onGet = .answered ∧ ∃ j, StoredFor hash requests es i j

/-- How a request is settled: with a result it finds, if that can be sent, for nothing, or with its
own, for the charge of a scan. -/
def Settled (initialized : Bool) (es : List (AuditEvent ι)) (a : AuditReply ι) : Prop :=
  (Finds hash requests initialized es a.request ∧ a.tasks = [] ∧
      ∃ j, StoredFor hash requests es a.request j ∧
        a.content = jsonContent ((requests j).result service)) ∨
    (¬ Finds hash requests initialized es a.request ∧ a.tasks = [(requests a.request).charge] ∧
      a.content = .ok ((requests a.request).result service))

/-- What Redis holds after the moments `es`: under each key what one of the requests has stored, and
nothing that was stored there is outlived by something else. -/
structure CacheHolds (initialized : Bool) (es : List (AuditEvent ι)) (cache : RedisCacheService) :
    Prop where
  ready : cache.initialized = initialized
  of_entry : ∀ key entry, cache.redis key = some entry →
    ∃ j, .stores j ∈ es ∧ (requests j).onSet.applied = true ∧ (requests j).key hash = key ∧
      entry = (requests j).entry ft service
  of_stores : initialized = true → ∀ j, .stores j ∈ es → (requests j).onSet.applied = true →
    ∃ entry, cache.redis ((requests j).key hash) = some entry ∧
      (requests j).request.writtenAt + 60 ≤ entry.expiresAt

variable {ft service hash requests}

variable {initialized : Bool} {es : List (AuditEvent ι)} {cache : RedisCacheService}

theorem pair_sublist_concat_iff {α : Type} {x y e : α} {es : List α} :
    [x, y].Sublist (es ++ [e]) ↔ [x, y].Sublist es ∨ (x ∈ es ∧ y = e) := by
  rw [← List.reverse_sublist, List.reverse_append]
  change [y, x].Sublist (e :: es.reverse) ↔ _
  rw [List.sublist_cons_iff, ← List.reverse_sublist, List.reverse_reverse]
  simp [and_comm, eq_comm]

theorem InOrder.of_concat {e : AuditEvent ι} (h : InOrder requests (es ++ [e])) :
    InOrder requests es := (List.pairwise_append.mp h).1

/-- What a request finds is settled when it looks… -/
theorem storedFor_concat_iff {e : AuditEvent ι} (hnodup : (es ++ [e]).Nodup) {i j : ι}
    (hi : .looks i ∈ es) :
    StoredFor hash requests (es ++ [e]) i j ↔ StoredFor hash requests es i j := by
  have hne : .looks i ≠ e := by
    rintro rfl
    exact (List.nodup_append.mp hnodup).2.2 _ hi _ (List.mem_singleton_self _) rfl
  simp [StoredFor, pair_sublist_concat_iff, hne]

theorem finds_concat_iff {e : AuditEvent ι} (hnodup : (es ++ [e]).Nodup) {i : ι}
    (hi : .looks i ∈ es) :
    Finds hash requests initialized (es ++ [e]) i ↔ Finds hash requests initialized es i := by
  simp only [Finds, storedFor_concat_iff hnodup hi]

theorem Settled.concat {a : AuditReply ι} (h : Settled service hash requests initialized es a)
    {e : AuditEvent ι} (hnodup : (es ++ [e]).Nodup) (ha : .looks a.request ∈ es) :
    Settled service hash requests initialized (es ++ [e]) a := by
  simpa only [Settled, finds_concat_iff hnodup ha, storedFor_concat_iff hnodup ha] using h

/-- …by what was stored before. -/
theorem storedFor_looks_iff {i j : ι} (hi : .looks i ∉ es) :
    StoredFor hash requests (es ++ [.looks i]) i j ↔
      .stores j ∈ es ∧ (requests j).onSet.applied = true ∧
        (requests j).key hash = (requests i).key hash ∧
          (requests i).request.readAt < (requests j).request.writtenAt + 60 := by
  have hnot : ¬ [.stores j, .looks i].Sublist es := fun h => hi (h.subset (by simp))
  simp [StoredFor, pair_sublist_concat_iff, hnot]

theorem StoredFor.mono {es' : List (AuditEvent ι)} {i j : ι}
    (h : StoredFor hash requests es i j) (hsub : es.Sublist es') :
    StoredFor hash requests es' i j := ⟨h.1.trans hsub, h.2⟩

theorem Finds.mono {es' : List (AuditEvent ι)} {i : ι}
    (h : Finds hash requests initialized es i) (hsub : es.Sublist es') :
    Finds hash requests initialized es' i := by
  obtain ⟨hinit, hget, j, hj⟩ := h
  exact ⟨hinit, hget, j, hj.mono hsub⟩

theorem cacheHolds_fresh :
    CacheHolds ft service hash requests initialized [] (.fresh initialized) where
  ready := rfl
  of_entry := fun key entry h => by cases h
  of_stores := fun _ j hj => by simp at hj

/-- Looking leaves the cache… -/
theorem CacheHolds.looks (h : CacheHolds ft service hash requests initialized es cache) (i : ι) :
    CacheHolds ft service hash requests initialized (es ++ [.looks i]) cache where
  ready := h.ready
  of_entry := fun key entry hentry => by
    obtain ⟨j, hj, hrest⟩ := h.of_entry key entry hentry
    exact ⟨j, List.mem_append_left _ hj, hrest⟩
  of_stores := fun hinit j hj happ => h.of_stores hinit j (by simpa using hj) happ

/-- …and storing puts there what lasts longest, as time goes on. -/
theorem CacheHolds.stores (h : CacheHolds ft service hash requests initialized es cache) {i : ι}
    (hclock : InOrder requests (es ++ [.stores i])) :
    CacheHolds ft service hash requests initialized (es ++ [.stores i])
      ((requests i).cacheSet ft service hash cache) where
  ready := by
    rw [← h.ready]
    simp only [AuditTextRequest.cacheSet, RedisCacheService.set]
    split_ifs <;> rfl
  of_entry := fun key entry hentry => by
    rw [AuditTextRequest.redis_cacheSet] at hentry
    split_ifs at hentry with hset
    · exact ⟨i, by simp, hset.2.1, hset.2.2, (Option.some.inj hentry).symm⟩
    · obtain ⟨j, hj, hrest⟩ := h.of_entry key entry hentry
      exact ⟨j, List.mem_append_left _ hj, hrest⟩
  of_stores := fun hinit j hj happ => by
    have hlatest : (requests j).request.writtenAt ≤ (requests i).request.writtenAt := by
      rcases List.mem_append.mp hj with hj | hj
      · exact (List.pairwise_append.mp hclock).2.2 _ hj _ (List.mem_singleton_self _)
      · obtain rfl : j = i := by simpa using hj
        exact le_rfl
    rw [AuditTextRequest.redis_cacheSet]
    split_ifs with hset
    · exact ⟨_, rfl, by simpa [AuditTextRequest.entry] using hlatest⟩
    · rcases List.mem_append.mp hj with hj | hj
      · exact h.of_stores hinit j hj happ
      · obtain rfl : j = i := by simpa using hj
        exact absurd ⟨h.ready.trans hinit, happ, rfl⟩ hset

/-- **A hit**: what a request finds was stored under its key, less than a minute before. -/
theorem CacheHolds.of_hit (h : CacheHolds ft service hash requests initialized es cache)
    (hexact : ∀ j, ((requests j).request.analyze service).metadata.Exact ft) {i : ι}
    {value : Json ℚ} (hvalue : (requests i).cachedResult ft hash cache = some value) :
    initialized = true ∧ (requests i).onGet = .answered ∧ ∃ j, .stores j ∈ es ∧
      (requests j).onSet.applied = true ∧ (requests j).key hash = (requests i).key hash ∧
        (requests i).request.readAt < (requests j).request.writtenAt + 60 ∧
          value = (requests j).result service := by
  have hget := (Option.filter_eq_some_iff.mp hvalue).1
  cases hentry : cache.redis ((requests i).key hash) with
  | none =>
    rw [RedisCacheService.get_of_none hentry] at hget
    cases hget
  | some entry =>
    obtain ⟨j, hj, happ, hkey, rfl⟩ := h.of_entry _ _ hentry
    rw [RedisCacheService.get_of_dumps (AuditResult.faithful_toJson (hexact j)) hentry,
      h.ready] at hget
    split_ifs at hget with hlive
    exact ⟨hlive.1, hlive.2.1, j, hj, happ, hkey, hlive.2.2, (Option.some.inj hget).symm⟩

/-- **A miss**: nothing was stored under the key in the minute before. -/
theorem CacheHolds.of_miss (h : CacheHolds ft service hash requests initialized es cache)
    (hexact : ∀ j, ((requests j).request.analyze service).metadata.Exact ft) {i j : ι}
    (hmiss : (requests i).cachedResult ft hash cache = none) (hinit : initialized = true)
    (hget : (requests i).onGet = .answered) (hj : .stores j ∈ es)
    (happ : (requests j).onSet.applied = true)
    (hkey : (requests j).key hash = (requests i).key hash) :
    (requests j).request.writtenAt + 60 ≤ (requests i).request.readAt := by
  by_contra hlt
  rw [not_le] at hlt
  obtain ⟨entry, hentry, hle⟩ := h.of_stores hinit j hj happ
  rw [hkey] at hentry
  obtain ⟨j', hj', happ', hkey', rfl⟩ := h.of_entry _ _ hentry
  have hfaithful := AuditResult.faithful_toJson (hexact j')
  have hfound : cache.get ft (requests i).request.readAt ((requests i).key hash)
      (requests i).onGet = some ((requests j').result service) := by
    rw [RedisCacheService.get_of_dumps hfaithful hentry]
    exact if_pos ⟨h.ready.trans hinit, hget, hlt.trans_le hle⟩
  rw [AuditTextRequest.cachedResult, hfound] at hmiss
  cases hmiss

end Holds

/-! ## Requests in flight -/

section Runs

variable {ι : Type} [DecidableEq ι]
variable (ft : FloatText ℚ) (service : DeepfakeService) (hash : List PyFloat → ℤ)
variable (requests : ι → AuditTextRequest)

/-- `audit_voice_stream` for each of the requests, one moment at a time. -/
def audits : Machine (Audits ι) (AuditEvent ι) (AuditReply ι) where
  step s
    | .looks i =>
        if i ∈ s.looked then none
        else match (requests i).cachedResult ft hash s.cache with
          | some cachedResult =>
              some ({ s with looked := insert i s.looked }, [⟨i, jsonContent cachedResult, []⟩])
          | none =>
              some ({ s with looked := insert i s.looked, inFlight := insert i s.inFlight }, [])
    | .stores i =>
        if i ∈ s.inFlight then
          some ({ s with
            cache := (requests i).cacheSet ft service hash s.cache
            inFlight := s.inFlight.erase i },
            [⟨i, .ok ((requests i).result service), [(requests i).charge]⟩])
        else none

/-- What a moment can be. -/
inductive Audits.Moves (s : Audits ι) : AuditEvent ι → Audits ι → List (AuditReply ι) → Prop
  | hit {i : ι} {cachedResult : Json ℚ} :
      i ∉ s.looked → (requests i).cachedResult ft hash s.cache = some cachedResult →
        Moves s (.looks i) { s with looked := insert i s.looked }
          [⟨i, jsonContent cachedResult, []⟩]
  | miss {i : ι} : i ∉ s.looked → (requests i).cachedResult ft hash s.cache = none →
      Moves s (.looks i)
        { s with looked := insert i s.looked, inFlight := insert i s.inFlight } []
  | store {i : ι} : i ∈ s.inFlight →
      Moves s (.stores i)
        { s with
          cache := (requests i).cacheSet ft service hash s.cache
          inFlight := s.inFlight.erase i }
        [⟨i, .ok ((requests i).result service), [(requests i).charge]⟩]

/-- The requests after the moments `es`, with the answers given so far. -/
structure AuditsAfter (initialized : Bool) (s : Audits ι) (es : List (AuditEvent ι))
    (os : List (AuditReply ι)) : Prop where
  cache : CacheHolds ft service hash requests initialized es s.cache
  nodup : es.Nodup
  looked : ∀ i, i ∈ s.looked ↔ .looks i ∈ es
  inFlight : ∀ i ∈ s.inFlight,
    i ∈ s.looked ∧ .stores i ∉ es ∧ ¬ Finds hash requests initialized es i
  pending : ∀ i ∈ s.inFlight, ∀ a ∈ os, a.request ≠ i
  once : (os.map (·.request)).Nodup
  stored : ∀ i, .stores i ∈ es → i ∈ s.looked
  answered : ∀ i ∈ s.looked, i ∈ s.inFlight ∨ ∃ a ∈ os, a.request = i
  replies : ∀ a ∈ os, a.request ∈ s.looked ∧ (a.tasks ≠ [] → .stores a.request ∈ es) ∧
    Settled service hash requests initialized es a

variable {ft service hash requests}

theorem Audits.moves_of_step {s s' : Audits ι} {e : AuditEvent ι} {o : List (AuditReply ι)}
    (hs : (audits ft service hash requests).step s e = some (s', o)) :
    s.Moves ft service hash requests e s' o := by
  cases e with
  | looks i =>
    by_cases hi : i ∈ s.looked
    · simp [audits, hi] at hs
    · cases hcached : (requests i).cachedResult ft hash s.cache with
      | none =>
        simp only [audits, if_neg hi, hcached, Option.some.injEq, Prod.mk.injEq] at hs
        obtain ⟨rfl, rfl⟩ := hs
        exact .miss hi hcached
      | some cachedResult =>
        simp only [audits, if_neg hi, hcached, Option.some.injEq, Prod.mk.injEq] at hs
        obtain ⟨rfl, rfl⟩ := hs
        exact .hit hi hcached
  | stores i =>
    by_cases hi : i ∈ s.inFlight
    · simp only [audits, if_pos hi, Option.some.injEq, Prod.mk.injEq] at hs
      obtain ⟨rfl, rfl⟩ := hs
      exact .store hi
    · simp [audits, hi] at hs

/-- **A request on its own** is `audit_voice_stream`. -/
theorem exists_run_alone {s : Audits ι} {i : ι} (hi : i ∉ s.looked) :
    ∃ moments s' a, (moments = [.looks i] ∨ moments = [.looks i, .stores i]) ∧
      (audits ft service hash requests).run s moments = some (s', [a]) ∧ a.request = i ∧
        auditVoiceText ft service hash s.cache (requests i) =
          (a.content.map (·, a.tasks), s'.cache) := by
  rw [auditVoiceText_eq]
  cases hcached : (requests i).cachedResult ft hash s.cache with
  | some cachedResult =>
    have hlooks : (audits ft service hash requests).step s (.looks i) =
        some ({ s with looked := insert i s.looked }, [⟨i, jsonContent cachedResult, []⟩]) := by
      simp only [audits, if_neg hi, hcached]
    exact ⟨_, _, _, .inl rfl, Machine.run_singleton _ hlooks, rfl, rfl⟩
  | none =>
    have hlooks : (audits ft service hash requests).step s (.looks i) =
        some ({ s with looked := insert i s.looked, inFlight := insert i s.inFlight }, []) := by
      simp only [audits, if_neg hi, hcached]
    exact ⟨_, _, _, .inr rfl, Machine.run_cons _ hlooks (Machine.run_singleton _
      (if_pos (Finset.mem_insert_self i s.inFlight))), rfl, rfl⟩

omit [DecidableEq ι] in
theorem auditsAfter_start :
    AuditsAfter ft service hash requests initialized (.start ι initialized) [] [] where
  cache := cacheHolds_fresh
  nodup := List.nodup_nil
  looked := fun i => by simp [Audits.start]
  inFlight := fun i hi => by simp [Audits.start] at hi
  pending := fun i hi => by simp [Audits.start] at hi
  once := List.nodup_nil
  stored := fun i hi => by simp at hi
  answered := fun i hi => by simp [Audits.start] at hi
  replies := fun a ha => by simp at ha

section Step

variable {s : Audits ι} {os : List (AuditReply ι)}

omit [DecidableEq ι] in
theorem nodup_requests_concat {a : AuditReply ι} (h : (os.map (·.request)).Nodup)
    (ha : ∀ b ∈ os, b.request ≠ a.request) : ((os ++ [a]).map (·.request)).Nodup := by
  rw [List.map_append]
  refine h.append (List.nodup_singleton _) (List.disjoint_singleton.mpr ?_)
  simpa using ha

omit [DecidableEq ι] in
theorem AuditsAfter.nodup_looks (h : AuditsAfter ft service hash requests initialized s es os)
    {i : ι} (hi : i ∉ s.looked) : .looks i ∉ es ∧ (es ++ [AuditEvent.looks i]).Nodup := by
  have hnot : .looks i ∉ es := fun hmem => hi ((h.looked i).mpr hmem)
  exact ⟨hnot, by simp [h.nodup.append, hnot]⟩

/-- A request that looks and finds a result returns it, if it can be sent… -/
theorem AuditsAfter.hit (h : AuditsAfter ft service hash requests initialized s es os)
    (hexact : ∀ j, ((requests j).request.analyze service).metadata.Exact ft) {i : ι}
    {cachedResult : Json ℚ} (hi : i ∉ s.looked)
    (hcached : (requests i).cachedResult ft hash s.cache = some cachedResult) :
    AuditsAfter ft service hash requests initialized { s with looked := insert i s.looked }
      (es ++ [.looks i]) (os ++ [⟨i, jsonContent cachedResult, []⟩]) := by
  obtain ⟨hnot, hnodup⟩ := h.nodup_looks hi
  obtain ⟨hinit, hget, j, hj, happ, hkey, hlive, rfl⟩ := h.cache.of_hit hexact hcached
  have hstored : StoredFor hash requests (es ++ [.looks i]) i j :=
    (storedFor_looks_iff hnot).mpr ⟨hj, happ, hkey, hlive⟩
  have hfresh : ∀ a ∈ os, a.request ≠ i := fun a ha hai => hi (hai ▸ (h.replies a ha).1)
  refine ⟨h.cache.looks i, hnodup, fun j => ?_, fun j hj => ?_, fun j hj => ?_, ?_,
    fun j hj => ?_, fun j hj => ?_, fun a ha => ?_⟩
  · simp [h.looked, or_comm, eq_comm]
  · obtain ⟨hlooked, hstores, hfinds⟩ := h.inFlight j hj
    rw [finds_concat_iff hnodup ((h.looked j).mp hlooked)]
    exact ⟨by simp [hlooked], by simpa using hstores, hfinds⟩
  · have hij : i ≠ j := fun hij => hi (hij ▸ (h.inFlight j hj).1)
    exact List.forall_mem_append.mpr ⟨h.pending j hj, by simpa using hij⟩
  · exact nodup_requests_concat h.once hfresh
  · exact Finset.mem_insert_of_mem (h.stored j (by simpa using hj))
  · rcases Finset.mem_insert.mp hj with rfl | hj
    · exact .inr ⟨_, List.mem_append_right _ (List.mem_singleton_self _), rfl⟩
    · exact (h.answered j hj).imp id fun ⟨a, ha, hja⟩ => ⟨a, by simp [ha], hja⟩
  · rcases List.mem_append.mp ha with ha | ha
    · obtain ⟨hlooked, hstores, hsettled⟩ := h.replies a ha
      exact ⟨by simp [hlooked], fun htasks => by simp [hstores htasks],
        hsettled.concat hnodup ((h.looked _).mp hlooked)⟩
    · obtain rfl := List.mem_singleton.mp ha
      exact ⟨by simp, fun htasks => absurd rfl htasks,
        .inl ⟨⟨hinit, hget, j, hstored⟩, rfl, j, hstored, rfl⟩⟩

/-- …one that looks and finds none is in flight… -/
theorem AuditsAfter.miss (h : AuditsAfter ft service hash requests initialized s es os)
    (hexact : ∀ j, ((requests j).request.analyze service).metadata.Exact ft) {i : ι}
    (hi : i ∉ s.looked) (hmiss : (requests i).cachedResult ft hash s.cache = none) :
    AuditsAfter ft service hash requests initialized
      { s with looked := insert i s.looked, inFlight := insert i s.inFlight }
      (es ++ [.looks i]) os := by
  obtain ⟨hnot, hnodup⟩ := h.nodup_looks hi
  refine ⟨h.cache.looks i, hnodup, fun j => ?_, fun j hj => ?_, fun j hj => ?_, h.once,
    fun j hj => ?_, fun j hj => ?_, fun a ha => ?_⟩
  · simp [h.looked, or_comm, eq_comm]
  · rcases Finset.mem_insert.mp hj with rfl | hj
    · refine ⟨by simp, fun hstores => hi (h.stored j (by simpa using hstores)), ?_⟩
      rintro ⟨hinit, hget, k, hstored⟩
      obtain ⟨hk, happ, hkey, hlive⟩ := (storedFor_looks_iff hnot).mp hstored
      exact hlive.not_ge (h.cache.of_miss hexact hmiss hinit hget hk happ hkey)
    · obtain ⟨hlooked, hstores, hfinds⟩ := h.inFlight j hj
      rw [finds_concat_iff hnodup ((h.looked j).mp hlooked)]
      exact ⟨by simp [hlooked], by simpa using hstores, hfinds⟩
  · rcases Finset.mem_insert.mp hj with rfl | hj
    · exact fun a ha haj => hi (haj ▸ (h.replies a ha).1)
    · exact h.pending j hj
  · exact Finset.mem_insert_of_mem (h.stored j (by simpa using hj))
  · rcases Finset.mem_insert.mp hj with rfl | hj
    · exact .inl (Finset.mem_insert_self _ _)
    · exact (h.answered j hj).imp (Finset.mem_insert_of_mem ·) id
  · obtain ⟨hlooked, hstores, hsettled⟩ := h.replies a ha
    exact ⟨by simp [hlooked], fun htasks => by simp [hstores htasks],
      hsettled.concat hnodup ((h.looked _).mp hlooked)⟩

/-- …until it stores its own result and returns that. -/
theorem AuditsAfter.store (h : AuditsAfter ft service hash requests initialized s es os) {i : ι}
    (hi : i ∈ s.inFlight) (hclock : InOrder requests (es ++ [.stores i])) :
    AuditsAfter ft service hash requests initialized
      { s with
        cache := (requests i).cacheSet ft service hash s.cache
        inFlight := s.inFlight.erase i }
      (es ++ [.stores i])
      (os ++ [⟨i, .ok ((requests i).result service), [(requests i).charge]⟩]) := by
  obtain ⟨hlooked, hnot, hfinds⟩ := h.inFlight i hi
  have hnodup : (es ++ [AuditEvent.stores i]).Nodup := by simp [h.nodup.append, hnot]
  refine ⟨h.cache.stores hclock, hnodup, fun j => ?_, fun j hj => ?_, fun j hj => ?_, ?_,
    fun j hj => ?_, fun j hj => ?_, fun a ha => ?_⟩
  · simp [h.looked]
  · obtain ⟨hne, hj⟩ := Finset.mem_erase.mp hj
    obtain ⟨hlooked, hstores, hfinds⟩ := h.inFlight j hj
    rw [finds_concat_iff hnodup ((h.looked j).mp hlooked)]
    exact ⟨hlooked, by simp [hstores, hne], hfinds⟩
  · obtain ⟨hne, hj⟩ := Finset.mem_erase.mp hj
    exact List.forall_mem_append.mpr ⟨h.pending j hj, by simpa using hne.symm⟩
  · exact nodup_requests_concat h.once (h.pending i hi)
  · rcases List.mem_append.mp hj with hj | hj
    · exact h.stored j hj
    · obtain rfl : j = i := by simpa using hj
      exact hlooked
  · by_cases hji : j = i
    · exact .inr ⟨_, List.mem_append_right _ (List.mem_singleton_self _), hji.symm⟩
    · exact (h.answered j hj).imp (Finset.mem_erase.mpr ⟨hji, ·⟩)
        fun ⟨a, ha, hja⟩ => ⟨a, by simp [ha], hja⟩
  · rcases List.mem_append.mp ha with ha | ha
    · obtain ⟨hlooked, hstores, hsettled⟩ := h.replies a ha
      exact ⟨hlooked, fun htasks => by simp [hstores htasks],
        hsettled.concat hnodup ((h.looked _).mp hlooked)⟩
    · obtain rfl := List.mem_singleton.mp ha
      refine ⟨hlooked, fun _ => by simp, .inr ⟨?_, rfl, rfl⟩⟩
      rwa [finds_concat_iff hnodup ((h.looked i).mp hlooked)]

theorem AuditsAfter.step (h : AuditsAfter ft service hash requests initialized s es os)
    (hexact : ∀ j, ((requests j).request.analyze service).metadata.Exact ft)
    {e : AuditEvent ι} (hclock : InOrder requests (es ++ [e])) {s' : Audits ι}
    {o : List (AuditReply ι)} (hmoves : s.Moves ft service hash requests e s' o) :
    AuditsAfter ft service hash requests initialized s' (es ++ [e]) (os ++ o) := by
  cases hmoves with
  | hit hi hcached => exact h.hit hexact hi hcached
  | miss hi hmiss =>
    rw [List.append_nil]
    exact h.miss hexact hi hmiss
  | store hi => exact h.store hi hclock

theorem auditsAfter_run
    (hexact : ∀ j, ((requests j).request.analyze service).metadata.Exact ft)
    (hclock : InOrder requests es)
    (hrun : (audits ft service hash requests).run (.start ι initialized) es = some (s, os)) :
    AuditsAfter ft service hash requests initialized s es os := by
  refine (audits ft service hash requests).run_history
    (I := fun s es os => InOrder requests es →
      AuditsAfter ft service hash requests initialized s es os)
    (fun s es os e s' o hI hs hclock => ?_) (fun _ => auditsAfter_start) hrun hclock
  exact (hI hclock.of_concat).step hexact hclock (Audits.moves_of_step hs)

/-- **Who is billed.** In every order of the moments of any requests, whatever Redis fails to do, a
request that finds a result stored under its key within the minute before it looked returns such a
result for nothing, and any other returns its own for the charge of a scan. -/
theorem settled_of_run
    (hexact : ∀ j, ((requests j).request.analyze service).metadata.Exact ft)
    (hclock : InOrder requests es)
    (hrun : (audits ft service hash requests).run (.start ι initialized) es = some (s, os)) :
    (∀ i, .looks i ∈ es → i ∈ s.inFlight ∨ ∃ a ∈ os, a.request = i) ∧
      (os.map (·.request)).Nodup ∧
        ∀ a ∈ os, Settled service hash requests initialized es a := by
  have h := auditsAfter_run hexact hclock hrun
  exact ⟨fun i hi => h.answered i ((h.looked i).mpr hi), h.once, fun a ha => (h.replies a ha).2.2⟩

/-- The same stream sent twice at once, at the same time. -/
def twice : Bool → AuditTextRequest := fun _ => flatRequest.answered

/-- Both look before either stores. -/
def twiceAtOnce : List (AuditEvent Bool) :=
  [.looks false, .looks true, .stores false, .stores true]

omit [DecidableEq ι] in
theorem inOrder_twiceAtOnce : InOrder twice twiceAtOnce := by
  simp [InOrder, AuditEvent.time, twice, twiceAtOnce, AuditVoiceRequest.answered, flatRequest,
    auditRequest]

theorem settled_of_run_twiceAtOnce :
    ∃ s os, (audits wholeText (.fallback .exact) (fun _ => 0) twice).run (.start Bool true)
      twiceAtOnce = some (s, os) ∧ (os.map (·.request)).Nodup ∧
        ∀ a ∈ os, Settled (.fallback .exact) (fun _ => 0) twice true twiceAtOnce a := by
  have hrun : (audits wholeText (.fallback .exact) (fun _ => 0) twice).run (.start Bool true)
      twiceAtOnce = some (_, _) := rfl
  exact ⟨_, _, hrun, (settled_of_run (fun _ => exact_flatRequest) inOrder_twiceAtOnce hrun).2⟩

end Step

theorem exists_first {α : Type} (p : α → Bool) (l : List α) : ∃ l₁ l₂, l = l₁ ++ l₂ ∧
    (∀ x ∈ l₁, p x = false) ∧ (l₂ = [] ∨ ∃ x l₃, l₂ = x :: l₃ ∧ p x = true) := by
  induction l with
  | nil => exact ⟨[], [], rfl, by simp, .inl rfl⟩
  | cons x l ih =>
    by_cases hx : p x = true
    · exact ⟨[], x :: l, rfl, by simp, .inr ⟨x, l, rfl, hx⟩⟩
    · obtain ⟨l₁, l₂, rfl, h₁, h₂⟩ := ih
      exact ⟨x :: l₁, l₂, rfl, List.forall_mem_cons.mpr ⟨by simpa using hx, h₁⟩, h₂⟩

/-- The moment stores under the key. -/
def AuditEvent.storesUnder (hash : List PyFloat → ℤ) (requests : ι → AuditTextRequest)
    (key : String) : AuditEvent ι → Bool
  | .looks _ => false
  | .stores i => (requests i).key hash = key

omit [DecidableEq ι] in
/-- Whoever looks after a result was stored under its key, in the same minute, finds it. -/
theorem finds_of_stores
    (hanswered : ∀ j, (requests j).onGet = .answered ∧ (requests j).onSet = .answered)
    {now rest : List (AuditEvent ι)} {i j : ι} {t : ℚ}
    (hminute : ∀ e ∈ now ++ .stores j :: rest, t ≤ e.time requests ∧ e.time requests < t + 60)
    (hkey : (requests j).key hash = (requests i).key hash) (hlooks : .looks i ∈ rest) :
    Finds hash requests true (now ++ .stores j :: rest) i := by
  have hread : (requests i).request.readAt < t + 60 := (hminute (.looks i) (by simp [hlooks])).2
  have hwritten : t ≤ (requests j).request.writtenAt := (hminute (.stores j) (by simp)).1
  have hpair : [.stores j, .looks i].Sublist (now ++ .stores j :: rest) :=
    ((List.singleton_sublist.mpr hlooks).cons_cons _).trans (List.sublist_append_right _ _)
  exact ⟨rfl, (hanswered i).1, j, hpair, by rw [(hanswered j).2]; rfl, hkey, by linarith⟩

/-- A request that finds nothing is in flight from when it looks until it stores. -/
theorem mem_inFlight_of_not_finds
    (hexact : ∀ j, ((requests j).request.analyze service).metadata.Exact ft)
    {es' : List (AuditEvent ι)} (hclock : InOrder requests (es ++ es')) {s₁ : Audits ι}
    {o₁ : List (AuditReply ι)}
    (hrun₁ : (audits ft service hash requests).run (.start ι initialized) es = some (s₁, o₁))
    {i : ι} (hmiss : ¬ Finds hash requests initialized (es ++ es') i) (hlooks : .looks i ∈ es)
    (hstores : .stores i ∉ es) : i ∈ s₁.inFlight := by
  have hafter₁ := auditsAfter_run hexact (hclock.sublist (List.sublist_append_left _ _)) hrun₁
  refine (hafter₁.answered i ((hafter₁.looked i).mpr hlooks)).resolve_right ?_
  rintro ⟨a, ha, rfl⟩
  obtain ⟨-, hstored, hsettled⟩ := hafter₁.replies a ha
  rcases hsettled with ⟨hfinds, -⟩ | ⟨-, hcharge, -⟩
  · exact hmiss (hfinds.mono (List.sublist_append_left _ _))
  · exact hstores (hstored (by simp [hcharge]))

/-- **Billed together.** Where Redis answers, of the requests with one key that look within a minute
those that are billed, then or later, are all in flight at one moment of that minute. -/
theorem exists_inFlight
    (hexact : ∀ j, ((requests j).request.analyze service).metadata.Exact ft)
    (hanswered : ∀ j, (requests j).onGet = .answered ∧ (requests j).onSet = .answered)
    {es' es'' : List (AuditEvent ι)} (hclock : InOrder requests (es ++ es' ++ es'')) {t : ℚ}
    (hminute : ∀ e ∈ es', t ≤ e.time requests ∧ e.time requests < t + 60)
    {s : Audits ι} {os : List (AuditReply ι)}
    (hrun : (audits ft service hash requests).run (.start ι true) (es ++ es' ++ es'') =
      some (s, os)) (key : String) :
    ∃ now later s₁ o₁, es' = now ++ later ∧
      (audits ft service hash requests).run (.start ι true) (es ++ now) = some (s₁, o₁) ∧
        ∀ a ∈ os, .looks a.request ∈ es' → (requests a.request).key hash = key → a.tasks ≠ [] →
          a.request ∈ s₁.inFlight := by
  -- the moment is the one before the first result is stored under the key
  obtain ⟨now, later, rfl, hnow, hlater⟩ := exists_first (AuditEvent.storesUnder hash requests key)
    es'
  have hafter := auditsAfter_run hexact hclock hrun
  have hsplit : es ++ (now ++ later) ++ es'' = (es ++ now) ++ (later ++ es'') := by simp
  rw [hsplit] at hrun hclock
  obtain ⟨s₁, o₁, -, hrun₁, -, -⟩ := ((audits ft service hash requests).run_append_iff).mp hrun
  refine ⟨now, later, s₁, o₁, rfl, hrun₁, fun a ha hlooks hkey htasks => ?_⟩
  have hmiss : ¬ Finds hash requests true (es ++ (now ++ later) ++ es'') a.request := by
    rcases (hafter.replies a ha).2.2 with h | h
    · exact absurd h.2.1 htasks
    · exact h.1
  have hlooks' : .looks a.request ∈ now := by
    refine (List.mem_append.mp hlooks).resolve_right fun hmem => ?_
    obtain ⟨e, rest, rfl, he⟩ := hlater.resolve_left (List.ne_nil_of_mem hmem)
    cases e with
    | looks i => simp [AuditEvent.storesUnder] at he
    | stores j =>
      have hj : (requests j).key hash = key := by simpa [AuditEvent.storesUnder] using he
      have hfinds := finds_of_stores hanswered hminute (hj.trans hkey.symm) (by simpa using hmem)
      exact hmiss (hfinds.mono ((List.sublist_append_right _ _).trans
        (List.sublist_append_left _ _)))
  -- it has not stored yet: not before it looked, and not since
  have hstores : .stores a.request ∉ es ++ now := by
    refine fun hmem => (List.mem_append.mp hmem).elim (fun hmem => ?_) fun hmem => ?_
    · rw [List.append_assoc] at hrun hclock
      obtain ⟨s₀, o₀, -, hrun₀, -, -⟩ := ((audits ft service hash requests).run_append_iff).mp hrun
      have hafter₀ := auditsAfter_run hexact (hclock.sublist (List.sublist_append_left _ _)) hrun₀
      have hbefore := (hafter₀.looked _).mp (hafter₀.stored _ hmem)
      have hnodup := hafter.nodup
      rw [hsplit, List.append_assoc] at hnodup
      exact (List.nodup_append.mp hnodup).2.2 _ hbefore _ (List.mem_append_left _ hlooks') rfl
    · have := hnow _ hmem
      simp [AuditEvent.storesUnder, hkey] at this
  exact mem_inFlight_of_not_finds hexact hclock hrun₁ (hsplit ▸ hmiss)
    (List.mem_append_right _ hlooks') hstores

/-- The requests look in one stretch and store in the next. -/
theorem exists_inFlight_twiceAtOnce :
    ∃ s os, (audits wholeText (.fallback .exact) (fun _ => 0) twice).run (.start Bool true)
      twiceAtOnce = some (s, os) ∧
        ∃ now later s₁ o₁, [.looks false, .looks true] = now ++ later ∧
          (audits wholeText (.fallback .exact) (fun _ => 0) twice).run (.start Bool true) now =
            some (s₁, o₁) ∧ ∀ a ∈ os,
              .looks a.request ∈ ([.looks false, .looks true] : List (AuditEvent Bool)) →
                (twice a.request).key (fun _ => 0) = (twice false).key (fun _ => 0) →
                  a.tasks ≠ [] → a.request ∈ s₁.inFlight := by
  have hrun : (audits wholeText (.fallback .exact) (fun _ => 0) twice).run (.start Bool true)
      ([] ++ [.looks false, .looks true] ++ [.stores false, .stores true]) = some (_, _) := rfl
  have hminute : ∀ e ∈ ([.looks false, .looks true] : List (AuditEvent Bool)),
      1 ≤ e.time twice ∧ e.time twice < 1 + 60 := by
    simp [AuditEvent.time, twice, AuditVoiceRequest.answered, flatRequest, auditRequest]
  exact ⟨_, _, hrun, exists_inFlight (fun _ => exact_flatRequest) (fun _ => ⟨rfl, rfl⟩)
    inOrder_twiceAtOnce hminute hrun _⟩

end Runs

end BioShield
