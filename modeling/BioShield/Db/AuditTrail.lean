import BioShield.Machinery.Json
import BioShield.Machinery.Machine
import Mathlib

/-!
# Db/AuditTrail — what the trail of tier changes can tell (`db/migrations/001_init.sql`)

A trigger on `developer_api_keys` writes a row of `audit_trail` for every row whose
`rate_limit_tier` an `UPDATE` changes.  Read backwards from the table as it is, the trail gives
every developer's tier at an earlier moment: the old value of the first entry after it.  That is
right at every moment of a run exactly if nobody is inserted, deleted or renamed in it
(`reconstructs_iff`): entries go by `developer_id`, and only tiers are written down.

The table is a list of rows that keeps both `UNIQUE` constraints.  A statement visits rows in any
order, checks `developer_id` row by row, and does all or nothing; the triggers fire at its end.
-/

namespace BioShield

open Machinery

/-- A row of `developer_api_keys`, with the columns the trigger reads. -/
structure DeveloperApiKey where
  id : ℕ
  developerId : String
  rateLimitTier : Option String
  deriving DecidableEq

/-- The `developer_api_keys` table, with the sequence of its `BIGSERIAL`. -/
structure DeveloperApiKeys where
  rows : List DeveloperApiKey
  nextval : ℕ
  id_lt : ∀ row ∈ rows, row.id < nextval
  nodup_id : (rows.map DeveloperApiKey.id).Nodup
  nodup_developerId : (rows.map DeveloperApiKey.developerId).Nodup

/-- A row of `audit_trail`, with the columns the trigger writes. -/
structure AuditTrailRow where
  userId : String
  action : String
  resourceType : String
  resourceId : String
  oldValue : Json ℚ
  newValue : Json ℚ

/-- `jsonb_build_object`, of one key and a text or `NULL`. -/
def jsonbBuildObject (key : String) (value : Option String) : Json ℚ :=
  .dict [(key, value.elim .null .str)]

/-- `audit_rate_limit_change`. -/
def auditRateLimitChange (currentUser : String) (old new : DeveloperApiKey) :
    List AuditTrailRow :=
  if old.rateLimitTier ≠ new.rateLimitTier then
    [{ userId := currentUser
       action := "RATE_LIMIT_CHANGE"
       resourceType := "developer_api_keys"
       resourceId := new.developerId
       oldValue := jsonbBuildObject "rate_limit_tier" old.rateLimitTier
       newValue := jsonbBuildObject "rate_limit_tier" new.rateLimitTier }]
  else []

namespace DeveloperApiKeys

/-! ## The statements -/

/-- The row under an id. -/
def find (t : DeveloperApiKeys) (id : ℕ) : Option DeveloperApiKey :=
  t.rows.find? fun row => row.id = id

/-- The row of a developer. -/
def ofDeveloper (t : DeveloperApiKeys) (developerId : String) : Option DeveloperApiKey :=
  t.rows.find? fun row => row.developerId = developerId

/-- Inserting one row; `none` for the tier is its `DEFAULT`. -/
def insertRow (t : DeveloperApiKeys) (developerId : String) (tier : Option (Option String)) :
    Option DeveloperApiKeys :=
  if h : developerId ∈ t.rows.map DeveloperApiKey.developerId then none
  else some
    { rows := t.rows ++ [⟨t.nextval, developerId, tier.getD (some "standard")⟩]
      nextval := t.nextval + 1
      id_lt := by
        intro row hrow
        obtain hrow | rfl := (List.mem_append.mp hrow).imp_right List.mem_singleton.mp
        · exact Nat.lt_succ_of_lt (t.id_lt row hrow)
        · exact Nat.lt_succ_self _
      nodup_id := by
        rw [List.map_append]
        refine t.nodup_id.append (List.nodup_singleton _) (List.disjoint_singleton.mpr ?_)
        intro hmem
        obtain ⟨row, hrow, hid⟩ := List.mem_map.mp hmem
        exact absurd hid (t.id_lt row hrow).ne
      nodup_developerId := by
        rw [List.map_append]
        exact t.nodup_developerId.append (List.nodup_singleton _)
          (List.disjoint_singleton.mpr h) }

/-- The rows, with another in the place of the one with its id. -/
def replaced (rows : List DeveloperApiKey) (new : DeveloperApiKey) : List DeveloperApiKey :=
  rows.map fun row => if row.id = new.id then new else row

theorem map_id_replaced (rows : List DeveloperApiKey) (new : DeveloperApiKey) :
    (replaced rows new).map DeveloperApiKey.id = rows.map DeveloperApiKey.id := by
  rw [replaced, List.map_map]
  refine List.map_congr_left fun row _ => ?_
  by_cases h : row.id = new.id <;> simp [h]

/-- Writing one row; its `developer_id` must be no other row's. -/
def writeRow (t : DeveloperApiKeys) (new : DeveloperApiKey) : Option DeveloperApiKeys :=
  if h : ((replaced t.rows new).map DeveloperApiKey.developerId).Nodup then some
    { rows := replaced t.rows new
      nextval := t.nextval
      id_lt := by
        intro row hrow
        have hid : row.id ∈ t.rows.map DeveloperApiKey.id := by
          rw [← map_id_replaced t.rows new]
          exact List.mem_map_of_mem hrow
        obtain ⟨row', hrow', heq⟩ := List.mem_map.mp hid
        exact heq ▸ t.id_lt row' hrow'
      nodup_id := by rw [map_id_replaced]; exact t.nodup_id
      nodup_developerId := h }
  else none

/-- Deleting rows. -/
def deleteRows (t : DeveloperApiKeys) (ids : List ℕ) : DeveloperApiKeys where
  rows := t.rows.filter fun row => row.id ∉ ids
  nextval := t.nextval
  id_lt := fun row hrow => t.id_lt row (List.mem_of_mem_filter hrow)
  nodup_id := t.nodup_id.sublist (List.filter_sublist.map _)
  nodup_developerId := t.nodup_developerId.sublist (List.filter_sublist.map _)

end DeveloperApiKeys

/-- The columns of the `SET` list of an `UPDATE`, as functions of the row. -/
structure SetList where
  rateLimitTier : Option (DeveloperApiKey → Option String)
  developerId : Option (DeveloperApiKey → String)

/-- The row an `UPDATE` makes of one. -/
def SetList.apply (set : SetList) (row : DeveloperApiKey) : DeveloperApiKey where
  id := row.id
  developerId := set.developerId.elim row.developerId (· row)
  rateLimitTier := set.rateLimitTier.elim row.rateLimitTier (· row)

/-- A statement; an `UPDATE` with the rows that match, in the order it visits them, each once. -/
inductive Statement
  | insert (values : List (String × Option (Option String)))
  | update (visits : List ℕ) (nodup : visits.Nodup) (set : SetList)
  | delete (ids : List ℕ)

/-- A statement, who executes it, and whether it fails for another reason than `developer_id` (or is
rolled back). -/
structure Execution where
  currentUser : String
  statement : Statement
  fails : Bool

namespace DeveloperApiKeys

/-- The rows of an `INSERT`. -/
def insertRows : List (String × Option (Option String)) → DeveloperApiKeys →
    Option DeveloperApiKeys
  | [], t => some t
  | (developerId, tier) :: values, t => do insertRows values (← t.insertRow developerId tier)

/-- The rows of an `UPDATE`, with each row as it was and as it is. -/
def updateRows (set : SetList) : List ℕ → DeveloperApiKeys →
    Option (DeveloperApiKeys × List (DeveloperApiKey × DeveloperApiKey))
  | [], t => some (t, [])
  | id :: visits, t =>
      match t.find id with
      | none => updateRows set visits t
      | some old => do
          let (t', changes) ← updateRows set visits (← t.writeRow (set.apply old))
          return (t', (old, set.apply old) :: changes)

/-- A statement and its triggers; `none` if it fails. -/
def execute (t : DeveloperApiKeys) (currentUser : String) :
    Statement → Option (DeveloperApiKeys × List AuditTrailRow)
  | .insert values => do return (← insertRows values t, [])
  | .update visits _ set => do
      let (t', changes) ← updateRows set visits t
      return (t',
        -- the trigger is one `OF rate_limit_tier`
        if set.rateLimitTier.isSome then
          changes.flatMap fun (old, new) => auditRateLimitChange currentUser old new
        else [])
  | .delete ids => some (t.deleteRows ids, [])

/-- Whose tier is what. -/
def tiers (t : DeveloperApiKeys) (developerId : String) : Option (Option String) :=
  (t.ofDeveloper developerId).map DeveloperApiKey.rateLimitTier

/-- The database, as a machine that tells what is written to `audit_trail`. -/
def database : Machine DeveloperApiKeys Execution AuditTrailRow where
  step t e :=
    some (if e.fails then (t, []) else (t.execute e.currentUser e.statement).getD (t, []))

end DeveloperApiKeys

/-! ## Reading the trail -/

/-- `value ->> 'rate_limit_tier'`. -/
def tierOf : Json ℚ → Option String
  | .dict items =>
      match items.find? fun item => item.1 = "rate_limit_tier" with
      | some (_, .str s) => some s
      | _ => none
  | _ => none

theorem tierOf_jsonbBuildObject (tier : Option String) :
    tierOf (jsonbBuildObject "rate_limit_tier" tier) = tier := by
  cases tier <;> rfl

/-- **A developer's tier before a stretch of the trail**: the first old value in it, if there is
one, and else the tier after it. -/
def tierBefore (trail : List AuditTrailRow) (developerId : String) (current : Option String) :
    Option String :=
  (trail.find? fun entry => entry.resourceId = developerId).elim current
    fun entry => tierOf entry.oldValue

/-- Everybody's tier before a stretch of the trail. -/
def undo (trail : List AuditTrailRow) (tiers : String → Option (Option String)) :
    String → Option (Option String) :=
  fun developerId => (tiers developerId).map (tierBefore trail developerId)

@[simp] theorem undo_nil (tiers : String → Option (Option String)) : undo [] tiers = tiers := by
  funext d
  exact Option.map_id'

theorem undo_append (trail trail' : List AuditTrailRow)
    (tiers : String → Option (Option String)) :
    undo (trail ++ trail') tiers = undo trail (undo trail' tiers) := by
  funext d
  rw [undo, undo, undo, Option.map_map]
  congr 1
  funext current
  rw [Function.comp_apply, tierBefore, tierBefore, List.find?_append]
  cases trail.find? fun entry => entry.resourceId = d <;> rfl

theorem undo_isSome (trail : List AuditTrailRow) (tiers : String → Option (Option String))
    (d : String) : (undo trail tiers d).isSome = (tiers d).isSome :=
  Option.isSome_map

/-- Where all that a stretch says of a developer is one old value, that is what it gives… -/
theorem tierBefore_eq {trail : List AuditTrailRow} {d : String} {current tier : Option String}
    (hold : ∀ entry ∈ trail, entry.resourceId = d → tierOf entry.oldValue = tier)
    (hnone : (∀ entry ∈ trail, entry.resourceId ≠ d) → current = tier) :
    tierBefore trail d current = tier := by
  rw [tierBefore]
  cases hfind : trail.find? fun entry => entry.resourceId = d with
  | none => exact hnone fun entry hentry => by simpa using List.find?_eq_none.mp hfind entry hentry
  | some entry =>
    exact hold entry (List.mem_of_find?_eq_some hfind) (by simpa using List.find?_some hfind)

theorem mem_auditRateLimitChange {currentUser : String} {old new : DeveloperApiKey}
    {entry : AuditTrailRow} (h : entry ∈ auditRateLimitChange currentUser old new) :
    entry.resourceId = new.developerId ∧ tierOf entry.oldValue = old.rateLimitTier := by
  rw [auditRateLimitChange] at h
  split_ifs at h with hne
  · obtain rfl := List.mem_singleton.mp h
    exact ⟨rfl, tierOf_jsonbBuildObject _⟩
  · exact absurd h List.not_mem_nil

theorem exists_mem_auditRateLimitChange {currentUser : String} {old new : DeveloperApiKey}
    (h : old.rateLimitTier ≠ new.rateLimitTier) :
    ∃ entry ∈ auditRateLimitChange currentUser old new, entry.resourceId = new.developerId := by
  rw [auditRateLimitChange, if_pos h]
  exact ⟨_, List.mem_singleton_self _, rfl⟩

/-! ## What the statements do to a row -/

theorem find?_eq_some_iff_of_nodup {α κ : Type*} [DecidableEq κ] {f : α → κ} {l : List α}
    (h : (l.map f).Nodup) {k : κ} {x : α} :
    l.find? (fun y => f y = k) = some x ↔ x ∈ l ∧ f x = k := by
  constructor
  · exact fun hfind => ⟨List.mem_of_find?_eq_some hfind, by simpa using List.find?_some hfind⟩
  · rintro ⟨hmem, rfl⟩
    cases hfind : l.find? fun y => f y = f x with
    | none => exact absurd (List.find?_eq_none.mp hfind x hmem) (by simp)
    | some y =>
      have hy : f y = f x := by simpa using List.find?_some hfind
      rw [List.inj_on_of_nodup_map h (List.mem_of_find?_eq_some hfind) hmem hy]

namespace DeveloperApiKeys

variable {t t' : DeveloperApiKeys} {row row' : DeveloperApiKey} {id : ℕ} {d : String}

theorem find_eq_some_iff : t.find id = some row ↔ row ∈ t.rows ∧ row.id = id :=
  find?_eq_some_iff_of_nodup t.nodup_id

theorem ofDeveloper_eq_some_iff : t.ofDeveloper d = some row ↔ row ∈ t.rows ∧ row.developerId = d :=
  find?_eq_some_iff_of_nodup t.nodup_developerId

theorem eq_of_id_eq (hrow : row ∈ t.rows) (hrow' : row' ∈ t.rows) (h : row.id = row'.id) :
    row = row' :=
  List.inj_on_of_nodup_map t.nodup_id hrow hrow' h

theorem tiers_eq_some (hrow : row ∈ t.rows) :
    t.tiers row.developerId = some row.rateLimitTier := by
  rw [tiers, ofDeveloper_eq_some_iff.mpr ⟨hrow, rfl⟩]
  rfl

theorem tiers_isSome_iff : (t.tiers d).isSome ↔ d ∈ t.rows.map DeveloperApiKey.developerId := by
  rw [tiers, Option.isSome_map, Option.isSome_iff_exists, List.mem_map]
  exact exists_congr fun row => ofDeveloper_eq_some_iff

theorem find_writeRow {new : DeveloperApiKey} (h : t.writeRow new = some t') (id : ℕ) :
    t'.find id = if id = new.id then (t.find id).map fun _ => new else t.find id := by
  rw [writeRow] at h
  split_ifs at h
  obtain rfl := Option.some.inj h
  have hid : ∀ row : DeveloperApiKey, (if row.id = new.id then new else row).id = row.id := by
    intro row
    by_cases h : row.id = new.id <;> simp [h]
  simp only [find, replaced, List.find?_map, Function.comp_def, hid]
  cases hfind : t.rows.find? fun row => row.id = id with
  | none => simp
  | some row =>
    have hrow : row.id = id := by simpa using List.find?_some hfind
    by_cases hid : id = new.id <;> simp [hid, hrow]

theorem exists_rename_writeRow {new : DeveloperApiKey} (h : t.writeRow new = some t')
    (hrow : row ∈ t.rows) (hid : row.id = new.id) (hne : new.developerId ≠ row.developerId) :
    new.developerId ∉ t.rows.map DeveloperApiKey.developerId := by
  intro hmem
  obtain ⟨other, hother, hname⟩ := List.mem_map.mp hmem
  -- the other row keeps the name, so two rows would have it
  have hotherid : other.id ≠ new.id := fun heq =>
    hne (hname ▸ congrArg DeveloperApiKey.developerId
      (t.eq_of_id_eq hother hrow (heq.trans hid.symm)))
  have hfind := t.find_writeRow h
  have hold : t'.find other.id = some other := by
    rw [hfind, if_neg hotherid]
    exact find_eq_some_iff.mpr ⟨hother, rfl⟩
  have hnew : t'.find new.id = some new := by
    rw [hfind, if_pos rfl, find_eq_some_iff.mpr ⟨hrow, hid⟩]
    rfl
  have heq := List.inj_on_of_nodup_map t'.nodup_developerId (find_eq_some_iff.mp hold).1
    (find_eq_some_iff.mp hnew).1 hname
  exact hotherid (congrArg DeveloperApiKey.id heq)

theorem names_writeRow {new : DeveloperApiKey} (h : t.writeRow new = some t') (hrow : row ∈ t.rows)
    (hid : row.id = new.id) (hname : new.developerId = row.developerId) :
    t'.rows.map DeveloperApiKey.developerId = t.rows.map DeveloperApiKey.developerId := by
  rw [writeRow] at h
  split_ifs at h
  obtain rfl := Option.some.inj h
  change (replaced t.rows new).map DeveloperApiKey.developerId = _
  rw [replaced, List.map_map]
  refine List.map_congr_left fun other hother => ?_
  by_cases hsame : other.id = new.id
  · rw [t.eq_of_id_eq hother hrow (hsame.trans hid.symm)]
    simp [hid, hname]
  · simp [hsame]

variable {set : SetList} {visits : List ℕ} {changes : List (DeveloperApiKey × DeveloperApiKey)}

/-- **An `UPDATE`, row by row**: the rows it visits are written, the others stay… -/
theorem find_updateRows (h : updateRows set visits t = some (t', changes)) (hnodup : visits.Nodup)
    (id : ℕ) : t'.find id = if id ∈ visits then (t.find id).map set.apply else t.find id := by
  induction visits generalizing t changes with
  | nil =>
    obtain ⟨rfl, -⟩ := Prod.mk.inj (Option.some.inj h)
    simp
  | cons first visits ih =>
    obtain ⟨hfirst, hnodup⟩ := List.nodup_cons.mp hnodup
    rw [updateRows] at h
    cases hfind : t.find first with
    | none =>
      rw [hfind] at h
      rw [ih h hnodup]
      by_cases hid : id = first
      · subst hid
        simp [hfirst, hfind]
      · simp [hid]
    | some old =>
      simp only [hfind, Option.bind_eq_bind, Option.bind_eq_some_iff, Option.pure_def,
        Option.some.injEq, Prod.mk.injEq] at h
      obtain ⟨t₁, hwrite, ⟨t₂, changes'⟩, hrest, rfl, -⟩ := h
      have hold : old.id = first := (find_eq_some_iff.mp hfind).2
      rw [ih hrest hnodup, t.find_writeRow hwrite]
      by_cases hid : id = first
      · subst hid
        simp [hfirst, hfind, SetList.apply, hold]
      · have hne : id ≠ (set.apply old).id := fun heq => hid (heq.trans hold)
        simp [hid, hne]

/-- …and each written row is a change. -/
theorem mem_changes_iff (h : updateRows set visits t = some (t', changes)) (hnodup : visits.Nodup)
    (change : DeveloperApiKey × DeveloperApiKey) :
    change ∈ changes ↔
      ∃ old ∈ t.rows, old.id ∈ visits ∧ change = (old, set.apply old) := by
  induction visits generalizing t changes with
  | nil =>
    obtain ⟨-, rfl⟩ := Prod.mk.inj (Option.some.inj h)
    simp
  | cons first visits ih =>
    obtain ⟨hfirst, hnodup⟩ := List.nodup_cons.mp hnodup
    rw [updateRows] at h
    cases hfind : t.find first with
    | none =>
      rw [hfind] at h
      rw [ih h hnodup]
      refine exists_congr fun old => and_congr_right fun hold => and_congr_left fun _ => ?_
      rw [List.mem_cons, or_iff_right]
      rintro hid
      rw [find_eq_some_iff.mpr ⟨hold, hid⟩] at hfind
      cases hfind
    | some old =>
      simp only [hfind, Option.bind_eq_bind, Option.bind_eq_some_iff, Option.pure_def,
        Option.some.injEq, Prod.mk.injEq] at h
      obtain ⟨t₁, hwrite, ⟨t₂, changes'⟩, hrest, rfl, rfl⟩ := h
      obtain ⟨hmem, hold⟩ := find_eq_some_iff.mp hfind
      -- of the rows still to visit, none has been written
      have hsame : ∀ row : DeveloperApiKey, row.id ∈ visits → (row ∈ t₁.rows ↔ row ∈ t.rows) := by
        intro row hrow
        have hne : row.id ≠ (set.apply old).id := fun heq => hfirst (hold ▸ heq ▸ hrow)
        have hfind₁ := t.find_writeRow hwrite row.id
        rw [if_neg hne] at hfind₁
        have hiff : ∀ t : DeveloperApiKeys, row ∈ t.rows ↔ t.find row.id = some row := fun t =>
          ⟨fun h => find_eq_some_iff.mpr ⟨h, rfl⟩, fun h => (find_eq_some_iff.mp h).1⟩
        rw [hiff, hiff, hfind₁]
      rw [List.mem_cons, ih hrest hnodup]
      constructor
      · rintro (rfl | ⟨row, hrow, hvisit, rfl⟩)
        · exact ⟨old, hmem, hold ▸ List.mem_cons_self, rfl⟩
        · exact ⟨row, (hsame row hvisit).mp hrow, List.mem_cons_of_mem _ hvisit, rfl⟩
      · rintro ⟨row, hrow, hvisit, rfl⟩
        obtain hid | hvisit := List.mem_cons.mp hvisit
        · exact .inl (t.eq_of_id_eq hrow hmem (hid.trans hold.symm) ▸ rfl)
        · exact .inr ⟨row, (hsame row hvisit).mpr hrow, hvisit, rfl⟩

/-- **A rename makes a name** that there was not before. -/
theorem exists_name_of_rename (h : updateRows set visits t = some (t', changes))
    (hnodup : visits.Nodup) (hrow : row ∈ t.rows) (hvisit : row.id ∈ visits)
    (hne : (set.apply row).developerId ≠ row.developerId) :
    ∃ new ∈ t'.rows, new.developerId ∉ t.rows.map DeveloperApiKey.developerId := by
  induction visits generalizing t changes with
  | nil => exact absurd hvisit List.not_mem_nil
  | cons first visits ih =>
    obtain ⟨hfirst, hnodup'⟩ := List.nodup_cons.mp hnodup
    have hfinal := find_updateRows h hnodup
    rw [updateRows] at h
    cases hfind : t.find first with
    | none =>
      rw [hfind] at h
      refine ih h hnodup' hrow ((List.mem_cons.mp hvisit).resolve_left fun hid => ?_)
      rw [find_eq_some_iff.mpr ⟨hrow, hid⟩] at hfind
      cases hfind
    | some old =>
      simp only [hfind, Option.bind_eq_bind, Option.bind_eq_some_iff, Option.pure_def,
        Option.some.injEq, Prod.mk.injEq] at h
      obtain ⟨t₁, hwrite, ⟨t₂, changes'⟩, hrest, rfl, rfl⟩ := h
      obtain ⟨hmem, hold⟩ := find_eq_some_iff.mp hfind
      by_cases hkeep : (set.apply old).developerId = old.developerId
      · have hnames : t₁.rows.map DeveloperApiKey.developerId =
            t.rows.map DeveloperApiKey.developerId := names_writeRow hwrite hmem rfl hkeep
        have hlater : row.id ∈ visits := by
          refine (List.mem_cons.mp hvisit).resolve_left fun hid => hne ?_
          rwa [t.eq_of_id_eq hrow hmem (hid.trans hold.symm)]
        have hrow₁ : row ∈ t₁.rows := by
          have hne : row.id ≠ (set.apply old).id := fun heq => hfirst (hold ▸ heq ▸ hlater)
          have hfind₁ := t.find_writeRow hwrite row.id
          rw [if_neg hne, find_eq_some_iff.mpr ⟨hrow, rfl⟩] at hfind₁
          exact (find_eq_some_iff.mp hfind₁).1
        rw [← hnames]
        exact ih hrest hnodup' hrow₁ hlater
      · -- the row is not visited again
        have hnew := hfinal first
        rw [if_pos List.mem_cons_self, hfind] at hnew
        exact ⟨set.apply old, (find_eq_some_iff.mp hnew).1,
          exists_rename_writeRow hwrite hmem rfl hkeep⟩

end DeveloperApiKeys

/-! ## What the trail can tell -/

/-- **Nobody is inserted, deleted or renamed** by the statement. -/
def Statement.KeepsDevelopers (t : DeveloperApiKeys) : Statement → Prop
  | .insert values => values = []
  | .update visits _ set =>
      ∀ row ∈ t.rows, row.id ∈ visits → (set.apply row).developerId = row.developerId
  | .delete ids => ∀ row ∈ t.rows, row.id ∉ ids

namespace DeveloperApiKeys

variable {t t' : DeveloperApiKeys} {row row' : DeveloperApiKey} {currentUser : String}
  {statement : Statement} {trail : List AuditTrailRow}

/-- The executions that take effect keep the developers. -/
def KeepsDevelopers (t : DeveloperApiKeys) (e : Execution) : Prop :=
  e.fails = false → (t.execute e.currentUser e.statement).isSome →
    e.statement.KeepsDevelopers t

theorem prefix_insertRows {values : List (String × Option (Option String))}
    (h : insertRows values t = some t') : t.rows <+: t'.rows := by
  induction values generalizing t with
  | nil => exact Option.some.inj h ▸ List.prefix_refl _
  | cons value values ih =>
    obtain ⟨t₁, hfirst, hrest⟩ := Option.bind_eq_some_iff.mp h
    rw [insertRow] at hfirst
    split_ifs at hfirst
    obtain rfl := Option.some.inj hfirst
    exact (List.prefix_append _ _).trans (ih hrest)

theorem exists_name_insertRows {value : String × Option (Option String)}
    {values : List (String × Option (Option String))}
    (h : insertRows (value :: values) t = some t') :
    ∃ new ∈ t'.rows, new.developerId ∉ t.rows.map DeveloperApiKey.developerId := by
  obtain ⟨t₁, hfirst, hrest⟩ := Option.bind_eq_some_iff.mp h
  rw [insertRow] at hfirst
  split_ifs at hfirst with hnew
  obtain rfl := Option.some.inj hfirst
  exact ⟨_, (prefix_insertRows hrest).subset (List.mem_append_right _ (List.mem_singleton_self _)),
    hnew⟩

/-- An `UPDATE` that executes, with its changes. -/
theorem execute_update {visits : List ℕ} {nodup : visits.Nodup} {set : SetList}
    (h : t.execute currentUser (.update visits nodup set) = some (t', trail)) :
    ∃ changes, updateRows set visits t = some (t', changes) ∧
      trail = if set.rateLimitTier.isSome then
        changes.flatMap fun change => auditRateLimitChange currentUser change.1 change.2
      else [] := by
  obtain ⟨⟨t₁, changes⟩, hrows, hret⟩ := Option.bind_eq_some_iff.mp h
  obtain ⟨rfl, rfl⟩ := Prod.mk.inj (Option.some.inj hret)
  exact ⟨changes, hrows, rfl⟩

/-- **The trail of a statement gives a row's old tier**, if its developer has the same name before
and after. -/
theorem tierBefore_execute (h : t.execute currentUser statement = some (t', trail))
    (hrow : row ∈ t.rows) (hrow' : row' ∈ t'.rows) (hid : row'.id = row.id)
    (hname : row'.developerId = row.developerId) :
    tierBefore trail row.developerId row'.rateLimitTier = row.rateLimitTier := by
  cases statement with
  | insert values =>
    obtain ⟨t₁, hrows, hret⟩ := Option.bind_eq_some_iff.mp h
    obtain ⟨rfl, rfl⟩ := Prod.mk.inj (Option.some.inj hret)
    rw [t₁.eq_of_id_eq hrow' ((prefix_insertRows hrows).subset hrow) hid]
    rfl
  | delete ids =>
    obtain ⟨rfl, rfl⟩ := Prod.mk.inj (Option.some.inj h)
    rw [t.eq_of_id_eq (List.mem_of_mem_filter hrow') hrow hid]
    rfl
  | update visits nodup set =>
    obtain ⟨changes, hrows, rfl⟩ := execute_update h
    have hchange := mem_changes_iff hrows nodup
    have hfind := find_updateRows hrows nodup
    have hnow : row' = if row.id ∈ visits then set.apply row else row := by
      have hfind' := hfind row.id
      rw [find_eq_some_iff.mpr ⟨hrow', hid⟩, find_eq_some_iff.mpr ⟨hrow, rfl⟩] at hfind'
      split_ifs at hfind' ⊢ <;> exact Option.some.inj hfind'
    refine tierBefore_eq (fun entry hentry hresource => ?_) fun hnone => ?_
    · split_ifs at hentry with hset
      · obtain ⟨change, hmem, hentry⟩ := List.mem_flatMap.mp hentry
        obtain ⟨old, hold, hvisit, rfl⟩ := (hchange change).mp hmem
        obtain ⟨hresource', hvalue⟩ := mem_auditRateLimitChange hentry
        -- the entry is about this row: another would have its name
        have hnew : set.apply old ∈ t'.rows := by
          have hfind' := hfind old.id
          rw [if_pos hvisit, find_eq_some_iff.mpr ⟨hold, rfl⟩] at hfind'
          exact (find_eq_some_iff.mp hfind').1
        have hsame := List.inj_on_of_nodup_map t'.nodup_developerId hnew hrow'
          (hresource'.symm.trans (hresource.trans hname.symm))
        rw [hvalue, t.eq_of_id_eq hold hrow ((congrArg DeveloperApiKey.id hsame).trans hid)]
      · exact absurd hentry List.not_mem_nil
    · rw [hnow]
      split_ifs with hvisit
      · cases htier : set.rateLimitTier with
        | none => simp [SetList.apply, htier]
        | some tier =>
          by_contra hne
          have hwritten : ∃ entry ∈ auditRateLimitChange currentUser row (set.apply row),
              entry.resourceId = (set.apply row).developerId :=
            exists_mem_auditRateLimitChange (Ne.symm hne)
          obtain ⟨entry, hentry, hresource⟩ := hwritten
          rw [if_pos (by rw [htier]; rfl)] at hnone
          refine hnone entry (List.mem_flatMap.mpr ⟨(row, set.apply row),
            (hchange _).mpr ⟨row, hrow, hvisit, rfl⟩, hentry⟩) (hresource.trans ?_)
          rw [if_pos hvisit] at hnow
          rw [← hnow, hname]
      · rfl

/-- A statement that keeps the developers keeps each developer's row… -/
theorem exists_kept (h : t.execute currentUser statement = some (t', trail))
    (hkeep : statement.KeepsDevelopers t) (hrow : row ∈ t.rows) :
    ∃ row' ∈ t'.rows, row'.id = row.id ∧ row'.developerId = row.developerId := by
  cases statement with
  | insert values =>
    obtain ⟨t₁, hrows, hret⟩ := Option.bind_eq_some_iff.mp h
    obtain ⟨rfl, rfl⟩ := Prod.mk.inj (Option.some.inj hret)
    exact ⟨row, (prefix_insertRows hrows).subset hrow, rfl, rfl⟩
  | delete ids =>
    obtain ⟨rfl, rfl⟩ := Prod.mk.inj (Option.some.inj h)
    exact ⟨row, List.mem_filter.mpr ⟨hrow, by simpa using hkeep row hrow⟩, rfl, rfl⟩
  | update visits nodup set =>
    obtain ⟨changes, hrows, rfl⟩ := execute_update h
    have hfind := find_updateRows hrows nodup row.id
    rw [find_eq_some_iff.mpr ⟨hrow, rfl⟩] at hfind
    split_ifs at hfind with hvisit
    · exact ⟨set.apply row, (find_eq_some_iff.mp hfind).1, rfl, hkeep row hrow hvisit⟩
    · exact ⟨row, (find_eq_some_iff.mp hfind).1, rfl, rfl⟩

/-- …and brings no other. -/
theorem name_mem_of_keepsDevelopers (h : t.execute currentUser statement = some (t', trail))
    (hkeep : statement.KeepsDevelopers t) (hrow' : row' ∈ t'.rows) :
    row'.developerId ∈ t.rows.map DeveloperApiKey.developerId := by
  cases statement with
  | insert values =>
    obtain rfl : values = [] := hkeep
    obtain ⟨rfl, rfl⟩ := Prod.mk.inj (Option.some.inj h)
    exact List.mem_map_of_mem hrow'
  | delete ids =>
    obtain ⟨rfl, rfl⟩ := Prod.mk.inj (Option.some.inj h)
    exact List.mem_map_of_mem (List.mem_of_mem_filter hrow')
  | update visits nodup set =>
    obtain ⟨changes, hrows, rfl⟩ := execute_update h
    have hfind := find_updateRows hrows nodup row'.id
    rw [find_eq_some_iff.mpr ⟨hrow', rfl⟩] at hfind
    split_ifs at hfind with hvisit
    · obtain ⟨row, hrow, rfl⟩ := Option.map_eq_some_iff.mp hfind.symm
      obtain ⟨hmem, hid⟩ := find_eq_some_iff.mp hrow
      rw [hkeep row hmem (hid ▸ hvisit)]
      exact List.mem_map_of_mem hmem
    · exact List.mem_map_of_mem (find_eq_some_iff.mp hfind.symm).1

/-- **The developers are the same before and after** a statement exactly if it keeps them. -/
theorem names_iff (h : t.execute currentUser statement = some (t', trail)) :
    (∀ d, d ∈ t'.rows.map DeveloperApiKey.developerId ↔
      d ∈ t.rows.map DeveloperApiKey.developerId) ↔ statement.KeepsDevelopers t := by
  constructor
  · intro hsame
    cases statement with
    | insert values =>
      obtain ⟨t₁, hrows, hret⟩ := Option.bind_eq_some_iff.mp h
      obtain ⟨rfl, rfl⟩ := Prod.mk.inj (Option.some.inj hret)
      cases values with
      | nil => rfl
      | cons value values =>
        obtain ⟨new, hnew, hname⟩ := exists_name_insertRows hrows
        exact absurd ((hsame _).mp (List.mem_map_of_mem hnew)) hname
    | delete ids =>
      obtain ⟨rfl, rfl⟩ := Prod.mk.inj (Option.some.inj h)
      intro row hrow hdeleted
      obtain ⟨other, hother, hname⟩ := List.mem_map.mp ((hsame _).mpr (List.mem_map_of_mem hrow))
      obtain ⟨hmem, hstays⟩ := List.mem_filter.mp hother
      obtain rfl := List.inj_on_of_nodup_map t.nodup_developerId hmem hrow hname
      exact absurd hdeleted (by simpa using hstays)
    | update visits nodup set =>
      obtain ⟨changes, hrows, rfl⟩ := execute_update h
      intro row hrow hvisit
      by_contra hne
      obtain ⟨new, hnew, hname⟩ := exists_name_of_rename hrows nodup hrow hvisit hne
      exact hname ((hsame _).mp (List.mem_map_of_mem hnew))
  · intro hkeep d
    constructor
    · intro hmem
      obtain ⟨row', hrow', rfl⟩ := List.mem_map.mp hmem
      exact name_mem_of_keepsDevelopers h hkeep hrow'
    · intro hmem
      obtain ⟨row, hrow, rfl⟩ := List.mem_map.mp hmem
      obtain ⟨row', hrow', -, hname⟩ := exists_kept h hkeep hrow
      exact hname ▸ List.mem_map_of_mem hrow'

/-- **When a statement's trail undoes it**: if it keeps the developers. -/
theorem undo_execute_iff (h : t.execute currentUser statement = some (t', trail)) :
    undo trail t'.tiers = t.tiers ↔ statement.KeepsDevelopers t := by
  rw [← names_iff h]
  constructor
  · intro hundo d
    rw [← tiers_isSome_iff, ← tiers_isSome_iff, ← hundo, undo_isSome]
  · intro hsame
    have hkeep := (names_iff h).mp hsame
    funext d
    by_cases hmem : d ∈ t.rows.map DeveloperApiKey.developerId
    · obtain ⟨row, hrow, rfl⟩ := List.mem_map.mp hmem
      obtain ⟨row', hrow', hid, hname⟩ := exists_kept h hkeep hrow
      rw [undo, tiers_eq_some hrow, ← hname, tiers_eq_some hrow', Option.map_some, hname,
        tierBefore_execute h hrow hrow' hid hname]
    · have hnone : t.tiers d = none := by
        rwa [← tiers_isSome_iff, Option.not_isSome_iff_eq_none] at hmem
      have hnone' : t'.tiers d = none := by
        rwa [← hsame, ← tiers_isSome_iff, Option.not_isSome_iff_eq_none] at hmem
      rw [undo, hnone, hnone']
      rfl

/-- **When a step's trail undoes it**… -/
theorem undo_step_iff {e : Execution} (h : database.step t e = some (t', trail)) :
    undo trail t'.tiers = t.tiers ↔ t.KeepsDevelopers e := by
  have hstep := Option.some.inj h
  by_cases hfails : e.fails = true
  · rw [if_pos hfails] at hstep
    obtain ⟨rfl, rfl⟩ := Prod.mk.inj hstep
    rw [undo_nil]
    exact iff_of_true rfl fun hok => absurd hfails (by simp [hok])
  · rw [if_neg hfails] at hstep
    cases hexec : t.execute e.currentUser e.statement with
    | none =>
      rw [hexec] at hstep
      obtain ⟨rfl, rfl⟩ := Prod.mk.inj hstep
      rw [undo_nil]
      exact iff_of_true rfl fun _ hok => by simp [hexec] at hok
    | some result =>
      rw [hexec] at hstep
      rw [undo_execute_iff (hexec.trans (congrArg some hstep)), KeepsDevelopers, hexec]
      simp [hfails]

/-- …and a run's, at every moment. **The trail tells every earlier moment of a run** exactly if
nobody is inserted, deleted or renamed in it. -/
theorem reconstructs_iff {es : List Execution} (hrun : database.run t es = some (t', trail)) :
    (∀ pre post t₁ o o', es = pre ++ post → database.run t pre = some (t₁, o) →
        database.run t₁ post = some (t', o') → undo o' t'.tiers = t₁.tiers) ↔
      database.Along KeepsDevelopers t es := by
  constructor
  · intro h
    induction es generalizing t trail with
    | nil => exact database.along_nil _ _
    | cons e es ih =>
      obtain ⟨t₁, o, o', hstep, hrest, rfl⟩ := (Machine.run_cons_iff _).mp hrun
      have hall := h [] (e :: es) t [] (o ++ o') rfl rfl hrun
      have htail := h [e] es t₁ o o' rfl (database.run_singleton hstep) hrest
      rw [undo_append, htail] at hall
      refine database.along_cons hstep ((undo_step_iff hstep).mp hall) (ih hrest ?_)
      intro pre post t₂ p p' hes hpre hpost
      exact h (e :: pre) post t₂ (o ++ p) p' (by rw [hes]; rfl) (database.run_cons hstep hpre) hpost
  · rintro h pre post t₁ o o' rfl hpre hpost
    rw [Machine.along_append_iff _ hpre] at h
    replace h := h.2
    clear hpre hrun
    induction post generalizing t₁ o' with
    | nil =>
      obtain ⟨rfl, rfl⟩ := Prod.mk.inj (Option.some.inj hpost)
      exact undo_nil _
    | cons e post ih =>
      obtain ⟨t₂, p, p', hstep, hrest, rfl⟩ := (Machine.run_cons_iff _).mp hpost
      rw [undo_append, ih t₂ p' hrest (h.2 t₂ p hstep)]
      exact (undo_step_iff hstep).mpr h.1

/-- One developer, who pays for a tier and then for another… -/
def acme : DeveloperApiKeys where
  rows := [⟨0, "acme", some "free"⟩]
  nextval := 1
  id_lt := by simp
  nodup_id := List.nodup_singleton _
  nodup_developerId := List.nodup_singleton _

def upgrades : List Execution :=
  ["developer", "ultra"].map fun tier =>
    ⟨"admin", .update [0] (List.nodup_singleton 0) ⟨some fun _ => some tier, none⟩, false⟩

/-- …and what the trail tells of it. -/
theorem reconstructs_iff_upgrades :
    ∃ t' trail, database.run acme upgrades = some (t', trail) ∧
      ∀ pre post t₁ o o', upgrades = pre ++ post → database.run acme pre = some (t₁, o) →
        database.run t₁ post = some (t', o') → undo o' t'.tiers = t₁.tiers := by
  refine ⟨_, _, rfl, (reconstructs_iff rfl).mpr (database.along_of_forall fun e he t _ _ => ?_)⟩
  obtain ⟨tier, -, rfl⟩ := List.mem_map.mp he
  exact fun _ _ _ => rfl

end DeveloperApiKeys

end BioShield
