import AiopsLog.Runs

/-!
# Component health

What the table `component_health` is for: it keeps, for each component, a *tally*
(`AiopsLog.Tally`) – how many events, how many of them anomalous, and when the latest
was. Tallies add up, and that is all there is to the table's totals: a batch that
commits adds its tallies to the table's, a batch that does not leaves the table alone
(`AiopsLog.componentHealth_updateComponentHealth`). So after any run the table holds the
tallies of the rows committed so far, which depend neither on their order nor on how
they were cut into batches (`AiopsLog.componentHealth_accumulates`).
-/

namespace AiopsLog

open Py Py.Code

/-! ### Tallies -/

/-- What is kept of a component's rows. -/
@[ext] structure Tally where
  events : ℕ
  anomalies : ℕ
  lastSeen : Option Timestamp
  deriving DecidableEq

namespace Tally

instance : Zero Tally := ⟨⟨0, 0, none⟩⟩

instance : Add Tally :=
  ⟨fun a b => ⟨a.events + b.events, a.anomalies + b.anomalies, max a.lastSeen b.lastSeen⟩⟩

@[simp] theorem lastSeen_zero : (0 : Tally).lastSeen = none := rfl

variable (a b : Tally)

@[simp] theorem events_add : (a + b).events = a.events + b.events := rfl

@[simp] theorem anomalies_add : (a + b).anomalies = a.anomalies + b.anomalies := rfl

@[simp] theorem lastSeen_add : (a + b).lastSeen = max a.lastSeen b.lastSeen := rfl

instance : AddCommMonoid Tally where
  add_assoc a b c := Tally.ext (Nat.add_assoc _ _ _) (Nat.add_assoc _ _ _)
    (Nullable.greatest_assoc _ _ _)
  zero_add a := Tally.ext (Nat.zero_add _) (Nat.zero_add _) (by simp)
  add_zero a := Tally.ext (Nat.add_zero _) (Nat.add_zero _) (by simp)
  add_comm a b := Tally.ext (Nat.add_comm _ _) (Nat.add_comm _ _) (Nullable.greatest_comm _ _)
  nsmul := nsmulRec

end Tally

/-- The tally of a row. -/
def ProcessedRow.tally (row : ProcessedRow) : Tally := ⟨1, row.isAnomaly, row.eventTime⟩

/-- The rows of a component. -/
def rowsOf (c : String) (rows : List ProcessedRow) : List ProcessedRow :=
  rows.filter (·.component = c)

/-- The tally of some rows. -/
def tallyOf (rows : List ProcessedRow) : Tally := (rows.map (·.tally)).sum

section Sums

variable (rows : List ProcessedRow)

@[simp] theorem events_tallyOf : (tallyOf rows).events = rows.length := by
  induction rows with
  | nil => rfl
  | cons row rows ih =>
    rw [tallyOf, List.map_cons, List.sum_cons, Tally.events_add, List.length_cons, Nat.add_comm]
    exact congrArg (· + 1) ih

@[simp] theorem anomalies_tallyOf : (tallyOf rows).anomalies = (rows.map (·.isAnomaly)).sum := by
  induction rows with
  | nil => rfl
  | cons row rows ih =>
    rw [tallyOf, List.map_cons, List.sum_cons, Tally.anomalies_add, List.map_cons, List.sum_cons]
    exact congrArg (row.isAnomaly + ·) ih

@[simp] theorem lastSeen_tallyOf :
    (tallyOf rows).lastSeen = Nullable.maximum (rows.map (·.eventTime)) := by
  induction rows with
  | nil => rfl
  | cons row rows ih =>
    rw [tallyOf, List.map_cons, List.sum_cons, Tally.lastSeen_add, List.map_cons,
      Nullable.maximum_cons]
    exact congrArg (max row.eventTime ·) ih

/-- The flags of scored rows count the anomalies. -/
theorem sum_isAnomaly {rows : List ProcessedRow} (h : Scored rows) :
    (rows.map (·.isAnomaly)).sum = rows.countP (·.isAnomaly = 1) := by
  induction rows with
  | nil => rfl
  | cons row rows ih =>
    have hrow : row.isAnomaly ≤ 1 := h row List.mem_cons_self
    rw [List.map_cons, List.sum_cons, ih fun r hr => h r (List.mem_cons_of_mem _ hr),
      List.countP_cons]
    by_cases h1 : row.isAnomaly = 1
    · simp [h1, Nat.add_comm]
    · have h0 : row.isAnomaly = 0 := by omega
      simp [h0]

theorem scored_rowsOf {rows : List ProcessedRow} (h : Scored rows) (c : String) :
    Scored (rowsOf c rows) :=
  fun row hrow => h row (List.mem_of_mem_filter hrow)

end Sums

theorem tallyOf_append (rows rows' : List ProcessedRow) :
    tallyOf (rows ++ rows') = tallyOf rows + tallyOf rows' := by
  rw [tallyOf, List.map_append, List.sum_append]
  rfl

theorem tallyOf_perm {rows rows' : List ProcessedRow} (h : rows.Perm rows') :
    tallyOf rows = tallyOf rows' :=
  (h.map _).sum_eq

/-! ### The table keeps tallies -/

/-- The tally a row of the table holds. -/
def HealthRow.tally (h : HealthRow) : Tally := ⟨h.totalEvents, h.totalAnomalies, h.lastSeen⟩

/-- The tally the table holds of a component. -/
def tallyIn (table : List HealthRow) (c : String) : Tally :=
  Sql.total HealthRow.component HealthRow.tally c table

theorem component_mergeHealth (r x : HealthRow) : (mergeHealth r x).component = r.component := rfl

/-- **The upsert adds tallies.** -/
theorem tally_mergeHealth (r x : HealthRow) : (mergeHealth r x).tally = r.tally + x.tally := rfl

/-- The rows a batch proposes. -/
def proposedRows (df : List ProcessedRow) : List HealthRow := (healthAgg df).map healthRow

theorem upsertBatch_eq (df : List ProcessedRow) (table : List HealthRow) :
    upsertBatch df table
      = Sql.upsertAll HealthRow.component mergeHealth (proposedRows df) table := by
  rw [Sql.upsertAll, proposedRows, List.foldl_map]
  rfl

theorem map_component_proposedRows (df : List ProcessedRow) :
    (proposedRows df).map (·.component) = (df.map (·.component)).dedup := by
  rw [← Bag.map_fst_groupBy, proposedRows, healthAgg, List.map_map, List.map_map]
  rfl

theorem nodup_proposedRows (df : List ProcessedRow) :
    ((proposedRows df).map (·.component)).Nodup := by
  rw [map_component_proposedRows]
  exact List.nodup_dedup _

/-- **A batch proposes the tally of its rows**, component by component. -/
theorem tallyIn_proposedRows (df : List ProcessedRow) (c : String) :
    tallyIn (proposedRows df) c = tallyOf (rowsOf c df) := by
  have hrow : ∀ g : String × List ProcessedRow,
      (healthRow ⟨g.1, g.2.length, (g.2.map (·.isAnomaly)).sum,
        Nullable.maximum (g.2.map (·.eventTime))⟩).tally = (g.2.map (·.tally)).sum := by
    intro g
    have hg : (g.2.map (·.tally)).sum = tallyOf g.2 := rfl
    rw [hg]
    exact Tally.ext (events_tallyOf _).symm (anomalies_tallyOf _).symm (lastSeen_tallyOf _).symm
  rw [tallyIn, Sql.total_eq_sum (nodup_proposedRows df)]
  -- of the groups only that of `c` is selected, and its tallies add up to those of its rows
  have hsum := Bag.sum_groupBy_filter (fun r : ProcessedRow => r.component) ProcessedRow.tally
    (fun k => decide (k = c)) df
  rw [rowsOf, tallyOf, ← hsum, proposedRows, healthAgg, List.map_map, List.filter_map, List.map_map]
  exact congrArg List.sum (List.map_congr_left fun g _ => hrow g)

/-- **A batch adds its tallies to the table's.** -/
theorem tallyIn_upsertBatch (df : List ProcessedRow) (table : List HealthRow) (c : String) :
    tallyIn (upsertBatch df table) c = tallyIn table c + tallyOf (rowsOf c df) := by
  rw [← tallyIn_proposedRows, upsertBatch_eq]
  exact Sql.total_upsertAll component_mergeHealth tally_mergeHealth (nodup_proposedRows df)

theorem tallyIn_seededHealth (c : String) : tallyIn seededHealth c = 0 := by
  rw [tallyIn, Sql.total]
  rcases hrow : Sql.lookup HealthRow.component c seededHealth with _ | row
  · rfl
  · have hmem : row ∈ seededHealth := List.mem_of_find?_eq_some hrow
    obtain ⟨component, -, rfl⟩ := List.mem_map.mp hmem
    rfl

/-! ### What a call does to the table -/

/-- Every statement of the call goes through, and so does its commit. -/
def HealthCommits (env : Env) (df : List ProcessedRow) : Prop :=
  env.signal .healthRows = .ok ∧ env.signal .healthConnect = .ok ∧
    (∀ i < (healthAgg df).length, env.signal (.healthUpsert i) = .ok) ∧
    env.signal .healthCommit = .ok

instance (env : Env) (df : List ProcessedRow) : Decidable (HealthCommits env df) :=
  inferInstanceAs (Decidable (_ ∧ _ ∧ _ ∧ _))

variable {env : Env}

/-- The row loop ends at its first statement that fails, with nothing committed. -/
theorem upsertHealthRows_of_failing {rows : List (HealthAgg × ℕ)}
    (h : ∃ r ∈ rows, env.signal (.healthUpsert r.2) ≠ .ok) (txn : Sql.Txn (List HealthRow))
    (s : Sinks) :
    (∀ a, (upsertHealthRows env rows txn s).1 ≠ .done a) ∧
      (upsertHealthRows env rows txn s).2 = s := by
  induction rows generalizing txn with
  | nil =>
    obtain ⟨r, hr, -⟩ := h
    exact absurd hr List.not_mem_nil
  | cons row rows ih =>
    obtain ⟨agg, i⟩ := row
    rw [upsertHealthRows]
    by_cases hi : env.signal (.healthUpsert i) = .ok
    · rw [reach_bind_ok hi]
      refine ih ?_ _
      obtain ⟨r, hr, hbad⟩ := h
      rcases List.mem_cons.mp hr with rfl | hr
      · exact absurd hi hbad
      · exact ⟨r, hr, hbad⟩
    · exact ⟨reach_bind_ne_done hi _ s, reach_bind_snd hi _ s⟩

/-- **What a call does to `component_health`**: it upserts the batch if its transaction
commits, and leaves the table as it was otherwise. -/
theorem componentHealth_updateComponentHealth (df : List ProcessedRow) (s : Sinks) :
    (logged (updateComponentHealth env df) s).2.componentHealth
      = if HealthCommits env df then upsertBatch df s.componentHealth else s.componentHealth := by
  rw [logged, exceptException_pure_snd, updateComponentHealth]
  by_cases hrows : env.signal .healthRows = .ok
  swap
  · rw [reach_bind_snd hrows, if_neg fun h => hrows h.1]
  rw [reach_bind_ok hrows]
  split
  · next hnil =>
    -- a batch without rows: committed or not, it changes nothing
    have hsame : upsertBatch df s.componentHealth = s.componentHealth := by
      rw [upsertBatch, hnil]
      rfl
    rw [hsame, ite_self]
    rfl
  rw [exceptException_pure_snd]
  by_cases hconnect : env.signal .healthConnect = .ok
  swap
  · rw [reach_bind_snd hconnect, if_neg fun h => hconnect h.2.1]
  rw [reach_bind_ok hconnect, bind_apply, read_apply]
  dsimp only
  by_cases hupserts : ∀ i < (healthAgg df).length, env.signal (.healthUpsert i) = .ok
  swap
  · -- a statement fails: the connection is closed with nothing committed
    have hfailing : ∃ r ∈ (healthAgg df).zipIdx, env.signal (.healthUpsert r.2) ≠ .ok := by
      simp only [not_forall] at hupserts
      obtain ⟨i, hi, hbad⟩ := hupserts
      refine ⟨((healthAgg df)[i], i), ?_, hbad⟩
      exact List.mem_zipIdx_iff_getElem?.mpr (List.getElem?_eq_getElem hi)
    obtain ⟨hnot, hsame⟩ := upsertHealthRows_of_failing hfailing (Sql.Txn.start s.componentHealth) s
    rw [bind_snd_of_ne_done hnot, hsame, if_neg fun h => hupserts h.2.2.1]
  have hall : ∀ r ∈ (healthAgg df).zipIdx, env.signal (.healthUpsert r.2) = .ok := fun r hr =>
    hupserts r.2 (List.snd_lt_of_mem_zipIdx hr)
  rw [Sql.Txn.start, bind_done (upsertHealthRows_ok _ _ _ _ hall), List.zipIdx_map_fst]
  by_cases hcommit : env.signal .healthCommit = .ok
  · rw [reach_bind_ok hcommit, if_pos ⟨hrows, hconnect, hupserts, hcommit⟩]
    rfl
  · rw [reach_bind_snd hcommit, if_neg fun h => hcommit h.2.2.2]

/-! ### Runs -/

/-- A call of `_update_component_health`: the scored batch, and the environment it
meets. -/
structure HealthCall where
  env : Env
  rows : List ProcessedRow
  scored : Scored rows

/-- The calls whose transaction commits. -/
def committedCalls (calls : List HealthCall) : List HealthCall :=
  calls.filter fun call => HealthCommits call.env call.rows

/-- The batches a run commits. -/
def committedBatches (calls : List HealthCall) : List (List ProcessedRow) :=
  (committedCalls calls).map (·.rows)

/-- The rows a run commits. -/
def committedRows (calls : List HealthCall) : List ProcessedRow := (committedBatches calls).flatten

/-- The table `component_health` after a run. -/
def healthAfter (calls : List HealthCall) : List HealthRow :=
  (calls.foldl (fun s call => (logged (updateComponentHealth call.env call.rows) s).2)
    Sinks.initial).componentHealth

/-- **One more call** upserts its batch or leaves the table alone. -/
theorem healthAfter_append (calls : List HealthCall) (call : HealthCall) :
    healthAfter (calls ++ [call]) = if HealthCommits call.env call.rows
      then upsertBatch call.rows (healthAfter calls) else healthAfter calls := by
  rw [healthAfter, List.foldl_append, List.foldl_cons, List.foldl_nil,
    componentHealth_updateComponentHealth]
  rfl

theorem committedBatches_append (calls : List HealthCall) (call : HealthCall) :
    committedBatches (calls ++ [call]) = committedBatches calls ++
      if HealthCommits call.env call.rows then [call.rows] else [] := by
  rw [committedBatches, committedCalls, List.filter_append, List.map_append]
  congr 1
  by_cases h : HealthCommits call.env call.rows <;> simp [h]

/-- **The table after a run upserts the committed batches**, one after the other. -/
theorem healthAfter_eq (calls : List HealthCall) :
    healthAfter calls
      = (committedBatches calls).foldl (fun table df => upsertBatch df table) seededHealth := by
  induction calls using List.reverseRecOn with
  | nil => rfl
  | append_singleton calls call ih =>
    rw [healthAfter_append, committedBatches_append, List.foldl_append, ← ih]
    split <;> rfl

theorem scored_committedRows (calls : List HealthCall) : Scored (committedRows calls) := by
  intro row hrow
  obtain ⟨rows, hrows, hmem⟩ := List.mem_flatten.mp hrow
  obtain ⟨call, -, rfl⟩ := List.mem_map.mp hrows
  exact call.scored row hmem

/-! ### What a run leaves -/

section Batches

/-- The table after some committed batches. -/
def upsertBatches (batches : List (List ProcessedRow)) : List HealthRow :=
  batches.foldl (fun table df => upsertBatch df table) seededHealth

variable (batches : List (List ProcessedRow))

theorem upsertBatches_append (df : List ProcessedRow) :
    upsertBatches (batches ++ [df]) = upsertBatch df (upsertBatches batches) := by
  rw [upsertBatches, List.foldl_append]
  rfl

/-- **The table holds the tally of the rows upserted**, component by component. -/
theorem tallyIn_upsertBatches (c : String) :
    tallyIn (upsertBatches batches) c = tallyOf (rowsOf c batches.flatten) := by
  induction batches using List.reverseRecOn with
  | nil => exact tallyIn_seededHealth c
  | append_singleton batches df ih =>
    rw [upsertBatches_append, tallyIn_upsertBatch, ih, List.flatten_append, List.flatten_singleton,
      rowsOf, rowsOf, rowsOf, List.filter_append, tallyOf_append]

/-- **One row per component.** -/
theorem nodup_upsertBatches : ((upsertBatches batches).map (·.component)).Nodup := by
  induction batches using List.reverseRecOn with
  | nil => decide
  | append_singleton batches df ih =>
    rw [upsertBatches_append, upsertBatch_eq]
    exact Sql.nodup_upsertAll component_mergeHealth ih

theorem mem_component_upsertBatches (c : String) :
    c ∈ (upsertBatches batches).map (·.component) ↔
      c ∈ seededHealth.map (·.component) ∨ ∃ row ∈ batches.flatten, row.component = c := by
  induction batches using List.reverseRecOn with
  | nil => simp [upsertBatches]
  | append_singleton batches df ih =>
    rw [upsertBatches_append, upsertBatch_eq, Sql.mem_keys_upsertAll component_mergeHealth, ih,
      map_component_proposedRows, List.mem_dedup, or_assoc]
    simp only [List.mem_map, List.flatten_append, List.flatten_singleton, List.mem_append,
      or_and_right, exists_or]

/-- A component that does not occur keeps the row it had. -/
theorem lookup_upsertBatch_of_absent {df : List ProcessedRow} {c : String}
    (h : ∀ row ∈ df, row.component ≠ c) (table : List HealthRow) :
    Sql.lookup HealthRow.component c (upsertBatch df table)
      = Sql.lookup HealthRow.component c table := by
  have hnone : Sql.lookup HealthRow.component c (proposedRows df) = none := by
    refine Sql.lookup_eq_none_iff.mpr fun hmem => ?_
    have hmem : c ∈ (df.map (·.component)).dedup := map_component_proposedRows df ▸ hmem
    obtain ⟨row, hrow, hc⟩ := List.mem_map.mp (List.mem_dedup.mp hmem)
    exact h row hrow hc
  rw [upsertBatch_eq, Sql.lookup_upsertAll component_mergeHealth (nodup_proposedRows df), hnone]

theorem lookup_upsertBatches_of_absent {c : String}
    (h : ∀ row ∈ batches.flatten, row.component ≠ c) :
    Sql.lookup HealthRow.component c (upsertBatches batches)
      = Sql.lookup HealthRow.component c seededHealth := by
  induction batches using List.reverseRecOn with
  | nil => rfl
  | append_singleton batches df ih =>
    rw [List.flatten_append, List.flatten_singleton] at h
    rw [upsertBatches_append, lookup_upsertBatch_of_absent fun row hrow =>
      h row (List.mem_append_right _ hrow)]
    exact ih fun row hrow => h row (List.mem_append_left _ hrow)

theorem tally_of_mem_upsertBatches {h : HealthRow} (hmem : h ∈ upsertBatches batches) :
    h.tally = tallyOf (rowsOf h.component batches.flatten) := by
  have hlookup := (Sql.lookup_eq_some_iff (nodup_upsertBatches batches)).mpr ⟨hmem, rfl⟩
  rw [← tallyIn_upsertBatches, tallyIn, Sql.total, hlookup]
  rfl

variable {batches}

theorem totalEvents_of_mem {h : HealthRow} (hmem : h ∈ upsertBatches batches) :
    h.totalEvents = (rowsOf h.component batches.flatten).length := by
  rw [← events_tallyOf, ← tally_of_mem_upsertBatches batches hmem]
  rfl

theorem totalAnomalies_of_mem {h : HealthRow} (hmem : h ∈ upsertBatches batches) :
    h.totalAnomalies = ((rowsOf h.component batches.flatten).map (·.isAnomaly)).sum := by
  rw [← anomalies_tallyOf, ← tally_of_mem_upsertBatches batches hmem]
  rfl

theorem lastSeen_of_mem {h : HealthRow} (hmem : h ∈ upsertBatches batches) :
    h.lastSeen = Nullable.maximum ((rowsOf h.component batches.flatten).map (·.eventTime)) := by
  rw [← lastSeen_tallyOf, ← tally_of_mem_upsertBatches batches hmem]
  rfl

end Batches

/-- What `component_health` says of the rows committed so far. -/
structure Accumulates (rows : List ProcessedRow) (table : List HealthRow) : Prop where
  nodup : (table.map (·.component)).Nodup
  present : ∀ c, c ∈ table.map (·.component) ↔
    c ∈ seededHealth.map (·.component) ∨ ∃ row ∈ rows, row.component = c
  seed_kept : ∀ seed ∈ seededHealth, (∀ row ∈ rows, row.component ≠ seed.component) → seed ∈ table
  totalEvents : ∀ h ∈ table, h.totalEvents = rows.countP (·.component = h.component)
  totalAnomalies : ∀ h ∈ table, h.totalAnomalies
    = rows.countP fun row => row.component = h.component ∧ row.isAnomaly = 1
  anomalies_le : ∀ h ∈ table, h.totalAnomalies ≤ h.totalEvents
  lastSeen_eq_some : ∀ h ∈ table, ∀ t, h.lastSeen = some t ↔
    (∃ row ∈ rows, row.component = h.component ∧ row.eventTime = some t) ∧
      ∀ row ∈ rows, row.component = h.component → ∀ t', row.eventTime = some t' → t' ≤ t
  lastSeen_eq_none : ∀ h ∈ table, h.lastSeen = none ↔
    ∀ row ∈ rows, row.component = h.component → row.eventTime = none

theorem accumulates_upsertBatches {batches : List (List ProcessedRow)}
    (hscored : Scored batches.flatten) : Accumulates batches.flatten (upsertBatches batches) := by
  have hevents : ∀ h ∈ upsertBatches batches,
      h.totalEvents = batches.flatten.countP (·.component = h.component) := by
    intro h hmem
    rw [totalEvents_of_mem hmem, rowsOf, ← List.countP_eq_length_filter]
  have hanomalies : ∀ h ∈ upsertBatches batches, h.totalAnomalies
      = batches.flatten.countP fun row => row.component = h.component ∧ row.isAnomaly = 1 := by
    intro h hmem
    rw [totalAnomalies_of_mem hmem, sum_isAnomaly (scored_rowsOf hscored _), rowsOf,
      List.countP_filter]
    refine List.countP_congr fun row _ => ?_
    simp [and_comm]
  refine ⟨nodup_upsertBatches batches, mem_component_upsertBatches batches, ?_, hevents, hanomalies,
    ?_, ?_, ?_⟩
  · -- a seed row is the row of its component, and stays it
    intro seed hseed habsent
    have hseeds : (seededHealth.map (·.component)).Nodup := nodup_upsertBatches []
    have hlookup := lookup_upsertBatches_of_absent batches habsent
    rw [(Sql.lookup_eq_some_iff hseeds).mpr ⟨hseed, rfl⟩,
      Sql.lookup_eq_some_iff (nodup_upsertBatches batches)] at hlookup
    exact hlookup.1
  · intro h hmem
    rw [hanomalies h hmem, hevents h hmem]
    refine List.countP_mono_left fun row _ hrow => ?_
    simp only [decide_eq_true_eq] at hrow ⊢
    exact hrow.1
  · intro h hmem t
    rw [lastSeen_of_mem hmem, Nullable.maximum_eq_some_iff]
    simp only [rowsOf, List.mem_map, List.mem_filter, decide_eq_true_eq]
    constructor
    · rintro ⟨⟨row, ⟨hrow, hc⟩, ht⟩, hmax⟩
      exact ⟨⟨row, hrow, hc, ht⟩, fun row' hrow' hc' t' ht' => hmax t' ⟨row', ⟨hrow', hc'⟩, ht'⟩⟩
    · rintro ⟨⟨row, hrow, hc, ht⟩, hmax⟩
      refine ⟨⟨row, ⟨hrow, hc⟩, ht⟩, ?_⟩
      rintro t' ⟨row', ⟨hrow', hc'⟩, ht'⟩
      exact hmax row' hrow' hc' t' ht'
  · intro h hmem
    rw [lastSeen_of_mem hmem, Nullable.maximum_eq_none_iff]
    simp only [rowsOf, List.mem_map, List.mem_filter, decide_eq_true_eq]
    constructor
    · exact fun hall row hrow hc => hall _ ⟨row, ⟨hrow, hc⟩, rfl⟩
    · rintro hall _ ⟨row, ⟨hrow, hc⟩, rfl⟩
      exact hall row hrow hc

/-- **`component_health` accumulates exactly.** After any run of calls, whichever of
them fail: the table tells of the rows committed so far how many there are, how many of
them are anomalous and when the latest was, component by component; a call that fails
leaves it as it was; and two runs that commit the same rows, in whatever order and
whatever batches, leave the same totals. -/
theorem componentHealth_accumulates (calls : List HealthCall) :
    Accumulates (committedRows calls) (healthAfter calls) ∧
    (∀ call, ¬HealthCommits call.env call.rows →
      healthAfter (calls ++ [call]) = healthAfter calls) ∧
    (∀ calls', (committedRows calls').Perm (committedRows calls) →
      ∀ c, tallyIn (healthAfter calls') c = tallyIn (healthAfter calls) c) := by
  refine ⟨?_, fun call hcall => ?_, fun calls' hperm c => ?_⟩
  · rw [healthAfter_eq]
    exact accumulates_upsertBatches (scored_committedRows calls)
  · rw [healthAfter_append, if_neg hcall]
  · rw [healthAfter_eq, healthAfter_eq]
    have h := tallyIn_upsertBatches (committedBatches calls) c
    have h' := tallyIn_upsertBatches (committedBatches calls') c
    exact h'.trans ((tallyOf_perm (hperm.filter _)).trans h.symm)

end AiopsLog
