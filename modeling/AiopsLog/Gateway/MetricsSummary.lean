import AiopsLog.Health
import AiopsLog.Lib.Decimal
import AiopsLog.Metrics

/-!
# `GET /api/v1/metrics/summary`

The rows of a batch are counted twice before they reach a reader: the job groups them
by component, date and severity and appends the counts to `batch_metrics`; the gateway
groups those by component and date and adds them up. The answer is nevertheless what
one would get by counting the rows directly (`AiopsLog.getMetricsSummary_correct`): the
counts of the groups of a grouping add up to the counts of any coarser grouping, and
adding up over batches is adding up over the rows of all of them.

The query sorts by `log_date` where that names the text of the date, not the date.
Dates are written in a fixed number of digits, so their texts sort as they do
(`AiopsLog.Date.text_lt_text`).
-/

namespace AiopsLog

open Py Py.Code

/-! ### Dates as text -/

/-- `log_date::text`. -/
def Date.text (d : Date) : String :=
  String.ofList (Decimal.padded 4 d.year ++
    '-' :: (Decimal.padded 2 d.month ++ '-' :: Decimal.padded 2 d.day))

/-- One date comes before another. -/
def Date.Before (a b : Date) : Prop :=
  a.year < b.year ∨ a.year = b.year ∧ (a.month < b.month ∨ a.month = b.month ∧ a.day < b.day)

/-- **Dates sort by their text.** -/
theorem Date.text_lt_text (a b : Date) : a.text < b.text ↔ a.Before b := by
  have hyear : ∀ d : Date, d.year < 10 ^ 4 := fun d => by have := d.year_mem; omega
  have hmonth : ∀ d : Date, d.month < 10 ^ 2 := fun d => by have := d.month_mem; omega
  have hday : ∀ d : Date, d.day < 10 ^ 2 := fun d => by have := d.day_mem; omega
  have hlen : ∀ w m n, (Decimal.padded w m).length = (Decimal.padded w n).length := by simp
  rw [text, text, String.lt_iff_toList_lt, String.toList_ofList, String.toList_ofList,
    Decimal.append_lt_append (hlen 4 _ _), Decimal.padded_lt_padded (hyear a) (hyear b),
    Decimal.padded_inj (hyear a) (hyear b), List.cons_lt_cons_self,
    Decimal.append_lt_append (hlen 2 _ _), Decimal.padded_lt_padded (hmonth a) (hmonth b),
    Decimal.padded_inj (hmonth a) (hmonth b), List.cons_lt_cons_self,
    Decimal.padded_lt_padded (hday a) (hday b)]
  rfl

/-- Different dates have different texts. -/
theorem Date.text_inj {a b : Date} : a.text = b.text ↔ a = b := by
  constructor
  · intro h
    have hab := a.text_lt_text b
    have hba := b.text_lt_text a
    rw [h] at hab hba
    have hnab := hab.not.mp (lt_irrefl _)
    have hnba := hba.not.mp (lt_irrefl _)
    obtain ⟨y, m, d, hy, hm, hd⟩ := a
    obtain ⟨y', m', d', hy', hm', hd'⟩ := b
    simp only [Before, not_or, not_and] at hnab hnba
    obtain rfl : y = y' := by omega
    obtain rfl : m = m' := by
      have := (hnab.2 rfl).1
      have := (hnba.2 rfl).1
      omega
    obtain rfl : d = d' := by
      have := (hnab.2 rfl).2 rfl
      have := (hnba.2 rfl).2 rfl
      omega
    rfl
  · rintro rfl
    rfl

/-! ### The query -/

/-- An HTTP error. -/
structure HTTPException where
  statusCode : ℕ
  detail : String
  deriving DecidableEq

/-- An entry of the answer. -/
structure MetricsSummary where
  component : String
  logDate : String
  totalEvents : ℕ
  anomalyCount : ℕ
  anomalyRatePct : ℚ
  deriving DecidableEq

/-- `ORDER BY log_date DESC, anomaly_count DESC`. -/
def SummaryGe (a b : MetricsSummary) : Prop :=
  b.logDate < a.logDate ∨ a.logDate = b.logDate ∧ b.anomalyCount ≤ a.anomalyCount

instance (a b : MetricsSummary) : Decidable (SummaryGe a b) :=
  inferInstanceAs (Decidable (_ ∨ _ ∧ _))

theorem summaryGe_trans (a b c : MetricsSummary) (hab : SummaryGe a b) (hbc : SummaryGe b c) :
    SummaryGe a c := by
  rcases hab with hab | ⟨hab, hab'⟩ <;> rcases hbc with hbc | ⟨hbc, hbc'⟩
  · exact Or.inl (hbc.trans hab)
  · exact Or.inl (hbc ▸ hab)
  · exact Or.inl (hab ▸ hbc)
  · exact Or.inr ⟨hab.trans hbc, hbc'.trans hab'⟩

theorem summaryGe_total (a b : MetricsSummary) : SummaryGe a b ∨ SummaryGe b a := by
  rcases lt_trichotomy a.logDate b.logDate with hlt | heq | hgt
  · exact Or.inr (Or.inl hlt)
  · rcases le_total a.anomalyCount b.anomalyCount with hle | hge
    · exact Or.inr (Or.inr ⟨heq.symm, hle⟩)
    · exact Or.inl (Or.inr ⟨heq, hge⟩)
  · exact Or.inl (Or.inl hgt)

/-- One way to sort an answer. -/
def bySummary : OrderBy SummaryGe := OrderBy.ofTotal SummaryGe summaryGe_trans summaryGe_total

/-- The rate of an entry, `ROUND(… * 100, 2)`. -/
def summaryRate (anomalyCount totalEvents : ℕ) : ℚ :=
  if 0 < totalEvents then
    Rounding.toDigits Rounding.halfAway 2 (anomalyCount / totalEvents * 100)
  else 0

/-- The entry of a group. -/
def summaryRow (g : (String × Date) × List BatchMetric) : MetricsSummary where
  component := g.1.1
  logDate := g.1.2.text
  totalEvents := (g.2.map (·.totalEvents)).sum
  anomalyCount := (g.2.map (·.anomalyCount)).sum
  anomalyRatePct := summaryRate (g.2.map (·.anomalyCount)).sum (g.2.map (·.totalEvents)).sum

/-- The columns the query groups by. -/
def summaryKey (row : BatchMetric) : String × Date := (row.component, row.logDate)

/-- Whether the optional `WHERE component = $1` admits a component: an empty argument is
no argument. -/
def admits (component : Option String) (c : String) : Bool :=
  match component with
  | some wanted => if wanted ≠ "" then c = wanted else true
  | none => true

/-- The query, on the table it is asked of. -/
def summaryQuery (order : OrderBy SummaryGe) (component : Option String)
    (table : List BatchMetric) : List MetricsSummary :=
  order.sort ((Bag.groupBy summaryKey (table.filter fun row => admits component row.component)).map
    summaryRow)

/-- `get_metrics_summary`, with a pool on a database that holds some table. The number of
days is validated and not used. -/
def getMetricsSummary (order : OrderBy SummaryGe) (dbPool : Option (List BatchMetric))
    (_days : ℕ) (component : Option String) : Except HTTPException (List MetricsSummary) :=
  match dbPool with
  | none => .error ⟨503, "Database unavailable"⟩
  | some table => .ok (summaryQuery order component table)

/-! ### What the job has appended -/

/-- A call of `_write_postgres` whose append succeeds: a batch of scored rows that all
have a date. -/
structure MetricsCall where
  env : Env
  rows : List ProcessedRow
  scored : Scored rows
  dated : ∀ row ∈ rows, row.logDate.isSome
  aggregated : env.signal .metricsAgg = .ok
  connected : env.signal .metricsJdbc = .ok

/-- The rows of some calls, of all batches together. -/
def loggedRows (calls : List MetricsCall) : List ProcessedRow := calls.flatMap (·.rows)

/-- The table `batch_metrics` after some calls. -/
def metricsAfter (calls : List MetricsCall) : List BatchMetric :=
  (calls.foldl (fun s call => (logged (writePostgres call.env call.rows) s).2)
    Sinks.initial).batchMetrics

theorem metricsAfter_eq (calls : List MetricsCall) :
    metricsAfter calls = calls.flatMap fun call => acceptedMetrics call.rows := by
  induction calls using List.reverseRecOn with
  | nil => rfl
  | append_singleton calls call ih =>
    rw [metricsAfter, List.foldl_append, List.flatMap_append, ← ih]
    generalize hs : calls.foldl (fun s call => (logged (writePostgres call.env call.rows) s).2)
      Sinks.initial = s
    have hcall : Write.metrics.code call.env call.rows 0 s
        = (.done (), Write.metrics.effect call.env call.rows 0 s) :=
      Write.code_metrics_ok call.aggregated call.connected s
    rw [List.foldl_cons, List.foldl_nil, metricsAfter, hs]
    refine (congrArg (fun r => r.2.batchMetrics) hcall).trans ?_
    simp only [Write.effect, Sinks.appendMetrics, storedMetrics_of_dated _ call.dated,
      List.flatMap_singleton]

theorem scored_loggedRows (calls : List MetricsCall) : Scored (loggedRows calls) := by
  intro row hrow
  obtain ⟨call, -, hmem⟩ := List.mem_flatMap.mp hrow
  exact call.scored row hmem

section Table

variable (calls : List MetricsCall) (q : String → Date → Bool)

/-- **The table adds up to the rows**, over any selection of components and dates. -/
theorem totalEvents_metricsAfter :
    (((metricsAfter calls).filter fun m => q m.component m.logDate).map (·.totalEvents)).sum
      = ((loggedRows calls).filter (Selected q)).length := by
  rw [metricsAfter_eq, loggedRows]
  induction calls with
  | nil => rfl
  | cons call calls ih =>
    rw [List.flatMap_cons, List.flatMap_cons, List.filter_append, List.filter_append,
      List.map_append, List.sum_append, List.length_append, ih, totalEvents_accepted]

theorem anomalyCount_metricsAfter :
    (((metricsAfter calls).filter fun m => q m.component m.logDate).map (·.anomalyCount)).sum
      = (((loggedRows calls).filter (Selected q)).map (·.isAnomaly)).sum := by
  rw [metricsAfter_eq, loggedRows]
  induction calls with
  | nil => rfl
  | cons call calls ih =>
    rw [List.flatMap_cons, List.flatMap_cons, List.filter_append, List.filter_append,
      List.map_append, List.map_append, List.sum_append, List.sum_append, ih, anomalyCount_accepted]

theorem exists_mem_metricsAfter {c : String} {d : Date} :
    (∃ m ∈ metricsAfter calls, m.component = c ∧ m.logDate = d) ↔
      ∃ row ∈ loggedRows calls, row.component = c ∧ row.logDate = some d := by
  simp only [metricsAfter_eq, loggedRows, List.mem_flatMap]
  constructor
  · rintro ⟨m, ⟨call, hcall, hm⟩, hkey⟩
    obtain ⟨row, hrow, hrowKey⟩ := exists_mem_acceptedMetrics.mp ⟨m, hm, hkey⟩
    exact ⟨row, ⟨call, hcall, hrow⟩, hrowKey⟩
  · rintro ⟨row, ⟨call, hcall, hrow⟩, hkey⟩
    obtain ⟨m, hm, hmKey⟩ := exists_mem_acceptedMetrics.mpr ⟨row, hrow, hkey⟩
    exact ⟨m, ⟨call, hcall, hm⟩, hmKey⟩

end Table

/-! ### Counting the rows directly -/

/-- A row of a component and a date. -/
def OfDay (c : String) (d : Date) (row : ProcessedRow) : Prop :=
  row.component = c ∧ row.logDate = some d

instance (c : String) (d : Date) (row : ProcessedRow) : Decidable (OfDay c d row) :=
  inferInstanceAs (Decidable (_ ∧ _))

/-- The entry of a component and a date, counted on the rows themselves. -/
def directEntry (rows : List ProcessedRow) (c : String) (d : Date) : MetricsSummary where
  component := c
  logDate := d.text
  totalEvents := rows.countP (OfDay c d ·)
  anomalyCount := rows.countP fun row => OfDay c d row ∧ row.isAnomaly = 1
  anomalyRatePct := Rounding.toDigits Rounding.halfAway 2
    (100 * (rows.countP fun row => OfDay c d row ∧ row.isAnomaly = 1) / rows.countP (OfDay c d ·))

section Direct

variable {calls : List MetricsCall} {component : Option String} {c : String} {d : Date}

theorem countP_ofDay_pos {rows : List ProcessedRow} (hoccurs : ∃ row ∈ rows, OfDay c d row) :
    0 < rows.countP (OfDay c d ·) := by
  obtain ⟨row, hrow, hday⟩ := hoccurs
  exact List.countP_pos_iff.mpr ⟨row, hrow, decide_eq_true hday⟩

/-- The selection of one component and one date. -/
theorem filter_selected (rows : List ProcessedRow) (c : String) (d : Date) :
    rows.filter (Selected fun c' d' => decide (c' = c ∧ d' = d)) = rows.filter (OfDay c d ·) := by
  refine List.filter_congr fun row _ => ?_
  rw [Selected, Bool.eq_iff_iff, decide_eq_true_eq, OfDay]
  cases row.logDate with
  | none => simp
  | some d' => simp

/-- The rows of a group of the query: those of its component and date. -/
theorem filter_summaryKey (table : List BatchMetric) (hc : admits component c = true) :
    (table.filter fun row => admits component row.component).filter (summaryKey · = (c, d))
      = table.filter fun m => decide (m.component = c ∧ m.logDate = d) := by
  rw [List.filter_filter]
  refine List.filter_congr fun m _ => ?_
  rw [Bool.eq_iff_iff, Bool.and_eq_true, decide_eq_true_eq, decide_eq_true_eq, summaryKey,
    Prod.mk.injEq]
  constructor
  · exact fun h => h.1
  · exact fun h => ⟨h, h.1 ▸ hc⟩

theorem summaryRate_eq {anomalyCount totalEvents : ℕ} (h : 0 < totalEvents) :
    summaryRate anomalyCount totalEvents = Rounding.toDigits Rounding.halfAway 2
      (100 * anomalyCount / totalEvents) := by
  rw [summaryRate, if_pos h, mul_comm, mul_div_assoc]

/-- **A group of the query counts its rows directly.** -/
theorem summaryRow_eq (hc : admits component c = true)
    (hoccurs : ∃ row ∈ loggedRows calls, OfDay c d row) :
    summaryRow ((c, d), ((metricsAfter calls).filter fun row =>
        admits component row.component).filter (summaryKey · = (c, d)))
      = directEntry (loggedRows calls) c d := by
  have hevents := totalEvents_metricsAfter calls fun c' d' => decide (c' = c ∧ d' = d)
  have hanomalies := anomalyCount_metricsAfter calls fun c' d' => decide (c' = c ∧ d' = d)
  rw [filter_selected, ← List.countP_eq_length_filter] at hevents
  have hscored : Scored ((loggedRows calls).filter (OfDay c d ·)) := fun row hrow =>
    scored_loggedRows calls row (List.mem_of_mem_filter hrow)
  have hflags : (((loggedRows calls).filter (OfDay c d ·)).countP (·.isAnomaly = 1))
      = (loggedRows calls).countP fun row => OfDay c d row ∧ row.isAnomaly = 1 := by
    rw [List.countP_filter]
    exact List.countP_congr fun row _ => by simp [and_comm]
  -- the table's sums over the group, as counts of the rows
  rw [filter_selected, sum_isAnomaly hscored, hflags] at hanomalies
  rw [summaryRow, filter_summaryKey _ hc, hevents, hanomalies,
    summaryRate_eq (countP_ofDay_pos hoccurs)]
  rfl

/-- **The entries of the answer** are the direct entries of the components and dates
that occur. -/
theorem mem_summaryQuery {order : OrderBy SummaryGe} {entry : MetricsSummary} :
    entry ∈ summaryQuery order component (metricsAfter calls) ↔ ∃ c d, admits component c = true ∧
      (∃ row ∈ loggedRows calls, OfDay c d row) ∧ entry = directEntry (loggedRows calls) c d := by
  rw [summaryQuery, order.mem_sort, List.mem_map]
  constructor
  · rintro ⟨⟨⟨c, d⟩, group⟩, hg, rfl⟩
    obtain ⟨⟨m, hm, hkey⟩, hgroup⟩ := Bag.mem_groupBy.mp hg
    obtain ⟨hmTable, hadmits⟩ := List.mem_filter.mp hm
    obtain ⟨rfl, rfl⟩ := Prod.mk.inj hkey
    have hoccurs := (exists_mem_metricsAfter calls).mp ⟨m, hmTable, rfl, rfl⟩
    refine ⟨m.component, m.logDate, hadmits, hoccurs, ?_⟩
    have hrows : group = ((metricsAfter calls).filter fun row =>
        admits component row.component).filter (summaryKey · = (m.component, m.logDate)) := hgroup
    rw [hrows]
    exact summaryRow_eq hadmits hoccurs
  · rintro ⟨c, d, hc, hoccurs, rfl⟩
    obtain ⟨m, hm, hmc, hmd⟩ := (exists_mem_metricsAfter calls).mpr hoccurs
    refine ⟨((c, d), _), Bag.mem_groupBy.mpr ⟨⟨m, ?_, ?_⟩, rfl⟩, summaryRow_eq hc hoccurs⟩
    · exact List.mem_filter.mpr ⟨hm, hmc ▸ hc⟩
    · rw [summaryKey, hmc, hmd]

/-- No component and date has two entries. -/
theorem nodup_summaryQuery (order : OrderBy SummaryGe) (component : Option String)
    (table : List BatchMetric) :
    ((summaryQuery order component table).map fun entry =>
      (entry.component, entry.logDate)).Nodup := by
  rw [summaryQuery]
  refine ((order.perm _).map _).nodup_iff.mpr ?_
  have hkeys : ((Bag.groupBy summaryKey
      (table.filter fun row => admits component row.component)).map summaryRow).map
        (fun entry => (entry.component, entry.logDate))
      = ((Bag.groupBy summaryKey (table.filter fun row => admits component row.component)).map
        Prod.fst).map fun k => (k.1, k.2.text) := by
    rw [List.map_map, List.map_map]
    rfl
  rw [hkeys]
  -- the text of a date tells the date, so groups that differ have entries that do
  refine Bag.nodup_keys_groupBy.map fun k k' hk => ?_
  obtain ⟨hc, hd⟩ := Prod.mk.inj hk
  exact Prod.ext hc (Date.text_inj.mp hd)

end Direct

/-! ### The answer -/

theorem summaryRate_mem {rows : List ProcessedRow} {c : String} {d : Date}
    (hoccurs : ∃ row ∈ rows, OfDay c d row) :
    0 ≤ (directEntry rows c d).anomalyRatePct ∧ (directEntry rows c d).anomalyRatePct ≤ 100 := by
  have hle : (rows.countP fun row => OfDay c d row ∧ row.isAnomaly = 1)
      ≤ rows.countP (OfDay c d ·) := by
    refine List.countP_mono_left fun row _ h => ?_
    rw [decide_eq_true_eq] at h ⊢
    exact h.1
  exact Rounding.percentage_mem Rounding.rounds_halfAway (countP_ofDay_pos hoccurs) hle

/-- **What the answer says of the rows**, read through a filter on the component: one
entry for each component and date that occurs, its counts and its rate, in descending
order of the dates and, on a date, of the anomalies. -/
structure Summarises (rows : List ProcessedRow) (component : Option String)
    (answer : List MetricsSummary) : Prop where
  nodup : (answer.map fun entry => (entry.component, entry.logDate)).Nodup
  complete : ∀ row ∈ rows, ∀ d, row.logDate = some d → admits component row.component = true →
    ∃ entry ∈ answer, entry.component = row.component ∧ entry.logDate = d.text
  sound : ∀ entry ∈ answer, admits component entry.component = true ∧ ∃ d, entry.logDate = d.text ∧
    (∃ row ∈ rows, OfDay entry.component d row) ∧
    entry.totalEvents = rows.countP (OfDay entry.component d ·) ∧
    entry.anomalyCount = rows.countP (fun row => OfDay entry.component d row ∧ row.isAnomaly = 1) ∧
    entry.anomalyRatePct
      = Rounding.toDigits Rounding.halfAway 2 (100 * entry.anomalyCount / entry.totalEvents) ∧
    0 ≤ entry.anomalyRatePct ∧ entry.anomalyRatePct ≤ 100
  ordered : answer.Pairwise fun entry later => ∀ d d' : Date, entry.logDate = d.text →
    later.logDate = d'.text → d'.Before d ∨ d = d' ∧ later.anomalyCount ≤ entry.anomalyCount

/-- What a direct count uses of a row. -/
def flag (row : ProcessedRow) : String × Option Date × ℕ :=
  (row.component, row.logDate, row.isAnomaly)

section Answer

variable {calls calls' : List MetricsCall} {component : Option String}

theorem countP_flag {rows rows' : List ProcessedRow} (h : (rows.map flag).Perm (rows'.map flag))
    (p : String × Option Date × ℕ → Bool) :
    rows.countP (fun row => p (flag row)) = rows'.countP fun row => p (flag row) := by
  have hcount := h.countP_eq p
  rwa [List.countP_map, List.countP_map] at hcount

/-- Direct entries depend on nothing but the flags of the rows. -/
theorem directEntry_of_perm {rows rows' : List ProcessedRow}
    (h : (rows.map flag).Perm (rows'.map flag)) (c : String) (d : Date) :
    directEntry rows c d = directEntry rows' c d := by
  have hevents : rows.countP (OfDay c d ·) = rows'.countP (OfDay c d ·) :=
    countP_flag h fun k => decide (k.1 = c ∧ k.2.1 = some d)
  have hanomalies : (rows.countP fun row => OfDay c d row ∧ row.isAnomaly = 1)
      = rows'.countP fun row => OfDay c d row ∧ row.isAnomaly = 1 :=
    countP_flag h fun k => decide ((k.1 = c ∧ k.2.1 = some d) ∧ k.2.2 = 1)
  simp only [directEntry, hevents, hanomalies]

theorem occurs_of_perm {rows rows' : List ProcessedRow} (h : (rows.map flag).Perm (rows'.map flag))
    {c : String} {d : Date} (hoccurs : ∃ row ∈ rows, OfDay c d row) :
    ∃ row ∈ rows', OfDay c d row := by
  obtain ⟨row, hrow, hday⟩ := hoccurs
  obtain ⟨row', hrow', hflag⟩ := List.mem_map.mp (h.mem_iff.mp (List.mem_map_of_mem hrow))
  obtain ⟨hc, hd, -⟩ : row'.component = row.component ∧ row'.logDate = row.logDate ∧ _ := by
    simpa [flag] using hflag
  exact ⟨row', hrow', hc.trans hday.1, hd.trans hday.2⟩

theorem summarises_summaryQuery (order : OrderBy SummaryGe) :
    Summarises (loggedRows calls) component
      (summaryQuery order component (metricsAfter calls)) := by
  refine ⟨nodup_summaryQuery _ _ _, ?_, ?_, ?_⟩
  · intro row hrow d hd hadmits
    exact ⟨_, mem_summaryQuery.mpr ⟨row.component, d, hadmits, ⟨row, hrow, rfl, hd⟩, rfl⟩,
      rfl, rfl⟩
  · intro entry hentry
    obtain ⟨c, d, hadmits, hoccurs, rfl⟩ := mem_summaryQuery.mp hentry
    obtain ⟨hzero, hhundred⟩ := summaryRate_mem hoccurs
    exact ⟨hadmits, d, rfl, hoccurs, rfl, rfl, rfl, hzero, hhundred⟩
  · refine (order.sorted _).imp ?_
    intro entry later hge d d' hd hd'
    rcases hge with hlt | ⟨heq, hle⟩
    · rw [hd, hd', Date.text_lt_text] at hlt
      exact Or.inl hlt
    · rw [hd, hd', Date.text_inj] at heq
      exact Or.inr ⟨heq, hle⟩

/-- Two answers with the same entries are the same but for the order. -/
theorem perm_of_mem_iff {answer answer' : List MetricsSummary}
    (hnd : (answer.map fun entry => (entry.component, entry.logDate)).Nodup)
    (hnd' : (answer'.map fun entry => (entry.component, entry.logDate)).Nodup)
    (h : ∀ entry, entry ∈ answer ↔ entry ∈ answer') : answer.Perm answer' :=
  (List.perm_ext_iff_of_nodup hnd.of_map hnd'.of_map).mpr h

/-- **Two-level aggregation is direct counting.** On what any calls have appended, of dates in
the years 1 to 9999, and whatever the filter, the query answers, and its answer summarises the
rows of all the batches together. Any other calls whose rows have the same components, dates and
flags give the same answer, up to the order of ties; and filtering before aggregating is
filtering the unfiltered answer. -/
theorem getMetricsSummary_correct (calls : List MetricsCall) (component : Option String)
    (order : OrderBy SummaryGe) (days : ℕ) :
    ∃ answer, getMetricsSummary order (some (metricsAfter calls)) days component = .ok answer ∧
      Summarises (loggedRows calls) component answer ∧
      (∀ calls', ((loggedRows calls').map flag).Perm ((loggedRows calls).map flag) →
        ∀ order' days', ∃ answer',
          getMetricsSummary order' (some (metricsAfter calls')) days' component = .ok answer' ∧
            answer'.Perm answer) ∧
      (∃ unfiltered, getMetricsSummary order (some (metricsAfter calls)) days none
          = .ok unfiltered ∧
        answer.Perm (unfiltered.filter fun entry => admits component entry.component)) := by
  refine ⟨_, rfl, summarises_summaryQuery order, ?_, _, rfl, ?_⟩
  · intro calls' hperm order' days'
    refine ⟨_, rfl, perm_of_mem_iff (nodup_summaryQuery _ _ _) (nodup_summaryQuery _ _ _) ?_⟩
    intro entry
    rw [mem_summaryQuery, mem_summaryQuery]
    constructor
    · rintro ⟨c, d, hc, hoccurs, rfl⟩
      exact ⟨c, d, hc, occurs_of_perm hperm hoccurs, directEntry_of_perm hperm c d⟩
    · rintro ⟨c, d, hc, hoccurs, rfl⟩
      exact ⟨c, d, hc, occurs_of_perm hperm.symm hoccurs, directEntry_of_perm hperm.symm c d⟩
  · refine perm_of_mem_iff (nodup_summaryQuery _ _ _) ?_ ?_
    · exact (nodup_summaryQuery _ _ _).sublist (List.filter_sublist.map _)
    · intro entry
      rw [List.mem_filter, mem_summaryQuery, mem_summaryQuery]
      constructor
      · rintro ⟨c, d, hc, hoccurs, rfl⟩
        exact ⟨⟨c, d, rfl, hoccurs, rfl⟩, hc⟩
      · rintro ⟨⟨c, d, -, hoccurs, rfl⟩, hc⟩
        exact ⟨c, d, hc, hoccurs, rfl⟩

end Answer

/-- Two severities on a date make one entry, and the later date comes first. -/
example : (getMetricsSummary bySummary (some
    [⟨"APP", ⟨2025, 6, 3, by decide, by decide, by decide⟩, some "INFO", 2, 0⟩,
      ⟨"APP", ⟨2025, 6, 3, by decide, by decide, by decide⟩, none, 1, 1⟩,
      ⟨"RAS", ⟨2025, 11, 20, by decide, by decide, by decide⟩, none, 1, 0⟩]) 7 none).map
        (·.map fun entry => (entry.component, entry.logDate, entry.totalEvents, entry.anomalyCount))
    = .ok [("RAS", "2025-11-20", 1, 0), ("APP", "2025-06-03", 3, 1)] := by
  rfl

end AiopsLog
