import AiopsLog.Gateway.MetricsSummary
import AiopsLog.Lib.Calendar

/-!
# `GET /api/v1/alerts/recent`

The query asks for the alerts `ORDER BY event_time DESC`, and `event_time` is the name of a
column of the answer as well as of the table. The answer's wins, and that is a text: the
rows are sorted by how their times are written.

Two things might go wrong with it, and do not. A time is written in fields of a fixed width
from the year down to the second, so that texts sort as times do
(`AiopsLog.TimestampTz.text_lt_text`); but its fraction is written without the zeros at its
end, and not at all where it is zero. What follows it, then, is the sign of the time zone,
which sorts before the point and before any digit.

The other is the numbering of the parameters, which depends on the filters that are given. It
is followed here as the program does it, in a query that has to be bound before it runs.
-/

namespace AiopsLog

/-! ### Times as text -/

/-- The microseconds of a day. -/
def dayMicros : ℕ := 24 * 60 * 60 * 1000000

/-- The microseconds since the first of January of the year one, which is 719162 days before
the epoch. -/
def sinceYearOne (t : Timestamp) : ℤ := t + 719162 * dayMicros

/-- The time is in one of the years 1 to 9999. -/
def InYears (t : Timestamp) : Prop := 0 ≤ sinceYearOne t ∧ sinceYearOne t < 3652059 * dayMicros

/-- A `TIMESTAMPTZ` in these years. -/
abbrev TimestampTz := {t : Timestamp // InYears t}

namespace TimestampTz

variable (t : TimestampTz)

/-- The microseconds since the first of January of the year one, -/
def micros : ℕ := (sinceYearOne t.1).toNat

/-- the full seconds, and so on. -/
def seconds : ℕ := t.micros / 1000000

def minutes : ℕ := t.seconds / 60

def hours : ℕ := t.minutes / 60

def days : ℕ := t.hours / 24

theorem days_lt : t.days < Calendar.yearStart 9999 := by
  have hends : sinceYearOne t.1 < 3652059 * dayMicros := t.2.2
  have hmicros : t.micros < 3652059 * dayMicros := by
    rw [micros]
    rw [dayMicros] at hends ⊢
    omega
  show t.micros / 1000000 / 60 / 60 / 24 < 3652059
  rw [dayMicros] at hmicros
  omega

/-- The date, in UTC. -/
def date : Date where
  year := Calendar.year t.days
  month := Calendar.month t.days
  day := Calendar.day t.days
  year_mem := ⟨Nat.succ_pos _, Calendar.year_le t.days_lt⟩
  month_mem := Calendar.month_mem t.days
  day_mem := ⟨(Calendar.day_mem t.days).1, (Calendar.day_mem t.days).2.trans
    (Calendar.monthLength_le _ _)⟩

/-- `event_time::text`, in a session whose time zone is UTC. -/
def text : String :=
  String.ofList (t.date.text.toList ++
    ' ' :: (Decimal.padded 2 (t.hours % 24) ++
    ':' :: (Decimal.padded 2 (t.minutes % 60) ++
    ':' :: (Decimal.padded 2 (t.seconds % 60) ++
    (Decimal.fraction 6 (t.micros % 1000000) ++ ['+', '0', '0'])))))

variable {a b : TimestampTz}

theorem date_before_iff : a.date.Before b.date ↔ a.days < b.days :=
  (Calendar.lt_iff a.days b.days).symm

theorem date_eq_iff : a.date = b.date ↔ a.days = b.days := by
  constructor
  · intro h
    have hab := date_before_iff (a := a) (b := b)
    have hba := date_before_iff (a := b) (b := a)
    rw [h] at hab hba
    simp only [Date.Before] at hab hba
    omega
  · intro h
    rw [date, date]
    simp only [h]

/-- Times sort by their day, hour, minute, second and microsecond. -/
theorem lt_iff_fields :
    a.1 < b.1 ↔ a.days < b.days ∨ a.days = b.days ∧
      (a.hours % 24 < b.hours % 24 ∨ a.hours % 24 = b.hours % 24 ∧
      (a.minutes % 60 < b.minutes % 60 ∨ a.minutes % 60 = b.minutes % 60 ∧
      (a.seconds % 60 < b.seconds % 60 ∨ a.seconds % 60 = b.seconds % 60 ∧
      a.micros % 1000000 < b.micros % 1000000))) := by
  have hshift : a.1 < b.1 ↔ sinceYearOne a.1 < sinceYearOne b.1 :=
    (Int.add_lt_add_iff_right _).symm
  have hmicros : a.1 < b.1 ↔ a.micros < b.micros := by
    have hbegunA : 0 ≤ sinceYearOne a.1 := a.2.1
    have hbegunB : 0 ≤ sinceYearOne b.1 := b.2.1
    rw [hshift, micros, micros]
    omega
  have hseconds : a.micros < b.micros ↔ a.seconds < b.seconds ∨ a.seconds = b.seconds ∧ _ :=
    Decimal.lt_iff_div_mod 1000000 a.micros b.micros (by decide)
  have hminutes : a.seconds < b.seconds ↔ a.minutes < b.minutes ∨ a.minutes = b.minutes ∧ _ :=
    Decimal.lt_iff_div_mod 60 a.seconds b.seconds (by decide)
  have hhours : a.minutes < b.minutes ↔ a.hours < b.hours ∨ a.hours = b.hours ∧ _ :=
    Decimal.lt_iff_div_mod 60 a.minutes b.minutes (by decide)
  have hdays : a.hours < b.hours ↔ a.days < b.days ∨ a.days = b.days ∧ _ :=
    Decimal.lt_iff_div_mod 24 a.hours b.hours (by decide)
  have hseconds' : a.seconds = b.seconds ↔ a.minutes = b.minutes ∧ _ :=
    Decimal.eq_iff_div_mod 60 a.seconds b.seconds
  have hminutes' : a.minutes = b.minutes ↔ a.hours = b.hours ∧ _ :=
    Decimal.eq_iff_div_mod 60 a.minutes b.minutes
  have hhours' : a.hours = b.hours ↔ a.days = b.days ∧ _ :=
    Decimal.eq_iff_div_mod 24 a.hours b.hours
  rw [hmicros, hseconds, hminutes, hhours, hdays, hseconds', hminutes', hhours']
  simp only [and_or_left, or_assoc, and_assoc]

/-- **Times sort by their text.** -/
theorem text_lt_text (a b : TimestampTz) : a.text < b.text ↔ a.1 < b.1 := by
  have hdate : a.date.text.toList.length = b.date.text.toList.length := by
    rw [Date.text, Date.text, String.toList_ofList, String.toList_ofList]
    simp
  have hlen : ∀ m n, (Decimal.padded 2 m).length = (Decimal.padded 2 n).length := by simp
  have hhour : ∀ n : ℕ, n % 24 < 10 ^ 2 := fun n => by omega
  have hsixty : ∀ n : ℕ, n % 60 < 10 ^ 2 := fun n => by omega
  have hmicro : ∀ n : ℕ, n % 1000000 < 10 ^ 6 := fun n => by omega
  rw [lt_iff_fields, text, text, String.lt_iff_toList_lt, String.toList_ofList,
    String.toList_ofList, Decimal.append_lt_append hdate, ← String.lt_iff_toList_lt,
    Date.text_lt_text, String.toList_inj, Date.text_inj, date_before_iff, date_eq_iff,
    List.cons_lt_cons_self,
    Decimal.append_lt_append (hlen _ _), Decimal.padded_lt_padded (hhour _) (hhour _),
    Decimal.padded_inj (hhour _) (hhour _), List.cons_lt_cons_self,
    Decimal.append_lt_append (hlen _ _), Decimal.padded_lt_padded (hsixty _) (hsixty _),
    Decimal.padded_inj (hsixty _) (hsixty _), List.cons_lt_cons_self,
    Decimal.append_lt_append (hlen _ _), Decimal.padded_lt_padded (hsixty _) (hsixty _),
    Decimal.padded_inj (hsixty _) (hsixty _), Decimal.fraction_append_lt (hmicro _) (hmicro _)]

/-- A fraction, and one that sorts before it although its text is longer. -/
example : text ⟨1117838570675872, by decide, by decide⟩ = "2005-06-03 22:42:50.675872+00" ∧
    text ⟨1117838570500000, by decide, by decide⟩ = "2005-06-03 22:42:50.5+00" ∧
    text ⟨1117838570000000, by decide, by decide⟩ = "2005-06-03 22:42:50+00" := by
  decide +kernel

end TimestampTz

/-! ### The query -/

/-- A row of `anomaly_alerts_pg`, with the column the server fills; its times are in the years
a `TIMESTAMPTZ` is written in as above. -/
structure StoredAlert extends AlertRow where
  createdAt : TimestampTz
  eventTime_mem : ∀ t ∈ eventTime, InYears t

/-- The event time, if there is one. -/
def StoredAlert.time (alert : StoredAlert) : Option TimestampTz :=
  alert.eventTime.pmap Subtype.mk alert.eventTime_mem

/-- An entry of the answer. -/
structure RecentAlert where
  alertId : Uuid
  eventTime : Option String
  component : Option String
  severity : Option String
  message : Option String
  host : Option String
  anomalyScore : Option ℚ
  clusterId : Option ℤ
  createdAt : String
  deriving DecidableEq

/-- The `SELECT` list. -/
def StoredAlert.select (alert : StoredAlert) : RecentAlert where
  alertId := alert.alertId
  eventTime := alert.time.map TimestampTz.text
  component := alert.component
  severity := alert.severity
  message := alert.message
  host := alert.host
  anomalyScore := alert.anomalyScore
  clusterId := alert.clusterId
  createdAt := alert.createdAt.text

/-- `DESC NULLS LAST`. -/
def DescNullsLast {α : Type} [LE α] : Option α → Option α → Prop
  | _, none => True
  | none, some _ => False
  | some a, some b => b ≤ a

section DescNullsLast

variable {α : Type} [LinearOrder α]

instance : DecidableRel (DescNullsLast (α := α))
  | _, none => inferInstanceAs (Decidable True)
  | none, some _ => inferInstanceAs (Decidable False)
  | some a, some b => inferInstanceAs (Decidable (b ≤ a))

theorem descNullsLast_trans (a b c : Option α) (hab : DescNullsLast a b)
    (hbc : DescNullsLast b c) : DescNullsLast a c := by
  rcases c with _ | c
  · rcases a <;> exact trivial
  · rcases b with _ | b
    · exact hbc.elim
    · rcases a with _ | a
      · exact hab.elim
      · exact le_trans hbc hab

theorem descNullsLast_total (a b : Option α) : DescNullsLast a b ∨ DescNullsLast b a := by
  rcases a with _ | a
  · exact Or.inr (by rcases b <;> exact trivial)
  · rcases b with _ | b
    · exact Or.inl trivial
    · exact le_total b a

end DescNullsLast

/-- `ORDER BY event_time DESC NULLS LAST`, where that names the column of the answer. -/
def RecentGe (a b : StoredAlert) : Prop :=
  DescNullsLast a.select.eventTime b.select.eventTime

instance : DecidableRel RecentGe := fun a b =>
  inferInstanceAs (Decidable (DescNullsLast a.select.eventTime b.select.eventTime))

/-- One way to sort an answer. -/
def byRecent : OrderBy RecentGe :=
  OrderBy.ofTotal RecentGe (fun _ _ _ => descNullsLast_trans _ _ _)
    fun _ _ => descNullsLast_total _ _

/-- The columns the query may filter by. -/
inductive Column where
  | component : Column
  | severity : Column

def Column.of (alert : StoredAlert) : Column → Option String
  | .component => alert.component
  | .severity => alert.severity

/-- The arguments of a query. -/
inductive Param where
  | text : String → Param
  | int : ℕ → Param

/-- The conditions `column = $n` of a query and its `LIMIT $n`, with the arguments. -/
structure RecentQuery where
  conditions : List (Column × ℕ)
  limit : ℕ
  params : List Param

/-- `limit`, which is validated; without one it is 50. -/
abbrev Limit := {n : ℕ // 1 ≤ n ∧ n ≤ 500}

/-- The value of an optional argument: an empty one is none. -/
def given : Option String → Option String
  | some value => if value ≠ "" then some value else none
  | none => none

/-- One `if` of the program: an argument appends itself, and a condition on the number of
arguments there are then. -/
def addCondition (column : Column) (value : Option String)
    (query : List (Column × ℕ) × List Param) : List (Column × ℕ) × List Param :=
  match value with
  | some value =>
    let params := query.2 ++ [.text value]
    (query.1 ++ [(column, params.length)], params)
  | none => query

/-- The query that is built; `upper` is `str.upper`. -/
def recentQuery (upper : String → String) (limit : Limit) (component severity : Option String) :
    RecentQuery :=
  let (conditions, params) :=
    addCondition .severity ((given severity).map upper)
      (addCondition .component (given component) ([], []))
  let params := params ++ [.int limit]
  ⟨conditions, params.length, params⟩

/-- The argument `$n`. -/
def argument (params : List Param) : ℕ → Option Param
  | 0 => none
  | n + 1 => params[n]?

/-- `$n` where a text is compared with it; none where there is no such argument, or it is of
another type. -/
def bindText (params : List Param) (n : ℕ) : Option String :=
  match argument params n with
  | some (.text value) => some value
  | _ => none

/-- `$n` of a `LIMIT`. -/
def bindInt (params : List Param) (n : ℕ) : Option ℕ :=
  match argument params n with
  | some (.int value) => some value
  | _ => none

/-- The rows the query selects, once its conditions are bound. A comparison with a null does
not hold. -/
def whereClause (wanted : List (Column × String)) (table : List StoredAlert) : List StoredAlert :=
  table.filter fun alert => wanted.all fun (column, value) => column.of alert = some value

/-- `conn.fetch(query, *params)`; none where a parameter cannot be bound. -/
def RecentQuery.fetch (order : OrderBy RecentGe) (table : List StoredAlert)
    (query : RecentQuery) : Option (List RecentAlert) := do
  let wanted ← query.conditions.mapM fun (column, n) =>
    (bindText query.params n).map fun value => (column, value)
  let limit ← bindInt query.params query.limit
  return ((order.sort (whereClause wanted table)).take limit).map StoredAlert.select

/-- `get_recent_alerts`, with a pool on a database that holds some table; what raises in it is
answered by an internal error. -/
def getRecentAlerts (upper : String → String) (order : OrderBy RecentGe)
    (dbPool : Option (List StoredAlert)) (limit : Limit) (component severity : Option String) :
    Except HTTPException (List RecentAlert) :=
  match dbPool with
  | none => .error ⟨503, "Database unavailable"⟩
  | some table =>
    match (recentQuery upper limit component severity).fetch order table with
    | none => .error ⟨500, "Internal Server Error"⟩
    | some rows => .ok rows

/-! ### What the query selects -/

/-- The conditions of the filters that are given. -/
def wantedColumns (upper : String → String) (component severity : Option String) :
    List (Column × String) :=
  ((given component).map fun value => (.component, value)).toList ++
    ((given severity).map fun value => (.severity, upper value)).toList

/-- **The numbering is right**: whichever filters are given, every parameter is bound to what
it stands for. -/
theorem fetch_recentQuery (upper : String → String) (order : OrderBy RecentGe)
    (table : List StoredAlert) (limit : Limit) (component severity : Option String) :
    (recentQuery upper limit component severity).fetch order table
      = some (((order.sort (whereClause (wantedColumns upper component severity) table)).take
          limit).map StoredAlert.select) := by
  rw [recentQuery, wantedColumns]
  cases given component with
  | none =>
    cases given severity with
    | none => rfl
    | some severity => rfl
  | some component =>
    cases given severity with
    | none => rfl
    | some severity => rfl

/-- The row passes the filters, each only if it is given. -/
def Passes (upper : String → String) (component severity : Option String) (alert : StoredAlert) :
    Prop :=
  (∀ value, component = some value → value ≠ "" → alert.component = some value) ∧
    ∀ value, severity = some value → value ≠ "" → alert.severity = some (upper value)

theorem given_eq_some_iff {wanted : Option String} {value : String} :
    given wanted = some value ↔ wanted = some value ∧ value ≠ "" := by
  rcases wanted with _ | wanted
  · exact iff_of_false (Option.some_ne_none value).symm fun h => Option.some_ne_none value h.1.symm
  · rw [given]
    split
    · next hne =>
      constructor
      · intro h
        exact ⟨h, Option.some.inj h ▸ hne⟩
      · exact And.left
    · next hempty =>
      refine iff_of_false (Option.some_ne_none value).symm ?_
      rintro ⟨h, hne⟩
      exact hempty fun hwanted => hne (Option.some.inj h ▸ hwanted)

theorem mem_whereClause_iff {upper : String → String} {component severity : Option String}
    {table : List StoredAlert} {alert : StoredAlert} :
    alert ∈ whereClause (wantedColumns upper component severity) table
      ↔ alert ∈ table ∧ Passes upper component severity alert := by
  rw [whereClause, List.mem_filter, List.all_eq_true]
  refine and_congr_right fun _ => ?_
  simp only [wantedColumns, List.mem_append, Option.mem_toList, Option.map_eq_some_iff,
    given_eq_some_iff, decide_eq_true_eq]
  constructor
  · intro h
    refine ⟨fun value hvalue hne => ?_, fun value hvalue hne => ?_⟩
    · exact h (.component, value) (Or.inl ⟨value, ⟨hvalue, hne⟩, rfl⟩)
    · exact h (.severity, upper value) (Or.inr ⟨value, ⟨hvalue, hne⟩, rfl⟩)
  · rintro ⟨hcomponent, hseverity⟩ _ (⟨value, ⟨hvalue, hne⟩, rfl⟩ | ⟨value, ⟨hvalue, hne⟩, rfl⟩)
    · exact hcomponent value hvalue hne
    · exact hseverity value hvalue hne

/-! ### The answer -/

/-- **Sorting by the text of the times is sorting by the times**, nulls last. -/
theorem recentGe_iff (a b : StoredAlert) :
    RecentGe a b ↔ DescNullsLast a.eventTime b.eventTime := by
  obtain ⟨⟨_, timeA, _, _, _, _, _, _⟩, _, hA⟩ := a
  obtain ⟨⟨_, timeB, _, _, _, _, _, _⟩, _, hB⟩ := b
  rcases timeB with _ | timeB
  · rcases timeA with _ | timeA <;> exact Iff.rfl
  · rcases timeA with _ | timeA
    · exact Iff.rfl
    · show TimestampTz.text ⟨timeB, hB timeB rfl⟩ ≤ TimestampTz.text ⟨timeA, hA timeA rfl⟩
        ↔ timeB ≤ timeA
      rw [← not_lt, ← not_lt, TimestampTz.text_lt_text]

/-- **Recent alerts are the most recent ones.** Whatever the table holds, and whichever
filters are given: its rows are those that are returned, those that pass the filters and are
left out, and those that do not pass. The returned ones are no more than the limit, and all
that pass where these are no more; they are sorted by their times, the latest first and nulls
last, and none that is left out is later than one of them. -/
theorem getRecentAlerts_most_recent (upper : String → String) (order : OrderBy RecentGe)
    (table : List StoredAlert) (limit : Limit) (component severity : Option String) :
    ∃ rows left others,
      getRecentAlerts upper order (some table) limit component severity
        = .ok (rows.map StoredAlert.select) ∧
      (rows ++ left ++ others).Perm table ∧
      (∀ alert ∈ rows ++ left, Passes upper component severity alert) ∧
      (∀ alert ∈ others, ¬Passes upper component severity alert) ∧
      rows.length ≤ limit.1 ∧ ((rows ++ left).length ≤ limit.1 → left = []) ∧
      rows.Pairwise (fun alert later => DescNullsLast alert.eventTime later.eventTime) ∧
      ∀ alert ∈ rows, ∀ leftOut ∈ left, DescNullsLast alert.eventTime leftOut.eventTime := by
  have hfetch := fetch_recentQuery upper order table limit component severity
  have hmem : ∀ alert, alert ∈ whereClause (wantedColumns upper component severity) table
      ↔ alert ∈ table ∧ Passes upper component severity alert := fun _ => mem_whereClause_iff
  generalize hselected : whereClause (wantedColumns upper component severity) table = selected
    at hfetch hmem
  have hperm : ((order.sort selected).take limit ++ (order.sort selected).drop limit).Perm
      selected := order.perm_take_drop limit
  refine ⟨(order.sort selected).take limit, (order.sort selected).drop limit,
    table.filter fun alert => !(wantedColumns upper component severity).all
      fun (column, value) => column.of alert = some value, ?_, ?_, ?_, ?_, ?_, ?_, ?_, ?_⟩
  · rw [getRecentAlerts]
    simp only [hfetch]
  · refine (hperm.append_right _).trans ?_
    rw [← hselected]
    exact List.filter_append_perm _ table
  · exact fun alert halert => ((hmem alert).mp (hperm.mem_iff.mp halert)).2
  · intro alert halert hpasses
    obtain ⟨htable, hfails⟩ := List.mem_filter.mp halert
    have hselects := (hmem alert).mpr ⟨htable, hpasses⟩
    rw [← hselected] at hselects
    rw [(List.mem_filter.mp hselects).2] at hfails
    exact absurd hfails Bool.false_ne_true
  · exact List.length_take_le _ _
  · intro hlimit
    rw [List.take_append_drop] at hlimit
    exact List.drop_eq_nil_of_le hlimit
  · exact (order.pairwise_take limit).imp fun hge => (recentGe_iff _ _).mp hge
  · exact fun alert halert leftOut hleftOut =>
      (recentGe_iff _ _).mp (order.le_of_mem_take_of_mem_drop halert hleftOut)

end AiopsLog
