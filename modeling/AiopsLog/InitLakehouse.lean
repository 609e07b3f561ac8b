import AiopsLog.Lib.DeltaTable
import AiopsLog.Lib.Run
import AiopsLog.Sinks
import Mathlib.Logic.Function.Basic

/-!
# The tables of the lakehouse

`init_lakehouse.py` creates the Delta tables, each if there is none at its path, and may be run
again at any time, beside the streaming job, which appends to `processed_logs` and creates that
table itself where it comes first. Between the check of a table and its creation other writers
may come in; and the creation overwrites whatever is there.

Of the writes nothing is used but what is documented of them (`Delta.Writes`). Whoever creates
the table, the appends of the job are accepted: the script and the job agree on the partitions
and on the types, and a column that one of them lacks is merged into the other's
(`AiopsLog.InitLakehouse.appends_accepted`). The rows are safe as long as no append comes between
a check and the creation that follows it; once the table is there and no run of the script stands
in between, no later run takes anything out (`AiopsLog.InitLakehouse.rows_kept`). And a run that
exits with 0 leaves all three tables in place (`AiopsLog.InitLakehouse.exit_zero_iff`).
-/

namespace AiopsLog

open Delta

namespace InitLakehouse

/-! ### The tables -/

/-- An entry of `TABLES`: the name of a table, its path, its schema, and the column it is
partitioned by. -/
structure TableSpec where
  name : String
  path : String
  schema : Schema
  partitionCol : String

/-- `raw_logs`. -/
def rawLogs : TableSpec where
  name := "raw_logs"
  path := "s3a://telemetry-lakehouse/raw_logs"
  schema := [⟨"event_id", .string, false⟩, ⟨"timestamp", .timestamp, false⟩,
    ⟨"service", .string, true⟩, ⟨"level", .string, true⟩, ⟨"message", .string, true⟩,
    ⟨"host", .string, true⟩, ⟨"trace_id", .string, true⟩, ⟨"span_id", .string, true⟩,
    ⟨"latency_ms", .integer, true⟩, ⟨"is_anomaly", .integer, true⟩,
    ⟨"failure_type", .string, true⟩, ⟨"env", .string, true⟩, ⟨"ingested_at", .timestamp, true⟩]
  partitionCol := "timestamp"

/-- `processed_logs`. -/
def processedLogs : TableSpec where
  name := "processed_logs"
  path := "s3a://telemetry-lakehouse/processed_logs"
  schema := [⟨"event_id", .string, false⟩, ⟨"event_time", .timestamp, true⟩,
    ⟨"host", .string, true⟩, ⟨"component", .string, true⟩, ⟨"severity", .string, true⟩,
    ⟨"message", .string, true⟩, ⟨"log_date", .date, true⟩, ⟨"cluster", .integer, true⟩,
    ⟨"is_anomaly", .integer, true⟩, ⟨"anomaly_score", .double, true⟩,
    ⟨"ingested_at", .timestamp, true⟩, ⟨"processed_at", .timestamp, true⟩]
  partitionCol := "log_date"

/-- `anomaly_alerts`. -/
def anomalyAlerts : TableSpec where
  name := "anomaly_alerts"
  path := "s3a://telemetry-lakehouse/anomaly_alerts"
  schema := [⟨"alert_id", .string, false⟩, ⟨"event_id", .string, true⟩,
    ⟨"timestamp", .timestamp, false⟩, ⟨"service", .string, true⟩,
    ⟨"anomaly_score", .double, true⟩, ⟨"predicted_label", .string, true⟩,
    ⟨"confidence", .double, true⟩, ⟨"model_version", .string, true⟩,
    ⟨"alert_severity", .string, true⟩, ⟨"triggered_at", .timestamp, true⟩,
    ⟨"acknowledged", .boolean, true⟩]
  partitionCol := "triggered_at"

/-- `TABLES`. -/
def tables : List TableSpec := [rawLogs, processedLogs, anomalyAlerts]

/-- A row of `processed_logs`. -/
abbrev LogEntry := ProcessedRow × Uuid

/-- What is at each path. The script writes no row, and the job only those of
`processed_logs`. -/
abbrev Lakehouse := String → Option (Table LogEntry)

/-- The columns of the frame that the job appends. -/
def processedFields : Schema :=
  [⟨"event_id", .string, false⟩, ⟨"event_time", .timestamp, true⟩, ⟨"host", .string, true⟩,
    ⟨"component", .string, true⟩, ⟨"severity", .string, true⟩, ⟨"message", .string, true⟩,
    ⟨"log_date", .date, true⟩, ⟨"cluster", .integer, true⟩, ⟨"is_anomaly", .integer, false⟩,
    ⟨"anomaly_score", .double, false⟩, ⟨"label_original", .integer, true⟩,
    ⟨"ingested_at", .timestamp, true⟩, ⟨"processed_at", .timestamp, false⟩]

/-! ### The script -/

/-- Where the handling of a table stands. -/
inductive Stage where
  /-- Before `isDeltaTable`. -/
  | checking : Stage
  /-- Before the `save` of `create_table`. -/
  | saving : Stage
  /-- In `verify_table`. -/
  | verifying : Stage
  deriving DecidableEq

/-- A run of `main`: in the loop over the tables, or over. -/
inductive Script where
  | running : List TableSpec → Stage → List String → Script
  | exited : List String → Script

/-- `main`, before the loop. -/
def Script.start : Script := .running tables .checking []

/-- The status a run exits with. -/
def Script.exitCode : Script → Option ℕ
  | .running _ _ _ => none
  | .exited errors => some (if errors = [] then 0 else 1)

section Calls

variable (delta : Writes LogEntry)

/-- The next call of the script, which goes through or raises; what is raised is recorded, and
the loop goes on. -/
def turn (raises : Bool) (lake : Lakehouse) : Script → Option (Script × Lakehouse)
  | .running [] _ errors => if raises then none else some (.exited errors, lake)
  | .running (spec :: todo) stage errors =>
    if raises then some (.running todo .checking (errors ++ [spec.name]), lake)
    else match stage, lake spec.path with
      | .checking, some _ => some (.running (spec :: todo) .verifying errors, lake)
      | .checking, none => some (.running (spec :: todo) .saving errors, lake)
      | .saving, _ => some (.running (spec :: todo) .verifying errors,
          Function.update lake spec.path
            (some (delta.overwrite spec.schema [spec.partitionCol] [] (lake spec.path))))
      | .verifying, some _ => some (.running todo .checking errors, lake)
      -- `forPath` raises where there is no table
      | .verifying, none => some (.running todo .checking (errors ++ [spec.name]), lake)
  | .exited _ => none

end Calls

/-- The script has found no table at the path, and is about to save one. -/
def Script.Saves (path : String) : Script → Prop
  | .running (spec :: _) .saving _ => spec.path = path
  | _ => False

instance (path : String) : DecidablePred (Script.Saves path)
  | .running (spec :: _) .saving _ => inferInstanceAs (Decidable (spec.path = path))
  | .running [] _ _ | .running (_ :: _) .checking _ | .running (_ :: _) .verifying _
  | .exited _ => inferInstanceAs (Decidable False)

/-! ### The system -/

/-- What happens to `processed_logs`. -/
inductive Event where
  | appended : List LogEntry → Event
  | created : Event

/-- The lakehouse, the runs of the script and those of them in which a call has raised, the events
of `processed_logs`, the appends that were refused, and whether one came while a run was about to
save. -/
structure System where
  lake : Lakehouse
  scripts : List Script
  raised : List ℕ
  log : List Event
  refused : List (List LogEntry)
  raced : Bool

inductive Action where
  /-- The script is run once more. -/
  | launch : Action
  /-- A run has a turn, in which its call raises or not. -/
  | script : ℕ → Bool → Action
  /-- The job appends a batch. -/
  | append : List LogEntry → Action

/-- An empty bucket. -/
def start : System := ⟨fun _ => none, [], [], [], [], false⟩

section Actions

variable (delta : Writes LogEntry)

/-- The job appends to `processed_logs`. -/
def append (rows : List LogEntry) (s : System) : System :=
  match delta.append processedFields ["log_date"] rows (s.lake processedLogs.path) with
  | none => { s with refused := s.refused ++ [rows] }
  | some table => { s with
      lake := Function.update s.lake processedLogs.path (some table)
      log := s.log ++ [.appended rows]
      raced := s.raced || s.scripts.any fun script => script.Saves processedLogs.path }

/-- The step of the system. -/
def step (s : System) : Action → Option System
  | .launch => some { s with scripts := s.scripts ++ [.start] }
  | .script n raises => do
    let script ← s.scripts[n]?
    let (script', lake) ← turn delta raises s.lake script
    pure { s with
      lake := lake
      scripts := s.scripts.set n script'
      raised := s.raised ++ if raises then [n] else []
      log := s.log ++ if ¬raises ∧ script.Saves processedLogs.path then [.created] else [] }
  | .append rows => some (append delta rows s)

end Actions

/-! ### Agreement on the schema -/

theorem accepts_processedFields : Accepts processedFields processedFields := by decide

theorem accepts_processedLogs : Accepts processedLogs.schema processedFields := by decide

theorem eq_of_path_eq : ∀ a ∈ tables, ∀ b ∈ tables, a.path = b.path → a = b := by
  simp [tables, rawLogs, processedLogs, anomalyAlerts]

/-! ### The turns of the script -/

/-- **A turn of the script**, case by case. -/
inductive Turned (delta : Writes LogEntry) (lake : Lakehouse) :
    Bool → Script → Script → Lakehouse → Prop where
  | exit (stage : Stage) (errors : List String) :
      Turned delta lake false (.running [] stage errors) (.exited errors) lake
  | raise (spec : TableSpec) (todo : List TableSpec) (stage : Stage) (errors : List String) :
      Turned delta lake true (.running (spec :: todo) stage errors)
        (.running todo .checking (errors ++ [spec.name])) lake
  | found (spec : TableSpec) (todo : List TableSpec) (errors : List String)
      (h : lake spec.path ≠ none) :
      Turned delta lake false (.running (spec :: todo) .checking errors)
        (.running (spec :: todo) .verifying errors) lake
  | missing (spec : TableSpec) (todo : List TableSpec) (errors : List String)
      (h : lake spec.path = none) :
      Turned delta lake false (.running (spec :: todo) .checking errors)
        (.running (spec :: todo) .saving errors) lake
  | save (spec : TableSpec) (todo : List TableSpec) (errors : List String) :
      Turned delta lake false (.running (spec :: todo) .saving errors)
        (.running (spec :: todo) .verifying errors)
        (Function.update lake spec.path
          (some (delta.overwrite spec.schema [spec.partitionCol] [] (lake spec.path))))
  | verified (spec : TableSpec) (todo : List TableSpec) (errors : List String)
      (h : lake spec.path ≠ none) :
      Turned delta lake false (.running (spec :: todo) .verifying errors)
        (.running todo .checking errors) lake
  | unverified (spec : TableSpec) (todo : List TableSpec) (errors : List String)
      (h : lake spec.path = none) :
      Turned delta lake false (.running (spec :: todo) .verifying errors)
        (.running todo .checking (errors ++ [spec.name])) lake

theorem turned_of_turn {delta : Writes LogEntry} {raises : Bool} {lake lake' : Lakehouse}
    {script script' : Script} (h : turn delta raises lake script = some (script', lake')) :
    Turned delta lake raises script script' lake' := by
  cases script with
  | exited => nomatch h
  | running todo stage errors =>
    cases todo with
    | nil =>
      cases raises with
      | true => nomatch h
      | false =>
        obtain ⟨rfl, rfl⟩ := Prod.mk.inj (Option.some.inj h)
        exact .exit stage errors
    | cons spec todo =>
      cases raises with
      | true =>
        obtain ⟨rfl, rfl⟩ := Prod.mk.inj (Option.some.inj h)
        exact .raise spec todo stage errors
      | false =>
        simp only [turn, Bool.false_eq_true, if_false] at h
        split at h
        · next table htable =>
          obtain ⟨rfl, rfl⟩ := Prod.mk.inj (Option.some.inj h)
          exact .found spec todo errors (htable ▸ Option.some_ne_none table)
        · next hnone =>
          obtain ⟨rfl, rfl⟩ := Prod.mk.inj (Option.some.inj h)
          exact .missing spec todo errors hnone
        · obtain ⟨rfl, rfl⟩ := Prod.mk.inj (Option.some.inj h)
          exact .save spec todo errors
        · next table htable =>
          obtain ⟨rfl, rfl⟩ := Prod.mk.inj (Option.some.inj h)
          exact .verified spec todo errors (htable ▸ Option.some_ne_none table)
        · next hnone =>
          obtain ⟨rfl, rfl⟩ := Prod.mk.inj (Option.some.inj h)
          exact .unverified spec todo errors hnone

section Turn

variable {delta : Writes LogEntry} {raises : Bool} {lake lake' : Lakehouse}
  {script script' : Script} {path : String}

theorem update_ne_none {table : Option (Table LogEntry)} {path' : String} (htable : table ≠ none)
    (h : lake path ≠ none) : Function.update lake path' table path ≠ none := by
  by_cases hpath : path = path'
  · rw [hpath, Function.update_self]
    exact htable
  · rwa [Function.update_of_ne hpath]

/-- No turn takes a table away. -/
theorem Turned.ne_none (h : Turned delta lake raises script script' lake')
    (hpath : lake path ≠ none) : lake' path ≠ none := by
  cases h with
  | save => exact update_ne_none (Option.some_ne_none _) hpath
  | exit | raise | found | missing | verified | unverified => exact hpath

/-- Only a save changes what is at a path. -/
theorem Turned.eq_of_not_saves (h : Turned delta lake raises script script' lake')
    (hsaves : raises = true ∨ ¬script.Saves path) : lake' path = lake path := by
  cases h with
  | save spec =>
    have hne : spec.path ≠ path := hsaves.resolve_left Bool.false_ne_true
    exact Function.update_of_ne (Ne.symm hne) _ _
  | exit | raise | found | missing | verified | unverified => rfl

theorem not_saves_checking (todo : List TableSpec) (errors : List String) :
    ¬(Script.running todo .checking errors).Saves path := by
  cases todo <;> exact id

/-- A script is about to save only where it has found no table. -/
theorem Turned.saves (h : Turned delta lake raises script script' lake')
    (hsaves : script'.Saves path) : lake path = none := by
  cases h with
  | missing spec todo errors hnone => exact (show spec.path = path from hsaves) ▸ hnone
  | raise | verified | unverified => exact absurd hsaves (not_saves_checking _ _)
  | exit | found | save => exact hsaves.elim

end Turn

/-! ### The invariant -/

/-- The rows an event brings. -/
def Event.rows : Event → List LogEntry
  | .appended rows => rows
  | .created => []

/-- All that has been appended, in its order. -/
def appendedTo (log : List Event) : List LogEntry := log.flatMap Event.rows

/-- The rows left after an event: a creation leaves none. -/
def Event.leave (rows : List LogEntry) : Event → List LogEntry
  | .appended more => rows ++ more
  | .created => []

/-- What has been appended since the table was last created. -/
def kept (log : List Event) : List LogEntry := log.foldl Event.leave []

section Log

variable {log es : List Event}

theorem appendedTo_append : appendedTo (log ++ es) = appendedTo log ++ appendedTo es :=
  List.flatMap_append

theorem kept_append_singleton (e : Event) : kept (log ++ [e]) = e.leave (kept log) := by
  rw [kept, List.foldl_append]
  rfl

end Log

/-- The rows of `processed_logs`. -/
def System.rows (s : System) : List LogEntry :=
  ((s.lake processedLogs.path).map Table.rows).getD []

/-- A run of the script: the tables it is through with are there if nothing has raised, and its
list of errors is empty just then. -/
def Script.Proper (lake : Lakehouse) (raised : Prop) : Script → Prop
  | .running todo stage errors =>
    (∃ done, tables = done ++ todo ∧ (errors = [] → ∀ spec ∈ done, lake spec.path ≠ none)) ∧
      (stage = .verifying → ∀ spec ∈ todo.head?, lake spec.path ≠ none) ∧ (errors = [] ↔ ¬raised)
  | .exited errors =>
    (errors = [] → ∀ spec ∈ tables, lake spec.path ≠ none) ∧ (errors = [] ↔ ¬raised)

/-- A table of the lakehouse: it is partitioned as `TABLES` says. -/
def Partitioned (lake : Lakehouse) : Prop :=
  ∀ spec ∈ tables, ∀ table, lake spec.path = some table → table.partitionBy = [spec.partitionCol]

/-- **The lakehouse is in order**: the table the job appends to has what was appended since its
creation and takes more, nothing has been refused, and all runs of the script are proper; as long
as there has been no race, nothing that was appended has been lost, and where a run is about to
save nothing has been appended. -/
structure System.Sound (s : System) : Prop where
  fits : ∀ table, s.lake processedLogs.path = some table →
    Table.Fits processedFields ["log_date"] table
  rows : s.rows = kept s.log
  empty : s.lake processedLogs.path = none → s.log = []
  refused : s.refused = []
  partitioned : Partitioned s.lake
  clean : s.raced = false → kept s.log = appendedTo s.log
  pending : s.raced = false → ∀ script ∈ s.scripts, script.Saves processedLogs.path →
    appendedTo s.log = []
  scripts : ∀ (n : ℕ) (script : Script), s.scripts[n]? = some script →
    script.Proper s.lake (n ∈ s.raised)
  raised : ∀ n ∈ s.raised, n < s.scripts.length

theorem sound_start : start.Sound where
  fits _ h := absurd h.symm (Option.some_ne_none _)
  rows := rfl
  empty _ := rfl
  refused := rfl
  partitioned _ _ _ h := absurd h.symm (Option.some_ne_none _)
  clean _ := rfl
  pending _ _ h := absurd h List.not_mem_nil
  scripts _ _ h := absurd h.symm (Option.some_ne_none _)
  raised _ h := absurd h List.not_mem_nil

section Proper

variable {delta : Writes LogEntry} {raises : Bool} {lake lake' : Lakehouse}
  {script script' : Script} {raised raised' : Prop}

theorem Script.Proper.mono (h : script.Proper lake raised)
    (hlake : ∀ path, lake path ≠ none → lake' path ≠ none) (hraised : raised ↔ raised') :
    script.Proper lake' raised' := by
  rw [propext hraised] at h
  cases script with
  | running todo stage errors =>
    obtain ⟨⟨done, hdone, hthere⟩, hverifying, herrors⟩ := h
    refine ⟨⟨done, hdone, fun hnone spec hspec => hlake _ (hthere hnone spec hspec)⟩,
      fun hstage spec hspec => hlake _ (hverifying hstage spec hspec), herrors⟩
  | exited errors => exact ⟨fun hnone spec hspec => hlake _ (h.1 hnone spec hspec), h.2⟩

theorem mem_tables_of_proper {spec : TableSpec} {todo : List TableSpec} {stage : Stage}
    {errors : List String} (h : (Script.running (spec :: todo) stage errors).Proper lake raised) :
    spec ∈ tables := by
  obtain ⟨⟨done, hdone, -⟩, -⟩ := h
  rw [hdone]
  exact List.mem_append_right _ List.mem_cons_self

theorem proper_start : Script.start.Proper lake False :=
  ⟨⟨[], rfl, fun _ _ h => absurd h List.not_mem_nil⟩, fun h => Stage.noConfusion h,
    iff_of_true rfl id⟩

/-- **A turn keeps a run proper.** -/
theorem Turned.proper (h : Turned delta lake raises script script' lake')
    (hproper : script.Proper lake raised) :
    script'.Proper lake' (raised ∨ raises = true) := by
  cases h with
  | exit stage errors =>
    obtain ⟨⟨done, hdone, hthere⟩, -, herrors⟩ := hproper
    rw [List.append_nil] at hdone
    exact ⟨hdone ▸ hthere, herrors.trans (by simp)⟩
  | raise spec todo stage errors =>
    obtain ⟨⟨done, hdone, hthere⟩, -, -⟩ := hproper
    refine ⟨⟨done ++ [spec], ?_, fun hnone => ?_⟩, fun hstage => Stage.noConfusion hstage, ?_⟩
    · rw [hdone, List.append_assoc]
      rfl
    · exact absurd hnone (List.append_ne_nil_of_right_ne_nil _ (List.cons_ne_nil _ _))
    · simp
  | found spec todo errors hsome =>
    obtain ⟨hdone, -, herrors⟩ := hproper
    refine ⟨hdone, fun _ spec' hspec' => ?_, herrors.trans (by simp)⟩
    exact Option.some.inj hspec' ▸ hsome
  | missing spec todo errors hnone =>
    obtain ⟨hdone, -, herrors⟩ := hproper
    exact ⟨hdone, fun hstage => Stage.noConfusion hstage, herrors.trans (by simp)⟩
  | save spec todo errors =>
    obtain ⟨⟨done, hdone, hthere⟩, -, herrors⟩ := hproper
    refine ⟨⟨done, hdone, fun hnone spec' hspec' => ?_⟩, fun _ spec' hspec' => ?_,
      herrors.trans (by simp)⟩
    · exact update_ne_none (Option.some_ne_none _) (hthere hnone spec' hspec')
    · rw [← Option.some.inj hspec', Function.update_self]
      exact Option.some_ne_none _
  | verified spec todo errors hsome =>
    obtain ⟨⟨done, hdone, hthere⟩, -, herrors⟩ := hproper
    refine ⟨⟨done ++ [spec], ?_, fun hnone spec' hspec' => ?_⟩,
      fun hstage => Stage.noConfusion hstage, herrors.trans (by simp)⟩
    · rw [hdone, List.append_assoc]
      rfl
    · rcases List.mem_append.mp hspec' with hspec' | hspec'
      · exact hthere hnone spec' hspec'
      · exact List.mem_singleton.mp hspec' ▸ hsome
  | unverified spec todo errors hnone =>
    -- the table it has found, or made, is still there
    exact absurd hnone (hproper.2.1 rfl spec rfl)

end Proper

/-! ### The steps -/

section Step

variable {delta : Writes LogEntry} {s s' : System} (h : s.Sound)

include h

/-- One more run of the script. -/
theorem sound_launch : System.Sound { s with scripts := s.scripts ++ [.start] } where
  fits := h.fits
  rows := h.rows
  empty := h.empty
  refused := h.refused
  partitioned := h.partitioned
  clean := h.clean
  pending hraced script hscript hsaves := by
    rcases List.mem_append.mp hscript with hscript | hscript
    · exact h.pending hraced script hscript hsaves
    · rw [List.mem_singleton.mp hscript] at hsaves
      exact hsaves.elim
  scripts n script hscript := by
    rcases Nat.lt_or_ge n s.scripts.length with hlt | hge
    · rw [List.getElem?_append_left hlt] at hscript
      exact h.scripts n script hscript
    · have hnew : n ∉ s.raised := fun hn => absurd (h.raised n hn) (Nat.not_lt.mpr hge)
      rw [List.getElem?_append_right hge] at hscript
      obtain rfl := List.mem_singleton.mp (List.mem_of_getElem? hscript)
      exact proper_start.mono (fun _ => id) (iff_of_false id hnew)
  raised n hn := by
    rw [List.length_append]
    exact Nat.lt_add_right _ (h.raised n hn)

variable (delta) in
/-- **Delta accepts the append**, whoever has created the table. -/
theorem exists_append (rows : List LogEntry) :
    ∃ table, delta.append processedFields ["log_date"] rows (s.lake processedLogs.path)
        = some table ∧
      Table.Fits processedFields ["log_date"] table ∧ table.rows = s.rows ++ rows := by
  rw [System.rows]
  rcases hlake : s.lake processedLogs.path with _ | table
  · obtain ⟨table, happend, hholds⟩ := delta.append_none processedFields ["log_date"] rows
    exact ⟨table, happend, hholds.fits accepts_processedFields, hholds.rows⟩
  · exact (h.fits table hlake).append delta accepts_processedFields

/-- **The job appends.** -/
theorem sound_append (rows : List LogEntry) :
    (append delta rows s).Sound ∧ ∃ table, append delta rows s = { s with
      lake := Function.update s.lake processedLogs.path (some table)
      log := s.log ++ [.appended rows]
      raced := s.raced || s.scripts.any fun script => script.Saves processedLogs.path } := by
  obtain ⟨table, happend, hfits, hrows⟩ := exists_append delta h rows
  have happended : append delta rows s = { s with
      lake := Function.update s.lake processedLogs.path (some table)
      log := s.log ++ [.appended rows]
      raced := s.raced || s.scripts.any fun script => script.Saves processedLogs.path } := by
    rw [append, happend]
  refine ⟨?_, table, happended⟩
  rw [happended]
  have hthere : Function.update s.lake processedLogs.path (some table) processedLogs.path
      = some table := Function.update_self _ _ _
  have hlast : appendedTo (s.log ++ [.appended rows]) = appendedTo s.log ++ rows := by
    rw [appendedTo_append]
    simp [appendedTo, Event.rows]
  refine ⟨fun table' htable => ?_, ?_, fun hnone => ?_, h.refused, ?_, fun hraced => ?_,
    fun hraced script hscript hsaves => ?_, fun n script hscript => ?_, h.raised⟩
  · exact Option.some.inj (hthere.symm.trans htable) ▸ hfits
  · have hkept : kept (s.log ++ [.appended rows]) = kept s.log ++ rows := kept_append_singleton _
    rw [System.rows]
    simp only [hthere, hkept, ← h.rows]
    exact hrows
  · exact absurd (hthere.symm.trans hnone) (Option.some_ne_none _)
  · intro spec hspec table' htable
    by_cases hpath : spec.path = processedLogs.path
    · obtain rfl := eq_of_path_eq spec hspec processedLogs (by simp [tables]) hpath
      exact Option.some.inj (hthere.symm.trans htable) ▸ hfits.partitionBy
    · exact h.partitioned spec hspec table' ((Function.update_of_ne hpath _ _).symm.trans htable)
  · rw [kept_append_singleton, hlast, ← h.clean (Bool.or_eq_false_iff.mp hraced).1]
    rfl
  · -- no run is about to save, as there has been no race
    have hnone := List.any_eq_false.mp (Bool.or_eq_false_iff.mp hraced).2 script hscript
    exact absurd (decide_eq_true hsaves) hnone
  · exact (h.scripts n script hscript).mono
      (fun _ => update_ne_none (Option.some_ne_none _)) Iff.rfl

omit h in
/-- What a run saves is partitioned as `TABLES` says. -/
theorem Turned.partitioned {raises : Bool} {lake lake' : Lakehouse} {script script' : Script}
    {raised : Prop} (hturned : Turned delta lake raises script script' lake')
    (hproper : script.Proper lake raised) (hlake : Partitioned lake) : Partitioned lake' := by
  cases hturned with
  | save spec todo errors =>
    intro spec' hspec' table htable
    by_cases hpath : spec'.path = spec.path
    · obtain rfl := eq_of_path_eq spec' hspec' spec (mem_tables_of_proper hproper) hpath
      rw [Function.update_self] at htable
      exact Option.some.inj htable ▸ (delta.overwrite_holds _ _ _ _).partitionBy
    · rw [Function.update_of_ne hpath] at htable
      exact hlake spec' hspec' table htable
  | exit | raise | found | missing | verified | unverified => exact hlake

omit h in
/-- Where a run creates `processed_logs`, there is the empty table of the script. -/
theorem Turned.creates {lake lake' : Lakehouse} {script script' : Script} {raised : Prop}
    (hturned : Turned delta lake false script script' lake') (hproper : script.Proper lake raised)
    (hsaves : script.Saves processedLogs.path) :
    (∃ table, lake' processedLogs.path = some table ∧
        table.Holds processedLogs.schema ["log_date"] []) ∧
      ∀ path, ¬script'.Saves path := by
  cases hturned with
  | save spec todo errors =>
    have hspec : spec ∈ tables := mem_tables_of_proper hproper
    obtain rfl := eq_of_path_eq spec hspec processedLogs (by simp [tables]) hsaves
    exact ⟨⟨_, Function.update_self _ _ _, delta.overwrite_holds _ _ _ _⟩, fun _ => id⟩
  | exit | found | missing | verified | unverified => exact absurd hsaves id

/-- The runs after the turn of one: it has come on properly, and the others see the tables there
still. -/
theorem proper_set {n : ℕ} {raises : Bool} {script script' : Script} {lake : Lakehouse}
    (hscript : s.scripts[n]? = some script)
    (hturned : Turned delta s.lake raises script script' lake) (m : ℕ) (other : Script)
    (hother : (s.scripts.set n script')[m]? = some other) :
    other.Proper lake (m ∈ s.raised ++ if raises then [n] else []) := by
  by_cases hm : m = n
  · subst hm
    rw [List.getElem?_set_self (List.getElem?_eq_some_iff.mp hscript).1] at hother
    obtain rfl := Option.some.inj hother
    refine (hturned.proper (h.scripts m script hscript)).mono (fun _ => id) ?_
    cases raises <;> simp
  · rw [List.getElem?_set_ne (Ne.symm hm)] at hother
    refine (h.scripts m other hother).mono (fun _ => hturned.ne_none) ?_
    cases raises <;> simp [hm]

/-- **A run of the script has a turn.** -/
theorem sound_script {n : ℕ} {raises : Bool} (hstep : step delta s (.script n raises) = some s') :
    s'.Sound := by
  obtain ⟨script, hscript, hrest⟩ := Option.bind_eq_some_iff.mp hstep
  obtain ⟨⟨script', lake⟩, hturn, hs⟩ := Option.bind_eq_some_iff.mp hrest
  obtain rfl := Option.some.inj hs
  have hturned := turned_of_turn hturn
  have hproper := h.scripts n script hscript
  have hset : ∀ other ∈ s.scripts.set n script', other ∈ s.scripts ∨ other = script' :=
    fun other => List.mem_or_eq_of_mem_set
  have hscripts := proper_set h hscript hturned
  have hraised : ∀ m ∈ s.raised ++ (if raises then [n] else []),
      m < (s.scripts.set n script').length := by
    intro m hm
    rw [List.length_set]
    rcases List.mem_append.mp hm with hm | hm
    · exact h.raised m hm
    · split at hm
      · exact List.mem_singleton.mp hm ▸ (List.getElem?_eq_some_iff.mp hscript).1
      · exact absurd hm List.not_mem_nil
  have hpartitioned := hturned.partitioned hproper h.partitioned
  by_cases hcreates : ¬raises ∧ script.Saves processedLogs.path
  · -- the table is made anew, and is empty
    obtain rfl : raises = false := Bool.eq_false_iff.mpr hcreates.1
    obtain ⟨⟨table, hlake, hholds⟩, hquiet⟩ := hturned.creates hproper hcreates.2
    rw [if_pos hcreates]
    have hkept : kept (s.log ++ [.created]) = [] := kept_append_singleton _
    have happended : appendedTo (s.log ++ [.created]) = appendedTo s.log := by
      rw [appendedTo_append]
      exact List.append_nil _
    refine ⟨fun table' htable => ?_, ?_, fun hnone => ?_, h.refused, hpartitioned, fun hrace => ?_,
      fun hrace other hother hsaves => ?_, hscripts, hraised⟩
    · exact Option.some.inj (hlake.symm.trans htable) ▸ hholds.fits accepts_processedLogs
    · rw [System.rows]
      simp only [hlake, hkept]
      exact hholds.rows
    · exact absurd (hlake.symm.trans hnone) (Option.some_ne_none _)
    · rw [hkept, happended]
      exact (h.pending hrace script (List.mem_of_getElem? hscript) hcreates.2).symm
    · rw [happended]
      rcases hset other hother with hother | rfl
      · exact h.pending hrace other hother hsaves
      · exact absurd hsaves (hquiet _)
  · have hquiet : raises = true ∨ ¬script.Saves processedLogs.path := by
      cases raises with
      | true => exact Or.inl rfl
      | false => exact Or.inr fun hsaves => hcreates ⟨Bool.false_ne_true, hsaves⟩
    have hlake : lake processedLogs.path = s.lake processedLogs.path :=
      hturned.eq_of_not_saves hquiet
    rw [if_neg hcreates, List.append_nil]
    refine ⟨fun table htable => h.fits table (hlake.symm.trans htable), ?_,
      fun hnone => h.empty (hlake.symm.trans hnone), h.refused, hpartitioned, h.clean,
      fun hrace other hother hsaves => ?_, hscripts, hraised⟩
    · rw [System.rows]
      simp only [hlake]
      exact h.rows
    · rcases hset other hother with hother | rfl
      · exact h.pending hrace other hother hsaves
      · rw [h.empty (hturned.saves hsaves)]
        rfl

/-- **Every step keeps the lakehouse in order.** -/
theorem sound_step {action : Action} (hstep : step delta s action = some s') : s'.Sound := by
  cases action with
  | launch => exact Option.some.inj hstep ▸ sound_launch h
  | script n raises => exact sound_script h hstep
  | append rows => exact Option.some.inj hstep ▸ (sound_append h rows).1

/-- The rows of what is appended. -/
def Action.rows : Action → List LogEntry
  | .append rows => rows
  | _ => []

/-- Of what is appended, everything is logged. -/
theorem appendedTo_step {action : Action} (hstep : step delta s action = some s') :
    appendedTo s'.log = appendedTo s.log ++ action.rows := by
  cases action with
  | launch =>
    obtain rfl := Option.some.inj hstep
    exact (List.append_nil _).symm
  | script n raises =>
    obtain ⟨script, -, hrest⟩ := Option.bind_eq_some_iff.mp hstep
    obtain ⟨⟨script', lake⟩, -, hs⟩ := Option.bind_eq_some_iff.mp hrest
    obtain rfl := Option.some.inj hs
    show appendedTo (s.log ++ if _ then [.created] else []) = _
    rw [appendedTo_append]
    split <;> rfl
  | append rows =>
    obtain rfl := Option.some.inj hstep
    obtain ⟨table, happended⟩ := (sound_append h rows).2
    rw [happended, appendedTo_append]
    simp [appendedTo, Event.rows, Action.rows]

/-- The table is there, and no run is about to save it. -/
def System.Settled (s : System) : Prop :=
  s.lake processedLogs.path ≠ none ∧ ∀ script ∈ s.scripts, ¬script.Saves processedLogs.path

/-- **A settled table only grows.** -/
theorem settled_step (hsettled : s.Settled) {action : Action}
    (hstep : step delta s action = some s') :
    s'.Settled ∧ s'.rows = s.rows ++ action.rows := by
  obtain ⟨hthere, hquiet⟩ := hsettled
  cases action with
  | launch =>
    obtain rfl := Option.some.inj hstep
    refine ⟨⟨hthere, fun script hscript => ?_⟩, (List.append_nil _).symm⟩
    rcases List.mem_append.mp hscript with hscript | hscript
    · exact hquiet script hscript
    · rw [List.mem_singleton.mp hscript]
      exact id
  | script n raises =>
    obtain ⟨script, hscript, hrest⟩ := Option.bind_eq_some_iff.mp hstep
    obtain ⟨⟨script', lake⟩, hturn, hs⟩ := Option.bind_eq_some_iff.mp hrest
    obtain rfl := Option.some.inj hs
    have hturned := turned_of_turn hturn
    have hlake : lake processedLogs.path = s.lake processedLogs.path :=
      hturned.eq_of_not_saves (Or.inr (hquiet script (List.mem_of_getElem? hscript)))
    refine ⟨⟨fun hnone => hthere (hlake.symm.trans hnone), fun other hother => ?_⟩, ?_⟩
    · rcases List.mem_or_eq_of_mem_set hother with hother | rfl
      · exact hquiet other hother
      · exact fun hsaves => hthere (hturned.saves hsaves)
    · rw [System.rows]
      simp only [hlake]
      exact (List.append_nil _).symm
  | append rows =>
    obtain rfl := Option.some.inj hstep
    obtain ⟨hsound, table, happended⟩ := sound_append h rows
    have hrows : (append delta rows s).rows = s.rows ++ rows := by
      rw [hsound.rows, happended, h.rows]
      exact kept_append_singleton _
    refine ⟨?_, hrows⟩
    rw [happended]
    refine ⟨?_, hquiet⟩
    show Function.update s.lake processedLogs.path (some table) processedLogs.path ≠ none
    exact update_ne_none (Option.some_ne_none _) hthere

/-- No step takes a table away. -/
theorem ne_none_step {action : Action} (hstep : step delta s action = some s') {path : String}
    (hpath : s.lake path ≠ none) : s'.lake path ≠ none := by
  cases action with
  | launch => exact Option.some.inj hstep ▸ hpath
  | script n raises =>
    obtain ⟨script, -, hrest⟩ := Option.bind_eq_some_iff.mp hstep
    obtain ⟨⟨script', lake⟩, hturn, hs⟩ := Option.bind_eq_some_iff.mp hrest
    obtain rfl := Option.some.inj hs
    exact (turned_of_turn hturn).ne_none hpath
  | append rows =>
    obtain rfl := Option.some.inj hstep
    obtain ⟨table, happended⟩ := (sound_append h rows).2
    rw [happended]
    exact update_ne_none (Option.some_ne_none _) hpath

omit h in
/-- A call has raised in a run just where it has had a turn in which it did. -/
theorem mem_raised_step {action : Action} (hstep : step delta s action = some s') (n : ℕ) :
    n ∈ s'.raised ↔ n ∈ s.raised ∨ action = .script n true := by
  cases action with
  | launch =>
    obtain rfl := Option.some.inj hstep
    simp
  | script m raises =>
    obtain ⟨script, -, hrest⟩ := Option.bind_eq_some_iff.mp hstep
    obtain ⟨⟨script', lake⟩, -, hs⟩ := Option.bind_eq_some_iff.mp hrest
    obtain rfl := Option.some.inj hs
    cases raises <;> simp [eq_comm]
  | append rows =>
    obtain rfl := Option.some.inj hstep
    rw [append]
    split <;> simp

end Step

/-! ### Every run -/

section Run

variable {delta : Writes LogEntry} {actions later : List Action} {s s' : System}

theorem sound_run (hrun : Lts.run (step delta) actions start = some s) : s.Sound :=
  Lts.run_invariant (fun _ _ _ h _ hstep => sound_step h hstep) sound_start
    (fun _ _ => trivial) hrun

theorem appendedTo_run (h : s.Sound) (hrun : Lts.run (step delta) later s = some s') :
    appendedTo s'.log = appendedTo s.log ++ later.flatMap Action.rows := by
  induction later generalizing s with
  | nil =>
    obtain rfl := Option.some.inj hrun
    exact (List.append_nil _).symm
  | cons action later ih =>
    obtain ⟨t, hstep, hrest⟩ := Lts.exists_of_run_cons hrun
    rw [ih (sound_step h hstep) hrest, appendedTo_step h hstep, List.append_assoc,
      List.flatMap_cons]

theorem rows_run_of_settled (h : s.Sound) (hsettled : s.Settled)
    (hrun : Lts.run (step delta) later s = some s') :
    s'.rows = s.rows ++ later.flatMap Action.rows := by
  induction later generalizing s with
  | nil =>
    obtain rfl := Option.some.inj hrun
    exact (List.append_nil _).symm
  | cons action later ih =>
    obtain ⟨t, hstep, hrest⟩ := Lts.exists_of_run_cons hrun
    obtain ⟨hsettled', hrows⟩ := settled_step h hsettled hstep
    rw [ih (sound_step h hstep) hsettled' hrest, hrows, List.append_assoc, List.flatMap_cons]

theorem ne_none_run (h : s.Sound) (hrun : Lts.run (step delta) later s = some s') {path : String}
    (hpath : s.lake path ≠ none) : s'.lake path ≠ none :=
  (Lts.run_invariant (I := fun t => t.Sound ∧ t.lake path ≠ none) (P := fun _ => True)
    (fun _ _ _ ht _ hstep => ⟨sound_step ht.1 hstep, ne_none_step ht.1 hstep ht.2⟩)
    ⟨h, hpath⟩ (fun _ _ => trivial) hrun).2

theorem mem_raised_run (hrun : Lts.run (step delta) later s = some s') (n : ℕ) :
    n ∈ s'.raised ↔ n ∈ s.raised ∨ .script n true ∈ later := by
  induction later generalizing s with
  | nil =>
    obtain rfl := Option.some.inj hrun
    simp
  | cons action later ih =>
    obtain ⟨t, hstep, hrest⟩ := Lts.exists_of_run_cons hrun
    rw [ih hrest, mem_raised_step hstep, List.mem_cons, or_assoc, eq_comm]

/-- **The appends of the job are always accepted**: however many runs of the script there are,
wherever they stand, and whichever of them or the job has created `processed_logs`, no append has
been refused and none would be; and every table is partitioned as `TABLES` says. -/
theorem appends_accepted (hrun : Lts.run (step delta) actions start = some s) :
    s.refused = [] ∧ Partitioned s.lake ∧
      ∀ rows, (append delta rows s).refused = [] ∧ (append delta rows s).rows = s.rows ++ rows := by
  have h := sound_run hrun
  refine ⟨h.refused, h.partitioned, fun rows => ?_⟩
  obtain ⟨hsound, table, happended⟩ := sound_append h rows
  refine ⟨hsound.refused, ?_⟩
  rw [hsound.rows, happended, h.rows]
  exact kept_append_singleton _

/-- **The rows are kept, but for the race**: `processed_logs` holds what has been appended since
it was last created; it holds all that has ever been appended, in order, as long as no append has
come while a run of the script was between its check and its save; and from where the table is
there and no run stands in between, it only grows, whatever further runs of the script do. -/
theorem rows_kept (hrun : Lts.run (step delta) actions start = some s) :
    s.rows = kept s.log ∧ (s.raced = false → s.rows = actions.flatMap Action.rows) ∧
      (s.Settled → ∀ later s', Lts.run (step delta) later s = some s' →
        s'.rows = s.rows ++ later.flatMap Action.rows) := by
  have h := sound_run hrun
  refine ⟨h.rows, fun hraced => ?_, fun hsettled later s' hlater =>
    rows_run_of_settled h hsettled hlater⟩
  rw [h.rows, h.clean hraced, appendedTo_run sound_start hrun]
  rfl

/-- **A run that exits with 0 leaves all three tables**: it does so just where none of its calls
has raised, and then the tables are there, partitioned as `TABLES` says, and stay. -/
theorem exit_zero_iff (hrun : Lts.run (step delta) actions start = some s) {n : ℕ}
    {errors : List String}
    (hexit : s.scripts[n]? = some (.exited errors)) :
    ((Script.exited errors).exitCode = some 0 ↔ .script n true ∉ actions) ∧
      ((Script.exited errors).exitCode = some 0 → ∀ spec ∈ tables,
        (∃ table, s.lake spec.path = some table ∧ table.partitionBy = [spec.partitionCol]) ∧
        ∀ later s', Lts.run (step delta) later s = some s' → s'.lake spec.path ≠ none) := by
  have h := sound_run hrun
  obtain ⟨hthere, herrors⟩ := h.scripts n _ hexit
  have hzero : (Script.exited errors).exitCode = some 0 ↔ errors = [] := by
    rw [Script.exitCode]
    split
    · next hnil => exact iff_of_true rfl hnil
    · next hne => exact iff_of_false (by decide) hne
  have hraised : n ∈ s.raised ↔ .script n true ∈ actions :=
    (mem_raised_run hrun n).trans (or_iff_right List.not_mem_nil)
  refine ⟨by rw [hzero, herrors, hraised], fun hcode spec hspec => ?_⟩
  have hsome := hthere (hzero.mp hcode) spec hspec
  obtain ⟨table, htable⟩ := Option.ne_none_iff_exists'.mp hsome
  exact ⟨⟨table, htable, h.partitioned spec hspec table htable⟩,
    fun later s' hlater => ne_none_run h hlater hsome⟩

end Run

/-! ### The race -/

def oneEntry : LogEntry := (processedRow 0 (bareRow "KERNEL") 0, 0)

/-- The job comes first, and the script finds its table. -/
def jobFirst : List Action :=
  [.append [oneEntry], .launch, .script 0 false, .script 0 false, .script 0 false, .script 0 false,
    .script 0 false, .script 0 false, .script 0 false, .script 0 false, .script 0 false]

/-- The job comes between the check of the script and its save. -/
def jobBetween : List Action :=
  [.launch, .script 0 true, .script 0 false, .append [oneEntry], .script 0 false]

theorem appends_accepted_jobFirst :
    ∃ s, Lts.run (step (plainWrites LogEntry)) jobFirst start = some s ∧ s.refused = [] ∧
      (append (plainWrites LogEntry) [oneEntry] s).rows = [oneEntry, oneEntry] := by
  obtain ⟨s, hrun, hrows⟩ : ∃ s,
      Lts.run (step (plainWrites LogEntry)) jobFirst start = some s ∧ s.rows = [oneEntry] :=
    ⟨_, rfl, rfl⟩
  obtain ⟨hrefused, -, hnext⟩ := appends_accepted hrun
  exact ⟨s, hrun, hrefused, by rw [(hnext [oneEntry]).2, hrows]; rfl⟩

/-- What was appended is gone, and what comes later stays. -/
theorem rows_kept_jobBetween :
    ∃ s, Lts.run (step (plainWrites LogEntry)) jobBetween start = some s ∧
      jobBetween.flatMap Action.rows = [oneEntry] ∧
      s.rows = [] ∧ ∀ later s', Lts.run (step (plainWrites LogEntry)) later s = some s' →
        s'.rows = later.flatMap Action.rows := by
  obtain ⟨s, hrun, hlog, hsettled⟩ : ∃ s,
      Lts.run (step (plainWrites LogEntry)) jobBetween start = some s ∧
      s.log = [.appended [oneEntry], .created] ∧ s.Settled := by
    refine ⟨_, rfl, rfl, ?_, ?_⟩
    · exact Option.some_ne_none _
    · exact List.forall_mem_singleton.mpr id
  obtain ⟨hrows, -, hlater⟩ := rows_kept hrun
  have hempty : s.rows = [] := by
    rw [hrows, hlog]
    rfl
  refine ⟨s, hrun, rfl, hempty, fun later s' hrun' => ?_⟩
  rw [hlater hsettled later s' hrun', hempty, List.nil_append]

/-- The run exits with 0, and all three tables are there. -/
theorem exit_zero_iff_jobFirst :
    ∃ s, Lts.run (step (plainWrites LogEntry)) jobFirst start = some s ∧
      s.scripts[0]? = some (.exited []) ∧
      .script 0 true ∉ jobFirst ∧ ∀ spec ∈ tables,
        ∃ table, s.lake spec.path = some table ∧ table.partitionBy = [spec.partitionCol] := by
  obtain ⟨s, hrun, hexit⟩ : ∃ s, Lts.run (step (plainWrites LogEntry)) jobFirst start = some s ∧
      s.scripts[0]? = some (.exited []) := ⟨_, rfl, rfl⟩
  obtain ⟨hcode, hthere⟩ := exit_zero_iff hrun hexit
  exact ⟨s, hrun, hexit, hcode.mp rfl, fun spec hspec => (hthere rfl spec hspec).1⟩

end InitLakehouse

end AiopsLog
