import AiopsLog.SinksAgree

/-!
# Crash and replay

Spark delivers a batch until a call of the handler returns. When the process is killed
inside a call, the job restarts with a fresh processor and the same batch comes again
under the same identifier. A delivery (`AiopsLog.Delivery`) is a batch with the calls
that were killed before the one that returned, each given by the number of sink writes
it got through.

No sink recognises a batch it has seen: the Delta append has no transaction
identifier, every alert row has a fresh key, the counters add. So a call that is killed
after its first write leaves rows in `processed_logs` that the replay writes again, and
the sinks end as they would have without the crashes if and only if every killed call
was killed before its first write, or had no rows (`AiopsLog.recovered_iff`).
-/

namespace AiopsLog

open Py Py.Code

variable {Nlp Km Features : Type}

/-! ### Deliveries -/

/-- A batch, and the calls killed before the call that returned: each by the number of
sink writes it got through. -/
structure Delivery extends ServedCall where
  crashes : List ℕ

/-- The delivery without its crashes. -/
def Delivery.crashFree (d : Delivery) : Delivery := { d with crashes := [] }

/-- A killed call, and the restart of the job. -/
def crashAndRestart (ml : SparkML Nlp Km Features) (d : Delivery) (job : Job Nlp Km) (k : ℕ) :
    Job Nlp Km :=
  ⟨BatchProcessor.init, (process ml (d.env.crashAfter k) d.batch d.batchId job).2.sinks⟩

/-- A delivery: the killed calls, then the one that returns. -/
def deliver (ml : SparkML Nlp Km Features) (job : Job Nlp Km) (d : Delivery) : Job Nlp Km :=
  (process ml d.env d.batch d.batchId (d.crashes.foldl (crashAndRestart ml d) job)).2

/-- A run of deliveries. -/
def deliverAll (ml : SparkML Nlp Km Features) (ds : List Delivery) (job : Job Nlp Km) :
    Job Nlp Km :=
  ds.foldl (deliver ml) job

/-- The processor of the call that returns, when the first call finds `self`. -/
def Delivery.processor (d : Delivery) (self : BatchProcessor Nlp Km) : BatchProcessor Nlp Km :=
  if d.crashes = [] then self else BatchProcessor.init

/-- **The rows receive the same labels** in every call of a delivery as in a run without
crashes: `self` and `self₀` are the processors the two runs have come to. -/
def SameLabels (ml : SparkML Nlp Km Features) :
    List Delivery → BatchProcessor Nlp Km → BatchProcessor Nlp Km → Prop
  | [], _, _ => True
  | d :: ds, self, self₀ =>
    labels ml self d.batch = labels ml self₀ d.batch ∧
      labels ml (d.processor self) d.batch = labels ml self₀ d.batch ∧
      SameLabels ml ds ((d.processor self).trainedBy ml d.batch) (self₀.trainedBy ml d.batch)

/-! ### What a sink holds, whatever the order and the keys -/

/-- The content of an alert row: all its columns but the key. -/
def AlertRow.content (row : AlertRow) : AlertRow := { row with alertId := 0 }

/-- **The sinks hold what other sinks hold**: the same log rows, the same sums of
`batch_metrics`, the same totals in `component_health`, the same alert contents, and
metrics of the same batches. -/
structure Recovered (s s₀ : Sinks) : Prop where
  logs : (s.processedLogs.map Prod.fst).Perm (s₀.processedLogs.map Prod.fst)
  metrics : ∀ c, metricsEvents c s = metricsEvents c s₀ ∧
    metricsAnomalies c s = metricsAnomalies c s₀
  health : ∀ c, (tallyIn s.componentHealth c).events = (tallyIn s₀.componentHealth c).events ∧
    (tallyIn s.componentHealth c).anomalies = (tallyIn s₀.componentHealth c).anomalies
  alerts : (s.anomalyAlertsPg.map AlertRow.content).Perm (s₀.anomalyAlertsPg.map AlertRow.content)
  models : (s.modelMetrics.map (·.batchId)).Perm (s₀.modelMetrics.map (·.batchId))

theorem Recovered.refl (s : Sinks) : Recovered s s :=
  ⟨List.Perm.refl _, fun _ => ⟨rfl, rfl⟩, fun _ => ⟨rfl, rfl⟩, List.Perm.refl _, List.Perm.refl _⟩

/-! ### What a delivery leaves -/

section Delivery

variable {ml : SparkML Nlp Km Features} {d : Delivery} {self : BatchProcessor Nlp Km} {s : Sinks}

/-- The sinks after the killed calls of a delivery, with the labels `L`. -/
def Sinks.afterCrashes (d : Delivery) (L : List ProcessedRow) (s : Sinks) : Sinks :=
  d.crashes.foldl (fun s k => s.afterWrites d.env L d.batchId (Write.order.take k)) s

theorem hasModels_processor (h : self.HasModels) : (d.processor self).HasModels := by
  rw [Delivery.processor]
  split
  · exact h
  · exact hasModels_init

theorem sinks_crashAndRestart {L : List ProcessedRow} (hself : self.HasModels)
    (hL : labels ml self d.batch = L) (k : ℕ) :
    crashAndRestart ml d ⟨self, s⟩ k
      = ⟨BatchProcessor.init, s.afterWrites d.env L d.batchId (Write.order.take k)⟩ := by
  have hcrash := (process_crashAfter ml d.batch d.batchId ⟨self, s⟩ d.allOk hself k).1
  rw [crashAndRestart, hcrash, hL]

/-- The killed calls of a delivery, one after the other. -/
theorem foldl_crashAndRestart {L : List ProcessedRow} (hself : self.HasModels)
    (hL : labels ml self d.batch = L)
    (hinit : d.crashes ≠ [] → labels ml BatchProcessor.init d.batch = L) :
    d.crashes.foldl (crashAndRestart ml d) ⟨self, s⟩ = ⟨d.processor self, s.afterCrashes d L⟩ := by
  rw [Sinks.afterCrashes, Delivery.processor]
  generalize d.crashes = crashes at hinit
  cases crashes with
  | nil => rfl
  | cons k ks =>
    -- the first of them finds `self`, the others find a fresh processor
    rw [if_neg (List.cons_ne_nil k ks), List.foldl_cons, sinks_crashAndRestart hself hL,
      List.foldl_cons]
    generalize s.afterWrites d.env L d.batchId (Write.order.take k) = s'
    have hagain : labels ml BatchProcessor.init d.batch = L := hinit (List.cons_ne_nil k ks)
    clear hinit
    induction ks generalizing s' with
    | nil => rfl
    | cons k' ks ih =>
      rw [List.foldl_cons, List.foldl_cons, sinks_crashAndRestart hasModels_init hagain]
      exact ih _

/-- **A delivery writes the batch's labelled rows** once for each call, each time as far
as the call gets. -/
theorem deliver_eq {L : List ProcessedRow} (hself : self.HasModels)
    (hL : labels ml self d.batch = L) (hL' : labels ml (d.processor self) d.batch = L) :
    deliver ml ⟨self, s⟩ d = ⟨(d.processor self).trainedBy ml d.batch,
      (s.afterCrashes d L).afterWrites d.env L d.batchId Write.order⟩ := by
  have hinit : d.crashes ≠ [] → labels ml BatchProcessor.init d.batch = L := by
    intro hne
    rwa [Delivery.processor, if_neg hne] at hL'
  rw [deliver, foldl_crashAndRestart hself hL hinit, process_ok d.allOk (hasModels_processor hself),
    hL']

end Delivery

/-! ### What the crashes leave behind -/

section Surplus

variable {env : Env} {L : List ProcessedRow} {batchId : ℤ}

theorem processedLogs_effect {w : Write} (hw : w ≠ .delta) (s : Sinks) :
    (w.effect env L batchId s).processedLogs = s.processedLogs := by
  cases w with
  | delta => exact absurd rfl hw
  | model =>
    simp only [Write.effect, Sinks.appendModelMetric]
    split <;> rfl
  | alerts | metrics | alertRows | health => rfl

theorem processedLogs_afterWrites_of_not_mem {writes : List Write} (h : Write.delta ∉ writes)
    (s : Sinks) : (s.afterWrites env L batchId writes).processedLogs = s.processedLogs := by
  induction writes generalizing s with
  | nil => rfl
  | cons w writes ih =>
    rw [List.mem_cons, not_or] at h
    exact (ih h.2 _).trans (processedLogs_effect (Ne.symm h.1) s)

/-- A call that gets through its first write has appended its rows. -/
theorem length_processedLogs_take (k : ℕ) (s : Sinks) :
    (s.afterWrites env L batchId (Write.order.take k)).processedLogs.length
      = s.processedLogs.length + if k = 0 then 0 else L.length := by
  cases k with
  | zero => rfl
  | succ k =>
    have hsplit : s.afterWrites env L batchId (Write.order.take (k + 1))
        = (s.appendLogs L).afterWrites env L batchId (Write.order.tail.take k) := rfl
    have hnot : Write.delta ∉ Write.order.tail.take k := fun hmem =>
      absurd (List.mem_of_mem_take hmem) (by decide)
    rw [hsplit, processedLogs_afterWrites_of_not_mem hnot]
    simp [Sinks.appendLogs]

/-- The log rows a delivery leaves beyond those of a single call. -/
def Delivery.surplus (d : Delivery) : ℕ := (d.crashes.countP (· ≠ 0)) * d.batch.length

theorem surplus_eq_zero {d : Delivery} :
    d.surplus = 0 ↔ d.batch = [] ∨ ∀ k ∈ d.crashes, k = 0 := by
  rw [Delivery.surplus, Nat.mul_eq_zero, List.length_eq_zero_iff, List.countP_eq_zero, or_comm]
  simp

theorem length_processedLogs_afterCrashes (d : Delivery) (hL : L.length = d.batch.length)
    (s : Sinks) :
    (s.afterCrashes d L).processedLogs.length = s.processedLogs.length + d.surplus := by
  rw [Sinks.afterCrashes, Delivery.surplus, ← hL]
  induction d.crashes generalizing s with
  | nil => simp
  | cons k ks ih =>
    rw [List.foldl_cons, ih, length_processedLogs_take, List.countP_cons]
    by_cases hk : k = 0
    · simp [hk]
    · simp only [hk, if_false, ne_eq, not_false_eq_true, decide_true, if_true, Nat.add_mul,
        Nat.one_mul]
      omega

/-- Crashes that leave nothing behind leave the sinks alone. -/
theorem afterCrashes_of_surplus (d : Delivery) (hL : L.length = d.batch.length)
    (h : d.surplus = 0) (s : Sinks) : s.afterCrashes d L = s := by
  have hsame : ∀ k ∈ d.crashes, ∀ s : Sinks,
      s.afterWrites d.env L d.batchId (Write.order.take k) = s := by
    intro k hk s
    rcases surplus_eq_zero.mp h with hnil | hzero
    · have hLnil : L = [] := by
        rw [← List.length_eq_zero_iff, hL, hnil]
        rfl
      rw [hLnil, afterWrites_nil]
    · rw [hzero k hk]
      rfl
  rw [Sinks.afterCrashes]
  generalize d.crashes = crashes at hsame
  induction crashes with
  | nil => rfl
  | cons k ks ih =>
    rw [List.foldl_cons, hsame k List.mem_cons_self]
    exact ih fun k' hk' => hsame k' (List.mem_cons_of_mem _ hk')

end Surplus

/-! ### Runs -/

section Run

variable {ml : SparkML Nlp Km Features}

variable (ml) in
theorem length_labels {self : BatchProcessor Nlp Km} (hself : self.HasModels)
    (batch : List LogRow) :
    (labels ml self batch).length = batch.length := by
  have hcols := congrArg List.length (map_columns_labels ml batch hself)
  simpa using hcols

/-- **The log rows after a run**: those of a run without crashes, and the surplus of
each delivery. -/
theorem length_processedLogs_deliverAll (ds : List Delivery) {self self₀ : BatchProcessor Nlp Km}
    (hself : self.HasModels) (hself₀ : self₀.HasModels) (hlabels : SameLabels ml ds self self₀)
    (s : Sinks) :
    (deliverAll ml ds ⟨self, s⟩).sinks.processedLogs.length
      = s.processedLogs.length + (ds.map fun d => d.surplus + d.batch.length).sum := by
  induction ds generalizing self self₀ s with
  | nil => rfl
  | cons d ds ih =>
    obtain ⟨hfirst, hlast, hrest⟩ := hlabels
    have hlen := length_labels ml hself₀ d.batch
    have horder : Write.order = Write.order.take 6 := rfl
    rw [deliverAll, List.foldl_cons, deliver_eq hself hfirst hlast]
    refine (ih (hasModels_trainedBy (hasModels_processor hself)) (hasModels_trainedBy hself₀) hrest
      _).trans ?_
    rw [horder, length_processedLogs_take, length_processedLogs_afterCrashes d hlen, List.map_cons,
      List.sum_cons, hlen, if_neg (by decide)]
    omega

/-- **A run whose crashes leave nothing behind** ends with the sinks of the run without
them. -/
theorem sinks_deliverAll (ds : List Delivery) {self self₀ : BatchProcessor Nlp Km}
    (hself : self.HasModels) (hself₀ : self₀.HasModels) (hlabels : SameLabels ml ds self self₀)
    (hsurplus : ∀ d ∈ ds, d.surplus = 0) (s : Sinks) :
    (deliverAll ml ds ⟨self, s⟩).sinks
      = (deliverAll ml (ds.map (·.crashFree)) ⟨self₀, s⟩).sinks := by
  induction ds generalizing self self₀ s with
  | nil => rfl
  | cons d ds ih =>
    obtain ⟨hfirst, hlast, hrest⟩ := hlabels
    have hlen := length_labels ml hself₀ d.batch
    have hnone : d.surplus = 0 := hsurplus d List.mem_cons_self
    have hfree : deliver ml ⟨self₀, s⟩ d.crashFree = ⟨self₀.trainedBy ml d.batch,
        s.afterWrites d.env (labels ml self₀ d.batch) d.batchId Write.order⟩ :=
      deliver_eq (d := d.crashFree) hself₀ rfl rfl
    rw [deliverAll, List.foldl_cons, deliver_eq hself hfirst hlast, List.map_cons, deliverAll,
      List.foldl_cons, hfree, afterCrashes_of_surplus d hlen hnone]
    exact ih (hasModels_trainedBy (hasModels_processor hself)) (hasModels_trainedBy hself₀) hrest
      (fun d' hd' => hsurplus d' (List.mem_cons_of_mem _ hd')) _

theorem sameLabels_crashFree (ds : List Delivery) (self : BatchProcessor Nlp Km) :
    SameLabels ml (ds.map (·.crashFree)) self self := by
  induction ds generalizing self with
  | nil => trivial
  | cons d ds ih => exact ⟨rfl, rfl, ih _⟩

theorem surplus_crashFree (d : Delivery) : d.crashFree.surplus = 0 := by
  simp [Delivery.surplus, Delivery.crashFree]

/-- **When a replay repairs a crash**: after any run of deliveries in which the rows
receive the same labels as in the run without crashes, the sinks hold what they hold
after that run if and only if every killed call was killed before its first write, or
had no rows. -/
theorem recovered_iff (ds : List Delivery)
    (hlabels : SameLabels ml ds BatchProcessor.init BatchProcessor.init) :
    Recovered (deliverAll ml ds ⟨BatchProcessor.init, Sinks.initial⟩).sinks
        (deliverAll ml (ds.map (·.crashFree)) ⟨BatchProcessor.init, Sinks.initial⟩).sinks ↔
      ∀ d ∈ ds, d.batch = [] ∨ ∀ k ∈ d.crashes, k = 0 := by
  have hsum : (∀ d ∈ ds, d.batch = [] ∨ ∀ k ∈ d.crashes, k = 0) ↔ ∀ d ∈ ds, d.surplus = 0 :=
    forall₂_congr fun _ _ => surplus_eq_zero.symm
  rw [hsum]
  constructor
  · -- `processed_logs` alone tells: it has gained the surplus
    intro hrecovered
    have hlogs := hrecovered.logs.length_eq
    rw [List.length_map, List.length_map,
      length_processedLogs_deliverAll ds hasModels_init hasModels_init hlabels,
      length_processedLogs_deliverAll _ hasModels_init hasModels_init (sameLabels_crashFree ds _),
      List.map_map, List.sum_map_add] at hlogs
    have hfree : (ds.map ((fun d => d.surplus + d.batch.length) ∘ (·.crashFree))).sum
        = (ds.map (·.batch.length)).sum := by
      refine congrArg List.sum (List.map_congr_left fun d _ => ?_)
      rw [Function.comp_apply, surplus_crashFree, Nat.zero_add]
      rfl
    rw [hfree] at hlogs
    have hzero : (ds.map Delivery.surplus).sum = 0 := by omega
    intro d hd
    exact List.sum_eq_zero_iff.mp hzero _ (List.mem_map_of_mem hd)
  · intro hnone
    rw [sinks_deliverAll ds hasModels_init hasModels_init hlabels hnone]
    exact Recovered.refl _

end Run

/-! ### A crash after the last write

One row, all six writes, a kill before the call returns – and the replay writes
everything once more. -/

/-- A batch of one row, delivered in calls of which the first are killed. -/
def oneRowDelivery (crashes : List ℕ) : Delivery where
  env := Env.serving
  batch := [bareRow "KERNEL"]
  batchId := 0
  allOk := allOk_serving
  crashes := crashes

/-- **The replay of a batch that was written is written again.** -/
theorem not_recovered_crash_after_writes :
    SameLabels (SparkML.ofRule fun _ => 0) [oneRowDelivery [6]] BatchProcessor.init
        BatchProcessor.init ∧
      ¬Recovered (deliverAll (SparkML.ofRule fun _ => 0) [oneRowDelivery [6]]
          ⟨BatchProcessor.init, Sinks.initial⟩).sinks
        (deliverAll (SparkML.ofRule fun _ => 0) [oneRowDelivery []]
          ⟨BatchProcessor.init, Sinks.initial⟩).sinks := by
  refine ⟨⟨rfl, rfl, trivial⟩, fun h => ?_⟩
  have hlogs := h.logs.length_eq
  have htwo : (deliverAll (SparkML.ofRule fun _ => 0) [oneRowDelivery [6]]
      ⟨BatchProcessor.init, Sinks.initial⟩).sinks.processedLogs.length = 2 := rfl
  have hone : (deliverAll (SparkML.ofRule fun _ => 0) [oneRowDelivery []]
      ⟨BatchProcessor.init, Sinks.initial⟩).sinks.processedLogs.length = 1 := rfl
  rw [List.length_map, List.length_map, htwo, hone] at hlogs
  exact absurd hlogs (by decide)

/-- The criterion on that run, with its hypothesis discharged. -/
theorem recovered_iff_crash_after_writes :
    Recovered (deliverAll (SparkML.ofRule fun _ => 0) [oneRowDelivery [6]]
          ⟨BatchProcessor.init, Sinks.initial⟩).sinks
        (deliverAll (SparkML.ofRule fun _ => 0) ([oneRowDelivery [6]].map (·.crashFree))
          ⟨BatchProcessor.init, Sinks.initial⟩).sinks ↔
      ∀ d ∈ [oneRowDelivery [6]], d.batch = [] ∨ ∀ k ∈ d.crashes, k = 0 :=
  recovered_iff [oneRowDelivery [6]] ⟨rfl, rfl, trivial⟩

end AiopsLog
