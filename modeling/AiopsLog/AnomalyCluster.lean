import AiopsLog.Train

/-!
# Which cluster counts as anomalous

The choice `train_model` makes, against what it is for: the cluster with the highest
mean label where some row is labelled, the smallest cluster where none is
(`AiopsLog.SelectsAnomalyCluster`).

The answer of the sort is any of the clusters that come first when the ties fall the
right way, so the choice is studied on all of these at once: they are the *densest*
clusters (`AiopsLog.Densest`), those whose mean label no other cluster's exceeds, null
counting as less than any mean.

The branch is taken on the schema, and the enriched stream always has the column
`label_original`. The smallest cluster is therefore never looked for: a batch without
a label has nothing but null means, and any of its clusters may come first.
-/

namespace AiopsLog

/-! ### The mean of a column -/

/-- A mean is null where every value is. -/
theorem avg_eq_none_iff {values : List (Option ℤ)} :
    avg values = none ↔ ∀ v ∈ values, v = none := by
  have hknown : values.filterMap id = [] ↔ ∀ v ∈ values, v = none := by
    rw [List.filterMap_eq_nil_iff]
    rfl
  rw [← hknown, avg]
  split
  · next h => exact iff_of_true rfl h
  · next h => exact iff_of_false (Option.some_ne_none _) h

/-! ### The clusters of scored rows -/

section Clusters

variable {ρ : Type} (label : ρ → Option ℤ) (scored : List (ρ × ℕ))

/-- The cluster has a row. -/
def Occurs (c : ℕ) : Prop := ∃ r ∈ scored, r.2 = c

/-- The mean label of a cluster. -/
def clusterMean (c : ℕ) : Option ℚ := avg ((scored.filter (·.2 = c)).map (label ·.1))

/-- The number of rows of a cluster. -/
def clusterSize (c : ℕ) : ℕ := (scored.filter (·.2 = c)).length

/-- `groupBy("cluster").agg(F.avg(label))`. -/
def densities : List (ℕ × Option ℚ) :=
  (Bag.groupBy Prod.snd scored).map fun g => (g.1, avg (g.2.map (label ·.1)))

/-- `groupBy("cluster").count()`. -/
def sizes : List (ℕ × ℕ) := (Bag.groupBy Prod.snd scored).map fun g => (g.1, g.2.length)

/-- A cluster whose mean label none exceeds. -/
structure Densest (c : ℕ) : Prop where
  occurs : Occurs scored c
  ge : ∀ d, Occurs scored d →
    DensityGe (c, clusterMean label scored c) (d, clusterMean label scored d)

variable {label scored}

theorem mem_densities {x : ℕ × Option ℚ} :
    x ∈ densities label scored ↔ Occurs scored x.1 ∧ x.2 = clusterMean label scored x.1 := by
  rw [densities, List.mem_map]
  constructor
  · rintro ⟨g, hg, rfl⟩
    obtain ⟨hoccurs, hrows⟩ := Bag.mem_groupBy.mp hg
    refine ⟨hoccurs, ?_⟩
    rw [hrows]
    rfl
  · rintro ⟨hoccurs, hmean⟩
    refine ⟨(x.1, scored.filter (·.2 = x.1)), Bag.mem_groupBy.mpr ⟨hoccurs, rfl⟩, ?_⟩
    exact Prod.ext rfl hmean.symm

/-- The densest clusters are the least rows of the table of densities. -/
theorem densest_iff {c : ℕ} :
    Densest label scored c ↔ ∃ x ∈ densities label scored, x.1 = c ∧
      ∀ y ∈ densities label scored, DensityGe x y := by
  constructor
  · rintro ⟨hoccurs, hge⟩
    refine ⟨(c, clusterMean label scored c), mem_densities.mpr ⟨hoccurs, rfl⟩, rfl, ?_⟩
    rintro ⟨d, m⟩ hy
    obtain ⟨hd, hm⟩ := mem_densities.mp hy
    obtain rfl : m = clusterMean label scored d := hm
    exact hge d hd
  · rintro ⟨⟨c', m⟩, hx, rfl, hge⟩
    obtain ⟨hoccurs, hm⟩ := mem_densities.mp hx
    obtain rfl : m = clusterMean label scored c' := hm
    exact ⟨hoccurs, fun d hd => hge (d, clusterMean label scored d) (mem_densities.mpr ⟨hd, rfl⟩)⟩

/-- **The densest clusters are those a sort may put first.** -/
theorem forall_densest_iff {P : ℕ → Prop} :
    (∀ byDensity : OrderBy DensityGe, ∀ x,
        (byDensity.sort (densities label scored)).head? = some x → P x.1)
      ↔ ∀ c, Densest label scored c → P c := by
  rw [OrderBy.forall_head?_iff densityGe_trans densityGe_total]
  constructor
  · intro h c hc
    obtain ⟨x, hx, rfl, hge⟩ := densest_iff.mp hc
    exact h x hx hge
  · intro h x hx hge
    exact h x.1 (densest_iff.mpr ⟨x, hx, rfl, hge⟩)

/-- A cluster has a mean exactly when one of its rows is labelled. -/
theorem clusterMean_eq_none_iff {c : ℕ} :
    clusterMean label scored c = none ↔ ∀ r ∈ scored, r.2 = c → label r.1 = none := by
  rw [clusterMean, avg_eq_none_iff, List.forall_mem_map]
  simp only [List.mem_filter, decide_eq_true_eq, and_imp]

/-- Where a row is labelled, a densest cluster has a mean, and no cluster a higher one. -/
theorem Densest.exists_mean {c : ℕ} (hc : Densest label scored c)
    (h : ∃ r ∈ scored, (label r.1).isSome) :
    ∃ m, clusterMean label scored c = some m ∧
      ∀ d m', clusterMean label scored d = some m' → m' ≤ m := by
  have hoccurs : ∀ d m', clusterMean label scored d = some m' → Occurs scored d := by
    intro d m' hm'
    by_contra hd
    have hnone : clusterMean label scored d = none :=
      clusterMean_eq_none_iff.mpr fun r hr hrd => absurd ⟨r, hr, hrd⟩ hd
    rw [hnone] at hm'
    exact nomatch hm'
  obtain ⟨r, hr, hlabel⟩ := h
  have hsome : clusterMean label scored r.2 ≠ none := by
    intro hnone
    rw [clusterMean_eq_none_iff.mp hnone r hr rfl] at hlabel
    exact nomatch hlabel
  -- a null mean would come after the mean of the labelled row's cluster
  obtain ⟨m, hm⟩ : ∃ m, clusterMean label scored c = some m := by
    rw [← Option.ne_none_iff_exists']
    intro hnone
    have hge := hc.ge r.2 ⟨r, hr, rfl⟩
    obtain ⟨q, hq⟩ := Option.ne_none_iff_exists'.mp hsome
    rw [hnone, hq] at hge
    exact hge
  refine ⟨m, hm, fun d m' hm' => ?_⟩
  have hge := hc.ge d (hoccurs d m' hm')
  rw [hm, hm'] at hge
  exact hge

/-- Where no row is labelled, every cluster is a densest one. -/
theorem densest_of_unlabelled (h : ∀ r ∈ scored, label r.1 = none) {c : ℕ} :
    Densest label scored c ↔ Occurs scored c := by
  refine ⟨Densest.occurs, fun hc => ⟨hc, fun d _ => ?_⟩⟩
  rw [clusterMean_eq_none_iff.mpr fun r hr _ => h r hr,
    clusterMean_eq_none_iff.mpr fun r hr _ => h r hr]
  trivial

end Clusters

/-! ### The choice of `train_model` -/

variable {Nlp Km Features : Type}

/-- The same models, with other ways of breaking the ties. -/
def SparkML.withOrders (ml : SparkML Nlp Km Features) (byDensity : OrderBy DensityGe)
    (byCount : OrderBy CountLe) : SparkML Nlp Km Features :=
  { ml with orderByDensity := byDensity, orderByCount := byCount }

/-- The rows of a sample with the clusters the models fitted on it assign to them. -/
def SparkML.assignment (ml : SparkML Nlp Km Features) (sample : List LogRow) :
    List (LogRow × ℕ) :=
  scoreRows ml (ml.fitNlp sample) (ml.fitKMeans (sample.map (ml.vectorize (ml.fitNlp sample))))
    sample

/-- What the choice of the anomaly cluster is for: the highest mean label among the
clusters with a labelled row, or, where no row is labelled, the smallest cluster. -/
structure SelectsAnomalyCluster (scored : List (LogRow × ℕ)) (c : ℕ) : Prop where
  occurs : Occurs scored c
  labelled : (∃ r ∈ scored, r.1.labelOriginal.isSome) →
    ∃ m, clusterMean (·.labelOriginal) scored c = some m ∧
      ∀ d m', clusterMean (·.labelOriginal) scored d = some m' → m' ≤ m
  unlabelled : (∀ r ∈ scored, r.1.labelOriginal = none) →
    ∀ d, Occurs scored d → clusterSize scored c ≤ clusterSize scored d

variable {ml : SparkML Nlp Km Features} {sample : List LogRow}

theorem exists_mem_assignment {p : LogRow → Prop} :
    (∃ r ∈ ml.assignment sample, p r.1) ↔ ∃ row ∈ sample, p row := by
  simp [SparkML.assignment, scoreRows]

/-- The cluster chosen for an enriched batch is the first of the sorted densities. -/
theorem trainModel_enrichedColumns {nlp : Nlp} {km : Km} {c : ℕ} :
    trainModel ml enrichedColumns sample = some (nlp, km, c) ↔
      ml.fitNlp sample = nlp ∧ ml.fitKMeans (sample.map (ml.vectorize nlp)) = km ∧
        ∃ x, (ml.orderByDensity.sort
          (densities (·.labelOriginal) (ml.assignment sample))).head? = some x ∧ x.1 = c := by
  have hchoose : chooseAnomalyCluster ml enrichedColumns (ml.assignment sample)
      = ((ml.orderByDensity.sort
          (densities (·.labelOriginal) (ml.assignment sample))).head?).map Prod.fst :=
    if_pos (by decide)
  have htrain : trainModel ml enrichedColumns sample
      = (chooseAnomalyCluster ml enrichedColumns (ml.assignment sample)).map fun c =>
        (ml.fitNlp sample, ml.fitKMeans (sample.map (ml.vectorize (ml.fitNlp sample))), c) := rfl
  rw [htrain, hchoose, Option.map_map, Option.map_eq_some_iff]
  constructor
  · rintro ⟨x, hx, heq⟩
    obtain ⟨rfl, rfl, rfl⟩ : _ ∧ _ ∧ _ := by simpa using heq
    exact ⟨rfl, rfl, x, hx, rfl⟩
  · rintro ⟨rfl, rfl, x, hx, rfl⟩
    exact ⟨x, hx, rfl⟩

/-- Whichever way the ties fall, training a batch chooses one of its densest clusters,
and any of them. -/
theorem forall_trainModel_iff (hne : sample ≠ []) {P : List (LogRow × ℕ) → ℕ → Prop} :
    (∀ byDensity byCount, ∃ nlp km c,
        trainModel (ml.withOrders byDensity byCount) enrichedColumns sample = some (nlp, km, c) ∧
          P (scoreRows ml nlp km sample) c)
      ↔ ∀ c, Densest (·.labelOriginal) (ml.assignment sample) c → P (ml.assignment sample) c := by
  rw [← forall_densest_iff]
  constructor
  · intro h byDensity x hx
    obtain ⟨nlp, km, c, htrain, hc⟩ := h byDensity ml.orderByCount
    obtain ⟨rfl, rfl, y, hy, rfl⟩ := trainModel_enrichedColumns.mp htrain
    obtain rfl : x = y := Option.some_injective _ (hx.symm.trans hy)
    exact hc
  · intro h byDensity byCount
    have hsome : (trainModel (ml.withOrders byDensity byCount) enrichedColumns sample).isSome :=
      trainModel_isSome hne
    obtain ⟨⟨nlp, km, c⟩, htrain⟩ := Option.isSome_iff_exists.mp hsome
    obtain ⟨rfl, rfl, x, hx, rfl⟩ := trainModel_enrichedColumns.mp htrain
    exact ⟨_, _, _, htrain, h byDensity x hx⟩

/-- **When the choice is the one intended**: whichever way the ties fall, training a
batch selects the cluster it is meant to, if and only if a row of the batch is labelled
or all its clusters have the same size. -/
theorem trainModel_selects_iff (ml : SparkML Nlp Km Features) (hne : sample ≠ []) :
    (∀ byDensity byCount, ∃ nlp km c,
        trainModel (ml.withOrders byDensity byCount) enrichedColumns sample = some (nlp, km, c) ∧
          SelectsAnomalyCluster (scoreRows ml nlp km sample) c)
      ↔ (∃ row ∈ sample, row.labelOriginal.isSome) ∨
        ∀ c d, Occurs (ml.assignment sample) c → Occurs (ml.assignment sample) d →
          clusterSize (ml.assignment sample) c = clusterSize (ml.assignment sample) d := by
  rw [forall_trainModel_iff hne, ← exists_mem_assignment]
  generalize ml.assignment sample = scored
  by_cases hlabelled : ∃ r ∈ scored, r.1.labelOriginal.isSome
  · refine iff_of_true (fun c hc => ⟨hc.occurs, hc.exists_mean, fun hnone => ?_⟩) (Or.inl hlabelled)
    obtain ⟨r, hr, hsome⟩ := hlabelled
    rw [hnone r hr] at hsome
    exact nomatch hsome
  · have hnone : ∀ r ∈ scored, r.1.labelOriginal = none := by
      intro r hr
      by_contra hne
      exact hlabelled ⟨r, hr, Option.isSome_iff_ne_none.mpr hne⟩
    rw [or_iff_right hlabelled]
    constructor
    · -- every cluster may be chosen, so each is at most as large as any other
      intro h c d hc hd
      have hle := (h c ((densest_of_unlabelled hnone).mpr hc)).unlabelled hnone d hd
      have hge := (h d ((densest_of_unlabelled hnone).mpr hd)).unlabelled hnone c hc
      exact le_antisymm hle hge
    · intro h c hc
      refine ⟨hc.occurs, fun hsome => absurd hsome hlabelled, fun _ d hd => ?_⟩
      exact (h c d hc.occurs hd).le

/-! ### A batch without labels -/

/-- Parsers that accept nothing. -/
def Parsers.refusing : Parsers where
  toEventTime _ := none
  toIngestedAt _ := none
  toDate _ := ⟨1970, 1, 1, by decide, by decide, by decide⟩

/-- Three records without a label: two of the component `APP`, then one of `KERNEL`. -/
def unlabelledRecords : List FluentdRecord :=
  ["APP", "APP", "KERNEL"].map fun component =>
    { component := some component, message := some "disk failure" }

/-- The clusters of the components: `APP` is in cluster 0, `KERNEL` in cluster 1. -/
def componentRule (row : LogRow) : ℕ := if row.component = "APP" then 0 else 1

/-- **Without labels the larger cluster may be chosen**: two rows in cluster 0, one in
cluster 1, and the choice falls on cluster 0. -/
theorem not_selects_unlabelledRecords :
    trainModel (SparkML.ofRule componentRule) enrichedColumns
        (readKafkaStream Parsers.refusing unlabelledRecords) = some ((), (), 0) ∧
      ¬SelectsAnomalyCluster (scoreRows (SparkML.ofRule componentRule) () ()
        (readKafkaStream Parsers.refusing unlabelledRecords)) 0 := by
  refine ⟨by decide, fun h => ?_⟩
  have hle := h.unlabelled (by decide) 1 ⟨_, List.mem_of_mem_getLast? (by rfl), by rfl⟩
  exact absurd hle (by decide)

/-- The criterion on that batch, with its hypothesis discharged. -/
theorem trainModel_selects_iff_unlabelledRecords :
    let batch := readKafkaStream Parsers.refusing unlabelledRecords
    let ml := SparkML.ofRule componentRule
    (∀ byDensity byCount, ∃ nlp km c,
        trainModel (ml.withOrders byDensity byCount) enrichedColumns batch = some (nlp, km, c) ∧
          SelectsAnomalyCluster (scoreRows ml nlp km batch) c)
      ↔ (∃ row ∈ batch, row.labelOriginal.isSome) ∨
        ∀ c d, Occurs (ml.assignment batch) c → Occurs (ml.assignment batch) d →
          clusterSize (ml.assignment batch) c = clusterSize (ml.assignment batch) d :=
  trainModel_selects_iff (SparkML.ofRule componentRule) (by decide)

end AiopsLog
