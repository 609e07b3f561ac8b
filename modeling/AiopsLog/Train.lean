import AiopsLog.Lib.GroupBy
import AiopsLog.Lib.OrderBy
import AiopsLog.Records
import Mathlib.Algebra.Order.Ring.Rat
import Mathlib.Data.Rat.Lemmas

/-!
# Training on the first batch

`train_model` fits the text features and the clustering on the first batch and picks
the cluster that will count as anomalous: where the frame has the column
`label_original`, the cluster whose rows have the highest mean label; where it has
not, the smallest cluster.

What Spark ML fits is a parameter (`AiopsLog.SparkML`), constrained by nothing: a
fitted model is a function of a row, and the two sorts are any that sort.
-/

namespace AiopsLog

/-! ### Aggregates -/

/-- SQL's `avg`: nulls are ignored, and the mean of nothing is null. -/
def avg (values : List (Option ℤ)) : Option ℚ :=
  let known := values.filterMap id
  if known = [] then none else some ((known.sum : ℚ) / known.length)

/-- Descending order with nulls last, as `F.desc` sorts. -/
def DensityGe (a b : ℕ × Option ℚ) : Prop :=
  match a.2, b.2 with
  | some x, some y => y ≤ x
  | _, none => True
  | none, some _ => False

/-- Ascending order of the counts. -/
def CountLe (a b : ℕ × ℕ) : Prop := a.2 ≤ b.2

instance (a b : ℕ × Option ℚ) : Decidable (DensityGe a b) :=
  match a, b with
  | (_, some x), (_, some y) => inferInstanceAs (Decidable (y ≤ x))
  | (_, some _), (_, none) => .isTrue trivial
  | (_, none), (_, none) => .isTrue trivial
  | (_, none), (_, some _) => .isFalse id

instance (a b : ℕ × ℕ) : Decidable (CountLe a b) := inferInstanceAs (Decidable (a.2 ≤ b.2))

theorem densityGe_trans :
    ∀ a b c : ℕ × Option ℚ, DensityGe a b → DensityGe b c → DensityGe a c
  | (_, some _), (_, some _), (_, some _), hab, hbc => le_trans hbc hab
  | (_, some _), _, (_, none), _, _ => trivial
  | (_, none), _, (_, none), _, _ => trivial
  | (_, none), (_, some _), _, hab, _ => hab.elim
  | _, (_, none), (_, some _), _, hbc => hbc.elim

theorem densityGe_total : ∀ a b : ℕ × Option ℚ, DensityGe a b ∨ DensityGe b a
  | (_, some x), (_, some y) => le_total y x
  | (_, some _), (_, none) => Or.inl trivial
  | (_, none), (_, none) => Or.inl trivial
  | (_, none), (_, some _) => Or.inr trivial

theorem countLe_trans (a b c : ℕ × ℕ) : CountLe a b → CountLe b c → CountLe a c := le_trans

theorem countLe_total (a b : ℕ × ℕ) : CountLe a b ∨ CountLe b a := le_total a.2 b.2

/-! ### What Spark ML provides -/

/-- Spark ML, as the job uses it: fitting and applying the feature pipeline and the
clustering, and the two `orderBy` the choice of the anomaly cluster goes through. -/
structure SparkML (Nlp Km Features : Type) where
  /-- `nlp_pipeline.fit`. -/
  fitNlp : List LogRow → Nlp
  /-- `nlp_model.transform`, row by row. -/
  vectorize : Nlp → LogRow → Features
  /-- `kmeans.fit`. -/
  fitKMeans : List Features → Km
  /-- `km_model.transform`, row by row: the cluster of a vector. -/
  predict : Km → Features → ℕ
  /-- `orderBy(F.desc("anomaly_density"))`. -/
  orderByDensity : OrderBy DensityGe
  /-- `orderBy("count")`. -/
  orderByCount : OrderBy CountLe

/-- Models that put a row in a cluster by a fixed rule, whatever they are fitted on. -/
def SparkML.ofRule (rule : LogRow → ℕ) : SparkML Unit Unit LogRow where
  fitNlp _ := ()
  vectorize _ row := row
  fitKMeans _ := ()
  predict _ row := rule row
  orderByDensity := OrderBy.ofTotal DensityGe densityGe_trans densityGe_total
  orderByCount := OrderBy.ofTotal CountLe countLe_trans countLe_total

variable {Nlp Km Features : Type} (ml : SparkML Nlp Km Features)

/-- The scored rows of a batch: `km_model.transform(nlp_model.transform(batch_df))`. -/
def scoreRows (nlp : Nlp) (km : Km) (rows : List LogRow) : List (LogRow × ℕ) :=
  rows.map fun row => (row, ml.predict km (ml.vectorize nlp row))

/-! ### The anomaly cluster -/

/-- The mean label of each cluster. -/
def anomalyDensities (scored : List (LogRow × ℕ)) : List (ℕ × Option ℚ) :=
  (Bag.groupBy Prod.snd scored).map fun g => (g.1, avg (g.2.map (·.1.labelOriginal)))

/-- The size of each cluster. -/
def clusterSizes (scored : List (LogRow × ℕ)) : List (ℕ × ℕ) :=
  (Bag.groupBy Prod.snd scored).map fun g => (g.1, g.2.length)

/-- The choice of the anomaly cluster; none where the frame has no rows, in which
case the subscript `[0]` raises. -/
def chooseAnomalyCluster (columns : List String) (scored : List (LogRow × ℕ)) : Option ℕ :=
  -- the test is on the schema: the column may be there with nothing but nulls in it
  if "label_original" ∈ columns then
    ((ml.orderByDensity.sort (anomalyDensities scored)).head?).map Prod.fst
  else
    ((ml.orderByCount.sort (clusterSizes scored)).head?).map Prod.fst

/-- `train_model` on a frame with the given columns: the two fitted models and the
anomaly cluster. -/
def trainModel (columns : List String) (sample : List LogRow) : Option (Nlp × Km × ℕ) :=
  let nlp := ml.fitNlp sample
  let km := ml.fitKMeans (sample.map (ml.vectorize nlp))
  (chooseAnomalyCluster ml columns (scoreRows ml nlp km sample)).map fun c => (nlp, km, c)

variable {ml} {columns : List String} {scored : List (LogRow × ℕ)} {sample : List LogRow}

theorem exists_of_mem_anomalyDensities {x : ℕ × Option ℚ} (h : x ∈ anomalyDensities scored) :
    ∃ r ∈ scored, r.2 = x.1 := by
  refine Bag.exists_of_mem_map_groupBy ?_ h
  exact fun _ => rfl

theorem exists_of_mem_clusterSizes {x : ℕ × ℕ} (h : x ∈ clusterSizes scored) :
    ∃ r ∈ scored, r.2 = x.1 := by
  refine Bag.exists_of_mem_map_groupBy ?_ h
  exact fun _ => rfl

/-- **The anomaly cluster is a cluster of the batch.** -/
theorem chooseAnomalyCluster_mem {c : ℕ} (h : chooseAnomalyCluster ml columns scored = some c) :
    ∃ r ∈ scored, r.2 = c := by
  rw [chooseAnomalyCluster] at h
  split at h
  · obtain ⟨x, hx, rfl⟩ := Option.map_eq_some_iff.mp h
    exact exists_of_mem_anomalyDensities (ml.orderByDensity.mem_sort.mp (List.mem_of_head? hx))
  · obtain ⟨x, hx, rfl⟩ := Option.map_eq_some_iff.mp h
    exact exists_of_mem_clusterSizes (ml.orderByCount.mem_sort.mp (List.mem_of_head? hx))

/-- Training a non-empty batch chooses a cluster. -/
theorem chooseAnomalyCluster_isSome (h : scored ≠ []) :
    (chooseAnomalyCluster ml columns scored).isSome := by
  have hgroups : Bag.groupBy Prod.snd scored ≠ [] := fun hc => h (Bag.groupBy_eq_nil.mp hc)
  rw [chooseAnomalyCluster]
  split
  · simpa [List.isSome_head?, OrderBy.sort_eq_nil, anomalyDensities] using hgroups
  · simpa [List.isSome_head?, OrderBy.sort_eq_nil, clusterSizes] using hgroups

theorem trainModel_isSome (h : sample ≠ []) : (trainModel ml columns sample).isSome := by
  rw [trainModel, Option.isSome_map]
  exact chooseAnomalyCluster_isSome (by simpa [scoreRows] using h)

end AiopsLog
