import Mathlib.Data.List.Basic

/-!
# Delta tables

A table has a schema, the columns it is partitioned by, and its rows; each write is one commit,
which happens whole or not at all. Of the writes nothing is used but what is documented of them
(`Delta.Writes`). An append with `mergeSchema` goes through where no column has another type than
in the table, no column that the table requires is missing, and the frame is partitioned alike;
the columns that are new are added to the schema. An overwrite with `overwriteSchema` makes the
table anew. What becomes of other appends, and whether a column that is written remains required,
is left open.

Adding columns refuses nothing that was accepted before: a frame that a schema accepts is
accepted again by what it has been merged into (`Delta.Accepts.merge`).
-/

namespace Delta

inductive DataType where
  | string | timestamp | integer | double | date | boolean
  deriving DecidableEq, Repr

/-- A column: its name, its type, and whether it may be null. -/
structure Field where
  name : String
  dataType : DataType
  nullable : Bool
  deriving DecidableEq, Repr

abbrev Schema := List Field

/-- A frame can be appended to a table with `mergeSchema`. -/
structure Accepts (table frame : Schema) : Prop where
  types : ∀ f ∈ frame, ∀ g ∈ table, f.name = g.name → f.dataType = g.dataType
  required : ∀ g ∈ table, g.nullable = false → ∃ f ∈ frame, f.name = g.name ∧ f.nullable = false

theorem accepts_iff {table frame : Schema} : Accepts table frame ↔
    (∀ f ∈ frame, ∀ g ∈ table, f.name = g.name → f.dataType = g.dataType) ∧
      ∀ g ∈ table, g.nullable = false → ∃ f ∈ frame, f.name = g.name ∧ f.nullable = false :=
  ⟨fun h => ⟨h.types, h.required⟩, fun h => ⟨h.1, h.2⟩⟩

instance (table frame : Schema) : Decidable (Accepts table frame) :=
  decidable_of_iff _ accepts_iff.symm

/-- The schema of a table once a frame has been appended: the columns that it lacks come
last. -/
def merge (table frame : Schema) : Schema :=
  table ++ frame.filter fun f => f.name ∉ table.map Field.name

theorem mem_merge {table frame : Schema} {g : Field} :
    g ∈ merge table frame ↔ g ∈ table ∨ g ∈ frame ∧ g.name ∉ table.map Field.name := by
  rw [merge, List.mem_append, List.mem_filter, decide_eq_true_eq]

/-- **What a schema accepts, it accepts again.** -/
theorem Accepts.merge {table frame : Schema} (h : Accepts table frame)
    (hframe : Accepts frame frame) : Accepts (merge table frame) frame where
  types f hf g hg hname := by
    rcases mem_merge.mp hg with hg | ⟨hg, -⟩
    · exact h.types f hf g hg hname
    · exact hframe.types f hf g hg hname
  required g hg hnull := by
    rcases mem_merge.mp hg with hg | ⟨hg, -⟩
    · exact h.required g hg hnull
    · exact hframe.required g hg hnull

/-- The columns of a schema are taken from another: each has its name and type there, and is
required only if it is so there. -/
def Within (schema frame : Schema) : Prop :=
  ∀ g ∈ schema, ∃ f ∈ frame, f.name = g.name ∧ f.dataType = g.dataType ∧
    (g.nullable = false → f.nullable = false)

theorem Within.refl (schema : Schema) : Within schema schema := fun g hg => ⟨g, hg, rfl, rfl, id⟩

/-- **Fewer demands accept more.** -/
theorem Accepts.within {schema schema' frame : Schema} (h : Accepts schema frame)
    (hwithin : Within schema' schema) : Accepts schema' frame where
  types f hf g hg hname := by
    obtain ⟨g', hg', hname', htype, -⟩ := hwithin g hg
    exact (h.types f hf g' hg' (hname.trans hname'.symm)).trans htype
  required g hg hnull := by
    obtain ⟨g', hg', hname, -, hnull'⟩ := hwithin g hg
    obtain ⟨f, hf, hname', hrequired⟩ := h.required g' hg' (hnull' hnull)
    exact ⟨f, hf, hname'.trans hname, hrequired⟩

/-- A table. -/
structure Table (ρ : Type) where
  schema : Schema
  partitionBy : List String
  rows : List ρ

/-- A table as a write leaves it: with these rows, partitioned so, and with columns out of the
schema. -/
structure Table.Holds {ρ : Type} (schema : Schema) (partitionBy : List String) (rows : List ρ)
    (table : Table ρ) : Prop where
  schema : Within table.schema schema
  partitionBy : table.partitionBy = partitionBy
  rows : table.rows = rows

/-- The writes of a frame to what is at a path, and what is documented of them: an append with
`mergeSchema`, none where it raises, and an overwrite with `overwriteSchema`. -/
structure Writes (ρ : Type) where
  append : Schema → List String → List ρ → Option (Table ρ) → Option (Table ρ)
  overwrite : Schema → List String → List ρ → Option (Table ρ) → Table ρ
  /-- The first append creates the table. -/
  append_none : ∀ frame partitionBy rows,
    ∃ table, append frame partitionBy rows none = some table ∧
      table.Holds frame partitionBy rows
  append_some : ∀ frame rows (table : Table ρ), Accepts table.schema frame →
    ∃ table', append frame table.partitionBy rows (some table) = some table' ∧
      table'.Holds (merge table.schema frame) table.partitionBy (table.rows ++ rows)
  overwrite_holds : ∀ frame partitionBy rows before,
    (overwrite frame partitionBy rows before).Holds frame partitionBy rows

namespace Table

variable {ρ : Type} {frame : Schema} {partitionBy : List String} {rows : List ρ}

/-- Appends of a frame are accepted. -/
structure Fits (frame : Schema) (partitionBy : List String) (table : Table ρ) : Prop where
  partitionBy : table.partitionBy = partitionBy
  accepts : Accepts table.schema frame

theorem Holds.fits {schema : Schema} {table : Table ρ} (h : table.Holds schema partitionBy rows)
    (hframe : Accepts schema frame) : Fits frame partitionBy table :=
  ⟨h.partitionBy, hframe.within h.schema⟩

/-- **A table that fits is appended to, and still fits.** -/
theorem Fits.append (delta : Writes ρ) {table : Table ρ} (h : Fits frame partitionBy table)
    (hframe : Accepts frame frame) :
    ∃ table', delta.append frame partitionBy rows (some table) = some table' ∧
      Fits frame partitionBy table' ∧ table'.rows = table.rows ++ rows := by
  obtain ⟨table', happend, hholds⟩ := delta.append_some frame rows table h.accepts
  rw [h.partitionBy] at happend hholds
  exact ⟨table', happend, hholds.fits (h.accepts.merge hframe), hholds.rows⟩

end Table

/-- Writes that refuse every other append, and keep the schema as it is given. -/
def plainWrites (ρ : Type) : Writes ρ where
  append frame partitionBy rows
    | none => some ⟨frame, partitionBy, rows⟩
    | some table =>
      if table.partitionBy = partitionBy ∧ Accepts table.schema frame then
        some ⟨merge table.schema frame, table.partitionBy, table.rows ++ rows⟩
      else none
  overwrite frame partitionBy rows _ := ⟨frame, partitionBy, rows⟩
  append_none frame _ _ := ⟨_, rfl, Within.refl frame, rfl, rfl⟩
  append_some _ _ _ h := ⟨_, if_pos ⟨rfl, h⟩, Within.refl _, rfl, rfl⟩
  overwrite_holds frame _ _ _ := ⟨Within.refl frame, rfl, rfl⟩

end Delta
