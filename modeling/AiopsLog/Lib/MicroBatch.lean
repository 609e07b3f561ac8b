import Mathlib.Data.List.Basic
import Mathlib.Data.List.Count
import Mathlib.Data.Nat.Basic
import Mathlib.Order.Basic

/-!
# Reading a topic in batches

A topic is a log for each of its partitions. A reader goes through it in batches. It writes to a
checkpoint where the next batch ends, has the entries up to there handled, and writes to the
checkpoint that they are. A reader that is restarted goes on from its checkpoint: a batch that is
planned and not committed is handled again, with the same end.

The oldest entries of a partition may be deleted, whether the reader has come to them or not. A
batch that begins among those that are no longer there begins with the oldest that is: the reader
does not take notice, and passes the others over.

The handler keeps what it is handed or does not, and it returns or does not; a reader whose
handler does not return stops. Whatever the interleaving, the handler has kept nothing more often
than the reader has been started (`MicroBatch.Reader.Sound`), and if it keeps all it returns from,
then it has kept everything up to the last commit but for what has been passed over
(`MicroBatch.Reader.Kept`).
-/

namespace MicroBatch

variable {P α : Type}

/-! ### Entries between offsets -/

/-- The entries of each partition. -/
abbrev Topic (P α : Type) := P → List α

/-- An offset in each partition. -/
abbrev Offsets (P : Type) := P → ℕ

/-- The entries from some offsets up to others, partition by partition. -/
def between (partitions : List P) (topic : Topic P α) (a b : Offsets P) : List α :=
  partitions.flatMap fun p => ((topic p).drop (a p)).take (b p - a p)

section Between

variable {partitions : List P} {topic : Topic P α} {a b c : Offsets P} (f : α → Bool)

theorem between_self : between partitions topic a a = [] := by
  rw [between, List.flatMap_eq_nil_iff]
  intro p _
  rw [Nat.sub_self, List.take_zero]

variable (topic) in
/-- Entries are counted interval by interval. -/
theorem countP_between_add (hab : ∀ p ∈ partitions, a p ≤ b p)
    (hbc : ∀ p ∈ partitions, b p ≤ c p) :
    (between partitions topic a b).countP f + (between partitions topic b c).countP f
      = (between partitions topic a c).countP f := by
  induction partitions with
  | nil => rfl
  | cons p partitions ih =>
    have ih := ih (fun q hq => hab q (List.mem_cons_of_mem _ hq))
      fun q hq => hbc q (List.mem_cons_of_mem _ hq)
    have hab := hab p List.mem_cons_self
    have hbc := hbc p List.mem_cons_self
    have hwhole : ((topic p).drop (a p)).take (c p - a p)
        = ((topic p).drop (a p)).take (b p - a p) ++ ((topic p).drop (b p)).take (c p - b p) := by
      have hsplit : c p - a p = (b p - a p) + (c p - b p) := by omega
      have hdrop : a p + (b p - a p) = b p := by omega
      rw [hsplit, List.take_add, List.drop_drop, hdrop]
    simp only [between, List.flatMap_cons, List.countP_append] at ih ⊢
    rw [hwhole, List.countP_append]
    omega

theorem countP_between_mono (hab : ∀ p ∈ partitions, a p ≤ b p)
    (hbc : ∀ p ∈ partitions, b p ≤ c p) :
    (between partitions topic a b).countP f ≤ (between partitions topic a c).countP f := by
  have hadd := countP_between_add topic f hab hbc
  omega

/-- What arrives is behind the offsets that have been reached. -/
theorem between_arrive (more : Topic P α) (hb : ∀ p ∈ partitions, b p ≤ (topic p).length) :
    between partitions (fun p => topic p ++ more p) a b = between partitions topic a b := by
  refine List.flatMap_congr fun p hp => ?_
  have hb := hb p hp
  rcases Nat.le_total (a p) (b p) with hab | hba
  · rw [List.drop_append_of_le_length (hab.trans hb), List.take_append_of_le_length]
    rw [List.length_drop]
    omega
  · rw [Nat.sub_eq_zero_of_le hba, List.take_zero, List.take_zero]

end Between

section Placed

variable [DecidableEq P] {partitions : List P} {placed : List (P × α)}

/-- Entries, each in its partition. -/
def spread (placed : List (P × α)) : Topic P α :=
  fun p => (placed.filter fun entry => entry.1 = p).map Prod.snd

theorem countP_spread_mem (hnodup : partitions.Nodup) (f : α → Bool) :
    (partitions.flatMap (spread placed)).countP f
      = placed.countP fun entry => f entry.2 && decide (entry.1 ∈ partitions) := by
  induction partitions with
  | nil => simp
  | cons p partitions ih =>
    obtain ⟨hp, hnodup⟩ := List.nodup_cons.mp hnodup
    rw [List.flatMap_cons, List.countP_append, ih hnodup, spread, List.countP_map,
      List.countP_filter, List.countP_eq_countP_filter_add placed
        (fun entry => f entry.2 && decide (entry.1 ∈ p :: partitions)) fun entry => entry.1 = p,
      List.countP_filter, List.countP_filter]
    -- an entry is in the first partition or in another
    refine congrArg₂ (· + ·) (List.countP_congr fun entry _ => ?_)
      (List.countP_congr fun entry _ => ?_)
    · simp only [Function.comp_apply, Bool.and_eq_true, decide_eq_true_eq, List.mem_cons]
      exact ⟨fun h => ⟨⟨h.1, Or.inl h.2⟩, h.2⟩, fun h => ⟨h.1.1, h.2⟩⟩
    · simp only [Bool.and_eq_true, Bool.not_eq_true', decide_eq_true_eq, decide_eq_false_iff_not,
        List.mem_cons]
      exact ⟨fun h => ⟨⟨h.1, Or.inr h.2⟩, fun heq => hp (heq ▸ h.2)⟩,
        fun h => ⟨h.1.1, h.1.2.resolve_left h.2⟩⟩

/-- Whatever the partitions, no entry is lost or doubled. -/
theorem countP_spread (hnodup : partitions.Nodup) (hall : ∀ p, p ∈ partitions) (f : α → Bool) :
    (partitions.flatMap (spread placed)).countP f = (placed.map Prod.snd).countP f := by
  rw [countP_spread_mem hnodup, List.countP_map]
  refine List.countP_congr fun entry _ => ?_
  rw [decide_eq_true (hall entry.1), Bool.and_true]
  rfl

end Placed

/-! ### The reader -/

/-- What becomes of the batch that is planned. -/
inductive Phase where
  /-- It has not been handed over since the last start. -/
  | idle : Phase
  /-- The handler has returned. -/
  | returned : Phase
  /-- The handler has not returned, and the reader has stopped. -/
  | failed : Phase
  deriving DecidableEq, Repr

/-- The topic, with all that has ever been on it, and the oldest offsets that are there still; the
offsets the reader has begun at; its checkpoint: the end of the batches that are committed, their
number, and the end of the next one, where it is planned; what becomes of that one; how often the
reader has been restarted; and the entries passed over by the batches the handler has returned
from. -/
structure Reader (P α : Type) where
  topic : Topic P α
  oldest : Offsets P
  first : Offsets P
  committed : Offsets P
  batchId : ℕ
  planned : Option (Offsets P)
  phase : Phase
  restarts : ℕ
  passedOver : List α

namespace Reader

/-- A reader begins behind what is on the topic. -/
def start (topic : Topic P α) : Reader P α where
  topic := topic
  oldest _ := 0
  first p := (topic p).length
  committed p := (topic p).length
  batchId := 0
  planned := none
  phase := .idle
  restarts := 0
  passedOver := []

/-- Where the batch ends that is planned. -/
def goal (r : Reader P α) : Offsets P := r.planned.getD r.committed

/-- Up to where the batches have been handed over since the last start. -/
def reached (r : Reader P α) : Offsets P := if r.phase = .idle then r.committed else r.goal

/-- Up to where the handler has returned. -/
def settled (r : Reader P α) : Offsets P := if r.phase = .returned then r.goal else r.committed

theorem committed_le_settled (r : Reader P α) {p : P} (h : r.committed p ≤ r.goal p) :
    r.committed p ≤ r.settled p := by
  rw [settled]
  split
  · exact h
  · exact Nat.le_refl _

/-- Where a batch begins: with the first entry behind the last commit that is there still, if there
is one in the batch. -/
def resume (r : Reader P α) : Offsets P := fun p =>
  min (max (r.committed p) (r.oldest p)) (r.goal p)

theorem committed_le_resume {r : Reader P α} {p : P} (h : r.committed p ≤ r.goal p) :
    r.committed p ≤ r.resume p :=
  le_min (le_max_left _ _) h

theorem resume_le_goal (r : Reader P α) (p : P) : r.resume p ≤ r.goal p := min_le_right _ _

/-- Entries arrive. -/
def arrive (more : Topic P α) (r : Reader P α) : Reader P α :=
  { r with topic := fun p => r.topic p ++ more p }

/-- The oldest entries are deleted. -/
def purge (partitions : List P) (oldest : Offsets P) (r : Reader P α) : Option (Reader P α) :=
  if ∀ p ∈ partitions, r.oldest p ≤ oldest p ∧ oldest p ≤ (r.topic p).length then
    some { r with oldest := oldest }
  else none

/-- The end of the next batch is written to the checkpoint. -/
def plan (partitions : List P) (ends : Offsets P) (r : Reader P α) : Option (Reader P α) :=
  if r.phase = .idle ∧ r.planned = none ∧
      ∀ p ∈ partitions, r.committed p ≤ ends p ∧ ends p ≤ (r.topic p).length
  then some { r with planned := some ends }
  else none

/-- The batch that is to be handed over. -/
def batch (partitions : List P) (r : Reader P α) : Option (List α) :=
  if r.phase = .idle then
    r.planned.map fun ends => between partitions r.topic r.resume ends
  else none

/-- The handler has returned, or has not. -/
def ended (partitions : List P) (returned : Bool) (r : Reader P α) : Reader P α :=
  if returned then
    { r with
      phase := .returned
      passedOver := r.passedOver ++ between partitions r.topic r.committed r.resume }
  else { r with phase := .failed }

/-- It is written to the checkpoint that the batch is handled. -/
def commit (r : Reader P α) : Option (Reader P α) :=
  if r.phase = .returned then
    some { r with committed := r.goal, batchId := r.batchId + 1, planned := none, phase := .idle }
  else none

/-- The reader is started anew. -/
def restart (r : Reader P α) : Reader P α :=
  { r with phase := .idle, restarts := r.restarts + 1 }

theorem goal_of_none {r : Reader P α} (h : r.planned = none) : r.goal = r.committed := by
  rw [goal, h, Option.getD_none]

theorem goal_of_some {r : Reader P α} {ends : Offsets P} (h : r.planned = some ends) :
    r.goal = ends := by
  rw [goal, h, Option.getD_some]

/-- A batch is the entries from where it begins up to where it ends. -/
theorem of_batch {partitions : List P} {r : Reader P α} {entries : List α}
    (h : r.batch partitions = some entries) :
    r.phase = .idle ∧ entries = between partitions r.topic r.resume r.goal := by
  rw [batch] at h
  split at h
  · next hidle =>
    obtain ⟨ends, hends, rfl⟩ := Option.map_eq_some_iff.mp h
    exact ⟨hidle, by rw [goal_of_some hends]⟩
  · nomatch h

/-- **A batch the handler has not returned from** is handed over again after a restart. -/
theorem batch_restart_ended {partitions : List P} {r : Reader P α} {entries : List α}
    (h : r.batch partitions = some entries) :
    (r.ended partitions false).restart.batch partitions = some entries := by
  rw [batch, if_pos (of_batch h).1] at h
  exact (if_pos rfl).trans h

/-- What it takes to delete entries. -/
theorem of_purge {partitions : List P} {r r' : Reader P α} {oldest : Offsets P}
    (h : r.purge partitions oldest = some r') : r' = { r with oldest := oldest } :=
  (Option.some.inj (Option.ite_none_right_eq_some.mp h).2).symm

/-- What it takes to plan a batch. -/
theorem of_plan {partitions : List P} {r r' : Reader P α} {ends : Offsets P}
    (h : r.plan partitions ends = some r') :
    (r.phase = .idle ∧ r.planned = none ∧
      ∀ p ∈ partitions, r.committed p ≤ ends p ∧ ends p ≤ (r.topic p).length) ∧
      r' = { r with planned := some ends } := by
  obtain ⟨hcond, hr'⟩ := Option.ite_none_right_eq_some.mp h
  exact ⟨hcond, (Option.some.inj hr').symm⟩

/-- What it takes to commit it. -/
theorem of_commit {r r' : Reader P α} (h : r.commit = some r') :
    r.phase = .returned ∧ r' = { r with
      committed := r.goal, batchId := r.batchId + 1, planned := none, phase := .idle } := by
  obtain ⟨hreturned, hr'⟩ := Option.ite_none_right_eq_some.mp h
  exact ⟨hreturned, (Option.some.inj hr').symm⟩

/-! ### Nothing too often -/

/-- The offsets are in order, and the entries that have been kept are no more than those up to
the goal once for each restart, and those handed over since the last start once more. -/
structure Sound (partitions : List P) (r : Reader P α) (kept : List α) : Prop where
  first_le : ∀ p ∈ partitions, r.first p ≤ r.committed p
  committed_le : ∀ p ∈ partitions, r.committed p ≤ r.goal p
  goal_le : ∀ p ∈ partitions, r.goal p ≤ (r.topic p).length
  countP_le : ∀ f : α → Bool, kept.countP f
    ≤ r.restarts * (between partitions r.topic r.first r.goal).countP f
      + (between partitions r.topic r.first r.reached).countP f

section Sound

variable {partitions : List P} {r r' : Reader P α} {kept : List α}

theorem sound_start (topic : Topic P α) : (start topic).Sound partitions [] where
  first_le _ _ := Nat.le_refl _
  committed_le _ _ := Nat.le_refl _
  goal_le _ _ := Nat.le_refl _
  countP_le _ := Nat.zero_le _

variable (h : r.Sound partitions kept)

namespace Sound

include h

theorem first_le_goal (p : P) (hp : p ∈ partitions) : r.first p ≤ r.goal p :=
  (h.first_le p hp).trans (h.committed_le p hp)

theorem reached_bounds (p : P) (hp : p ∈ partitions) :
    r.first p ≤ r.reached p ∧ r.reached p ≤ r.goal p := by
  rw [reached]
  split
  · exact ⟨h.first_le p hp, h.committed_le p hp⟩
  · exact ⟨h.first_le_goal p hp, Nat.le_refl _⟩

/-- The entries from the last commit on are passed over or in the batch. -/
theorem countP_resume (f : α → Bool) :
    (between partitions r.topic r.committed r.resume).countP f
        + (between partitions r.topic r.resume r.goal).countP f
      = (between partitions r.topic r.committed r.goal).countP f :=
  countP_between_add r.topic f (fun p hp => committed_le_resume (h.committed_le p hp))
    fun p _ => r.resume_le_goal p

/-- Up to the goal nothing has been kept more often than the reader has been started. -/
theorem countP_le_starts (f : α → Bool) :
    kept.countP f ≤ (r.restarts + 1) * (between partitions r.topic r.first r.goal).countP f := by
  have hreached : (between partitions r.topic r.first r.reached).countP f
      ≤ (between partitions r.topic r.first r.goal).countP f :=
    countP_between_mono f (fun p hp => (h.reached_bounds p hp).1)
      fun p hp => (h.reached_bounds p hp).2
  rw [Nat.add_mul, Nat.one_mul]
  exact (h.countP_le f).trans (Nat.add_le_add_left hreached _)

theorem arrive (more : Topic P α) : (r.arrive more).Sound partitions kept where
  first_le := h.first_le
  committed_le := h.committed_le
  goal_le p hp := by
    show r.goal p ≤ (r.topic p ++ more p).length
    rw [List.length_append]
    exact Nat.le_add_right_of_le (h.goal_le p hp)
  countP_le f := by
    have hgoal := between_arrive (a := r.first) more h.goal_le
    have hreached := between_arrive (a := r.first) more fun p hp =>
      (h.reached_bounds p hp).2.trans (h.goal_le p hp)
    show _ ≤ r.restarts
        * (between partitions (fun p => r.topic p ++ more p) r.first r.goal).countP f
      + (between partitions (fun p => r.topic p ++ more p) r.first r.reached).countP f
    rw [hgoal, hreached]
    exact h.countP_le f

/-- **Entries are deleted**, which no one has kept. -/
theorem purge {oldest : Offsets P} (hpurge : r.purge partitions oldest = some r') :
    r'.Sound partitions kept := by
  obtain rfl := of_purge hpurge
  exact ⟨h.first_le, h.committed_le, h.goal_le, h.countP_le⟩

/-- **A batch is planned**: more is to be handed over. -/
theorem plan {ends : Offsets P} (hplan : r.plan partitions ends = some r') :
    r'.Sound partitions kept := by
  obtain ⟨⟨hidle, hnone, hends⟩, rfl⟩ := of_plan hplan
  refine ⟨h.first_le, fun p hp => (hends p hp).1, fun p hp => (hends p hp).2, fun f => ?_⟩
  have hmore : (between partitions r.topic r.first r.committed).countP f
      ≤ (between partitions r.topic r.first ends).countP f :=
    countP_between_mono f h.first_le fun p hp => (hends p hp).1
  have hcount := h.countP_le f
  rw [reached, if_pos hidle, goal_of_none hnone] at hcount
  show _ ≤ r.restarts * (between partitions r.topic r.first ends).countP f
    + (between partitions r.topic r.first (if r.phase = .idle then r.committed else ends)).countP f
  rw [if_pos hidle]
  exact hcount.trans (Nat.add_le_add_right (Nat.mul_le_mul_left _ hmore) _)

/-- **A batch has been handed over**, and kept or not. -/
theorem ended {entries : List α} (hbatch : r.batch partitions = some entries) (returned : Bool)
    {more : List α} (hmore : more = entries ∨ more = []) :
    (r.ended partitions returned).Sound partitions (kept ++ more) := by
  obtain ⟨hidle, rfl⟩ := of_batch hbatch
  have hcount : ∀ f : α → Bool, (kept ++ more).countP f
      ≤ r.restarts * (between partitions r.topic r.first r.goal).countP f
        + (between partitions r.topic r.first r.goal).countP f := by
    intro f
    have hcount := h.countP_le f
    have hadd := countP_between_add r.topic f h.first_le h.committed_le
    have hbatch := h.countP_resume f
    rw [reached, if_pos hidle] at hcount
    rw [List.countP_append]
    rcases hmore with rfl | rfl
    · omega
    · rw [List.countP_nil]
      omega
  cases returned with
  | true => exact ⟨h.first_le, h.committed_le, h.goal_le, hcount⟩
  | false => exact ⟨h.first_le, h.committed_le, h.goal_le, hcount⟩

theorem commit (hcommit : r.commit = some r') : r'.Sound partitions kept := by
  obtain ⟨hreturned, rfl⟩ := of_commit hcommit
  refine ⟨h.first_le_goal, fun _ _ => Nat.le_refl _, h.goal_le, fun f => ?_⟩
  have hcount := h.countP_le f
  rw [reached, if_neg (by rw [hreturned]; exact Phase.noConfusion)] at hcount
  exact hcount

/-- **The reader is started anew**: all up to the goal may come once more. -/
theorem restart : r.restart.Sound partitions kept where
  first_le := h.first_le
  committed_le := h.committed_le
  goal_le := h.goal_le
  countP_le f := by
    show _ ≤ (r.restarts + 1) * (between partitions r.topic r.first r.goal).countP f + _
    exact Nat.le_add_right_of_le (h.countP_le_starts f)

end Sound

/-! ### Nothing too seldom -/

/-- What the handler has returned from has been kept or passed over. -/
def Kept (partitions : List P) (r : Reader P α) (kept : List α) : Prop :=
  ∀ f : α → Bool, (between partitions r.topic r.first r.settled).countP f
    ≤ kept.countP f + r.passedOver.countP f

omit h in
theorem kept_start (topic : Topic P α) : (start topic).Kept partitions [] := by
  intro f
  show (between partitions topic (fun p => (topic p).length) fun p => (topic p).length).countP f ≤ _
  rw [between_self]
  exact Nat.zero_le _

namespace Kept

variable (hkept : r.Kept partitions kept)

include h hkept

theorem arrive (more : Topic P α) : (r.arrive more).Kept partitions kept := by
  intro f
  have hsettled := between_arrive (a := r.first) (b := r.settled) more fun p hp => by
    rw [settled]
    split
    · exact h.goal_le p hp
    · exact (h.committed_le p hp).trans (h.goal_le p hp)
  show (between partitions (fun p => r.topic p ++ more p) r.first r.settled).countP f ≤ _
  rw [hsettled]
  exact hkept f

omit h in
theorem purge {oldest : Offsets P} (hpurge : r.purge partitions oldest = some r') :
    r'.Kept partitions kept := by
  obtain rfl := of_purge hpurge
  exact hkept

omit h in
theorem plan {ends : Offsets P} (hplan : r.plan partitions ends = some r') :
    r'.Kept partitions kept := by
  obtain ⟨⟨hidle, -, -⟩, rfl⟩ := of_plan hplan
  intro f
  have hsettled := hkept f
  rw [settled, if_neg (by rw [hidle]; exact Phase.noConfusion)] at hsettled
  show (between partitions r.topic r.first (if r.phase = .returned then _ else _)).countP f ≤ _
  rw [if_neg (by rw [hidle]; exact Phase.noConfusion)]
  exact hsettled

/-- **A batch that the handler has returned from is kept**, but for what it passes over. -/
theorem ended {entries : List α} (hbatch : r.batch partitions = some entries) {returned : Bool}
    {more : List α} (hmore : returned = true → more = entries) :
    (r.ended partitions returned).Kept partitions (kept ++ more) := by
  obtain ⟨hidle, rfl⟩ := of_batch hbatch
  intro f
  have hsettled := hkept f
  rw [settled, if_neg (by rw [hidle]; exact Phase.noConfusion)] at hsettled
  cases returned with
  | false =>
    show (between partitions r.topic r.first r.committed).countP f
      ≤ (kept ++ more).countP f + r.passedOver.countP f
    rw [List.countP_append]
    omega
  | true =>
    have hadd := countP_between_add r.topic f h.first_le h.committed_le
    have hbegin := h.countP_resume f
    show (between partitions r.topic r.first r.goal).countP f
      ≤ (kept ++ more).countP f
        + (r.passedOver ++ between partitions r.topic r.committed r.resume).countP f
    rw [hmore rfl, List.countP_append, List.countP_append]
    omega

omit h in
theorem commit (hcommit : r.commit = some r') : r'.Kept partitions kept := by
  obtain ⟨hreturned, rfl⟩ := of_commit hcommit
  intro f
  have hsettled := hkept f
  rw [settled, if_pos hreturned] at hsettled
  exact hsettled

theorem restart : r.restart.Kept partitions kept := by
  intro f
  refine Nat.le_trans ?_ (hkept f)
  show (between partitions r.topic r.first r.committed).countP f ≤ _
  rw [settled]
  split
  · exact countP_between_mono f h.first_le h.committed_le
  · exact Nat.le_refl _

/-- **Without a restart everything is kept once**, if nothing has been passed over. -/
theorem countP_eq (hnone : r.restarts = 0) (hphase : r.phase ≠ .failed)
    (hall : r.passedOver = []) (f : α → Bool) :
    kept.countP f = (between partitions r.topic r.first r.settled).countP f := by
  have hreached : r.reached = r.settled := by
    rw [reached, settled]
    cases hr : r.phase with
    | idle | returned => rfl
    | failed => exact absurd hr hphase
  have hle := h.countP_le f
  have hge := hkept f
  rw [hnone, Nat.zero_mul, Nat.zero_add, hreached] at hle
  rw [hall, List.countP_nil, Nat.add_zero] at hge
  exact Nat.le_antisymm hle hge

end Kept

/-! ### What has arrived -/

/-- What has arrived since the reader began. -/
def arrived (partitions : List P) (r : Reader P α) : List α :=
  partitions.flatMap fun p => (r.topic p).drop (r.first p)

omit h in
theorem arrived_start (topic : Topic P α) : (start topic).arrived partitions = [] := by
  rw [arrived, List.flatMap_eq_nil_iff]
  exact fun p _ => List.drop_length

/-- Up to the ends of the partitions that is all there is between offsets. -/
theorem between_eq_arrived {b : Offsets P} (hb : ∀ p ∈ partitions, b p = (r.topic p).length) :
    between partitions r.topic r.first b = r.arrived partitions := by
  refine List.flatMap_congr fun p hp => List.take_of_length_le ?_
  rw [List.length_drop, hb p hp]

include h

theorem Sound.countP_goal_le (f : α → Bool) :
    (between partitions r.topic r.first r.goal).countP f ≤ (r.arrived partitions).countP f := by
  rw [← between_eq_arrived (b := fun p => (r.topic p).length) fun _ _ => rfl]
  exact countP_between_mono f h.first_le_goal h.goal_le

/-- Entries that arrive are behind those that have. -/
theorem Sound.countP_arrived (more : Topic P α) (f : α → Bool) :
    ((r.arrive more).arrived partitions).countP f
      = (r.arrived partitions).countP f + (partitions.flatMap more).countP f := by
  have hfirst : ∀ p ∈ partitions, r.first p ≤ (r.topic p).length := fun p hp =>
    (h.first_le_goal p hp).trans (h.goal_le p hp)
  clear h
  induction partitions with
  | nil => rfl
  | cons p partitions ih =>
    have ih := ih fun q hq => hfirst q (List.mem_cons_of_mem _ hq)
    have hp : (r.topic p ++ more p).drop (r.first p) = (r.topic p).drop (r.first p) ++ more p :=
      List.drop_append_of_le_length (hfirst p List.mem_cons_self)
    simp only [arrived, Reader.arrive, List.flatMap_cons, List.countP_append] at ih ⊢
    rw [hp, List.countP_append]
    omega

omit h

theorem arrived_purge {oldest : Offsets P} (hpurge : r.purge partitions oldest = some r') :
    r'.arrived partitions = r.arrived partitions := by
  rw [of_purge hpurge]
  rfl

theorem arrived_ended (returned : Bool) :
    (r.ended partitions returned).arrived partitions = r.arrived partitions := by
  cases returned <;> rfl

theorem arrived_plan {ends : Offsets P} (hplan : r.plan partitions ends = some r') :
    r'.arrived partitions = r.arrived partitions := by
  rw [(of_plan hplan).2]
  rfl

theorem arrived_commit (hcommit : r.commit = some r') :
    r'.arrived partitions = r.arrived partitions := by
  rw [(of_commit hcommit).2]
  rfl

/-! ### What has been planned -/

/-- What has been planned of a reader has been of another, and is the same there. -/
structure Grows (partitions : List P) (r r' : Reader P α) : Prop where
  first : r'.first = r.first
  goal_le : ∀ p ∈ partitions, r.goal p ≤ r'.goal p
  between : ∀ a b, (∀ p ∈ partitions, b p ≤ r.goal p) →
    between partitions r'.topic a b = between partitions r.topic a b

omit h in
theorem Grows.of_goal (hfirst : r'.first = r.first) (hgoal : r'.goal = r.goal)
    (htopic : r'.topic = r.topic) : r.Grows partitions r' where
  first := hfirst
  goal_le p _ := by rw [hgoal]
  between _ _ _ := by rw [htopic]

include h in
theorem Sound.grows_arrive (more : Topic P α) : r.Grows partitions (r.arrive more) where
  first := rfl
  goal_le _ _ := Nat.le_refl _
  between _ _ hb := between_arrive more fun p hp => (hb p hp).trans (h.goal_le p hp)

omit h in
theorem grows_purge {oldest : Offsets P} (hpurge : r.purge partitions oldest = some r') :
    r.Grows partitions r' := by
  obtain rfl := of_purge hpurge
  exact Grows.of_goal rfl rfl rfl

omit h in
theorem grows_ended (returned : Bool) : r.Grows partitions (r.ended partitions returned) := by
  cases returned with
  | true => exact Grows.of_goal rfl rfl rfl
  | false => exact Grows.of_goal rfl rfl rfl

omit h in
theorem grows_plan {ends : Offsets P} (hplan : r.plan partitions ends = some r') :
    r.Grows partitions r' := by
  obtain ⟨⟨-, hnone, hends⟩, rfl⟩ := of_plan hplan
  refine ⟨rfl, fun p hp => ?_, fun _ _ _ => rfl⟩
  rw [goal_of_none hnone]
  exact (hends p hp).1

omit h in
theorem grows_commit (hcommit : r.commit = some r') : r.Grows partitions r' := by
  obtain ⟨-, rfl⟩ := of_commit hcommit
  exact Grows.of_goal rfl rfl rfl

omit h in
theorem restarts_purge {oldest : Offsets P} (hpurge : r.purge partitions oldest = some r') :
    r'.restarts = r.restarts := by
  rw [of_purge hpurge]

omit h in
theorem restarts_ended (returned : Bool) :
    (r.ended partitions returned).restarts = r.restarts := by
  cases returned <;> rfl

omit h in
theorem restarts_plan {ends : Offsets P} (hplan : r.plan partitions ends = some r') :
    r'.restarts = r.restarts := by
  rw [(of_plan hplan).2]

omit h in
theorem restarts_commit (hcommit : r.commit = some r') : r'.restarts = r.restarts := by
  rw [(of_commit hcommit).2]

end Sound

end Reader

end MicroBatch
