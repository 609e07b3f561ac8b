import AiopsLog.Fluentd.BglLayout
import AiopsLog.Fluentd.Tail
import AiopsLog.Lib.Outbox

/-!
# From the log file to the topic

The agent buffers what it reads on disk and sends it to Kafka chunk by chunk, each until it is
acknowledged (`retry_forever`); while the buffer is full it does not read (`overflow_action
block`). A record that no chunk can hold is refused by the buffer and logged, and the agent reads
on. What it has read is in the buffer before it is in the position file. So an agent that is
killed goes on from an earlier position and reads some lines again, and a sending that fails may
have got out a part of a chunk that is sent again: lines come twice, but of those whose records fit
a chunk none is lost (`AiopsLog.Fluentd.Forwarding.lines_forwarded`). And however much is pending,
it can be sent, and the rest of the file read, as long as the brokers take what becomes of a chunk
(`AiopsLog.Fluentd.Forwarding.exists_caught_up`).
-/

namespace AiopsLog

namespace Fluentd

open Lines LogReplay Batching

/-- A line that is to be sent, and when it was handed on. -/
abbrev Sending := Text × Text

/-- How many bytes lines take: the record of a line in a chunk, where its time is of a fixed width,
and the largest batch that the producer makes of the lines of a chunk. -/
structure Sizes where
  record : Text → ℕ
  batch : List Text → ℕ

/-- `chunk_limit_size`. -/
def chunkLimitSize : ℕ := 1048576

/-- `KAFKA_MESSAGE_MAX_BYTES`. -/
def messageMaxBytes : ℕ := 2097152

namespace Sizes

variable (sizes : Sizes)

/-- The record of a line fits a chunk. -/
def fits (line : Text) : Bool := sizes.record line ≤ chunkLimitSize

/-- The bytes of what is buffered. -/
def total (sendings : List Sending) : ℕ := (sendings.map fun sending => sizes.record sending.1).sum

/-- The brokers take what becomes of any chunk of these lines. -/
def Taken (lines : List Text) : Prop :=
  ∀ chunk : List Text, (∀ line ∈ chunk, line ∈ lines) →
    (chunk.map sizes.record).sum ≤ chunkLimitSize → sizes.batch chunk ≤ messageMaxBytes

end Sizes

/-- The log file, its writers and its reader; the reader as the position file has it; how often
the agent has been killed; and its buffer. -/
structure Forwarding where
  shipping : Shipping
  saved : Tail
  kills : ℕ
  outbox : Outbox Sending

inductive ForwardingAction where
  /-- The generator writes. -/
  | write : ForwardingAction
  | append : EchoLine → ForwardingAction
  /-- The next piece of the file is read, at a time, and its lines are buffered. -/
  | read : ℕ → Text → ForwardingAction
  /-- The position is written to its file. -/
  | save : ForwardingAction
  /-- The agent is killed, and started again. -/
  | kill : ForwardingAction
  /-- It is killed when so many of the lines it has read are in the buffer. -/
  | killReading : ℕ → Text → ℕ → ForwardingAction
  /-- So much of what is staged becomes a chunk of the queue. -/
  | enqueue : ℕ → ForwardingAction
  /-- All brokers have acknowledged a chunk. -/
  | flush : ℕ → ForwardingAction
  /-- They have not: an attempt of the producer or of the output fails, and a part is out. -/
  | fail : ℕ → (ℕ → Bool) → ForwardingAction

/-- The agent is killed. -/
def ForwardingAction.isKill : ForwardingAction → Bool
  | .kill | .killReading _ _ _ => true
  | .write | .append _ | .read _ _ | .save | .enqueue _ | .flush _ | .fail _ _ => false

/-- A sending fails. -/
def ForwardingAction.isFail : ForwardingAction → Bool
  | .fail _ _ => true
  | .write | .append _ | .read _ _ | .save | .kill | .killReading _ _ _ | .enqueue _ | .flush _ =>
    false

/-- What is buffered of lines: those that match, and whose records fit a chunk. -/
def buffered (sizes : Sizes) (now : Text) (lines : List Text) : List Sending :=
  (lines.filter fun line => (parse line).isSome && sizes.fits line).map fun line => (line, now)

/-- How many of what is sent are lines of a kind. -/
def copies (kind : Text → Bool) (sendings : List Sending) : ℕ :=
  sendings.countP fun sending => kind sending.1

/-- The lines of a kind match, and their records fit a chunk. -/
def Matching (sizes : Sizes) (kind : Text → Bool) : Prop :=
  ∀ line, kind line = true → (parse line).isSome = true ∧ sizes.fits line = true

theorem copies_append (kind : Text → Bool) (sendings sendings' : List Sending) :
    copies kind (sendings ++ sendings') = copies kind sendings + copies kind sendings' :=
  List.countP_append

theorem copies_buffered_le (sizes : Sizes) (kind : Text → Bool) (now : Text) (lines : List Text) :
    copies kind (buffered sizes now lines) ≤ lines.countP kind := by
  rw [copies, buffered, List.countP_map]
  exact List.filter_sublist.countP_le

theorem copies_buffered {sizes : Sizes} {kind : Text → Bool} (h : Matching sizes kind) (now : Text)
    (lines : List Text) : copies kind (buffered sizes now lines) = lines.countP kind := by
  rw [copies, buffered, List.countP_map, List.countP_filter]
  refine List.countP_congr fun line _ => ?_
  simp only [Function.comp_apply, Bool.and_eq_true]
  exact ⟨fun hline => hline.1, fun hline => ⟨hline, h line hline⟩⟩

namespace Forwarding

def start : Forwarding := ⟨Shipping.start, ⟨0, [], []⟩, 0, Outbox.empty⟩

section Step

variable (sleepInterval : NNRat) (dataset : List Text) (sizes : Sizes) (totalLimit : ℕ)

/-- The buffer has reached its limit. -/
def Full (s : Forwarding) : Prop := totalLimit ≤ sizes.total s.outbox.pending

instance (s : Forwarding) : Decidable (s.Full sizes totalLimit) :=
  inferInstanceAs (Decidable (_ ≤ _))

/-- The lines that the next piece ends. -/
def nextLines (s : Forwarding) (n : ℕ) : List Text :=
  ended '\n' (s.shipping.tail.buffer ++ (s.shipping.file.drop s.shipping.tail.pos).take n)

/-- The agent is started again, with the position in its file. -/
def startAgain (s : Forwarding) : Forwarding :=
  { s with shipping := { s.shipping with tail := s.saved.restart }, kills := s.kills + 1 }

def step (s : Forwarding) : ForwardingAction → Option Forwarding
  | .write => do
    let shipping ← s.shipping.step sleepInterval dataset .write
    pure { s with shipping := shipping }
  | .append line => do
    let shipping ← s.shipping.step sleepInterval dataset (.append line)
    pure { s with shipping := shipping }
  | .read n now =>
    if s.Full sizes totalLimit then none
    else do
      let shipping ← s.shipping.step sleepInterval dataset (.read n)
      pure { s with
        shipping := shipping
        outbox := s.outbox.put (buffered sizes now (s.nextLines n)) }
  | .save => some { s with saved := s.shipping.tail }
  | .kill => some s.startAgain
  | .killReading n now k =>
    if s.Full sizes totalLimit then none
    else some (startAgain
      { s with outbox := s.outbox.put ((buffered sizes now (s.nextLines n)).take k) })
  | .enqueue n =>
    if sizes.total (s.outbox.stage.take n) ≤ chunkLimitSize then
      some { s with outbox := s.outbox.enqueue n }
    else none
  | .flush i => do
    let chunk ← s.outbox.queue[i]?
    -- larger batches the brokers refuse
    if sizes.batch (chunk.map Prod.fst) ≤ messageMaxBytes then do
      let outbox ← s.outbox.flush i
      pure { s with outbox := outbox }
    else none
  | .fail i out => do
    let outbox ← s.outbox.fail i out
    pure { s with outbox := outbox }

end Step

/-- The lines of the file. -/
def written (s : Forwarding) : List Text := s.shipping.log.map Prod.snd

/-! ### The invariant -/

/-- Of what was handed on, the buffer holds what has not been sent, in chunks that keep to their
limit; it holds lines of the file that match and fit, and all of those up to the two positions,
though none more often than the agent has been started. -/
structure Sound (sleepInterval : NNRat) (dataset : List Text) (sizes : Sizes) (s : Forwarding)
    (handed : List Sending) : Prop where
  shipping : s.shipping.Sound sleepInterval dataset
  saved : s.saved.Reads s.shipping.file
  outbox : s.outbox.Sound handed
  chunks : ∀ chunk ∈ s.outbox.queue, sizes.total chunk ≤ chunkLimitSize
  lines : ∀ sending ∈ handed, sending.1 ∈ s.written ∧ (parse sending.1).isSome = true ∧
    sizes.fits sending.1 = true
  tail_le : ∀ kind, Matching sizes kind → s.shipping.tail.lines.countP kind ≤ copies kind handed
  saved_le : ∀ kind, Matching sizes kind → s.saved.lines.countP kind ≤ copies kind handed
  le_tail : ∀ kind, copies kind handed
    ≤ s.kills * s.written.countP kind + s.shipping.tail.lines.countP kind

section Sound

variable {sleepInterval : NNRat} {dataset : List Text} {sizes : Sizes} {totalLimit : ℕ}
  {s s' : Forwarding} {handed : List Sending}

theorem sound_start : Sound sleepInterval dataset sizes start [] where
  shipping := Shipping.sound_start
  saved := ⟨Nat.le_refl 0, rfl, rfl⟩
  outbox := Outbox.sound_empty
  chunks _ h := absurd h List.not_mem_nil
  lines _ h := absurd h List.not_mem_nil
  tail_le _ _ := Nat.le_refl _
  saved_le _ _ := Nat.le_refl _
  le_tail _ := Nat.zero_le _

/-- Another reader of the file. -/
theorem sound_withTail {shipping : Shipping} (h : shipping.Sound sleepInterval dataset)
    {tail : Tail} (htail : tail.Reads shipping.file) :
    Shipping.Sound sleepInterval dataset { shipping with tail := tail } :=
  ⟨h.file, h.ends, htail, h.generator⟩

/-- A reader has got no line more often than it is in the file. -/
theorem Sound.count_le (h : s.Sound sleepInterval dataset sizes handed) {tail : Tail}
    (htail : tail.Reads s.shipping.file) (kind : Text → Bool) :
    tail.lines.countP kind ≤ s.written.countP kind := by
  have hlines : tail.lines <+: s.written :=
    Shipping.Sound.lines_prefix (sound_withTail h.shipping htail)
  exact hlines.sublist.countP_le

/-- **The file grows.** -/
theorem Sound.grow (h : s.Sound sleepInterval dataset sizes handed) {shipping : Shipping}
    (hshipping : shipping.Sound sleepInterval dataset) (htail : shipping.tail = s.shipping.tail)
    {text : Text} (hfile : shipping.file = s.shipping.file ++ text) {more : List (Writer × Text)}
    (hlog : shipping.log = s.shipping.log ++ more) :
    Sound sleepInterval dataset sizes { s with shipping := shipping } handed where
  shipping := hshipping
  saved := by
    show s.saved.Reads shipping.file
    rw [hfile]
    exact h.saved.append text
  outbox := h.outbox
  chunks := h.chunks
  lines sending hsending := by
    obtain ⟨hline, hmatched⟩ := h.lines sending hsending
    refine ⟨?_, hmatched⟩
    show sending.1 ∈ shipping.log.map Prod.snd
    rw [hlog, List.map_append]
    exact List.mem_append_left _ hline
  tail_le kind hkind := by
    show shipping.tail.lines.countP kind ≤ _
    rw [htail]
    exact h.tail_le kind hkind
  saved_le := h.saved_le
  le_tail kind := by
    show _ ≤ s.kills * (shipping.log.map Prod.snd).countP kind + shipping.tail.lines.countP kind
    rw [htail, hlog, List.map_append, List.countP_append]
    have hmore : s.kills * (s.shipping.log.map Prod.snd).countP kind
        ≤ s.kills * ((s.shipping.log.map Prod.snd).countP kind + (more.map Prod.snd).countP kind) :=
      Nat.mul_le_mul_left _ (Nat.le_add_right _ _)
    exact (h.le_tail kind).trans (Nat.add_le_add_right hmore _)

/-- Nothing happens but in the buffer. -/
theorem Sound.buffer (h : s.Sound sleepInterval dataset sizes handed) {outbox : Outbox Sending}
    (houtbox : outbox.Sound handed)
    (hchunks : ∀ chunk ∈ outbox.queue, sizes.total chunk ≤ chunkLimitSize) :
    Sound sleepInterval dataset sizes { s with outbox := outbox } handed :=
  ⟨h.shipping, h.saved, houtbox, hchunks, h.lines, h.tail_le, h.saved_le, h.le_tail⟩

/-- **The agent is killed**: it has handed on no more than all up to where it was. -/
theorem Sound.startAgain (h : s.Sound sleepInterval dataset sizes handed) :
    s.startAgain.Sound sleepInterval dataset sizes handed where
  shipping := sound_withTail h.shipping h.saved.restart
  saved := h.saved
  outbox := h.outbox
  chunks := h.chunks
  lines := h.lines
  tail_le := h.saved_le
  saved_le := h.saved_le
  le_tail kind := by
    have hcount := h.count_le h.shipping.reads kind
    have hle := h.le_tail kind
    show _ ≤ (s.kills + 1) * s.written.countP kind + s.saved.lines.countP kind
    rw [Nat.add_mul, Nat.one_mul]
    omega

/-- The next lines are lines of the file, behind those that have been read. -/
theorem Sound.nextLines (h : s.Sound sleepInterval dataset sizes handed) (n : ℕ) :
    (s.shipping.tail.lines ++ s.nextLines n) <+: s.written :=
  Shipping.Sound.lines_prefix (sound_withTail h.shipping (h.shipping.reads.read n))

/-- **Some of the next lines are buffered.** -/
theorem Sound.put (h : s.Sound sleepInterval dataset sizes handed) (n : ℕ) {more : List Sending}
    {now : Text} (hmore : more.Sublist (buffered sizes now (s.nextLines n))) :
    (∀ sending ∈ handed ++ more, sending.1 ∈ s.written ∧ (parse sending.1).isSome = true ∧
        sizes.fits sending.1 = true) ∧
      (s.outbox.put more).Sound (handed ++ more) ∧
      ∀ kind, copies kind (handed ++ more) ≤ s.kills * s.written.countP kind
        + (s.shipping.tail.lines ++ s.nextLines n).countP kind := by
  refine ⟨fun sending hsending => ?_, h.outbox.put more, fun kind => ?_⟩
  · rcases List.mem_append.mp hsending with hold | hnew
    · exact h.lines sending hold
    · obtain ⟨line, hline, rfl⟩ := List.mem_map.mp (hmore.subset hnew)
      obtain ⟨hline, hmatched⟩ := List.mem_filter.mp hline
      exact ⟨(h.nextLines n).subset (List.mem_append_right _ hline),
        (Bool.and_eq_true _ _).mp hmatched⟩
  · have hcount : copies kind more ≤ (s.nextLines n).countP kind :=
      hmore.countP_le.trans (copies_buffered_le sizes kind now _)
    have hle := h.le_tail kind
    rw [copies_append, List.countP_append]
    omega

/-- **A piece is read** and its lines are buffered. -/
theorem Sound.read (h : s.Sound sleepInterval dataset sizes handed) (n : ℕ) (now : Text) :
    Sound sleepInterval dataset sizes { s with
        shipping := { s.shipping with
          tail := s.shipping.tail.read ((s.shipping.file.drop s.shipping.tail.pos).take n) }
        outbox := s.outbox.put (buffered sizes now (s.nextLines n)) }
      (handed ++ buffered sizes now (s.nextLines n)) where
  shipping := sound_withTail h.shipping (h.shipping.reads.read n)
  saved := h.saved
  outbox := (h.put n (List.Sublist.refl _)).2.1
  chunks := h.chunks
  lines := (h.put n (List.Sublist.refl _)).1
  tail_le kind hkind := by
    show (s.shipping.tail.lines ++ s.nextLines n).countP kind ≤ _
    rw [List.countP_append, copies_append, copies_buffered hkind]
    exact Nat.add_le_add_right (h.tail_le kind hkind) _
  saved_le kind hkind := by
    rw [copies_append]
    exact Nat.le_add_right_of_le (h.saved_le kind hkind)
  le_tail := (h.put n (List.Sublist.refl _)).2.2

/-- **The agent is killed while it reads.** -/
theorem Sound.killReading (h : s.Sound sleepInterval dataset sizes handed) (n : ℕ) (now : Text)
    (k : ℕ) :
    Sound sleepInterval dataset sizes
      (Forwarding.startAgain
        { s with outbox := s.outbox.put ((buffered sizes now (s.nextLines n)).take k) })
      (handed ++ (buffered sizes now (s.nextLines n)).take k) := by
  obtain ⟨hlines, houtbox, hcopies⟩ :=
    h.put n (List.take_sublist k (buffered sizes now (s.nextLines n)))
  have hsaved : ∀ kind, Matching sizes kind →
      s.saved.lines.countP kind
        ≤ copies kind (handed ++ (buffered sizes now (s.nextLines n)).take k) := by
    intro kind hkind
    rw [copies_append]
    exact Nat.le_add_right_of_le (h.saved_le kind hkind)
  refine ⟨sound_withTail h.shipping h.saved.restart, h.saved, houtbox, h.chunks, hlines, hsaved,
    hsaved, fun kind => ?_⟩
  have hcount := (h.nextLines n).sublist.countP_le (p := kind)
  have hle := hcopies kind
  show _ ≤ (s.kills + 1) * s.written.countP kind + s.saved.lines.countP kind
  rw [Nat.add_mul, Nat.one_mul]
  omega

/-- What it takes to send a chunk. -/
theorem of_flush {i : ℕ}
    (hstep : s.step sleepInterval dataset sizes totalLimit (.flush i) = some s') :
    ∃ outbox, s.outbox.flush i = some outbox ∧ s' = { s with outbox := outbox } := by
  obtain ⟨chunk, -, hif⟩ := Option.bind_eq_some_iff.mp hstep
  obtain ⟨-, hsend⟩ := Option.ite_none_right_eq_some.mp hif
  obtain ⟨outbox, hflush, hs'⟩ := Option.bind_eq_some_iff.mp hsend
  exact ⟨outbox, hflush, (Option.some.inj hs').symm⟩

/-- **A step** keeps the invariant, and may have handed on more. -/
theorem Sound.step (hdataset : ∀ line ∈ dataset, '\n' ∉ line) {action : ForwardingAction}
    (h : s.Sound sleepInterval dataset sizes handed)
    (hstep : s.step sleepInterval dataset sizes totalLimit action = some s') :
    ∃ handed', s'.Sound sleepInterval dataset sizes handed' := by
  cases action with
  | write =>
    obtain ⟨shipping, hshipping, hs'⟩ := Option.bind_eq_some_iff.mp hstep
    obtain rfl := Option.some.inj hs'
    have hsound := Shipping.sound_step hdataset h.shipping hshipping
    obtain ⟨text, -, hwrite⟩ := Option.bind_eq_some_iff.mp hshipping
    obtain rfl := Option.some.inj hwrite
    exact ⟨handed, h.grow hsound rfl rfl rfl⟩
  | append line =>
    have happend : s.shipping.step sleepInterval dataset (.append line) = some _ := rfl
    obtain rfl := Option.some.inj hstep
    exact ⟨handed, h.grow (Shipping.sound_step hdataset h.shipping happend) rfl rfl rfl⟩
  | read n now =>
    obtain ⟨-, hread⟩ := Option.ite_none_left_eq_some.mp hstep
    obtain rfl := Option.some.inj hread
    exact ⟨_, h.read n now⟩
  | save =>
    obtain rfl := Option.some.inj hstep
    exact ⟨handed, h.shipping, h.shipping.reads, h.outbox, h.chunks, h.lines, h.tail_le, h.tail_le,
      h.le_tail⟩
  | kill =>
    obtain rfl := Option.some.inj hstep
    exact ⟨handed, h.startAgain⟩
  | killReading n now k =>
    obtain ⟨-, hkill⟩ := Option.ite_none_left_eq_some.mp hstep
    obtain rfl := Option.some.inj hkill
    exact ⟨_, h.killReading n now k⟩
  | enqueue n =>
    obtain ⟨hsize, hchunk⟩ := Option.ite_none_right_eq_some.mp hstep
    obtain rfl := Option.some.inj hchunk
    refine ⟨handed, h.buffer (h.outbox.enqueue n) fun chunk hchunk => ?_⟩
    rcases List.mem_append.mp hchunk with hold | hnew
    · exact h.chunks chunk hold
    · rw [List.mem_singleton.mp hnew]
      exact hsize
  | flush i =>
    obtain ⟨outbox, hflush, rfl⟩ := of_flush hstep
    refine ⟨handed, h.buffer (h.outbox.flush hflush) fun chunk hchunk => ?_⟩
    obtain ⟨_, -, rfl⟩ := Option.map_eq_some_iff.mp hflush
    exact h.chunks chunk (List.mem_of_mem_eraseIdx hchunk)
  | fail i out =>
    obtain ⟨outbox, hfail, hs'⟩ := Option.bind_eq_some_iff.mp hstep
    obtain rfl := Option.some.inj hs'
    refine ⟨handed, h.buffer (h.outbox.fail hfail) ?_⟩
    obtain ⟨_, -, rfl⟩ := Option.map_eq_some_iff.mp hfail
    exact h.chunks

/-- **A run** keeps it. -/
theorem exists_sound_run (hdataset : ∀ line ∈ dataset, '\n' ∉ line)
    {actions : List ForwardingAction} (h : ∃ handed, s.Sound sleepInterval dataset sizes handed)
    (hrun : Lts.run (step sleepInterval dataset sizes totalLimit) actions s = some s') :
    ∃ handed, s'.Sound sleepInterval dataset sizes handed := by
  have hstep : ∀ (t : Forwarding) (action : ForwardingAction) (t' : Forwarding),
      (∃ handed, t.Sound sleepInterval dataset sizes handed) → True →
      t.step sleepInterval dataset sizes totalLimit action = some t' →
      ∃ handed, t'.Sound sleepInterval dataset sizes handed := by
    rintro t action t' ⟨handed, hsound⟩ - ht
    exact hsound.step hdataset ht
  exact Lts.run_invariant
    (I := fun t : Forwarding => ∃ handed, t.Sound sleepInterval dataset sizes handed)
    hstep h (fun _ _ => trivial) hrun

/-- **A step** counts the kills and the failures, and what has been sent stays sent. -/
theorem step_counts {action : ForwardingAction}
    (hstep : s.step sleepInterval dataset sizes totalLimit action = some s') :
    s'.kills = s.kills + action.isKill.toNat ∧
      s'.outbox.failures = s.outbox.failures + action.isFail.toNat ∧
      s.outbox.sent <+: s'.outbox.sent := by
  cases action with
  | write =>
    obtain ⟨_, -, hs'⟩ := Option.bind_eq_some_iff.mp hstep
    obtain rfl := Option.some.inj hs'
    exact ⟨rfl, rfl, List.prefix_rfl⟩
  | append _ | save | kill =>
    obtain rfl := Option.some.inj hstep
    exact ⟨rfl, rfl, List.prefix_rfl⟩
  | enqueue _ =>
    obtain ⟨-, hs'⟩ := Option.ite_none_right_eq_some.mp hstep
    obtain rfl := Option.some.inj hs'
    exact ⟨rfl, rfl, List.prefix_rfl⟩
  | read _ _ | killReading _ _ _ =>
    obtain ⟨-, hs'⟩ := Option.ite_none_left_eq_some.mp hstep
    obtain rfl := Option.some.inj hs'
    exact ⟨rfl, rfl, List.prefix_rfl⟩
  | flush _ =>
    obtain ⟨_, hsend, rfl⟩ := of_flush hstep
    obtain ⟨_, -, rfl⟩ := Option.map_eq_some_iff.mp hsend
    exact ⟨rfl, rfl, List.prefix_append _ _⟩
  | fail _ _ =>
    obtain ⟨_, hsend, hs'⟩ := Option.bind_eq_some_iff.mp hstep
    obtain rfl := Option.some.inj hs'
    obtain ⟨_, -, rfl⟩ := Option.map_eq_some_iff.mp hsend
    exact ⟨rfl, rfl, List.prefix_append _ _⟩

theorem counts_run {actions : List ForwardingAction}
    (hrun : Lts.run (step sleepInterval dataset sizes totalLimit) actions s = some s') :
    s'.kills = s.kills + actions.countP (·.isKill) ∧
      s'.outbox.failures = s.outbox.failures + actions.countP (·.isFail) := by
  induction actions generalizing s with
  | nil =>
    obtain rfl := Option.some.inj hrun
    exact ⟨rfl, rfl⟩
  | cons action actions ih =>
    obtain ⟨t, hstep, hrest⟩ := Lts.exists_of_run_cons hrun
    obtain ⟨hkills, hfailures⟩ := ih hrest
    obtain ⟨hkill, hfail, -⟩ := step_counts hstep
    rw [hkills, hfailures, hkill, hfail, List.countP_cons, List.countP_cons, Nat.add_assoc,
      Nat.add_assoc, Nat.add_comm action.isKill.toNat, Nat.add_comm action.isFail.toNat]
    constructor <;> cases action <;> rfl

/-- All up to where the agent is has been sent or is pending. -/
theorem Sound.tail_le_copies (h : s.Sound sleepInterval dataset sizes handed) {kind : Text → Bool}
    (hkind : Matching sizes kind) :
    s.shipping.tail.lines.countP kind ≤ copies kind s.outbox.sent + copies kind s.outbox.pending :=
  (h.tail_le kind hkind).trans (h.outbox.countP_le _)

/-- Nothing has been sent or is pending too often. -/
theorem Sound.copies_le (h : s.Sound sleepInterval dataset sizes handed) (kind : Text → Bool) :
    copies kind s.outbox.sent + copies kind s.outbox.pending
      ≤ (s.outbox.failures + 1)
        * (s.kills * s.written.countP kind + s.shipping.tail.lines.countP kind) :=
  (h.outbox.le_countP _).trans (Nat.mul_le_mul_left _ (h.le_tail kind))

theorem Sound.copies_le_written (h : s.Sound sleepInterval dataset sizes handed)
    (kind : Text → Bool) :
    copies kind s.outbox.sent + copies kind s.outbox.pending
      ≤ (s.outbox.failures + 1) * ((s.kills + 1) * s.written.countP kind) := by
  refine (h.copies_le kind).trans (Nat.mul_le_mul_left _ ?_)
  rw [Nat.add_mul, Nat.one_mul]
  exact Nat.add_le_add_left (h.count_le h.shipping.reads kind) _

end Sound

/-- **No line is lost on its way to the topic that fits a chunk**: of every kind of lines that
match and whose records fit, what the agent has read has been sent or is pending, however often it
was killed and sendings failed. Nothing else is sent; and of any kind no more than was written,
once for each start of the agent, and that once more for each sending that failed; without either,
a kind that matches and fits just as often as it was read. -/
theorem lines_forwarded (sleepInterval : NNRat) {content : Option Text} {dataset : List Text}
    (hload : loadDataset content = .ok dataset) (sizes : Sizes) (totalLimit : ℕ)
    {actions : List ForwardingAction} {s : Forwarding}
    (hrun : Lts.run (step sleepInterval dataset sizes totalLimit) actions start = some s) :
    (∀ sending ∈ s.outbox.sent ++ s.outbox.pending, sending.1 ∈ s.written ∧
        (parse sending.1).isSome = true ∧ sizes.fits sending.1 = true) ∧
      (∀ kind, copies kind s.outbox.sent + copies kind s.outbox.pending
        ≤ (actions.countP (·.isFail) + 1)
          * ((actions.countP (·.isKill) + 1) * s.written.countP kind)) ∧
      ∀ kind, Matching sizes kind →
        s.shipping.tail.lines.countP kind
            ≤ copies kind s.outbox.sent + copies kind s.outbox.pending ∧
          (actions.countP (·.isFail) = 0 → actions.countP (·.isKill) = 0 →
            copies kind s.outbox.sent + copies kind s.outbox.pending
              = s.shipping.tail.lines.countP kind) := by
  have hstart : ∃ handed, start.Sound sleepInterval dataset sizes handed := ⟨[], sound_start⟩
  obtain ⟨handed, hsound⟩ := exists_sound_run (not_mem_of_loadDataset hload) hstart hrun
  obtain ⟨hkills, hfailures⟩ := counts_run hrun
  have hkills : s.kills = actions.countP (·.isKill) := hkills.trans (Nat.zero_add _)
  have hfailures : s.outbox.failures = actions.countP (·.isFail) :=
    hfailures.trans (Nat.zero_add _)
  rw [← hkills, ← hfailures]
  refine ⟨fun sending hsending => hsound.lines sending (hsound.outbox.mem_entries hsending),
    hsound.copies_le_written, fun kind hkind => ⟨hsound.tail_le_copies hkind,
      fun hfail hkill => Nat.le_antisymm ?_ (hsound.tail_le_copies hkind)⟩⟩
  have hle := hsound.copies_le kind
  rwa [hfail, hkill, Nat.zero_mul, Nat.zero_add, Nat.zero_add, Nat.one_mul] at hle

/-- The line of the configuration, as it is appended. -/
def exampleLine : EchoLine := ⟨parityError.text, by decide⟩

/-- A record is a little longer than its line. -/
def exampleSizes : Sizes where
  record line := line.length + 300
  batch chunk := (chunk.map fun line => line.length + 300).sum

theorem taken_exampleSizes (lines : List Text) : exampleSizes.Taken lines :=
  fun _ _ hchunk => hchunk.trans (by decide)

set_option maxRecDepth 4000 in
theorem matching_exampleLine : Matching exampleSizes fun line => line = exampleLine.1 := by
  intro line hline
  obtain rfl := of_decide_eq_true hline
  have hemit := parityError.emit_text id []
  rw [emit, Option.map_eq_some_iff] at hemit
  obtain ⟨record, hrecord, -⟩ := hemit
  refine ⟨?_, by decide⟩
  rw [exampleLine, hrecord]
  rfl

/-- The line is read; its chunk gets out, but is not acknowledged; the agent is killed, and its
position not saved; and the chunk is sent again. -/
def killedActions : List ForwardingAction :=
  [.append exampleLine, .read 200 [], .enqueue 1, .fail 0 fun _ => true, .kill, .flush 0]

set_option maxRecDepth 4000 in
theorem lines_forwarded_killed :
    ∃ s, Lts.run (step 0 ["ok".toList] exampleSizes (128 * chunkLimitSize)) killedActions start
        = some s ∧
      s.outbox.sent.length = 2 ∧
      (copies (fun line => line = exampleLine.1) s.outbox.sent
          + copies (fun line => line = exampleLine.1) s.outbox.pending)
        ≤ 2 * (2 * s.written.countP fun line => line = exampleLine.1) := by
  obtain ⟨s, hrun, hsent⟩ : ∃ s,
      Lts.run (step 0 ["ok".toList] exampleSizes (128 * chunkLimitSize)) killedActions start
        = some s ∧
      s.outbox.sent.length = 2 := ⟨_, rfl, rfl⟩
  have hforwarded := lines_forwarded 0 Shipping.loadDataset_one exampleSizes _ hrun
  exact ⟨s, hrun, hsent, hforwarded.2.1 _⟩

/-! ### Catching up -/

section CaughtUp

variable {sleepInterval : NNRat} {dataset : List Text} {sizes : Sizes} {totalLimit : ℕ}
  {s : Forwarding} {handed : List Sending}

/-- What is staged is queued one by one. -/
theorem run_enqueue_replicate {stage : List Sending} (hstage : s.outbox.stage = stage)
    (hfits : ∀ sending ∈ stage, sizes.fits sending.1 = true) :
    Lts.run (step sleepInterval dataset sizes totalLimit) (List.replicate stage.length (.enqueue 1))
      s = some { s with
        outbox := { s.outbox with
          stage := []
          queue := s.outbox.queue ++ stage.map fun sending => [sending] } } := by
  induction stage generalizing s with
  | nil =>
    rw [List.map_nil, List.append_nil]
    nth_rewrite 2 [← hstage]
    rfl
  | cons sending stage ih =>
    have hfit : sizes.record sending.1 ≤ chunkLimitSize :=
      of_decide_eq_true (hfits sending List.mem_cons_self)
    have hstep : s.step sleepInterval dataset sizes totalLimit (.enqueue 1) = some { s with
        outbox := { s.outbox with stage := stage, queue := s.outbox.queue ++ [[sending]] } } := by
      rw [step, hstage, if_pos (by simpa [Sizes.total] using hfit), Outbox.enqueue, hstage]
      rfl
    rw [List.length_cons, List.replicate_succ, Lts.run_cons hstep,
      ih rfl fun other hother => hfits other (List.mem_cons_of_mem _ hother), List.map_cons,
      List.append_assoc, List.singleton_append]

/-- The chunks are sent one by one. -/
theorem run_flush_replicate {queue : List (List Sending)} (hqueue : s.outbox.queue = queue)
    (htaken : ∀ chunk ∈ queue, sizes.batch (chunk.map Prod.fst) ≤ messageMaxBytes) :
    Lts.run (step sleepInterval dataset sizes totalLimit) (List.replicate queue.length (.flush 0)) s
      = some { s with
          outbox := { s.outbox with queue := [], sent := s.outbox.sent ++ queue.flatten } } := by
  induction queue generalizing s with
  | nil =>
    rw [List.flatten_nil, List.append_nil]
    nth_rewrite 2 [← hqueue]
    rfl
  | cons chunk queue ih =>
    have hstep : s.step sleepInterval dataset sizes totalLimit (.flush 0) = some { s with
        outbox := { s.outbox with queue := queue, sent := s.outbox.sent ++ chunk } } := by
      rw [step, Outbox.flush, hqueue, List.getElem?_cons_zero, Option.bind_eq_bind,
        Option.bind_some, if_pos (htaken chunk List.mem_cons_self)]
      rfl
    rw [List.length_cons, List.replicate_succ, Lts.run_cons hstep,
      ih rfl fun other hother => htaken other (List.mem_cons_of_mem _ hother), List.flatten_cons,
      List.append_assoc]

/-- The brokers take every chunk. -/
theorem Sound.batch_le (h : s.Sound sleepInterval dataset sizes handed)
    (htaken : sizes.Taken s.written) {chunk : List Sending}
    (hpending : ∀ sending ∈ chunk, sending ∈ s.outbox.pending)
    (hsize : sizes.total chunk ≤ chunkLimitSize) :
    sizes.batch (chunk.map Prod.fst) ≤ messageMaxBytes := by
  refine htaken _ (fun line hline => ?_) ?_
  · obtain ⟨sending, hsending, rfl⟩ := List.mem_map.mp hline
    exact (h.lines sending (h.outbox.mem_entries
      (List.mem_append_right _ (hpending sending hsending)))).1
  · rw [List.map_map]
    exact hsize

/-- **The buffer is drained**, and nothing else happens. -/
theorem Sound.exists_run_drain (h : s.Sound sleepInterval dataset sizes handed) (totalLimit : ℕ)
    (htaken : sizes.Taken s.written) :
    ∃ actions sent, s.outbox.sent <+: sent ∧
      Lts.run (Forwarding.step sleepInterval dataset sizes totalLimit) actions s
        = some { s with outbox := ⟨[], [], sent, s.outbox.failures⟩ } := by
  have hstaged : ∀ sending ∈ s.outbox.stage, sizes.fits sending.1 = true := fun sending hsending =>
    (h.lines sending (h.outbox.mem_entries (List.mem_append_right _
      (List.mem_append_left _ hsending)))).2.2
  have hbatch : ∀ chunk ∈ s.outbox.queue ++ s.outbox.stage.map fun sending => [sending],
      sizes.batch (chunk.map Prod.fst) ≤ messageMaxBytes := by
    intro chunk hchunk
    rcases List.mem_append.mp hchunk with hqueued | hsingle
    · refine h.batch_le htaken (fun sending hsending => ?_) (h.chunks chunk hqueued)
      exact List.mem_append_right _ (List.mem_flatten.mpr ⟨chunk, hqueued, hsending⟩)
    · obtain ⟨sending, hsending, rfl⟩ := List.mem_map.mp hsingle
      refine h.batch_le htaken (fun other hother => ?_) ?_
      · rw [List.mem_singleton.mp hother]
        exact List.mem_append_left _ hsending
      · simpa [Sizes.total] using of_decide_eq_true (hstaged sending hsending)
  refine ⟨List.replicate s.outbox.stage.length (.enqueue 1) ++ List.replicate
    (s.outbox.queue ++ s.outbox.stage.map fun sending => [sending]).length (.flush 0), _,
    List.prefix_append _ (s.outbox.queue ++ s.outbox.stage.map fun sending => [sending]).flatten,
    ?_⟩
  rw [Lts.run_append, run_enqueue_replicate rfl hstaged, Option.bind_some]
  exact run_flush_replicate rfl hbatch

/-- **The file is read** to its end, once the buffer is drained. -/
theorem exists_step_read (sleepInterval : NNRat) (dataset : List Text) (sizes : Sizes)
    (htotalLimit : 0 < totalLimit) (hpending : s.outbox.pending = []) :
    ∃ action s', s.step sleepInterval dataset sizes totalLimit action = some s' ∧
      s'.shipping.log = s.shipping.log ∧ s'.kills = s.kills ∧
      s'.outbox.failures = s.outbox.failures ∧ s'.outbox.sent = s.outbox.sent ∧
      s'.shipping.file.length ≤ s'.shipping.tail.pos := by
  have hfull : ¬ s.Full sizes totalLimit := by
    rw [Full, Sizes.total, hpending, List.map_nil, List.sum_nil]
    exact Nat.not_le_of_gt htotalLimit
  refine ⟨.read s.shipping.file.length [], _, if_neg hfull, rfl, rfl, rfl, rfl, ?_⟩
  show s.shipping.file.length ≤ s.shipping.tail.pos
    + ((s.shipping.file.drop s.shipping.tail.pos).take s.shipping.file.length).length
  rw [List.length_take, List.length_drop]
  omega

end CaughtUp

/-- **The agent can always catch up**: from wherever it is, it can send what is pending and the
rest of the file, so that each line that was written, matches and fits a chunk is on the topic, as
often as it was written; for this, nothing need be written, fail or be killed. -/
theorem exists_caught_up (sleepInterval : NNRat) {content : Option Text} {dataset : List Text}
    (hload : loadDataset content = .ok dataset) (sizes : Sizes) {totalLimit : ℕ}
    (htotalLimit : 0 < totalLimit) {actions : List ForwardingAction} {s : Forwarding}
    (hrun : Lts.run (step sleepInterval dataset sizes totalLimit) actions start = some s)
    (htaken : sizes.Taken s.written) :
    ∃ more s', Lts.run (step sleepInterval dataset sizes totalLimit) more s = some s' ∧
      s'.shipping.log = s.shipping.log ∧ s'.kills = s.kills ∧
      s'.outbox.failures = s.outbox.failures ∧ s.outbox.sent <+: s'.outbox.sent ∧
      s'.outbox.pending = [] ∧
      ∀ kind, Matching sizes kind → s.written.countP kind ≤ copies kind s'.outbox.sent := by
  have hdataset := not_mem_of_loadDataset hload
  obtain ⟨handed, hsound⟩ := exists_sound_run hdataset ⟨[], sound_start⟩ hrun
  obtain ⟨before, sent, hsent, hbefore⟩ := hsound.exists_run_drain totalLimit htaken
  -- with nothing pending the agent reads, and what it reads can be sent in turn
  obtain ⟨action, t, hread, hlog, hkills, hfailures, hput, hpos⟩ :=
    exists_step_read (s := { s with outbox := ⟨[], [], sent, s.outbox.failures⟩ })
      sleepInterval dataset sizes htotalLimit rfl
  have hwritten : t.written = s.written := congrArg (List.map Prod.snd) hlog
  obtain ⟨handed', hsound'⟩ := exists_sound_run hdataset
    (exists_sound_run hdataset ⟨handed, hsound⟩ hbefore) ((Lts.run_cons hread).trans Lts.run_nil)
  obtain ⟨behind, sent', hsent', hbehind⟩ := hsound'.exists_run_drain totalLimit (hwritten ▸ htaken)
  have hmore : Lts.run (step sleepInterval dataset sizes totalLimit) (before ++ action :: behind) s
      = some { t with outbox := ⟨[], [], sent', t.outbox.failures⟩ } := by
    rw [Lts.run_append, hbefore, Option.bind_some, Lts.run_cons hread]
    exact hbehind
  rw [hput] at hsent'
  refine ⟨_, _, hmore, hlog, hkills, hfailures, hsent.trans hsent', rfl, fun kind hkind => ?_⟩
  obtain ⟨_, hcaught⟩ := exists_sound_run hdataset ⟨handed', hsound'⟩ hbehind
  have hlines : t.shipping.tail.lines = s.written :=
    (hsound'.shipping.lines_of_read hpos).trans hwritten
  rw [← hlines]
  exact hcaught.tail_le_copies hkind

set_option maxRecDepth 4000 in
/-- A kill and a failure before it. -/
theorem exists_caught_up_killed :
    ∃ s more s', Lts.run (step 0 ["ok".toList] exampleSizes (128 * chunkLimitSize))
        [.append exampleLine, .read 200 [], .enqueue 1, .fail 0 fun _ => false, .kill] start
          = some s ∧
      Lts.run (step 0 ["ok".toList] exampleSizes (128 * chunkLimitSize)) more s = some s' ∧
      (s.written.countP fun line => line = exampleLine.1)
        ≤ copies (fun line => line = exampleLine.1) s'.outbox.sent := by
  obtain ⟨s, hrun⟩ : ∃ s, Lts.run (step 0 ["ok".toList] exampleSizes (128 * chunkLimitSize))
      [.append exampleLine, .read 200 [], .enqueue 1, .fail 0 fun _ => false, .kill] start
        = some s := ⟨_, rfl⟩
  obtain ⟨more, s', hmore, -, -, -, -, -, hcaughtUp⟩ :=
    exists_caught_up 0 Shipping.loadDataset_one exampleSizes (by decide) hrun
      (taken_exampleSizes _)
  exact ⟨s, more, s', hrun, hmore, hcaughtUp _ matching_exampleLine⟩

end Forwarding

end Fluentd

end AiopsLog
