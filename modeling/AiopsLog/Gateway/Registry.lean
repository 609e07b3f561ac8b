import AiopsLog.Gateway.ConnectionManager

/-!
# The registry under any interleaving

Any number of calls of `connect`, `disconnect` and `broadcast` run at once. Their
system (`AiopsLog.Registry`) is the manager together with the point where each call
stands; one action starts a call, or resumes one with an answer to the await it is
suspended in – an exception and a cancellation among the answers. What the calls do to
the list, each turn does in one go (`AiopsLog.Turn`), so that the invariant of the
manager needs only two facts about the calls: each client is about to be appended by at
most one of them, and what a broadcast takes for dead has raised in it. And the log tells
what the calls have done: each that has returned has left its events there
(`AiopsLog.Registry.Action.Done`).
-/

namespace AiopsLog

open Py

/-! ### The system -/

/-- The manager, where each call stands, and the sockets that have been connected. -/
structure Registry where
  manager : Manager
  calls : List Point
  opened : List WebSocket

namespace Registry

/-- Before any call. -/
def start : Registry := ⟨.new, [], []⟩

/-- A call starts, or the call of a number resumes. -/
inductive Action where
  | connect : WebSocket → Action
  | disconnect : WebSocket → Action
  | broadcast : String → Action
  | resume : ℕ → Answer → Action

/-- One more call, which has just had its first turn. -/
def enter (r : Registry) (turn : Point × Manager) : Registry :=
  { r with manager := turn.2, calls := r.calls ++ [turn.1] }

/-- The step of the system: each socket is connected once, and a call resumes as its
point has it. -/
def step (r : Registry) : Action → Option Registry
  | .connect ws =>
    if ws ∈ r.opened then none
    else some { r.enter (.accepting ws, r.manager) with opened := ws :: r.opened }
  | .disconnect ws => some (r.enter (AiopsLog.disconnect ws r.manager))
  | .broadcast payload => some (r.enter (AiopsLog.broadcast r.calls.length payload r.manager))
  | .resume i answer => do
    let p ← r.calls[i]?
    let turn ← AiopsLog.resume i p answer r.manager
    pure { r with manager := turn.2, calls := r.calls.set i turn.1 }

/-! ### The invariant -/

/-- The manager is consistent; a socket that has been appended has been opened; one
about to be appended has been opened and not appended, and no other call is about to
append it; and the clients a call takes for dead have raised in it. -/
structure Sound (r : Registry) : Prop where
  consistent : r.manager.Consistent
  opened : ∀ ws, .appended ws ∈ r.manager.log → ws ∈ r.opened
  pending : ∀ (i : ℕ) (p : Point) ws, r.calls[i]? = some p → p.connecting = some ws →
    ws ∈ r.opened ∧ .appended ws ∉ r.manager.log
  alone : ∀ (i j : ℕ) (p q : Point) ws, r.calls[i]? = some p → r.calls[j]? = some q →
    p.connecting = some ws → q.connecting = some ws → i = j
  dead : ∀ (i : ℕ) (p : Point), r.calls[i]? = some p → ∀ ws ∈ p.dead, .raised i ws ∈ r.manager.log

theorem sound_start : start.Sound where
  consistent := consistent_new
  opened _ h := absurd h List.not_mem_nil
  pending _ _ _ h := nomatch h
  alone _ _ _ _ _ h := nomatch h
  dead _ _ h := nomatch h

theorem getElem?_set_cases {calls : List Point} {i j : ℕ} {p q : Point}
    (h : (calls.set i p)[j]? = some q) : (i = j ∧ q = p) ∨ (i ≠ j ∧ calls[j]? = some q) := by
  rw [List.getElem?_set] at h
  split at h
  · next hij =>
    split at h
    · exact .inl ⟨hij, (Option.some.inj h).symm⟩
    · nomatch h
  · next hij => exact .inr ⟨hij, h⟩

theorem getElem?_append_cases {calls : List Point} {j : ℕ} {p q : Point}
    (h : (calls ++ [p])[j]? = some q) : (j = calls.length ∧ q = p) ∨ calls[j]? = some q := by
  rcases Nat.lt_trichotomy j calls.length with hj | rfl | hj
  · rw [List.getElem?_append_left hj] at h
    exact .inr h
  · rw [List.getElem?_concat_length] at h
    exact .inl ⟨rfl, (Option.some.inj h).symm⟩
  · rw [List.getElem?_eq_none (by rw [List.length_append]; exact hj)] at h
    nomatch h

section Step

variable {r r' : Registry} (h : r.Sound)

include h

/-- A call is about to have its first turn. -/
theorem sound_call {p : Point} (hnew : ∀ ws, p.connecting = some ws → ws ∉ r.opened)
    (hdead : p.dead = []) :
    Sound { r with calls := r.calls ++ [p], opened := p.connecting.toList ++ r.opened } where
  consistent := h.consistent
  opened ws hws := List.mem_append_right _ (h.opened ws hws)
  pending i q ws hq hws := by
    rcases getElem?_append_cases hq with ⟨-, rfl⟩ | hq
    · refine ⟨List.mem_append_left _ (by rw [hws]; simp), fun happ => ?_⟩
      exact hnew ws hws (h.opened ws happ)
    · obtain ⟨hopened, happ⟩ := h.pending i q ws hq hws
      exact ⟨List.mem_append_right _ hopened, happ⟩
  alone i j q q' ws hq hq' hws hws' := by
    rcases getElem?_append_cases hq with ⟨hi, rfl⟩ | hold <;>
      rcases getElem?_append_cases hq' with ⟨hj, rfl⟩ | hold'
    · rw [hi, hj]
    · exact absurd (h.pending j q' ws hold' hws').1 (hnew ws hws)
    · exact absurd (h.pending i q ws hold hws).1 (hnew ws hws')
    · exact h.alone i j q q' ws hold hold' hws hws'
  dead i q hq ws hws := by
    rcases getElem?_append_cases hq with ⟨-, rfl⟩ | hq
    · rw [hdead] at hws
      exact absurd hws List.not_mem_nil
    · exact h.dead i q hq ws hws

/-- **A call has a turn.** The other calls' clients stay to be appended: the turn appends
its own call's client or none. -/
theorem sound_turn {i : ℕ} {p : Point} {turn : Point × Manager} (hp : r.calls[i]? = some p)
    (hturn : Turn i p r.manager turn) :
    Sound { r with manager := turn.2, calls := r.calls.set i turn.1 } where
  consistent := hturn.consistent h.consistent (fun ws hws => (h.pending i p ws hp hws).2)
    (h.dead i p hp)
  opened ws hws := by
    rcases hturn.mem_log_appended hws with hws | hws
    · exact h.opened ws hws
    · exact (h.pending i p ws hp hws).1
  pending j q ws hq hws := by
    rcases getElem?_set_cases hq with ⟨-, rfl⟩ | ⟨hij, hq⟩
    · nomatch hturn.connecting.symm.trans hws
    · obtain ⟨hopened, happ⟩ := h.pending j q ws hq hws
      refine ⟨hopened, fun hafter => ?_⟩
      rcases hturn.mem_log_appended hafter with hbefore | hown
      · exact happ hbefore
      -- the turn has appended the client of its own call, which is not this one's
      · exact hij (h.alone i j p q ws hp hq hown hws)
  alone j k q q' ws hq hq' hws hws' := by
    rcases getElem?_set_cases hq with ⟨-, rfl⟩ | ⟨-, hq⟩
    · nomatch hturn.connecting.symm.trans hws
    rcases getElem?_set_cases hq' with ⟨-, rfl⟩ | ⟨-, hq'⟩
    · nomatch hturn.connecting.symm.trans hws'
    exact h.alone j k q q' ws hq hq' hws hws'
  dead j q hq ws hws := by
    rcases getElem?_set_cases hq with ⟨rfl, rfl⟩ | ⟨-, hq⟩
    · exact hturn.dead (h.dead i p hp) ws hws
    · exact hturn.mem_log (h.dead j q hq ws hws)

/-- A call other than a `connect` starts. -/
theorem sound_enter {p : Point} {turn : Point × Manager} (hp : p.connecting = none)
    (hdead : p.dead = []) (hturn : Turn r.calls.length p r.manager turn) :
    (r.enter turn).Sound := by
  -- a call that starts is one that waits at `p` and has its first turn at once
  have hcall := sound_call h (p := p) (fun ws hws => nomatch hp.symm.trans hws) hdead
  have hset : (r.calls ++ [p]).set r.calls.length turn.1 = r.calls ++ [turn.1] := by
    rw [List.set_append_right _ _ (Nat.le_refl _), Nat.sub_self, List.set_cons_zero]
  have hsound := sound_turn hcall List.getElem?_concat_length hturn
  simp only [hp, hset] at hsound
  exact hsound

/-- **Every step keeps the registry sound.** -/
theorem sound_step {action : Action} (hstep : r.step action = some r') : r'.Sound := by
  have hfree := h.consistent.unlocked
  cases action with
  | connect ws =>
    rw [step] at hstep
    split at hstep
    · nomatch hstep
    · next hws =>
      obtain rfl := Option.some.inj hstep
      refine sound_call h (p := .accepting ws) (fun ws' hws' => ?_) rfl
      rwa [← Option.some.inj hws']
  | disconnect ws =>
    obtain rfl := Option.some.inj hstep
    exact sound_enter h (p := .disconnectLock ws) rfl rfl (turn_disconnect hfree ws)
  | broadcast payload =>
    obtain rfl := Option.some.inj hstep
    exact sound_enter h (p := .snapshotLock payload) rfl rfl (turn_broadcast hfree payload)
  | resume i answer =>
    obtain ⟨p, hp, hrest⟩ := Option.bind_eq_some_iff.mp hstep
    obtain ⟨turn, hturn, hr⟩ := Option.bind_eq_some_iff.mp hrest
    obtain rfl := Option.some.inj hr
    exact sound_turn h hp (turn_of_resume hfree hturn)

end Step

/-! ### What the calls have done -/

/-- The action starts a call. -/
def Action.isCall : Action → Bool
  | .connect _ | .disconnect _ | .broadcast _ => true
  | .resume _ _ => false

/-- **What the call of a number has done once it has returned**: a `connect` has appended its
client, a `disconnect` has filtered its own out, and a `broadcast` has copied the list and
filtered out every client whose send has raised in it. -/
def Action.Done (me : ℕ) (log : List Event) : Action → Prop
  | .connect ws => .appended ws ∈ log
  | .disconnect ws => .disconnected ws ∈ log
  | .broadcast payload =>
    .snapshot payload ∈ log ∧ ∀ ws, .raised me ws ∈ log → .cleaned me ws ∈ log
  | .resume _ _ => False

/-- What a call has done where it stands. -/
def Action.Did (me : ℕ) (log : List Event) (action : Action) : Point → Prop
  | .accepting ws | .connectLock ws => action = .connect ws
  | .disconnectLock ws => action = .disconnect ws
  | .snapshotLock payload => action = .broadcast payload ∧ ∀ ws, .raised me ws ∉ log
  | .sending payload _ _ dead => action = .broadcast payload ∧ .snapshot payload ∈ log ∧
      ∀ ws, .raised me ws ∈ log → ws ∈ dead
  | .cleanUpLock dead => ∃ payload, action = .broadcast payload ∧ .snapshot payload ∈ log ∧
      ∀ ws, .raised me ws ∈ log → ws ∈ dead
  | .returned => action.Done me log
  | .raised _ => True

section Did

variable {me : ℕ} {m : Manager} {log : List Event} {action : Action} {p : Point}

/-- **Another call's turn** undoes nothing: it raises in no send of this one. -/
theorem Action.Did.mono (h : action.Did me log p) {log' : List Event} (hlog : ∀ e ∈ log, e ∈ log')
    (hraised : ∀ ws, .raised me ws ∈ log' → .raised me ws ∈ log) : action.Did me log' p := by
  cases p with
  | accepting | connectLock | disconnectLock | raised => exact h
  | snapshotLock => exact ⟨h.1, fun ws hws => h.2 ws (hraised ws hws)⟩
  | sending => exact ⟨h.1, hlog _ h.2.1, fun ws hws => h.2.2 ws (hraised ws hws)⟩
  | cleanUpLock =>
    obtain ⟨payload, haction, hsnapshot, hdead⟩ := h
    exact ⟨payload, haction, hlog _ hsnapshot, fun ws hws => hdead ws (hraised ws hws)⟩
  | returned =>
    cases action with
    | connect | disconnect => exact hlog _ h
    | broadcast => exact ⟨hlog _ h.1, fun ws hws => hlog _ (h.2 ws (hraised ws hws))⟩
    | resume => exact h

variable (hm : m.locked = false)

include hm

theorem did_connectAccepted (ws : WebSocket) :
    (Action.connect ws).Did me (connectAccepted ws m).2.log (connectAccepted ws m).1 := by
  rw [connectAccepted_free hm]
  exact List.mem_append_right _ List.mem_cons_self

theorem did_disconnect (ws : WebSocket) :
    (Action.disconnect ws).Did me (AiopsLog.disconnect ws m).2.log
      (AiopsLog.disconnect ws m).1 := by
  rw [disconnect_free hm]
  exact List.mem_append_right _ List.mem_cons_self

theorem did_cleanUp {payload : String} {dead : List WebSocket}
    (hsnapshot : .snapshot payload ∈ m.log) (hdead : ∀ ws, .raised me ws ∈ m.log → ws ∈ dead) :
    (Action.broadcast payload).Did me (cleanUp me dead m).2.log (cleanUp me dead m).1 := by
  rw [cleanUp_free hm]
  refine ⟨List.mem_append_left _ hsnapshot, fun ws hws => ?_⟩
  rcases List.mem_append.mp hws with hws | hws
  · exact List.mem_append_right _ (List.mem_map_of_mem (hdead ws hws))
  · obtain ⟨_, _, heq⟩ := List.mem_map.mp hws
    nomatch heq

theorem did_sendNext {payload : String} {dead : List WebSocket} (live : List WebSocket)
    (hsnapshot : .snapshot payload ∈ m.log) (hdead : ∀ ws, .raised me ws ∈ m.log → ws ∈ dead) :
    (Action.broadcast payload).Did me (sendNext me payload dead live m).2.log
      (sendNext me payload dead live m).1 := by
  cases live with
  | nil =>
    rw [sendNext]
    split
    · next hnil =>
      -- nothing has raised, and there is nothing to clean up
      refine ⟨hsnapshot, fun ws hws => ?_⟩
      exact absurd (hnil ▸ hdead ws hws) List.not_mem_nil
    · exact did_cleanUp hm hsnapshot hdead
  | cons ws live =>
    rw [sendNext_cons]
    refine ⟨rfl, List.mem_append_left _ hsnapshot, fun ws' hws' => hdead ws' ?_⟩
    rcases List.mem_append.mp hws' with hws' | hws'
    · exact hws'
    · exact Event.noConfusion (List.mem_singleton.mp hws')

theorem did_broadcast (payload : String) (hnew : ∀ ws, .raised me ws ∉ m.log) :
    (Action.broadcast payload).Did me (AiopsLog.broadcast me payload m).2.log
      (AiopsLog.broadcast me payload m).1 := by
  rw [broadcast_free hm]
  have hfree : (m.note [.snapshot payload]).locked = false := hm
  refine did_sendNext hfree _ (List.mem_append_right _ List.mem_cons_self) fun ws hws => ?_
  rcases List.mem_append.mp hws with hws | hws
  · exact absurd hws (hnew ws)
  · exact Event.noConfusion (List.mem_singleton.mp hws)

/-- **A call's own turn** takes it on to where it has done more. -/
theorem did_resume {answer : Answer} {turn : Point × Manager}
    (hturn : AiopsLog.resume me p answer m = some turn) (h : action.Did me m.log p) :
    action.Did me turn.2.log turn.1 := by
  have found : ∀ {turn'}, action.Did me turn'.2.log turn'.1 → some turn' = some turn →
      action.Did me turn.2.log turn.1 := fun h' heq => Option.some.inj heq ▸ h'
  cases answer with
  | ok =>
    cases p with
    | accepting ws | connectLock ws =>
      obtain rfl : action = .connect ws := h
      exact found (did_connectAccepted hm ws) hturn
    | disconnectLock ws =>
      obtain rfl : action = .disconnect ws := h
      exact found (did_disconnect hm ws) hturn
    | snapshotLock payload =>
      obtain ⟨rfl, hnew⟩ := h
      exact found (did_broadcast hm payload hnew) hturn
    | sending payload ws live dead =>
      obtain ⟨rfl, hsnapshot, hdead⟩ := h
      exact found (did_sendNext hm live hsnapshot hdead) hturn
    | cleanUpLock dead =>
      obtain ⟨payload, rfl, hsnapshot, hdead⟩ := h
      exact found (did_cleanUp hm hsnapshot hdead) hturn
    | returned | raised => nomatch hturn
  | error =>
    cases p with
    | accepting => exact Option.some.inj hturn ▸ trivial
    | sending payload ws live dead =>
      obtain ⟨rfl, hsnapshot, hdead⟩ := h
      have hfree : (m.note [.raised me ws]).locked = false := hm
      refine found (did_sendNext hfree live (List.mem_append_left _ hsnapshot)
        fun ws' hws' => ?_) hturn
      rcases List.mem_append.mp hws' with hws' | hws'
      · exact List.mem_append_left _ (hdead ws' hws')
      · obtain ⟨-, rfl⟩ := Event.raised.inj (List.mem_singleton.mp hws')
        exact List.mem_append_right _ List.mem_cons_self
    | connectLock | disconnectLock | snapshotLock | cleanUpLock | returned | raised =>
      nomatch hturn
  | cancelled =>
    cases p with
    | returned | raised => nomatch hturn
    | accepting | connectLock | disconnectLock | snapshotLock | sending | cleanUpLock =>
      exact Option.some.inj hturn ▸ trivial

end Did

/-- **The calls of a run**, each from the action that started it, and what they have done; what
has raised, has raised in one of them. -/
structure Accounted (started : List Action) (r : Registry) : Prop where
  length : r.calls.length = started.length
  did : ∀ (i : ℕ) (action : Action) (p : Point), started[i]? = some action → r.calls[i]? = some p →
    action.Did i r.manager.log p
  raised : ∀ i ws, .raised i ws ∈ r.manager.log → i < r.calls.length

theorem accounted_start : Accounted [] start where
  length := rfl
  did _ _ _ h := nomatch h
  raised _ _ h := absurd h List.not_mem_nil

section Accounted

variable {started : List Action} {r r' : Registry} (h : Accounted started r)

include h

/-- A call starts, and has its first turn. -/
theorem accounted_enter {action : Action} {turn : Point × Manager}
    (hlog : ∀ e ∈ r.manager.log, e ∈ turn.2.log)
    (hraised : ∀ {i ws}, .raised i ws ∈ turn.2.log →
      .raised i ws ∈ r.manager.log ∨ i = r.calls.length)
    (hdid : action.Did r.calls.length turn.2.log turn.1) :
    Accounted (started ++ [action]) (r.enter turn) where
  length := by
    rw [enter, List.length_append, List.length_append, h.length]
    rfl
  did i a q ha hq := by
    rcases getElem?_append_cases hq with ⟨rfl, rfl⟩ | hq
    · rw [h.length, List.getElem?_concat_length] at ha
      exact Option.some.inj ha ▸ hdid
    · have hi : i < r.calls.length := (List.getElem?_eq_some_iff.mp hq).1
      rw [List.getElem?_append_left (h.length ▸ hi)] at ha
      refine (h.did i a q ha hq).mono hlog fun ws hws => ?_
      exact (hraised hws).resolve_right (Nat.ne_of_lt hi)
  raised i ws hws := by
    rw [enter, List.length_append]
    rcases hraised hws with hws | rfl
    · exact Nat.lt_add_right _ (h.raised i ws hws)
    · exact Nat.lt_succ_self _

/-- A call has a turn. -/
theorem accounted_turn {i : ℕ} {p : Point} {turn : Point × Manager} (hp : r.calls[i]? = some p)
    (hturn : Turn i p r.manager turn)
    (hdid : ∀ action : Action, action.Did i r.manager.log p → action.Did i turn.2.log turn.1) :
    Accounted started { r with manager := turn.2, calls := r.calls.set i turn.1 } where
  length := by
    rw [List.length_set, h.length]
  did j a q ha hq := by
    rcases getElem?_set_cases hq with ⟨rfl, rfl⟩ | ⟨hij, hq⟩
    · exact hdid a (h.did i a p ha hp)
    · refine (h.did j a q ha hq).mono (fun e => hturn.mem_log) fun ws hws => ?_
      exact (hturn.mem_log_raised hws).resolve_right (Ne.symm hij)
  raised j ws hws := by
    rw [List.length_set]
    rcases hturn.mem_log_raised hws with hws | rfl
    · exact h.raised j ws hws
    · exact (List.getElem?_eq_some_iff.mp hp).1

/-- **Every step keeps the calls accounted for.** -/
theorem accounted_step (hfree : r.manager.locked = false) {action : Action}
    (hstep : r.step action = some r') :
    Accounted (started ++ [action].filter Action.isCall) r' := by
  cases action with
  | connect ws =>
    rw [step] at hstep
    split at hstep
    · nomatch hstep
    · obtain rfl := Option.some.inj hstep
      have haccounted : Accounted (started ++ [.connect ws]) (r.enter (.accepting ws, r.manager)) :=
        accounted_enter h (fun _ => id) Or.inl rfl
      exact ⟨haccounted.length, haccounted.did, haccounted.raised⟩
  | disconnect ws =>
    obtain rfl := Option.some.inj hstep
    have hturn : Turn r.calls.length (.disconnectLock ws) r.manager
        (AiopsLog.disconnect ws r.manager) := turn_disconnect hfree ws
    exact accounted_enter h (fun _ => hturn.mem_log) hturn.mem_log_raised (did_disconnect hfree ws)
  | broadcast payload =>
    obtain rfl := Option.some.inj hstep
    have hturn : Turn r.calls.length (.snapshotLock payload) r.manager
        (AiopsLog.broadcast r.calls.length payload r.manager) := turn_broadcast hfree payload
    refine accounted_enter h (fun _ => hturn.mem_log) hturn.mem_log_raised
      (did_broadcast hfree payload fun ws hws => ?_)
    exact absurd (h.raised _ ws hws) (Nat.lt_irrefl _)
  | resume i answer =>
    obtain ⟨p, hp, hrest⟩ := Option.bind_eq_some_iff.mp hstep
    obtain ⟨turn, hturn, hr⟩ := Option.bind_eq_some_iff.mp hrest
    obtain rfl := Option.some.inj hr
    have haccounted := accounted_turn h hp (turn_of_resume hfree hturn) fun action =>
      did_resume hfree hturn
    rwa [← List.append_nil started] at haccounted

end Accounted

end Registry

/-! ### Every run -/

namespace Registry

theorem sound_run {actions : List Action} {r : Registry}
    (hrun : Lts.run step actions start = some r) : r.Sound :=
  Lts.run_invariant (fun _ _ _ h _ hstep => sound_step h hstep) sound_start
    (fun _ _ => trivial) hrun

theorem accounted_run {started actions : List Action} {r r' : Registry} (hsound : r.Sound)
    (h : Accounted started r) (hrun : Lts.run step actions r = some r') :
    Accounted (started ++ actions.filter Action.isCall) r' := by
  induction actions generalizing started r with
  | nil =>
    obtain rfl := Option.some.inj hrun
    rwa [List.filter_nil, List.append_nil]
  | cons action actions ih =>
    obtain ⟨t, hstep, hrest⟩ := Lts.exists_of_run_cons hrun
    have haccounted := accounted_step h hsound.consistent.unlocked hstep
    have hlater := ih (sound_step hsound hstep) haccounted hrest
    rwa [List.append_assoc, ← List.filter_append, List.singleton_append] at hlater

end Registry

/-- **The registry, whatever the interleaving**: in every state that calls of `connect`,
`disconnect` and `broadcast` reach, the list holds no socket twice and exactly those
appended and not removed since, by a `disconnect` or by the clean-up of a broadcast in
which their send raised; the gauge is its length; the lock is free; and every call that has
returned has done its work. -/
theorem registry_consistent {actions : List Registry.Action} {r : Registry}
    (hrun : Lts.run Registry.step actions .start = some r) :
    r.manager.connections.Nodup ∧
      (∀ ws, ws ∈ r.manager.connections ↔ Registered ws r.manager.log) ∧
      History.Legal Event.LegalAfter r.manager.log ∧
      r.manager.gauge = r.manager.connections.length ∧ r.manager.locked = false ∧
      ∀ (i : ℕ) (call : Registry.Action),
        (actions.filter Registry.Action.isCall)[i]? = some call →
        r.calls[i]? = some .returned → call.Done i r.manager.log := by
  have hsound := Registry.sound_run hrun
  have haccounted := Registry.accounted_run Registry.sound_start Registry.accounted_start hrun
  exact ⟨hsound.consistent.nodup, hsound.consistent.mem_iff, hsound.consistent.legal,
    hsound.consistent.gauge, hsound.consistent.unlocked,
    fun i call hcall => haccounted.did i call .returned hcall⟩

/-- Client 3 connects while a broadcast sends to 1 and 2, and the send to 1 raises; then 2
disconnects. -/
def lateConnect : List Registry.Action :=
  [.connect 1, .connect 2, .resume 0 .ok, .resume 1 .ok, .broadcast "alert", .connect 3,
    .resume 2 .error, .resume 3 .ok, .resume 2 .ok, .disconnect 2]

/-- The clean-up takes 1 out of the list, and the disconnect 2; 3 stays. -/
theorem registry_consistent_lateConnect :
    ∃ r, Lts.run Registry.step lateConnect .start = some r ∧ r.manager.connections = [3] ∧
      (∀ ws, ws ∈ r.manager.connections ↔ Registered ws r.manager.log) ∧
      .disconnected 2 ∈ r.manager.log ∧ .cleaned 2 1 ∈ r.manager.log := by
  obtain ⟨r, hrun, hconnections, hbroadcast, hdisconnect, hraised⟩ :
      ∃ r, Lts.run Registry.step lateConnect .start = some r ∧ r.manager.connections = [3] ∧
        r.calls[2]? = some .returned ∧ r.calls[4]? = some .returned ∧
        .raised 2 1 ∈ r.manager.log := ⟨_, rfl, rfl, rfl, rfl, by decide⟩
  obtain ⟨-, hmem, -, -, -, hdone⟩ := registry_consistent hrun
  exact ⟨r, hrun, hconnections, hmem, hdone 4 (.disconnect 2) rfl hdisconnect,
    (hdone 2 (.broadcast "alert") rfl hbroadcast).2 1 hraised⟩

end AiopsLog
