import EnsembleFabric.Changes

/-!
# The status of closed executions

Supersession, invalidation, failure reports and `advance` only close
executions that are open. `cancelEnsemble` and the commit gate do not ask:
the first cancels any execution without a result, the second stores its
verdict in any execution the gate admits. Every event that is neither of
these on a closed execution leaves closed executions as they are.

`overridesClosed` is the condition, on the state before an event: the event
is a cancellation that finds a closed execution, or hands the gate a value
that it stores in one, and the status changes by it. It is exact for one
event (`keepsClosed_iff`), and over a run of events that do not meet it the
status of every closed execution stays for as long as the execution is the
current one:

> closed_status_absorbing : an event keeps the closed executions exactly when
> it does not override one, and a run of such events keeps them all.

Defining an ensemble anew and opening an execution put another execution in
the place of a closed one. That is not a change of its status, and
`Event.replaces` tells it apart.
-/

namespace EnsembleFabric

open EventSystem

/-! ## One event -/

/-- The event opens an execution or redefines an ensemble. -/
def Event.replaces : Event → Bool
  | .openExecution .. | .defineEnsemble _ => true
  | _ => false

/-- The event leaves the status of every closed execution alone, or puts
another execution in its place. -/
def KeepsClosed (s : System) (event : Event) : Prop :=
  ∀ key x, s.executionOf key = some x → x.status ≠ .opened →
    (∃ x', (s.next event).executionOf key = some x' ∧ x'.status = x.status)
      ∨ event.replaces = true ∧ (s.next event).executionOf key = none

/-- The cancellation finds an execution that is closed, has no result and is
not cancelled yet. -/
def cancelsClosed (f : Fabric) (id : EnsembleId) (generation : EnsembleGeneration) : Bool :=
  (f.find id).any fun e => e.spec.generation == generation
    && e.execution.any fun x =>
      x.result.isNone && x.status != .opened && x.status != .cancelled

/-- The gate stores the value in a closed execution, under another status. -/
def commitsClosed (f : Fabric) (r : EnsembleResult) : Bool :=
  (storesIn f r).any fun (_, x) => x.status != .opened && x.status != statusFor r.decision

/-- The event gives a closed execution another status. -/
def System.overridesClosed (s : System) (event : Event) : Bool :=
  match event with
  | .cancelEnsemble id generation _ => cancelsClosed s.fabric id generation
  | event => (s.submitted event).any (commitsClosed s.fabric)

theorem overridesClosed_submitted {s : System} {event : Event} {r : EnsembleResult}
    (h : s.submitted event = some r) :
    s.overridesClosed event = commitsClosed s.fabric r := by
  cases event with
  | cancelEnsemble => cases h
  | _ => simp [System.overridesClosed, h]

/-- What an event may do to the status of a closed execution. -/
inductive StatusAfter (s : System) (event : Event) (id : EnsembleId) (e : EnsembleRecord)
    (x : ExecutionRecord) (e' : EnsembleRecord) : Prop
  | kept {x'} (generation : e'.spec.generation = e.spec.generation)
      (after : e'.execution = some x') (id : x'.id = x.id) (status : x'.status = x.status)
  | replaced (replaces : event.replaces = true) (fresh : e'.spec.generation = e.spec.generation →
      ∀ x', e'.execution = some x' → x'.id ≠ x.id)
  | overridden (overrides : s.overridesClosed event = true)

theorem Written.statusAfter {s : System} {event : Event} {id : EnsembleId}
    {e e' : EnsembleRecord} {x : ExecutionRecord} (h : Written s event id e e')
    (he : s.fabric.find id = some e) (hx : e.execution = some x) (hclosed : x.status ≠ .opened) :
    StatusAfter s event id e x e' := by
  have hended : ∀ {y}, e.execution = some y → y.status = .opened → False := by
    intro y hy hopen
    obtain rfl := Option.some.inj (hx.symm.trans hy)
    exact hclosed hopen
  have hsame : ∀ {y}, e.execution = some y → x = y := fun hy => Option.some.inj (hx.symm.trans hy)
  cases h with
  | redefined defines _ last generation =>
    obtain ⟨requested, rfl⟩ := defines
    refine .replaced rfl fun heq => ?_
    rw [redefinedRecord_spec, generation] at heq
    exact absurd (heq ▸ StrongId.lt_next last) (UInt64.lt_irrefl _)
  | superseded =>
    refine .kept rfl (show _ = some (supersededExecution x) by simp [hx]) ?_ ?_
    · simp [supersededExecution, hclosed]
    · simp [supersededExecution, hclosed]
  | seated _ at_ =>
    obtain rfl := at_.ensemble
    exact .kept rfl hx rfl rfl
  | started opens _ _ later =>
    subst opens
    obtain ⟨rfl, hlast⟩ := later x hx
    refine .replaced rfl fun _ x' hx' heq => ?_
    obtain rfl := Option.some.inj hx'
    have hlt := StrongId.lt_next hlast
    rw [show x.id.next = x.id from heq] at hlt
    exact UInt64.lt_irrefl _ hlt
  | withdrawn _ before =>
    obtain rfl := hsame before
    exact .kept rfl rfl rfl rfl
  | closed _ before status => exact (hended before status).elim
  | advanced _ before status => exact (hended before status).elim
  | received _ accept ensemble | abstained _ accept ensemble | retried _ accept ensemble
  | dropped _ accept ensemble =>
    subst ensemble
    obtain rfl := hsame (acceptCandidate_eq_ok accept).1.fenced.execution
    exact .kept rfl rfl rfl rfl
  | evaluated _ accept ensemble =>
    subst ensemble
    obtain rfl := hsame (acceptEvaluation_eq_ok accept).execution
    exact .kept rfl rfl rfl rfl
  | lost _ _ ensemble =>
    subst ensemble
    exact .kept rfl hx rfl rfl
  | released _ _ _ before status => exact (hended before status).elim
  | cancelled cancels before undecided live =>
    obtain rfl := hsame before
    refine .overridden ?_
    subst cancels
    simp [System.overridesClosed, cancelsClosed, he, hx, undecided, hclosed, live]
  | invalidated =>
    refine .kept rfl (show _ = some (invalidatedExecution _ x) by
      simp [invalidatedEnsemble, hx]; rfl) ?_ ?_
    · simp [invalidatedExecution, hclosed]
    · simp [invalidatedExecution, hclosed]
  | reported _ before | attempted _ before =>
    obtain rfl := hsame before
    exact .kept rfl rfl rfl rfl
  | @stored r y resultId sequence submits stores =>
    obtain ⟨htarget, -⟩ := storesIn_eq_some.mp stores
    obtain rfl := hsame (commitTarget_eq_ok htarget).execution
    by_cases hverdict : x.status = statusFor r.decision
    · refine .kept rfl rfl ?_ ?_
      · simp
      · simp [hverdict, stampedResult]
    · refine .overridden ?_
      rw [overridesClosed_submitted submits]
      simp [commitsClosed, stores, hclosed, hverdict]

/-- An event that gives no closed execution another status keeps them. -/
theorem keepsClosed_of_not_overrides {s : System} {event : Event}
    (h : s.overridesClosed event = false) : KeepsClosed s event := by
  intro key x hx hclosed
  obtain ⟨e, he, hgen, hex, hid⟩ := executionOf_eq_some.mp hx
  obtain ⟨e', he', rfl | hwritten⟩ := (next_writes s event).known key.ensemble e he
  · exact .inl ⟨x, executionOf_eq_some.mpr ⟨e', he', hgen, hex, hid⟩, rfl⟩
  · cases hwritten.statusAfter he hex hclosed with
    | @kept x' generation after same status =>
      exact .inl ⟨x', executionOf_eq_some.mpr
        ⟨e', he', generation.trans hgen, after, same.trans hid⟩, status⟩
    | replaced replaces fresh =>
      refine .inr ⟨replaces, Option.eq_none_iff_forall_ne_some.mpr fun x' hx' => ?_⟩
      obtain ⟨e'', he'', hgen', hex', hid'⟩ := executionOf_eq_some.mp hx'
      obtain rfl := Option.some.inj (he'.symm.trans he'')
      exact fresh (hgen'.trans hgen.symm) x' hex' (hid'.trans hid.symm)
    | overridden overrides =>
      rw [h] at overrides
      cases overrides

/-- What a call that stores leaves behind. -/
theorem commitResult_committed {f : Fabric} {r : EnsembleResult} {e : EnsembleRecord}
    {x : ExecutionRecord} (h : storesIn f r = some (e, x)) :
    ∃ id sequence, (commitResult f r).1.find r.ensemble
      = some (committedRecord f.config.limits e x (stampedResult r id sequence)) := by
  obtain ⟨htarget, hnone, hallowed, id, ids, hids⟩ := storesIn_eq_some.mp h
  have hallowed' : commitAllowed e { x with commitAttempts := x.commitAttempts + 1 } = .ok () :=
    hallowed
  unfold commitResult
  simp only [htarget]
  split
  · rename_i hstored
    rw [hnone] at hstored
    cases hstored
  · split
    · rename_i hrefused
      rw [hallowed'] at hrefused
      cases hrefused
    · simp only [hids]
      exact ⟨id, _, Fabric.find_store_self ..⟩

/-- The commit section of an event that hands a value to the gate. -/
theorem submitted_next {s : System} {event : Event} {r : EnsembleResult}
    (h : s.submitted event = some r) : (s.next event).fabric = (commitResult s.fabric r).1 := by
  cases event with
  | commitResult =>
    obtain rfl := Option.some.inj h
    rfl
  | resume client boot =>
    simp only [System.submitted] at h
    split at h
    · rename_i hphase
      obtain rfl := Option.some.inj h
      simp only [System.next, System.step, System.resume, hphase]
      rfl
    · cases h
  | _ => cases h

/-- A status that changes to another one on a closed execution is not kept. -/
theorem not_keepsClosed {s : System} {event : Event} {id : EnsembleId} {e : EnsembleRecord}
    {x x' : ExecutionRecord} (he : s.fabric.find id = some e) (hx : e.execution = some x)
    (hclosed : x.status ≠ .opened) (he' : (s.next event).fabric.find id = some (e.holding x'))
    (hid : x'.id = x.id) (hstatus : x'.status ≠ x.status) : ¬ KeepsClosed s event := by
  intro h
  have hafter : (s.next event).executionOf ⟨id, e.spec.generation, x.id⟩ = some x' :=
    executionOf_eq_some.mpr ⟨_, he', rfl, rfl, hid⟩
  rcases h ⟨id, e.spec.generation, x.id⟩ x (executionOf_eq_some.mpr ⟨e, he, rfl, hx, rfl⟩)
    hclosed with ⟨y, hy, hsame⟩ | ⟨-, hnone⟩
  · obtain rfl := Option.some.inj (hafter.symm.trans hy)
    exact hstatus hsame
  · rw [hafter] at hnone
    cases hnone

theorem overridesClosed_of_keepsClosed {s : System} {event : Event} (h : KeepsClosed s event) :
    s.overridesClosed event = false := by
  cases hover : s.overridesClosed event with
  | false => rfl
  | true =>
    refine (?_ : ¬ KeepsClosed s event) h |>.elim
    have hcommit : ∀ r, s.submitted event = some r → commitsClosed s.fabric r = true →
        ¬ KeepsClosed s event := by
      intro r hsubmits hcommits
      simp only [commitsClosed, Option.any_eq_true, Bool.and_eq_true, bne_iff_ne] at hcommits
      obtain ⟨⟨e, x⟩, hstores, hclosed, hverdict⟩ := hcommits
      obtain ⟨htarget, -⟩ := storesIn_eq_some.mp hstores
      have hfenced := commitTarget_eq_ok htarget
      obtain ⟨resultId, sequence, hafter⟩ := commitResult_committed hstores
      rw [← submitted_next hsubmits] at hafter
      refine not_keepsClosed hfenced.ensemble hfenced.execution hclosed hafter ?_ ?_
      · simp
      · simpa [stampedResult] using Ne.symm hverdict
    cases event with
    | cancelEnsemble id generation reason =>
      simp only [System.overridesClosed, cancelsClosed, Option.any_eq_true, Bool.and_eq_true,
        beq_iff_eq, bne_iff_ne, Option.isNone_iff_eq_none] at hover
      obtain ⟨e, he, rfl, x, hx, ⟨hundecided, hclosed⟩, hlive⟩ := hover
      let x' := cancelledExecution x
        (sanitizeText reason s.fabric.config.limits.maxMetadataBytes) s.fabric.core.nextSequence.1
      have hcancelled : (s.next (.cancelEnsemble id e.spec.generation reason)).fabric.find id
          = some (e.holding x') := by
        simp [System.next, System.step, System.answer, cancelEnsemble, he, hx, hundecided, hlive,
          x']
      exact not_keepsClosed he hx hclosed hcancelled rfl (Ne.symm hlive)
    | _ =>
      simp only [System.overridesClosed, Option.any_eq_true] at hover
      obtain ⟨r, hsubmits, hcommits⟩ := hover
      exact hcommit r hsubmits hcommits

/-- In every state, an event keeps the closed executions exactly when it does
not override one. -/
theorem keepsClosed_iff {s : System} {event : Event} :
    KeepsClosed s event ↔ s.overridesClosed event = false :=
  ⟨overridesClosed_of_keepsClosed, keepsClosed_of_not_overrides⟩

/-! ## Runs -/

/-- An execution that is known early and late is known in between. -/
theorem executionOf_between {s : System} {first second : List Event} {key : ExecutionKey}
    {x x'' : ExecutionRecord} (hnamed : Named s.fabric) (hmid : Named (s.run first).fabric)
    (h : s.executionOf key = some x) (h'' : ((s.run first).run second).executionOf key = some x'') :
    ∃ x', (s.run first).executionOf key = some x' := by
  obtain ⟨e, he, hgen, hx, hid⟩ := executionOf_eq_some.mp h
  obtain ⟨e₁, he₁, hfirst⟩ := run_follows hnamed first key.ensemble e he
  obtain ⟨e₂, he₂, hsecond⟩ := run_follows hmid second key.ensemble e₁ he₁
  obtain ⟨e'', he'', hgen'', hx'', hid''⟩ := executionOf_eq_some.mp h''
  obtain rfl : e₂ = e'' := Option.some.inj (he₂.symm.trans he'')
  -- generations and execution identities only move up, and end where they began
  have hgen₁ : e₁.spec.generation = e.spec.generation := by
    rcases hfirst with hlt | ⟨heq, -⟩
    · rcases hsecond with hlt' | ⟨heq', -⟩
      · exact absurd (UInt64.lt_trans hlt hlt') (by rw [hgen, hgen'']; exact UInt64.lt_irrefl _)
      · rw [← heq', hgen'', hgen] at hlt
        exact absurd hlt (UInt64.lt_irrefl _)
    · exact heq
  rcases hfirst with hlt | ⟨-, -, hexec⟩
  · rw [hgen₁] at hlt
    exact absurd hlt (UInt64.lt_irrefl _)
  · obtain ⟨x₁, hx₁, hfollows⟩ := hexec x hx
    rcases hsecond with hlt | ⟨-, -, hexec'⟩
    · rw [hgen₁, hgen, hgen''] at hlt
      exact absurd hlt (UInt64.lt_irrefl _)
    · obtain ⟨x₂, hx₂, hfollows'⟩ := hexec' x₁ hx₁
      obtain rfl : x'' = x₂ := Option.some.inj (hx''.symm.trans hx₂)
      refine ⟨x₁, executionOf_eq_some.mpr ⟨e₁, he₁, hgen₁.trans hgen, hx₁, ?_⟩⟩
      rcases hfollows with hlt | ⟨heq, -⟩
      · rcases hfollows' with hlt' | ⟨heq', -⟩
        · exact absurd (UInt64.lt_trans hlt hlt') (by rw [hid, hid'']; exact UInt64.lt_irrefl _)
        · rw [← heq', hid'', hid] at hlt
          exact absurd hlt (UInt64.lt_irrefl _)
      · exact heq.trans hid

/-- The execution still has the status, or another one took its place. -/
def StaysClosed (s : System) (more : List Event) (key : ExecutionKey) (x : ExecutionRecord) :
    Prop :=
  (∃ x', (s.run more).executionOf key = some x' ∧ x'.status = x.status)
    ∨ (∃ event ∈ more, event.replaces = true) ∧ (s.run more).executionOf key = none

theorem staysClosed_of_along {s : System} {more : List Event} {key : ExecutionKey}
    {x : ExecutionRecord} (hnamed : Named s.fabric)
    (hkeeps : Along System.next (fun s event => s.overridesClosed event = false) s more)
    (hx : s.executionOf key = some x) (hclosed : x.status ≠ .opened) :
    StaysClosed s more key x := by
  induction more generalizing s x with
  | nil => exact .inl ⟨x, hx, rfl⟩
  | cons event more ih =>
    have hnext : Named (s.next event).fabric :=
      (next_viewSteps rfl hnamed (allows_all _ s event) ⟨0⟩).2.1
    rcases keepsClosed_of_not_overrides hkeeps.1 key x hx hclosed with
      ⟨x₁, hx₁, hstatus⟩ | ⟨hreplaces, hnone⟩
    · rcases ih hnext hkeeps.2 hx₁ (hstatus ▸ hclosed) with
        ⟨x', hx', hsame⟩ | ⟨⟨later, hlater, hr⟩, hgone⟩
      · exact .inl ⟨x', hx', hsame.trans hstatus⟩
      · exact .inr ⟨⟨later, List.mem_cons_of_mem _ hlater, hr⟩, hgone⟩
    · refine .inr ⟨⟨event, List.mem_cons_self, hreplaces⟩, ?_⟩
      rw [Option.eq_none_iff_forall_ne_some]
      intro x'' hx''
      have hnext' : Named (s.run [event]).fabric := hnext
      obtain ⟨x', hx'⟩ := executionOf_between hnamed hnext' hx hx''
      rw [show s.run [event] = s.next event from rfl, hnone] at hx'
      cases hx'

/-- In every reachable state: an event keeps the closed executions exactly
when it does not override one, and a run of such events keeps the status of
every closed execution until another execution takes its place. -/
theorem closed_status_absorbing (config : FabricConfig) (events : List Event) :
    (∀ event, KeepsClosed ((System.initial config).run events) event
        ↔ ((System.initial config).run events).overridesClosed event = false)
      ∧ ∀ more,
        Along System.next (fun s event => s.overridesClosed event = false)
            ((System.initial config).run events) more →
        ∀ key x, ((System.initial config).run events).executionOf key = some x →
          x.status ≠ .opened → StaysClosed ((System.initial config).run events) more key x :=
  ⟨fun _ => keepsClosed_iff, fun _ hkeeps _ _ hx hclosed =>
    staysClosed_of_along (reachable_named config events).2 hkeeps hx hclosed⟩

namespace Sample

/-- One required participant, whose failure cancels the execution. -/
def requiredSpec : EnsembleSpec where
  id := ⟨1⟩
  label := "required"
  participants := [participant 1 candidateRole]
  cancellation := { cancelOnRequiredFailure := true }

/-- A result is prepared before the required participant fails. -/
def failedAfterPrepare : List Event :=
  start requiredSpec ++ [content 1 1 [7], .prepareResult ⟨1⟩ ⟨1⟩,
    .reportParticipantFailure (authority 1) .unavailable "lost"]

def supersededRun : List Event := start loneSpec ++ [.supersedeEnsemble ⟨1⟩ ⟨1⟩]

def status (events : List Event) : Option ExecutionStatus :=
  (execution events).map (·.status)

/-- The value prepared before the participant is lost. -/
def requiredResult : EnsembleResult := prepared (start requiredSpec ++ [content 1 1 [7]])

def cancelFirst : Event := .cancelEnsemble ⟨1⟩ ⟨1⟩ ""

end Sample

/-- An execution marked failed by the loss of its required participant is
committed, and a superseded one is cancelled. Both were closed, and both change
their status. -/
theorem closed_status_overridden :
    ¬ KeepsClosed (Sample.reached Sample.failedAfterPrepare) (.commitResult Sample.requiredResult)
      ∧ Sample.status Sample.failedAfterPrepare = some .failed
      ∧ Sample.status (Sample.failedAfterPrepare ++ [.commitResult Sample.requiredResult])
        = some .committed
      ∧ ¬ KeepsClosed (Sample.reached Sample.supersededRun) Sample.cancelFirst
      ∧ Sample.status Sample.supersededRun = some .superseded
      ∧ Sample.status (Sample.supersededRun ++ [Sample.cancelFirst]) = some .cancelled := by
  rw [keepsClosed_iff, keepsClosed_iff]
  decide +kernel

end EnsembleFabric
