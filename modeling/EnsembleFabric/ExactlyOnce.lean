import EnsembleFabric.Refinement.Runs

/-!
# One result per execution

Later states of an ensemble follow earlier ones: the generation and, in
one generation, the execution identity only move up, and what was decided
about an execution stays decided. A result once stored is the only one
for its generation and execution; a cancellation or a supersession that
comes before it excludes it.

None of this uses where a committed value came from: the gate is asked
about arbitrary results. The invariant is a relation between two states of
a run (`Follows`), proved for one move and carried by `run_follows`:

- the same execution of the same generation, further on, keeps what was
  decided about it (`Persists`);
- otherwise the later record is of a later execution or generation, and
  the earlier one never comes back.

An execution is named by ensemble, generation and execution identity
(`ExecutionKey`), and two states that know the execution of a name agree on
what was decided about it. What an answer to a client says about the stored
result is `reply_committed`; with it the claim about answers at different
times follows from the agreement of the states in which they were given.
-/

namespace EnsembleFabric

open EventSystem

/-! ## What later states keep -/

/-- What later states of one execution keep: its result once there is one, a
request for cancellation once it was made, and the want of a result once
cancellation or supersession has excluded one. -/
structure Persists (e : EnsembleRecord) (x : ExecutionRecord) (e' : EnsembleRecord)
    (x' : ExecutionRecord) : Prop where
  stored : ∀ r, x.result = some r → x'.result = some r
  cancelled : x.cancellationRequested = true → x'.cancellationRequested = true
  excludedByCancel : x.cancellationRequested = true → x.result = none → x'.result = none
  excludedBySupersede : e.superseded = true → x.result = none → x'.result = none

/-- The execution is the same one further on, or a later one. -/
def ExecutionFollows (e : EnsembleRecord) (x : ExecutionRecord) (e' : EnsembleRecord)
    (x' : ExecutionRecord) : Prop :=
  x.id.value < x'.id.value ∨ x'.id = x.id ∧ Persists e x e' x'

/-- The record is of a later generation, or of the same one further on. -/
def Follows (e e' : EnsembleRecord) : Prop :=
  e.spec.generation.value < e'.spec.generation.value
    ∨ e'.spec.generation = e.spec.generation ∧ (e.superseded = true → e'.superseded = true)
      ∧ ∀ x, e.execution = some x → ∃ x', e'.execution = some x' ∧ ExecutionFollows e x e' x'

/-- An ensemble that is defined stays defined, and follows. -/
def ViewFollows (v v' : View) : Prop :=
  ∀ e, v.entry = some e → ∃ e', v'.entry = some e' ∧ Follows e e'

theorem Persists.refl (e : EnsembleRecord) (x : ExecutionRecord) : Persists e x e x :=
  ⟨fun _ h => h, fun h => h, fun _ h => h, fun _ h => h⟩

theorem ExecutionFollows.trans {e e' e'' : EnsembleRecord} {x x' x'' : ExecutionRecord}
    (hsuperseded : e.superseded = true → e'.superseded = true)
    (h : ExecutionFollows e x e' x') (h' : ExecutionFollows e' x' e'' x'') :
    ExecutionFollows e x e'' x'' := by
  rcases h with hlt | ⟨hid, hp⟩
  · rcases h' with hlt' | ⟨hid', -⟩
    · exact .inl (UInt64.lt_trans hlt hlt')
    · exact .inl (by rw [hid']; exact hlt)
  · rcases h' with hlt' | ⟨hid', hp'⟩
    · exact .inl (by rw [← hid]; exact hlt')
    · refine .inr ⟨hid'.trans hid, fun r hr => hp'.stored r (hp.stored r hr),
        fun hc => hp'.cancelled (hp.cancelled hc), fun hc hn => ?_, fun hs hn => ?_⟩
      · exact hp'.excludedByCancel (hp.cancelled hc) (hp.excludedByCancel hc hn)
      · exact hp'.excludedBySupersede (hsuperseded hs) (hp.excludedBySupersede hs hn)

theorem Follows.refl (e : EnsembleRecord) : Follows e e :=
  .inr ⟨rfl, fun h => h, fun x hx => ⟨x, hx, .inr ⟨rfl, .refl e x⟩⟩⟩

theorem Follows.trans {a b c : EnsembleRecord} (h : Follows a b) (h' : Follows b c) :
    Follows a c := by
  rcases h with hlt | ⟨hgen, hsup, hexec⟩
  · rcases h' with hlt' | ⟨hgen', -, -⟩
    · exact .inl (UInt64.lt_trans hlt hlt')
    · exact .inl (by rw [hgen']; exact hlt)
  · rcases h' with hlt' | ⟨hgen', hsup', hexec'⟩
    · exact .inl (by rw [← hgen]; exact hlt')
    · refine .inr ⟨hgen'.trans hgen, fun hs => hsup' (hsup hs), fun x hx => ?_⟩
      obtain ⟨x', hx', hfollows⟩ := hexec x hx
      obtain ⟨x'', hx'', hfollows'⟩ := hexec' x' hx'
      exact ⟨x'', hx'', hfollows.trans hsup hfollows'⟩

theorem ViewFollows.refl (v : View) : ViewFollows v v := fun e he => ⟨e, he, .refl e⟩

theorem ViewFollows.trans {a b c : View} (h : ViewFollows a b) (h' : ViewFollows b c) :
    ViewFollows a c := by
  intro e he
  obtain ⟨e', he', hfollows⟩ := h e he
  obtain ⟨e'', he'', hfollows'⟩ := h' e' he'
  exact ⟨e'', he'', hfollows.trans hfollows'⟩

/-- One step on an execution keeps it and what was decided about it. -/
theorem ExecutionStep.persists {sc : Scope} {e : EnsembleRecord} {x x' : ExecutionRecord}
    (h : ExecutionStep sc e x x') : x'.id = x.id ∧ Persists e x (e.holding x') x' := by
  cases h with
  | bookkeeping same =>
    refine ⟨same.id, ?_, ?_, ?_, ?_⟩ <;> simp_all [same.result, same.cancellationRequested]
  | cancel undecided same =>
    refine ⟨same.id, ?_, ?_, ?_, ?_⟩ <;> simp_all [same.result, same.cancellationRequested]
  | commit undecided allowed =>
    obtain ⟨hcancel, -, -, hsuperseded, -⟩ := commitAllowed_eq_ok allowed
    refine ⟨storeResult_id .., ?_, ?_, ?_, ?_⟩ <;> simp_all
  | _ => exact ⟨rfl, fun _ h => h, fun h => h, fun _ h => h, fun _ h => h⟩

/-- A change of the record that keeps its generation and its execution. -/
theorem Follows.of_same {e e' : EnsembleRecord} (hgen : e'.spec.generation = e.spec.generation)
    (hsuperseded : e.superseded = true → e'.superseded = true)
    (hexec : e'.execution = e.execution) : Follows e e' := by
  refine .inr ⟨hgen, hsuperseded, fun x hx => ⟨x, hexec.trans hx, .inr ⟨rfl, ?_⟩⟩⟩
  exact ⟨fun _ h => h, fun h => h, fun _ h => h, fun _ h => h⟩

/-- A change of the execution that leaves its identity and decisions alone. -/
theorem Follows.of_execution {e : EnsembleRecord} {x x' : ExecutionRecord}
    (hx : e.execution = some x) (h : ExecutionFollows e x (e.holding x') x') :
    Follows e (e.holding x') := by
  refine .inr ⟨rfl, fun h => h, fun y hy => ⟨x', rfl, ?_⟩⟩
  obtain rfl := Option.some.inj (hx.symm.trans hy)
  exact h

theorem Move.follows {sc : Scope} {v v' : View} (h : Move sc v v') : ViewFollows v v' := by
  cases h with
  | tick => exact fun e he => ⟨e, he, .refl e⟩
  | define => exact fun e he => by cases he
  | redefine _ last generation _ =>
    rintro _ ⟨⟩
    refine ⟨_, rfl, .inl ?_⟩
    rw [redefinedRecord_spec, generation]
    exact StrongId.lt_next last
  | supersede =>
    rintro _ ⟨⟩
    exact ⟨_, rfl, .of_same rfl (fun _ => rfl) rfl⟩
  | seats =>
    rintro _ ⟨⟩
    exact ⟨_, rfl, .of_same rfl (fun h => h) rfl⟩
  | openFirst live fresh =>
    rintro _ ⟨⟩
    exact ⟨_, rfl, .inr ⟨rfl, fun h => h, fun x hx => by rw [fresh] at hx; cases hx⟩⟩
  | openNext live before ended last =>
    rintro _ ⟨⟩
    exact ⟨_, rfl, .of_execution before (.inl (StrongId.lt_next last))⟩
  | work before step =>
    rintro _ ⟨⟩
    exact ⟨_, rfl, .of_execution before (.inr step.persists)⟩
  | declare before =>
    rintro _ ⟨⟩
    exact ⟨_, rfl, .of_execution before (.inr ⟨rfl, fun _ h => h, fun h => h, fun _ h => h,
      fun _ h => h⟩)⟩
  | plan before =>
    rintro _ ⟨⟩
    exact ⟨_, rfl, .of_execution before (.inr ⟨rfl, fun _ h => h, fun h => h, fun _ h => h,
      fun _ h => h⟩)⟩

/-- A run goes on by one event. -/
theorem run_next (s : System) (events : List Event) (event : Event) :
    (s.run events).next event = s.run (events ++ [event]) := by
  rw [System.run, System.run, run_append]
  rfl

/-- Every state of a run follows the states before it. -/
theorem run_follows {s : System} (hnamed : Named s.fabric) (events : List Event)
    (id : EnsembleId) : ViewFollows (s.fabric.view id) ((s.run events).fabric.view id) :=
  ViewStep.related ViewFollows.refl ViewFollows.trans Move.follows
    (fun e he => ⟨e, he, .refl e⟩) (run_viewSteps rfl hnamed (along_allows s events) id)

/-! ## Executions by name -/

/-- The name of an execution of one generation. Names are not used again: an
execution that is no longer current never becomes it again. -/
structure ExecutionKey where
  ensemble : EnsembleId
  generation : EnsembleGeneration
  execution : EnsembleExecutionId
deriving DecidableEq

/-- The execution a result is about. -/
def EnsembleResult.key (r : EnsembleResult) : ExecutionKey :=
  ⟨r.ensemble, r.ensembleGeneration, r.execution⟩

/-- The execution of this name, while it is the current one. -/
def System.executionOf (s : System) (key : ExecutionKey) : Option ExecutionRecord :=
  ((s.fabric.find key.ensemble).filter (·.spec.generation == key.generation)).bind
    (·.executionNamed key.execution)

theorem executionOf_eq_some {s : System} {key : ExecutionKey} {x : ExecutionRecord} :
    s.executionOf key = some x ↔ ∃ e, s.fabric.find key.ensemble = some e
      ∧ e.spec.generation = key.generation ∧ e.execution = some x ∧ x.id = key.execution := by
  simp [System.executionOf, Option.bind_eq_some_iff, Option.filter_eq_some_iff,
    executionNamed_eq_some, and_assoc]

/-- The value an event hands to the gate: a submitted result, or the result
a finalizing client carries. -/
def System.submitted (s : System) : Event → Option EnsembleResult
  | .commitResult r => some r
  | .resume client _ =>
      match s.clients client with
      | .finalizeCommitting r => some r
      | _ => none
  | _ => none

/-- The execution an event asks the gate to commit. -/
def System.commitKey (s : System) (event : Event) : Option ExecutionKey :=
  (s.submitted event).map (·.key)

/-- Two states that know an execution, one of which follows the other, agree
on what was decided. -/
theorem ViewFollows.persists {s s' : System} {key : ExecutionKey} {e : EnsembleRecord}
    {x x' : ExecutionRecord}
    (hfollows : ViewFollows (s.fabric.view key.ensemble) (s'.fabric.view key.ensemble))
    (h : s.executionOf key = some x) (h' : s'.executionOf key = some x')
    (he : s.fabric.find key.ensemble = some e) :
    ∃ e', Persists e x e' x' := by
  obtain ⟨e₀, he₀, hgen, hx, hid⟩ := executionOf_eq_some.mp h
  obtain rfl : e = e₀ := Option.some.inj (he.symm.trans he₀)
  obtain ⟨e', he', hgen', hx', hid'⟩ := executionOf_eq_some.mp h'
  obtain ⟨e₁, he₁, hfollows⟩ := hfollows e he
  obtain rfl : e' = e₁ := Option.some.inj (he'.symm.trans he₁)
  rcases hfollows with hlt | ⟨-, -, hexec⟩
  · rw [hgen, hgen'] at hlt
    exact absurd hlt (UInt64.lt_irrefl _)
  · obtain ⟨x₁, hx₁, hfollows⟩ := hexec x hx
    obtain rfl : x' = x₁ := Option.some.inj (hx'.symm.trans hx₁)
    rcases hfollows with hlt | ⟨-, hpersists⟩
    · rw [hid, hid'] at hlt
      exact absurd hlt (UInt64.lt_irrefl _)
    · exact ⟨e', hpersists⟩

theorem executionOf_persists {s : System} {events : List Event} {key : ExecutionKey}
    {e : EnsembleRecord} {x x' : ExecutionRecord} (hnamed : Named s.fabric)
    (h : s.executionOf key = some x) (h' : (s.run events).executionOf key = some x')
    (he : s.fabric.find key.ensemble = some e) :
    ∃ e', Persists e x e' x' :=
  (run_follows hnamed events key.ensemble).persists h h' he

/-! ## The gate -/

/-- A commit that succeeds answers the result that is now stored. -/
theorem commitResult_stores {f : Fabric} {r stored : EnsembleResult}
    (h : (commitResult f r).2 = .ok stored) :
    ∃ e x, (commitResult f r).1.find r.ensemble = some e
      ∧ e.spec.generation = r.ensembleGeneration ∧ e.execution = some x ∧ x.id = r.execution
      ∧ x.result = some stored := by
  unfold commitResult at h ⊢
  split at h
  · cases h
  · rename_i e x htarget
    have hfenced := commitTarget_eq_ok htarget
    simp only at h ⊢
    split at h
    · rename_i existing hresult
      split at h
      · rename_i hsame
        obtain rfl := Except.ok.inj h
        rw [if_pos hsame]
        exact ⟨_, _, Fabric.find_store_self .., hfenced.generation.symm, rfl, hfenced.executionId,
          hresult⟩
      · cases h
    · split at h
      · cases h
      · split at h
        · cases h
        · obtain rfl := Except.ok.inj h
          exact ⟨_, _, Fabric.find_store_self .., hfenced.generation.symm, rfl,
            (storeResult_id ..).trans hfenced.executionId, storeResult_result ..⟩

theorem finalizeAnswer_eq_ok {committed : Outcome EnsembleResult} {r : EnsembleResult}
    (h : finalizeAnswer committed = .ok r) : committed = .ok r := by
  simp only [finalizeAnswer, Checks.bind_eq_ok] at h
  obtain ⟨stored, hstored, h⟩ := h
  split at h
  · cases h
  · rw [hstored, Checks.pure_eq_ok.mp h]

/-- A client told that a result is committed finds it stored. -/
theorem reply_committed {s : System} {event : Event} {r : EnsembleResult}
    (h : s.reply event = .committed (.ok r)) :
    ∃ key x, s.commitKey event = some key ∧ (s.next event).executionOf key = some x
      ∧ x.result = some r := by
  cases event with
  | commitResult submitted =>
    have hok : (commitResult s.fabric submitted).2 = .ok r := by
      simpa [System.reply, System.step, System.answer] using h
    obtain ⟨e, x, he, hgen, hx, hid, hresult⟩ := commitResult_stores hok
    exact ⟨submitted.key, x, rfl, executionOf_eq_some.mpr ⟨e, he, hgen, hx, hid⟩, hresult⟩
  | finalize client id generation =>
    simp only [System.reply, System.step] at h
    split at h
    · cases h
    · split at h <;> cases h
  | restart client reason =>
    simp only [System.reply, System.step] at h
    split at h
    · cases h
    · split at h <;> cases h
  | resume client boot =>
    simp only [System.reply, System.step, System.resume] at h
    split at h
    · cases h
    · split at h <;> cases h
    · rename_i submitted hphase
      have hok : (commitResult s.fabric submitted).2 = .ok r := by
        exact finalizeAnswer_eq_ok (Response.committed.inj h)
      obtain ⟨e, x, he, hgen, hx, hid, hresult⟩ := commitResult_stores hok
      refine ⟨submitted.key, x, by simp [System.commitKey, System.submitted, hphase], ?_, hresult⟩
      refine executionOf_eq_some.mpr ⟨e, ?_, hgen, hx, hid⟩
      simpa [System.next, System.step, System.resume, hphase, EnsembleResult.key] using he
    · cases h
    · cases h
  | _ => simp [System.reply, System.step, System.answer] at h

/-! ## The ledger -/

/-- The commit ledger is empty before there is a result and holds at most
one record. -/
structure Ledger (x : ExecutionRecord) : Prop where
  before : x.result = none → x.commits = []
  single : x.commits.length ≤ 1

theorem retainLast_length {α : Type} (count : Nat) (xs : List α) :
    (retainLast count xs).length ≤ xs.length := by
  simp [retainLast]

theorem Ledger.of_same {x x' : ExecutionRecord} (h : Ledger x) (hresult : x'.result = x.result)
    (hcommits : x'.commits = x.commits) : Ledger x' :=
  ⟨fun hn => hcommits.trans (h.before (hresult ▸ hn)), hcommits ▸ h.single⟩

theorem ExecutionStep.ledger {sc : Scope} {e : EnsembleRecord} {x x' : ExecutionRecord}
    (h : ExecutionStep sc e x x') (hx : Ledger x) : Ledger x' := by
  cases h with
  | bookkeeping same => exact hx.of_same same.result same.commits
  | cancel undecided same => exact hx.of_same same.result same.commits
  | commit undecided allowed =>
    refine ⟨fun hn => ?_, ?_⟩
    · rw [storeResult_result] at hn
      cases hn
    · rw [storeResult_commits, hx.before undecided]
      exact retainLast_length _ _
  | _ => exact hx.of_same rfl rfl

theorem reachable_ledger (config : FabricConfig) (events : List Event) (id : EnsembleId) :
    OfExecution (fun _ x => Ledger x) (((System.initial config).run events).fabric.view id) := by
  refine reachable_ofExecution (fun _ _ _ => ⟨fun _ => rfl, by simp⟩) (fun h => h)
    (fun _ h => h) (fun h => h.ledger) (fun _ h => h.of_same rfl rfl)
    (fun _ _ h => h.of_same rfl rfl)
    (along_allows _ events) id

/-! ## Exactly one result -/

/-- In every run: an execution that has a result keeps it for as long as it
is the current one, its ledger holds at most one record, and every commit or
finalization that succeeds for it, at any time, answers that result. -/
theorem one_result_per_execution (config : FabricConfig) (first second : List Event) :
    let s := (System.initial config).run first
    let s' := s.run second
    (∀ key x x' r, s.executionOf key = some x → x.result = some r →
        s'.executionOf key = some x' → x'.result = some r)
      ∧ (∀ key x, s.executionOf key = some x → x.commits.length ≤ 1)
      ∧ (∀ event r, s.reply event = .committed (.ok r) →
          ∃ key x, s.commitKey event = some key ∧ (s.next event).executionOf key = some x
            ∧ x.result = some r)
      ∧ (∀ event event' key r r', s.reply event = .committed (.ok r) →
          s.commitKey event = some key →
          ((s.next event).run second).reply event' = .committed (.ok r') →
          ((s.next event).run second).commitKey event' = some key → r' = r) := by
  intro s s'
  have hnamed : Named s.fabric := (reachable_named config first).2
  have hnext : ∀ event, Named (s.next event).fabric := fun event => by
    have hrun := (reachable_named config (first ++ [event])).2
    rwa [System.run, run_append] at hrun
  refine ⟨fun key x x' r hx hr hx' => ?_, fun key x hx => ?_, fun event r h =>
    reply_committed h, fun event event' key r r' h hkey h' hkey' => ?_⟩
  · obtain ⟨e, he, -⟩ := executionOf_eq_some.mp hx
    obtain ⟨e', hpersists⟩ := executionOf_persists hnamed hx hx' he
    exact hpersists.stored r hr
  · obtain ⟨e, he, -, hexec, -⟩ := executionOf_eq_some.mp hx
    exact (reachable_ledger config first key.ensemble e x he hexec).single
  · obtain ⟨key₁, x, hkey₁, hx, hr⟩ := reply_committed h
    obtain ⟨key₂, x', hkey₂, hx', hr'⟩ := reply_committed h'
    obtain rfl := Option.some.inj (hkey₁.symm.trans hkey)
    obtain rfl := Option.some.inj (hkey₂.symm.trans hkey')
    obtain ⟨e, he, -⟩ := executionOf_eq_some.mp hx
    have hrun : ((s.next event).run second).next event'
        = (s.next event).run (second ++ [event']) := by
      simp [System.run, run_append]
    rw [hrun] at hx'
    obtain ⟨e', hpersists⟩ := executionOf_persists (hnext event) hx hx' he
    have hstored := hpersists.stored r hr
    rw [hr'] at hstored
    exact Option.some.inj hstored

end EnsembleFabric
