import EnsembleFabric.Stages
import EnsembleFabric.Terminal

/-!
# Where committed results go

A result becomes current when the gate stores it. A redefinition moves the
current result to the end of the history, which keeps the latest entries.
Opening the next execution puts a fresh execution in the place of the old
one and moves nothing: a result that was current then is gone.

Every run in which no execution with a committed result is replaced in this
way keeps what was committed, until the history is full of later results.

The history after a run is what was entered in it, as far as it is retained
(`run_history`): entries are pushed one by one, and cutting a list to its
last elements again and again is cutting it once (`foldl_retainLast`). The
current result stays until a redefinition or a new execution takes it from
its place (`next_current`), and the condition `replacesCommitted` excludes
the latter. An entry is then lost only to as many later ones as the history
holds (`mem_retainLast_or`), which is the second case of `Retained`.
-/

namespace EnsembleFabric

open EventSystem

/-! ## Bounded histories -/

section Bounded

variable {α : Type} {count : Nat}

/-- What a first cut to the same bound drops is dropped anyway. -/
theorem retainLast_retainLast_append (xs ys : List α) :
    retainLast count (retainLast count xs ++ ys) = retainLast count (xs ++ ys) := by
  have hcut : retainLast count xs ++ ys = (xs ++ ys).drop (xs.length - count) := by
    rw [List.drop_append_of_le_length (by omega)]
    rfl
  unfold retainLast at hcut ⊢
  rw [hcut, List.drop_drop, List.length_drop]
  congr 1
  simp only [List.length_append]
  omega

/-- Entries pushed one by one are retained as if pushed at once. -/
theorem foldl_retainLast {xs : List α} {out : List α} (hout : out ≠ []) :
    out.foldl (fun kept a => retainLast count (kept ++ [a])) xs = retainLast count (xs ++ out) := by
  induction out generalizing xs with
  | nil => exact absurd rfl hout
  | cons a out ih =>
    rw [List.foldl_cons]
    cases out with
    | nil => rfl
    | cons b out =>
      rw [ih (List.cons_ne_nil b out), retainLast_retainLast_append, List.append_assoc]
      rfl

/-- An entry is retained until as many others have followed. -/
theorem mem_retainLast_or [DecidableEq α] {xs out : List α} {a : α} (ha : a ∈ out) :
    a ∈ retainLast count (xs ++ out) ∨ count ≤ (out.filter (· ≠ a)).length := by
  by_cases hshort : out.length ≤ count
  · refine .inl ?_
    unfold retainLast
    rw [List.drop_append_of_le_length (by simp only [List.length_append]; omega)]
    exact List.mem_append_right _ ha
  · by_cases hkept : a ∈ retainLast count out
    · refine .inl ?_
      have hcut : retainLast count (xs ++ out) = retainLast count out := by
        unfold retainLast
        rw [List.drop_append, List.drop_eq_nil_of_le (by simp only [List.length_append]; omega),
          List.nil_append]
        congr 1
        simp only [List.length_append]
        omega
      rw [hcut]
      exact hkept
    · -- the retained entries are all other than `a`
      refine .inr ?_
      have hothers : (retainLast count out).filter (· ≠ a) = retainLast count out := by
        refine List.filter_eq_self.mpr fun b hb => ?_
        simp only [ne_eq, decide_eq_true_eq]
        rintro rfl
        exact hkept hb
      have hlength : (retainLast count out).length = count := by
        unfold retainLast
        rw [List.length_drop]
        omega
      calc count = ((retainLast count out).filter (· ≠ a)).length := by rw [hothers, hlength]
        _ ≤ (out.filter (· ≠ a)).length := ((List.drop_sublist _ _).filter _).length_le

end Bounded

/-! ## Results on record -/

/-- The result is the current one of the ensemble or in its history. -/
def OnRecord (f : Fabric) (id : EnsembleId) (r : EnsembleResult) : Prop :=
  currentResult f id = .ok r ∨ ∃ e, f.find id = some e ∧ r ∈ e.history

/-- The request redefines, or defines, the ensemble. -/
def defines (f : Fabric) (requested : EnsembleSpec) (id : EnsembleId) : Bool :=
  match assignIdentity f.core requested.id with
  | .error _ => false
  | .ok (assigned, _) =>
      assigned == id && (admitSpec f.config.limits (f.find id) { requested with id }).isOk

/-- The result an event enters into the history of the ensemble: the current
one, when the ensemble is redefined. -/
def System.enters (id : EnsembleId) (s : System) : Event → Option EnsembleResult
  | .defineEnsemble requested =>
      if defines s.fabric requested id then (currentResult s.fabric id).toOption else none
  | _ => none

theorem enters_defineEnsemble (id : EnsembleId) (s : System) (requested : EnsembleSpec) :
    s.enters id (.defineEnsemble requested)
      = if defines s.fabric requested id then (currentResult s.fabric id).toOption else none := rfl

/-- The results a run enters into the history of the ensemble, oldest first. -/
def entered (id : EnsembleId) (s : System) (events : List Event) : List EnsembleResult :=
  outputs System.next (System.enters id) s events

/-- The event opens a new execution in the place of one that holds a
committed result. -/
def System.replacesCommitted (s : System) : Event → Bool
  | .openExecution id generation =>
      (s.fabric.find id).any fun e =>
        e.spec.generation == generation && !e.superseded && !e.isOpen
          && decide (s.fabric.openExecutions < s.fabric.config.limits.maxInFlightExecutions.toNat)
          && e.execution.any fun x =>
            x.id.value != lastWord && x.result.any (·.decision == .committed)
  | _ => false

theorem currentResult_eq_ok {f : Fabric} {id : EnsembleId} {r : EnsembleResult} :
    currentResult f id = .ok r
      ↔ ∃ e, f.find id = some e ∧ e.execution.bind (·.result) = some r := by
  unfold currentResult
  split
  · rename_i hnone
    simp [hnone, fail]
  · rename_i e he
    split <;> rename_i hresult <;> simp [he, hresult, fail]

theorem defines_eq_true {f : Fabric} {requested : EnsembleSpec} {id : EnsembleId} :
    defines f requested id = true ↔ ∃ core spec, assignIdentity f.core requested.id = .ok (id, core)
      ∧ admitSpec f.config.limits (f.find id) { requested with id } = .ok spec := by
  unfold defines
  split
  · rename_i hassigned
    simp [hassigned]
  · rename_i assigned core hassigned
    rw [hassigned]
    simp only [Bool.and_eq_true, beq_iff_eq, Except.ok.injEq, Prod.mk.injEq]
    constructor
    · rintro ⟨rfl, hok⟩
      cases hadmission :
        admitSpec f.config.limits (f.find assigned) { requested with id := assigned } with
      | error => rw [hadmission] at hok; cases hok
      | ok spec => exact ⟨core, spec, ⟨rfl, rfl⟩, rfl⟩
    · rintro ⟨-, spec, ⟨rfl, -⟩, hadmission⟩
      exact ⟨rfl, by rw [hadmission]; rfl⟩

/-! ## One event -/

/-- A redefinition replaces the record. -/
theorem defineEnsemble_of_defines {f : Fabric} {requested : EnsembleSpec} {id : EnsembleId}
    {e : EnsembleRecord} (he : f.find id = some e) (h : defines f requested id = true) :
    ∃ spec, (defineEnsemble f requested).1.find id
      = some (redefinedRecord f.config.limits e spec) := by
  obtain ⟨core, spec, hassigned, hadmission⟩ := defines_eq_true.mp h
  have hfind : Fabric.find { f with core } id = some e := he
  rw [he] at hadmission
  refine ⟨spec, ?_⟩
  unfold defineEnsemble
  simp only [hassigned, hfind, hadmission]
  split <;> exact Fabric.find_store_self ..

/-- Other definitions leave the record alone. -/
theorem defineEnsemble_of_not_defines {f : Fabric} {requested : EnsembleSpec} {id : EnsembleId}
    {e : EnsembleRecord} (he : f.find id = some e) (h : ¬ defines f requested id = true) :
    (defineEnsemble f requested).1.find id = some e := by
  unfold defineEnsemble
  split
  · exact he
  · rename_i other core hassigned
    simp only
    split
    · exact he
    · rename_i spec hadmission
      have hother : other ≠ id := by
        rintro rfl
        exact h (defines_eq_true.mpr ⟨core, spec, hassigned, hadmission⟩)
      have hstored : ∀ k e', ({ f with core := k }.store other e').find id = some e := by
        intro k e'
        rw [Fabric.find_store, if_neg hother]
        exact he
      split
      · exact hstored core _
      · split
        · exact hstored (countSupersession core) _
        · exact hstored core _

theorem advanceOpen_spec (limits : Limits) (core : Core) (e : EnsembleRecord)
    (x : ExecutionRecord) : (advanceOpen limits core e x).1.ensemble.spec = e.spec := by
  have hsteps : ∀ {s}, AdvanceState.AdvanceSteps limits (advanceStart core e x) s →
      s.ensemble.spec = e.spec := fun hs =>
    AdvanceState.advanceSteps_keep (P := fun s => s.ensemble.spec = e.spec)
      (fun hstep h => hstep.spec.trans h) hs rfl
  have hends := advanceOpen_ends limits core e x
  generalize advanceOpen limits core e x = out at hends ⊢
  cases hends with
  | @settled s steps =>
    have hspec : s.report.ensemble.spec = s.ensemble.spec := rfl
    exact hspec.trans (hsteps steps)
  | stopped steps stop => exact stop.spec.trans (hsteps steps)

/-- Only a redefinition changes the specification. -/
theorem Written.same_spec {s : System} {event : Event} {id : EnsembleId} {e e' : EnsembleRecord}
    (h : Written s event id e e') (hdefine : ∀ requested, event ≠ .defineEnsemble requested) :
    e'.spec = e.spec := by
  cases h with
  | redefined defines =>
    obtain ⟨requested, rfl⟩ := defines
    exact absurd rfl (hdefine requested)
  | seated _ at_ =>
    obtain rfl := at_.ensemble
    rfl
  | advanced _ _ _ _ result =>
    subst result
    exact advanceOpen_spec ..
  | received _ _ ensemble | retried _ _ ensemble | dropped _ _ ensemble | abstained _ _ ensemble
  | evaluated _ _ ensemble | lost _ _ ensemble =>
    subst ensemble
    rfl
  | released _ _ ensemble =>
    subst ensemble
    exact (handleParticipantFailure_keeps ..).1
  | superseded | started | withdrawn | closed | cancelled | invalidated | reported | attempted
  | stored => rfl

/-- The history of a generation stays as it is. -/
def SameHistory (v v' : View) : Prop :=
  ∀ e, v.entry = some e → ∃ e', v'.entry = some e'
    ∧ (e.spec.generation.value < e'.spec.generation.value
      ∨ e'.spec.generation = e.spec.generation ∧ e'.history = e.history)

theorem SameHistory.refl (v : View) : SameHistory v v := fun e he => ⟨e, he, .inr ⟨rfl, rfl⟩⟩

theorem SameHistory.trans {a b c : View} (h : SameHistory a b) (h' : SameHistory b c) :
    SameHistory a c := by
  intro e he
  obtain ⟨e', he', hfirst⟩ := h e he
  obtain ⟨e'', he'', hsecond⟩ := h' e' he'
  refine ⟨e'', he'', ?_⟩
  rcases hfirst with hlt | ⟨hgen, hhistory⟩
  · rcases hsecond with hlt' | ⟨hgen', -⟩
    · exact .inl (UInt64.lt_trans hlt hlt')
    · exact .inl (by rw [hgen']; exact hlt)
  · rcases hsecond with hlt' | ⟨hgen', hhistory'⟩
    · exact .inl (by rw [← hgen]; exact hlt')
    · exact .inr ⟨hgen'.trans hgen, hhistory'.trans hhistory⟩

theorem Move.sameHistory {sc : Scope} {v v' : View} (h : Move sc v v') : SameHistory v v' := by
  cases h with
  | tick => exact fun e he => ⟨e, he, .inr ⟨rfl, rfl⟩⟩
  | define => exact fun e he => by cases he
  | redefine _ last generation _ =>
    rintro _ ⟨⟩
    refine ⟨_, rfl, .inl ?_⟩
    rw [redefinedRecord_spec, generation]
    exact StrongId.lt_next last
  | _ =>
    rintro _ ⟨⟩
    exact ⟨_, rfl, .inr ⟨rfl, rfl⟩⟩

/-- An entry at the end of the history, which keeps the latest `count`. -/
def pushed (count : Nat) (history : List EnsembleResult) (r : EnsembleResult) :
    List EnsembleResult :=
  retainLast count (history ++ [r])

/-- Other events leave the history alone. -/
theorem next_same_history {s : System} {event : Event} {id : EnsembleId} {e : EnsembleRecord}
    (hnamed : Named s.fabric) (hdefine : ∀ requested, event ≠ .defineEnsemble requested)
    (he : s.fabric.find id = some e) :
    ∃ e', (s.next event).fabric.find id = some e' ∧ e'.history = e.history := by
  obtain ⟨-, -, hsteps⟩ := next_viewSteps rfl hnamed (allows_all _ s event) id
  obtain ⟨e', he', hfollows⟩ := ViewStep.related SameHistory.refl SameHistory.trans
    Move.sameHistory (fun e he => ⟨e, he, .inr ⟨rfl, rfl⟩⟩) hsteps e he
  refine ⟨e', he', ?_⟩
  have hspec : e'.spec = e.spec := by
    obtain ⟨e'', he'', rfl | hwritten⟩ := (next_writes s event).known id e he
    · obtain rfl := Option.some.inj (he''.symm.trans he')
      rfl
    · obtain rfl := Option.some.inj (he''.symm.trans he')
      exact hwritten.same_spec hdefine
  rcases hfollows with hlt | ⟨-, hhistory⟩
  · rw [hspec] at hlt
    exact absurd hlt (UInt64.lt_irrefl _)
  · exact hhistory

/-- An event adds to the history what it enters, and nothing else. -/
theorem next_history {s : System} {event : Event} {id : EnsembleId} {e : EnsembleRecord}
    (hnamed : Named s.fabric) (he : s.fabric.find id = some e) :
    ∃ e', (s.next event).fabric.find id = some e' ∧ e'.history
      = (s.enters id event).toList.foldl (pushed s.fabric.config.limits.maxRetainedResults.toNat)
        e.history := by
  by_cases hdefine : ∀ requested, event ≠ .defineEnsemble requested
  · obtain ⟨e', he', hhistory⟩ := next_same_history hnamed hdefine he
    have hnone : s.enters id event = none := by
      cases event with
      | defineEnsemble requested => exact absurd rfl (hdefine requested)
      | _ => rfl
    exact ⟨e', he', by rw [hnone, hhistory]; rfl⟩
  · obtain ⟨requested, hevent⟩ := not_forall.mp hdefine
    obtain rfl := not_not.mp hevent
    rw [enters_defineEnsemble]
    by_cases hdefines : defines s.fabric requested id = true
    · obtain ⟨spec, he'⟩ := defineEnsemble_of_defines he hdefines
      refine ⟨_, he', ?_⟩
      simp only [redefinedRecord, currentResult, he, if_pos hdefines]
      cases e.execution.bind (·.result) <;> rfl
    · exact ⟨e, defineEnsemble_of_not_defines he hdefines, by rw [if_neg hdefines]; rfl⟩

/-! ### The current result -/

/-- An execution that has a result is not open. -/
def DecidedCloses (x : ExecutionRecord) : Prop := ∀ r, x.result = some r → x.status ≠ .opened

theorem ExecutionStep.decidedCloses {sc : Scope} {e : EnsembleRecord} {x x' : ExecutionRecord}
    (h : ExecutionStep sc e x x') (hx : DecidedCloses x) : DecidedCloses x' := by
  intro r hr hopen
  cases h with
  | bookkeeping same => exact hx r (same.result ▸ hr) (same.status ▸ hopen)
  | close _ after =>
    subst hopen
    rcases after with h | h | h <;> cases h
  | cancel undecided same =>
    rw [same.result, undecided] at hr
    cases hr
  | commit =>
    rw [storeResult_status] at hopen
    exact statusFor_ne_opened _ hopen
  | _ => exact hx r hr hopen

theorem reachable_decidedCloses (config : FabricConfig) (events : List Event) (id : EnsembleId) :
    OfExecution (fun _ x => DecidedCloses x)
      (((System.initial config).run events).fabric.view id) :=
  reachable_ofExecution (fun _ _ _ r hr => by cases hr) (fun h => h) (fun _ h => h)
    (fun h => h.decidedCloses) (fun _ h => h) (fun _ _ h => h) (along_allows _ events) id

/-- A result stays where it is, unless its execution is replaced. -/
theorem Written.keeps_result {s : System} {event : Event} {id : EnsembleId}
    {e e' : EnsembleRecord} {x : ExecutionRecord} {r : EnsembleResult}
    (h : Written s event id e e') (hreplaces : event.replaces = false)
    (hx : e.execution = some x) (hr : x.result = some r) (hclosed : x.status ≠ .opened) :
    e'.execution.bind (·.result) = some r := by
  have hcurrent : e.execution.bind (·.result) = some r := by rw [hx]; exact hr
  have hsame : ∀ {y}, e.execution = some y → x = y := fun hy => Option.some.inj (hx.symm.trans hy)
  have hundecided : ∀ {y}, e.execution = some y → y.result = none → False := by
    intro y hy hnone
    obtain rfl := hsame hy
    rw [hr] at hnone
    cases hnone
  have hended : ∀ {y}, e.execution = some y → y.status = .opened → False := by
    intro y hy hopen
    obtain rfl := hsame hy
    exact hclosed hopen
  cases h with
  | redefined defines =>
    obtain ⟨requested, rfl⟩ := defines
    cases hreplaces
  | started opens =>
    subst opens
    cases hreplaces
  | superseded =>
    simp [hx, supersededExecution, hclosed, hr]
  | seated _ at_ =>
    obtain rfl := at_.ensemble
    exact hcurrent
  | withdrawn _ before =>
    obtain rfl := hsame before
    exact hr
  | closed _ before status | advanced _ before status | released _ _ _ before status =>
    exact (hended before status).elim
  | received _ accept ensemble | abstained _ accept ensemble | retried _ accept ensemble
  | dropped _ accept ensemble =>
    subst ensemble
    obtain rfl := hsame (acceptCandidate_eq_ok accept).1.fenced.execution
    exact hr
  | evaluated _ accept ensemble =>
    subst ensemble
    obtain rfl := hsame (acceptEvaluation_eq_ok accept).execution
    exact hr
  | lost _ _ ensemble =>
    subst ensemble
    exact hcurrent
  | cancelled _ before undecided | reported _ before undecided =>
    exact (hundecided before undecided).elim
  | invalidated =>
    simp [invalidatedEnsemble, hx, invalidatedExecution, hclosed, hr]
  | attempted _ before =>
    obtain rfl := hsame before
    exact hr
  | stored _ stores =>
    obtain ⟨htarget, hnone, -⟩ := storesIn_eq_some.mp stores
    exact (hundecided (commitTarget_eq_ok htarget).execution hnone).elim

/-- A call that opens an execution in the place of a committed one is one
that `replacesCommitted` names. -/
theorem openExecution_keeps_committed {s : System} {opened id : EnsembleId}
    {generation : EnsembleGeneration} {e : EnsembleRecord} {r : EnsembleResult}
    (he : s.fabric.find id = some e) (hr : e.execution.bind (·.result) = some r)
    (hcommitted : r.decision = .committed)
    (hkeep : s.replacesCommitted (.openExecution opened generation) = false) :
    (openExecution s.fabric opened generation).1.find id = some e := by
  obtain ⟨x, hx, hxr⟩ := Option.bind_eq_some_iff.mp hr
  unfold openExecution
  split
  · exact he
  · rename_i e₀ he₀
    by_cases hsame : opened = id
    · subst hsame
      obtain rfl := Option.some.inj (he.symm.trans he₀)
      split
      · exact he
      · rename_i hgeneration
        split
        · exact he
        · rename_i hlive
          split
          · exact he
          · rename_i hended
            split
            · exact he
            · rename_i hroom
              split
              · exact he
              · rename_i hlast
                -- every guard let the call through
                rw [hx, Option.any_some] at hlast
                simp [System.replacesCommitted, he, hx, hxr, hcommitted, hlive, hended,
                  not_not.mp hgeneration, Nat.not_le.mp hroom] at hkeep
                exact absurd (beq_iff_eq.mpr hkeep) hlast
    · have hstored : ∀ e', (s.fabric.store opened e').find id = some e := by
        intro e'
        rw [Fabric.find_store, if_neg hsame]
        exact he
      repeat' split
      all_goals first | exact he | exact hstored _

/-- Only a redefinition or a new execution takes a committed result from its
place. -/
theorem next_current {config : FabricConfig} {before : List Event} {event : Event}
    {id : EnsembleId} {r : EnsembleResult}
    (hr : currentResult ((System.initial config).run before).fabric id = .ok r)
    (hcommitted : r.decision = .committed)
    (hkeep : ((System.initial config).run before).replacesCommitted event = false) :
    currentResult (((System.initial config).run before).next event).fabric id = .ok r
      ∨ ((System.initial config).run before).enters id event = some r := by
  obtain ⟨e, he, hresult⟩ := currentResult_eq_ok.mp hr
  cases hreplaces : event.replaces with
  | false =>
    obtain ⟨x, hx, hxr⟩ := Option.bind_eq_some_iff.mp hresult
    have hclosed := reachable_decidedCloses config before id e x he hx r hxr
    refine .inl (currentResult_eq_ok.mpr ?_)
    obtain ⟨e', he', rfl | hwritten⟩ := (next_writes _ event).known id e he
    · exact ⟨e', he', hresult⟩
    · exact ⟨e', he', hwritten.keeps_result hreplaces hx hxr hclosed⟩
  | true =>
    cases event with
    | openExecution opened generation =>
      exact .inl (currentResult_eq_ok.mpr
        ⟨e, openExecution_keeps_committed he hresult hcommitted hkeep, hresult⟩)
    | defineEnsemble requested =>
      rw [enters_defineEnsemble]
      by_cases hdefines : defines ((System.initial config).run before).fabric requested id = true
      · exact .inr (by rw [if_pos hdefines, hr]; rfl)
      · exact .inl (currentResult_eq_ok.mpr
          ⟨e, defineEnsemble_of_not_defines he hdefines, hresult⟩)
    | _ => cases hreplaces

/-! ## Runs -/

/-- The history after a run: what was entered, as far as it is retained. -/
theorem run_history {s : System} {id : EnsembleId} {e : EnsembleRecord} (hnamed : Named s.fabric)
    (events : List Event) (he : s.fabric.find id = some e) :
    ∃ e', (s.run events).fabric.find id = some e' ∧ e'.history
      = (entered id s events).foldl (pushed s.fabric.config.limits.maxRetainedResults.toNat)
        e.history := by
  induction events generalizing s e with
  | nil => exact ⟨e, he, rfl⟩
  | cons event events ih =>
    obtain ⟨hconfig, hnamed', -⟩ := next_viewSteps rfl hnamed (allows_all _ s event) id
    obtain ⟨m, hm, hfirst⟩ := next_history hnamed he
    obtain ⟨e', he', hrest⟩ := ih hnamed' hm
    refine ⟨e', he', ?_⟩
    rw [hrest, hfirst, hconfig, ← List.foldl_append]
    rfl

/-- The result is on record, or has made way for as many later ones as the
history retains. -/
def Retained (config : FabricConfig) (before after : List Event) (id : EnsembleId)
    (r : EnsembleResult) : Prop :=
  OnRecord ((System.initial config).run (before ++ after)).fabric id r
    ∨ config.limits.maxRetainedResults.toNat
      ≤ ((entered id ((System.initial config).run before) after).filter (· ≠ r)).length

/-- In every run, a committed result stays the current one or stays in the
history of its ensemble, until the history is full of later results: as long
as no execution is opened in the place of one with a committed result. -/
theorem committed_results_retained (config : FabricConfig) (before after : List Event)
    (id : EnsembleId) (r : EnsembleResult)
    (hcurrent : currentResult ((System.initial config).run before).fabric id = .ok r)
    (hcommitted : r.decision = .committed)
    (hkeep : Along System.next (fun s event => s.replacesCommitted event = false)
      ((System.initial config).run before) after) :
    Retained config before after id r := by
  induction after generalizing before with
  | nil => exact .inl (.inl (by rw [List.append_nil]; exact hcurrent))
  | cons event after ih =>
    have hnext : ((System.initial config).run before).next event
        = (System.initial config).run (before ++ [event]) := by
      simp [System.run, run_append]
    have hrun : before ++ event :: after = before ++ [event] ++ after := by simp
    obtain ⟨hevent, hafter⟩ := hkeep
    rcases next_current hcurrent hcommitted hevent with hstays | henters
    · rw [hnext] at hstays hafter
      rcases ih (before ++ [event]) hstays hafter with hrecord | hfull
      · exact .inl (hrun ▸ hrecord)
      · refine .inr (hfull.trans (List.Sublist.length_le (List.Sublist.filter _ ?_)))
        rw [← hnext]
        exact List.sublist_append_right _ _
    · -- the result is the newest entry of the history from here on
      obtain ⟨e, he, -⟩ := currentResult_eq_ok.mp hcurrent
      obtain ⟨hconfig, hnamed⟩ := reachable_named config before
      obtain ⟨e', he', hhistory⟩ := run_history hnamed (event :: after) he
      have hentered : r ∈ entered id ((System.initial config).run before) (event :: after) :=
        List.mem_append_left _ (by rw [henters]; exact List.mem_singleton.mpr rfl)
      rw [hconfig] at hhistory
      replace hhistory := hhistory.trans (foldl_retainLast (List.ne_nil_of_mem hentered))
      rcases (mem_retainLast_or hentered : r ∈ retainLast _ (e.history ++ _) ∨ _) with hkept | hfull
      · refine .inl (.inr ⟨e', ?_, hhistory ▸ hkept⟩)
        rw [System.run, run_append]
        exact he'
      · exact .inr hfull

namespace Sample

/-- The lone participant submits, and the result is finalized. -/
def finalizedRun : List Event :=
  start loneSpec ++ [content 1 1 [7], advance, .finalize 0 ⟨1⟩ ⟨1⟩, .resume 0 ⟨1⟩, .resume 0 ⟨1⟩]

/-- The result the run committed. -/
def finalizedResult : EnsembleResult :=
  ((currentResult (reached finalizedRun).fabric ⟨1⟩).toOption).getD {}

def redefinition : Event := .defineEnsemble loneSpec

def nextExecution : Event := .openExecution ⟨1⟩ ⟨1⟩

end Sample

theorem finalizedResult_committed :
    currentResult (Sample.reached Sample.finalizedRun).fabric ⟨1⟩ = .ok Sample.finalizedResult
      ∧ Sample.finalizedResult.decision = .committed := by
  decide +kernel

/-- A redefinition moves a committed result to the history. -/
theorem redefined_result_retained :
    Retained {} Sample.finalizedRun [Sample.redefinition] ⟨1⟩ Sample.finalizedResult
      ∧ entered ⟨1⟩ (Sample.reached Sample.finalizedRun) [Sample.redefinition]
        = [Sample.finalizedResult] :=
  ⟨committed_results_retained {} _ _ _ _ finalizedResult_committed.1 finalizedResult_committed.2
    (by decide +kernel), by decide +kernel⟩

/-- The next execution takes the place of a committed one: its result is
neither current nor history. Opening asks for no redefinition. -/
theorem opened_over_committed :
    currentResult (Sample.reached Sample.finalizedRun).fabric ⟨1⟩ = .ok Sample.finalizedResult
      ∧ Sample.finalizedResult.decision = .committed
      ∧ ¬ Retained {} Sample.finalizedRun [Sample.nextExecution] ⟨1⟩ Sample.finalizedResult := by
  refine ⟨finalizedResult_committed.1, finalizedResult_committed.2, ?_⟩
  have hnone : (Sample.ensemble (Sample.finalizedRun ++ [Sample.nextExecution])).all (fun e =>
      (e.execution.bind (·.result)).isNone && e.history.isEmpty) = true
      ∧ entered ⟨1⟩ (Sample.reached Sample.finalizedRun) [Sample.nextExecution] = [] := by
    decide +kernel
  obtain ⟨hgone, hentered⟩ := hnone
  rw [Option.all_eq_true] at hgone
  rintro ((hcurrent | ⟨e, he, hhistory⟩) | hfull)
  · obtain ⟨e, he, hresult⟩ := currentResult_eq_ok.mp hcurrent
    simpa [hresult] using hgone e he
  · have hempty := (Bool.and_eq_true_iff.mp (hgone e he)).2
    rw [List.isEmpty_iff.mp hempty] at hhistory
    cases hhistory
  · rw [Sample.reached] at hentered
    rw [hentered] at hfull
    exact absurd hfull (by decide)

end EnsembleFabric
