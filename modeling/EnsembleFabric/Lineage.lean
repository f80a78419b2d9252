import EnsembleFabric.ExactlyOnce
import EnsembleFabric.Inheritance

/-!
# One winner

A commit, a cancellation and a supersession exclude each other: what comes
first is final for the execution, in that generation. The invariant is a
property of one execution, `Exclusive`, and the order in which the records of
an ensemble follow each other does the rest.

A recovery takes part in this. Its first critical section puts the stored
ensembles in the place of those of the runtime, so what was decided after the
file was saved is gone, and an execution may be opened again under the
identity of one that was cancelled (`cancelled_then_committed`). A file that
was saved after a decision has the decision in it. States that descend from
the decision, through operations and through files saved on the way, all
agree with it, however often and wherever they are recovered.

`Descends` is that relation. Its step is an operation of the runtime, or the
first section of a recovery of a file saved in a state that descends from the
same origin; the second section is an invalidation, which is an operation.
What descends from a state follows it, ensemble by ensemble
(`Descends.follows`), in the sense of `ExactlyOnce`: storing and adopting a
record drop what is not stored, and nothing of what was decided
(`reportedEnsemble_follows`).

`Arises` are the states of a runtime whose recoveries take up files of such
states, and the theorem is about all of them.
-/

namespace EnsembleFabric

open EventSystem
open Write (flat)

/-! ## Cancellation and supersession -/

/-- A result and a cancellation exclude each other, and an execution that
was cancelled before it had a result remembers the request. -/
structure Exclusive (x : ExecutionRecord) : Prop where
  decided : x.result.isSome = true → x.cancellationRequested = false
  requested : x.status = .cancelled → x.result = none → x.cancellationRequested = true

theorem ExecutionStep.exclusive {sc : Scope} {e : EnsembleRecord} {x x' : ExecutionRecord}
    (h : ExecutionStep sc e x x') (hx : Exclusive x) : Exclusive x' := by
  cases h with
  | bookkeeping same =>
    refine ⟨fun hr => ?_, fun hs hn => ?_⟩
    · rw [same.cancellationRequested]
      exact hx.decided (same.result ▸ hr)
    · rw [same.cancellationRequested]
      exact hx.requested (same.status ▸ hs) (same.result ▸ hn)
  | close before after =>
    refine ⟨hx.decided, fun hs _ => ?_⟩
    rcases after with rfl | rfl | rfl <;> cases hs
  | cancel undecided same =>
    refine ⟨fun hr => ?_, fun _ _ => same.cancellationRequested⟩
    rw [same.result, undecided] at hr
    cases hr
  | commit undecided allowed =>
    obtain ⟨hcancel, -⟩ := commitAllowed_eq_ok allowed
    refine ⟨fun _ => (storeResult_cancellationRequested ..).trans hcancel, fun _ hn => ?_⟩
    rw [storeResult_result] at hn
    cases hn
  | _ => exact ⟨hx.decided, hx.requested⟩

/-- The execution of an ensemble is exclusive. -/
def ExclusiveView (v : View) : Prop := OfExecution (fun _ x => Exclusive x) v

theorem Move.exclusive {sc : Scope} {v v' : View} (h : Move sc v v') (hv : ExclusiveView v) :
    ExclusiveView v' :=
  h.ofExecution (fun _ _ _ => ⟨fun _ => rfl, fun h => by cases h⟩) (fun h => h) (fun _ h => h)
    (fun h => h.exclusive) (fun _ h => ⟨h.decided, h.requested⟩)
    (fun _ _ h => ⟨h.decided, h.requested⟩) hv

theorem next_exclusive {s : System} (hnamed : Named s.fabric) (event : Event) {id : EnsembleId}
    (h : ExclusiveView (s.fabric.view id)) : ExclusiveView ((s.next event).fabric.view id) :=
  ViewStep.invariant Move.exclusive (fun h => h)
    (next_viewSteps rfl hnamed (allows_all _ s event) id).2.2 h

/-- A cancellation that succeeds leaves an execution without a result. -/
theorem cancelEnsemble_ok {f : Fabric} {id : EnsembleId} {generation : EnsembleGeneration}
    {reason : String} (hexclusive : ExclusiveView (f.view id))
    (h : (cancelEnsemble f id generation reason).2 = .ok ()) :
    ∃ e x, (cancelEnsemble f id generation reason).1.find id = some e
      ∧ e.spec.generation = generation ∧ e.execution = some x ∧ x.result = none
      ∧ x.cancellationRequested = true := by
  unfold cancelEnsemble at h ⊢
  split at h
  · cases h
  · rename_i e hfind
    split at h
    · cases h
    · rename_i hgen
      split at h
      · cases h
      · rename_i x hx
        split at h
        · cases h
        · rename_i hundecided
          have hnone : x.result = none := by simpa using hundecided
          rw [if_neg hgen]
          simp only [if_neg hundecided]
          split
          · rename_i hstatus
            exact ⟨e, x, hfind, not_not.mp hgen, hx, hnone,
              (hexclusive e x hfind hx).requested hstatus hnone⟩
          · exact ⟨_, _, Fabric.find_store_self .., not_not.mp hgen, rfl, hnone, rfl⟩

/-- A stored result makes a cancellation fail and change nothing. -/
theorem cancelEnsemble_decided {f : Fabric} {id : EnsembleId} {generation : EnsembleGeneration}
    {e : EnsembleRecord} {x : ExecutionRecord} (reason : String) (hfind : f.find id = some e)
    (hgen : e.spec.generation = generation) (hx : e.execution = some x)
    (hresult : x.result.isSome = true) :
    ∃ error, cancelEnsemble f id generation reason = (f, .error error) := by
  simp [cancelEnsemble, hfind, hgen, hx, hresult, fail]

theorem supersedeEnsemble_ok {f : Fabric} {id : EnsembleId} {generation : EnsembleGeneration}
    (h : (supersedeEnsemble f id generation).2 = .ok ()) :
    ∃ e, f.find id = some e ∧ e.spec.generation = generation
      ∧ (supersedeEnsemble f id generation).1.find id
        = some { e with superseded := true, execution := e.execution.map supersededExecution } := by
  unfold supersedeEnsemble at h ⊢
  split at h
  · cases h
  · rename_i e hfind
    split at h
    · cases h
    · rename_i hgen
      rw [if_neg hgen]
      exact ⟨e, hfind, not_not.mp hgen, Fabric.find_store_self ..⟩

@[simp] theorem supersededExecution_id (x : ExecutionRecord) :
    (supersededExecution x).id = x.id := by
  unfold supersededExecution
  split <;> rfl

@[simp] theorem supersededExecution_result (x : ExecutionRecord) :
    (supersededExecution x).result = x.result := by
  unfold supersededExecution
  split <;> rfl

/-! ## Recoveries -/

/-- What `recover_state` reads from a file, before it takes the lock. -/
def loadFile (limits : Limits) (content : List UInt8) : Outcome StoredState := do
  let (_, payload) ← readStateFile content limits
  let state ← decodeState payload limits
  return state.loaded

/-- `recover_state` takes up what it has read in its two critical sections. -/
theorem recoverState_loadFile (f : Fabric) (content : List UInt8) (boot : WorkerBootId) :
    recoverState f content boot = match loadFile f.config.limits content with
      | .error e => (f, .error e)
      | .ok stored => recoverTail f stored boot := by
  unfold recoverState loadFile
  cases readStateFile content f.config.limits with
  | error e => rfl
  | ok read =>
    obtain ⟨header, payload⟩ := read
    simp only [bind, Except.bind]
    cases decodeState payload f.config.limits with
    | error e => rfl
    | ok state => rfl

theorem loadFile_eq_ok {limits : Limits} {content : List UInt8} {stored : StoredState} :
    loadFile limits content = .ok stored
      ↔ ∃ state, Reads limits content state ∧ stored = state.loaded := by
  simp only [loadFile, Checks.bind_eq_ok, Checks.pure_eq_ok, Reads]
  constructor
  · rintro ⟨⟨header, payload⟩, hread, state, hdecoded, rfl⟩
    exact ⟨state, ⟨header, payload, hread, hdecoded⟩, rfl⟩
  · rintro ⟨state, ⟨header, payload, hread, hdecoded⟩, rfl⟩
    exact ⟨(header, payload), hread, state, hdecoded, rfl⟩

/-- The first critical section of `recover_state`, once the file is read; the
second is an invalidation, which is an event of its own. -/
def System.adopt (s : System) (stored : StoredState) (boot : WorkerBootId) : System :=
  { s with fabric := (adoptState s.fabric stored boot).1 }

/-- The state `s'` descends from `s`: operations lead from the one to the
other, and each recovery on the way, in whatever runtime it happens, takes up
a file that was saved in a state which descends from `s` as well. -/
inductive Descends (s : System) : System → Prop
  | self : Descends s s
  | called {s'} (before : Descends s s') (event : Event) : Descends s (s'.next event)
  | recovered {origin s' : System} {file : List UInt8} {stored : StoredState}
      (before : Descends s origin) (representable : origin.fabric.durable.Representable)
      (saved : saveState origin.fabric = .ok file)
      (loads : loadFile s'.fabric.config.limits file = .ok stored)
      (epoch : stored.epoch.value ≠ lastWord) (boot : WorkerBootId) :
      Descends s (s'.adopt stored boot)

/-- The states of a runtime whose recoveries take up files that were saved in
such states. A runtime that never recovers is one of them. -/
def Arises (s : System) : Prop := ∃ config, Descends (.initial config) s

theorem Descends.trans {a b c : System} (h : Descends a b) (h' : Descends b c) :
    Descends a c := by
  induction h' with
  | self => exact h
  | called _ event ih => exact .called ih event
  | recovered _ representable saved loads epoch boot ih =>
    exact .recovered ih representable saved loads epoch boot

theorem Descends.run {s s' : System} (h : Descends s s') (events : List Event) :
    Descends s (s'.run events) :=
  run_invariant (I := Descends s) (fun _ event h => .called h event) h

/-! ## What a recovery takes up -/

/-- An ensemble is found again as it was stored, with its reports computed
anew. -/
theorem adopt_find {origin : System} (hnamed : Named origin.fabric) {s : System}
    {file : List UInt8} {stored : StoredState} {boot : WorkerBootId}
    (hrepresentable : origin.fabric.durable.Representable)
    (hsaved : saveState origin.fabric = .ok file)
    (hloads : loadFile s.fabric.config.limits file = .ok stored)
    (hepoch : stored.epoch.value ≠ lastWord) (id : EnsembleId) :
    (s.adopt stored boot).fabric.find id
      = (origin.fabric.find id).map fun e => reportedEnsemble e.stored := by
  obtain ⟨state, hreads, rfl⟩ := loadFile_eq_ok.mp hloads
  obtain rfl := saved_reads hrepresentable hsaved hreads
  have hloaded := loaded_find hnamed id
  rw [System.adopt, adoptState, if_neg hepoch]
  simp only [Fabric.find, Std.TreeMap.getElem?_map] at hloaded ⊢
  rw [hloaded, Option.map_map]
  rfl

theorem reportedEnsemble_execution {e : EnsembleRecord} {x' : ExecutionRecord}
    (h : (reportedEnsemble e.stored).execution = some x') :
    ∃ x, e.execution = some x ∧ x' = computeReports e.stored x.stored := by
  obtain ⟨stored, hstored, rfl⟩ := Option.map_eq_some_iff.mp h
  obtain ⟨x, hx, rfl⟩ := Option.map_eq_some_iff.mp hstored
  exact ⟨x, hx, rfl⟩

/-- What is stored follows what it was stored from. -/
theorem reportedEnsemble_follows (e : EnsembleRecord) : Follows e (reportedEnsemble e.stored) := by
  refine .inr ⟨rfl, fun h => h, fun x hx => ?_⟩
  refine ⟨computeReports e.stored x.stored, ?_, .inr ⟨rfl, ?_⟩⟩
  · rw [reportedEnsemble, EnsembleRecord.stored, hx]
    rfl
  · exact ⟨fun _ h => h, fun h => h, fun _ h => h, fun _ h => h⟩

/-! ## What descends from a state -/

theorem Descends.named {s s' : System} (h : Descends s s') (hnamed : Named s.fabric) :
    Named s'.fabric := by
  induction h with
  | self => exact hnamed
  | called _ event ih => exact next_named ih event
  | recovered _ _ _ _ epoch => exact named_adopt epoch

theorem Descends.exclusive {s s' : System} (h : Descends s s') (hnamed : Named s.fabric)
    {id : EnsembleId} (hexclusive : ExclusiveView (s.fabric.view id)) :
    ExclusiveView (s'.fabric.view id) := by
  induction h with
  | self => exact hexclusive
  | called before event ih => exact next_exclusive (before.named hnamed) event ih
  | recovered before representable saved loads epoch boot ih =>
    intro e' x' he' hx'
    have hfind : (System.adopt _ _ boot).fabric.find id = some e' := he'
    rw [adopt_find (before.named hnamed) representable saved loads epoch] at hfind
    obtain ⟨e, he, rfl⟩ := Option.map_eq_some_iff.mp hfind
    obtain ⟨x, hx, rfl⟩ := reportedEnsemble_execution hx'
    have hx := ih e x he hx
    exact ⟨hx.decided, hx.requested⟩

/-- What descends from a state follows it, ensemble by ensemble. -/
theorem Descends.follows {s s' : System} (h : Descends s s') (hnamed : Named s.fabric)
    (id : EnsembleId) : ViewFollows (s.fabric.view id) (s'.fabric.view id) := by
  induction h with
  | self => exact .refl _
  | called before event ih =>
    exact ih.trans (run_follows (before.named hnamed) [event] id)
  | recovered before representable saved loads epoch boot ih =>
    refine ih.trans fun e he => ⟨reportedEnsemble e.stored, ?_, reportedEnsemble_follows e⟩
    have hfind : Fabric.find _ id = some e := he
    change (System.adopt _ _ boot).fabric.find id = _
    rw [adopt_find (before.named hnamed) representable saved loads epoch, hfind]
    rfl

theorem Arises.sound {s : System} (h : Arises s) :
    Named s.fabric ∧ ∀ id, ExclusiveView (s.fabric.view id) := by
  obtain ⟨config, hdescends⟩ := h
  refine ⟨hdescends.named (initial_named config), fun id =>
    hdescends.exclusive (initial_named config) ?_⟩
  rintro e x he
  cases he

/-! ## The winner -/

/-- In every state, recoveries included: no execution has a result and a
cancellation request; an execution whose cancellation succeeded, or that had
no result when its generation was superseded, has none in any state that
descends from there; and once an execution has a result, it has that result
wherever it is found in what descends, and cancelling it fails and changes
nothing. -/
theorem one_winner {s : System} (h : Arises s) :
    (∀ key x, s.executionOf key = some x → x.result.isSome = true →
        x.cancellationRequested = false)
      ∧ (∀ id generation reason,
          s.reply (.cancelEnsemble id generation reason) = .status (.ok ()) →
          ∃ x, (s.next (.cancelEnsemble id generation reason)).executionOf
              ⟨id, generation, x.id⟩ = some x
            ∧ ∀ s', Descends (s.next (.cancelEnsemble id generation reason)) s' →
              ∀ x', s'.executionOf ⟨id, generation, x.id⟩ = some x' → x'.result = none)
      ∧ (∀ id generation x, s.reply (.supersedeEnsemble id generation) = .status (.ok ()) →
          s.executionOf ⟨id, generation, x.id⟩ = some x → x.result = none →
          ∀ s', Descends (s.next (.supersedeEnsemble id generation)) s' →
            ∀ x', s'.executionOf ⟨id, generation, x.id⟩ = some x' → x'.result = none)
      ∧ (∀ key x r, s.executionOf key = some x → x.result = some r →
          ∀ s', Descends s s' → ∀ x' reason, s'.executionOf key = some x' →
            x'.result = some r
              ∧ (∃ error, s'.reply (.cancelEnsemble key.ensemble key.generation reason)
                  = .status (.error error))
              ∧ (s'.next (.cancelEnsemble key.ensemble key.generation reason)).executionOf key
                = some x') := by
  obtain ⟨hnamed, hexclusive⟩ := h.sound
  refine ⟨fun key x hx hr => ?_, fun id generation reason h => ?_,
    fun id generation x h hx hn s' hs' x' hx' => ?_,
    fun key x r hx hr s' hs' x' reason hx' => ?_⟩
  · obtain ⟨e, he, -, hexec, -⟩ := executionOf_eq_some.mp hx
    exact (hexclusive key.ensemble e x he hexec).decided hr
  · obtain ⟨e, x, he, hgen, hx, hnone, hrequested⟩ :=
      cancelEnsemble_ok (hexclusive id) (Response.status.inj h)
    have hcurrent : (s.next (.cancelEnsemble id generation reason)).executionOf
        ⟨id, generation, x.id⟩ = some x :=
      executionOf_eq_some.mpr ⟨e, he, hgen, hx, rfl⟩
    refine ⟨x, hcurrent, fun s' hs' x' hx' => ?_⟩
    obtain ⟨e', hpersists⟩ := (hs'.follows (next_named hnamed _) id).persists hcurrent hx' he
    exact hpersists.excludedByCancel hrequested hnone
  · obtain ⟨e, he, hgen, hwritten⟩ := supersedeEnsemble_ok (Response.status.inj h)
    obtain ⟨e₀, he₀, -, hexec, -⟩ := executionOf_eq_some.mp hx
    obtain rfl : e = e₀ := Option.some.inj (he.symm.trans he₀)
    have hcurrent : (s.next (.supersedeEnsemble id generation)).executionOf
        ⟨id, generation, x.id⟩ = some (supersededExecution x) :=
      executionOf_eq_some.mpr ⟨_, hwritten, hgen, by simp [hexec], supersededExecution_id x⟩
    obtain ⟨e', hpersists⟩ :=
      (hs'.follows (next_named hnamed _) id).persists hcurrent hx' hwritten
    exact hpersists.excludedBySupersede rfl ((supersededExecution_result x).trans hn)
  · obtain ⟨e, he, -⟩ := executionOf_eq_some.mp hx
    obtain ⟨e', hpersists⟩ := (hs'.follows hnamed key.ensemble).persists hx hx' he
    have hstored := hpersists.stored r hr
    obtain ⟨e₁, he₁, hgen₁, hx₁, hid₁⟩ := executionOf_eq_some.mp hx'
    obtain ⟨error, hcancel⟩ :=
      cancelEnsemble_decided reason he₁ hgen₁ hx₁ (by rw [hstored]; rfl)
    refine ⟨hstored, ⟨error, ?_⟩, ?_⟩
    · simp [System.reply, System.step, System.answer, hcancel]
    · simpa [System.next, System.step, System.answer, hcancel] using hx'

/-! ## Runs with a recovery -/

/-- What was saved is loaded. -/
theorem decoded_loads {f : Fabric} (hrecords : 1 ≤ f.config.limits.maxRecordsPerSnapshot)
    (hrepresentable : f.durable.Representable)
    (hsize : (flat (putState f.config.limits f.durable)).length
      ≤ f.config.limits.maxPersistenceBytes.toNat)
    (hdecoded : (decodeState (flat (putState f.config.limits f.durable))
      f.config.limits).isOk = true) :
    ∃ file, saveState f = .ok file
      ∧ loadFile f.config.limits file = .ok f.durable.stored.loaded := by
  obtain ⟨file, hsaved, hreads⟩ := decoded_reads hrecords hrepresentable hsize hdecoded
  exact ⟨file, hsaved, loadFile_eq_ok.mpr ⟨_, hreads, rfl⟩⟩

namespace Sample

/-- An ensemble is defined and its only participant is seated. -/
def seatedLone : List Event := [.defineEnsemble loneSpec, register 1]

/-- Its execution is opened, and then cancelled. -/
def openedLone : List Event := seatedLone ++ [.openExecution ⟨1⟩ ⟨1⟩, advance]

def cancelledLone : List Event := openedLone ++ [.cancelEnsemble ⟨1⟩ ⟨1⟩ "stop"]

/-- A recovery goes on with its second section, and the ensemble starts anew:
the participant is seated under the second epoch, the execution is opened, and
its candidate `c` is answered and finalized. -/
def startedAnew (c : UInt64) : List Event :=
  [.invalidateDynamicAuthority recoveryReason,
    .registerParticipant
      { ensemble := ⟨1⟩, ensembleGeneration := ⟨1⟩, participant := ⟨1⟩, worker := ⟨1⟩
        workerBoot := ⟨1⟩, coordinatorEpoch := ⟨2⟩ },
    .openExecution ⟨1⟩ ⟨1⟩, advance,
    .submitCandidate
      { authority :=
          { candidateAuthority 1 c with
            participant :=
              { authority 1 with participantGeneration := ⟨2⟩, coordinatorEpoch := ⟨2⟩ } }
        payload := [7] },
    advance, .finalize 0 ⟨1⟩ ⟨1⟩, .resume 0 ⟨1⟩, .resume 0 ⟨1⟩]

/-- The execution that was cancelled. -/
def loneKey : ExecutionKey := ⟨⟨1⟩, ⟨1⟩, ⟨1⟩⟩

end Sample

/-- The state of an unused runtime after a run, saved and read again. -/
theorem sample_loads (events : List Event)
    (hsound : (Sample.reached events).fabric.durable.Representable
      ∧ (flat (putState {} (Sample.reached events).fabric.durable)).length
        ≤ ({} : Limits).maxPersistenceBytes.toNat
      ∧ (decodeState (flat (putState {} (Sample.reached events).fabric.durable)) {}).isOk
        = true) :
    ∃ file, saveState (Sample.reached events).fabric = .ok file
      ∧ ∀ s : System, s.fabric.config.limits = {} → loadFile s.fabric.config.limits file
        = .ok (Sample.reached events).fabric.durable.stored.loaded := by
  have hlimits : (Sample.reached events).fabric.config.limits = {} := by
    rw [Sample.reached, (reachable_named {} events).1]
  obtain ⟨hrepresentable, hsize, hdecoded⟩ := hsound
  generalize (Sample.reached events).fabric = f at *
  rw [← hlimits] at hsize hdecoded
  obtain ⟨file, hsaved, hloads⟩ :=
    decoded_loads (by rw [hlimits]; decide) hrepresentable hsize hdecoded
  refine ⟨file, hsaved, fun s hs => ?_⟩
  rw [hs, ← hlimits]
  exact hloads

/-- The execution of the run is cancelled on request. -/
theorem openedLone_cancels :
    (Sample.reached Sample.openedLone).reply (.cancelEnsemble ⟨1⟩ ⟨1⟩ "stop")
      = .status (.ok ()) := by
  have hcancels : (cancelEnsemble (Sample.reached Sample.openedLone).fabric ⟨1⟩ ⟨1⟩ "stop").2
      = .ok () := by
    decide +kernel
  generalize Sample.reached Sample.openedLone = s at *
  exact congrArg Response.status hcancels

/-- A cancellation succeeds, a file that was saved before it is recovered, and
the execution of the same name gets a result. -/
theorem cancelled_then_committed :
    ∃ file stored, saveState (Sample.reached Sample.seatedLone).fabric = .ok file
      ∧ (Sample.reached Sample.openedLone).reply (.cancelEnsemble ⟨1⟩ ⟨1⟩ "stop")
        = .status (.ok ())
      ∧ ((Sample.reached Sample.cancelledLone).executionOf Sample.loneKey).isSome = true
      ∧ loadFile (Sample.reached Sample.cancelledLone).fabric.config.limits file = .ok stored
      ∧ stored.epoch.value ≠ lastWord
      ∧ ((((Sample.reached Sample.cancelledLone).adopt stored ⟨2⟩).run
          (Sample.startedAnew 2)).executionOf Sample.loneKey).any (·.result.isSome) = true := by
  obtain ⟨file, hsaved, hloads⟩ := sample_loads Sample.seatedLone (by decide +kernel)
  have hlimits : (Sample.reached Sample.cancelledLone).fabric.config.limits = {} := by
    rw [Sample.reached, (reachable_named {} Sample.cancelledLone).1]
  have hknown : ((Sample.reached Sample.cancelledLone).executionOf Sample.loneKey).isSome
      = true := by
    decide +kernel
  have hepoch : (Sample.reached Sample.seatedLone).fabric.durable.stored.loaded.epoch.value
      ≠ lastWord := by
    decide +kernel
  have hcommitted : ((((Sample.reached Sample.cancelledLone).adopt
      (Sample.reached Sample.seatedLone).fabric.durable.stored.loaded ⟨2⟩).run
        (Sample.startedAnew 2)).executionOf Sample.loneKey).any (·.result.isSome) = true := by
    decide +kernel
  exact ⟨file, _, hsaved, openedLone_cancels, hknown, hloads _ hlimits, hepoch, hcommitted⟩

/-- The cancelled state is saved and a fresh runtime recovers it. The execution
is found again, and never gets a result. -/
theorem cancelled_lone_stays :
    ∃ s', Descends (Sample.reached Sample.cancelledLone) s'
      ∧ s'.fabric.core.epoch = ⟨2⟩
      ∧ (s'.executionOf Sample.loneKey).isSome = true
      ∧ ∀ s'', Descends s' s'' → ∀ x', s''.executionOf Sample.loneKey = some x' →
          x'.result = none := by
  obtain ⟨file, hsaved, hloads⟩ := sample_loads Sample.cancelledLone (by decide +kernel)
  have hrepresentable : (Sample.reached Sample.cancelledLone).fabric.durable.Representable := by
    decide +kernel
  have hepoch : (Sample.reached Sample.cancelledLone).fabric.durable.stored.loaded.epoch.value
      ≠ lastWord := by
    decide +kernel
  have hdescends : Descends (Sample.reached Sample.cancelledLone)
      ((System.initial {}).adopt
        (Sample.reached Sample.cancelledLone).fabric.durable.stored.loaded ⟨2⟩) :=
    .recovered .self hrepresentable hsaved (hloads (.initial {}) rfl) hepoch ⟨2⟩
  have harises : Arises (Sample.reached Sample.openedLone) :=
    ⟨{}, Descends.self.run Sample.openedLone⟩
  obtain ⟨-, hcancelled, -⟩ := one_winner harises
  obtain ⟨x, hx, hnever⟩ := hcancelled ⟨1⟩ ⟨1⟩ "stop" openedLone_cancels
  have hnext : (Sample.reached Sample.openedLone).next (.cancelEnsemble ⟨1⟩ ⟨1⟩ "stop")
      = Sample.reached Sample.cancelledLone := run_next ..
  have hnamed : ((Sample.reached Sample.cancelledLone).fabric.find ⟨1⟩).all
      (fun e => e.execution.all fun x => x.id == ⟨1⟩) = true := by
    decide +kernel
  have hknown : (((System.initial {}).adopt
      (Sample.reached Sample.cancelledLone).fabric.durable.stored.loaded ⟨2⟩).executionOf
        Sample.loneKey).isSome = true := by
    decide +kernel
  have hepoch' := @adoptState_epoch (Fabric.create {}) _ ⟨2⟩ hepoch
  rw [hnext] at hx hnever
  obtain ⟨e, he, -, hexecution, -⟩ := executionOf_eq_some.mp hx
  rw [he, Option.all_some, hexecution, Option.all_some, beq_iff_eq] at hnamed
  rw [hnamed] at hnever
  exact ⟨_, hdescends, hepoch'.trans (by decide +kernel), hknown, fun s'' hs'' x' hx' =>
    hnever s'' (hdescends.trans hs'') x' hx'⟩

end EnsembleFabric
