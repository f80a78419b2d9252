import EnsembleFabric.Delivery
import EnsembleFabric.Inheritance
import EnsembleFabric.Retention
import EnsembleFabric.Storage

/-!
# Durable results

A coordinator answers a finalize request with the result before it saves its
state: the file is written at the end of the batch, by `maybe_persist`. When
that save succeeds the result is in the file, and every coordinator that is
started over the file has it on record. It stays there, in the file and in
the coordinators that run over it, through crashes and saves that fail, until
somebody redefines the ensemble or opens another execution of it
(`announced_result_survives`).

A save that fails is not repeated. Where all saves succeed, the file of a
coordinator with nothing left to save says what its runtime says of results
(`clean_state_recovered`).

`Upkeep` is what a coordinator does to results between two saves: none gets
lost but those of the ensembles that are renewed, and the state is marked
dirty whenever they change. It is checked for every frame and every round of
`pump` with the rules of `Serving`. `Holds` is then an invariant of the
histories of a site: the file and the coordinator over it have the result.
`Mirrors` and `Current` are the same for all results at once, and need every
save that is due to succeed.
-/

namespace EnsembleFabric

open EventSystem

/-! ## Results on record -/

/-- The results of an ensemble: the current one first, then the history. -/
def EnsembleRecord.results (e : EnsembleRecord) : List EnsembleResult :=
  (e.execution.bind (·.result)).toList ++ e.history

def Fabric.results (f : Fabric) (id : EnsembleId) : List EnsembleResult :=
  (f.find id).elim [] EnsembleRecord.results

theorem mem_results {f : Fabric} {id : EnsembleId} {r : EnsembleResult} :
    r ∈ f.results id ↔ OnRecord f id r := by
  rw [OnRecord, currentResult_eq_ok, Fabric.results]
  cases f.find id with
  | none => simp
  | some e => simp [EnsembleRecord.results]

theorem results_of_find {f f' : Fabric} {id : EnsembleId} (h : f'.find id = f.find id) :
    f'.results id = f.results id := by
  rw [Fabric.results, Fabric.results, h]

/-- The event redefines the ensemble, or opens an execution of it. -/
def Fabric.renewedBy (f : Fabric) (id : EnsembleId) : Event → Bool
  | .defineEnsemble requested => defines f requested id
  | .openExecution opened _ => opened == id
  | _ => false

/-- The event touches no results. -/
def Event.sparesResults : Event → Bool
  | .defineEnsemble _ | .openExecution _ _ | .commitResult _ | .finalize _ _ _ | .resume _ _ =>
      false
  | _ => true

theorem results_holding {e e' : EnsembleRecord} {x x' : ExecutionRecord}
    (hx : e.execution = some x) (hresult : x'.result = x.result)
    (hhistory : e'.history = e.history) : (e'.holding x').results = e.results := by
  rw [EnsembleRecord.results, EnsembleRecord.results, hx]
  change x'.result.toList ++ e'.history = x.result.toList ++ e.history
  rw [hresult, hhistory]

theorem results_map {e e' : EnsembleRecord} {change : ExecutionRecord → ExecutionRecord}
    (hexecution : e'.execution = e.execution.map change)
    (h : ∀ x, (change x).result = x.result) (hhistory : e'.history = e.history) :
    e'.results = e.results := by
  rw [EnsembleRecord.results, EnsembleRecord.results, hexecution, hhistory]
  cases e.execution with
  | none => rfl
  | some x => rw [Option.map_some, Option.bind_some, Option.bind_some, h]

/-- Apart from redefinitions and new executions, an event keeps the results,
or adds the one it commits. -/
theorem Written.results {s : System} {event : Event} {id : EnsembleId} {e e' : EnsembleRecord}
    (h : Written s event id e e') (hdefine : ∀ requested, event ≠ .defineEnsemble requested)
    (hopen : event ≠ .openExecution id e.spec.generation) :
    e'.results = e.results
      ∨ (s.submitted event).isSome = true ∧ ∃ r, e'.results = r :: e.results := by
  cases h with
  | redefined defines =>
    obtain ⟨requested, rfl⟩ := defines
    exact absurd rfl (hdefine requested)
  | started opens => exact absurd opens hopen
  | superseded => exact .inl (results_map rfl (fun x => (supersededExecution_record x).result) rfl)
  | seated _ at_ =>
    obtain rfl := at_.ensemble
    exact .inl rfl
  | withdrawn _ before | closed _ before | reported _ before | attempted _ before
  | cancelled _ before => exact .inl (results_holding before rfl rfl)
  | @advanced x _ _ before _ _ result =>
    subst result
    obtain ⟨-, hrecord, hhistory⟩ :=
      advanceOpen_unrecorded s.fabric.config.limits s.fabric.core e x
    exact .inl (results_holding before hrecord.result hhistory)
  | received _ accept ensemble | abstained _ accept ensemble | retried _ accept ensemble
  | dropped _ accept ensemble =>
    subst ensemble
    exact .inl (results_holding (acceptCandidate_eq_ok accept).1.fenced.execution rfl rfl)
  | evaluated _ accept ensemble =>
    subst ensemble
    exact .inl (results_holding (acceptEvaluation_eq_ok accept).execution rfl rfl)
  | lost _ _ ensemble =>
    subst ensemble
    exact .inl rfl
  | @released _ seat kind detail x _ _ ensemble before =>
    subst ensemble
    obtain ⟨hrecord, hhistory⟩ := handleParticipantFailure_record
      (seat.write (lostParticipant seat.participant kind detail)) x
      (lostParticipant seat.participant kind detail) kind detail
    refine .inl (results_holding before ?_ hhistory)
    split <;> exact hrecord.result
  | invalidated =>
    exact .inl (results_map rfl (fun x => (invalidatedExecution_record _ x).result) rfl)
  | @stored r x resultId sequence submits stores =>
    obtain ⟨htarget, hnone, -⟩ := storesIn_eq_some.mp stores
    have hbefore : e.results = e.history := by
      rw [EnsembleRecord.results, (commitTarget_eq_ok htarget).execution, Option.bind_some, hnone]
      rfl
    refine .inr ⟨by rw [submits]; rfl, (storeResult s.fabric.config.limits e
      { x with commitAttempts := x.commitAttempts + 1 } (stampedResult r resultId sequence)).2, ?_⟩
    rw [hbefore, EnsembleRecord.results]
    change (storeResult ..).1.result.toList ++ e.history = _
    rw [storeResult_result]
    rfl

section Calls

variable {f : Fabric} {event : Event}

/-- A new ensemble has no results. -/
theorem results_entered {f' : Fabric} {id : EnsembleId} (hnone : f.find id = none)
    (h : f'.find id = none
      ∨ ∃ spec, Admitted f.config.limits spec ∧ f'.find id = some (newRecord spec)) :
    f'.results id = f.results id := by
  rw [Fabric.results, Fabric.results, hnone]
  rcases h with h | ⟨spec, -, h⟩
  · rw [h]
  · rw [h]
    rfl

theorem after_results (event : Event) (h : event.sparesResults = true) (id : EnsembleId) :
    (f.after event).results id = f.results id := by
  have hwrites := next_writes { fabric := f } event
  have hsubmitted : System.submitted { fabric := f } event = none := by
    cases event with
    | commitResult | resume => cases h
    | _ => rfl
  cases he : f.find id with
  | none => exact results_entered he (hwrites.entered id he)
  | some e =>
    obtain ⟨e', he', rfl | hwritten⟩ := hwrites.known id e he
    · exact results_of_find (he'.trans he.symm)
    · rcases hwritten.results (by rintro _ rfl; cases h) (by rintro rfl; cases h) with hsame | hnew
      · rw [Fabric.results, Fabric.results, he]
        change (((System.next { fabric := f } event).fabric.find id).elim [] _) = _
        rw [he']
        exact hsame
      · rw [hsubmitted] at hnew
        cases hnew.1

/-- A definition that is refused changes no ensemble. -/
theorem defineEnsemble_refused {requested : EnsembleSpec} {error : Error}
    (h : (defineEnsemble f requested).2 = .error error) (id : EnsembleId) :
    (defineEnsemble f requested).1.find id = f.find id := by
  unfold defineEnsemble at h ⊢
  split at h
  · rfl
  · simp only at h ⊢
    split at h
    · rfl
    · split at h
      · cases h
      · split at h <;> cases h

theorem openExecution_refused {opened : EnsembleId} {generation : EnsembleGeneration}
    {error : Error} (h : (openExecution f opened generation).2 = .error error) (id : EnsembleId) :
    (openExecution f opened generation).1.find id = f.find id := by
  revert h
  unfold openExecution
  repeat' split
  all_goals first | exact fun _ => rfl | exact fun h => by cases h

/-- What an ensemble has on record stays, unless it is renewed. -/
theorem results_kept {id : EnsembleId} (h : f.renewedBy id event = false) :
    f.results id ⊆ (f.after event).results id := by
  cases he : f.find id with
  | none =>
    rw [Fabric.results, he]
    exact List.nil_subset _
  | some e =>
    have hkept : ∀ e', (f.after event).find id = some e' → e.results ⊆ e'.results →
        f.results id ⊆ (f.after event).results id := by
      intro e' he' hsubset
      rw [Fabric.results, Fabric.results, he, he']
      exact hsubset
    by_cases hdefine : ∃ requested, event = .defineEnsemble requested
    · obtain ⟨requested, rfl⟩ := hdefine
      refine hkept e (defineEnsemble_of_not_defines he ?_) (List.Subset.refl _)
      rw [show defines f requested id = false from h]
      exact Bool.false_ne_true
    · obtain ⟨e', he', rfl | hwritten⟩ := (next_writes { fabric := f } event).known id e he
      · exact hkept e' he' (List.Subset.refl _)
      · refine hkept e' he' ?_
        have hopen : event ≠ .openExecution id e.spec.generation := by
          rintro rfl
          simp [Fabric.renewedBy] at h
        rcases hwritten.results (fun requested heq => hdefine ⟨requested, heq⟩) hopen
          with hsame | ⟨-, r, hnew⟩
        · rw [hsame]
          exact List.Subset.refl _
        · rw [hnew]
          exact List.subset_cons_self ..

end Calls

/-! ## Attributed results -/

/-- Ensembles are found under their identities, and results name the execution
that holds them. -/
structure Fabric.Attributed (f : Fabric) : Prop where
  named : Named f
  results : ∀ id, OfExecution NamesItsExecution (f.view id)

theorem Fabric.Attributed.after {f : Fabric} (h : f.Attributed) (event : Event) :
    (f.after event).Attributed := by
  refine ⟨next_named h.named event, fun id => ?_⟩
  obtain ⟨-, -, hsteps⟩ := next_viewSteps (s := { fabric := f }) rfl h.named
    (allows_all _ { fabric := f } event) id
  refine ViewStep.invariant (fun hmove hv => hmove.ofExecution (fun _ _ _ _ hr => by cases hr)
    (fun h => h) (fun _ h => h) (fun hstep h => hstep.namesItsExecution h) (fun _ h => h)
    (fun _ _ h => h) hv) (fun hv => hv) hsteps (h.results id)

theorem attributed_create (config : FabricConfig) : (Fabric.create config).Attributed :=
  ⟨fun _ _ he => (by cases he), fun _ _ _ he => by cases he⟩

theorem attributed_invalidate {f : Fabric} (h : f.Attributed) (reason : String) :
    (invalidateDynamicAuthority f reason).Attributed :=
  h.after (.invalidateDynamicAuthority reason)

/-! ## What the coordinator does -/

/-- The request of a frame to define an ensemble or to open an execution. -/
def Frame.renewal? (limits : Limits) (frame : Frame) : Option Event :=
  match frame.type with
  | .defineEnsemble =>
      match Coordinator.decodeFront decodeDefineEnsemble frame with
      | .ok m => (decodeSpec m.encodedSpec limits).toOption.map .defineEnsemble
      | .error _ => none
  | .openExecution =>
      (Coordinator.decodeFront decodeOpenExecution frame).toOption.map fun m =>
        .openExecution m.ensemble m.ensembleGeneration
  | _ => none

namespace Coordinator

/-- The event asks for a redefinition of the ensemble, or for an execution of
it. -/
def renews (s : Coordinator) (id : EnsembleId) : CoordinatorEvent → Bool
  | .frame _ frame => (frame.renewal? s.limits).any (s.fabric.renewedBy id)
  | _ => false

/-- From `s` to `s'` no result gets lost but those of ensembles in `T`, and the
state is marked dirty when the results change. -/
structure Upkeep (T : EnsembleId → Prop) (s s' : Coordinator) : Prop where
  config : s'.config = s.config
  attributed : s.fabric.Attributed → s'.fabric.Attributed
  dirty : s.stateDirty = true → s'.stateDirty = true
  clean : s'.stateDirty = false → ∀ id, s'.fabric.results id = s.fabric.results id
  kept : ∀ id, ¬ T id → s.fabric.results id ⊆ s'.fabric.results id

section Upkeep

variable {T : EnsembleId → Prop} {s s' : Coordinator} {c : Connection} {frame : Frame}

namespace Upkeep

theorem trans {s'' : Coordinator} (h : Upkeep T s s') (h' : Upkeep T s' s'') :
    Upkeep T s s'' where
  config := h'.config.trans h.config
  attributed := fun hs => h'.attributed (h.attributed hs)
  dirty := fun hs => h'.dirty (h.dirty hs)
  clean := by
    intro hclean id
    have hbefore : s'.stateDirty = false := by
      cases hdirty : s'.stateDirty with
      | false => rfl
      | true => rw [h'.dirty hdirty] at hclean; cases hclean
    exact (h'.clean hclean id).trans (h.clean hbefore id)
  kept := fun id hid => List.Subset.trans (h.kept id hid) (h'.kept id hid)

/-- Nothing happens to the runtime. -/
theorem same (hconfig : s'.config = s.config) (hfabric : s'.fabric = s.fabric)
    (hdirty : s'.stateDirty = s.stateDirty) : Upkeep T s s' where
  config := hconfig
  attributed := fun h => hfabric ▸ h
  dirty := fun h => hdirty ▸ h
  clean := fun _ id => by rw [hfabric]
  kept := fun id _ => by rw [hfabric]; exact List.Subset.refl _

theorem refl (s : Coordinator) : Upkeep T s s := same rfl rfl rfl

theorem sent (connection : UInt64) (frame : Frame) : Upkeep T s (s.sendFrame connection frame) :=
  same rfl rfl rfl

/-- A call that touches no results. -/
theorem call {e : Event} (h : e.sparesResults = true) :
    Upkeep T s (s.withFabric (s.fabric.after e)) where
  config := rfl
  attributed := fun hs => hs.after e
  dirty := fun hs => hs
  clean := fun _ id => after_results e h id
  kept := fun id _ => (after_results e h id) ▸ List.Subset.refl _

/-- A call that changes results, and marks the state dirty. -/
theorem dirtied {fabric : Fabric} (hattributed : s.fabric.Attributed → fabric.Attributed)
    (h : ∀ id, ¬ T id → s.fabric.results id ⊆ fabric.results id) :
    Upkeep T s (s.withFabric fabric).markDirty where
  config := rfl
  attributed := hattributed
  dirty := fun _ => rfl
  clean := fun h => by cases h
  kept := h

theorem marked (s : Coordinator) : Upkeep T s s.markDirty :=
  dirtied (fun h => h) fun _ _ => List.Subset.refl _

/-- A call that is refused and changes no ensemble. -/
theorem refused {fabric : Fabric} (h : Upkeep T s (s.withFabric fabric).markDirty)
    (hfind : ∀ id, fabric.find id = s.fabric.find id) : Upkeep T s (s.withFabric fabric) where
  config := rfl
  attributed := h.attributed
  dirty := fun hs => hs
  clean := fun _ id => results_of_find (hfind id)
  kept := h.kept

end Upkeep

theorem transport_upkeep (a : FabricAction) : Upkeep T s (s.transport a) := by
  cases a with
  | dispatch a =>
    rw [transport]
    split
    · exact (Upkeep.call (e := .reportParticipantFailure (s.unroutedAuthority a) .unavailable
        "no authoritative connection for dispatch") rfl).trans (.same rfl rfl rfl)
    · exact .same rfl rfl rfl
  | evaluate a =>
    rw [transport]
    split
    · exact .refl s
    · exact .same rfl rfl rfl
  | cancel a =>
    rw [transport]
    split
    · exact .refl s
    · exact .same rfl rfl rfl
  | fallback a => exact .refl s

theorem transports_upkeep (actions : List FabricAction) :
    Upkeep T s (actions.foldl transport s) := by
  induction actions generalizing s with
  | nil => exact .refl s
  | cons a actions ih => exact (transport_upkeep a).trans ih

theorem pumpRounds_upkeep (rounds : Nat) (id : EnsembleId) :
    Upkeep T s (pumpRounds rounds s id) := by
  induction rounds generalizing s with
  | zero => exact .refl s
  | succ rounds ih =>
    rw [pumpRounds]
    split
    · exact .refl s
    · rename_i e _
      have hadvanced : Upkeep T s (s.withFabric (advance s.fabric id e.spec.generation).1) :=
        .call (e := .advance id e.spec.generation) rfl
      split
      · rename_i heq
        rwa [heq] at hadvanced
      · rename_i heq
        rwa [heq] at hadvanced
      · rename_i heq
        rw [heq] at hadvanced
        exact (hadvanced.trans (transports_upkeep _)).trans ih

theorem pump_upkeep (id : EnsembleId) : Upkeep T s (s.pump id) := pumpRounds_upkeep 8 id

theorem pumpAll_upkeep : Upkeep T s s.pumpAll := by
  rw [pumpAll]
  generalize listEnsembles s.fabric = ids
  induction ids generalizing s with
  | nil => exact .refl s
  | cons id ids ih => exact (pump_upkeep id).trans ih

theorem reportLosts_upkeep (authorities : List ParticipantAuthority) :
    Upkeep T s (authorities.foldl reportLost s) := by
  induction authorities generalizing s with
  | nil => exact .refl s
  | cons a authorities ih =>
    exact (Upkeep.call (e := .reportParticipantFailure a .unavailable
      "worker process connection closed") rfl).trans ih

theorem loseIn_upkeep (epoch : CoordinatorEpoch) (id : EnsembleId) :
    Upkeep T s (loseIn c epoch s id) := by
  rw [loseIn]
  split
  · exact .refl s
  · exact (reportLosts_upkeep _).trans (pump_upkeep id)

theorem handleConnectionLoss_upkeep : Upkeep T s (s.handleConnectionLoss c) := by
  rw [handleConnectionLoss]
  split
  · exact .refl s
  · generalize listEnsembles s.fabric = ids
    generalize s.fabric.core.epoch = epoch
    induction ids generalizing s with
    | nil => exact .refl s
    | cons id ids ih => exact (loseIn_upkeep epoch id).trans ih

/-! ### Frames -/

theorem onMessage_upkeep {α : Type} {message : Outcome α} {handle : α → Coordinator}
    (h : ∀ m, message = .ok m → Upkeep T s (handle m)) :
    Upkeep T s (s.onMessage c frame message handle) := by
  cases message with
  | error error => exact .sent ..
  | ok m => exact h m rfl

theorem handleRegister_upkeep (m : RegisterParticipantMessage) :
    Upkeep T s (s.handleRegister c frame m) := by
  have hcall : Upkeep T s (s.withFabric
      (registerParticipant s.fabric (connectionRegistration c m.registration)).1) :=
    .call (e := .registerParticipant (connectionRegistration c m.registration)) rfl
  rw [handleRegister]
  simp only
  split
  · refine hcall.trans (Upkeep.trans ?_ pumpAll_upkeep)
    exact (Upkeep.marked _).trans (.same rfl rfl rfl)
  · exact hcall.trans (.sent ..)

/-- The results of the ensembles that are not renewed stay on record. -/
theorem dirtied_by {e : Event} (hT : ∀ id, s.fabric.renewedBy id e = true → T id) :
    Upkeep T s (s.withFabric (s.fabric.after e)).markDirty :=
  .dirtied (fun h => h.after e) fun id hid =>
    results_kept (Bool.eq_false_iff.mpr fun h => hid (hT id h))

theorem handleDefineEnsemble_upkeep {m : DefineEnsembleMessage}
    (hT : ∀ spec id, decodeSpec m.encodedSpec s.limits = .ok spec →
      s.fabric.renewedBy id (.defineEnsemble spec) = true → T id) :
    Upkeep T s (s.handleDefineEnsemble c frame m) := by
  rw [handleDefineEnsemble]
  split
  · exact .sent ..
  · rename_i spec hspec
    have hdirtied : Upkeep T s (s.withFabric (defineEnsemble s.fabric spec).1).markDirty :=
      dirtied_by (e := .defineEnsemble spec) fun id => hT spec id hspec
    simp only
    split
    · exact hdirtied.trans (.sent ..)
    · rename_i error herror
      have hrefused : Upkeep T s (s.withFabric (defineEnsemble s.fabric spec).1) :=
        .refused hdirtied fun id => defineEnsemble_refused herror id
      exact hrefused.trans (.sent ..)

theorem handleOpenExecution_upkeep {m : OpenExecutionMessage}
    (hT : ∀ id, s.fabric.renewedBy id (.openExecution m.ensemble m.ensembleGeneration) = true →
      T id) :
    Upkeep T s (s.handleOpenExecution c frame m) := by
  have hdirtied : Upkeep T s
      (s.withFabric (openExecution s.fabric m.ensemble m.ensembleGeneration).1).markDirty :=
    dirtied_by (e := .openExecution m.ensemble m.ensembleGeneration) hT
  rw [handleOpenExecution]
  simp only
  split
  · exact (hdirtied.trans (.sent ..)).trans (pump_upkeep _)
  · rename_i error herror
    have hrefused : Upkeep T s
        (s.withFabric (openExecution s.fabric m.ensemble m.ensembleGeneration).1) :=
      .refused hdirtied fun id => openExecution_refused herror id
    exact hrefused.trans (.sent ..)

theorem handleCancelEnsemble_upkeep (m : CancelEnsembleMessage) :
    Upkeep T s (s.handleCancelEnsemble c frame m) := by
  have hcall : Upkeep T s (s.withFabric
      (cancelEnsemble s.fabric m.ensemble m.ensembleGeneration (bytesText m.reason)).1) :=
    .call (e := .cancelEnsemble m.ensemble m.ensembleGeneration (bytesText m.reason)) rfl
  rw [handleCancelEnsemble]
  simp only
  split
  · exact hcall.trans (((pump_upkeep _).trans (.sent ..)).trans (.marked _))
  · exact hcall.trans ((Upkeep.sent ..).trans (.marked _))

theorem handleInspectRequest_upkeep (m : InspectRequestMessage) :
    Upkeep T s (s.handleInspectRequest c frame m) := by
  rw [handleInspectRequest]
  split
  · exact .sent ..
  · exact .sent ..

theorem submitted_upkeep {α : Type} {e : Event} {a : ParticipantAuthority}
    {result : Fabric × Outcome α} (hspares : e.sparesResults = true)
    (hresult : result.1 = s.fabric.after e) :
    Upkeep T s (s.submitted c frame a result) := by
  have hcall : Upkeep T s (s.withFabric result.1) := by
    rw [hresult]
    exact .call hspares
  have hnoted : Upkeep T s ((s.withFabric result.1).note (.submitted c a result.2.isOk)) :=
    hcall.trans (.same rfl rfl rfl)
  rw [submitted]
  split
  · exact hnoted.trans (pump_upkeep _)
  · exact hnoted.trans ((Upkeep.sent ..).trans (pump_upkeep _))

theorem handleFrame_upkeep
    (hT : ∀ event id, frame.renewal? s.limits = some event →
      s.fabric.renewedBy id event = true → T id) :
    Upkeep T s (s.handleFrame c frame) := by
  rw [handleFrame]
  split
  · exact onMessage_upkeep fun m _ => .same rfl rfl rfl
  · exact onMessage_upkeep fun m _ => handleRegister_upkeep m
  · exact onMessage_upkeep fun m _ => submitted_upkeep
      (e := .submitCandidate { authority := m.authority, payload := m.payload }) rfl rfl
  · exact onMessage_upkeep fun m _ => submitted_upkeep
      (e := .submitCandidateFailure
        { authority := m.authority, participantFailure := m.kind.number.toUInt32 }) rfl rfl
  · exact onMessage_upkeep fun m _ => submitted_upkeep
      (e := .submitCandidateAbstention
        { authority := m.authority, rationale := bytesText m.rationale }) rfl rfl
  · exact onMessage_upkeep fun m _ => submitted_upkeep
      (e := .submitEvaluation (evaluationSubmission m)) rfl rfl
  · rename_i htype
    refine onMessage_upkeep fun m hm => handleDefineEnsemble_upkeep fun spec id hspec => ?_
    exact hT _ id (by simp only [Frame.renewal?, htype, hm, hspec]; rfl)
  · rename_i htype
    refine onMessage_upkeep fun m hm => handleOpenExecution_upkeep fun id => ?_
    exact hT _ id (by simp only [Frame.renewal?, htype, hm]; rfl)
  · exact onMessage_upkeep fun m _ => handleCancelEnsemble_upkeep m
  · exact onMessage_upkeep fun m _ => .same rfl rfl rfl
  · exact onMessage_upkeep fun m _ => .sent ..
  · exact onMessage_upkeep fun m _ => handleInspectRequest_upkeep m
  · exact .refl s
  · exact handleConnectionLoss_upkeep
  · exact .sent ..

/-! ### Finalize requests -/

theorem finalize_attributed {f : Fabric} (h : f.Attributed) (id : EnsembleId)
    (generation : EnsembleGeneration) : (finalize f id generation).1.Attributed := by
  rcases finalize_calls f id generation with heq | heq | ⟨r, heq⟩ <;> rw [heq]
  · exact h
  · exact h.after _
  · exact (h.after _).after _

theorem finalize_kept (f : Fabric) (id : EnsembleId) (generation : EnsembleGeneration)
    (other : EnsembleId) : f.results other ⊆ (finalize f id generation).1.results other := by
  rcases finalize_calls f id generation with heq | heq | ⟨r, heq⟩ <;> rw [heq]
  · exact List.Subset.refl _
  · exact results_kept rfl
  · exact List.Subset.trans (results_kept rfl) (results_kept rfl)

theorem answerWaiter_upkeep (w : PendingFinalize) : Upkeep T s (s.answerWaiter w) := by
  rw [answerWaiter]
  split
  · exact .sent ..
  · exact .same rfl rfl rfl
  · refine Upkeep.trans (.dirtied (fun h => finalize_attributed h w.ensemble w.generation)
      fun id _ => finalize_kept s.fabric w.ensemble w.generation id) (.same rfl rfl rfl)

theorem answerWaiters_upkeep (waiters : List PendingFinalize) :
    Upkeep T s (waiters.foldl answerWaiter s) := by
  induction waiters generalizing s with
  | nil => exact .refl s
  | cons w waiters ih => exact (answerWaiter_upkeep w).trans ih

/-- One event loses no results but those of the ensembles it renews. -/
theorem next_upkeep (s : Coordinator) (event : CoordinatorEvent) :
    Upkeep (fun id => s.renews id event = true) s (s.next event) := by
  cases event with
  | accepted =>
    rw [next, accept]
    split <;> exact .same rfl rfl rfl
  | rehashed order =>
    rw [next]
    split <;> exact .same rfl rfl rfl
  | rehashedRegistrations id order =>
    rw [next]
    split
    · exact .refl s
    · split <;> exact .same rfl rfl rfl
  | frame id frame =>
    rw [next]
    split
    · exact .refl s
    · refine handleFrame_upkeep fun event other hevent hrenewed => ?_
      rw [renews, hevent]
      exact hrenewed
  | closed id =>
    rw [next]
    split
    · exact .refl s
    · rename_i c _
      have hclosed : Upkeep (fun other => s.renews other (.closed id) = true) s
          { s with connections := s.connections.filter (·.id != c.id) } := .same rfl rfl rfl
      exact hclosed.trans handleConnectionLoss_upkeep
  | flush =>
    have hcleared : Upkeep (fun id => s.renews id .flush = true) s
        { s with pendingFinalizes := [] } := .same rfl rfl rfl
    exact hcleared.trans (answerWaiters_upkeep s.pendingFinalizes)

end Upkeep

/-- The next flush answers the waiter with this result. -/
def Announces (s : Coordinator) (w : PendingFinalize) (r : EnsembleResult) : Prop :=
  ∃ before after, s.pendingFinalizes = before ++ w :: after ∧
    let reached := before.foldl answerWaiter { s with pendingFinalizes := [] }
    isSettled reached.fabric w.ensemble w.generation = .ok true
      ∧ (finalize reached.fabric w.ensemble w.generation).2 = .ok r

theorem answerWaiters_noted {s : Coordinator} {entry : Trail} (h : entry ∈ s.trail)
    (waiters : List PendingFinalize) : entry ∈ (waiters.foldl answerWaiter s).trail := by
  induction waiters generalizing s with
  | nil => exact h
  | cons w waiters ih => exact ih ((served_noted entry).answerWaiter h)

/-- The answer is handed to the channel, and the result is on record at the
end of the flush. -/
theorem Announces.recorded {s : Coordinator} {w : PendingFinalize} {r : EnsembleResult}
    (h : s.Announces w r) (hattributed : s.fabric.Attributed) :
    r ∈ (s.next .flush).fabric.results w.ensemble
      ∧ ∃ f, s.sending w.connection (settledFrame s.limits f w (.ok r))
          ∈ (s.next .flush).trail := by
  obtain ⟨before, after, hwaiters, hsettled, hresult⟩ := h
  have hflush : s.next .flush = after.foldl answerWaiter
      ((before.foldl answerWaiter { s with pendingFinalizes := [] }).answerWaiter w) := by
    change s.flushPendingFinalize = _
    rw [flushPendingFinalize, hwaiters, List.foldl_append, List.foldl_cons]
  have hcleared : Upkeep (fun _ => False) s { s with pendingFinalizes := [] } :=
    .same rfl rfl rfl
  have hreached := hcleared.trans (answerWaiters_upkeep before)
  have hconfig := hreached.config
  have hafter := hreached.attributed hattributed
  generalize before.foldl answerWaiter { s with pendingFinalizes := [] } = reached at *
  have hcurrent := finalize_stores hafter.named (hafter.results w.ensemble) hresult
  have hlimits : reached.limits = s.limits := congrArg CoordinatorConfig.limits hconfig
  rw [hflush, answerWaiter_settled hsettled, hresult, hlimits]
  refine ⟨?_, (finalize reached.fabric w.ensemble w.generation).1, ?_⟩
  · refine (answerWaiters_upkeep (T := fun _ => False) after).kept _ (fun h => h) ?_
    exact mem_results.mpr (.inl hcurrent)
  · refine answerWaiters_noted (List.mem_append_right _ (List.mem_singleton.mpr ?_)) after
    exact sending_congr hlimits.symm

end Coordinator

/-! ## Files -/

/-- The file that a runtime was saved to. -/
structure SavedAs (f : Fabric) (file : List UInt8) : Prop where
  attributed : f.Attributed
  representable : f.durable.Representable
  saved : saveState f = .ok file

theorem recoveredEnsemble_results (e : EnsembleRecord) :
    (recoveredEnsemble e).results = e.results := by
  rw [EnsembleRecord.results, EnsembleRecord.results, recoveredEnsemble_result]
  rfl

theorem recoveredEnsemble_namesItsExecution {e : EnsembleRecord} {x' : ExecutionRecord}
    (h : ∀ x, e.execution = some x → NamesItsExecution e x)
    (hx' : (recoveredEnsemble e).execution = some x') :
    NamesItsExecution (recoveredEnsemble e) x' := by
  obtain ⟨x, hx, rfl⟩ := recoveredEnsemble_execution hx'
  have hid :
      (invalidatedExecution recoveryReason (computeReports e.stored x.stored)).id = x.id := by
    unfold invalidatedExecution
    split <;> rfl
  intro r' hr'
  rw [(invalidatedExecution_record _ _).result] at hr'
  obtain ⟨hensemble, hgeneration, hexecution⟩ := h x hx r' hr'
  exact ⟨hensemble, hgeneration, hexecution.trans hid.symm⟩

/-- A coordinator that is started over a saved file has the results that were
saved, and nothing to save. -/
theorem SavedAs.started {f : Fabric} {file : List UInt8} (h : SavedAs f file)
    {config : CoordinatorConfig} {boot : WorkerBootId} {c : Coordinator}
    (hstart : Coordinator.start (Site.onFile config) boot (some file) = .ok c) :
    c.fabric.Attributed ∧ c.stateDirty = false
      ∧ ∀ id, c.fabric.results id = f.results id := by
  have hpath : (Site.onFile config).statePath = true := rfl
  rw [Coordinator.start] at hstart
  simp only [hpath, if_true] at hstart
  split at hstart
  · cases hstart
  · rename_i fabric epoch hrecovers
    obtain rfl := Except.ok.inj hstart
    have hrecovered : SavedAndRecovered f _ fabric :=
      ⟨h.representable, file, boot, epoch, h.saved, hrecovers⟩
    have hfind := hrecovered.find h.attributed.named
    have hattributed : fabric.Attributed := by
      refine ⟨hrecovered.named, fun id e' x' he' hx' => ?_⟩
      rw [show (fabric.view id).entry = fabric.find id from rfl, hfind] at he'
      obtain ⟨e, he, rfl⟩ := Option.map_eq_some_iff.mp he'
      exact recoveredEnsemble_namesItsExecution (fun x hx => h.attributed.results id e x he hx) hx'
    refine ⟨attributed_invalidate hattributed _, rfl, fun id => ?_⟩
    have hsame : (invalidateDynamicAuthority fabric "coordinator start").results id
        = fabric.results id :=
      after_results (.invalidateDynamicAuthority "coordinator start") rfl id
    refine hsame.trans ?_
    rw [Fabric.results, Fabric.results, hfind]
    cases f.find id with
    | none => rfl
    | some e => exact recoveredEnsemble_results e

/-- Under the same limits a coordinator starts over a file that is decoded. -/
theorem SavedAs.starts {f : Fabric} {file : List UInt8} (h : SavedAs f file)
    (hrecords : 1 ≤ f.config.limits.maxRecordsPerSnapshot)
    (hdecoded : (decodeState (Write.flat (putState f.config.limits f.durable))
      f.config.limits).isOk = true)
    (hepoch : f.core.epoch.value ≠ lastWord) {config : CoordinatorConfig}
    (hlimits : config.limits = f.config.limits) (boot : WorkerBootId) :
    ∃ c, Coordinator.start (Site.onFile config) boot (some file) = .ok c := by
  have hrecoverable : f.Recoverable := by
    refine ⟨hrecords, ?_, hepoch⟩
    obtain ⟨hsize, -⟩ := saveState_eq_ok.mp h.saved
    have hmax := f.config.limits.maxPersistenceBytes.toNat_lt
    cases hstate : decodeState (Write.flat (putState f.config.limits f.durable))
        f.config.limits with
    | error error =>
      rw [hstate] at hdecoded
      cases hdecoded
    | ok state =>
      obtain rfl := decodeState_only h.representable (putState_whole hsize) (by omega) hstate
      exact decodeState_eq_ok.mp hstate
  have hpath : (Site.onFile config).statePath = true := rfl
  rw [Coordinator.start]
  simp only [hpath, if_true]
  generalize hg : Coordinator.freshFabric _ = g
  have hconfig : g.config.limits = f.config.limits := by
    rw [← hg]
    exact hlimits
  have hok := (saved_state_recovered_iff hconfig h.representable h.saved boot).mpr hrecoverable
  cases hrecovered : recoverState g file boot with
  | mk fabric recovered =>
  rw [hrecovered] at hok
  cases recovered with
  | error error => cases hok
  | ok epoch => exact ⟨_, rfl⟩

/-- A coordinator that is started without a file has no results. -/
theorem started_fresh {config : CoordinatorConfig} {boot : WorkerBootId} {c : Coordinator}
    (hstart : Coordinator.start (Site.onFile config) boot none = .ok c) :
    c.fabric.Attributed ∧ ∀ id, c.fabric.results id = [] := by
  have hpath : (Site.onFile config).statePath = true := rfl
  rw [Coordinator.start] at hstart
  simp only [hpath, if_true] at hstart
  obtain rfl := Except.ok.inj hstart
  refine ⟨attributed_invalidate (attributed_create _) _, fun id => ?_⟩
  exact after_results (f := Fabric.create _)
    (.invalidateDynamicAuthority "coordinator start") rfl id

/-! ## Sites -/

namespace Site

/-- What is written to the file is representable. -/
def Representably (s : Site) : SiteEvent → Prop
  | .persist written =>
      ∀ c, s.running = some c → written = true → c.fabric.durable.Representable
  | _ => True

/-- The file was saved by a runtime, and so was nothing else. -/
structure Regular (s : Site) : Prop where
  file : ∀ content, s.file = some content → ∃ f, SavedAs f content
  running : ∀ c, s.running = some c → c.fabric.Attributed

/-- The file and the coordinator that runs over it have the result. -/
structure Holds (id : EnsembleId) (r : EnsembleResult) (s : Site) : Prop where
  file : ∃ f content, s.file = some content ∧ SavedAs f content ∧ r ∈ f.results id
  running : ∀ c, s.running = some c → c.fabric.Attributed ∧ r ∈ c.fabric.results id

/-- Nobody redefines the ensemble or opens another execution of it. -/
def Spares (id : EnsembleId) (s : Site) (event : SiteEvent) : Prop :=
  s.Representably event ∧ ∀ c handled, s.running = some c → event = .handle handled →
    c.renews id handled = false

/-- A save leaves the file alone, or replaces it with what the runtime is
saved as. -/
theorem persist_cases (s : Site) (c : Coordinator) (written : Bool) :
    s.persist c written = { s with running := some c.maybePersist.1 }
      ∨ written = true ∧ ∃ content, saveState c.fabric = .ok content
        ∧ s.persist c written
          = { s with running := some c.maybePersist.1, file := some content, saved := true } := by
  cases written with
  | false => exact .inl rfl
  | true =>
    rw [persist, Coordinator.maybePersist_eq]
    cases c.saves with
    | false => exact .inl rfl
    | true =>
      cases saveState c.fabric with
      | error error => exact .inl rfl
      | ok content => exact .inr ⟨rfl, content, rfl, rfl⟩

theorem Regular.next {s : Site} (h : s.Regular) {event : SiteEvent}
    (hrepresentable : s.Representably event) : (s.next event).Regular := by
  cases hc : s.running with
  | none =>
    cases event with
    | start config boot =>
      simp only [Site.next, hc]
      split
      · exact h
      · rename_i c hstart
        refine ⟨h.file, ?_⟩
        rintro _ ⟨⟩
        cases hfile : s.file with
        | none =>
          rw [hfile] at hstart
          exact (started_fresh hstart).1
        | some content =>
          obtain ⟨f, hsaved⟩ := h.file content hfile
          rw [hfile] at hstart
          exact (hsaved.started hstart).1
    | _ =>
      simp only [Site.next, hc]
      exact h
  | some c =>
    cases event with
    | start config boot =>
      simp only [Site.next, hc]
      exact h
    | handle event =>
      simp only [Site.next, hc]
      refine ⟨h.file, ?_⟩
      rintro _ ⟨⟩
      exact (Coordinator.next_upkeep c event).attributed (h.running c hc)
    | persist written =>
      simp only [Site.next, hc]
      have hsame : ∀ c', some c.maybePersist.1 = some c' → c'.fabric.Attributed := by
        rintro _ ⟨⟩
        rw [(Coordinator.maybePersist_same c).1]
        exact h.running c hc
      rcases persist_cases s c written with heq | ⟨hwritten, content, hsaved, heq⟩ <;> rw [heq]
      · exact ⟨h.file, hsame⟩
      · refine ⟨?_, hsame⟩
        rintro _ ⟨⟩
        exact ⟨c.fabric, h.running c hc, hrepresentable c hc hwritten, hsaved⟩
    | ended =>
      simp only [Site.next, hc]
      exact ⟨h.file, fun _ h => by cases h⟩

theorem run_regular {events : List SiteEvent} (h : Along Site.next Representably {} events) :
    (run Site.next {} events).Regular :=
  run_invariant_along (fun _ _ hrepresentable h => h.next hrepresentable) h
    ⟨fun _ h => (by cases h), fun _ h => by cases h⟩

theorem Holds.next {id : EnsembleId} {r : EnsembleResult} {s : Site} (h : s.Holds id r)
    {event : SiteEvent} (hspares : s.Spares id event) : (s.next event).Holds id r := by
  cases hc : s.running with
  | none =>
    cases event with
    | start config boot =>
      simp only [Site.next, hc]
      split
      · exact h
      · rename_i c hstart
        obtain ⟨f, content, hfile, hsaved, hr⟩ := h.file
        rw [hfile] at hstart
        obtain ⟨hattributed, -, hresults⟩ := hsaved.started hstart
        refine ⟨h.file, ?_⟩
        rintro _ ⟨⟩
        exact ⟨hattributed, (hresults id).symm ▸ hr⟩
    | _ =>
      simp only [Site.next, hc]
      exact h
  | some c =>
    obtain ⟨hattributed, hr⟩ := h.running c hc
    cases event with
    | start config boot =>
      simp only [Site.next, hc]
      exact h
    | handle event =>
      simp only [Site.next, hc]
      have hupkeep := Coordinator.next_upkeep c event
      refine ⟨h.file, ?_⟩
      rintro _ ⟨⟩
      refine ⟨hupkeep.attributed hattributed, hupkeep.kept id ?_ hr⟩
      rw [hspares.2 c event hc rfl]
      exact Bool.false_ne_true
    | persist written =>
      simp only [Site.next, hc]
      have hsame : ∀ c', some c.maybePersist.1 = some c' →
          c'.fabric.Attributed ∧ r ∈ c'.fabric.results id := by
        rintro _ ⟨⟩
        rw [(Coordinator.maybePersist_same c).1]
        exact ⟨hattributed, hr⟩
      rcases persist_cases s c written with heq | ⟨hwritten, content, hsaved, heq⟩ <;> rw [heq]
      · exact ⟨h.file, hsame⟩
      · refine ⟨⟨c.fabric, content, rfl, ?_, hr⟩, hsame⟩
        exact ⟨hattributed, hspares.1 c hc hwritten, hsaved⟩
    | ended =>
      simp only [Site.next, hc]
      exact ⟨h.file, fun _ h => by cases h⟩

end Site

/-- A result is announced in a flush, which hands the answer to the channel of
whoever asked, and the save at the end of the batch succeeds. From then on
every coordinator of the site has the result on record, whenever coordinators
end and whichever saves fail, as long as nobody redefines the ensemble or opens
another execution of it. -/
theorem announced_result_survives {before after : List SiteEvent} {c : Coordinator}
    {w : PendingFinalize} {r : EnsembleResult}
    (hbefore : Along Site.next Site.Representably {} before)
    (hrunning : (run Site.next {} before).running = some c)
    (hannounces : c.Announces w r)
    (hsaved : (c.next .flush).maybePersist.2.isSome = true)
    (hrepresentable : (c.next .flush).fabric.durable.Representable)
    (hafter : Along Site.next (Site.Spares w.ensemble)
      (run Site.next {} (before ++ [.handle .flush, .persist true])) after) :
    (∃ f, c.sending w.connection (Coordinator.settledFrame c.limits f w (.ok r))
        ∈ (c.next .flush).trail)
      ∧ ∀ c', (run Site.next {} (before ++ [.handle .flush, .persist true] ++ after)).running
        = some c' → r ∈ c'.fabric.results w.ensemble := by
  have hattributed := (Site.run_regular hbefore).running c hrunning
  obtain ⟨hrecorded, hsent⟩ := hannounces.recorded hattributed
  refine ⟨hsent, ?_⟩
  -- the batch
  obtain ⟨content, hcontent⟩ := Option.isSome_iff_exists.mp hsaved
  have hsave : saveState (c.next .flush).fabric = .ok content := by
    rw [Coordinator.maybePersist_eq] at hcontent
    split at hcontent
    · cases hsave : saveState (c.next .flush).fabric with
      | error error => rw [hsave] at hcontent; cases hcontent
      | ok file => rw [hsave] at hcontent; exact congrArg Except.ok (Option.some.inj hcontent)
    · cases hcontent
  have hnext := (Coordinator.next_upkeep c .flush).attributed hattributed
  have hbatch : (run Site.next {} (before ++ [.handle .flush, .persist true])).Holds
      w.ensemble r := by
    rw [run_append]
    simp only [run_cons, run_nil, Site.next, hrunning, Site.persist, hcontent]
    refine ⟨⟨(c.next .flush).fabric, content, rfl, ⟨hnext, hrepresentable, hsave⟩, hrecorded⟩, ?_⟩
    rintro _ ⟨⟩
    rw [(Coordinator.maybePersist_same _).1]
    exact ⟨hnext, hrecorded⟩
  rw [run_append]
  exact fun c' hc' => ((run_invariant_along (fun _ _ hspares h => h.next hspares) hafter
    hbatch).running c' hc').2

namespace Sample

/-- Results explain themselves in one line. -/
def terse : CoordinatorConfig := { limits := { maxExplanationEntries := 1 } }

def defining : Frame :=
  frame .defineEnsemble (encodeDefineEnsemble { encodedSpec := encodeSpec loneSpec {} })

def finalizing : Frame :=
  frame .finalizeRequest (encodeFinalizeRequest { ensemble := ⟨1⟩, ensembleGeneration := ⟨1⟩ })

/-- A process does everything over one connection, and asks for the result. -/
def loneServed : List SiteEvent :=
  .start terse ⟨7⟩ :: .handle .accepted
    :: [hello 1, defining, registrationFrame 1, opening, answer 1, finalizing].map
      fun frame => .handle (.frame 1 frame)

def asking : PendingFinalize where
  connection := 1
  correlation := {}
  ensemble := ⟨1⟩
  generation := ⟨1⟩

end Sample

/-- Nothing is saved while the requests are handled. -/
theorem loneServed_plain : Along Site.next Site.Representably {} Sample.loneServed :=
  ⟨trivial, trivial, trivial, trivial, trivial, trivial, trivial, trivial, trivial⟩

/-- The request can be answered, what is saved then is representable, and the
next coordinator starts over it. -/
theorem loneServed_saved :
    ∃ c r content c', (run Site.next {} Sample.loneServed).running = some c
      ∧ c.Announces Sample.asking r
      ∧ (c.next .flush).maybePersist
        = ({ c.next .flush with stateDirty := false }, some content)
      ∧ saveState (c.next .flush).fabric = .ok content
      ∧ (c.next .flush).fabric.durable.Representable
      ∧ Coordinator.start (Site.onFile Sample.terse) ⟨8⟩ (some content) = .ok c' := by
  have hserved : (run Site.next {} Sample.loneServed).running.any (fun c => decide
      ((c.pendingFinalizes = [Sample.asking] ∧ isSettled c.fabric ⟨1⟩ ⟨1⟩ = .ok true
          ∧ (finalize c.fabric ⟨1⟩ ⟨1⟩).2.isOk = true)
        ∧ (c.next .flush).saves = true
        ∧ (c.next .flush).fabric.durable.Representable
        ∧ (Write.flat (putState Sample.terse.limits (c.next .flush).fabric.durable)).length
          ≤ Sample.terse.limits.maxPersistenceBytes.toNat
        ∧ (decodeState (Write.flat (putState Sample.terse.limits
            (c.next .flush).fabric.durable)) Sample.terse.limits).isOk = true
        ∧ (c.next .flush).fabric.core.epoch.value ≠ lastWord
        ∧ (c.next .flush).fabric.config.limits = Sample.terse.limits)) = true := by
    decide +kernel
  obtain ⟨c, hc, hfacts⟩ := (Option.any_eq_true _ _).mp hserved
  obtain ⟨⟨hpending, hsettled, hfinalized⟩, hsaves, hrepresentable, hsize, hdecoded, hepoch,
    hlimits⟩ := of_decide_eq_true hfacts
  obtain ⟨r, hresult⟩ : ∃ r, (finalize c.fabric ⟨1⟩ ⟨1⟩).2 = .ok r := by
    cases hresult : (finalize c.fabric ⟨1⟩ ⟨1⟩).2 with
    | error error =>
      rw [hresult] at hfinalized
      cases hfinalized
    | ok r => exact ⟨r, rfl⟩
  obtain ⟨content, hsave⟩ : ∃ content, saveState (c.next .flush).fabric = .ok content :=
    ⟨_, saveState_eq_ok.mpr ⟨by rw [hlimits]; exact hsize, rfl⟩⟩
  have hpersisted : (c.next .flush).maybePersist
      = ({ c.next .flush with stateDirty := false }, some content) := by
    rw [Coordinator.maybePersist_eq, hsaves, hsave]
    rfl
  have hregular : (run Site.next {} Sample.loneServed).Regular :=
    Site.run_regular loneServed_plain
  have hsaved : SavedAs (c.next .flush).fabric content :=
    ⟨(Coordinator.next_upkeep c .flush).attributed (hregular.running c hc), hrepresentable, hsave⟩
  obtain ⟨c', hstart⟩ := hsaved.starts (by rw [hlimits]; decide) (by rw [hlimits]; exact hdecoded)
    hepoch hlimits.symm ⟨8⟩
  exact ⟨c, r, content, c', hc, ⟨[], [], hpending, hsettled, hresult⟩, hpersisted, hsave,
    hrepresentable, hstart⟩

/-- The result is announced and saved. The coordinator ends, and the next one
has the result. -/
theorem lone_result_survives :
    ∃ c r, (run Site.next {} Sample.loneServed).running = some c
      ∧ c.Announces Sample.asking r
      ∧ ∃ c', (run Site.next {} (Sample.loneServed ++ [.handle .flush, .persist true]
          ++ [.ended, .start Sample.terse ⟨8⟩])).running = some c'
        ∧ r ∈ c'.fabric.results ⟨1⟩ := by
  obtain ⟨c, r, content, c', hc, hannounces, hpersisted, -, hrepresentable, hstart⟩ :=
    loneServed_saved
  have hsurvives := @announced_result_survives Sample.loneServed
    [.ended, .start Sample.terse ⟨8⟩] c Sample.asking r loneServed_plain hc hannounces
    (by rw [hpersisted]; rfl) hrepresentable
    ⟨⟨trivial, fun _ _ _ h => by cases h⟩, ⟨trivial, fun _ _ _ h => by cases h⟩, trivial⟩
  have hrunning : (run Site.next {} (Sample.loneServed ++ [.handle .flush, .persist true]
      ++ [.ended, .start Sample.terse ⟨8⟩])).running = some c' := by
    rw [run_append, run_append]
    simp only [run_cons, run_nil, Site.next, hc, Site.persist, hpersisted, if_true, hstart]
  exact ⟨c, r, hc, hannounces, c', hrunning, hsurvives.2 c' hrunning⟩

/-! ## Nothing left to save -/

theorem started_clean {config : CoordinatorConfig} {boot : WorkerBootId}
    {file : Option (List UInt8)} {c : Coordinator}
    (hstart : Coordinator.start (Site.onFile config) boot file = .ok c) :
    c.config.persistOnChange = true ∧ c.config.statePath = true ∧ c.stateDirty = false := by
  have hpath : (Site.onFile config).statePath = true := rfl
  rw [Coordinator.start] at hstart
  simp only [hpath, if_true] at hstart
  split at hstart
  · obtain rfl := Except.ok.inj hstart
    exact ⟨rfl, rfl, rfl⟩
  · split at hstart
    · cases hstart
    · obtain rfl := Except.ok.inj hstart
      exact ⟨rfl, rfl, rfl⟩

/-- The file has the results of the runtime: it was saved from it, or the
runtime has been recovered from it. -/
def Mirrors (file : Option (List UInt8)) (f : Fabric) : Prop :=
  match file with
  | none => ∀ id, f.results id = []
  | some content => ∃ g, SavedAs g content ∧ ∀ id, f.results id = g.results id

theorem Mirrors.of_same {file : Option (List UInt8)} {f f' : Fabric} (h : Mirrors file f)
    (hsame : ∀ id, f'.results id = f.results id) : Mirrors file f' := by
  cases file with
  | none => exact fun id => (hsame id).trans (h id)
  | some content =>
    obtain ⟨g, hsaved, heq⟩ := h
    exact ⟨g, hsaved, fun id => (hsame id).trans (heq id)⟩

/-- A coordinator that is started over the file has its results. -/
theorem mirrors_started {file : Option (List UInt8)}
    (hfile : ∀ content, file = some content → ∃ f, SavedAs f content) {config : CoordinatorConfig}
    {boot : WorkerBootId} {c : Coordinator}
    (hstart : Coordinator.start (Site.onFile config) boot file = .ok c) :
    Mirrors file c.fabric := by
  cases file with
  | none => exact (started_fresh hstart).2
  | some content =>
    obtain ⟨f, hsaved⟩ := hfile content rfl
    exact ⟨f, hsaved, (hsaved.started hstart).2.2⟩

namespace Site

/-- Every save that is due succeeds. -/
def SavesAll (s : Site) : SiteEvent → Prop
  | .persist written => ∀ c, s.running = some c → c.saves = true →
      written = true ∧ (saveState c.fabric).isOk = true ∧ c.fabric.durable.Representable
  | _ => True

/-- The file keeps up with the coordinator. -/
structure Current (s : Site) : Prop where
  file : ∀ content, s.file = some content → ∃ f, SavedAs f content
  attributed : ∀ c, s.running = some c → c.fabric.Attributed
  config : ∀ c, s.running = some c →
    c.config.persistOnChange = true ∧ c.config.statePath = true
  clean : ∀ c, s.running = some c → c.stateDirty = false → Mirrors s.file c.fabric

theorem Current.persisted {s : Site} (h : s.Current) {c : Coordinator}
    (hc : s.running = some c) {written : Bool}
    (hsaves : c.saves = true →
      written = true ∧ (saveState c.fabric).isOk = true ∧ c.fabric.durable.Representable) :
    (s.persist c written).Current := by
  obtain ⟨hpersist, hpath⟩ := h.config c hc
  have hattributed := h.attributed c hc
  have hdue : c.saves = c.stateDirty := by rw [Coordinator.saves, hpersist, hpath]; rfl
  rw [persist, Coordinator.maybePersist_eq]
  cases hdirty : c.stateDirty with
  | false =>
    rw [hdue, hdirty]
    simp only [Bool.false_eq_true, if_false, ite_self]
    refine ⟨h.file, ?_, ?_, ?_⟩
    · rintro _ ⟨⟩
      exact hattributed
    · rintro _ ⟨⟩
      exact ⟨hpersist, hpath⟩
    · rintro _ ⟨⟩ -
      exact h.clean c hc hdirty
  | true =>
    -- the file is replaced
    obtain ⟨rfl, hok, hrepresentable⟩ := hsaves (hdue.trans hdirty)
    rw [hdue, hdirty]
    cases hsave : saveState c.fabric with
    | error error =>
      rw [hsave] at hok
      cases hok
    | ok content =>
      have hsaved : SavedAs c.fabric content := ⟨hattributed, hrepresentable, hsave⟩
      simp only [if_true, Except.toOption]
      refine ⟨?_, ?_, ?_, ?_⟩
      · rintro _ ⟨⟩
        exact ⟨c.fabric, hsaved⟩
      · rintro _ ⟨⟩
        exact hattributed
      · rintro _ ⟨⟩
        exact ⟨hpersist, hpath⟩
      · rintro _ ⟨⟩ -
        exact ⟨c.fabric, hsaved, fun _ => rfl⟩

theorem Current.next {s : Site} (h : s.Current) {event : SiteEvent} (hsaves : s.SavesAll event) :
    (s.next event).Current := by
  have hregular : s.Regular := ⟨h.file, h.attributed⟩
  cases hc : s.running with
  | none =>
    cases event with
    | start config boot =>
      have hattributed := (@Regular.next s hregular (.start config boot) trivial).running
      simp only [Site.next, hc] at hattributed ⊢
      split
      · exact h
      · rename_i c hstart
        rw [hstart] at hattributed
        obtain ⟨hpersist, hpath, -⟩ := started_clean hstart
        refine ⟨h.file, hattributed, ?_, ?_⟩
        · rintro _ ⟨⟩
          exact ⟨hpersist, hpath⟩
        · rintro _ ⟨⟩ -
          exact mirrors_started h.file hstart
    | _ =>
      simp only [Site.next, hc]
      exact h
  | some c =>
    cases event with
    | start config boot =>
      simp only [Site.next, hc]
      exact h
    | handle event =>
      simp only [Site.next, hc]
      have hupkeep := Coordinator.next_upkeep c event
      refine ⟨h.file, ?_, ?_, ?_⟩
      · rintro _ ⟨⟩
        exact hupkeep.attributed (h.attributed c hc)
      · rintro _ ⟨⟩
        rw [hupkeep.config]
        exact h.config c hc
      · rintro _ ⟨⟩ hclean
        refine (h.clean c hc ?_).of_same (hupkeep.clean hclean)
        cases hdirty : c.stateDirty with
        | false => rfl
        | true => rw [hupkeep.dirty hdirty] at hclean; cases hclean
    | persist written =>
      simp only [Site.next, hc]
      exact h.persisted hc (hsaves c hc)
    | ended =>
      simp only [Site.next, hc]
      exact ⟨h.file, fun _ h => (by cases h), fun _ h => (by cases h), fun _ h => by cases h⟩

end Site

/-- In every history of a site in which every save that is due succeeds, a
coordinator with nothing left to save may end at any point: whichever
coordinator is started next has the same results for every ensemble. -/
theorem clean_state_recovered (events : List SiteEvent)
    (h : Along Site.next Site.SavesAll {} events) {c c' : Coordinator}
    {config : CoordinatorConfig} {boot : WorkerBootId}
    (hrunning : (run Site.next {} events).running = some c) (hclean : c.stateDirty = false)
    (hnext : (((run Site.next {} events).next .ended).next (.start config boot)).running
      = some c') :
    ∀ id, c'.fabric.results id = c.fabric.results id := by
  have hcurrent : (run Site.next {} events).Current :=
    run_invariant_along (fun _ _ hsaves h => h.next hsaves) h
      ⟨fun _ h => (by cases h), fun _ h => (by cases h), fun _ h => (by cases h),
        fun _ h => by cases h⟩
  generalize run Site.next {} events = s at *
  have hmirrors := hcurrent.clean c hrunning hclean
  simp only [Site.next, hrunning] at hnext
  cases hstart : Coordinator.start (Site.onFile config) boot s.file with
  | error error =>
    rw [hstart] at hnext
    cases hnext
  | ok started =>
    rw [hstart] at hnext
    obtain rfl := Option.some.inj hnext
    cases hfile : s.file with
    | none =>
      rw [hfile] at hstart hmirrors
      exact fun id => ((started_fresh hstart).2 id).trans (hmirrors id).symm
    | some content =>
      rw [hfile] at hstart hmirrors
      obtain ⟨g, hsaved, hsame⟩ := hmirrors
      obtain ⟨-, -, hresults⟩ := hsaved.started hstart
      exact fun id => by rw [hresults, hsame]

/-- The coordinator ends right after the save. -/
theorem lone_state_recovered :
    ∃ c c', (run Site.next {} (Sample.loneServed ++ [.handle .flush, .persist true])).running
        = some c
      ∧ (((run Site.next {} (Sample.loneServed ++ [.handle .flush, .persist true])).next
          .ended).next (.start Sample.terse ⟨8⟩)).running = some c'
      ∧ ∀ id, c'.fabric.results id = c.fabric.results id := by
  obtain ⟨c, r, content, c', hc, -, hpersisted, hsave, hrepresentable, hstart⟩ := loneServed_saved
  have hsite : run Site.next {} (Sample.loneServed ++ [.handle .flush, .persist true])
      = { run Site.next {} Sample.loneServed with
          running := some { c.next .flush with stateDirty := false }
          file := some content
          saved := true } := by
    rw [run_append]
    simp only [run_cons, run_nil, Site.next, hc, Site.persist, hpersisted, if_true]
  have halong : Along Site.next Site.SavesAll {}
      (Sample.loneServed ++ [.handle .flush, .persist true]) := by
    rw [along_append]
    refine ⟨⟨trivial, trivial, trivial, trivial, trivial, trivial, trivial, trivial, trivial⟩,
      trivial, ?_, trivial⟩
    intro other hother _
    simp only [Site.next, hc] at hother
    obtain rfl := Option.some.inj hother
    exact ⟨rfl, by rw [hsave]; rfl, hrepresentable⟩
  have hrunning := congrArg Site.running hsite
  have hnext : (((run Site.next {} (Sample.loneServed ++ [.handle .flush, .persist true])).next
      .ended).next (.start Sample.terse ⟨8⟩)).running = some c' := by
    rw [hsite]
    simp only [Site.next, hstart]
  exact ⟨_, c', hrunning, hnext, clean_state_recovered _ halong hrunning rfl hnext⟩

end EnsembleFabric
