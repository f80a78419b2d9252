import EnsembleFabric.Coordinator
import EnsembleFabric.Refinement.Runs

/-!
# The coordinator as a client of the runtime

What the coordinator does to the runtime is a sequence of calls, and every
call is an event of the runtime. What all calls, all rounds of `pump` and
all frames that are sent preserve is preserved by everything the
coordinator does between two registrations (`Served`); the rules below
take the handlers of the coordinator apart once.

`Served` is a property of states of the coordinator with one field for each
thing a handler may do: a call, a round of `pump`, an entry in the trail, a
change that leaves the connections alone. `Served.handleFrame` carries it
over a whole frame, given what greetings, registrations, submissions and
goodbyes do, which are the frames that look at the connections, and
`Served.next` over an event. Invariants of the coordinator are instances.

The first two of them are here: the runtime of a coordinator is one that can
be reached (`served_reached`), so all that is known of reachable states of
the runtime holds of it, and the trail only grows (`served_noted`).
-/

namespace EnsembleFabric

open EventSystem

/-! ## Calls -/

/-- The calls of the coordinator, registrations apart. -/
def Event.serves : Event → Bool
  | .defineEnsemble _ | .openExecution _ _ | .advance _ _ | .submitCandidate _
  | .submitCandidateFailure _ | .submitCandidateAbstention _ | .submitEvaluation _
  | .reportParticipantFailure _ _ _ | .cancelEnsemble _ _ _ | .prepareResult _ _
  | .commitResult _ => true
  | .supersedeEnsemble _ _ | .registerParticipant _ | .invalidateDynamicAuthority _
  | .finalize _ _ _ | .restart _ _ | .resume _ _ => false

/-- The event registers a participant. -/
def Event.registers : Event → Bool
  | .registerParticipant _ => true
  | _ => false

/-- The runtime after an event, when nobody else is inside an operation. -/
def Fabric.after (f : Fabric) (event : Event) : Fabric :=
  (System.next { fabric := f } event).fabric

theorem System.next_prepareResult (s : System) (id : EnsembleId)
    (generation : EnsembleGeneration) :
    (s.next (.prepareResult id generation)).fabric = (prepareResult s.fabric id generation).1 :=
  remember_fabric _ _

/-- The clients inside an operation make no difference to a call. -/
theorem System.next_fabric {event : Event} (h : event.serves = true ∨ event.registers = true)
    (s : System) : (s.next event).fabric = s.fabric.after event := by
  cases event with
  | prepareResult id generation =>
    rw [Fabric.after, next_prepareResult, next_prepareResult]
  | supersedeEnsemble | invalidateDynamicAuthority | finalize | restart | resume =>
    rcases h with h | h <;> cases h
  | _ => rfl

/-- The runtime has been reached from an unused one. -/
def Reached (config : FabricConfig) (f : Fabric) : Prop :=
  ∃ events, ((System.initial config).run events).fabric = f

theorem Reached.after {config : FabricConfig} {f : Fabric} (h : Reached config f) {event : Event}
    (hcall : event.serves = true ∨ event.registers = true) : Reached config (f.after event) := by
  obtain ⟨events, rfl⟩ := h
  refine ⟨events ++ [event], ?_⟩
  rw [System.run, run_append]
  exact System.next_fabric hcall _

/-- `finalize` makes at most two calls. -/
theorem finalize_calls (f : Fabric) (id : EnsembleId) (generation : EnsembleGeneration) :
    (finalize f id generation).1 = f
      ∨ (finalize f id generation).1 = f.after (.prepareResult id generation)
      ∨ ∃ r, (finalize f id generation).1
          = (f.after (.prepareResult id generation)).after (.commitResult r) := by
  have hprepare : f.after (.prepareResult id generation) = (prepareResult f id generation).1 :=
    System.next_prepareResult _ _ _
  rw [hprepare]
  unfold finalize
  cases finalizeCheck f id generation with
  | error error => exact .inl rfl
  | ok checked =>
    right
    cases hcarry : finalizeCarry checked (prepareResult f id generation).2 with
    | error error =>
      left
      simp only [hcarry]
    | ok result =>
      right
      refine ⟨result, ?_⟩
      simp only [hcarry]
      rfl

/-! ## Submissions -/

/-- The frame carries evidence: the call it asks for, and the authority it is
made under. There is one case for each of the four submissions. -/
inductive Frame.Submits (frame : Frame) : Event → ParticipantAuthority → Prop where
  | result {m} (type : frame.type = .candidateResult)
      (read : Coordinator.decodeWhole decodeCandidateResult "candidate result" frame = .ok m) :
      Submits frame (.submitCandidate { authority := m.authority, payload := m.payload })
        m.authority.participant
  | failure {m} (type : frame.type = .candidateFailure)
      (read : Coordinator.decodeWhole decodeCandidateFailure "candidate failure" frame = .ok m) :
      Submits frame
        (.submitCandidateFailure
          { authority := m.authority, participantFailure := m.kind.number.toUInt32 })
        m.authority.participant
  | abstention {m} (type : frame.type = .candidateAbstention)
      (read : Coordinator.decodeWhole decodeCandidateAbstention "candidate abstention" frame
        = .ok m) :
      Submits frame
        (.submitCandidateAbstention
          { authority := m.authority, rationale := bytesText m.rationale })
        m.authority.participant
  | evaluation {m} (type : frame.type = .evaluationResult)
      (read : Coordinator.decodeWhole decodeEvaluationResult "evaluation result" frame = .ok m) :
      Submits frame (.submitEvaluation (Coordinator.evaluationSubmission m)) m.authority.evaluator

theorem Frame.Submits.serves {frame : Frame} {event : Event} {a : ParticipantAuthority}
    (h : frame.Submits event a) : event.serves = true := by
  cases h <;> rfl

/-- The runtime accepts the evidence. -/
def Fabric.accepts (f : Fabric) : Event → Bool
  | .submitCandidate submission => (submitCandidate f submission).2.isOk
  | .submitCandidateFailure submission => (submitCandidateFailure f submission).2.isOk
  | .submitCandidateAbstention submission => (submitCandidateAbstention f submission).2.isOk
  | .submitEvaluation submission => (submitEvaluation f submission).2.isOk
  | _ => false

/-! ## Ensembles -/

theorem Fabric.mem_values {f : Fabric} {e : EnsembleRecord} :
    e ∈ f.ensembles.values ↔ ∃ id, f.find id = some e := by
  have hvalues : f.ensembles.values = f.ensembles.toList.map (·.2) := by
    have hfold : f.ensembles.values = f.ensembles.foldr (fun _ e l => e :: l) [] := rfl
    rw [hfold, Std.TreeMap.foldr_eq_foldr_toList, List.map_eq_foldr]
  rw [hvalues, List.mem_map]
  constructor
  · rintro ⟨⟨key, e⟩, hmem, rfl⟩
    exact ⟨⟨key⟩, Std.TreeMap.mem_toList_iff_getElem?_eq_some.mp hmem⟩
  · rintro ⟨id, hfind⟩
    exact ⟨(id.value, e), Std.TreeMap.mem_toList_iff_getElem?_eq_some.mpr hfind, rfl⟩

namespace Coordinator

/-! ## What the handlers preserve -/

/-- One round of `pump`: an advance, and the transport of its actions. -/
def round (s : Coordinator) (id : EnsembleId) (generation : EnsembleGeneration) : Coordinator :=
  ((advance s.fabric id generation).2.toOption.getD []).foldl transport
    (s.withFabric (advance s.fabric id generation).1)

/-- A handshake is answered with the epoch of the runtime. -/
def Stamped (s : Coordinator) (frame : Frame) : Prop :=
  frame.type = .helloAck → frame.epoch = s.fabric.core.epoch

/-- Preserved by every call of the runtime, every round of `pump` and
everything else that leaves the connections as they are. A property that is
served needs no look at the handlers any more. -/
structure Served (P : Coordinator → Prop) : Prop where
  call : ∀ {s e}, e.serves = true → P s → P (s.withFabric (s.fabric.after e))
  round : ∀ {s id e}, P s → s.fabric.find id = some e → P (s.round id e.spec.generation)
  sent : ∀ {s connection frame}, s.Stamped frame → P s → P (s.sendFrame connection frame)
  dirty : ∀ {s}, P s → P s.markDirty
  waiting : ∀ {s waiters}, P s → P { s with pendingFinalizes := waiters }

/-- What every call and every entry of the trail preserves is served. -/
theorem served_of_entries {P : Coordinator → Prop}
    (hcall : ∀ {s e}, e.serves = true → P s → P (s.withFabric (s.fabric.after e)))
    (hnote : ∀ {s entry}, (∀ c a accepted, entry ≠ .submitted c a accepted) →
      (∀ c frame, entry = .sent c frame → s.Stamped frame) → P s → P (s.note entry))
    (hdirty : ∀ {s}, P s → P s.markDirty)
    (hwaiting : ∀ {s waiters}, P s → P { s with pendingFinalizes := waiters }) : Served P := by
  have hsent : ∀ {s connection frame}, s.Stamped frame → P s →
      P (sendFrame s connection frame) := by
    intro s connection frame hstamped h
    rw [sendFrame]
    rcases s.sending_cases connection frame with hsending | hsending
    · rw [hsending]
      refine hnote (by simp) ?_ h
      rintro c other ⟨⟩
      exact hstamped
    · rw [hsending]
      exact hnote (by simp) (by simp) h
  have htransport : ∀ s action, P s → P (transport s action) := by
    intro s action h
    cases action with
    | dispatch a =>
      rw [transport]
      split
      · have hreported := hcall (e := .reportParticipantFailure (s.unroutedAuthority a)
          .unavailable "no authoritative connection for dispatch") rfl h
        exact hnote (by simp) (by simp) hreported
      · exact hsent (fun h => by cases h) (hnote (by simp) (by simp) h)
    | evaluate a =>
      rw [transport]
      split
      · exact h
      · exact hsent (fun h => by cases h) (hnote (by simp) (by simp) h)
    | cancel a =>
      rw [transport]
      split
      · exact h
      · exact hsent (fun h => by cases h) (hnote (by simp) (by simp) h)
    | fallback a => exact h
  refine ⟨hcall, fun {s id e} h _ => ?_, hsent, hdirty, hwaiting⟩
  have hadvanced : P (s.withFabric (advance s.fabric id e.spec.generation).1) :=
    hcall (e := .advance id e.spec.generation) rfl h
  rw [Coordinator.round]
  generalize (advance s.fabric id e.spec.generation).2.toOption.getD [] = actions
  generalize s.withFabric (advance s.fabric id e.spec.generation).1 = s at hadvanced
  induction actions generalizing s with
  | nil => exact hadvanced
  | cons action actions ih => exact ih _ (htransport s action hadvanced)

namespace Served

variable {P : Coordinator → Prop} (h : Served P)

include h

theorem pumpRounds {s : Coordinator} {rounds : Nat} {id : EnsembleId} (hs : P s) :
    P (pumpRounds rounds s id) := by
  induction rounds generalizing s with
  | zero => exact hs
  | succ rounds ih =>
    rw [Coordinator.pumpRounds]
    split
    · exact hs
    · rename_i e hfind
      have hround := h.round hs hfind
      rw [Coordinator.round] at hround
      split
      · rename_i hadvance
        rw [hadvance] at hround
        exact hround
      · rename_i hadvance
        rw [hadvance] at hround
        exact hround
      · rename_i hadvance
        rw [hadvance] at hround
        exact ih hround

theorem pump {s : Coordinator} {id : EnsembleId} (hs : P s) : P (s.pump id) := h.pumpRounds hs

theorem pumpAll {s : Coordinator} (hs : P s) : P s.pumpAll := by
  rw [Coordinator.pumpAll]
  generalize listEnsembles s.fabric = ids
  induction ids generalizing s with
  | nil => exact hs
  | cons id ids ih => exact ih (h.pump hs)

theorem reportLost {s : Coordinator} {authority : ParticipantAuthority} (hs : P s) :
    P (s.reportLost authority) :=
  h.call (e := .reportParticipantFailure authority .unavailable
    "worker process connection closed") rfl hs

theorem loseIn {s : Coordinator} {c : Connection} {epoch : CoordinatorEpoch} {id : EnsembleId}
    (hs : P s) : P (loseIn c epoch s id) := by
  rw [Coordinator.loseIn]
  split
  · exact hs
  · refine h.pump ?_
    rename_i e hfind
    generalize c.registrations.map (lostAuthority c epoch id e.spec.generation) = authorities
    clear hfind
    induction authorities generalizing s with
    | nil => exact hs
    | cons authority authorities ih => exact ih (h.reportLost hs)

theorem handleConnectionLoss {s : Coordinator} {c : Connection} (hs : P s) :
    P (s.handleConnectionLoss c) := by
  rw [Coordinator.handleConnectionLoss]
  split
  · exact hs
  · generalize listEnsembles s.fabric = ids
    generalize s.fabric.core.epoch = epoch
    induction ids generalizing s with
    | nil => exact hs
    | cons id ids ih => exact ih (h.loseIn hs)

theorem finalized {s : Coordinator} {id : EnsembleId} {generation : EnsembleGeneration}
    (hs : P s) : P (s.withFabric (finalize s.fabric id generation).1) := by
  rcases finalize_calls s.fabric id generation with heq | heq | ⟨r, heq⟩
  · rw [heq]
    exact hs
  · rw [heq]
    exact h.call rfl hs
  · rw [heq]
    exact h.call (s := s.withFabric (s.fabric.after (.prepareResult id generation))) rfl
      (h.call rfl hs)

theorem answerWaiter {s : Coordinator} {w : PendingFinalize} (hs : P s) :
    P (s.answerWaiter w) := by
  rw [Coordinator.answerWaiter]
  split
  · exact h.sent (fun h => by cases h) hs
  · exact h.waiting hs
  · exact h.dirty (h.sent (fun h => by cases h) (h.finalized hs))

theorem flushPendingFinalize {s : Coordinator} (hs : P s) : P s.flushPendingFinalize := by
  rw [Coordinator.flushPendingFinalize]
  have hcleared : P { s with pendingFinalizes := [] } := h.waiting hs
  generalize { s with pendingFinalizes := [] } = cleared at hcleared
  generalize s.pendingFinalizes = waiters
  induction waiters generalizing cleared with
  | nil => exact hcleared
  | cons w waiters ih => exact ih _ (h.answerWaiter hcleared)

theorem sendError {s : Coordinator} {connection : UInt64} {correlation : RequestId} {error : Error}
    (hs : P s) : P (s.sendError connection correlation error) :=
  h.sent (fun h => by cases h) hs

theorem onMessage {α : Type} {s : Coordinator} {c : Connection} {frame : Frame}
    {message : Outcome α} {handle : α → Coordinator} (hs : P s)
    (hhandle : ∀ m, message = .ok m → P (handle m)) : P (s.onMessage c frame message handle) := by
  cases message with
  | error error => exact h.sendError hs
  | ok m => exact hhandle m rfl

/-- After a submission has been noted, the ensemble is pumped. -/
theorem submitted {α : Type} {s : Coordinator} {c : Connection} {frame : Frame}
    {authority : ParticipantAuthority} {result : Fabric × Outcome α}
    (hnoted : P ((s.withFabric result.1).note (.submitted c authority result.2.isOk))) :
    P (s.submitted c frame authority result) := by
  rw [Coordinator.submitted]
  split
  · exact h.pump hnoted
  · exact h.pump (h.sendError hnoted)

theorem handleDefineEnsemble {s : Coordinator} {c : Connection} {frame : Frame}
    {message : DefineEnsembleMessage} (hs : P s) : P (s.handleDefineEnsemble c frame message) := by
  rw [Coordinator.handleDefineEnsemble]
  cases decodeSpec message.encodedSpec s.limits with
  | error error => exact h.sent (fun h => by cases h) hs
  | ok spec =>
    have hdefined := h.call (e := .defineEnsemble spec) rfl hs
    simp only
    split
    · exact h.sent (fun h => by cases h) (h.dirty hdefined)
    · exact h.sent (fun h => by cases h) hdefined

theorem handleOpenExecution {s : Coordinator} {c : Connection} {frame : Frame}
    {message : OpenExecutionMessage} (hs : P s) : P (s.handleOpenExecution c frame message) := by
  have hopened := h.call (e := .openExecution message.ensemble message.ensembleGeneration)
    rfl hs
  rw [Coordinator.handleOpenExecution]
  simp only
  split
  · exact h.pump (h.sent (fun h => by cases h) (h.dirty hopened))
  · exact h.sent (fun h => by cases h) hopened

theorem handleCancelEnsemble {s : Coordinator} {c : Connection} {frame : Frame}
    {message : CancelEnsembleMessage} (hs : P s) : P (s.handleCancelEnsemble c frame message) := by
  have hcancelled := h.call (e := .cancelEnsemble message.ensemble
    message.ensembleGeneration (bytesText message.reason)) rfl hs
  rw [Coordinator.handleCancelEnsemble]
  simp only
  split
  · exact h.dirty (h.sent (fun h => by cases h) (h.pump hcancelled))
  · exact h.dirty (h.sent (fun h => by cases h) hcancelled)

/-- What every frame preserves, given what greetings, registrations,
submissions and goodbyes do. -/
theorem handleFrame {s : Coordinator} {c : Connection} {frame : Frame} (hs : P s)
    (hhello : ∀ m, frame.type = .hello → decodeFront decodeHello frame = .ok m →
      P (s.handleHello c frame m))
    (hregister : ∀ m, frame.type = .registerParticipant →
      decodeWhole decodeRegisterParticipant "participant registration" frame = .ok m →
      P (s.handleRegister c frame m))
    (hsubmit : ∀ event authority, frame.Submits event authority →
      P ((s.withFabric (s.fabric.after event)).note
        (.submitted c authority (s.fabric.accepts event))))
    (hgoodbye : frame.type = .goodbye → P (s.handleConnectionLoss c)) :
    P (s.handleFrame c frame) := by
  rw [Coordinator.handleFrame]
  split
  · rename_i htype
    exact h.onMessage hs fun m hm => hhello m htype hm
  · rename_i htype
    exact h.onMessage hs fun m hm => hregister m htype hm
  · rename_i htype
    exact h.onMessage hs fun m hm => h.submitted (hsubmit _ _ (.result htype hm))
  · rename_i htype
    exact h.onMessage hs fun m hm => h.submitted (hsubmit _ _ (.failure htype hm))
  · rename_i htype
    exact h.onMessage hs fun m hm => h.submitted (hsubmit _ _ (.abstention htype hm))
  · rename_i htype
    exact h.onMessage hs fun m hm => h.submitted (hsubmit _ _ (.evaluation htype hm))
  · exact h.onMessage hs fun m _ => h.handleDefineEnsemble hs
  · exact h.onMessage hs fun m _ => h.handleOpenExecution hs
  · exact h.onMessage hs fun m _ => h.handleCancelEnsemble hs
  · exact h.onMessage hs fun m _ => h.waiting hs
  · exact h.onMessage hs fun m _ => h.sent (fun h => by cases h) hs
  · exact h.onMessage hs fun m _ => h.sent (fun h => by cases h) hs
  · exact hs
  · rename_i htype
    exact hgoodbye htype
  · exact h.sendError hs

/-- What every event preserves that does not look at the connections. -/
theorem next (hconnections : ∀ {s connections n}, P s →
      P { s with connections := connections, nextConnectionId := n })
    (hregistered : ∀ {s r}, P s → P (s.withFabric (s.fabric.after (.registerParticipant r))))
    {s : Coordinator} {event : CoordinatorEvent} (hs : P s)
    (hsubmit : ∀ id frame c call authority, event = .frame id frame → s.connection? id = some c →
      frame.Submits call authority →
      P ((s.withFabric (s.fabric.after call)).note
        (.submitted c authority (s.fabric.accepts call)))) :
    P (s.next event) := by
  have hset : ∀ {s c}, P s → P (s.setConnection c) := fun hs => hconnections hs
  cases event with
  | accepted =>
    rw [Coordinator.next, accept]
    split
    · exact hs
    · exact hconnections hs
  | rehashed order =>
    rw [Coordinator.next]
    split
    · exact hconnections (n := s.nextConnectionId) hs
    · exact hs
  | rehashedRegistrations id order =>
    rw [Coordinator.next]
    split
    · exact hs
    · split
      · exact hset hs
      · exact hs
  | frame id frame =>
    rw [Coordinator.next]
    cases hc : s.connection? id with
    | none => exact hs
    | some c =>
      refine h.handleFrame hs (fun m _ _ => h.sent (fun _ => rfl) (hset hs)) (fun m _ _ => ?_)
        (fun call authority hsubmits => hsubmit id frame c call authority rfl hc hsubmits)
        (fun _ => h.handleConnectionLoss hs)
      have hregister := hregistered (r := connectionRegistration c m.registration) hs
      rw [handleRegister]
      simp only
      split
      · exact h.pumpAll (h.sent (fun h => by cases h) (h.dirty (hset hregister)))
      · exact h.sent (fun h => by cases h) hregister
  | closed id =>
    rw [Coordinator.next]
    split
    · exact hs
    · exact h.handleConnectionLoss (hconnections (n := s.nextConnectionId) hs)
  | flush => exact h.flushPendingFinalize hs

end Served

/-! ## The runtime and the trail -/

/-- The trail only grows. -/
theorem served_noted (entry : Trail) : Served fun s => entry ∈ s.trail :=
  served_of_entries (fun _ h => h) (fun _ _ h => List.mem_append_left _ h) (fun h => h)
    fun h => h

end Coordinator

end EnsembleFabric
