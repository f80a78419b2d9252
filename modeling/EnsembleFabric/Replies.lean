import EnsembleFabric.Library.Ledger
import EnsembleFabric.Serving

/-!
# Requests and replies

A process on a connection asks for something in one frame and is answered in
one frame with the same correlation. Most requests are answered when they
are handled; a finalize request waits until the execution has settled, while
other frames of the same connection and of others are handled. Evidence is
answered only when it is refused.

> What has been answered, what is still waiting and what got a reply that
> the channel refused make up what has been asked for, at every point of
> every run (`replies_balance`).

A refused reply is one that is too large for a frame. The coordinator does
not look at the status of `send`, so the request is neither answered nor
waiting any more, and whoever made it hears nothing.

Dispatches, evaluation requests and cancellations go over the same
connections with correlations of their own. They are not replies, and they
only go to a connection that has registered a participant; on any other
connection every frame is the reply to a request of it
(`bystander_hears_replies`).
-/

namespace EnsembleFabric

open EventSystem

/-! ## Requests -/

/-- A frame of this type is a reply. -/
def MessageType.replies : MessageType → Bool
  | .helloAck | .registerAck | .defineEnsembleAck | .openExecutionAck | .statusResponse
  | .finalizeResponse | .resultResponse | .inspectResponse | .errorResponse => true
  | _ => false

/-- Frames of this type are not answered. -/
def MessageType.unanswered : MessageType → Bool
  | .heartbeat | .goodbye => true
  | _ => false

/-- The evidence in a frame. -/
def Frame.evidence? (frame : Frame) : Option Event :=
  match frame.type with
  | .candidateResult =>
      (Coordinator.decodeWhole decodeCandidateResult "candidate result" frame).toOption.map
        fun m => .submitCandidate { authority := m.authority, payload := m.payload }
  | .candidateFailure =>
      (Coordinator.decodeWhole decodeCandidateFailure "candidate failure" frame).toOption.map
        fun m => .submitCandidateFailure
          { authority := m.authority, participantFailure := m.kind.number.toUInt32 }
  | .candidateAbstention =>
      (Coordinator.decodeWhole decodeCandidateAbstention "candidate abstention" frame).toOption.map
        fun m => .submitCandidateAbstention
          { authority := m.authority, rationale := bytesText m.rationale }
  | .evaluationResult =>
      (Coordinator.decodeWhole decodeEvaluationResult "evaluation result" frame).toOption.map
        fun m => .submitEvaluation (Coordinator.evaluationSubmission m)
  | _ => none

/-- A request of a connection. -/
abbrev Request := UInt64 × RequestId

/-- The request that a frame to a connection replies to. -/
def Frame.replyTo? (frame : Frame) (connection : UInt64) : Option Request :=
  if frame.type.replies then some (connection, frame.correlation) else none

/-- The request that an entry of the trail replies to. -/
def Trail.reply? : Trail → Option Request
  | .sent c frame => frame.replyTo? c
  | _ => none

/-- The request whose reply an entry of the trail has lost. -/
def Trail.unsent? : Trail → Option Request
  | .dropped c frame => frame.replyTo? c
  | _ => none

/-- The frame that an entry of the trail sends to a connection. -/
def Trail.to? (connection : UInt64) : Trail → Option Frame
  | .sent c frame => if c = connection then some frame else none
  | _ => none

def PendingFinalize.request (w : PendingFinalize) : Request := (w.connection, w.correlation)

namespace Coordinator

/-- The requests that have been replied to, in order. -/
def replied (s : Coordinator) : List Request := s.trail.filterMap Trail.reply?

/-- The requests whose replies the channels have refused. -/
def unsent (s : Coordinator) : List Request := s.trail.filterMap Trail.unsent?

/-- The finalize requests that are waiting. -/
def parked (s : Coordinator) : List Request := s.pendingFinalizes.map (·.request)

/-- What has been sent to a connection. -/
def heard (s : Coordinator) (connection : UInt64) : List Frame :=
  s.trail.filterMap (Trail.to? connection)

/-- The frame is owed a reply: it is a request, or evidence that is refused. -/
def owes (s : Coordinator) (frame : Frame) : Bool :=
  !frame.type.unanswered && !frame.evidence?.any s.fabric.accepts

/-- The request an event makes. -/
def asked (s : Coordinator) : CoordinatorEvent → List Request
  | .frame id frame =>
      if (s.connection? id).isSome && s.owes frame then [(id, frame.correlation)] else []
  | _ => []

/-! ## What the handlers do -/

/-- From `s` to `s'` no frames come in; `requests` are replied to, whether the
channel takes the reply or not, or parked. Only connections of `R` come to
serve anybody. -/
inductive Replies (R : UInt64 → Prop) : Coordinator → Coordinator → List Request → Prop where
  | refl (s : Coordinator) : Replies R s s []
  | trans {s m s' : Coordinator} {first second : List Request} (h : Replies R s m first)
      (h' : Replies R m s' second) : Replies R s s' (first ++ second)
  | runtime (s : Coordinator) (fabric : Fabric) : Replies R s (s.withFabric fabric) []
  | dirty (s : Coordinator) : Replies R s s.markDirty []
  | noted {s : Coordinator} {entry : Trail}
      (quiet : ∀ c frame, entry ≠ .sent c frame ∧ entry ≠ .dropped c frame) :
      Replies R s (s.note entry) []
  /-- Work goes to a connection that serves somebody. -/
  | work {s : Coordinator} {c : Connection} {p : ParticipantId} {frame : Frame}
      (serves : c ∈ s.connections ∧ c.serves p = true) (type : frame.type.replies = false) :
      Replies R s (s.sendFrame c.id frame) []
  | connections {s : Coordinator} {connections : List Connection}
      (kept : connections.map (·.id) = s.connections.map (·.id))
      (serving : ∀ c ∈ connections, c.registrations = [] ∨ R c.id
        ∨ ∃ c' ∈ s.connections, c'.id = c.id ∧ c'.registrations ≠ []) :
      Replies R s { s with connections } []
  | reply {s : Coordinator} {c : UInt64} {frame : Frame} (type : frame.type.replies = true) :
      Replies R s (s.sendFrame c frame) [(c, frame.correlation)]
  | parks {s : Coordinator} (w : PendingFinalize) :
      Replies R s { s with pendingFinalizes := s.pendingFinalizes ++ [w] } [w.request]

namespace Replies

variable {R : UInt64 → Prop} {s s' : Coordinator} {requests : List Request}

/-- More is sent that is no reply. -/
theorem quietly (h : Replies R s s' requests) {s'' : Coordinator}
    (h' : Replies R s' s'' []) : Replies R s s'' requests := by
  have hboth := h.trans h'
  rwa [List.append_nil] at hboth

theorem first (h : Replies R s s' []) {s'' : Coordinator}
    (h' : Replies R s' s'' requests) : Replies R s s'' requests := h.trans h'

theorem thenDirty (h : Replies R s s' requests) :
    Replies R s s'.markDirty requests := h.quietly (.dirty s')

theorem thenReply (h : Replies R s s' []) {c : UInt64} {frame : Frame}
    (type : frame.type.replies = true) :
    Replies R s (s'.sendFrame c frame) [(c, frame.correlation)] := h.first (.reply type)

end Replies

section Handlers

variable {R : UInt64 → Prop} {s : Coordinator} {c : Connection} {frame : Frame}

theorem setConnection_replies
    (h : c.registrations = [] ∨ R c.id
      ∨ ∃ c' ∈ s.connections, c'.id = c.id ∧ c'.registrations ≠ []) :
    Replies R s (s.setConnection c) [] := by
  refine .connections ?_ fun d hd => ?_
  · rw [List.map_map]
    refine List.map_congr_left fun other _ => ?_
    rw [Function.comp_apply]
    split
    · rename_i heq
      exact heq.symm
    · rfl
  · obtain ⟨other, hother, rfl⟩ := List.mem_map.mp hd
    split
    · exact h
    · by_cases hnone : other.registrations = []
      · exact .inl hnone
      · exact .inr (.inr ⟨other, hother, rfl, hnone⟩)

theorem findConnectionFor_serves {p : ParticipantId} (h : s.findConnectionFor p = some c) :
    c ∈ s.connections ∧ c.serves p = true :=
  ⟨List.mem_of_find?_eq_some h, by simpa using List.find?_some h⟩

theorem transport_replies (a : FabricAction) : Replies R s (s.transport a) [] := by
  have hrouted : ∀ {p : ParticipantId} {c : Connection} {action : FabricAction} {frame : Frame},
      s.findConnectionFor p = some c → frame.type.replies = false →
      Replies R s ((s.note (.routed s.fabric action c)).sendFrame c.id frame) [] := by
    intro p c action frame hfound htype
    have hnoted : Replies R s (s.note (.routed s.fabric action c)) [] :=
      .noted (by simp)
    exact hnoted.first (.work (findConnectionFor_serves hfound) htype)
  cases a with
  | dispatch a =>
    rw [transport]
    split
    · exact (Replies.runtime s _).first (.noted (by simp))
    · rename_i hfound
      exact hrouted hfound rfl
  | evaluate a =>
    rw [transport]
    split
    · exact .refl s
    · rename_i hfound
      exact hrouted hfound rfl
  | cancel a =>
    rw [transport]
    split
    · exact .refl s
    · rename_i hfound
      exact hrouted hfound rfl
  | fallback a => exact .refl s

theorem transports_replies (actions : List FabricAction) :
    Replies R s (actions.foldl transport s) [] := by
  induction actions generalizing s with
  | nil => exact .refl s
  | cons a actions ih => exact (transport_replies a).first ih

theorem pumpRounds_replies (rounds : Nat) (id : EnsembleId) :
    Replies R s (pumpRounds rounds s id) [] := by
  induction rounds generalizing s with
  | zero => exact .refl s
  | succ rounds ih =>
    rw [pumpRounds]
    split
    · exact .refl s
    · split
      · exact .runtime s _
      · exact .runtime s _
      · exact ((Replies.runtime s _).first (transports_replies _)).first ih

theorem pump_replies (id : EnsembleId) : Replies R s (s.pump id) [] :=
  pumpRounds_replies 8 id

theorem Replies.thenPump {s' : Coordinator} {requests : List Request}
    (h : Replies R s s' requests) (id : EnsembleId) :
    Replies R s (s'.pump id) requests := h.quietly (pump_replies id)

theorem pumpAll_replies : Replies R s s.pumpAll [] := by
  rw [pumpAll]
  generalize listEnsembles s.fabric = ids
  induction ids generalizing s with
  | nil => exact .refl s
  | cons id ids ih => exact (pump_replies id).first ih

theorem Replies.thenPumpAll {s' : Coordinator} {requests : List Request}
    (h : Replies R s s' requests) : Replies R s s'.pumpAll requests :=
  h.quietly pumpAll_replies

theorem reportLosts_replies (authorities : List ParticipantAuthority) :
    Replies R s (authorities.foldl reportLost s) [] := by
  induction authorities generalizing s with
  | nil => exact .refl s
  | cons a authorities ih => exact (Replies.runtime s _).first ih

theorem loseIn_replies (epoch : CoordinatorEpoch) (id : EnsembleId) :
    Replies R s (loseIn c epoch s id) [] := by
  rw [loseIn]
  split
  · exact .refl s
  · exact (reportLosts_replies _).first (pump_replies id)

theorem handleConnectionLoss_replies : Replies R s (s.handleConnectionLoss c) [] := by
  rw [handleConnectionLoss]
  split
  · exact .refl s
  · generalize listEnsembles s.fabric = ids
    generalize s.fabric.core.epoch = epoch
    induction ids generalizing s with
    | nil => exact .refl s
    | cons id ids ih => exact (loseIn_replies epoch id).first ih

/-! ### Frames -/

theorem sendError_replies (id : UInt64) (correlation : RequestId) (error : Error) :
    Replies R s (s.sendError id correlation error) [(id, correlation)] := by
  rw [sendError]
  exact .reply rfl

theorem onMessage_replies {α : Type} {message : Outcome α} {handle : α → Coordinator}
    (h : ∀ m, Replies R s (handle m) [(c.id, frame.correlation)]) :
    Replies R s (s.onMessage c frame message handle) [(c.id, frame.correlation)] := by
  cases message with
  | error error => exact sendError_replies ..
  | ok m => exact h m

theorem handleHello_replies (hc : c ∈ s.connections) (m : HelloMessage) :
    Replies R s (s.handleHello c frame m) [(c.id, frame.correlation)] := by
  refine (setConnection_replies ?_).thenReply rfl
  by_cases hnone : c.registrations = []
  · exact .inl hnone
  · exact .inr (.inr ⟨c, hc, rfl, hnone⟩)

theorem handleRegister_replies (hregisters : R c.id) (m : RegisterParticipantMessage) :
    Replies R s (s.handleRegister c frame m) [(c.id, frame.correlation)] := by
  have hruntime := Replies.runtime (R := R) s
    (registerParticipant s.fabric (connectionRegistration c m.registration)).1
  rw [handleRegister]
  simp only
  split
  · refine Replies.thenPumpAll (Replies.thenReply (Replies.thenDirty ?_) rfl)
    exact hruntime.first (setConnection_replies (.inr (.inl hregisters)))
  · exact hruntime.thenReply rfl

theorem handleDefineEnsemble_replies (m : DefineEnsembleMessage) :
    Replies R s (s.handleDefineEnsemble c frame m) [(c.id, frame.correlation)] := by
  rw [handleDefineEnsemble]
  split
  · exact .reply rfl
  · rename_i spec _
    have hruntime := Replies.runtime (R := R) s (defineEnsemble s.fabric spec).1
    simp only
    split
    · exact hruntime.thenDirty.thenReply rfl
    · exact hruntime.thenReply rfl

theorem handleOpenExecution_replies (m : OpenExecutionMessage) :
    Replies R s (s.handleOpenExecution c frame m) [(c.id, frame.correlation)] := by
  have hruntime := Replies.runtime (R := R) s
    (openExecution s.fabric m.ensemble m.ensembleGeneration).1
  rw [handleOpenExecution]
  simp only
  split
  · exact (hruntime.thenDirty.thenReply rfl).thenPump _
  · exact hruntime.thenReply rfl

theorem handleCancelEnsemble_replies (m : CancelEnsembleMessage) :
    Replies R s (s.handleCancelEnsemble c frame m) [(c.id, frame.correlation)] := by
  have hruntime := Replies.runtime (R := R) s
    (cancelEnsemble s.fabric m.ensemble m.ensembleGeneration (bytesText m.reason)).1
  rw [handleCancelEnsemble]
  simp only
  split
  · exact ((hruntime.thenPump _).thenReply rfl).thenDirty
  · exact (hruntime.thenReply rfl).thenDirty

/-- Evidence is answered when it is refused. -/
theorem submitted_replies {α : Type} (a : ParticipantAuthority) (result : Fabric × Outcome α) :
    Replies R s (s.submitted c frame a result)
      (if result.2.isOk then [] else [(c.id, frame.correlation)]) := by
  have hnoted : Replies R s
      ((s.withFabric result.1).note (.submitted c a result.2.isOk)) [] :=
    (Replies.runtime s _).first (.noted (by simp))
  rw [submitted]
  obtain ⟨fabric, outcome⟩ := result
  cases outcome with
  | error error => exact hnoted.first ((sendError_replies ..).quietly (pump_replies _))
  | ok value => exact hnoted.first (pump_replies _)

/-- The frame is a request. -/
theorem owes_request (htype : frame.type.unanswered = false) (hnone : frame.evidence? = none) :
    s.owes frame = true := by
  rw [owes, htype, hnone]
  rfl

theorem onRequest_replies {α : Type} {message : Outcome α} {handle : α → Coordinator}
    (htype : frame.type.unanswered = false) (hnone : frame.evidence? = none)
    (h : ∀ m, Replies R s (handle m) [(c.id, frame.correlation)]) :
    Replies R s (s.onMessage c frame message handle)
      (if s.owes frame then [(c.id, frame.correlation)] else []) := by
  rw [owes_request htype hnone]
  exact onMessage_replies h

theorem onEvidence_replies {α : Type} {message : Outcome α} {handle : α → Coordinator}
    {call : α → Event} (htype : frame.type.unanswered = false)
    (hevidence : frame.evidence? = message.toOption.map call)
    (h : ∀ m, Replies R s (handle m)
      (if s.fabric.accepts (call m) then [] else [(c.id, frame.correlation)])) :
    Replies R s (s.onMessage c frame message handle)
      (if s.owes frame then [(c.id, frame.correlation)] else []) := by
  cases message with
  | error error =>
    rw [owes_request htype hevidence]
    exact sendError_replies ..
  | ok m =>
    have howes : s.owes frame = !s.fabric.accepts (call m) := by
      rw [owes, htype, hevidence]
      rfl
    have hm := h m
    rw [howes]
    cases haccepts : s.fabric.accepts (call m) <;> rw [haccepts] at hm <;> exact hm

/-- A frame gets the reply it is owed, and no other. -/
theorem handleFrame_replies (hc : c ∈ s.connections)
    (hregisters : frame.type = .registerParticipant → R c.id) :
    Replies R s (s.handleFrame c frame)
      (if s.owes frame then [(c.id, frame.correlation)] else []) := by
  have hrefused : s.owes frame = true → ∀ error,
      Replies R s (s.sendError c.id frame.correlation error)
        (if s.owes frame then [(c.id, frame.correlation)] else []) := by
    intro howes error
    rw [howes]
    exact sendError_replies ..
  have hevidence : ∀ type, frame.type = type → (type = .candidateResult
        ∨ type = .candidateFailure ∨ type = .candidateAbstention ∨ type = .evaluationResult
        ∨ frame.evidence? = none) := by
    intro type htype
    cases type <;> simp [Frame.evidence?, htype]
  rw [handleFrame]
  cases htype : frame.type with
  | hello =>
    exact onRequest_replies (by rw [htype]; rfl) (by simpa using hevidence _ htype)
      (handleHello_replies hc)
  | registerParticipant =>
    exact onRequest_replies (by rw [htype]; rfl) (by simpa using hevidence _ htype)
      (handleRegister_replies (hregisters htype))
  | defineEnsemble =>
    exact onRequest_replies (by rw [htype]; rfl) (by simpa using hevidence _ htype)
      handleDefineEnsemble_replies
  | openExecution =>
    exact onRequest_replies (by rw [htype]; rfl) (by simpa using hevidence _ htype)
      handleOpenExecution_replies
  | cancelEnsemble =>
    exact onRequest_replies (by rw [htype]; rfl) (by simpa using hevidence _ htype)
      handleCancelEnsemble_replies
  | finalizeRequest =>
    exact onRequest_replies (by rw [htype]; rfl) (by simpa using hevidence _ htype)
      fun m => .parks _
  | queryResult =>
    exact onRequest_replies (by rw [htype]; rfl) (by simpa using hevidence _ htype)
      fun m => .reply rfl
  | candidateResult =>
    exact onEvidence_replies (by rw [htype]; rfl) (by rw [Frame.evidence?, htype])
      fun m => submitted_replies ..
  | candidateFailure =>
    exact onEvidence_replies (by rw [htype]; rfl) (by rw [Frame.evidence?, htype])
      fun m => submitted_replies ..
  | candidateAbstention =>
    exact onEvidence_replies (by rw [htype]; rfl) (by rw [Frame.evidence?, htype])
      fun m => submitted_replies ..
  | evaluationResult =>
    exact onEvidence_replies (by rw [htype]; rfl) (by rw [Frame.evidence?, htype])
      fun m => submitted_replies ..
  | inspectRequest =>
    exact onRequest_replies (by rw [htype]; rfl) (by simpa using hevidence _ htype)
      fun m => .reply rfl
  | heartbeat =>
    have howes : s.owes frame = false := by rw [owes, htype]; rfl
    rw [howes]
    exact .refl s
  | goodbye =>
    have howes : s.owes frame = false := by rw [owes, htype]; rfl
    rw [howes]
    exact handleConnectionLoss_replies
  | _ => exact hrefused (owes_request (by rw [htype]; rfl) (by simpa using hevidence _ htype)) _

/-! ### Waiting requests -/

theorem answerWaiter_replies (w : PendingFinalize) :
    Replies R s (s.answerWaiter w) [w.request] := by
  rw [answerWaiter]
  split
  · exact .reply rfl
  · exact .parks w
  · exact Replies.thenDirty (Replies.thenReply (.runtime s _) rfl)

theorem answerWaiters_replies (waiters : List PendingFinalize) :
    Replies R s (waiters.foldl answerWaiter s) (waiters.map (·.request)) := by
  induction waiters generalizing s with
  | nil => exact .refl s
  | cons w waiters ih => exact (answerWaiter_replies w).trans ih

end Handlers

/-! ## The balance -/

theorem replied_append {s : Coordinator} {entry : Trail} :
    (s.note entry).replied = s.replied ++ entry.reply?.toList := by
  rw [note, replied, replied, List.filterMap_append]
  cases h : entry.reply? <;> simp [h]

theorem unsent_append {s : Coordinator} {entry : Trail} :
    (s.note entry).unsent = s.unsent ++ entry.unsent?.toList := by
  rw [note, unsent, unsent, List.filterMap_append]
  cases h : entry.unsent? <;> simp [h]

/-- A frame is sent or not, and with it the reply it is. -/
theorem sendFrame_replied (s : Coordinator) (c : UInt64) (frame : Frame) :
    ((s.sendFrame c frame).replied ++ (s.sendFrame c frame).unsent).Perm
      (s.replied ++ s.unsent ++ (frame.replyTo? c).toList) := by
  rw [sendFrame, replied_append, unsent_append]
  rcases s.sending_cases c frame with hsending | hsending
  · rw [hsending]
    show (s.replied ++ (frame.replyTo? c).toList ++ (s.unsent ++ [])).Perm _
    rw [List.append_nil, List.append_assoc, List.append_assoc]
    exact List.perm_append_comm.append_left _
  · rw [hsending]
    show (s.replied ++ [] ++ (s.unsent ++ (frame.replyTo? c).toList)).Perm _
    rw [List.append_nil, List.append_assoc]

theorem Replies.config {R : UInt64 → Prop} {s s' : Coordinator} {requests : List Request}
    (h : Replies R s s' requests) : s'.config = s.config := by
  induction h with
  | trans _ _ ih ih' => exact ih'.trans ih
  | _ => rfl

/-- No connection comes or goes. -/
theorem Replies.ids {R : UInt64 → Prop} {s s' : Coordinator} {requests : List Request}
    (h : Replies R s s' requests) :
    s'.connections.map (·.id) = s.connections.map (·.id) := by
  induction h with
  | trans _ _ ih ih' => exact ih'.trans ih
  | connections kept => exact kept
  | _ => rfl

/-- The trail is only added to. -/
theorem Replies.grows {R : UInt64 → Prop} {s s' : Coordinator} {requests : List Request}
    (h : Replies R s s' requests) : s.trail <+: s'.trail := by
  induction h with
  | trans _ _ ih ih' => exact ih.trans ih'
  | noted | work | reply => exact List.prefix_append _ _
  | _ => exact List.prefix_rfl

/-- The requests that have been dealt with, and those that are waiting. -/
def accounted (s : Coordinator) : List Request := s.replied ++ s.unsent ++ s.parked

/-- Everything that is asked for is replied to or parked. -/
theorem Replies.balance {R : UInt64 → Prop} {s s' : Coordinator}
    {requests : List Request} (h : Replies R s s' requests) :
    s'.accounted.Perm (s.accounted ++ requests) := by
  have hsends : ∀ (s : Coordinator) (c : UInt64) (frame : Frame),
      (s.sendFrame c frame).accounted.Perm (s.accounted ++ (frame.replyTo? c).toList) := by
    intro s c frame
    refine ((sendFrame_replied s c frame).append_right _).trans ?_
    rw [accounted, List.append_assoc _ s.parked, List.append_assoc]
    exact List.perm_append_comm.append_left _
  induction h with
  | refl s =>
    rw [List.append_nil]
  | runtime s | dirty s | connections =>
    rw [List.append_nil]
    exact .refl _
  | @trans s m s' first second _ _ ih ih' =>
    refine ih'.trans ?_
    rw [← List.append_assoc]
    exact ih.append_right second
  | @noted s entry quiet =>
    have hnone : entry.reply? = none ∧ entry.unsent? = none := by
      cases entry with
      | sent c frame => exact absurd rfl (quiet c frame).1
      | dropped c frame => exact absurd rfl (quiet c frame).2
      | _ => exact ⟨rfl, rfl⟩
    rw [accounted, replied_append, unsent_append, hnone.1, hnone.2, Option.toList_none,
      List.append_nil, List.append_nil, List.append_nil]
    exact .refl _
  | @work s c p frame _ type =>
    have hwork := hsends s c.id frame
    rw [Frame.replyTo?, type] at hwork
    exact hwork
  | @reply s c frame type =>
    have hreply := hsends s c frame
    rw [Frame.replyTo?, if_pos type] at hreply
    exact hreply
  | @parks s w =>
    rw [accounted, parked, List.map_append, ← List.append_assoc]
    exact .refl _

end Coordinator

namespace Coordinator

theorem mem_connections {s : Coordinator} {id : UInt64} {c : Connection}
    (h : s.connection? id = some c) : c ∈ s.connections ∧ c.id = id :=
  ⟨List.mem_of_find?_eq_some h, by simpa using List.find?_some h⟩

theorem next_balance (s : Coordinator) (event : CoordinatorEvent) :
    (s.next event).accounted.Perm (s.accounted ++ s.asked event) := by
  have hsame : ∀ {s' : Coordinator}, s'.trail = s.trail →
      s'.pendingFinalizes = s.pendingFinalizes →
      s'.accounted.Perm (s.accounted ++ []) := by
    intro s' htrail hpending
    rw [accounted, replied, unsent, parked, htrail, hpending, List.append_nil]
    exact .refl _
  cases event with
  | accepted =>
    rw [next, accept]
    split <;> exact hsame rfl rfl
  | rehashed order =>
    rw [next]
    split <;> exact hsame rfl rfl
  | rehashedRegistrations id order =>
    rw [next]
    split
    · exact hsame rfl rfl
    · split <;> exact hsame rfl rfl
  | frame id frame =>
    rw [next, asked]
    cases hc : s.connection? id with
    | none => exact hsame rfl rfl
    | some c =>
      obtain ⟨hmem, rfl⟩ := mem_connections hc
      exact (handleFrame_replies (R := fun _ => True) hmem (fun _ => trivial)).balance
  | closed id =>
    rw [next]
    split
    · exact hsame rfl rfl
    · exact (handleConnectionLoss_replies (R := fun _ => True)).balance
  | flush =>
    have hflush := (answerWaiters_replies (R := fun _ => True)
      (s := { s with pendingFinalizes := [] }) s.pendingFinalizes).balance
    have hcleared : ({ s with pendingFinalizes := [] } : Coordinator).accounted
        = s.replied ++ s.unsent := List.append_nil _
    rw [hcleared] at hflush
    simp only [asked, List.append_nil]
    exact hflush

theorem next_grows (s : Coordinator) (event : CoordinatorEvent) :
    s.trail <+: (s.next event).trail := by
  cases event with
  | accepted =>
    rw [next, accept]
    split <;> exact List.prefix_rfl
  | rehashed order =>
    rw [next]
    split <;> exact List.prefix_rfl
  | rehashedRegistrations id order =>
    rw [next]
    split
    · exact List.prefix_rfl
    · split <;> exact List.prefix_rfl
  | frame id frame =>
    rw [next]
    cases hc : s.connection? id with
    | none => exact List.prefix_rfl
    | some c =>
      exact (handleFrame_replies (R := fun _ => True) (mem_connections hc).1
        fun _ => trivial).grows
  | closed id =>
    rw [next]
    split
    · exact List.prefix_rfl
    · rename_i c _
      exact (handleConnectionLoss_replies (R := fun _ => True)
        (s := { s with connections := s.connections.filter (·.id != c.id) })).grows
  | flush =>
    exact (answerWaiters_replies (R := fun _ => True)
      (s := { s with pendingFinalizes := [] }) s.pendingFinalizes).grows

theorem run_grows (s : Coordinator) (events : List CoordinatorEvent) :
    s.trail <+: (run next s events).trail := by
  induction events generalizing s with
  | nil => exact List.prefix_rfl
  | cons event events ih => exact (next_grows s event).trans (ih (s.next event))

theorem run_balance (s : Coordinator) (events : List CoordinatorEvent) :
    (run next s events).accounted.Perm (s.accounted ++ ledger next asked s events) := by
  induction events generalizing s with
  | nil =>
    rw [ledger, List.append_nil]
    exact .refl _
  | cons event events ih =>
    rw [run_cons, ledger, ← List.append_assoc]
    exact (ih (s.next event)).trans ((next_balance s event).append_right _)

/-- At every point of every run of a coordinator, what has been answered, what
got a reply that the channel refused and what is waiting are together what has
been asked for: no request is answered twice, and none goes without an answer
but by the size of it. -/
theorem replies_balance (config : CoordinatorConfig) (fabric : Fabric)
    (events : List CoordinatorEvent) :
    ((run next (create config fabric) events).replied
        ++ (run next (create config fabric) events).unsent
        ++ (run next (create config fabric) events).parked).Perm
      (ledger next asked (create config fabric) events) :=
  run_balance (create config fabric) events

end Coordinator

/-! ## Bystanders -/

/-- The event registers a participant on a connection. -/
def CoordinatorEvent.registersOn (id : UInt64) : CoordinatorEvent → Bool
  | .frame connection request => connection == id && request.type == .registerParticipant
  | _ => false

namespace Coordinator

/-- The connection has registered nobody. -/
def Bystander (s : Coordinator) (id : UInt64) : Prop :=
  ∀ c ∈ s.connections, c.id = id → c.registrations = []

/-- What the connection hears from `s` to `s'` are replies. -/
structure HearsReplies (id : UInt64) (s s' : Coordinator) : Prop where
  bystander : s'.Bystander id
  replies : ∃ more, s'.heard id = s.heard id ++ more ∧ ∀ frame ∈ more, frame.type.replies = true

theorem HearsReplies.same {id : UInt64} {s s' : Coordinator} (hs : s.Bystander id)
    (hconnections : s'.connections = s.connections) (htrail : s'.trail = s.trail) :
    HearsReplies id s s' :=
  ⟨by rw [Bystander, hconnections]; exact hs,
    [], by rw [heard, heard, htrail, List.append_nil], fun _ h => by cases h⟩

theorem HearsReplies.trans {id : UInt64} {s m s' : Coordinator} (h : HearsReplies id s m)
    (h' : HearsReplies id m s') : HearsReplies id s s' := by
  obtain ⟨first, hfirst, hreplies⟩ := h.replies
  obtain ⟨second, hsecond, hreplies'⟩ := h'.replies
  refine ⟨h'.bystander, first ++ second, by rw [hsecond, hfirst, List.append_assoc], ?_⟩
  intro frame hframe
  rcases List.mem_append.mp hframe with hframe | hframe
  · exact hreplies frame hframe
  · exact hreplies' frame hframe

theorem heard_append {s : Coordinator} {entry : Trail} {id : UInt64} :
    (s.note entry).heard id = s.heard id ++ (entry.to? id).toList := by
  rw [note, heard, heard, List.filterMap_append]
  cases h : entry.to? id <;> simp [h]

theorem Replies.bystander {R : UInt64 → Prop} {s s' : Coordinator}
    {requests : List Request} (h : Replies R s s' requests) {id : UInt64}
    (hid : ¬ R id) (hs : s.Bystander id) : HearsReplies id s s' := by
  induction h with
  | refl s | runtime s | dirty s | parks => exact .same hs rfl rfl
  | trans _ _ ih ih' =>
    have hfirst := ih hs
    exact hfirst.trans (ih' hfirst.bystander)
  | @noted s entry quiet =>
    have hnone : entry.to? id = none := by
      cases entry with
      | sent c frame => exact absurd rfl (quiet c frame).1
      | _ => rfl
    exact ⟨hs, [], by rw [heard_append, hnone]; rfl, fun _ h => by cases h⟩
  | @work s c p frame serves type =>
    have hother : c.id ≠ id := by
      intro heq
      have hserves := serves.2
      rw [Connection.serves, hs c serves.1 heq] at hserves
      cases hserves
    have hnone : (s.sending c.id frame).to? id = none := by
      rcases s.sending_cases c.id frame with hsending | hsending
      · rw [hsending, Trail.to?, if_neg hother]
      · rw [hsending]
        rfl
    exact ⟨hs, [], by rw [sendFrame, heard_append, hnone]; rfl, fun _ h => by cases h⟩
  | connections _ serving =>
    refine ⟨fun c hc heq => ?_, [], by rw [List.append_nil]; rfl, fun _ h => by cases h⟩
    subst heq
    rcases serving c hc with hnone | hregisters | ⟨c', hc', hsame, hsome⟩
    · exact hnone
    · exact absurd hregisters hid
    · exact absurd (hs c' hc' hsame) hsome
  | @reply s c frame type =>
    refine ⟨hs, ((s.sending c frame).to? id).toList, by rw [sendFrame, heard_append], ?_⟩
    intro other hother
    rcases s.sending_cases c frame with hsending | hsending
    · rw [hsending, Trail.to?] at hother
      split at hother
      · obtain rfl := List.mem_singleton.mp hother
        exact type
      · cases hother
    · rw [hsending] at hother
      cases hother

theorem next_bystander {s : Coordinator} {id : UInt64} {event : CoordinatorEvent}
    (hs : s.Bystander id) (hregisters : event.registersOn id = false) :
    HearsReplies id s (s.next event) := by
  have hperm : ∀ {order : List Connection}, order.Perm s.connections →
      HearsReplies id s { s with connections := order } := fun horder =>
    ⟨fun c hc => hs c (horder.mem_iff.mp hc), [], by rw [List.append_nil]; rfl,
      fun _ h => by cases h⟩
  cases event with
  | accepted =>
    rw [next, accept]
    split
    · exact .same hs rfl rfl
    · refine ⟨fun c hc heq => ?_, [], by rw [List.append_nil]; rfl, fun _ h => by cases h⟩
      rcases List.mem_cons.mp hc with rfl | hc
      · rfl
      · exact hs c hc heq
  | rehashed order =>
    rw [next]
    split
    · rename_i horder
      exact hperm (List.isPerm_iff.mp horder)
    · exact .same hs rfl rfl
  | rehashedRegistrations other order =>
    rw [next]
    split
    · exact .same hs rfl rfl
    · rename_i c hc
      obtain ⟨hmem, rfl⟩ := mem_connections hc
      split
      · rename_i horder
        have hset : Replies (fun _ => False) s
            (s.setConnection { c with registrations := order }) [] := by
          refine setConnection_replies ?_
          by_cases hnone : c.registrations = []
          · rw [hnone] at horder
            exact .inl (List.isPerm_iff.mp horder).eq_nil
          · exact .inr (.inr ⟨c, hmem, rfl, hnone⟩)
        exact hset.bystander (fun h => h) hs
      · exact .same hs rfl rfl
  | frame other frame =>
    rw [next]
    cases hc : s.connection? other with
    | none => exact .same hs rfl rfl
    | some c =>
      obtain ⟨hmem, rfl⟩ := mem_connections hc
      refine (handleFrame_replies (R := (· ≠ id)) hmem ?_).bystander (fun h => h rfl) hs
      rintro htype rfl
      simp [CoordinatorEvent.registersOn, htype] at hregisters
  | closed other =>
    rw [next]
    split
    · exact .same hs rfl rfl
    · rename_i c hc
      have hleft : HearsReplies id s
          { s with connections := s.connections.filter (·.id != c.id) } :=
        ⟨fun c hc => hs c (List.mem_of_mem_filter hc), [], by rw [List.append_nil]; rfl,
          fun _ h => by cases h⟩
      exact hleft.trans
        ((handleConnectionLoss_replies (R := fun _ => False)).bystander (fun h => h)
          hleft.bystander)
  | flush =>
    have hcleared : HearsReplies id s { s with pendingFinalizes := [] } := .same hs rfl rfl
    exact hcleared.trans
      ((answerWaiters_replies (R := fun _ => False) s.pendingFinalizes).bystander
        (fun h => h) hcleared.bystander)

theorem run_bystander {s : Coordinator} {id : UInt64} {events : List CoordinatorEvent}
    (hs : s.Bystander id) (hregisters : ∀ event ∈ events, event.registersOn id = false) :
    HearsReplies id s (run next s events) := by
  induction events generalizing s with
  | nil => exact .same hs rfl rfl
  | cons event events ih =>
    obtain ⟨hregister, hregisters⟩ := List.forall_mem_cons.mp hregisters
    have hnext := next_bystander hs hregister
    exact hnext.trans (ih hnext.bystander hregisters)

/-- The replies to a connection are what it has heard of replies. -/
theorem replied_heard (s : Coordinator) (id : UInt64) :
    s.replied.filter (·.1 == id)
      = ((s.heard id).filter (·.type.replies)).map fun frame => (id, frame.correlation) := by
  rw [replied, heard]
  induction s.trail with
  | nil => rfl
  | cons entry trail ih =>
    cases entry with
    | sent c frame =>
      by_cases hid : c = id <;> cases htype : frame.type.replies <;>
        simp [Trail.reply?, Frame.replyTo?, Trail.to?, hid, htype, ih]
    | dropped | routed | unrouted | submitted => exact ih

/-- What a connection hears from `s` to `s'` are the replies to requests that
were waiting or have come in; only those that wait, and those whose replies
are refused, have none. -/
structure HearsAnswers (id : UInt64) (s s' : Coordinator) (requests : List Request) : Prop where
  bystander : s'.Bystander id
  answers : ∃ more lost, s'.heard id = s.heard id ++ more ∧ s'.unsent = s.unsent ++ lost
    ∧ (∀ frame ∈ more, frame.type.replies = true)
    ∧ (more.map (fun frame => (id, frame.correlation)) ++ lost.filter (·.1 == id)
          ++ s'.parked.filter (·.1 == id)).Perm
        (s.parked.filter (·.1 == id) ++ requests.filter (·.1 == id))

theorem HearsReplies.answers {id : UInt64} {s s' : Coordinator} {requests : List Request}
    (h : HearsReplies id s s') (hgrows : s.trail <+: s'.trail)
    (hbalance : s'.accounted.Perm (s.accounted ++ requests)) :
    HearsAnswers id s s' requests := by
  obtain ⟨more, hmore, hreplies⟩ := h.replies
  obtain ⟨trail, htrail⟩ := hgrows
  have hunsent : s'.unsent = s.unsent ++ trail.filterMap Trail.unsent? := by
    rw [unsent, ← htrail, List.filterMap_append]
    rfl
  refine ⟨h.bystander, more, _, hmore, hunsent, hreplies, List.perm_iff_count.mpr fun r => ?_⟩
  have hfiltered := (hbalance.filter (·.1 == id)).count_eq r
  simp only [accounted, List.filter_append, replied_heard, hmore, hunsent, List.map_append,
    List.filter_eq_self.mpr hreplies, List.count_append] at hfiltered ⊢
  omega

theorem run_answers {s : Coordinator} {id : UInt64} {events : List CoordinatorEvent}
    (hs : s.Bystander id) (hregisters : ∀ event ∈ events, event.registersOn id = false) :
    HearsAnswers id s (run next s events) (ledger next asked s events) :=
  (run_bystander hs hregisters).answers (run_grows s events) (run_balance s events)

/-- What a connection that registers nobody is ever sent is one reply to each
of its requests; only those that wait have none yet, and those whose replies
are too large for a frame never get one. -/
theorem bystander_hears_replies (config : CoordinatorConfig) (fabric : Fabric) (id : UInt64)
    (events : List CoordinatorEvent)
    (hregisters : ∀ event ∈ events, event.registersOn id = false) :
    (∀ frame ∈ (run next (create config fabric) events).heard id, frame.type.replies = true)
      ∧ (((run next (create config fabric) events).heard id).map
              (fun frame => (id, frame.correlation))
            ++ ((run next (create config fabric) events).unsent
              ++ (run next (create config fabric) events).parked).filter (·.1 == id)).Perm
          ((ledger next asked (create config fabric) events).filter (·.1 == id)) := by
  have hnobody : (create config fabric).Bystander id := fun c hc => by cases hc
  obtain ⟨more, lost, hmore, hlost, hreplies, hperm⟩ := (run_answers hnobody hregisters).answers
  rw [show (create config fabric).heard id = [] from rfl, List.nil_append] at hmore
  rw [show (create config fabric).unsent = [] from rfl, List.nil_append] at hlost
  rw [hmore, hlost, List.filter_append, ← List.append_assoc]
  exact ⟨hreplies, hperm⟩

namespace Sample

/-- Somebody connects, greets in a frame that cannot be read, asks for a result
that is not there yet, and inspects an ensemble that nobody has defined. -/
def greeting : List CoordinatorEvent :=
  [.accepted, .frame 1 { type := .hello, correlation := ⟨7⟩ },
    .frame 1
      { type := .finalizeRequest, correlation := ⟨8⟩
        payload := Write.flat (encodeFinalizeRequest
          { ensemble := ⟨1⟩, ensembleGeneration := ⟨1⟩ }) },
    .frame 1
      { type := .inspectRequest, correlation := ⟨9⟩
        payload := Write.flat (encodeInspectRequest { ensemble := ⟨1⟩ }) }]

def greeted : Coordinator := run next (create {} (freshFabric {})) greeting

end Sample

/-- Two requests are answered, one of them by the result of the inspection, and
one is parked. -/
theorem greeting_heard :
    (Sample.greeted.heard 1).map (·.correlation) = [⟨7⟩, ⟨9⟩]
      ∧ Sample.greeted.parked = [(1, ⟨8⟩)]
      ∧ (∀ frame ∈ Sample.greeted.heard 1, frame.type.replies = true)
      ∧ ((Sample.greeted.heard 1).map (fun frame => ((1 : UInt64), frame.correlation))
            ++ (Sample.greeted.unsent ++ Sample.greeted.parked).filter (·.1 == 1)).Perm
          ((ledger next asked (create {} (freshFabric {})) Sample.greeting).filter (·.1 == 1)) :=
  ⟨by decide +kernel, by decide +kernel,
    bystander_hears_replies {} (freshFabric {}) 1 Sample.greeting (by decide +kernel)⟩

end Coordinator

end EnsembleFabric
