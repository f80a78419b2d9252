import EnsembleFabric.FrameChannel
import EnsembleFabric.Restarting
import EnsembleFabric.Speaking
import EnsembleFabric.Staleness
import EnsembleFabric.Worker

/-!
# The two deployments

Every action of the runtime is translated twice. The local driver makes a
request of it and calls the backend; the coordinator makes a message of it,
and the worker calls its backend with what it reads. A dispatch is the same
request on both ways as long as it is within the bounds of the wire. An
evaluation is not: the driver looks up what the candidate has produced, and
the coordinator sends an empty payload (`deployments_agree_iff`).

The comparison is of one action in the middle of a round, with the same
runtime under both deployments and the same actions before it. The state of
each is `having` these actions done, and in both the runtime stays under its
epoch (`having_under`), which every message carries. On the way of the wire
the frame is encoded, read back by the worker and decoded; `Conveyed` is the
bound that lets it through, and a message that ends in one run of bytes is
kept whole exactly if it is within it. For an evaluation there is no second
reading: what starts as a request without a payload is not read as one with
a payload (`evaluationPayload_unique`).

The example is one runtime under both: the dispatch of the lone candidate is
asked of both backends alike, and the judge of the same ensemble is shown
the payload `[7]` by the driver and an empty one by the coordinator.
-/

namespace EnsembleFabric

open Write (flat)

/-! ## The runtime under a deployment -/

theorem Reached.epoch_after {config : FabricConfig} {f : Fabric} (h : Reached config f)
    {event : Event} (hserves : event.serves = true) :
    (f.after event).core.epoch = f.core.epoch := by
  refine next_epoch (s := { fabric := f }) h.named ?_
  rintro client boot rfl
  cases hserves

namespace LocalEnsembleDriver

variable {σ : Type} {d : LocalEnsembleDriver σ} {P : Fabric → Prop}

section Calls

variable (hcall : ∀ f event, event.serves = true → P f → P (f.after event))

include hcall

/-- An action is at most one call of the runtime. -/
theorem perform_preserves (a : FabricAction) (h : P d.fabric) : P (d.perform a).1.fabric := by
  cases a with
  | dispatch a =>
    rw [perform, performDispatch]
    split
    · exact h
    · rename_i p backend _
      dsimp only
      cases (backend.produce (d.dispatchRequest a) d.world).1 with
      | error error => exact hcall _ (.submitCandidateFailure _) rfl h
      | ok production =>
        rw [submitProduction]
        cases production.kind with
        | content => exact hcall _ (.submitCandidate _) rfl h
        | abstention => exact hcall _ (.submitCandidateAbstention _) rfl h
        | failure => exact hcall _ (.submitCandidateFailure _) rfl h
  | evaluate a =>
    rw [perform, performEvaluation]
    split
    · exact h
    · split
      · exact h
      · dsimp only
        split
        · exact h
        · exact hcall _ (.submitEvaluation _) rfl h
  | cancel a => exact h
  | fallback a => exact h

theorem performAll_preserves (actions : List FabricAction) (h : P d.fabric) :
    P (d.performAll actions).1.fabric := by
  induction actions generalizing d with
  | nil => exact h
  | cons a actions ih => exact ih (perform_preserves hcall a h)

end Calls

theorem submitProduction_ensemble {authority : CandidateAuthority}
    {production : Outcome ParticipantProduction} :
    (d.submitProduction authority production).1.ensemble = d.ensemble := by
  cases production with
  | error error => rfl
  | ok production =>
    rw [submitProduction]
    cases production.kind <;> rfl

theorem perform_ensemble (a : FabricAction) : (d.perform a).1.ensemble = d.ensemble := by
  cases a with
  | dispatch a =>
    rw [perform, performDispatch]
    split
    · rfl
    · exact submitProduction_ensemble
  | evaluate a =>
    rw [perform, performEvaluation]
    split
    · rfl
    · split
      · rfl
      · dsimp only
        split <;> rfl
  | cancel a => rfl
  | fallback a => rfl

theorem performAll_ensemble (actions : List FabricAction) :
    (d.performAll actions).1.ensemble = d.ensemble := by
  induction actions generalizing d with
  | nil => rfl
  | cons a actions ih => exact ih.trans (perform_ensemble a)

/-- The runtime of the driver after the advance of its round. -/
def advanced (d : LocalEnsembleDriver σ) : LocalEnsembleDriver σ :=
  d.withFabric (advance d.fabric d.ensemble d.ensembleGeneration).1

/-- The actions of the round. -/
def actions (d : LocalEnsembleDriver σ) : Outcome (List FabricAction) :=
  (advance d.fabric d.ensemble d.ensembleGeneration).2

/-- The driver in its round, after the actions it has done. -/
def having (d : LocalEnsembleDriver σ) (done : List FabricAction) : LocalEnsembleDriver σ :=
  (d.advanced.performAll done).1

theorem performAll_append (done rest : List FabricAction) :
    (d.performAll (done ++ rest)).1 = ((d.performAll done).1.performAll rest).1 := by
  induction done generalizing d with
  | nil => rfl
  | cons a done ih => exact ih

/-- A round performs its actions one after the other. -/
theorem step_having {done rest : List FabricAction} (h : d.actions = .ok (done ++ rest)) :
    d.step.1 = ((d.having done).performAll rest).1 := by
  have hadvance : advance d.fabric d.ensemble d.ensembleGeneration
      = (d.advanced.fabric, .ok (done ++ rest)) := by
    rw [← h]
    rfl
  rw [having, ← performAll_append, step, hadvance]
  rfl

end LocalEnsembleDriver

namespace Coordinator

variable {s : Coordinator} {P : Fabric → Prop}

/-- The coordinator in a round of `pump`, after the actions it has
transported. -/
def having (s : Coordinator) (id : EnsembleId) (generation : EnsembleGeneration)
    (done : List FabricAction) : Coordinator :=
  done.foldl transport (s.withFabric (advance s.fabric id generation).1)

theorem transport_preserves
    (hcall : ∀ f event, event.serves = true → P f → P (f.after event)) (a : FabricAction)
    (h : P s.fabric) : P (s.transport a).fabric := by
  cases a with
  | dispatch a =>
    rw [transport]
    split
    · exact hcall _ (.reportParticipantFailure _ _ _) rfl h
    · exact h
  | evaluate a | cancel a =>
    rw [transport]
    split
    · exact h
    · exact h
  | fallback a => exact h

theorem transports_preserve
    (hcall : ∀ f event, event.serves = true → P f → P (f.after event))
    (actions : List FabricAction) (h : P s.fabric) : P (actions.foldl transport s).fabric := by
  induction actions generalizing s with
  | nil => exact h
  | cons a actions ih => exact ih (transport_preserves hcall a h)

end Coordinator

/-- Reached, and still under the epoch. -/
def Under (config : FabricConfig) (epoch : CoordinatorEpoch) (f : Fabric) : Prop :=
  Reached config f ∧ f.core.epoch = epoch

theorem Under.after {config : FabricConfig} {epoch : CoordinatorEpoch} (f : Fabric) (event : Event)
    (hserves : event.serves = true) (h : Under config epoch f) :
    Under config epoch (f.after event) :=
  ⟨h.1.after (.inl hserves), (h.1.epoch_after hserves).trans h.2⟩

/-- In a round over the same runtime, both deployments stay under its epoch. -/
theorem having_under {σ : Type} {config : FabricConfig} {d : LocalEnsembleDriver σ}
    {s : Coordinator} (hreached : Reached config d.fabric) (hfabric : s.fabric = d.fabric)
    (done : List FabricAction) :
    Under config d.fabric.core.epoch (d.having done).fabric
      ∧ Under config d.fabric.core.epoch
          (s.having d.ensemble d.ensembleGeneration done).fabric := by
  have hadvanced : Under config d.fabric.core.epoch d.advanced.fabric :=
    Under.after d.fabric (.advance d.ensemble d.ensembleGeneration) rfl ⟨hreached, rfl⟩
  refine ⟨LocalEnsembleDriver.performAll_preserves (d := d.advanced) Under.after done hadvanced,
    Coordinator.transports_preserve Under.after done ?_⟩
  rw [hfabric]
  exact hadvanced

/-! ## What the driver asks -/

/-- The candidates an inspection shows. -/
def Fabric.shown (f : Fabric) (id : EnsembleId) : List CandidateRecord :=
  match (f.find id).bind (·.execution) with
  | none => []
  | some x => x.candidates.take f.config.limits.maxRecordsPerSnapshot.toNat

/-- Nothing the candidate has produced is shown. -/
def Fabric.showsNothing (f : Fabric) (id : EnsembleId) (candidate : CandidateId) : Prop :=
  ∀ c ∈ f.shown id, c.id = candidate → c.payload = []

instance (f : Fabric) (id : EnsembleId) (candidate : CandidateId) :
    Decidable (f.showsNothing id candidate) :=
  inferInstanceAs (Decidable (∀ c ∈ _, _))

theorem inspect_shown {f : Fabric} {id : EnsembleId} {snapshot : EnsembleSnapshot}
    (h : inspect f id = .ok snapshot) :
    snapshot.candidates.map (fun c => (c.id, c.payload))
      = (f.shown id).map fun c => (c.id, c.payload) := by
  rw [inspect] at h
  cases hfind : f.find id with
  | none =>
    rw [hfind] at h
    cases h
  | some e =>
    rw [hfind] at h
    cases hexecution : e.execution with
    | none =>
      simp only [hexecution, Except.ok.injEq] at h
      simp only [← h, snapshotEnsemble, Fabric.shown, hfind, Option.bind_some, hexecution,
        List.map_nil]
    | some x =>
      simp only [hexecution, Except.ok.injEq] at h
      simp only [← h, Fabric.shown, hfind, Option.bind_some, hexecution, List.map_map]
      rfl

namespace LocalEnsembleDriver

/-- With one entry for every identity, what is found is the entry's, or what
was there before. -/
theorem foldl_payload {entries : List (CandidateId × List UInt8)} (candidate : CandidateId)
    (hdistinct : (entries.map (·.1)).Nodup) (payload : List UInt8) :
    entries.foldl (fun payload c => if c.1 = candidate then c.2 else payload) payload = []
      ↔ (∀ c ∈ entries, c.1 = candidate → c.2 = [])
        ∧ ((∀ c ∈ entries, c.1 ≠ candidate) → payload = []) := by
  induction entries generalizing payload with
  | nil => simp
  | cons c entries ih =>
    rw [List.map_cons, List.nodup_cons] at hdistinct
    rw [List.foldl_cons, ih hdistinct.2]
    by_cases hc : c.1 = candidate
    · have hother : ∀ c' ∈ entries, c'.1 ≠ candidate := by
        intro c' hc' heq
        exact hdistinct.1 (List.mem_map.mpr ⟨c', hc', heq.trans hc.symm⟩)
      rw [if_pos hc]
      constructor
      · rintro ⟨-, hempty⟩
        refine ⟨?_, fun h => absurd hc (h c (List.mem_cons_self ..))⟩
        intro c' hc' heq
        rcases List.mem_cons.mp hc' with rfl | hrest
        · exact hempty hother
        · exact absurd heq (hother c' hrest)
      · rintro ⟨hempty, -⟩
        exact ⟨fun c' hc' heq => absurd heq (hother c' hc'),
          fun _ => hempty c (List.mem_cons_self ..) hc⟩
    · rw [if_neg hc]
      simp only [List.forall_mem_cons, hc, false_implies, true_and, ne_eq, not_false_eq_true]

theorem shownPayload_eq_nil {config : FabricConfig} {f : Fabric} {id : EnsembleId}
    {snapshot : EnsembleSnapshot} (hreached : Reached config f)
    (h : inspect f id = .ok snapshot) (candidate : CandidateId) :
    shownPayload snapshot candidate = [] ↔ f.showsNothing id candidate := by
  have hshown := inspect_shown h
  have hdistinct : ((f.shown id).map (·.id)).Nodup := by
    rw [Fabric.shown]
    cases hfind : f.find id with
    | none => exact List.nodup_nil
    | some e =>
      cases hexecution : e.execution with
      | none =>
        simp only [Option.bind_some, hexecution]
        exact List.nodup_nil
      | some x =>
        have hnodup := (hreached.numbered id).candidates.distinct
        rw [View.candidateIds_of hfind hexecution] at hnodup
        simp only [Option.bind_some, hexecution]
        exact hnodup.sublist ((List.take_sublist ..).map _)
  have hpayload : shownPayload snapshot candidate
      = ((f.shown id).map fun c => (c.id, c.payload)).foldl
          (fun payload c => if c.1 = candidate then c.2 else payload) [] := by
    rw [← hshown, List.foldl_map]
    rfl
  rw [hpayload, foldl_payload candidate (by rw [List.map_map]; exact hdistinct) []]
  simp only [List.forall_mem_map, implies_true, and_true]
  exact Iff.rfl

variable {σ : Type} {d : LocalEnsembleDriver σ}

theorem append_ne_self {α : Type} {l : List α} {a : α} : l ≠ l ++ [a] := by
  intro h
  have hlength := congrArg List.length h
  rw [List.length_append, List.length_singleton] at hlength
  omega

theorem submitProduction_asked {authority : CandidateAuthority}
    {production : Outcome ParticipantProduction} :
    (d.submitProduction authority production).1.asked = d.asked := by
  cases production with
  | error error => rfl
  | ok production =>
    rw [submitProduction]
    cases production.kind <;> rfl

theorem performDispatch_asked {a : DispatchAction} {request : BackendRequest}
    (h : (d.performDispatch a).1.asked = d.asked ++ [request]) :
    request = .produce (d.dispatchRequest a) := by
  rw [performDispatch] at h
  split at h
  · exact absurd h append_ne_self
  · dsimp only at h
    rw [submitProduction_asked, List.append_cancel_left_eq, List.singleton_inj] at h
    exact h.symm

theorem performEvaluation_asked {a : EvaluationAction} {request : BackendRequest}
    (h : (d.performEvaluation a).1.asked = d.asked ++ [request]) :
    ∃ snapshot, inspect d.fabric d.ensemble = .ok snapshot
      ∧ request = .evaluate (d.evaluationRequest a (shownPayload snapshot a.candidate)) := by
  rw [performEvaluation] at h
  split at h
  · exact absurd h append_ne_self
  · split at h
    · exact absurd h append_ne_self
    · rename_i snapshot hinspect
      refine ⟨snapshot, hinspect, ?_⟩
      dsimp only at h
      split at h <;>
        · simp only [submit, List.append_cancel_left_eq, List.singleton_inj] at h
          exact h.symm

end LocalEnsembleDriver

/-! ## What the worker is asked -/

namespace EnsembleWorker

variable {σ : Type} {w : EnsembleWorker σ} {sender : Limits} {frame : Frame}

/-- The worker after a frame was handed to the channel on the other side. -/
def receive (w : EnsembleWorker σ) (sender : Limits) (frame : Frame) : EnsembleWorker σ :=
  match encodeFrame frame sender with
  | .error _ => w
  | .ok bytes =>
      match decodeFrame bytes w.config.limits with
      | .complete received _ => w.handleFrame received
      | .needMoreData => w
      | .failed _ => w

/-- A receiver reads no frame that is larger than it allows. -/
theorem fits_of_decodeFrame {limits : Limits} {received : Frame} {consumed : Nat}
    (hsent : frame.Fits sender)
    (h : decodeFrame frame.image limits = .complete received consumed) : frame.Fits limits := by
  obtain ⟨hreceived, himage, -⟩ := decodeFrame_canonical h
  have hheader : received.header received.checksum = frame.header frame.checksum := by
    have hconsumed := congrArg (List.take Frame.headerBytes) himage
    have hlong : Frame.headerBytes ≤ consumed := by
      have hlength := congrArg List.length himage
      rw [Frame.image_length, List.length_take] at hlength
      omega
    rw [List.take_take, Nat.min_eq_left hlong] at hconsumed
    have htake := frame.take_image []
    have htake' := received.take_image []
    rw [List.append_nil] at htake htake'
    rw [← htake, ← htake']
    exact hconsumed
  have hwords := (received.header_words received.checksum).2.2.2.2.2.1
  rw [hheader, (frame.header_words frame.checksum).2.2.2.2.2.1] at hwords
  have hlengths := congrArg LittleEndian.word hwords
  rw [Frame.Fits] at hsent hreceived ⊢
  have hsender : sender.maxFrameBytes.toNat < 2 ^ 32 := sender.maxFrameBytes.toNat_lt
  have hlimits : limits.maxFrameBytes.toNat < 2 ^ 32 := limits.maxFrameBytes.toNat_lt
  have hsize : frame.payload.length < 2 ^ 32 := by omega
  have hsize' : received.payload.length < 2 ^ 32 := by omega
  rw [LittleEndian.word_bytes_of_lt hsize, LittleEndian.word_bytes_of_lt hsize'] at hlengths
  rw [hlengths]
  exact hreceived

/-- A frame asks the backend something if it fits both ends and the worker
makes this request of it. -/
theorem receive_asked {request : BackendRequest} :
    (w.receive sender frame).asked = w.asked ++ [request]
      ↔ frame.Fits sender ∧ frame.Fits w.config.limits
        ∧ (w.handleFrame frame.received).asked = w.asked ++ [request] := by
  rw [receive]
  by_cases hsent : frame.Fits sender
  · rw [encodeFrame_eq hsent]
    by_cases hfits : frame.Fits w.config.limits
    · have himage := decodeFrame_image hfits []
      rw [List.append_nil] at himage
      simp only [himage, hsent, hfits, true_and, Frame.received]
    · simp only [hfits, false_and, and_false, iff_false]
      split
      · rename_i hread
        exact absurd (fits_of_decodeFrame hsent hread) hfits
      · exact LocalEnsembleDriver.append_ne_self
      · exact LocalEnsembleDriver.append_ne_self
  · simp only [hsent, false_and, iff_false]
    split
    · exact LocalEnsembleDriver.append_ne_self
    · rename_i hencoded
      exact absurd (encodeFrame_fits hencoded) hsent

theorem reply_asked {request : BackendRequest} {world : σ} {type : MessageType}
    {writes : List Write} :
    (w.reply frame request world type writes).asked = w.asked ++ [request] := rfl

/-- The payload is read as a message if it is its encoding. -/
theorem decodeWhole_exact {α : Type} {decode : Decoder α} {legal : α → Prop}
    {put : α → List Write} (context : String) {m : α} (h : Exact decode legal put) :
    Coordinator.decodeWhole decode context frame = .ok m
      ↔ legal m ∧ frame.payload = flat (put m) := by
  rw [decodeWhole_eq_ok]
  constructor
  · exact h.canonical
  · rintro ⟨hlegal, hpayload⟩
    rw [hpayload]
    exact h.reads hlegal

theorem handleFrame_dispatch {m : DispatchCandidateMessage}
    (htype : frame.type = .dispatchCandidate) :
    (w.handleFrame frame).asked = w.asked ++ [.produce m]
      ↔ m.legal ∧ frame.payload = flat (encodeDispatchCandidate m) := by
  rw [← decodeWhole_exact "candidate dispatch" decodeDispatchCandidate_exact,
    handleFrame, htype]
  dsimp only
  split
  · rename_i hread
    rw [hread]
    exact iff_of_false LocalEnsembleDriver.append_ne_self nofun
  · rename_i m' hread
    rw [hread, handleDispatch]
    dsimp only
    rw [reply_asked, List.append_cancel_left_eq, List.singleton_inj,
      BackendRequest.produce.injEq, Except.ok.injEq]

theorem handleFrame_evaluation {m : EvaluationRequestMessage}
    (htype : frame.type = .evaluationRequest) :
    (w.handleFrame frame).asked = w.asked ++ [.evaluate m]
      ↔ m.legal ∧ frame.payload = flat (encodeEvaluationRequest m) := by
  rw [← decodeWhole_exact "evaluation request" decodeEvaluationRequest_exact,
    handleFrame, htype]
  dsimp only
  split
  · rename_i hread
    rw [hread]
    exact iff_of_false LocalEnsembleDriver.append_ne_self nofun
  · rename_i m' hread
    rw [hread, handleEvaluation, Except.ok.injEq]
    split <;>
      · simp only [reply_asked, List.append_cancel_left_eq, List.singleton_inj,
          BackendRequest.evaluate.injEq]

end EnsembleWorker

/-! ## The bounds of the wire -/

/-- A message of so many bytes, the last of them one run, gets over the wire:
the encoder keeps all of it, and its frame fits both ends. -/
structure Conveyed (sender receiver : Limits) (front last : Nat) : Prop where
  message : front + last ≤ sender.maxPersistenceBytes.toNat
    ∨ front = sender.maxPersistenceBytes.toNat
  sent : Frame.headerBytes + (front + last) ≤ sender.maxFrameBytes.toNat
  received : Frame.headerBytes + (front + last) ≤ receiver.maxFrameBytes.toNat

theorem conveyed_iff {sender : Limits} (receiver : Limits) {frame : Frame} {writes : List Write}
    {last : List UInt8}
    (hpayload : frame.payload = Encoder.buffer sender (writes ++ [.raw last])) :
    frame.Fits sender ∧ frame.Fits receiver ∧ frame.payload = flat (writes ++ [.raw last])
      ↔ Conveyed sender receiver (flat writes).length last.length := by
  have hflat : (flat (writes ++ [.raw last])).length = (flat writes).length + last.length := by
    rw [Write.flat_append, List.length_append, Write.flat_cons, Write.flat_nil, List.append_nil,
      Write.bytes]
  constructor
  · rintro ⟨hsent, hreceived, hwhole⟩
    rw [Frame.Fits, hwhole, hflat] at hsent hreceived
    rw [hpayload, Encoder.buffer_raw_eq] at hwhole
    exact ⟨hwhole, hsent, hreceived⟩
  · rintro ⟨hmessage, hsent, hreceived⟩
    have hwhole : frame.payload = flat (writes ++ [.raw last]) := by
      rw [hpayload]
      exact Encoder.buffer_raw_eq.mpr hmessage
    rw [Frame.Fits, Frame.Fits, hwhole, hflat]
    exact ⟨hsent, hreceived, rfl⟩

/-- An encoder whose output is no shorter than its input has kept everything
before the last run of bytes. -/
theorem buffer_front {limits : Limits} {writes : List Write} {last : List UInt8}
    (h : (flat writes).length + last.length
      ≤ (Encoder.buffer limits (writes ++ [.raw last])).length) :
    ∃ tail, Encoder.buffer limits (writes ++ [.raw last]) = flat writes ++ tail
      ∧ last.length ≤ tail.length := by
  rw [Encoder.buffer_append, Encoder.append, Encoder.requireCapacity] at h ⊢
  split at h
  · rename_i hover
    rw [List.length_append, Encoder.resize_length] at h
    have hfits : (flat writes).length ≤ limits.maxPersistenceBytes.toNat := by omega
    rw [if_pos hover, Encoder.buffer_eq hfits, Encoder.resize, List.take_of_length_le hfits,
      List.append_assoc]
    refine ⟨_, rfl, ?_⟩
    rw [List.length_append]
    exact Nat.le_add_left _ _
  · rename_i hover
    rw [if_neg hover]
    simp only [Bool.or_eq_true, decide_eq_true_eq, not_or] at hover
    rw [List.length_append] at h
    exact ⟨last, by rw [Encoder.buffer_eq (by omega)], le_rfl⟩

/-- Everything a dispatch writes before the last run of bytes. -/
def dispatchFront (m : DispatchCandidateMessage) : List Write :=
  [ Encoder.u64 m.ensemble.value,
    Encoder.u64 m.ensembleGeneration.value,
    Encoder.u64 m.execution.value,
    Encoder.u64 m.attemptGeneration.value,
    Encoder.u64 m.participant.value,
    Encoder.u64 m.participantGeneration.value,
    Encoder.u64 m.coordinatorEpoch.value,
    Encoder.u64 m.candidate.value,
    Encoder.u64 m.candidateGeneration.value,
    Encoder.u8 m.role.number,
    Encoder.u64 m.stage.value,
    Encoder.u32 m.attempt,
    Encoder.u32 m.budgetUnits,
    Encoder.u64 m.deterministicSeed,
    Encoder.string m.domain,
    Encoder.u32 (UInt32.ofNat m.request.length) ].flatten

theorem encodeDispatchCandidate_eq (m : DispatchCandidateMessage) :
    encodeDispatchCandidate m = dispatchFront m ++ [.raw m.request] := by
  simp [encodeDispatchCandidate, dispatchFront, Encoder.bytes]

theorem string_length (value : List UInt8) :
    (flat (Encoder.string value)).length = 4 + value.length := by
  rw [Encoder.string, Write.flat_append, List.length_append, u32_length]
  simp [Write.bytes]

theorem run_length (value : List UInt8) :
    (flat (Encoder.bytes value)).length = 4 + value.length := string_length value

theorem dispatchFront_length (m : DispatchCandidateMessage) :
    (flat (dispatchFront m)).length = 105 + m.domain.length := by
  simp only [dispatchFront, flatten_length, List.map_cons, List.map_nil, List.sum_cons,
    List.sum_nil, u8_length, u32_length, u64_length, string_length]
  omega

/-- The same for an evaluation request. -/
def evaluationFront (m : EvaluationRequestMessage) : List Write :=
  [ Encoder.u64 m.ensemble.value,
    Encoder.u64 m.ensembleGeneration.value,
    Encoder.u64 m.execution.value,
    Encoder.u64 m.attemptGeneration.value,
    Encoder.u64 m.judge.value,
    Encoder.u64 m.judgeGeneration.value,
    Encoder.u64 m.coordinatorEpoch.value,
    Encoder.u64 m.evaluation.value,
    Encoder.u64 m.evaluationGeneration.value,
    Encoder.u8 m.role.number,
    Encoder.u64 m.candidate.value,
    Encoder.u64 m.candidateGeneration.value,
    encodeCriterion m.criterion,
    Encoder.u8 m.criterionKind.number,
    Encoder.bytes m.candidatePayload,
    Encoder.u32 (UInt32.ofNat m.domain.length) ].flatten

theorem encodeEvaluationRequest_eq (m : EvaluationRequestMessage) :
    encodeEvaluationRequest m = evaluationFront m ++ [.raw m.domain] := by
  simp [encodeEvaluationRequest, evaluationFront, Encoder.string]

theorem evaluationFront_length (m : EvaluationRequestMessage) :
    (flat (evaluationFront m)).length = 106 + m.candidatePayload.length := by
  simp only [evaluationFront, flatten_length, List.map_cons, List.map_nil, List.sum_cons,
    List.sum_nil, u8_length, u32_length, u64_length, encodeCriterion, run_length]
  omega

/-! ## One action in both deployments -/

namespace FabricAction

/-- Whoever the action is for. -/
def performer : FabricAction → ParticipantId
  | .dispatch a => a.participant
  | .evaluate a => a.judge
  | .cancel a => a.participant
  | .fallback a => a.participant

/-- The bounds on the way of an action to the worker, and for an evaluation
that the driver finds nothing the candidate has produced; `f` is the runtime
of the driver, `id` its ensemble. -/
def Agreed (sender receiver : Limits) (f : Fabric) (id : EnsembleId) : FabricAction → Prop
  | .dispatch a =>
      a.domain.length ≤ 4096 ∧ a.request.length ≤ (megabytes 1).toNat
        ∧ Conveyed sender receiver (105 + a.domain.length) a.request.length
  | .evaluate a =>
      f.showsNothing id a.candidate ∧ a.domain.length ≤ 4096
        ∧ Conveyed sender receiver 106 a.domain.length
  | .cancel _ => False
  | .fallback _ => False

end FabricAction

section Agreement

variable {σ τ : Type} {d : LocalEnsembleDriver σ} {s : Coordinator} {w : EnsembleWorker τ}
  {c : Connection}

theorem Coordinator.transport_limits (a : FabricAction) : (s.transport a).limits = s.limits := by
  cases a with
  | dispatch a | evaluate a | cancel a =>
    rw [transport]
    split <;> rfl
  | fallback a => rfl

theorem Coordinator.having_limits (id : EnsembleId) (generation : EnsembleGeneration)
    (done : List FabricAction) : (s.having id generation done).limits = s.limits := by
  have htransports : ∀ (actions : List FabricAction) (s : Coordinator),
      (actions.foldl transport s).limits = s.limits := by
    intro actions
    induction actions with
    | nil => exact fun s => rfl
    | cons a actions ih =>
      intro s
      rw [List.foldl_cons, ih, transport_limits]
  exact htransports done _

theorem Coordinator.transport_dispatch {a : DispatchAction}
    (h : s.findConnectionFor a.participant = some c) :
    (s.transport (.dispatch a)).trail = s.trail ++ [.routed s.fabric (.dispatch a) c,
      s.sending c.id (s.actionFrame c .dispatchCandidate a.sequence
        (encodeDispatchCandidate (s.dispatchMessage a)))] := by
  rw [transport, h]
  exact List.append_assoc ..

theorem Coordinator.transport_evaluation {a : EvaluationAction}
    (h : s.findConnectionFor a.judge = some c) :
    (s.transport (.evaluate a)).trail = s.trail ++ [.routed s.fabric (.evaluate a) c,
      s.sending c.id (s.actionFrame c .evaluationRequest a.sequence
        (encodeEvaluationRequest (s.evaluationMessage a)))] := by
  rw [transport, h]
  exact List.append_assoc ..

/-- The two translations of a dispatch are the same. -/
theorem dispatchMessage_eq (hepoch : s.fabric.core.epoch = d.fabric.core.epoch)
    (a : DispatchAction) : s.dispatchMessage a = d.dispatchRequest a := by
  rw [Coordinator.dispatchMessage, LocalEnsembleDriver.dispatchRequest, hepoch]

/-- The two translations of an evaluation differ in the payload. -/
theorem evaluationMessage_eq (hepoch : s.fabric.core.epoch = d.fabric.core.epoch)
    (a : EvaluationAction) : s.evaluationMessage a = d.evaluationRequest a [] := by
  rw [Coordinator.evaluationMessage, LocalEnsembleDriver.evaluationRequest, hepoch]

theorem dispatch_agrees {a : DispatchAction} {f : Fabric} {id : EnsembleId}
    (hepoch : s.fabric.core.epoch = d.fabric.core.epoch) :
    (w.receive s.limits (s.actionFrame c .dispatchCandidate a.sequence
        (encodeDispatchCandidate (s.dispatchMessage a)))).asked
          = w.asked ++ [.produce (d.dispatchRequest a)]
      ↔ FabricAction.Agreed s.limits w.config.limits f id (.dispatch a) := by
  generalize hframe : s.actionFrame c .dispatchCandidate a.sequence
    (encodeDispatchCandidate (s.dispatchMessage a)) = frame
  have htype : frame.received.type = .dispatchCandidate := by rw [← hframe]; rfl
  have hpayload : frame.payload = Encoder.buffer s.limits
      (dispatchFront (d.dispatchRequest a) ++ [.raw (d.dispatchRequest a).request]) := by
    rw [← encodeDispatchCandidate_eq, ← dispatchMessage_eq hepoch, ← hframe]
    rfl
  have hdomain : (d.dispatchRequest a).domain.length = a.domain.length := textBytes_length _
  have hconveyed := conveyed_iff w.config.limits hpayload
  rw [dispatchFront_length, ← encodeDispatchCandidate_eq, hdomain] at hconveyed
  rw [EnsembleWorker.receive_asked, EnsembleWorker.handleFrame_dispatch htype,
    DispatchCandidateMessage.legal, hdomain, FabricAction.Agreed]
  constructor
  · rintro ⟨hsent, hreceived, ⟨hbound, hrequest⟩, hwhole⟩
    exact ⟨hbound, hrequest, hconveyed.mp ⟨hsent, hreceived, hwhole⟩⟩
  · rintro ⟨hbound, hrequest, hwire⟩
    obtain ⟨hsent, hreceived, hwhole⟩ := hconveyed.mpr hwire
    exact ⟨hsent, hreceived, ⟨hbound, hrequest⟩, hwhole⟩

/-- What starts as a request without a payload is not read as one with a
payload. -/
theorem evaluationPayload_unique {m : EvaluationRequestMessage} {payload bytes tail : List UInt8}
    (hlegal : ({ m with candidatePayload := payload } : EvaluationRequestMessage).legal)
    (hread : bytes = flat (encodeEvaluationRequest { m with candidatePayload := payload }))
    (hkept : bytes = flat (evaluationFront { m with candidatePayload := [] }) ++ tail)
    (htail : m.domain.length ≤ tail.length) : payload = [] := by
  have hfull := decodeEvaluationRequest_exact.reads hlegal
  rw [← hread] at hfull
  have hlength : (tail.take m.domain.length).length = m.domain.length := by
    rw [List.length_take]
    omega
  have hempty : decodeEvaluationRequest.run bytes
      = .ok ({ m with candidatePayload := [], domain := tail.take m.domain.length },
          tail.drop m.domain.length) := by
    refine (decodeEvaluationRequest_exact _ _ _).mpr ⟨trivial, ⟨Nat.zero_le _, ?_⟩, ?_⟩
    · rw [hlength]
      exact hlegal.2
    · rw [hkept, encodeEvaluationRequest_eq, Write.flat_append, Write.flat_cons, Write.flat_nil,
        List.append_nil, Write.bytes, List.append_assoc, List.take_append_drop, evaluationFront,
        evaluationFront, hlength]
  rw [hempty] at hfull
  exact (congrArg (·.1.candidatePayload) (Except.ok.inj hfull)).symm

theorem evaluation_agrees {config : FabricConfig} {a : EvaluationAction}
    {snapshot : EnsembleSnapshot} (hreached : Reached config d.fabric)
    (hepoch : s.fabric.core.epoch = d.fabric.core.epoch)
    (hinspect : inspect d.fabric d.ensemble = .ok snapshot) :
    (w.receive s.limits (s.actionFrame c .evaluationRequest a.sequence
        (encodeEvaluationRequest (s.evaluationMessage a)))).asked
          = w.asked ++ [.evaluate
              (d.evaluationRequest a (LocalEnsembleDriver.shownPayload snapshot a.candidate))]
      ↔ FabricAction.Agreed s.limits w.config.limits d.fabric d.ensemble (.evaluate a) := by
  generalize hframe : s.actionFrame c .evaluationRequest a.sequence
    (encodeEvaluationRequest (s.evaluationMessage a)) = frame
  have htype : frame.received.type = .evaluationRequest := by rw [← hframe]; rfl
  have hpayload : frame.payload = Encoder.buffer s.limits
      (evaluationFront (d.evaluationRequest a []) ++ [.raw (d.evaluationRequest a []).domain]) := by
    rw [← encodeEvaluationRequest_eq, ← evaluationMessage_eq hepoch, ← hframe]
    rfl
  have hdomain : ∀ payload, (d.evaluationRequest a payload).domain.length = a.domain.length :=
    fun _ => textBytes_length _
  have hconveyed := conveyed_iff w.config.limits hpayload
  rw [evaluationFront_length, ← encodeEvaluationRequest_eq, hdomain] at hconveyed
  rw [EnsembleWorker.receive_asked, EnsembleWorker.handleFrame_evaluation htype,
    EvaluationRequestMessage.legal, hdomain, FabricAction.Agreed,
    ← LocalEnsembleDriver.shownPayload_eq_nil hreached hinspect]
  generalize LocalEnsembleDriver.shownPayload snapshot a.candidate = payload
  constructor
  · rintro ⟨hsent, hreceived, hlegal, hread⟩
    change frame.payload = _ at hread
    -- what is read is long enough for the driver's payload, so the empty one was not lost
    have hlong : (flat (evaluationFront (d.evaluationRequest a []))).length
        + (d.evaluationRequest a []).domain.length ≤ frame.payload.length := by
      rw [hread, encodeEvaluationRequest_eq, Write.flat_append, List.length_append,
        evaluationFront_length, evaluationFront_length, Write.flat_cons, Write.flat_nil,
        List.append_nil, Write.bytes, hdomain, hdomain]
      exact Nat.add_le_add_right (Nat.add_le_add_left (Nat.zero_le _) _) _
    have hempty : payload = [] := by
      rw [hpayload] at hlong
      obtain ⟨tail, hkept, htail⟩ := buffer_front hlong
      rw [← hpayload] at hkept
      exact evaluationPayload_unique (m := d.evaluationRequest a [])
        ⟨hlegal.1, by rw [hdomain]; exact hlegal.2⟩ hread hkept htail
    subst hempty
    exact ⟨rfl, hlegal.2, hconveyed.mp ⟨hsent, hreceived, hread⟩⟩
  · rintro ⟨rfl, hbound, hwire⟩
    obtain ⟨hsent, hreceived, hwhole⟩ := hconveyed.mpr hwire
    exact ⟨hsent, hreceived, ⟨Nat.zero_le _, hbound⟩, hwhole⟩

/-- In every reachable state of the runtime, after the same actions in a
round over it, the next action is asked of a backend by the driver and
handed to a connection by the coordinator. The worker behind the connection
asks its backend the same if and only if the action is within the bounds of
the wire and, for an evaluation, the driver finds nothing the candidate has
produced. -/
theorem deployments_agree_iff {config : FabricConfig} {done rest : List FabricAction}
    {a : FabricAction} {request : BackendRequest} (hreached : Reached config d.fabric)
    (hfabric : s.fabric = d.fabric) (hactions : d.actions = .ok (done ++ a :: rest))
    (hasked : ((d.having done).perform a).1.asked = (d.having done).asked ++ [request])
    (hroute : (s.having d.ensemble d.ensembleGeneration done).findConnectionFor a.performer
      = some c) :
    d.step.1 = (((d.having done).perform a).1.performAll rest).1
      ∧ ∃ frame, ((s.having d.ensemble d.ensembleGeneration done).transport a).trail
          = (s.having d.ensemble d.ensembleGeneration done).trail
            ++ [.routed (s.having d.ensemble d.ensembleGeneration done).fabric a c,
                (s.having d.ensemble d.ensembleGeneration done).sending c.id frame]
        ∧ ((w.receive s.limits frame).asked = w.asked ++ [request]
          ↔ a.Agreed s.limits w.config.limits (d.having done).fabric d.ensemble) := by
  obtain ⟨⟨hdriver, hepoch⟩, -, hepoch'⟩ := having_under hreached hfabric done
  have hsame := hepoch'.trans hepoch.symm
  have hensemble : (d.having done).ensemble = d.ensemble :=
    LocalEnsembleDriver.performAll_ensemble (d := d.advanced) done
  refine ⟨LocalEnsembleDriver.step_having hactions, ?_⟩
  rw [← Coordinator.having_limits (s := s) d.ensemble d.ensembleGeneration done]
  cases a with
  | dispatch a =>
    obtain rfl := LocalEnsembleDriver.performDispatch_asked hasked
    exact ⟨_, Coordinator.transport_dispatch hroute, dispatch_agrees hsame⟩
  | evaluate a =>
    obtain ⟨snapshot, hinspect, rfl⟩ := LocalEnsembleDriver.performEvaluation_asked hasked
    have hagrees := evaluation_agrees (w := w) (c := c) (a := a) hdriver hsame hinspect
    rw [hensemble] at hagrees
    exact ⟨_, Coordinator.transport_evaluation hroute, hagrees⟩
  | cancel a => exact absurd hasked LocalEnsembleDriver.append_ne_self
  | fallback a => exact absurd hasked LocalEnsembleDriver.append_ne_self

end Agreement

namespace Sample

/-- A backend that answers everything with one production, or one judgment. -/
def backend : ParticipantBackend Unit where
  produce _ world := (.ok { payload := [7] }, world)
  evaluate _ world := (.ok { judgment := .accept }, world)

def localParticipant (p : UInt64) : LocalParticipant Unit where
  id := ⟨p⟩
  generation := ⟨1⟩
  worker := ⟨p⟩
  workerBoot := ⟨p⟩
  backend := some backend
  registered := true

/-- A driver that serves participants 1 and 2 over the runtime of a run. -/
def driver (events : List Event) : LocalEnsembleDriver Unit where
  fabric := (reached events).fabric
  ensemble := ⟨1⟩
  ensembleGeneration := ⟨1⟩
  participants := [localParticipant 1, localParticipant 2]
  world := ()

def connection (p : UInt64) : Connection where
  id := p
  worker := ⟨p⟩
  workerBoot := ⟨p⟩
  handshaken := true
  registrations := [(⟨p⟩, ⟨1⟩)]

/-- A coordinator over the same runtime, with a worker for each of them. -/
def served (events : List Event) : Coordinator where
  config := {}
  fabric := (reached events).fabric
  connections := [connection 1, connection 2]

def worker (p : UInt64) : EnsembleWorker Unit where
  config := { worker := ⟨p⟩, workerBoot := ⟨p⟩ }
  backend := backend
  world := ()
  coordinatorEpoch := ⟨1⟩

/-- The first dispatch of the lone ensemble. -/
def loneOpened : List Event := [.defineEnsemble loneSpec, register 1, .openExecution ⟨1⟩ ⟨1⟩]

def loneDispatch : DispatchAction where
  execution := ⟨⟨1⟩, ⟨1⟩, ⟨1⟩, ⟨1⟩⟩
  candidate := ⟨1⟩
  candidateGeneration := ⟨1⟩
  participant := ⟨1⟩
  participantGeneration := ⟨1⟩
  role := .candidate
  stage := ⟨1⟩
  attempt := 1
  budgetUnits := 0
  deterministicSeed := 0
  domain := ""
  request := []
  sequence := ⟨1⟩

/-- The candidate has answered, and the judge is asked about it. -/
def judgedAnswered : List Event := start judgedSpec ++ [content 1 1 [7]]

def judgingAction : EvaluationAction where
  execution := ⟨⟨1⟩, ⟨1⟩, ⟨1⟩, ⟨1⟩⟩
  evaluation := ⟨1⟩
  evaluationGeneration := ⟨1⟩
  judge := ⟨2⟩
  judgeGeneration := ⟨1⟩
  role := .judge
  candidate := ⟨1⟩
  candidateGeneration := ⟨1⟩
  criterion := ⟨1, 1⟩
  criterionKind := .rankingSignal
  domain := ""
  sequence := ⟨3⟩

def judgingRequest (payload : List UInt8) : EvaluationRequestMessage :=
  (driver judgedAnswered).evaluationRequest judgingAction payload

/-- The coordinator before it transports the action, and the frame it sends. -/
def judgingCoordinator : Coordinator := (served judgedAnswered).having ⟨1⟩ ⟨1⟩ []

def judgingFrame : Frame :=
  judgingCoordinator.actionFrame (connection 2) .evaluationRequest ⟨3⟩
    (encodeEvaluationRequest (judgingCoordinator.evaluationMessage judgingAction))

end Sample

open Sample in
/-- The lone dispatch is the same request in both deployments. -/
theorem lone_dispatch_agrees :
    (driver loneOpened).step.1
        = ((((driver loneOpened).having []).perform (.dispatch loneDispatch)).1.performAll []).1
      ∧ ∃ frame, (((served loneOpened).having ⟨1⟩ ⟨1⟩ []).transport
            (.dispatch loneDispatch)).trail
          = ((served loneOpened).having ⟨1⟩ ⟨1⟩ []).trail
            ++ [.routed ((served loneOpened).having ⟨1⟩ ⟨1⟩ []).fabric (.dispatch loneDispatch)
                (connection 1), ((served loneOpened).having ⟨1⟩ ⟨1⟩ []).sending 1 frame]
        ∧ (((worker 1).receive {} frame).asked
            = [.produce (((driver loneOpened).having []).dispatchRequest loneDispatch)]
          ↔ FabricAction.Agreed {} {} ((driver loneOpened).having []).fabric ⟨1⟩
              (.dispatch loneDispatch)) :=
  have hreached : Reached {} (driver loneOpened).fabric := ⟨loneOpened, rfl⟩
  have hactions : (driver loneOpened).actions = .ok ([] ++ .dispatch loneDispatch :: []) := by
    decide +kernel
  deployments_agree_iff (s := served loneOpened) (w := worker 1) hreached rfl hactions rfl rfl

open Sample in
/-- The judge of the driver is asked about the payload `[7]`, the judge behind
the coordinator about an empty one. -/
theorem judged_deployments_differ :
    (driver judgedAnswered).actions = .ok [.evaluate judgingAction]
      ∧ (((driver judgedAnswered).having []).perform (.evaluate judgingAction)).1.asked
          = [.evaluate (judgingRequest [7])]
      ∧ (judgingCoordinator.transport (.evaluate judgingAction)).trail
          = [.routed judgingCoordinator.fabric (.evaluate judgingAction) (connection 2),
              .sent 2 judgingFrame]
      ∧ ((worker 2).receive {} judgingFrame).asked = [.evaluate (judgingRequest [])]
      ∧ judgingRequest [7] ≠ judgingRequest [] := by
  have hfits : (encodeFrame judgingFrame judgingCoordinator.limits).isOk = true := by
    decide +kernel
  have htrail : (judgingCoordinator.transport (.evaluate judgingAction)).trail
      = [.routed judgingCoordinator.fabric (.evaluate judgingAction) (connection 2),
          .sent 2 judgingFrame] := by
    have hsending := @Coordinator.sending_sent judgingCoordinator 2 judgingFrame hfits
    rw [Coordinator.transport_evaluation (s := judgingCoordinator) (c := connection 2)
      (a := judgingAction) rfl]
    exact congrArg (fun entry => [Trail.routed judgingCoordinator.fabric
      (.evaluate judgingAction) (connection 2), entry]) hsending
  have hlegal : (judgingRequest []).legal := ⟨Nat.zero_le _, by decide +kernel⟩
  have hread : ((worker 2).handleFrame judgingFrame.received).asked
      = [.evaluate (judgingRequest [])] :=
    (EnsembleWorker.handleFrame_evaluation (w := worker 2) rfl).mpr ⟨hlegal, by decide +kernel⟩
  have hasked : ((worker 2).receive {} judgingFrame).asked = [.evaluate (judgingRequest [])] :=
    (EnsembleWorker.receive_asked (w := worker 2)).mpr
      ⟨by decide +kernel, by decide +kernel, hread⟩
  exact ⟨by decide +kernel, by decide +kernel, htrail, hasked, by decide +kernel⟩

end EnsembleFabric
