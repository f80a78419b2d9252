import EnsembleFabric.Planned
import EnsembleFabric.Recovery

/-!
# Restarts and registrations

A restart withdraws every seat in one section and moves the epoch in the
next; the tail of a recovery moves the epoch first and withdraws every seat
then. A seat that is taken between the two sections of a restart is taken
under the epoch that is about to end: its participant is registered, bound
to an epoch that is over, and cannot register again.

In runs in which no seat is taken between the two sections of a restart,
every participant that is registered is bound to the epoch of the runtime.
The tail of a recovery needs no such condition.

A recovery is not an event of the runtime: it replaces the whole state by
that of a file. `Tails` puts the two together, the runtime and the number of
recoveries that are between their two sections, and its events are the
sections of both (`TailEvent`). The invariant `Calm` has one clause for each
place a run can be in: while a restart is between its sections nobody is
seated (`Vacated`), and with no recovery under way whoever is seated is bound
to the epoch of the runtime (`SeatsBound`). A seat of an earlier epoch is
what keeps a participant out, so from the second clause nobody is stranded
(`SeatsBound.noneStranded`).
-/

namespace EnsembleFabric

open EventSystem

/-! ## Seats and their epochs -/

/-- The participant is registered and current. -/
def ParticipantRecord.seated (p : ParticipantRecord) : Bool := p.registered && p.status == .current

/-- Nobody is seated. -/
def Vacated (f : Fabric) : Prop :=
  ∀ id e, f.find id = some e → ∀ p ∈ e.participants, p.seated = false

/-- Whoever is seated is bound to the epoch of the runtime. -/
def SeatsBound (f : Fabric) : Prop :=
  ∀ id e, f.find id = some e → ∀ p ∈ e.participants, p.seated = true →
    p.coordinatorEpoch = f.core.epoch

/-- The registration is complete, of the current epoch and generation, and
asks for no more than the ensemble grants. -/
structure Compatible (f : Fabric) (r : ParticipantRegistration) (seat : Seat) : Prop where
  identities : (r.ensemble.valid && r.ensembleGeneration.valid && r.participant.valid
    && r.worker.valid && r.workerBoot.valid && r.coordinatorEpoch.valid) = true
  epoch : r.coordinatorEpoch = f.core.epoch
  ensemble : f.find r.ensemble = some seat.ensemble
  generation : seat.ensemble.spec.generation = r.ensembleGeneration
  declared : seat.ensemble.seat? r.participant = some seat
  roles : seat.participant.declaration.roles.containsAll r.claimedRoles = true
  profile : checkCompatibility seat.participant.declaration.compatibility r.profile = .ok ()

/-- Every participant that is not registered under the epoch of the runtime
may register. -/
def Welcomes (f : Fabric) : Prop :=
  ∀ r seat, Compatible f r seat → seat.participant.authoritative f.core.epoch = false →
    ∃ generation, (registerParticipant f r).2 = .ok generation

/-- No participant is stranded: none is registered under another epoch than that
of the runtime, and everybody else may register. -/
structure NoneStranded (f : Fabric) : Prop where
  bound : SeatsBound f
  welcomes : Welcomes f

theorem Vacated.seatsBound {f : Fabric} (h : Vacated f) : SeatsBound f := by
  intro id e he p hp hseated
  rw [h id e he p hp] at hseated
  cases hseated

theorem Compatible.admitted {f : Fabric} {r : ParticipantRegistration} {seat : Seat}
    (h : Compatible f r seat) (hvacant : seat.participant.seated = false) :
    admitRegistration f r = .ok seat := by
  have hdemanded : (!(seat.participant.registered && seat.participant.status == .current))
      = true := by
    rw [Bool.not_eq_true']
    exact hvacant
  simp only [admitRegistration, Checks.bind_eq_ok, demand_eq_ok, located_eq_ok, uncounted_eq_ok,
    Checks.pure_eq_ok]
  exact ⟨(), h.identities, (), beq_iff_eq.mpr h.epoch, seat.ensemble, h.ensemble, (),
    beq_iff_eq.mpr h.generation, seat, h.declared, (), hdemanded, (), h.roles, (), h.profile, rfl⟩

/-- Where seats are bound to the epoch, nobody is kept out by a seat of an
earlier one. -/
theorem SeatsBound.noneStranded {f : Fabric} (h : SeatsBound f) : NoneStranded f := by
  refine ⟨h, fun r seat hcompatible haway => ?_⟩
  have hat := seat?_eq_some hcompatible.declared
  have hvacant : seat.participant.seated = false := by
    cases hseated : seat.participant.seated with
    | false => rfl
    | true =>
      have hepoch := h _ _ hcompatible.ensemble _ (List.mem_of_getElem? hat.get) hseated
      rw [ParticipantRecord.seated] at hseated
      rw [ParticipantRecord.authoritative, hseated, hepoch] at haway
      simp at haway
  refine ⟨(seatedParticipant seat.participant r).generation, ?_⟩
  rw [registerParticipant, hcompatible.admitted hvacant]

/-! ## One event -/

theorem Move.epoch {sc : Scope} {v v' : View} (h : Move sc v v') :
    v'.core.epoch = v.core.epoch := by
  cases h with
  | tick step => exact step.epoch
  | _ => rfl

/-- Only the last section of a restart moves the epoch. -/
theorem next_epoch {s : System} {event : Event} (hnamed : Named s.fabric)
    (hbump : ∀ client boot, event = .resume client boot → s.clients client ≠ .restartBumping) :
    (s.next event).fabric.core.epoch = s.fabric.core.epoch := by
  rcases next_refines rfl hnamed (fitsBound_words s.fabric) (allows_all _ s event) with
    hrefines | ⟨⟨client, boot, hevent, hphase⟩, -⟩
  · exact Moves.related (R := fun v v' => v'.core.epoch = v.core.epoch) (fun _ => rfl)
      (fun h h' => h'.trans h) Move.epoch (hrefines.moves ⟨0⟩)
  · exact absurd hphase (hbump client boot hevent)

/-- Whoever is seated in the second record was seated in the first, under the
same epoch. -/
def Seats (e e' : EnsembleRecord) : Prop :=
  ∀ p' ∈ e'.participants, p'.seated = true →
    ∃ p ∈ e.participants, p.seated = true ∧ p'.coordinatorEpoch = p.coordinatorEpoch

theorem Seats.of_participants {e e' : EnsembleRecord} (h : e'.participants = e.participants) :
    Seats e e' :=
  fun p' hp' hseated => ⟨p', h ▸ hp', hseated, rfl⟩

theorem SameSeats.seats {e e' : EnsembleRecord} (h : SameSeats e e') : Seats e e' := by
  intro p' hp' hseated
  obtain ⟨p, hp, -, -, hstatus, hregistered, hepoch, -⟩ := Slots.exists_left h.participants hp'
  refine ⟨p, hp, ?_, hepoch⟩
  rw [ParticipantRecord.seated, ← hstatus, ← hregistered]
  exact hseated

theorem Seats.trans {a b c : EnsembleRecord} (h : Seats a b) (h' : Seats b c) : Seats a c := by
  intro p'' hp'' hseated
  obtain ⟨p', hp', hseated', hepoch'⟩ := h' p'' hp'' hseated
  obtain ⟨p, hp, hseated'', hepoch⟩ := h p' hp' hseated'
  exact ⟨p, hp, hseated'', hepoch'.trans hepoch⟩

/-- One seat is rewritten, and not taken. -/
theorem Seats.set {e : EnsembleRecord} {index : Nat} {p p' : ParticipantRecord}
    (hp : e.participants[index]? = some p)
    (h : p'.seated = true → p.seated = true ∧ p'.coordinatorEpoch = p.coordinatorEpoch) :
    Seats e { e with participants := e.participants.set index p' } := by
  intro q hq hseated
  rcases List.mem_or_eq_of_mem_set hq with hold | rfl
  · exact ⟨q, hold, hseated, rfl⟩
  · exact ⟨p, List.mem_of_getElem? hp, h hseated⟩

theorem SameSeat.keepsSeats {e : EnsembleRecord} {index : Nat} {p p' : ParticipantRecord}
    (hp : e.participants[index]? = some p) (h : SameSeat p p') :
    Seats e { e with participants := e.participants.set index p' } := by
  refine .set hp fun hseated => ⟨?_, h.same.coordinatorEpoch⟩
  rw [ParticipantRecord.seated, ← h.status, ← h.registered]
  exact hseated

theorem lostParticipant_seats {seat : Seat} {id : ParticipantId} (h : SeatAt seat.ensemble id seat)
    (kind : ParticipantFailureKind) (detail : String) :
    Seats seat.ensemble (seat.write (lostParticipant seat.participant kind detail)) :=
  .set h.get fun hseated => by cases hseated

theorem invalidatedParticipant_seated (reason : String) (p : ParticipantRecord) :
    (invalidatedParticipant reason p).seated = false := by
  unfold ParticipantRecord.seated invalidatedParticipant
  split
  · rename_i haway
    rw [Bool.and_eq_true, Bool.not_eq_true'] at haway
    rw [haway.1, Bool.false_and]
  · rfl

theorem advanceOpen_seats (limits : Limits) (core : Core) (e : EnsembleRecord)
    (x : ExecutionRecord) : Seats e (advanceOpen limits core e x).1.ensemble := by
  have hloop := AdvanceState.advanceLoop_advances limits 64 (advanceStart core e x)
  rw [(advanceOpen_final rfl).1]
  exact AdvanceState.Advances.keeps_plans (P := fun e' _ => Seats e e')
    (fun hseats _ h => h.trans hseats.seats) hloop (.of_participants rfl)

/-- Only a registration seats anybody. -/
theorem Written.seats {s : System} {event : Event} {id : EnsembleId} {e e' : EnsembleRecord}
    (h : Written s event id e e') :
    Seats e e' ∨ ∃ r seat, event = .registerParticipant r ∧ SeatAt e r.participant seat
      ∧ admitRegistration s.fabric r = .ok seat
      ∧ e' = seat.write (seatedParticipant seat.participant r) := by
  cases h with
  | redefined =>
    refine .inl fun p hp hseated => ?_
    obtain ⟨declaration, -, rfl⟩ := List.mem_map.mp hp
    cases hseated
  | @seated r seat registers at_ admits => exact .inr ⟨r, seat, registers, at_, admits, rfl⟩
  | @advanced x _ _ _ _ _ result =>
    subst result
    have hopen := advanceOpen_seats s.fabric.config.limits s.fabric.core e x
    exact .inl (Seats.trans hopen (.of_participants rfl))
  | received _ accept ensemble _ seat | abstained _ accept ensemble seat =>
    subst ensemble
    exact .inl (seat.keepsSeats (acceptCandidate_eq_ok accept).1.seat.get)
  | evaluated _ accept ensemble seat =>
    subst ensemble
    exact .inl (seat.keepsSeats (acceptEvaluation_eq_ok accept).seat.get)
  | @retried r l kind _ _ ensemble =>
    subst ensemble
    exact .inl (rewindCandidateForRetry_seats l.seat.ensemble l.execution l.index l.candidate).seats
  | @dropped r l kind _ _ ensemble =>
    subst ensemble
    exact .inl (failCandidate_seats l.seat.ensemble l.execution l.index l.candidate
      (failureError kind) s!"participant reported {kind.toString}").seats
  | lost _ admits ensemble =>
    subst ensemble
    exact .inl (lostParticipant_seats (admitFailureReport_eq_ok admits).2 _ _)
  | released _ admits ensemble =>
    subst ensemble
    exact .inl (Seats.trans (lostParticipant_seats (admitFailureReport_eq_ok admits).2 _ _)
      (handleParticipantFailure_plans ..).1.seats)
  | invalidated =>
    refine .inl fun p hp hseated => ?_
    obtain ⟨q, -, rfl⟩ := List.mem_map.mp hp
    rw [invalidatedParticipant_seated] at hseated
    cases hseated
  | superseded | started | withdrawn | closed | cancelled | reported | attempted | stored =>
    exact .inl (.of_participants rfl)

/-- Whoever is seated after an event was seated before it, or is seated by
it under the epoch of the runtime. -/
theorem next_seated {s : System} {event : Event} {id : EnsembleId} {e' : EnsembleRecord}
    {p' : ParticipantRecord} (he' : (s.next event).fabric.find id = some e')
    (hp' : p' ∈ e'.participants) (hseated : p'.seated = true) :
    (∃ e p, s.fabric.find id = some e ∧ p ∈ e.participants ∧ p.seated = true
        ∧ p'.coordinatorEpoch = p.coordinatorEpoch)
      ∨ ∃ r seat, event = .registerParticipant r ∧ admitRegistration s.fabric r = .ok seat
        ∧ p'.coordinatorEpoch = s.fabric.core.epoch := by
  rcases next_record he' with hsame | ⟨e, he, hwritten⟩ | ⟨-, spec, -, rfl⟩
  · exact .inl ⟨_, p', hsame, hp', hseated, rfl⟩
  · rcases hwritten.seats with hseats | ⟨r, seat, hevent, hat, hadmits, rfl⟩
    · obtain ⟨p, hp, hp_seated, hepoch⟩ := hseats p' hp' hseated
      exact .inl ⟨e, p, he, hp, hp_seated, hepoch⟩
    · obtain rfl := hat.ensemble
      rcases List.mem_or_eq_of_mem_set hp' with hold | rfl
      · exact .inl ⟨_, p', he, hold, hseated, rfl⟩
      · exact .inr ⟨r, seat, hevent, hadmits, (admitRegistration_eq_ok hadmits).2.1⟩
  · obtain ⟨declaration, -, rfl⟩ := List.mem_map.mp hp'
    cases hseated

/-! ## Restarts and recoveries -/

/-- A section of an operation of the runtime, or one of the two sections of
the tail of a recovery. -/
inductive TailEvent where
  | operate (event : Event)
  | adopt (stored : StoredState) (boot : WorkerBootId)
  | revalidate

/-- The runtime, and how many recoveries are between their two sections. A
recovery that is under way has replaced the state and moved the epoch. -/
structure Tails where
  system : System
  recovering : Nat := 0

namespace Tails

def initial (config : FabricConfig) : Tails where
  system := .initial config

def next (t : Tails) : TailEvent → Tails
  | .operate event => { t with system := t.system.next event }
  | .adopt stored boot =>
      match adoptState t.system.fabric stored boot with
      | (_, .error _) => t
      | (fabric, .ok _) =>
          { system := { t.system with fabric }, recovering := t.recovering + 1 }
  | .revalidate =>
      -- without a recovery under way there is no such section
      if t.recovering = 0 then t
      else
        { system :=
            { t.system with fabric := invalidateDynamicAuthority t.system.fabric recoveryReason }
          recovering := t.recovering - 1 }

/-- The state after a run of events. -/
abbrev run (t : Tails) (events : List TailEvent) : Tails := EventSystem.run next t events

end Tails

/-- The state holds participants that are registered and current. -/
def StoredState.seated (stored : StoredState) : Bool :=
  stored.ensembles.toList.any fun entry => entry.2.participants.any (·.seated)

/-- A restart is between its invalidation and its new epoch. -/
def System.MidRestart (s : System) : Prop := ∃ client, s.clients client = .restartBumping

/-- The event seats somebody: a registration that is let through, or a
recovery of registered participants. -/
def Tails.seats (t : Tails) : TailEvent → Bool
  | .operate (.registerParticipant r) => (admitRegistration t.system.fabric r).isOk
  | .adopt stored _ => stored.epoch.value != lastWord && stored.seated
  | _ => false

/-- Nobody is seated between the two sections of a restart. -/
def Undisturbed (t : Tails) (event : TailEvent) : Prop :=
  t.system.MidRestart → t.seats event = false

/-- The event is the last section of a restart or of a recovery. -/
def Tails.returns (t : Tails) : TailEvent → Bool
  | .operate (.resume client _) => t.system.clients client == .restartBumping
  | .revalidate => t.recovering != 0
  | _ => false

/-! ### What every undisturbed run keeps -/

theorem vacated_invalidate (f : Fabric) (reason : String) :
    Vacated (invalidateDynamicAuthority f reason) := by
  intro id e he p hp
  simp only [invalidateDynamicAuthority, Fabric.find, Std.TreeMap.getElem?_map] at he
  obtain ⟨e₀, -, rfl⟩ := Option.map_eq_some_iff.mp he
  obtain ⟨q, -, rfl⟩ := List.mem_map.mp hp
  exact invalidatedParticipant_seated reason q

/-- A recovery of nobody seats nobody. -/
theorem vacated_adopt {f : Fabric} {stored : StoredState} {boot : WorkerBootId}
    (hlast : stored.epoch.value ≠ lastWord) (h : stored.seated = false) :
    Vacated (adoptState f stored boot).1 := by
  intro id e he p hp
  rw [adoptState, if_neg hlast] at he
  simp only [Fabric.find, Std.TreeMap.getElem?_map] at he
  obtain ⟨e₀, he₀, rfl⟩ := Option.map_eq_some_iff.mp he
  have hmem := Std.TreeMap.mem_toList_iff_getElem?_eq_some.mpr he₀
  rw [StoredState.seated, List.any_eq_false] at h
  have hnone := h _ hmem
  rw [Bool.not_eq_true, List.any_eq_false] at hnone
  exact Bool.not_eq_true _ ▸ hnone p hp

/-- The ensembles of a file are found under their own identities. -/
theorem named_adopt {f : Fabric} {stored : StoredState} {boot : WorkerBootId}
    (hlast : stored.epoch.value ≠ lastWord) : Named (adoptState f stored boot).1 := by
  intro id e he
  rw [adoptState, if_neg hlast] at he
  simp only [Fabric.find, Std.TreeMap.getElem?_map] at he
  obtain ⟨e₀, he₀, rfl⟩ := Option.map_eq_some_iff.mp he
  exact congrArg StrongId.mk (stored.named id.value e₀ he₀)

theorem midRestart_setClient {s : System} {client : Nat} {phase : ClientPhase}
    (hphase : phase ≠ .restartBumping) (h : (s.setClient client phase).MidRestart) :
    s.MidRestart := by
  obtain ⟨other, hother⟩ := h
  refine ⟨other, ?_⟩
  by_cases hsame : other = client
  · subst hsame
    simp only [System.setClient, Function.update_self] at hother
    exact absurd hother hphase
  · simpa [System.setClient, Function.update_of_ne hsame] using hother

/-- A restart comes between its two sections by an invalidation. -/
theorem midRestart_next {s : System} {event : Event} (h : (s.next event).MidRestart) :
    s.MidRestart ∨ Vacated (s.next event).fabric := by
  cases event with
  | finalize client | restart client =>
    refine .inl ?_
    simp only [System.next, System.step] at h
    split at h
    · exact h
    · split at h
      · exact h
      · exact midRestart_setClient (by simp) h
  | prepareResult id generation =>
    refine .inl ?_
    simp only [System.next, System.step, System.remember] at h
    split at h <;> exact h
  | resume client boot =>
    simp only [System.next, System.step, System.resume] at h ⊢
    split at h
    · exact .inl h
    · refine .inl ?_
      split at h
      · exact midRestart_setClient (by simp) h
      · exact midRestart_setClient (by simp) h
    · exact .inl (midRestart_setClient (by simp) h)
    · exact .inr (vacated_invalidate s.fabric _)
    · exact .inl (midRestart_setClient (by simp) h)
  | _ => exact .inl h

/-- What holds in every state of an undisturbed run. -/
structure Calm (t : Tails) : Prop where
  named : Named t.system.fabric
  vacated : t.system.MidRestart → Vacated t.system.fabric
  bound : t.recovering = 0 → SeatsBound t.system.fabric

/-- An operation that seats nobody leaves the runtime vacated. -/
theorem vacated_next {t : Tails} {event : Event} (h : Vacated t.system.fabric)
    (hseats : t.seats (.operate event) = false) : Vacated (t.system.next event).fabric := by
  intro id e he p hp
  rw [Bool.eq_false_iff]
  intro hseated
  rcases next_seated he hp hseated with ⟨e₀, q, he₀, hq, hqseated, -⟩ | ⟨r, seat, rfl, hadmits, -⟩
  · rw [h id e₀ he₀ q hq] at hqseated
    cases hqseated
  · simp only [Tails.seats, hadmits, Except.isOk, Except.toBool] at hseats
    cases hseats

theorem seatsBound_next {s : System} {event : Event} (hnamed : Named s.fabric)
    (h : SeatsBound s.fabric)
    (hbump : ∀ client boot, event = .resume client boot → s.clients client ≠ .restartBumping) :
    SeatsBound (s.next event).fabric := by
  intro id e he p hp hseated
  rw [next_epoch hnamed hbump]
  rcases next_seated he hp hseated with ⟨e₀, q, he₀, hq, hqseated, hepoch⟩ | ⟨r, seat, -, -, hepoch⟩
  · exact hepoch.trans (h id e₀ he₀ q hq hqseated)
  · exact hepoch

theorem Calm.operate {t : Tails} {event : Event} (h : Calm t)
    (hundisturbed : Undisturbed t (.operate event)) : Calm (t.next (.operate event)) := by
  refine ⟨(next_viewSteps rfl h.named (allows_all _ t.system event) ⟨0⟩).2.1, fun hmid => ?_,
    fun hrecovering => ?_⟩
  · rcases midRestart_next hmid with hbefore | hvacated
    · exact vacated_next (h.vacated hbefore) (hundisturbed hbefore)
    · exact hvacated
  · by_cases hbump : ∀ client boot, event = .resume client boot →
        t.system.clients client ≠ .restartBumping
    · exact seatsBound_next h.named (h.bound hrecovering) hbump
    · -- the last section of a restart: nobody is seated
      simp only [not_forall, not_not] at hbump
      obtain ⟨client, boot, -, hphase⟩ := hbump
      have hmid : t.system.MidRestart := ⟨client, hphase⟩
      exact (vacated_next (h.vacated hmid) (hundisturbed hmid)).seatsBound

theorem Calm.adopt {t : Tails} {stored : StoredState} {boot : WorkerBootId} (h : Calm t)
    (hundisturbed : Undisturbed t (.adopt stored boot)) : Calm (t.next (.adopt stored boot)) := by
  by_cases hlast : stored.epoch.value = lastWord
  · have hsame : t.next (.adopt stored boot) = t := by simp [Tails.next, adoptState, hlast, fail]
    rw [hsame]
    exact h
  · have hadopted : t.next (.adopt stored boot)
        = { system := { t.system with fabric := (adoptState t.system.fabric stored boot).1 }
            recovering := t.recovering + 1 } := by
      simp [Tails.next, adoptState, hlast]
    rw [hadopted]
    refine ⟨named_adopt hlast, fun hmid => ?_, fun hrecovering => absurd hrecovering (by simp)⟩
    have hseats := hundisturbed hmid
    have hvalid : (stored.epoch.value != lastWord) = true := bne_iff_ne.mpr hlast
    rw [Tails.seats, hvalid, Bool.true_and] at hseats
    exact vacated_adopt hlast hseats

theorem Calm.revalidate {t : Tails} (h : Calm t) : Calm (t.next .revalidate) := by
  by_cases hnone : t.recovering = 0
  · have hsame : t.next .revalidate = t := by simp [Tails.next, hnone]
    rw [hsame]
    exact h
  · have hinvalidated : (t.next .revalidate).system.fabric
        = invalidateDynamicAuthority t.system.fabric recoveryReason := by
      simp [Tails.next, hnone]
    have hvacated := hinvalidated ▸ vacated_invalidate t.system.fabric recoveryReason
    refine ⟨?_, fun _ => hvacated, fun _ => hvacated.seatsBound⟩
    rw [hinvalidated]
    have hrefines : Refines (runScope {}) t.system.fabric _ :=
      invalidateDynamicAuthority_refines t.system.fabric recoveryReason
    exact hrefines.named h.named

theorem Calm.next {t : Tails} {event : TailEvent} (h : Calm t)
    (hundisturbed : Undisturbed t event) : Calm (t.next event) := by
  cases event with
  | operate event => exact h.operate hundisturbed
  | adopt stored boot => exact h.adopt hundisturbed
  | revalidate => exact h.revalidate

theorem initial_calm (config : FabricConfig) : Calm (.initial config) := by
  refine ⟨initial_named config, ?_, fun _ => ?_⟩
  · rintro ⟨client, hphase⟩
    cases hphase
  · intro id e he
    cases he

/-- Nobody is seated when a restart or a recovery returns. -/
theorem Calm.returned {t : Tails} {event : TailEvent} (h : Calm t)
    (hreturns : t.returns event = true) : Vacated (t.next event).system.fabric := by
  cases event with
  | operate event =>
    cases event with
    | resume client boot =>
      have hmid : t.system.MidRestart := ⟨client, beq_iff_eq.mp hreturns⟩
      exact vacated_next (h.vacated hmid) rfl
    | _ => cases hreturns
  | adopt => cases hreturns
  | revalidate =>
    have hsome : t.recovering ≠ 0 := bne_iff_ne.mp hreturns
    have hinvalidated : (t.next .revalidate).system.fabric
        = invalidateDynamicAuthority t.system.fabric recoveryReason := by
      simp [Tails.next, hsome]
    exact hinvalidated ▸ vacated_invalidate t.system.fabric recoveryReason

/-- In every run in which nobody is seated between the two sections of a
restart: once a restart or a recovery has returned, and in every state with
no recovery under way, no participant is registered and bound to another
epoch, and every participant not registered under the epoch of the runtime
may register. -/
theorem restart_strands_none (config : FabricConfig) (events : List TailEvent)
    (hundisturbed : Along Tails.next Undisturbed (.initial config) events) :
    (∀ event, ((Tails.initial config).run events).returns event = true →
        NoneStranded (((Tails.initial config).run events).next event).system.fabric)
      ∧ (((Tails.initial config).run events).recovering = 0 →
        NoneStranded ((Tails.initial config).run events).system.fabric) := by
  have hcalm : Calm ((Tails.initial config).run events) :=
    run_invariant_along (fun _ _ hu h => h.next hu) hundisturbed (initial_calm config)
  exact ⟨fun event hreturns => (hcalm.returned hreturns).seatsBound.noneStranded,
    fun hrecovering => (hcalm.bound hrecovering).noneStranded⟩

namespace Sample

/-- One participant is declared, and a restart begins. -/
def restarting : List TailEvent :=
  [.operate (.defineEnsemble loneSpec), .operate (.restart 0 "restart"),
    .operate (.resume 0 ⟨1⟩)]

def bump : TailEvent := .operate (.resume 0 ⟨1⟩)

/-- The participant registers under the epoch after the restart. -/
def registration : ParticipantRegistration :=
  { ensemble := ⟨1⟩, ensembleGeneration := ⟨1⟩, participant := ⟨1⟩, worker := ⟨1⟩
    workerBoot := ⟨2⟩, coordinatorEpoch := ⟨2⟩ }

/-- Participants 1 and 2 register before the first section of a restart, and
participant 1 asks again between its sections. -/
def restartingSeated : List TailEvent :=
  [.operate (.defineEnsemble
      { loneSpec with participants := [participant 1 candidateRole, participant 2 candidateRole] }),
    .operate (register 1), .operate (.restart 0 "restart"), .operate (register 2),
    .operate (.resume 0 ⟨1⟩), .operate (.registerParticipant registration)]

/-- After the restart participant 1 asks once more. -/
def restartedSeated : List TailEvent :=
  restartingSeated ++ [bump, .operate (.registerParticipant registration)]

/-- The runtime after a run of sections. -/
def tails (events : List TailEvent) : Tails := (Tails.initial {}).run events

end Sample

/-- A restart nobody disturbs strands nobody. Participant 1 registers before
it, and participant 2 while it waits for its first section. Between the
sections a registration under the epoch to come is refused; after the restart
it is let through. -/
theorem restart_returned :
    NoneStranded ((Sample.tails Sample.restartingSeated).next Sample.bump).system.fabric
      ∧ NoneStranded (Sample.tails Sample.restartedSeated).system.fabric
      ∧ ((Sample.tails Sample.restartedSeated).system.fabric.find ⟨1⟩).map (fun e =>
          e.participants.map fun p => (p.seated, p.coordinatorEpoch))
        = some [(true, ⟨2⟩), (false, ⟨1⟩)] := by
  have hbefore : Along Tails.next Undisturbed (.initial {}) Sample.restartingSeated := by
    refine ⟨fun _ => rfl, ?_, fun _ => rfl, ?_, fun _ => rfl, fun _ => ?_, trivial⟩
    · rintro ⟨client, hphase⟩
      cases hphase
    · -- the restart has not withdrawn the seats yet
      rintro ⟨client, hphase⟩
      have hclients : (Sample.tails (Sample.restartingSeated.take 3)).system.clients
          = Function.update (fun _ => .idle) 0 (.restartInvalidating "restart") := rfl
      have hwaiting := (congrFun hclients client).symm.trans hphase
      by_cases hzero : client = 0
      · subst hzero
        cases hwaiting
      · rw [Function.update_of_ne hzero] at hwaiting
        cases hwaiting
    · decide +kernel
  have hundisturbed : Along Tails.next Undisturbed (.initial {}) Sample.restartedSeated := by
    refine (along_append ..).mpr ⟨hbefore, fun _ => rfl, ?_, trivial⟩
    -- the client that restarted is idle again, and the others never restarted
    rintro ⟨client, hphase⟩
    by_cases hzero : client = 0
    · subst hzero
      have hidle : (Sample.tails (Sample.restartingSeated ++ [Sample.bump])).system.clients 0
          = .idle := rfl
      cases hidle.symm.trans hphase
    · have hother : (Sample.tails (Sample.restartingSeated ++ [Sample.bump])).system.clients client
          = .idle := by
        have hclients : (Sample.tails (Sample.restartingSeated ++ [Sample.bump])).system.clients
            = Function.update (Function.update (Function.update (fun _ => .idle) 0
              (.restartInvalidating "restart")) 0 .restartBumping) 0 .idle := rfl
        simp only [hclients, Function.update_of_ne hzero]
      cases hother.symm.trans hphase
  exact ⟨(restart_strands_none {} Sample.restartingSeated hbefore).1 Sample.bump
      (by decide +kernel),
    (restart_strands_none {} Sample.restartedSeated hundisturbed).2 (by decide +kernel),
    by decide +kernel⟩

/-- A participant that registers between the two sections of a restart is
stranded: it is registered under epoch 1 in epoch 2, and its registration
under epoch 2 is refused. -/
theorem registered_mid_restart_stranded :
    (Sample.tails (Sample.restarting ++ [.operate (Sample.register 1)])).returns Sample.bump = true
      ∧ ¬ SeatsBound (Sample.tails (Sample.restarting
        ++ [.operate (Sample.register 1), Sample.bump])).system.fabric
      ∧ ¬ Welcomes (Sample.tails (Sample.restarting
        ++ [.operate (Sample.register 1), Sample.bump])).system.fabric := by
  have hseat : ((Sample.tails (Sample.restarting
      ++ [.operate (Sample.register 1), Sample.bump])).system.fabric.find ⟨1⟩).any (fun e =>
        e.spec.generation == ⟨1⟩ && (e.seat? ⟨1⟩).any fun seat =>
          seat.participant.seated && seat.participant.coordinatorEpoch == ⟨1⟩
            && seat.participant.declaration.roles.containsAll Sample.registration.claimedRoles
            && decide (checkCompatibility seat.participant.declaration.compatibility
              Sample.registration.profile = .ok ())) = true := by
    decide +kernel
  simp only [Option.any_eq_true, Bool.and_eq_true, beq_iff_eq, decide_eq_true_eq] at hseat
  obtain ⟨e, he, hgeneration, seat, hdeclared, ⟨⟨hseated, hold⟩, hroles⟩, hprofile⟩ := hseat
  have hat := seat?_eq_some hdeclared
  obtain rfl := hat.ensemble
  have hepoch : (Sample.tails (Sample.restarting
      ++ [.operate (Sample.register 1), Sample.bump])).system.fabric.core.epoch = ⟨2⟩ := by
    decide +kernel
  refine ⟨by decide +kernel, fun hbound => ?_, fun hwelcomes => ?_⟩
  · have hcurrent := hbound _ _ he _ (List.mem_of_getElem? hat.get) hseated
    rw [hold, hepoch] at hcurrent
    cases hcurrent
  · obtain ⟨generation, haccepted⟩ := hwelcomes Sample.registration seat
      ⟨rfl, hepoch.symm, he, hgeneration, hdeclared, hroles, hprofile⟩
      (by rw [ParticipantRecord.authoritative, hold, hepoch]; simp)
    have hrefused : (registerParticipant (Sample.tails (Sample.restarting
        ++ [.operate (Sample.register 1), Sample.bump])).system.fabric Sample.registration).2.isOk
        = false := by
      decide +kernel
    rw [haccepted] at hrefused
    cases hrefused

end EnsembleFabric
