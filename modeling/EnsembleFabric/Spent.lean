import EnsembleFabric.Fencing
import EnsembleFabric.Identity

/-!
# Identities that are used up

A submission that is accepted closes its candidate slot or moves it to the
next generation, and an evaluation that is accepted leaves its plan
answered. No other slot of any ensemble bears the identity, now or later,
so what was accepted once under a key is not accepted under it again.

An identity is retired once it was handed out and every slot that bears it
is done (`Retired`). A step keeps it retired if slots that are done stay so
and new slots bear new identities (`Retired.step`). For candidates, "done"
depends on a generation: a slot is done with a key once it has left the
generation, or left the states from which output is expected. The next
generation must not wrap to an earlier one, which is where the bound on
the scope comes from (`Move.spent`).
-/

namespace EnsembleFabric

open List (Forall₂)

/-! ## Retired identities -/

section Retired

variable {α : Type} {domain : IdDomain} {key : α → StrongId domain} {done : α → Prop}
  {slots slots' : List α} {a a' : IdAllocator domain} {id : StrongId domain}

/-- The identity was handed out, and whatever slot bears it is done. It need not
be borne by any slot any more. -/
structure Retired (key : α → StrongId domain) (done : α → Prop) (id : StrongId domain)
    (slots : List α) (a : IdAllocator domain) : Prop where
  issued : id.value.toNat < a.next.toNat
  done : ∀ slot ∈ slots, key slot = id → done slot

/-- A retired identity stays retired where slots stay done and new slots
bear new identities. -/
theorem Retired.step (h : Retired key done id slots a) (hmono : a.next.toNat ≤ a'.next.toNat)
    (hslots : ∀ slot' ∈ slots',
      (∃ slot ∈ slots, key slot' = key slot ∧ (done slot → done slot'))
        ∨ a.next.toNat ≤ (key slot').value.toNat) : Retired key done id slots' a' := by
  refine ⟨Nat.lt_of_lt_of_le h.issued hmono, fun slot' hslot' hid => ?_⟩
  rcases hslots slot' hslot' with ⟨slot, hslot, hkey, hdone⟩ | hfresh
  · exact hdone (h.done slot hslot (hkey.symm.trans hid))
  · rw [hid] at hfresh
    exact absurd h.issued (Nat.not_lt.mpr hfresh)

variable (key)

/-- The identity of a slot that is done, in the list that has the slot. -/
theorem Retired.of_mem (hissued : Issued (slots.map key) a) {slot : α} (hslot : slot ∈ slots)
    (hdone : done slot) : Retired key done (key slot) slots a := by
  refine ⟨hissued.below _ (List.mem_map_of_mem hslot), fun other hother hkey => ?_⟩
  obtain rfl := List.inj_on_of_nodup_map hissued.distinct hother hslot hkey
  exact hdone

/-- In a list that shares no identity with it. -/
theorem Retired.of_disjoint (hissued : Issued (slots.map key) a)
    (hdisjoint : (slots.map key).Disjoint (slots'.map key)) {slot : α} (hslot : slot ∈ slots) :
    Retired key done (key slot) slots' a := by
  refine ⟨hissued.below _ (List.mem_map_of_mem hslot), fun other hother hkey => ?_⟩
  have hshared : key slot ∈ slots'.map key := hkey ▸ List.mem_map_of_mem hother
  exact (hdisjoint (List.mem_map_of_mem hslot) hshared).elim

end Retired

/-! ## One ensemble -/

/-- What a submission is accepted for: a candidate, in one generation. -/
abbrev CandidateKey := CandidateId × CandidateGeneration

/-- No slot of the view takes output under the key again. -/
def View.Spent (v : View) (key : CandidateKey) : Prop :=
  Retired CandidateRecord.id (SlotPassed key.2) key.1 v.candidates v.core.candidateIds

/-- No plan of the view is open under the identity again. -/
def View.Answered (v : View) (id : EvaluationId) : Prop :=
  Retired PendingEvaluation.id (·.answered = true) id v.pending v.core.evaluationIds

/-- A step plans nothing, and takes no answer back. -/
theorem ExecutionStep.answered {sc : Scope} {e : EnsembleRecord} {x x' : ExecutionRecord}
    (h : ExecutionStep sc e x x') {p' : PendingEvaluation} (hp' : p' ∈ x'.pending) :
    ∃ p ∈ x.pending, p'.id = p.id ∧ (p.answered = true → p'.answered = true) := by
  cases h with
  | bookkeeping same => exact ⟨p', same.pending ▸ hp', rfl, fun h => h⟩
  | cancel _ same => exact ⟨p', same.pending ▸ hp', rfl, fun h => h⟩
  | drop | rewind => exact ⟨p', (List.mem_filter.mp hp').1, rfl, fun h => h⟩
  | pendings steps =>
    obtain ⟨p, hp, hstep⟩ := Slots.exists_left steps hp'
    rw [hstep.same]
    exact ⟨p, hp, rfl, fun h => h⟩
  | @evaluate index p r at_ =>
    rcases List.mem_or_eq_of_mem_set hp' with hp | rfl
    · exact ⟨p', hp, rfl, fun h => h⟩
    · exact ⟨p, List.mem_of_getElem? at_, rfl, fun _ => rfl⟩
  | commit =>
    rw [storeResult_pending] at hp'
    exact ⟨p', hp', rfl, fun h => h⟩
  | _ => exact ⟨p', hp', rfl, fun h => h⟩

/-- The slots of a later view step on from earlier ones, or are new. -/
structure SlotsFollow (bound : Nat) (v v' : View) : Prop where
  candidates : ∀ c' ∈ v'.candidates, (∃ c ∈ v.candidates, SlotStep bound c c')
    ∨ v.core.candidateIds.next.toNat ≤ c'.id.value.toNat
  pending : ∀ p' ∈ v'.pending,
    (∃ p ∈ v.pending, p'.id = p.id ∧ (p.answered = true → p'.answered = true))
      ∨ v.core.evaluationIds.next.toNat ≤ p'.id.value.toNat

theorem SlotsFollow.of_same {bound : Nat} {v v' : View}
    (hcandidates : ∀ c ∈ v'.candidates, c ∈ v.candidates)
    (hpending : ∀ p ∈ v'.pending, p ∈ v.pending) : SlotsFollow bound v v' :=
  ⟨fun c hc => .inl ⟨c, hcandidates c hc, .refl bound c⟩,
    fun p hp => .inl ⟨p, hpending p hp, rfl, fun h => h⟩⟩

theorem Move.slotsFollow {sc : Scope} {v v' : View} (h : Move sc v v') :
    SlotsFollow sc.bound v v' := by
  cases h with
  | tick | define | supersede | seats => exact .of_same (fun _ hc => hc) fun _ hp => hp
  | redefine | openFirst | openNext =>
    exact .of_same (fun _ hc => by cases hc) fun _ hp => by cases hp
  | work before step =>
    constructor
    · intro c' hc'
      rw [View.candidates_of rfl rfl] at hc'
      rw [View.candidates_of rfl before]
      exact .inl (Slots.exists_left step.slots hc')
    · intro p' hp'
      rw [View.pending_of rfl rfl] at hp'
      rw [View.pending_of rfl before]
      exact .inl (step.answered hp')
  | declare before fresh =>
    obtain ⟨hvalue, -⟩ := IdAllocator.allocate_spec fresh
    constructor
    · intro c' hc'
      rw [View.candidates_of rfl rfl] at hc'
      rw [View.candidates_of rfl before]
      rcases List.mem_append.mp hc' with hold | hnew
      · exact .inl ⟨c', hold, .refl sc.bound c'⟩
      · obtain rfl := List.mem_singleton.mp hnew
        exact .inr (by rw [hvalue])
    · intro p' hp'
      rw [View.pending_of rfl rfl] at hp'
      rw [View.pending_of rfl before]
      exact .inl ⟨p', hp', rfl, fun h => h⟩
  | plan before fresh =>
    obtain ⟨hvalue, -⟩ := IdAllocator.allocate_spec fresh
    constructor
    · intro c' hc'
      rw [View.candidates_of rfl rfl] at hc'
      rw [View.candidates_of rfl before]
      exact .inl ⟨c', hc', .refl sc.bound c'⟩
    · intro p' hp'
      rw [View.pending_of rfl rfl] at hp'
      rw [View.pending_of rfl before]
      rcases List.mem_append.mp hp' with hold | hnew
      · exact .inl ⟨p', hold, rfl, fun h => h⟩
      · obtain rfl := List.mem_singleton.mp hnew
        exact .inr (by rw [hvalue])

section Moves

variable {sc : Scope} {v v' : View}

theorem Move.spent (hbound : sc.bound < 2 ^ 64) (h : Move sc v v') {key : CandidateKey}
    (hspent : v.Spent key) : v'.Spent key := by
  refine hspent.step h.core.candidateIds fun c' hc' => ?_
  rcases h.slotsFollow.candidates c' hc' with ⟨c, hc, hstep⟩ | hfresh
  · exact .inl ⟨c, hc, hstep.id, hstep.passed hbound⟩
  · exact .inr hfresh

theorem Move.answered (h : Move sc v v') {id : EvaluationId} (hanswered : v.Answered id) :
    v'.Answered id :=
  hanswered.step h.core.evaluationIds h.slotsFollow.pending

end Moves

/-! ## All ensembles -/

/-- The key of a slot that is passed is spent in every ensemble. -/
theorem Apart.spent {f : Fabric} (h : Apart f) {target : EnsembleId} {c : CandidateRecord}
    (hc : c ∈ (f.view target).candidates) {generation : CandidateGeneration}
    (hpassed : SlotPassed generation c) (id : EnsembleId) :
    (f.view id).Spent (c.id, generation) := by
  have hissued := (h.numbered target).candidates
  by_cases heq : id = target
  · subst heq
    exact .of_mem CandidateRecord.id hissued hc hpassed
  · exact .of_disjoint CandidateRecord.id hissued (h.candidates target id (Ne.symm heq)) hc

/-- The identity of a plan that is answered is answered in every ensemble. -/
theorem Apart.answered {f : Fabric} (h : Apart f) {target : EnsembleId} {p : PendingEvaluation}
    (hp : p ∈ (f.view target).pending) (hanswered : p.answered = true) (id : EnsembleId) :
    (f.view id).Answered p.id := by
  have hissued := (h.numbered target).pending
  by_cases heq : id = target
  · subst heq
    exact .of_mem PendingEvaluation.id hissued hp hanswered
  · exact .of_disjoint PendingEvaluation.id hissued (h.pending target id (Ne.symm heq)) hp

end EnsembleFabric
