import EnsembleFabric.Lifecycle

/-!
# Identities of an execution

Candidates and planned evaluations take their identities from the shared
allocators, and nothing renames them. So the identities of an execution are
all different and were all handed out before, and two ensembles never share
one: a lookup by identity finds the record it is about.

The argument is about lists of identities and an allocator only. A step
drops identities or adds the next one (`IdsStep`); identities that are
all different and below the mark stay so (`IdsStep.issued`), and what is
in use later was in use before or is new (`IdsStep.fresh`). It is then
taken to the steps of an execution (`ExecutionStep.identities`), to the
moves of one ensemble (`Moves.numbered`), and to all ensembles at once
(`Apart`), of which at most one takes fresh identities.

`Numbered.candidate?` is the form most proofs use: a candidate of the
execution is what a search for its identity returns.
-/

namespace EnsembleFabric

/-! ## Identities handed out -/

section Issued

variable {domain : IdDomain} {ids ids' : List (StrongId domain)} {a a' : IdAllocator domain}

/-- The identities are all different, and below the next one: they were all
handed out by the allocator, each once. -/
structure Issued (ids : List (StrongId domain)) (a : IdAllocator domain) : Prop where
  distinct : ids.Nodup
  below : ∀ id ∈ ids, id.value.toNat < a.next.toNat

/-- Identities in use are dropped, or one more is handed out. -/
inductive IdsStep (ids : List (StrongId domain)) (a : IdAllocator domain)
    (ids' : List (StrongId domain)) (a' : IdAllocator domain) : Prop
  | kept (sub : ids'.Sublist ids) (mono : a.next.toNat ≤ a'.next.toNat)
  | added {id} (fresh : a.allocate = some (id, a')) (ids_eq : ids' = ids ++ [id])

/-- Identities in use later were in use before, or were not handed out yet. -/
structure Fresh (ids : List (StrongId domain)) (a : IdAllocator domain)
    (ids' : List (StrongId domain)) (a' : IdAllocator domain) : Prop where
  mono : a.next.toNat ≤ a'.next.toNat
  fresh : ∀ id ∈ ids', id ∈ ids ∨ a.next.toNat ≤ id.value.toNat

theorem Issued.nil (a : IdAllocator domain) : Issued [] a :=
  ⟨List.nodup_nil, fun _ h => by cases h⟩

theorem IdsStep.refl (ids : List (StrongId domain)) (a : IdAllocator domain) :
    IdsStep ids a ids a :=
  .kept (.refl ids) (Nat.le_refl _)

/-- A fresh identity is none of those handed out before. -/
theorem IdsStep.issued (h : IdsStep ids a ids' a') (hids : Issued ids a) : Issued ids' a' := by
  cases h with
  | kept sub mono =>
    exact ⟨sub.nodup hids.distinct,
      fun id hid => Nat.lt_of_lt_of_le (hids.below id (sub.subset hid)) mono⟩
  | @added id fresh ids_eq =>
    obtain ⟨hvalue, hnext⟩ := IdAllocator.allocate_spec fresh
    subst ids_eq
    constructor
    · rw [List.nodup_append]
      refine ⟨hids.distinct, List.nodup_singleton id, fun old hold new hnew heq => ?_⟩
      obtain rfl := List.mem_singleton.mp hnew
      have hlt := hids.below old hold
      rw [heq, hvalue] at hlt
      exact Nat.lt_irrefl _ hlt
    · intro other hother
      rcases List.mem_append.mp hother with hold | hnew
      · exact Nat.lt_of_lt_of_le (hids.below other hold) (by omega)
      · obtain rfl := List.mem_singleton.mp hnew
        rw [hvalue]
        omega

theorem IdsStep.fresh (h : IdsStep ids a ids' a') : Fresh ids a ids' a' := by
  cases h with
  | kept sub mono => exact ⟨mono, fun id hid => .inl (sub.subset hid)⟩
  | added fresh ids_eq =>
    obtain ⟨hvalue, hnext⟩ := IdAllocator.allocate_spec fresh
    subst ids_eq
    refine ⟨by omega, fun id hid => ?_⟩
    rcases List.mem_append.mp hid with hold | hnew
    · exact .inl hold
    · obtain rfl := List.mem_singleton.mp hnew
      exact .inr (Nat.le_of_eq (congrArg UInt64.toNat hvalue.symm))

theorem Fresh.refl (ids : List (StrongId domain)) (a : IdAllocator domain) : Fresh ids a ids a :=
  (IdsStep.refl ids a).fresh

theorem Fresh.trans {ids'' : List (StrongId domain)} {a'' : IdAllocator domain}
    (h : Fresh ids a ids' a') (h' : Fresh ids' a' ids'' a'') : Fresh ids a ids'' a'' := by
  refine ⟨Nat.le_trans h.mono h'.mono, fun id hid => ?_⟩
  rcases h'.fresh id hid with hmid | hlate
  · exact h.fresh id hmid
  · exact .inr (Nat.le_trans h.mono hlate)

/-- Where none is handed out, none is added. -/
theorem Fresh.subset (h : Fresh ids a ids' a) (hids : Issued ids' a) : ids' ⊆ ids := by
  intro id hid
  rcases h.fresh id hid with hold | hlate
  · exact hold
  · exact absurd (hids.below id hid) (Nat.not_lt.mpr hlate)

/-- Fresh identities are none of the others in use. -/
theorem Fresh.disjoint {others : List (StrongId domain)} (h : Fresh ids a ids' a')
    (hdisjoint : ids.Disjoint others) (hothers : ∀ id ∈ others, id.value.toNat < a.next.toNat) :
    ids'.Disjoint others := by
  intro id hid hother
  rcases h.fresh id hid with hold | hlate
  · exact hdisjoint hold hother
  · exact absurd (hothers id hother) (Nat.not_lt.mpr hlate)

end Issued

/-! ## One step -/

@[simp] theorem settledCandidate_id (selected : CandidateId) (c : CandidateRecord) :
    (settledCandidate selected c).id = c.id := by
  unfold settledCandidate
  split
  · rfl
  · split <;> rfl

theorem storeResult_candidateIds (limits : Limits) (e : EnsembleRecord) (x : ExecutionRecord)
    (stored : EnsembleResult) :
    (storeResult limits e x stored).1.candidates.map (·.id) = x.candidates.map (·.id) := by
  obtain ⟨settle, heq, rfl | rfl⟩ := storeResult_candidates limits e x stored
  · simp [heq]
  · rw [heq, List.map_map]
    exact List.map_congr_left fun c _ => settledCandidate_id _ c

/-- A step renames no slot; it only drops planned evaluations. -/
theorem ExecutionStep.identities {sc : Scope} {e : EnsembleRecord} {x x' : ExecutionRecord}
    (h : ExecutionStep sc e x x') :
    x'.candidates.map (·.id) = x.candidates.map (·.id)
      ∧ (x'.pending.map (·.id)).Sublist (x.pending.map (·.id)) := by
  cases h with
  | bookkeeping same => rw [same.candidates, same.pending]; exact ⟨rfl, .refl _⟩
  | cancel _ same => rw [same.candidates, same.pending]; exact ⟨rfl, .refl _⟩
  | candidates steps => exact ⟨Slots.map_key (fun hstep => hstep.slot.id) steps, .refl _⟩
  | drop at_ _ slot =>
    exact ⟨Slots.map_key_set at_ slot.id, List.filter_sublist.map _⟩
  | rewind at_ _ id => exact ⟨Slots.map_key_set at_ id, List.filter_sublist.map _⟩
  | @pendings ps steps =>
    have hids : ps.map (·.id) = x.pending.map (·.id) :=
      Slots.map_key (fun hstep => by rw [hstep.same]) steps
    exact ⟨rfl, by rw [hids]⟩
  | @evaluate index p r at_ =>
    have hids : (x.pending.set index { p with answered := true }).map (·.id)
        = x.pending.map (·.id) := Slots.map_key_set at_ rfl
    exact ⟨rfl, by rw [hids]⟩
  | commit => exact ⟨storeResult_candidateIds .., by rw [storeResult_pending]⟩
  | _ => exact ⟨rfl, .refl _⟩

/-! ## One ensemble -/

/-- The candidates of the ensemble's execution. -/
def View.candidates (v : View) : List CandidateRecord :=
  match v.entry.bind (·.execution) with
  | some x => x.candidates
  | none => []

/-- Its planned evaluations. -/
def View.pending (v : View) : List PendingEvaluation :=
  match v.entry.bind (·.execution) with
  | some x => x.pending
  | none => []

def View.candidateIds (v : View) : List CandidateId := v.candidates.map (·.id)

def View.pendingIds (v : View) : List EvaluationId := v.pending.map (·.id)

theorem View.candidates_of {v : View} {e : EnsembleRecord} {x : ExecutionRecord}
    (he : v.entry = some e) (hx : e.execution = some x) : v.candidates = x.candidates := by
  simp [View.candidates, he, hx]

theorem View.pending_of {v : View} {e : EnsembleRecord} {x : ExecutionRecord}
    (he : v.entry = some e) (hx : e.execution = some x) : v.pending = x.pending := by
  simp [View.pending, he, hx]

theorem View.candidateIds_of {v : View} {e : EnsembleRecord} {x : ExecutionRecord}
    (he : v.entry = some e) (hx : e.execution = some x) :
    v.candidateIds = x.candidates.map (·.id) := by
  rw [View.candidateIds, View.candidates_of he hx]

theorem View.pendingIds_of {v : View} {e : EnsembleRecord} {x : ExecutionRecord}
    (he : v.entry = some e) (hx : e.execution = some x) :
    v.pendingIds = x.pending.map (·.id) := by
  rw [View.pendingIds, View.pending_of he hx]

/-- The slots of the execution bear identities the runtime handed out, and none
bears that of another. -/
structure Numbered (v : View) : Prop where
  candidates : Issued v.candidateIds v.core.candidateIds
  pending : Issued v.pendingIds v.core.evaluationIds

/-- A change of a view that hands out identities. -/
structure Renumbered (v v' : View) : Prop where
  candidates : IdsStep v.candidateIds v.core.candidateIds v'.candidateIds v'.core.candidateIds
  pending : IdsStep v.pendingIds v.core.evaluationIds v'.pendingIds v'.core.evaluationIds

theorem Move.renumbered {sc : Scope} {v v' : View} (h : Move sc v v') : Renumbered v v' := by
  cases h with
  | tick step => exact ⟨.kept (.refl _) step.candidateIds, .kept (.refl _) step.evaluationIds⟩
  | define => exact ⟨.refl _ _, .refl _ _⟩
  | redefine => exact ⟨.kept (List.nil_sublist _) (Nat.le_refl _),
      .kept (List.nil_sublist _) (Nat.le_refl _)⟩
  | supersede | seats => exact ⟨.refl _ _, .refl _ _⟩
  | openFirst | openNext =>
    exact ⟨.kept (List.nil_sublist _) (Nat.le_refl _),
      .kept (List.nil_sublist _) (Nat.le_refl _)⟩
  | work before step =>
    obtain ⟨hcandidates, hpending⟩ := step.identities
    constructor
    · rw [View.candidateIds_of rfl before, View.candidateIds_of rfl rfl, hcandidates]
      exact .refl _ _
    · rw [View.pendingIds_of rfl before, View.pendingIds_of rfl rfl]
      exact .kept hpending (Nat.le_refl _)
  | declare before fresh =>
    constructor
    · rw [View.candidateIds_of rfl before, View.candidateIds_of rfl rfl]
      exact .added fresh (List.map_append ..)
    · rw [View.pendingIds_of rfl before, View.pendingIds_of rfl rfl]
      exact .refl _ _
  | plan before fresh =>
    constructor
    · rw [View.candidateIds_of rfl before, View.candidateIds_of rfl rfl]
      exact .refl _ _
    · rw [View.pendingIds_of rfl before, View.pendingIds_of rfl rfl]
      exact .added fresh (List.map_append ..)

theorem Moves.numbered {sc : Scope} {v v' : View} (h : Moves sc v v') (hv : Numbered v) :
    Numbered v' :=
  h.invariant (P := Numbered)
    (fun hmove hv => ⟨hmove.renumbered.candidates.issued hv.candidates,
      hmove.renumbered.pending.issued hv.pending⟩) hv

/-- The identities of a later view are those of the earlier one, or fresh. -/
structure FreshIds (v v' : View) : Prop where
  candidates : Fresh v.candidateIds v.core.candidateIds v'.candidateIds v'.core.candidateIds
  pending : Fresh v.pendingIds v.core.evaluationIds v'.pendingIds v'.core.evaluationIds

theorem Moves.freshIds {sc : Scope} {v v' : View} (h : Moves sc v v') : FreshIds v v' :=
  h.related (R := FreshIds) (fun _ => ⟨.refl _ _, .refl _ _⟩)
    (fun h h' => ⟨h.candidates.trans h'.candidates, h.pending.trans h'.pending⟩)
    (fun hmove => ⟨hmove.renumbered.candidates.fresh, hmove.renumbered.pending.fresh⟩)

/-- A candidate of the execution is found under its identity. -/
theorem Numbered.candidate? {v : View} {e : EnsembleRecord} {x : ExecutionRecord}
    (h : Numbered v) (he : v.entry = some e) (hx : e.execution = some x) {c : CandidateRecord}
    (hc : c ∈ x.candidates) : x.candidate? c.id = some c := by
  have hdistinct := h.candidates.distinct
  rw [View.candidateIds_of he hx] at hdistinct
  exact Slots.find?_of_nodup hdistinct hc

/-! ## All ensembles -/

/-- No two ensembles of the runtime share an identity of a slot, and within each
ensemble the slots are numbered. -/
structure Apart (f : Fabric) : Prop where
  numbered : ∀ id, Numbered (f.view id)
  candidates : ∀ id other, id ≠ other →
    (f.view id).candidateIds.Disjoint (f.view other).candidateIds
  pending : ∀ id other, id ≠ other → (f.view id).pendingIds.Disjoint (f.view other).pendingIds

/-- A family of disjoint lists of identities, of which one takes fresh
identities and the others take none. -/
theorem Fresh.family {domain : IdDomain} {ids ids' : EnsembleId → List (StrongId domain)}
    {a a' : IdAllocator domain} {target : EnsembleId}
    (h : Fresh (ids target) a (ids' target) a')
    (hdisjoint : ∀ id other, id ≠ other → (ids id).Disjoint (ids other))
    (hissued : ∀ id, Issued (ids id) a) (hothers : ∀ id, id ≠ target → ids' id ⊆ ids id)
    (id other : EnsembleId) (hne : id ≠ other) : (ids' id).Disjoint (ids' other) := by
  have htarget : ∀ other, other ≠ target → (ids' target).Disjoint (ids' other) := by
    intro other hother
    exact List.disjoint_of_subset_right (hothers other hother)
      (h.disjoint (hdisjoint target other (Ne.symm hother)) (hissued other).below)
  by_cases hid : id = target
  · subst hid
    exact htarget other (Ne.symm hne)
  · by_cases hother : other = target
    · subst hother
      exact List.disjoint_symm (htarget id hid)
    · exact List.disjoint_of_subset_left (hothers id hid)
        (List.disjoint_of_subset_right (hothers other hother) (hdisjoint id other hne))

theorem Apart.of_fresh {f f' : Fabric} (h : Apart f) (target : EnsembleId)
    (hnumbered : ∀ id, Numbered (f'.view id))
    (hfresh : FreshIds (f.view target) (f'.view target))
    (hothers : ∀ id, id ≠ target → (f'.view id).candidateIds ⊆ (f.view id).candidateIds
      ∧ (f'.view id).pendingIds ⊆ (f.view id).pendingIds) : Apart f' :=
  ⟨hnumbered,
    hfresh.candidates.family h.candidates (fun id => (h.numbered id).candidates)
      fun id hid => (hothers id hid).1,
    hfresh.pending.family h.pending (fun id => (h.numbered id).pending)
      fun id hid => (hothers id hid).2⟩

end EnsembleFabric
