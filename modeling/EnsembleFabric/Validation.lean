import EnsembleFabric.Refinement.Fences

/-!
# What validation establishes

The facts about a specification that the runtime relies on later, read off
the checks of `validateSpec` once. An ensemble never runs a specification
without them.

`WellFormed` lists them: identities of participants and stages differ,
stages and fallback name participants that exist, a fallback that is
enabled has a depth, and the candidates a plan declares are within the
bound. `validateSpec_wellFormed` peels the checks of the source off one
by one; nothing else in the development unfolds `validateSpec`, apart
from the proofs that need a check of their own. `forEachAfter_eq_ok`
reads the checks of the source that compare an element with the ones
before it, and `nodup_of_later` turns such comparisons into a list
without repetitions.

`Admitted.wellFormed` is the form the invariants use: the specification
of a record was validated when the record was made, and `Fences` shows
that no operation puts another in its place.
-/

namespace EnsembleFabric

open Checks

/-! ## Checks over lists -/

theorem forEachAfter_eq_ok {α : Type} {check : List α → α → Status} {xs : List α} :
    forEachAfter check xs = .ok () ↔
      ∀ (i : Nat) (x : α), xs[i]? = some x → check (xs.take i) x = .ok () := by
  rw [forEachAfter, forM_eq_ok]
  constructor
  · intro h i x hx
    exact h (x, i) (List.mem_zipIdx_iff_getElem?.mpr hx)
  · rintro h ⟨x, i⟩ hx
    exact h i x (List.mem_zipIdx_iff_getElem?.mp hx)

/-- Elements whose key none of the earlier ones has. -/
theorem nodup_of_later {α κ : Type} {key : α → κ} {xs : List α}
    (h : ∀ (i : Nat) (x : α), xs[i]? = some x → ∀ y ∈ xs.take i, key y ≠ key x) :
    (xs.map key).Nodup := by
  rw [List.nodup_iff_pairwise_ne, List.pairwise_map, List.pairwise_iff_getElem]
  intro i j hi hj hij
  refine h j xs[j] (List.getElem?_eq_getElem hj) xs[i] ?_
  exact List.mem_take_iff_getElem.mpr ⟨i, by omega, rfl⟩

/-! ## The facts -/

/-- What the runtime relies on in a specification. Each field is established by
checks of `validateSpec`, under the limits of the runtime. -/
structure WellFormed (limits : Limits) (spec : EnsembleSpec) : Prop where
  participants : (spec.participants.map (·.id)).Nodup
  stages : (spec.stages.map (·.id)).Nodup
  members : ∀ stage ∈ spec.stages, ∀ id ∈ stage.participants,
    (spec.findParticipant id).isSome = true
  fallbackMembers : spec.fallback.enabled = true → ∀ id ∈ spec.fallback.fallbackParticipants,
    (spec.findParticipant id).isSome = true
  fallbackDepth : spec.fallback.enabled = true → spec.fallback.maxDepth ≠ 0
  declared : (totalDeclared limits spec.stages).isSome = true
  implied : spec.stages.isEmpty = true →
    (spec.participants.filter fun p =>
        p.roles.contains .candidate || p.roles.contains .specialist).length
      ≤ limits.maxCandidatesPerExecution.toNat

theorem validateFallback_eq_ok {limits : Limits} {spec : EnsembleSpec}
    (h : validateFallback limits spec = .ok ()) (henabled : spec.fallback.enabled = true) :
    (∀ id ∈ spec.fallback.fallbackParticipants, (spec.findParticipant id).isSome = true)
      ∧ spec.fallback.maxDepth ≠ 0 := by
  rw [validateFallback, if_pos henabled] at h
  simp only [bind_eq_ok, require_eq_ok, forM_eq_ok, Bool.and_eq_true, bne_iff_ne] at h
  obtain ⟨_, -, _, -, _, hmembers, hdepth, -⟩ := h
  refine ⟨fun id hid => ?_, hdepth⟩
  have hmember := hmembers id hid
  unfold validateFallbackMember at hmember
  split at hmember
  · cases hmember
  · rename_i p hp
    simp [hp]

theorem validateStage_eq_ok {limits : Limits} {spec : EnsembleSpec} {earlier : List StageSpec}
    {stage : StageSpec} (h : validateStage limits spec earlier stage = .ok ()) :
    (∀ other ∈ earlier, other.id ≠ stage.id)
      ∧ ∀ id ∈ stage.participants, (spec.findParticipant id).isSome = true := by
  simp only [validateStage, bind_eq_ok, require_eq_ok, forM_eq_ok, Bool.not_eq_true',
    List.any_eq_false, beq_iff_eq] at h
  obtain ⟨_, -, _, hdistinct, _, -, _, -, _, hmembers, -⟩ := h
  refine ⟨hdistinct, fun id hid => ?_⟩
  have hmember := hmembers id hid
  unfold validateStageMember at hmember
  split at hmember
  · cases hmember
  · rename_i p hp
    simp [hp]

theorem validateParticipant_eq_ok {limits : Limits} {earlier : List ParticipantSpec}
    {p : ParticipantSpec} (h : validateParticipant limits earlier p = .ok ()) :
    ∀ other ∈ earlier, other.id ≠ p.id := by
  simp only [validateParticipant, bind_eq_ok, require_eq_ok, Bool.not_eq_true',
    List.any_eq_false, beq_iff_eq] at h
  obtain ⟨_, -, _, hdistinct, -⟩ := h
  exact hdistinct

theorem validateSpec_wellFormed {limits : Limits} {spec : EnsembleSpec}
    (h : validateSpec spec limits = .ok ()) : WellFormed limits spec := by
  simp only [validateSpec, bind_eq_ok, require_eq_ok, decide_eq_true_eq] at h
  obtain ⟨_, -, _, -, _, -, _, -, _, -, _, -, _, -, _, -, _, -, _, -, _, hparticipants, _, -, _,
    hstages, _, -, _, -, _, -, _, -, _, -, _, hfallback, _, -, _, -, _, -, _, -, _, -, _, hdeclared,
    _, himplied, -⟩ := h
  rw [forEachAfter_eq_ok] at hparticipants hstages
  refine ⟨?_, ?_, ?_, ?_, ?_, hdeclared, ?_⟩
  · exact nodup_of_later fun i p hp => validateParticipant_eq_ok (hparticipants i p hp)
  · exact nodup_of_later fun i stage hstage => (validateStage_eq_ok (hstages i stage hstage)).1
  · intro stage hstage
    obtain ⟨i, hi⟩ := List.mem_iff_getElem?.mp hstage
    exact (validateStage_eq_ok (hstages i stage hi)).2
  · exact fun henabled => (validateFallback_eq_ok hfallback henabled).1
  · exact fun henabled => (validateFallback_eq_ok hfallback henabled).2
  · intro hempty
    simpa [hempty] using himplied

/-- An ensemble runs well-formed specifications only. -/
theorem Admitted.wellFormed {limits : Limits} {spec : EnsembleSpec} (h : Admitted limits spec) :
    WellFormed limits spec := by
  obtain ⟨validated, hvalid, heq⟩ := h
  have hwell := validateSpec_wellFormed hvalid
  rw [heq]
  exact ⟨hwell.participants, hwell.stages, hwell.members, hwell.fallbackMembers,
    hwell.fallbackDepth, hwell.declared, hwell.implied⟩

/-- The stages of a plan have different identities. -/
theorem WellFormed.effectiveStages {limits : Limits} {spec : EnsembleSpec}
    (h : WellFormed limits spec) : (spec.effectiveStages.map (·.id)).Nodup := by
  unfold EnsembleSpec.effectiveStages
  split
  · exact h.stages
  · simp only
    split <;> simp

/-- The members of a plan are participants. -/
theorem WellFormed.effectiveMembers {limits : Limits} {spec : EnsembleSpec}
    (h : WellFormed limits spec) :
    ∀ stage ∈ spec.effectiveStages, ∀ id ∈ stage.participants,
      (spec.findParticipant id).isSome = true := by
  intro stage hstage id hid
  unfold EnsembleSpec.effectiveStages at hstage
  split at hstage
  · exact h.members stage hstage id hid
  · simp only at hstage
    split at hstage
    · cases hstage
    · obtain rfl := List.mem_singleton.mp hstage
      obtain ⟨p, hp, rfl⟩ := List.mem_map.mp hid
      rw [EnsembleSpec.findParticipant, List.find?_isSome]
      exact ⟨p, List.mem_of_mem_filter hp, by simp⟩

end EnsembleFabric
