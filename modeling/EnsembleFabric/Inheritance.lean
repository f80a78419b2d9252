import EnsembleFabric.Marks
import EnsembleFabric.Incarnations
import EnsembleFabric.Staleness

/-!
# What a recovery inherits

A saved file says all of the state but what is not stored, and a recovery
takes it up under the next epoch: every ensemble with its results, without
anybody seated and without an open execution. Authority is bound to the epoch
it was granted in, so what was granted before the save is refused.

Identities are not handed out twice. The marks that are stored are past
everything the state holds (`reachable_marked`), and the recovery raises the
allocators past the candidates and the evaluations it finds, so nothing it
has taken up is allocated again, however far it goes on.

The states the theorem is about are closed under recovery: a runtime nobody
has used, one that has run, or one that was recovered from the file of
another (`Reachable`). What is known of all of them is that ensembles are
found under their own identities and that everything on record is behind the
marks (`Reachable.sound`), which saving and recovering keep.

The epoch moves by one with every restart and is a 64-bit word. A run that
completes fewer than 2^64 restarts does not come back to the epoch of the
saved state (`SavedAndRecovered.later_epoch`), and this is the only bound in
the statement.
-/

namespace EnsembleFabric

open EventSystem
open Write (flat)

/-! ## The recovered ensembles -/

/-- The first record of an identity is the one that is found. -/
theorem loadedEnsembles_get (es : List EnsembleRecord) (id : UInt64) :
    (loadedEnsembles es)[id]? = es.find? (·.spec.id.value == id) := by
  have hfold : ∀ (loaded : EnsembleMap),
      (es.foldl (fun loaded e => loaded.insertIfNew e.spec.id.value e) loaded)[id]?
        = loaded[id]?.or (es.find? (·.spec.id.value == id)) := by
    induction es with
    | nil => exact fun loaded => (Option.or_none ..).symm
    | cons e rest ih =>
      intro loaded
      rw [List.foldl_cons, ih, Std.TreeMap.getElem?_insertIfNew, List.find?_cons]
      simp only [Std.LawfulEqCmp.compare_eq_iff_eq, Std.TreeMap.mem_iff_isSome_getElem?]
      by_cases hid : e.spec.id.value = id
      · subst hid
        cases loaded[e.spec.id.value]? with
        | none => simp
        | some found => simp
      · rw [if_neg fun h => hid h.1, beq_eq_false_iff_ne.mpr hid]
  rw [loadedEnsembles, hfold]
  simp

/-- Where records are found under their own identities, they are found among
the values. -/
theorem find_values {f : Fabric} (hnamed : Named f) (id : EnsembleId) :
    f.ensembles.values.find? (·.spec.id.value == id.value) = f.find id := by
  cases hfound : f.ensembles.values.find? (·.spec.id.value == id.value) with
  | none =>
    rw [List.find?_eq_none] at hfound
    cases he : f.find id with
    | none => rfl
    | some e =>
      refine absurd ?_ (hfound e (Fabric.mem_values.mpr ⟨id, he⟩))
      rw [hnamed id e he, beq_self_eq_true]
  | some e =>
    obtain ⟨other, he⟩ := Fabric.mem_values.mp (List.mem_of_find?_eq_some hfound)
    have hid : e.spec.id.value = id.value := by simpa using List.find?_some hfound
    obtain rfl : other = id := by
      rw [← hnamed other e he]
      exact congrArg StrongId.mk hid
    exact he.symm

/-- An ensemble after it was saved and recovered. -/
def recoveredEnsemble (e : EnsembleRecord) : EnsembleRecord :=
  invalidatedEnsemble recoveryReason (reportedEnsemble e.stored)

/-- A save and a recovery of it: the state that was saved, the bytes of the file,
and the runtime after both sections of the recovery. -/
structure SavedAndRecovered (f : Fabric) (config : FabricConfig) (f' : Fabric) : Prop where
  representable : f.durable.Representable
  recovers : ∃ file boot epoch, saveState f = .ok file
    ∧ recoverState (Fabric.create config) file boot = (f', .ok epoch)

theorem SavedAndRecovered.adopts {f f' : Fabric} {config : FabricConfig}
    (h : SavedAndRecovered f config f') :
    f.core.epoch.value ≠ lastWord ∧ ∃ boot,
      f' = invalidateDynamicAuthority
        (adoptState (Fabric.create config) f.durable.stored.loaded boot).1 recoveryReason := by
  obtain ⟨hrepresentable, file, boot, epoch, hsaved, hrecovers⟩ := h
  have hrecovery := recoverState_recovery (Fabric.create config) file boot
  rw [hrecovers] at hrecovery
  cases hrecovery with
  | recovered reads hlast =>
    obtain rfl := saved_reads hrepresentable hsaved reads
    exact ⟨hlast, boot, rfl⟩

theorem loaded_find {f : Fabric} (hnamed : Named f) (id : EnsembleId) :
    f.durable.stored.loaded.ensembles[id.value]? = (f.find id).map EnsembleRecord.stored := by
  refine (loadedEnsembles_get _ _).trans ?_
  rw [← find_values hnamed]
  exact List.find?_map ..

theorem SavedAndRecovered.find {f f' : Fabric} {config : FabricConfig}
    (h : SavedAndRecovered f config f') (hnamed : Named f) (id : EnsembleId) :
    f'.find id = (f.find id).map recoveredEnsemble := by
  obtain ⟨hlast, boot, rfl⟩ := h.adopts
  have hlast : f.durable.stored.loaded.epoch.value ≠ lastWord := hlast
  have hloaded := loaded_find hnamed id
  simp only [Fabric.find] at hloaded
  simp only [invalidateDynamicAuthority, Fabric.find, Std.TreeMap.getElem?_map, adoptState,
    if_neg hlast, hloaded]
  rw [Option.map_map, Option.map_map]
  rfl

/-! ## Identities that are observed -/

/-- What is observed of every element of a list is past, and no mark goes
down. -/
theorem foldl_observed {α : Type} {observe : Core → α → Core} {P : Core → α → Prop}
    (hraised : ∀ k a, Raised k (observe k a)) (hobserved : ∀ k a, P (observe k a) a)
    (hmono : ∀ {k k' a}, Raised k k' → P k a → P k' a) (as : List α) (k : Core) :
    Raised k (as.foldl observe k) ∧ ∀ a ∈ as, P (as.foldl observe k) a := by
  induction as generalizing k with
  | nil => exact ⟨.refl k, fun _ ha => by cases ha⟩
  | cons a as ih =>
    obtain ⟨hrest, hall⟩ := ih (observe k a)
    refine ⟨(hraised k a).trans hrest, fun b hb => ?_⟩
    rcases List.mem_cons.mp hb with rfl | hlater
    · exact hmono hrest (hobserved k b)
    · exact hall b hlater

/-- The identities of a candidate are behind the marks. -/
structure CandidateRecord.Behind (k : Core) (c : CandidateRecord) : Prop where
  id : k.candidateIds.Past c.id
  received : k.sequences.Past c.receivedSequence
  dispatched : k.sequences.Past c.dispatchSequence

structure EvaluationRecord.Behind (k : Core) (r : EvaluationRecord) : Prop where
  id : k.evaluationIds.Past r.id
  received : k.sequences.Past r.receivedSequence

/-- The evidence of an execution is. -/
structure ExecutionRecord.Behind (k : Core) (x : ExecutionRecord) : Prop where
  candidates : ∀ c ∈ x.candidates, c.Behind k
  evaluations : ∀ r ∈ x.evaluations, r.Behind k

/-- So are the identity and the evidence of an ensemble. -/
structure EnsembleRecord.Behind (k : Core) (e : EnsembleRecord) : Prop where
  id : k.ensembleIds.Past e.spec.id
  execution : ∀ x, e.execution = some x → x.Behind k

theorem CandidateRecord.Behind.raised {k k' : Core} {c : CandidateRecord}
    (hraised : Raised k k') (h : c.Behind k) : c.Behind k' :=
  ⟨h.id.mono hraised.candidateIds, h.received.mono hraised.sequences,
    h.dispatched.mono hraised.sequences⟩

theorem EvaluationRecord.Behind.raised {k k' : Core} {r : EvaluationRecord}
    (hraised : Raised k k') (h : r.Behind k) : r.Behind k' :=
  ⟨h.id.mono hraised.evaluationIds, h.received.mono hraised.sequences⟩

theorem ExecutionRecord.Behind.raised {k k' : Core} {x : ExecutionRecord}
    (hraised : Raised k k') (h : x.Behind k) : x.Behind k' :=
  ⟨fun c hc => (h.candidates c hc).raised hraised, fun r hr => (h.evaluations r hr).raised hraised⟩

theorem EnsembleRecord.Behind.raised {k k' : Core} {e : EnsembleRecord}
    (hraised : Raised k k') (h : e.Behind k) : e.Behind k' :=
  ⟨h.id.mono hraised.ensembleIds, fun x hx => (h.execution x hx).raised hraised⟩

theorem observeCandidates_behind (cs : List CandidateRecord) (k : Core) :
    Raised k (cs.foldl Core.observeCandidate k)
      ∧ ∀ c ∈ cs, c.Behind (cs.foldl Core.observeCandidate k) := by
  refine foldl_observed (P := fun k c => CandidateRecord.Behind k c) (fun k c => ?_)
    (fun k c => ?_) CandidateRecord.Behind.raised cs k
  · exact ⟨Nat.le_refl _, IdAllocator.observe_le _ _, Nat.le_refl _, Nat.le_refl _,
      (IdAllocator.observe_le _ _).trans (IdAllocator.observe_le _ _)⟩
  · exact ⟨IdAllocator.past_observed _ _,
      (IdAllocator.past_observed _ _).mono (IdAllocator.observe_le _ _),
      IdAllocator.past_observed _ _⟩

theorem observeEvaluations_behind (rs : List EvaluationRecord) (k : Core) :
    Raised k (rs.foldl Core.observeEvaluation k)
      ∧ ∀ r ∈ rs, r.Behind (rs.foldl Core.observeEvaluation k) := by
  refine foldl_observed (P := fun k r => EvaluationRecord.Behind k r) (fun k r => ?_)
    (fun k r => ?_) EvaluationRecord.Behind.raised rs k
  · exact ⟨Nat.le_refl _, Nat.le_refl _, IdAllocator.observe_le _ _, Nat.le_refl _,
      IdAllocator.observe_le _ _⟩
  · exact ⟨IdAllocator.past_observed _ _, IdAllocator.past_observed _ _⟩

theorem observeExecution_behind (k : Core) (x : ExecutionRecord) :
    Raised k (k.observeExecution x) ∧ x.Behind (k.observeExecution x) := by
  obtain ⟨hcandidates, hallCandidates⟩ := observeCandidates_behind x.candidates k
  obtain ⟨hevaluations, hallEvaluations⟩ :=
    observeEvaluations_behind x.evaluations (x.candidates.foldl Core.observeCandidate k)
  have hresult : Raised (x.evaluations.foldl Core.observeEvaluation
      (x.candidates.foldl Core.observeCandidate k)) (k.observeExecution x) := by
    rw [Core.observeExecution]
    cases x.result with
    | none => exact .refl _
    | some r =>
      exact ⟨Nat.le_refl _, Nat.le_refl _, Nat.le_refl _, IdAllocator.observe_le _ _,
        IdAllocator.observe_le _ _⟩
  exact ⟨(hcandidates.trans hevaluations).trans hresult,
    fun c hc => (hallCandidates c hc).raised (hevaluations.trans hresult),
    fun r hr => (hallEvaluations r hr).raised hresult⟩

theorem observeEnsemble_behind (k : Core) (e : EnsembleRecord) :
    Raised k (k.observeEnsemble e) ∧ e.Behind (k.observeEnsemble e) := by
  have hid : Raised k { k with ensembleIds := k.ensembleIds.observe e.spec.id } :=
    ⟨IdAllocator.observe_le _ _, Nat.le_refl _, Nat.le_refl _, Nat.le_refl _, Nat.le_refl _⟩
  have hpast := IdAllocator.past_observed k.ensembleIds e.spec.id
  rw [Core.observeEnsemble]
  cases hx : e.execution with
  | none => exact ⟨hid, hpast, fun x hx' => by rw [hx] at hx'; cases hx'⟩
  | some x =>
    obtain ⟨hraised, hbehind⟩ := observeExecution_behind
      { k with ensembleIds := k.ensembleIds.observe e.spec.id } x
    refine ⟨hid.trans hraised, hpast.mono hraised.ensembleIds, fun x' hx' => ?_⟩
    obtain rfl := Option.some.inj (hx.symm.trans hx')
    exact hbehind

theorem observeEnsembles_behind (es : List EnsembleRecord) (k : Core) :
    Raised k (es.foldl Core.observeEnsemble k)
      ∧ ∀ e ∈ es, e.Behind (es.foldl Core.observeEnsemble k) :=
  foldl_observed (P := fun k e => EnsembleRecord.Behind k e)
    (fun k e => (observeEnsemble_behind k e).1)
    (fun k e => (observeEnsemble_behind k e).2) EnsembleRecord.Behind.raised es k

/-- A mark that was stored is reached again. -/
theorem IdAllocator.observeMark_le {domain : IdDomain} (a : IdAllocator domain) (mark : UInt64) :
    mark.toNat ≤ (a.observeMark mark).next.toNat := by
  rw [observeMark]
  split
  · rename_i hzero
    rw [hzero]
    exact Nat.zero_le _
  · rename_i hpositive
    have hone : (1 : UInt64) ≤ mark := by
      rw [UInt64.le_iff_toNat_le]
      exact Nat.pos_of_ne_zero fun h => hpositive (UInt64.toNat_inj.mp h)
    have hpred : (mark - 1).toNat = mark.toNat - 1 := UInt64.toNat_sub_of_le _ _ hone
    have hlt := mark.toNat_lt
    rcases a.past_observed ⟨mark - 1⟩ with hbelow | hlast
    · rw [hpred] at hbelow
      omega
    · have hword := congrArg UInt64.toNat hlast
      have hmax : lastWord.toNat = 2 ^ 64 - 1 := rfl
      rw [hpred, hmax] at hword
      omega

/-! ## What becomes of a record -/

theorem recoveredEnsemble_execution {e : EnsembleRecord} {x' : ExecutionRecord}
    (h : (recoveredEnsemble e).execution = some x') :
    ∃ x, e.execution = some x
      ∧ x' = invalidatedExecution recoveryReason (computeReports e.stored x.stored) := by
  obtain ⟨reported, hreported, rfl⟩ := Option.map_eq_some_iff.mp h
  obtain ⟨stored, hstored, rfl⟩ := Option.map_eq_some_iff.mp hreported
  obtain ⟨x, hx, rfl⟩ := Option.map_eq_some_iff.mp hstored
  exact ⟨x, hx, rfl⟩

theorem invalidatedExecution_closed (reason : String) (x : ExecutionRecord) :
    (invalidatedExecution reason x).status ≠ .opened := by
  unfold invalidatedExecution
  split
  · exact fun h => by cases h
  · assumption

theorem invalidatedExecution_behind {k : Core} {x : ExecutionRecord} (h : x.Behind k)
    (reason : String) : (invalidatedExecution reason x).Behind k := by
  unfold invalidatedExecution
  split
  · refine ⟨fun c' hc' => ?_, fun r' hr' => ?_⟩
    · obtain ⟨c, hc, rfl⟩ := List.mem_map.mp hc'
      obtain ⟨hid, hreceived, hdispatched⟩ := h.candidates c hc
      unfold invalidatedCandidate
      split <;> exact ⟨hid, hreceived, hdispatched⟩
    · obtain ⟨r, hr, rfl⟩ := List.mem_map.mp hr'
      obtain ⟨hid, hreceived⟩ := h.evaluations r hr
      exact ⟨hid, hreceived⟩
  · exact h

theorem computeReports_behind {k : Core} {x : ExecutionRecord} (h : x.Behind k)
    (e : EnsembleRecord) : (computeReports e x).Behind k := by
  refine ⟨fun c' hc' => ?_, h.evaluations⟩
  rw [computeReports_candidates] at hc'
  obtain ⟨c, hc, rfl⟩ := List.mem_map.mp hc'
  obtain ⟨hid, hreceived, hdispatched⟩ := h.candidates c hc
  rw [markElimination_eq]
  exact ⟨hid, hreceived, hdispatched⟩

theorem recoveredEnsemble_behind {k : Core} {e : EnsembleRecord} (h : e.stored.Behind k) :
    (recoveredEnsemble e).Behind k := by
  refine ⟨h.id, fun x' hx' => ?_⟩
  obtain ⟨x, hx, rfl⟩ := recoveredEnsemble_execution hx'
  have hstored : e.stored.execution = some x.stored := by
    rw [EnsembleRecord.stored, hx]
    rfl
  exact invalidatedExecution_behind (computeReports_behind (h.execution _ hstored) _) _

/-- Results are recovered under their identities and sequences. -/
theorem recoveredEnsemble_marked {k : Core} {e : EnsembleRecord} (h : e.Marked k) :
    (recoveredEnsemble e).Marked k := by
  refine ⟨fun x' hx' => ?_, fun r' hr' => ?_⟩
  · obtain ⟨x, hx, rfl⟩ := recoveredEnsemble_execution hx'
    obtain ⟨hresult, hcommits, hcancelled, hcommitted⟩ := h.execution x hx
    have hreports : SameRecord x.stored (computeReports e.stored x.stored) := ⟨rfl, rfl, rfl, rfl⟩
    refine ExecutionRecord.Marked.of_same ?_ (hreports.trans (invalidatedExecution_record _ _))
    exact ⟨hresult, hcommits, hcancelled, hcommitted⟩
  · exact h.history r' hr'

/-- Plans are not stored. -/
theorem recoveredEnsemble_pending {e : EnsembleRecord} {x' : ExecutionRecord}
    (h : (recoveredEnsemble e).execution = some x') : x'.pending = [] := by
  obtain ⟨x, -, rfl⟩ := recoveredEnsemble_execution h
  unfold invalidatedExecution
  split <;> rfl

theorem recoveredEnsemble_result (e : EnsembleRecord) :
    (recoveredEnsemble e).execution.bind (·.result)
      = e.execution.bind (·.result) := by
  have hexecution : (recoveredEnsemble e).execution = e.execution.map fun x =>
      invalidatedExecution recoveryReason (computeReports e.stored x.stored) := by
    cases e with
    | mk spec participants execution => cases execution <;> rfl
  rw [hexecution]
  cases e.execution with
  | none => rfl
  | some x => exact (invalidatedExecution_record recoveryReason _).result

/-! ## A recovered runtime -/

theorem SavedAndRecovered.raised {f f' : Fabric} {config : FabricConfig}
    (h : SavedAndRecovered f config f') : Raised f.core f'.core := by
  obtain ⟨hlast, boot, rfl⟩ := h.adopts
  have hlast : f.durable.stored.loaded.epoch.value ≠ lastWord := hlast
  have hadopted : Raised f.core ((Fabric.create config).core.adopted (Fabric.create config).config
      f.durable.stored.loaded boot) :=
    ⟨IdAllocator.observeMark_le _ _, IdAllocator.observeMark_le _ _,
      IdAllocator.observeMark_le _ _, IdAllocator.observeMark_le _ _,
      IdAllocator.observeMark_le _ _⟩
  rw [adoptState, if_neg hlast]
  exact (hadopted.trans (observeEnsembles_behind _ _).1).trans (raised_count _ _)

theorem SavedAndRecovered.behind {f f' : Fabric} {config : FabricConfig}
    (h : SavedAndRecovered f config f') (hnamed : Named f) {id : EnsembleId} {e' : EnsembleRecord}
    (he' : f'.find id = some e') : e'.Behind f'.core := by
  rw [h.find hnamed] at he'
  obtain ⟨e, he, rfl⟩ := Option.map_eq_some_iff.mp he'
  refine recoveredEnsemble_behind ?_
  obtain ⟨hlast, boot, rfl⟩ := h.adopts
  have hlast : f.durable.stored.loaded.epoch.value ≠ lastWord := hlast
  have hloaded : e.stored ∈ f.durable.stored.loaded.ensembles.values := by
    refine (Fabric.mem_values
      (f := { ensembles := f.durable.stored.loaded.ensembles })).mpr ⟨id, ?_⟩
    exact (loaded_find hnamed id).trans (congrArg (Option.map EnsembleRecord.stored) he)
  rw [adoptState, if_neg hlast]
  exact EnsembleRecord.Behind.raised (raised_count _ _)
    ((observeEnsembles_behind _ _).2 _ hloaded)

theorem SavedAndRecovered.marked {f f' : Fabric} {config : FabricConfig}
    (h : SavedAndRecovered f config f') (hnamed : Named f) (hmarked : f.Marked) : f'.Marked := by
  refine ⟨Nat.lt_of_lt_of_le hmarked.positive h.raised.sequences, fun id e' he' => ?_⟩
  rw [h.find hnamed] at he'
  obtain ⟨e, he, rfl⟩ := Option.map_eq_some_iff.mp he'
  exact recoveredEnsemble_marked ((hmarked.ensembles id e he).raised h.raised)

/-! ## Identities on record -/

/-- An allocation hands out none of the identities. -/
def IdAllocator.Avoids {domain : IdDomain} (a : IdAllocator domain)
    (ids : List (StrongId domain)) : Prop :=
  ∀ id a', a.allocate = some (id, a') → id ∉ ids

theorem IdAllocator.avoids_of_past {domain : IdDomain} {a : IdAllocator domain}
    {ids : List (StrongId domain)} (h : ∀ id ∈ ids, a.Past id) : a.Avoids ids :=
  fun id _ hallocated hid => (h id hid).not_allocated hallocated rfl

namespace ExecutionRecord

def candidateIds (x : ExecutionRecord) : List CandidateId := x.candidates.map (·.id)

def evaluationIds (x : ExecutionRecord) : List EvaluationId :=
  x.evaluations.map (·.id) ++ x.pending.map (·.id)

def resultIds (x : ExecutionRecord) : List ResultId :=
  x.result.toList.map (·.id) ++ x.commits.map (·.result)

def sequences (x : ExecutionRecord) : List Sequence :=
  x.candidates.map (·.receivedSequence) ++ x.candidates.map (·.dispatchSequence)
    ++ x.evaluations.map (·.receivedSequence) ++ x.result.toList.map (·.commitSequence)
    ++ x.commits.map (·.sequence) ++ [x.cancelledSequence, x.committedSequence]

end ExecutionRecord

/-- The allocators hand out nothing that is on record in the ensemble. -/
structure Unclaimed (k : Core) (e : EnsembleRecord) : Prop where
  ensembles : k.ensembleIds.Avoids [e.spec.id]
  candidates : k.candidateIds.Avoids (e.execution.toList.flatMap (·.candidateIds))
  evaluations : k.evaluationIds.Avoids (e.execution.toList.flatMap (·.evaluationIds))
  results : k.resultIds.Avoids
    (e.execution.toList.flatMap (·.resultIds) ++ e.history.map (·.id))
  sequences : k.sequences.Avoids
    (e.execution.toList.flatMap (·.sequences) ++ e.history.map (·.commitSequence))

theorem resultIds_past {k : Core} {x : ExecutionRecord} (h : x.Marked k) {id : ResultId}
    (hid : id ∈ x.resultIds) : k.resultIds.Past id := by
  rcases List.mem_append.mp hid with hresult | hcommit
  · obtain ⟨r, hr, rfl⟩ := List.mem_map.mp hresult
    exact (h.result r (Option.mem_toList.mp hr)).1
  · obtain ⟨c, hc, rfl⟩ := List.mem_map.mp hcommit
    exact (h.commits c hc).1

theorem sequences_past {k : Core} {x : ExecutionRecord} (hbehind : x.Behind k)
    (hmarked : x.Marked k) {s : Sequence} (hs : s ∈ x.sequences) : k.sequences.Past s := by
  simp only [ExecutionRecord.sequences, List.mem_append, List.mem_map, List.mem_cons,
    List.not_mem_nil, or_false] at hs
  rcases hs with (((((⟨c, hc, rfl⟩ | ⟨c, hc, rfl⟩) | ⟨r, hr, rfl⟩) | ⟨r, hr, rfl⟩) |
    ⟨c, hc, rfl⟩) | rfl | rfl)
  · exact (hbehind.candidates c hc).received
  · exact (hbehind.candidates c hc).dispatched
  · exact (hbehind.evaluations r hr).received
  · exact (hmarked.result r (Option.mem_toList.mp hr)).2
  · exact (hmarked.commits c hc).2
  · exact hmarked.cancelledSequence
  · exact hmarked.committedSequence

/-- What is behind the marks is not handed out. -/
theorem EnsembleRecord.Behind.unclaimed {k : Core} {e : EnsembleRecord} (hbehind : e.Behind k)
    (hmarked : e.Marked k) (hplans : ∀ x, e.execution = some x → x.pending = []) :
    Unclaimed k e := by
  have hexecution : ∀ {α : Type} {ids : ExecutionRecord → List α} {P : α → Prop},
      (∀ x, e.execution = some x → ∀ id ∈ ids x, P id) →
        ∀ id ∈ e.execution.toList.flatMap ids, P id := by
    intro α ids P hall id hid
    obtain ⟨x, hx, hid⟩ := List.mem_flatMap.mp hid
    exact hall x (Option.mem_toList.mp hx) id hid
  refine ⟨IdAllocator.avoids_of_past fun id hid => ?_,
    IdAllocator.avoids_of_past (hexecution fun x hx id hid => ?_),
    IdAllocator.avoids_of_past (hexecution fun x hx id hid => ?_),
    IdAllocator.avoids_of_past fun id hid => ?_, IdAllocator.avoids_of_past fun s hs => ?_⟩
  · obtain rfl := List.mem_singleton.mp hid
    exact hbehind.id
  · obtain ⟨c, hc, rfl⟩ := List.mem_map.mp hid
    exact ((hbehind.execution x hx).candidates c hc).id
  · rw [ExecutionRecord.evaluationIds, hplans x hx] at hid
    rcases List.mem_append.mp hid with hrecorded | hplanned
    · obtain ⟨r, hr, rfl⟩ := List.mem_map.mp hrecorded
      exact ((hbehind.execution x hx).evaluations r hr).id
    · cases hplanned
  · rcases List.mem_append.mp hid with hcurrent | hhistory
    · exact hexecution (fun x hx id => resultIds_past (hmarked.execution x hx)) id hcurrent
    · obtain ⟨r, hr, rfl⟩ := List.mem_map.mp hhistory
      exact (hmarked.history r hr).1
  · rcases List.mem_append.mp hs with hcurrent | hhistory
    · exact hexecution (fun x hx s =>
        sequences_past (hbehind.execution x hx) (hmarked.execution x hx)) s hcurrent
    · obtain ⟨r, hr, rfl⟩ := List.mem_map.mp hhistory
      exact (hmarked.history r hr).2

/-! ## Authority -/

/-- The runtime would accept an evaluation under the authority. -/
def System.AcceptsEvaluation (s : System) (a : EvaluationAuthority) : Prop :=
  ∃ submission, submission.authority = a ∧ (submitEvaluation s.fabric submission).2.isOk = true

theorem accepts_epoch {s : System} {a : CandidateAuthority} (h : s.Accepts a) :
    a.participant.coordinatorEpoch = s.fabric.core.epoch := by
  obtain ⟨e, x, p, c, hfenced, -⟩ := accepts_iff.mp h
  exact hfenced.epoch

theorem acceptsEvaluation_epoch {s : System} {a : EvaluationAuthority}
    (h : s.AcceptsEvaluation a) : a.evaluator.coordinatorEpoch = s.fabric.core.epoch := by
  obtain ⟨submission, rfl, hok⟩ := h
  rw [submitEvaluation] at hok
  split at hok
  · cases hok
  · rename_i site haccept
    simp only [acceptEvaluation, locateEvaluation, Checks.bind_eq_ok, demand_eq_ok] at haccept
    obtain ⟨_, ⟨_, _, _, hepoch, _⟩, _⟩ := haccept
    exact beq_iff_eq.mp hepoch

/-- The event is the section of a restart that moves the epoch. -/
def System.bumps (s : System) : Event → Bool
  | .resume client _ => s.clients client == .restartBumping
  | _ => false

/-- The restarts that a run completes. -/
def restarts : System → List Event → Nat
  | _, [] => 0
  | s, event :: events => (s.bumps event).toNat + restarts (s.next event) events

theorem next_epochAfter {s : System} (hnamed : Named s.fabric) (event : Event) :
    (s.next event).fabric.core.epoch = epochAfter s.fabric.core.epoch (s.bumps event).toNat := by
  cases hbumps : s.bumps event with
  | false =>
    refine (next_epoch hnamed ?_).trans (by simp [epochAfter])
    rintro client boot rfl hphase
    rw [System.bumps, hphase] at hbumps
    cases hbumps
  | true =>
    cases event with
    | resume client boot =>
      have hphase : s.clients client = .restartBumping := by simpa [System.bumps] using hbumps
      simp only [System.next, System.step, System.resume, hphase]
      rfl
    | _ => cases hbumps

theorem next_named {s : System} (hnamed : Named s.fabric) (event : Event) :
    Named (s.next event).fabric :=
  (next_viewSteps rfl hnamed (allows_all _ s event) ⟨0⟩).2.1

/-- The epoch moves by one with every restart. -/
theorem run_epochAfter {s : System} (hnamed : Named s.fabric) (events : List Event) :
    (s.run events).fabric.core.epoch = epochAfter s.fabric.core.epoch (restarts s events) := by
  induction events generalizing s with
  | nil => simp [restarts, epochAfter]
  | cons event events ih =>
    refine (ih (next_named hnamed event)).trans ?_
    rw [next_epochAfter hnamed event, restarts]
    simp [epochAfter, UInt64.ofNat_add, UInt64.add_assoc]

/-! ## Every recovery -/

/-- The states of a runtime: nobody has used it, it has run, or it was
recovered from the file of another. -/
inductive Reachable : Fabric → Prop
  | created (config : FabricConfig) : Reachable (.create config)
  | ran {f : Fabric} (before : Reachable f) (events : List Event) :
      Reachable (System.run { fabric := f } events).fabric
  | recovered {f f' : Fabric} {config : FabricConfig} (before : Reachable f)
      (recovery : SavedAndRecovered f config f') : Reachable f'

theorem SavedAndRecovered.named {f f' : Fabric} {config : FabricConfig}
    (h : SavedAndRecovered f config f') : Named f' := by
  obtain ⟨hlast, boot, rfl⟩ := h.adopts
  exact named_invalidate (named_adopt hlast) recoveryReason

/-- Ensembles are found under their identities, and what is on record is
behind the marks. -/
theorem Reachable.sound {f : Fabric} (h : Reachable f) : Named f ∧ f.Marked := by
  induction h with
  | created config => exact ⟨initial_named config, (reachable_marked config [])⟩
  | ran _ events ih =>
    exact run_invariant (I := fun s : System => Named s.fabric ∧ s.fabric.Marked)
      (fun _ event h => ⟨next_named h.1 event, next_marked h.2 event⟩) ih
  | recovered _ recovery ih => exact ⟨recovery.named, recovery.marked ih.1 ih.2⟩

/-- What the runtime `f'` has of `f`: the results, and nothing that anybody
was entitled to. -/
structure Inherits (f f' : Fabric) : Prop where
  epoch : f'.core.epoch.value.toNat = f.core.epoch.value.toNat + 1
  current : ∀ id, currentResult f' id = currentResult f id
  history : ∀ id, (f'.find id).map (·.history) = (f.find id).map (·.history)
  powerless : ∀ id e, f'.find id = some e → ∀ p ∈ e.participants,
    p.authoritative f'.core.epoch = false
  closed : ∀ id e x, f'.find id = some e → e.execution = some x → x.status ≠ .opened
  candidates : ∀ (s s' : System) (events : List Event) (a : CandidateAuthority),
    s.fabric = f → s'.fabric = f' → restarts s' events + 1 < 2 ^ 64 →
      s.Accepts a → ¬ (s'.run events).Accepts a
  evaluations : ∀ (s s' : System) (events : List Event) (a : EvaluationAuthority),
    s.fabric = f → s'.fabric = f' → restarts s' events + 1 < 2 ^ 64 →
      s.AcceptsEvaluation a → ¬ (s'.run events).AcceptsEvaluation a
  unclaimed : ∀ (s' : System) (events : List Event), s'.fabric = f' →
    ∀ id e, f'.find id = some e → Unclaimed (s'.run events).fabric.core e

theorem currentResult_recovered {f f' : Fabric}
    (hfind : ∀ id, f'.find id = (f.find id).map recoveredEnsemble) (id : EnsembleId) :
    currentResult f' id = currentResult f id := by
  rw [currentResult, currentResult, hfind]
  cases f.find id with
  | none => rfl
  | some e => simp only [Option.map_some, recoveredEnsemble_result]

/-- After a recovery the epoch of the saved state does not come back before
2^64 restarts. -/
theorem SavedAndRecovered.later_epoch {f : Fabric} {config : FabricConfig} {s' : System}
    (h : SavedAndRecovered f config s'.fabric) {events : List Event}
    (hfew : restarts s' events + 1 < 2 ^ 64) :
    (s'.run events).fabric.core.epoch ≠ f.core.epoch := by
  have hnext : s'.fabric.core.epoch = epochAfter f.core.epoch 1 := by
    obtain ⟨hlast, boot, hadopts⟩ := h.adopts
    rw [hadopts]
    exact adoptState_epoch hlast
  have hnone : f.core.epoch = epochAfter f.core.epoch 0 := by simp [epochAfter]
  rw [run_epochAfter h.named, hnext]
  intro heq
  have hsum : epochAfter (epochAfter f.core.epoch 1) (restarts s' events)
      = epochAfter f.core.epoch (1 + restarts s' events) := by
    simp [epochAfter, UInt64.ofNat_add, UInt64.add_assoc]
  have hzero := epochAfter_inj (by omega) (by omega) (hsum.symm.trans (heq.trans hnone))
  omega

/-- Whatever state of a runtime is saved and recovered, in a fresh runtime of
any configuration: every current result and every result of the history is
the one that was saved, the epoch is the next one, nobody is authoritative
and no execution is open. An authority that was accepted before the save is
refused in every later state, until the word that holds the epoch has come
round. Nothing that the recovered state has on record is ever allocated
again. -/
theorem recovery_inherits {f f' : Fabric} {config : FabricConfig} (hreachable : Reachable f)
    (h : SavedAndRecovered f config f') : Inherits f f' := by
  obtain ⟨hnamed, hmarked⟩ := hreachable.sound
  have hfind := h.find hnamed
  refine ⟨?_, currentResult_recovered hfind, fun id => ?_, fun id e he p hp => ?_,
    fun id e x he hx => ?_, ?_, ?_, ?_⟩
  · obtain ⟨hlast, boot, rfl⟩ := h.adopts
    have hne : f.core.epoch.value.toNat ≠ 2 ^ 64 - 1 := fun heq =>
      hlast (UInt64.toNat_inj.mp heq)
    have hlt := f.core.epoch.value.toNat_lt
    have hepoch : (adoptState (Fabric.create config) f.durable.stored.loaded boot).1.core.epoch
        = f.core.epoch.next := adoptState_epoch hlast
    change (adoptState (Fabric.create config) f.durable.stored.loaded boot).1.core.epoch.value.toNat
      = _
    rw [hepoch, StrongId.next_toNat (by omega)]
  · rw [hfind, Option.map_map]
    rfl
  · obtain ⟨hlast, boot, rfl⟩ := h.adopts
    have hvacated := vacated_invalidate _ recoveryReason id e he p hp
    rw [ParticipantRecord.seated] at hvacated
    rw [ParticipantRecord.authoritative, hvacated, Bool.false_and]
  · rw [hfind] at he
    obtain ⟨e₀, -, rfl⟩ := Option.map_eq_some_iff.mp he
    obtain ⟨x₀, -, rfl⟩ := recoveredEnsemble_execution hx
    exact invalidatedExecution_closed _ _
  · rintro s s' events a rfl rfl hfew haccepts haccepts'
    exact h.later_epoch hfew ((accepts_epoch haccepts').symm.trans (accepts_epoch haccepts))
  · rintro s s' events a rfl rfl hfew haccepts haccepts'
    exact h.later_epoch hfew
      ((acceptsEvaluation_epoch haccepts').symm.trans (acceptsEvaluation_epoch haccepts))
  · rintro s' events rfl id e he
    have hraised := run_raised s' events
    refine ((h.behind hnamed he).raised hraised).unclaimed
      (((h.marked hnamed hmarked).ensembles id e he).raised hraised) fun x hx => ?_
    rw [hfind] at he
    obtain ⟨e₀, -, rfl⟩ := Option.map_eq_some_iff.mp he
    exact recoveredEnsemble_pending hx

/-- What is saved and decoded is recovered. -/
theorem decoded_recovers {f : Fabric} (config : FabricConfig)
    (hlimits : config.limits = f.config.limits)
    (hrecords : 1 ≤ f.config.limits.maxRecordsPerSnapshot)
    (hrepresentable : f.durable.Representable)
    (hsize : (flat (putState f.config.limits f.durable)).length
      ≤ f.config.limits.maxPersistenceBytes.toNat)
    (hdecoded : (decodeState (flat (putState f.config.limits f.durable))
      f.config.limits).isOk = true)
    (hepoch : f.core.epoch.value ≠ lastWord) : ∃ f', SavedAndRecovered f config f' := by
  obtain ⟨file, hsaved, header, payload, hread, hdecoded⟩ :=
    decoded_reads hrecords hrepresentable hsize hdecoded
  have hrecovers : recoverState (Fabric.create config) file ⟨1⟩
      = recoverTail (Fabric.create config) f.durable.stored.loaded ⟨1⟩ := by
    rw [← hlimits] at hread hdecoded
    simp only [recoverState, Fabric.create, hread, hdecoded]
  rw [recoverTail_next (show f.durable.stored.loaded.epoch.value ≠ lastWord from hepoch)]
    at hrecovers
  exact ⟨_, hrepresentable, _, _, _, hsaved, hrecovers⟩

namespace Sample

/-- A result is committed, and the next generation is under way. -/
def regenerated : List Event :=
  start loneSpec
    ++ [content 1 1 [7], advance, .finalize 0 ⟨1⟩ ⟨1⟩, .resume 0 ⟨1⟩, .resume 0 ⟨1⟩,
      .defineEnsemble loneSpec, .registerParticipant
        { ensemble := ⟨1⟩, ensembleGeneration := ⟨2⟩, participant := ⟨1⟩, worker := ⟨1⟩
          workerBoot := ⟨1⟩, coordinatorEpoch := ⟨1⟩ },
      .openExecution ⟨1⟩ ⟨2⟩, .advance ⟨1⟩ ⟨2⟩]

/-- What its second candidate was dispatched under. -/
def secondCandidate : CandidateAuthority :=
  { candidateAuthority 1 2 with participant := { authority 1 with ensembleGeneration := ⟨2⟩ } }

end Sample

/-- The result is recovered, and the candidate that is under way is not. The
authority its worker still holds is of the epoch before. -/
theorem regenerated_inherits :
    ∃ f', SavedAndRecovered (Sample.reached Sample.regenerated).fabric {} f'
      ∧ Inherits (Sample.reached Sample.regenerated).fabric f'
      ∧ (f'.find ⟨1⟩).map (·.history.length) = some 1
      ∧ (Sample.reached Sample.regenerated).Accepts Sample.secondCandidate
      ∧ ¬ System.Accepts { fabric := f' } Sample.secondCandidate := by
  have hreachable : Reachable (Sample.reached Sample.regenerated).fabric :=
    .ran (.created {}) Sample.regenerated
  have hlimits : (Sample.reached Sample.regenerated).fabric.config.limits = {} := by
    rw [Sample.reached, (reachable_named {} Sample.regenerated).1]
  obtain ⟨hrepresentable, hsize, hdecoded, hepoch, haccepts, hhistory⟩ :
      (Sample.reached Sample.regenerated).fabric.durable.Representable
        ∧ (flat (putState {} (Sample.reached Sample.regenerated).fabric.durable)).length
            ≤ ({} : Limits).maxPersistenceBytes.toNat
        ∧ (decodeState (flat (putState {} (Sample.reached Sample.regenerated).fabric.durable))
            {}).isOk = true
        ∧ (Sample.reached Sample.regenerated).fabric.core.epoch.value ≠ lastWord
        ∧ (Sample.reached Sample.regenerated).Accepts Sample.secondCandidate
        ∧ ((Sample.reached Sample.regenerated).fabric.find ⟨1⟩).map (·.history.length)
            = some 1 := by
    decide +kernel
  generalize Sample.reached Sample.regenerated = s at *
  rw [← hlimits] at hsize hdecoded
  obtain ⟨f', hrecovered⟩ := decoded_recovers {} hlimits.symm
    (hlimits.symm ▸ by decide) hrepresentable hsize hdecoded hepoch
  have hinherits := recovery_inherits hreachable hrecovered
  refine ⟨f', hrecovered, hinherits, ?_, haccepts,
    hinherits.candidates s { fabric := f' } [] _ rfl rfl (by simp [restarts]) haccepts⟩
  have hlength := congrArg (Option.map List.length) (hinherits.history ⟨1⟩)
  rw [Option.map_map, Option.map_map] at hlength
  exact hlength.trans hhistory

end EnsembleFabric
