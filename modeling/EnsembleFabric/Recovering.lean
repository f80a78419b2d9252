import EnsembleFabric.Unambiguous

/-!
# Saving and recovering

A save puts all of the state into the file or fails: the last thing that is
written is a run of bytes, so a payload within the configured size has lost
nothing (`saveState_eq_ok`). Recovering the file gives that state back, or
fails and leaves the runtime as it was. It succeeds if and only if the state
is within the bounds of the decoder and its epoch has a successor
(`saved_state_recovered_iff`): neither is checked when the state is saved.

A recovery has two outcomes (`Recovery`): the runtime is left alone, with an
error, or it takes up the state that the file says. `failed_recovery_keeps`
is about any bytes whatsoever: whether they are refused at the header, at the
checksum or half way through the payload, the runtime keeps all it has. That
holds because nothing is written to the runtime before all of the file is
decoded.

The recovering runtime need not be the one that saved. `saved_reads` says
that a saved file says nothing but what was saved, whatever the limits of the
runtime that reads it; whether it is read at all depends on those limits.

`committed_runtime_recovered` and `refused_file_keeps` are about a runtime
with an ensemble, an execution and a committed result.
-/

namespace EnsembleFabric

open StateFile (image headerBytes)
open Write (flat)

/-! ## A recovery that fails -/

theorem recoverTail_last {f : Fabric} {stored : StoredState} {boot : WorkerBootId}
    (h : stored.epoch.value = lastWord) :
    recoverTail f stored boot
      = (f, fail .resourceLimitExceeded "coordinator epoch space is exhausted") := by
  rw [recoverTail, adoptState, if_pos h]
  rfl

theorem recoverTail_next {f : Fabric} {stored : StoredState} {boot : WorkerBootId}
    (h : stored.epoch.value ≠ lastWord) :
    recoverTail f stored boot
      = (invalidateDynamicAuthority (adoptState f stored boot).1 recoveryReason,
        .ok stored.epoch.next) := by
  rw [recoverTail, adoptState, if_neg h]

theorem observeExecution_epoch (k : Core) (x : ExecutionRecord) :
    (k.observeExecution x).epoch = k.epoch := by
  have hcandidates : ∀ (cs : List CandidateRecord) (k : Core),
      (cs.foldl Core.observeCandidate k).epoch = k.epoch := by
    intro cs
    induction cs with
    | nil => exact fun _ => rfl
    | cons c cs ih => exact fun k => ih (k.observeCandidate c)
  have hevaluations : ∀ (rs : List EvaluationRecord) (k : Core),
      (rs.foldl Core.observeEvaluation k).epoch = k.epoch := by
    intro rs
    induction rs with
    | nil => exact fun _ => rfl
    | cons r rs ih => exact fun k => ih (k.observeEvaluation r)
  have hevidence := (hevaluations x.evaluations _).trans (hcandidates x.candidates k)
  rw [Core.observeExecution]
  cases x.result with
  | none => exact hevidence
  | some r => exact hevidence

theorem observeEnsembles_epoch (es : List EnsembleRecord) (k : Core) :
    (es.foldl Core.observeEnsemble k).epoch = k.epoch := by
  induction es generalizing k with
  | nil => rfl
  | cons e es ih =>
    refine (ih (k.observeEnsemble e)).trans ?_
    rw [Core.observeEnsemble]
    cases e.execution with
    | none => rfl
    | some x => exact observeExecution_epoch _ x

/-- The runtime goes on under the epoch after the stored one. -/
theorem adoptState_epoch {f : Fabric} {stored : StoredState} {boot : WorkerBootId}
    (h : stored.epoch.value ≠ lastWord) :
    (adoptState f stored boot).1.core.epoch = stored.epoch.next := by
  rw [adoptState, if_neg h]
  exact observeEnsembles_epoch _ _

/-- The file is one the runtime reads, and says this. -/
def Reads (limits : Limits) (content : List UInt8) (state : DurableState) : Prop :=
  ∃ header payload, readStateFile content limits = .ok (header, payload)
    ∧ decodeState payload limits = .ok state

/-- What a recovery comes to: the runtime is left alone, or takes up the state
that the file says. -/
inductive Recovery (f : Fabric) (content : List UInt8) (boot : WorkerBootId) :
    Fabric × Outcome CoordinatorEpoch → Prop
  | refused (error : Error) : Recovery f content boot (f, .error error)
  | recovered {state : DurableState} (reads : Reads f.config.limits content state)
      (epoch : state.epoch.value ≠ lastWord) :
      Recovery f content boot
        (invalidateDynamicAuthority (adoptState f state.loaded boot).1 recoveryReason,
          .ok state.epoch.next)

theorem recoverState_recovery (f : Fabric) (content : List UInt8) (boot : WorkerBootId) :
    Recovery f content boot (recoverState f content boot) := by
  rw [recoverState]
  split
  · exact .refused _
  · rename_i header payload hread
    split
    · exact .refused _
    · rename_i state hdecoded
      by_cases hlast : state.epoch.value = lastWord
      · rw [recoverTail_last hlast]
        exact .refused _
      · rw [recoverTail_next hlast]
        exact .recovered ⟨header, payload, hread, hdecoded⟩ hlast

/-! ## What a save keeps -/

/-- The last of the writes is a run of at least one byte. -/
def EndsRaw (writes : List Write) : Prop :=
  ∃ front last, writes = front ++ [.raw last] ∧ last ≠ []

theorem EndsRaw.append {writes : List Write} (h : EndsRaw writes) (before : List Write) :
    EndsRaw (before ++ writes) := by
  obtain ⟨front, last, rfl, hlast⟩ := h
  exact ⟨before ++ front, last, by rw [List.append_assoc], hlast⟩

theorem u32_endsRaw (value : UInt32) : EndsRaw (Encoder.u32 value) := ⟨[], _, rfl, nofun⟩

theorem u64_endsRaw (value : UInt64) : EndsRaw (Encoder.u64 value) := ⟨[], _, rfl, nofun⟩

/-- The last group of writes is. -/
theorem EndsRaw.flatten {puts : List (List Write)} {writes : List Write}
    (hlast : puts.getLast? = some writes) (h : EndsRaw writes) : EndsRaw puts.flatten := by
  obtain ⟨before, rfl⟩ := List.getLast?_eq_some_iff.mp hlast
  rw [List.flatten_append, List.flatten_singleton]
  exact h.append _

theorem list_endsRaw {α : Type} {put : α → List Write} (h : ∀ a, EndsRaw (put a)) (as : List α) :
    EndsRaw (Encoder.list put as) := by
  rw [Encoder.list, List.flatMap]
  rcases as.eq_nil_or_concat with rfl | ⟨front, last, rfl⟩
  · exact (List.append_nil _).symm ▸ u32_endsRaw _
  · refine EndsRaw.append (EndsRaw.flatten ?_ (h last)) _
    rw [List.concat_eq_append, List.map_append, List.map_singleton, List.getLast?_concat]

theorem putResult_endsRaw (r : EnsembleResult) : EndsRaw (putResult r) :=
  EndsRaw.flatten rfl (u64_endsRaw r.commitFingerprint)

theorem putState_endsRaw (limits : Limits) (state : DurableState) :
    EndsRaw (putState limits state) :=
  EndsRaw.flatten rfl (list_endsRaw (fun e => EndsRaw.flatten rfl
    (list_endsRaw putResult_endsRaw e.history)) state.ensembles)

/-- A file is saved if and only if all of the state fits, and it is the state
that is in it. -/
theorem saveState_eq_ok {f : Fabric} {file : List UInt8} :
    saveState f = .ok file
      ↔ (flat (putState f.config.limits f.durable)).length
            ≤ f.config.limits.maxPersistenceBytes.toNat
        ∧ file = image (flat (putState f.config.limits f.durable)) 1 := by
  constructor
  · intro h
    by_cases hsize : (serializeState f).length ≤ f.config.limits.maxPersistenceBytes.toNat
    · obtain ⟨front, last, hwrites, hlast⟩ := putState_endsRaw f.config.limits f.durable
      have hwhole : serializeState f = flat (putState f.config.limits f.durable) := by
        rw [serializeState, hwrites] at hsize ⊢
        exact Encoder.buffer_eq_of_le hlast hsize
      rw [saveState, writeStateFile_eq hsize, hwhole] at h
      rw [hwhole] at hsize
      exact ⟨hsize, (Except.ok.inj h).symm⟩
    · rw [saveState, writeStateFile, if_pos (Nat.not_le.mp hsize)] at h
      cases h
  · rintro ⟨hsize, rfl⟩
    rw [saveState, serializeState, Encoder.buffer_eq hsize, writeStateFile_eq hsize]

/-- The encoding of a specification is a part of the payload. -/
theorem encodeSpec_length_lt {limits : Limits} {state : DurableState} {e : EnsembleRecord}
    (he : e ∈ state.ensembles) :
    (encodeSpec e.spec limits).length < (flat (putState limits state)).length := by
  obtain ⟨before, after, hsplit⟩ := List.append_of_mem he
  have hspec : (flat (putStoredSpec limits e.spec)).length
      ≤ (flat (putState limits state)).length := by
    simp only [putState, List.flatten_cons, Write.flat_append, List.length_append, Encoder.list,
      hsplit, List.flatMap_append, List.flatMap_cons, putEnsembleRecord]
    omega
  rw [putStoredSpec, Encoder.bytes, Write.flat_append, List.length_append, Write.flat_cons,
    Write.flat_nil, List.append_nil, Write.bytes] at hspec
  have hcount : (flat (Encoder.u32 (UInt32.ofNat (encodeSpec e.spec limits).length))).length = 4 :=
    rfl
  rw [hcount] at hspec
  omega

/-- In a payload that fits, no specification is cut short. -/
theorem putState_whole {limits : Limits} {state : DurableState}
    (hsize : (flat (putState limits state)).length ≤ limits.maxPersistenceBytes.toNat) :
    ∀ e ∈ state.ensembles, e.spec.Whole limits :=
  fun _ he => Encoder.buffer_eq_of_lt ((encodeSpec_length_lt he).trans_le hsize)

/-! ## What a recovery of a saved file finds -/

/-- What the decoder and the recovery ask of a state that was saved: that it is
within the bounds, that its epoch is not the last one, and that a snapshot may
hold a record at all. -/
structure Fabric.Recoverable (f : Fabric) : Prop where
  records : 1 ≤ f.config.limits.maxRecordsPerSnapshot
  fits : f.durable.Fits f.config.limits
  epoch : f.core.epoch.value ≠ lastWord

/-- Where no specification is cut short, the limits do not show in what is
written. -/
theorem putState_limits {limits limits' : Limits} {state : DurableState}
    (hwhole : ∀ e ∈ state.ensembles, e.spec.Whole limits)
    (hwhole' : ∀ e ∈ state.ensembles, e.spec.Whole limits') :
    putState limits state = putState limits' state := by
  have hensembles : Encoder.list (putEnsembleRecord limits) state.ensembles
      = Encoder.list (putEnsembleRecord limits') state.ensembles := by
    rw [Encoder.list, Encoder.list]
    refine congrArg _ (List.flatMap_congr fun e he => ?_)
    rw [putEnsembleRecord, putEnsembleRecord, putStoredSpec, putStoredSpec, hwhole e he,
      hwhole' e he]
  rw [putState, putState, hensembles]

/-- A saved file says nothing but what was saved, whatever the limits of the
runtime that reads it. -/
theorem saved_reads {f : Fabric} {limits : Limits} {file : List UInt8} {state : DurableState}
    (hrepresentable : f.durable.Representable) (hsaved : saveState f = .ok file)
    (h : Reads limits file state) : state = f.durable.stored := by
  obtain ⟨hsize, rfl⟩ := saveState_eq_ok.mp hsaved
  obtain ⟨header, payload, hread, hdecoded⟩ := h
  obtain ⟨hsound, hpayload⟩ := readStateFile_eq_ok.mp hread
  rw [image_drop] at hpayload
  cases hpayload
  have hwhole := putState_whole hsize
  have hwithin : (flat (putState f.config.limits f.durable)).length
      ≤ limits.maxPersistenceBytes.toNat := by
    have hlength := hsound.within
    rw [image, List.length_append, StateFile.header_length] at hlength
    omega
  have hwhole' : ∀ e ∈ f.durable.ensembles, e.spec.Whole limits := by
    intro e he
    have hspec := (encodeSpec_length_lt he).le.trans hwithin
    rw [hwhole e he] at hspec
    exact Encoder.buffer_eq hspec
  rw [putState_limits hwhole hwhole'] at hdecoded hwithin
  have hmax := limits.maxPersistenceBytes.toNat_lt
  exact decodeState_only hrepresentable hwhole' (by omega) hdecoded

/-- It says that if and only if the state is within the bounds of the
decoder. -/
theorem saved_reads_iff {f : Fabric} {file : List UInt8} (hsaved : saveState f = .ok file) :
    Reads f.config.limits file f.durable.stored
      ↔ 1 ≤ f.config.limits.maxRecordsPerSnapshot ∧ f.durable.Fits f.config.limits := by
  obtain ⟨hsize, rfl⟩ := saveState_eq_ok.mp hsaved
  constructor
  · rintro ⟨header, payload, hread, hdecoded⟩
    obtain ⟨hsound, hpayload⟩ := readStateFile_eq_ok.mp hread
    rw [image_drop] at hpayload
    cases hpayload
    refine ⟨?_, decodeState_eq_ok.mp hdecoded⟩
    have hrecords := hsound.records
    obtain ⟨-, -, -, -, hcount, -⟩ := image_words (flat (putState f.config.limits f.durable)) 1
    rwa [loadU32, hcount, loadU32_bytes] at hrecords
  · rintro ⟨hrecords, hfits⟩
    refine ⟨loadHeader (image (flat (putState f.config.limits f.durable)) 1),
      flat (putState f.config.limits f.durable), ?_, decodeState_eq_ok.mpr hfits⟩
    refine readStateFile_eq_ok.mpr ⟨image_sound hsize hrecords, ?_⟩
    rw [image_drop]

/-- What is saved and decoded is read back. -/
theorem decoded_reads {f : Fabric} (hrecords : 1 ≤ f.config.limits.maxRecordsPerSnapshot)
    (hrepresentable : f.durable.Representable)
    (hsize : (flat (putState f.config.limits f.durable)).length
      ≤ f.config.limits.maxPersistenceBytes.toNat)
    (hdecoded : (decodeState (flat (putState f.config.limits f.durable))
      f.config.limits).isOk = true) :
    ∃ file, saveState f = .ok file ∧ Reads f.config.limits file f.durable.stored := by
  have hsaved := saveState_eq_ok.mpr ⟨hsize, rfl⟩
  refine ⟨_, hsaved, (saved_reads_iff hsaved).mpr ⟨hrecords, ?_⟩⟩
  cases hstate : decodeState (flat (putState f.config.limits f.durable)) f.config.limits with
  | error e =>
    rw [hstate] at hdecoded
    cases hdecoded
  | ok state =>
    have hmax := f.config.limits.maxPersistenceBytes.toNat_lt
    obtain rfl := decodeState_only hrepresentable (putState_whole hsize) (by omega) hstate
    exact decodeState_eq_ok.mp hstate

/-- A saved file is read; what is in it is left to the decoder. -/
theorem saved_recovery {f g : Fabric} {file : List UInt8} {boot : WorkerBootId}
    (hlimits : g.config.limits = f.config.limits) (hsaved : saveState f = .ok file)
    (hrecords : 1 ≤ f.config.limits.maxRecordsPerSnapshot) :
    recoverState g file boot
      = match decodeState (flat (putState f.config.limits f.durable)) f.config.limits with
        | .error e => (g, .error e)
        | .ok state => recoverTail g state.loaded boot := by
  obtain ⟨hsize, rfl⟩ := saveState_eq_ok.mp hsaved
  have hread := readStateFile_eq_ok.mpr ⟨image_sound hsize hrecords, rfl⟩
  rw [image_drop] at hread
  cases hdecode : decodeState (flat (putState f.config.limits f.durable)) f.config.limits with
  | error e => simp only [recoverState, hlimits, hread, hdecode]
  | ok state => simp only [recoverState, hlimits, hread, hdecode]

/-- A saved file is recovered by a runtime with the same limits if and only if
the state is within the bounds of the decoder and its epoch has a
successor. -/
theorem saved_state_recovered_iff {f g : Fabric} {file : List UInt8}
    (hlimits : g.config.limits = f.config.limits) (hrepresentable : f.durable.Representable)
    (hsaved : saveState f = .ok file) (boot : WorkerBootId) :
    (recoverState g file boot).2.isOk = true ↔ f.Recoverable := by
  constructor
  · intro hok
    have hrecovery := recoverState_recovery g file boot
    generalize recoverState g file boot = out at hok hrecovery
    cases hrecovery with
    | refused => cases hok
    | recovered reads epoch =>
      rw [hlimits] at reads
      obtain rfl := saved_reads hrepresentable hsaved reads
      obtain ⟨hrecords, hfits⟩ := (saved_reads_iff hsaved).mp reads
      exact ⟨hrecords, hfits, epoch⟩
  · rintro ⟨hrecords, hfits, hepoch⟩
    obtain ⟨header, payload, hread, hdecoded⟩ := (saved_reads_iff hsaved).mpr ⟨hrecords, hfits⟩
    rw [← hlimits] at hread hdecoded
    rw [recoverState, hread]
    simp only [hdecoded]
    rw [recoverTail_next (show f.durable.stored.loaded.epoch.value ≠ lastWord from hepoch)]
    rfl

namespace Sample

/-- Results explain themselves in one line. -/
def terseLimits : Limits := { maxExplanationEntries := 1 }

/-- The only candidate of an execution is answered, and its result is
committed. -/
def committed : Fabric :=
  ((System.initial { limits := terseLimits }).run (start (criteriaCountSpec 2)
    ++ [content 1 1 [7], advance, .finalize 0 ⟨1⟩ ⟨1⟩, .resume 0 ⟨1⟩, .resume 0 ⟨1⟩])).fabric

/-- A specification of seventeen criteria is valid; the decoder takes sixteen. -/
def overfull : Fabric :=
  ((System.initial { limits := terseLimits }).run [.defineEnsemble (criteriaCountSpec 17)]).fabric

/-- The runtime has an ensemble, an execution and a stored result. -/
def holdsResult (f : Fabric) : Bool :=
  (f.find ⟨1⟩).any fun e => e.execution.any fun x =>
    x.result.any fun r => r.decision == .committed && r.payload == [7]

end Sample

/-- A runtime that has committed a result is saved, and a fresh one recovers
the file. It finds the ensemble, its execution and the result. -/
theorem committed_runtime_recovered :
    Sample.holdsResult Sample.committed = true
      ∧ ∃ file, saveState Sample.committed = .ok file
        ∧ (recoverState (Fabric.create { limits := Sample.terseLimits }) file ⟨7⟩).2.isOk = true
        ∧ ((recoverState (Fabric.create { limits := Sample.terseLimits }) file ⟨7⟩).2.isOk = true
          ↔ Sample.committed.Recoverable) := by
  obtain ⟨hholds, hlimits, hrepresentable, hsize, hdecoded, hepoch⟩ :
      Sample.holdsResult Sample.committed = true
        ∧ Sample.committed.config.limits = Sample.terseLimits
        ∧ Sample.committed.durable.Representable
        ∧ (flat (putState Sample.terseLimits Sample.committed.durable)).length
          ≤ Sample.terseLimits.maxPersistenceBytes.toNat
        ∧ (decodeState (flat (putState Sample.terseLimits Sample.committed.durable))
            Sample.terseLimits).isOk = true
        ∧ Sample.committed.core.epoch.value ≠ lastWord := by
    decide +kernel
  generalize Sample.committed = f at *
  rw [← hlimits] at hsize hdecoded
  have hrecords : 1 ≤ f.config.limits.maxRecordsPerSnapshot := by
    rw [hlimits]
    decide
  obtain ⟨file, hsaved, hreads⟩ := decoded_reads hrecords hrepresentable hsize hdecoded
  have hfits := ((saved_reads_iff hsaved).mp hreads).2
  have hrecovered := saved_state_recovered_iff
    (g := Fabric.create { limits := Sample.terseLimits }) hlimits.symm hrepresentable hsaved ⟨7⟩
  exact ⟨hholds, file, hsaved, hrecovered.mpr ⟨hrecords, hfits, hepoch⟩, hrecovered⟩

/-- A specification with seventeen judging criteria is valid, and the state
that holds it is saved; the decoder takes sixteen. -/
theorem seventeen_criteria_unrecoverable :
    ∃ file,
      saveState (Sample.reached [.defineEnsemble (Sample.criteriaCountSpec 17)]).fabric
        = .ok file
      ∧ (recoverState (Fabric.create {}) file ⟨7⟩).2.isOk = false := by
  have hlimits : (Sample.reached
      [.defineEnsemble (Sample.criteriaCountSpec 17)]).fabric.config.limits = {} := by
    decide +kernel
  have hsize : (flat (putState {} (Sample.reached
      [.defineEnsemble (Sample.criteriaCountSpec 17)]).fabric.durable)).length
        ≤ ({} : Limits).maxPersistenceBytes.toNat := by decide +kernel
  have hrefused : (decodeState (flat (putState {} (Sample.reached
      [.defineEnsemble (Sample.criteriaCountSpec 17)]).fabric.durable)) {}).isOk = false := by
    decide +kernel
  generalize (Sample.reached [.defineEnsemble (Sample.criteriaCountSpec 17)]).fabric = f
    at hlimits hsize hrefused ⊢
  rw [← hlimits] at hsize hrefused
  have hsaved := saveState_eq_ok.mpr ⟨hsize, rfl⟩
  refine ⟨_, hsaved, ?_⟩
  rw [saved_recovery hlimits.symm hsaved (by rw [hlimits]; decide)]
  split
  · rfl
  · rename_i hdecoded
    rw [hdecoded] at hrefused
    cases hrefused

/-! ## A recovery that fails -/

/-- A recovery decodes all of the file before it touches the runtime. -/
theorem failed_recovery_keeps {f : Fabric} {content : List UInt8} {boot : WorkerBootId}
    {error : Error} (h : (recoverState f content boot).2 = .error error) :
    (recoverState f content boot).1 = f := by
  have hrecovery := recoverState_recovery f content boot
  generalize recoverState f content boot = out at h hrecovery
  cases hrecovery with
  | refused => rfl
  | recovered => cases h

/-- A runtime that has committed a result is given a sound file whose payload
the decoder refuses half way through, and keeps all it has. Header, checksum
and digest of the file are in order, so the failure comes as late as it can. -/
theorem refused_file_keeps :
    Sample.holdsResult Sample.committed = true
      ∧ ∃ file error, saveState Sample.overfull = .ok file
        ∧ (recoverState Sample.committed file ⟨7⟩).2 = .error error
        ∧ (recoverState Sample.committed file ⟨7⟩).1 = Sample.committed := by
  have hholds : Sample.holdsResult Sample.committed = true
      ∧ Sample.committed.config.limits = Sample.overfull.config.limits := by decide +kernel
  have hsize : (flat (putState Sample.overfull.config.limits Sample.overfull.durable)).length
        ≤ Sample.overfull.config.limits.maxPersistenceBytes.toNat
      ∧ 1 ≤ Sample.overfull.config.limits.maxRecordsPerSnapshot
      ∧ (decodeState (flat (putState Sample.overfull.config.limits Sample.overfull.durable))
          Sample.overfull.config.limits).isOk = false := by decide +kernel
  generalize Sample.committed = f at *
  generalize Sample.overfull = g at *
  obtain ⟨hholds, hlimits⟩ := hholds
  obtain ⟨hsize, hrecords, hrefused⟩ := hsize
  have hsaved := saveState_eq_ok.mpr ⟨hsize, rfl⟩
  have hrecovers := @saved_recovery g f _ ⟨7⟩ hlimits hsaved hrecords
  cases hstate : decodeState (flat (putState g.config.limits g.durable)) g.config.limits with
  | ok state =>
    rw [hstate] at hrefused
    cases hrefused
  | error error =>
    rw [hstate] at hrecovers
    have hfails := congrArg Prod.snd hrecovers
    exact ⟨hholds, _, error, hsaved, hfails, failed_recovery_keeps hfails⟩

end EnsembleFabric
