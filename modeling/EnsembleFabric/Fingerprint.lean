import EnsembleFabric.MessageCodec
import EnsembleFabric.Unambiguous

/-!
# What a fingerprint separates

The fingerprint of a specification hashes one run of bytes: eight bytes for
every number, the bytes of every text, and nothing in between. Numbers stand
in places of their own; where a text ends, or how many required domains a
stage has, is not written. Specifications whose texts are of the same lengths
are told apart, up to the few fields that are not written at all.

`digestBytes` is that run, and `fnv1a64_eq` says that the fingerprint is its
hash. The result is about the bytes and not about the hash, which collides
as every hash of eight bytes does: two specifications that feed the same
bytes agree if and only if they have the same shape (`same_bytes_agree_iff`).

`SameShape` collects what the bytes do not show: the lengths of the texts,
the number of the required domains, and the values of the fields that are
left out. One of these is the override by which a participant is not to be
selected; `selectable_not_digested` shows two valid specifications with the
same bytes of which only one lets its participant be selected.
-/

namespace EnsembleFabric

attribute [ext] RoleSet

/-! ## The bytes -/

def Digested.bytes : Digested → List UInt8
  | .word value => LittleEndian.bytes 8 value.toNat
  | .text value => textBytes value

/-- What is fed to the hash. -/
def fed (values : List Digested) : List UInt8 := values.flatMap Digested.bytes

theorem fed_nil : fed [] = [] := rfl

theorem fed_append (first second : List Digested) :
    fed (first ++ second) = fed first ++ fed second := List.flatMap_append

theorem word_byte (value : UInt64) (i : Nat) (hi : i < 8) :
    (value >>> (UInt64.ofNat i * 8)) &&& 0xFF
      = (UInt8.ofNat (value.toNat / 256 ^ i)).toUInt64 := by
  have hshift : (UInt64.ofNat i * 8).toNat % 64 = 8 * i := by
    rw [UInt64.toNat_mul, UInt64.toNat_ofNat', show (8 : UInt64).toNat = 8 from rfl]
    omega
  rw [← UInt64.toNat_inj, UInt64.toNat_and, UInt64.toNat_shiftRight, hshift,
    show (0xFF : UInt64).toNat = 2 ^ 8 - 1 from rfl, Nat.and_two_pow_sub_one_eq_mod,
    Nat.shiftRight_eq_div_pow, UInt8.toNat_toUInt64, UInt8.toNat_ofNat', Nat.pow_mul]

theorem fnv1a64Extend_eq (hash : UInt64) (value : Digested) :
    fnv1a64Extend hash value
      = value.bytes.foldl (fun hash b => fnv1a64Byte hash b.toUInt64) hash := by
  cases value with
  | word value =>
    have hbytes : LittleEndian.bytes 8 value.toNat
        = (List.range 8).map fun i => UInt8.ofNat (value.toNat / 256 ^ i) := by
      simp [LittleEndian.bytes, List.range_succ, Nat.div_div_eq_div_mul]
    rw [fnv1a64Extend, fnv1a64Word, Digested.bytes, hbytes, List.foldl_map]
    refine List.foldl_ext _ _ _ fun hash i hi => ?_
    rw [word_byte value i (List.mem_range.mp hi)]
  | text value =>
    rw [fnv1a64Extend, fnv1a64Text, Digested.bytes, textBytes, List.foldl_map]
    refine List.foldl_ext _ _ _ fun hash c _ => ?_
    have hbyte : (charByte c).toUInt8.toUInt64 = charByte c := by
      rw [← UInt64.toNat_inj, UInt8.toNat_toUInt64, charByte_toNat, charByte, UInt64.toNat_ofNat']
      omega
    rw [hbyte]

/-- A fingerprint is the hash of the bytes of its values. -/
theorem fnv1a64_eq (values : List Digested) :
    fnv1a64 values = (fed values).foldl (fun hash b => fnv1a64Byte hash b.toUInt64) fnvOffset := by
  have hfold : ∀ hash, values.foldl fnv1a64Extend hash
      = (fed values).foldl (fun hash b => fnv1a64Byte hash b.toUInt64) hash := by
    induction values with
    | nil => exact fun _ => rfl
    | cons value values ih =>
      intro hash
      rw [List.foldl_cons, ih, fnv1a64Extend_eq, ← List.foldl_append]
      rfl
  exact hfold _

namespace EnsembleSpec

/-- The values of the fingerprint. -/
def digest (spec : EnsembleSpec) : List Digested :=
  [.text spec.label, .text spec.taskClass, .word spec.taskClassId.toUInt64]
    ++ [.word (countWord spec.participants)] ++ spec.participants.flatMap participantDigest
    ++ [.word (countWord spec.stages)] ++ spec.stages.flatMap stageDigest
    ++ quorumDigest spec.quorum ++ aggregationDigest spec.aggregation
    ++ arbitrationDigest spec.arbitration ++ fallbackDigest spec.fallback
    ++ lifecycleDigest spec ++ evidenceDigest spec.evidence
    ++ criteriaDigest spec.judgingCriteria ++ requirementsDigest spec.requirements
    ++ [.word spec.overallBudgetUnits.toUInt64, .word spec.deterministicSeed]

/-- The bytes the fingerprint is the hash of. -/
def digestBytes (spec : EnsembleSpec) : List UInt8 := fed spec.digest

theorem computeSpecFingerprint_eq (spec : EnsembleSpec) :
    spec.computeSpecFingerprint
      = spec.digestBytes.foldl (fun hash b => fnv1a64Byte hash b.toUInt64) fnvOffset :=
  fnv1a64_eq spec.digest

end EnsembleSpec

/-! ## What is not written -/

/-- Two declarations of texts of the same lengths, with the same values of the
two fields the fingerprint leaves out. -/
structure ParticipantSpec.SameShape (p q : ParticipantSpec) : Prop where
  label : p.label.length = q.label.length
  domain : p.domain.length = q.domain.length
  selectableOverride : p.selectableOverride = q.selectableOverride
  diversity : p.compatibility.requireModelFamilyDiversity
    = q.compatibility.requireModelFamilyDiversity

structure StageSpec.SameShape (stage other : StageSpec) : Prop where
  label : stage.label.length = other.label.length
  requiredDomains : stage.requiredDomains.map String.length
    = other.requiredDomains.map String.length
  fallbackStage : stage.fallbackStage = other.fallbackStage

namespace EnsembleSpec

/-- The specifications have texts of the same lengths at the same places, as many
required domains at each stage, and the same values of the fields that are
not written. -/
structure SameShape (spec other : EnsembleSpec) : Prop where
  label : spec.label.length = other.label.length
  taskClass : spec.taskClass.length = other.taskClass.length
  participants : ∀ pair ∈ spec.participants.zip other.participants, pair.1.SameShape pair.2
  stages : ∀ pair ∈ spec.stages.zip other.stages, pair.1.SameShape pair.2

/-- The specifications differ in their identity, generation and fingerprint at most. -/
def Agrees (spec other : EnsembleSpec) : Prop :=
  { spec with id := other.id, generation := other.generation, fingerprint := other.fingerprint }
    = other

/-- The lengths of the lists whose count is written. -/
def listLengths (spec : EnsembleSpec) : List Nat :=
  [spec.participants.length, spec.stages.length, spec.quorum.roleQuota.length,
    spec.arbitration.factors.length, spec.fallback.triggers.length,
    spec.fallback.fallbackParticipants.length, spec.evidence.mandatoryCriteria.length,
    spec.judgingCriteria.length] ++ spec.stages.map (·.participants.length)

/-- The values fit their types: texts are of bytes, lists are counted in 64 bits. -/
structure Addressable (spec : EnsembleSpec) : Prop where
  representable : spec.Representable
  sized : ∀ n ∈ spec.listLengths, n < 2 ^ 64

end EnsembleSpec

/-! ## Values told apart -/

section Values

variable {d d' : List Digested} {r r' : List UInt8}

theorem fed_word {v v' : UInt64} :
    fed (.word v :: d) ++ r = fed (.word v' :: d') ++ r' ↔ v = v' ∧ fed d ++ r = fed d' ++ r' := by
  have hlength : (Digested.bytes (.word v)).length = (Digested.bytes (.word v')).length := by
    rw [Digested.bytes, Digested.bytes, LittleEndian.bytes_length, LittleEndian.bytes_length]
  rw [fed, fed, List.flatMap_cons, List.flatMap_cons, List.append_assoc, List.append_assoc]
  constructor
  · intro h
    obtain ⟨hword, hrest⟩ := List.append_inj h hlength
    refine ⟨?_, hrest⟩
    have hvalue := congrArg LittleEndian.word hword
    rw [Digested.bytes, Digested.bytes, LittleEndian.word_bytes_of_lt v.toNat_lt,
      LittleEndian.word_bytes_of_lt v'.toNat_lt] at hvalue
    exact UInt64.toNat_inj.mp hvalue
  · rintro ⟨rfl, hrest⟩
    exact congrArg _ hrest

theorem fed_text {t t' : String} (ht : IsByteText t) (ht' : IsByteText t')
    (hlength : t.length = t'.length) :
    fed (.text t :: d) ++ r = fed (.text t' :: d') ++ r' ↔ t = t' ∧ fed d ++ r = fed d' ++ r' := by
  have hbytes : (Digested.bytes (.text t)).length = (Digested.bytes (.text t')).length := by
    rw [Digested.bytes, Digested.bytes, textBytes_length, textBytes_length, hlength]
  rw [fed, fed, List.flatMap_cons, List.flatMap_cons, List.append_assoc, List.append_assoc]
  constructor
  · intro h
    obtain ⟨htext, hrest⟩ := List.append_inj h hbytes
    refine ⟨?_, hrest⟩
    rw [Digested.bytes, Digested.bytes] at htext
    rw [← bytesText_textBytes ht, htext, bytesText_textBytes ht']
  · rintro ⟨rfl, hrest⟩
    exact congrArg _ hrest

/-- Lists of one length, element by element. -/
theorem fed_flatMap {α : Type} {put : α → List Digested} (same : α → α → Prop) {xs ys : List α}
    (hput : ∀ a b, same a b → ∀ r r', fed (put a) ++ r = fed (put b) ++ r' → a = b ∧ r = r')
    (hlength : xs.length = ys.length) (hsame : ∀ pair ∈ xs.zip ys, same pair.1 pair.2)
    (h : fed (xs.flatMap put) ++ r = fed (ys.flatMap put) ++ r') : xs = ys ∧ r = r' := by
  induction xs generalizing ys with
  | nil =>
    obtain rfl := List.length_eq_zero_iff.mp hlength.symm
    exact ⟨rfl, h⟩
  | cons a xs ih =>
    cases ys with
    | nil => cases hlength
    | cons b ys =>
      rw [List.zip_cons_cons, List.forall_mem_cons] at hsame
      rw [List.flatMap_cons, List.flatMap_cons, fed_append, fed_append, List.append_assoc,
        List.append_assoc] at h
      obtain ⟨rfl, hrest⟩ := hput a b hsame.1 _ _ h
      obtain ⟨rfl, hr⟩ := ih (Nat.succ.inj hlength) hsame.2 hrest
      exact ⟨rfl, hr⟩

theorem countWord_inj {α : Type} {xs ys : List α} (hx : xs.length < 2 ^ 64)
    (hy : ys.length < 2 ^ 64) (h : countWord xs = countWord ys) : xs.length = ys.length := by
  have hvalue := congrArg UInt64.toNat h
  rwa [countWord, countWord, UInt64.toNat_ofNat', UInt64.toNat_ofNat', Nat.mod_eq_of_lt hx,
    Nat.mod_eq_of_lt hy] at hvalue

/-- Lists behind their counts. -/
theorem fed_counted {α : Type} {put : α → List Digested} (same : α → α → Prop) {xs ys : List α}
    (hput : ∀ a b, same a b → ∀ r r', fed (put a) ++ r = fed (put b) ++ r' → a = b ∧ r = r')
    (hx : xs.length < 2 ^ 64) (hy : ys.length < 2 ^ 64)
    (hsame : ∀ pair ∈ xs.zip ys, same pair.1 pair.2)
    (h : fed (.word (countWord xs) :: xs.flatMap put) ++ r
      = fed (.word (countWord ys) :: ys.flatMap put) ++ r') : xs = ys ∧ r = r' := by
  obtain ⟨hcount, hrest⟩ := fed_word.mp h
  exact fed_flatMap same hput (countWord_inj hx hy hcount) hsame hrest

end Values

/-! ## Words of the fields -/

@[simp] theorem flagWord_inj {a b : Bool} : flagWord a = flagWord b ↔ a = b := by
  cases a <;> cases b <;> decide

@[simp] theorem TopologyMode.word_inj {a b : TopologyMode} : a.word = b.word ↔ a = b := by
  cases a <;> cases b <;> decide

@[simp] theorem ParticipantRole.word_inj {a b : ParticipantRole} : a.word = b.word ↔ a = b := by
  cases a <;> cases b <;> decide

@[simp] theorem VoteBasis.word_inj {a b : VoteBasis} : a.word = b.word ↔ a = b := by
  cases a <;> cases b <;> decide

@[simp] theorem AggregationKind.word_inj {a b : AggregationKind} : a.word = b.word ↔ a = b := by
  cases a <;> cases b <;> decide

@[simp] theorem ArbitrationFactor.word_inj {a b : ArbitrationFactor} :
    a.word = b.word ↔ a = b := by
  cases a <;> cases b <;> decide

@[simp] theorem TieBreakPolicy.word_inj {a b : TieBreakPolicy} : a.word = b.word ↔ a = b := by
  cases a <;> cases b <;> decide

@[simp] theorem FallbackTrigger.word_inj {a b : FallbackTrigger} : a.word = b.word ↔ a = b := by
  cases a <;> cases b <;> decide

section Fields

variable {r r' : List UInt8}

theorem participantDigest_inj {p q : ParticipantSpec} (hp : p.Representable)
    (hq : q.Representable) (hsame : p.SameShape q)
    (h : fed (EnsembleSpec.participantDigest p) ++ r
      = fed (EnsembleSpec.participantDigest q) ++ r') : p = q ∧ r = r' := by
  simp only [EnsembleSpec.participantDigest, fed_word, fed_text hp.1 hq.1 hsame.label,
    fed_text hp.2 hq.2 hsame.domain, fed_nil, List.nil_append, flagWord_inj,
    UInt16.toUInt64_inj, UInt32.toUInt64_inj] at h
  obtain ⟨hid, hlabel, hroles, hrequired, hdomain, hpriority, hbudget, hprotocol, hcapabilities,
    htask, hschema, hfamily, hfeatures, hrest⟩ := h
  refine ⟨ParticipantSpec.ext (StrongId.ext hid) hlabel (RoleSet.ext hroles) hrequired hdomain
    hpriority hbudget hsame.selectableOverride ?_, hrest⟩
  exact CompatibilityRequirement.ext hprotocol hcapabilities htask hschema hfamily hfeatures
    hsame.diversity

/-- A list of numbers behind nothing, next to a list of the same length. -/
theorem fed_words {α : Type} {word : α → UInt64} (hword : ∀ a b, word a = word b → a = b)
    {xs ys : List α} (hlength : xs.length = ys.length)
    (h : fed (xs.map fun a => .word (word a)) ++ r = fed (ys.map fun a => .word (word a)) ++ r') :
    xs = ys ∧ r = r' := by
  induction xs generalizing ys with
  | nil =>
    obtain rfl := List.length_eq_zero_iff.mp hlength.symm
    exact ⟨rfl, h⟩
  | cons a xs ih =>
    cases ys with
    | nil => cases hlength
    | cons b ys =>
      obtain ⟨hvalue, hrest⟩ := fed_word.mp h
      obtain rfl := hword a b hvalue
      obtain ⟨rfl, hr⟩ := ih (Nat.succ.inj hlength) hrest
      exact ⟨rfl, hr⟩

theorem fed_texts {xs ys : List String} (hx : ∀ t ∈ xs, IsByteText t)
    (hy : ∀ t ∈ ys, IsByteText t) (hlengths : xs.map String.length = ys.map String.length)
    (h : fed (xs.map .text) ++ r = fed (ys.map .text) ++ r') : xs = ys ∧ r = r' := by
  induction xs generalizing ys with
  | nil =>
    obtain rfl := List.map_eq_nil_iff.mp hlengths.symm
    exact ⟨rfl, h⟩
  | cons t xs ih =>
    cases ys with
    | nil => cases hlengths
    | cons t' ys =>
      rw [List.forall_mem_cons] at hx hy
      rw [List.map_cons, List.map_cons, List.cons.injEq] at hlengths
      obtain ⟨rfl, hrest⟩ := (fed_text hx.1 hy.1 hlengths.1).mp h
      obtain ⟨rfl, hr⟩ := ih hx.2 hy.2 hlengths.2 hrest
      exact ⟨rfl, hr⟩

theorem stageDigest_inj {stage other : StageSpec} (hstage : stage.Representable)
    (hother : other.Representable) (hsize : stage.participants.length < 2 ^ 64)
    (hsize' : other.participants.length < 2 ^ 64) (hsame : stage.SameShape other)
    (h : fed (EnsembleSpec.stageDigest stage) ++ r
      = fed (EnsembleSpec.stageDigest other) ++ r') : stage = other ∧ r = r' := by
  simp only [EnsembleSpec.stageDigest, fed_append, List.append_assoc, fed_word,
    fed_text hstage.1 hother.1 hsame.label, fed_nil, List.nil_append, TopologyMode.word_inj] at h
  obtain ⟨hid, hlabel, hmode, hcount, hrest⟩ := h
  obtain ⟨hmembers, hrest⟩ := fed_words (fun _ _ => StrongId.ext)
    (countWord_inj hsize hsize' hcount) hrest
  obtain ⟨hdomains, hrest⟩ := fed_texts hstage.2 hother.2 hsame.requiredDomains hrest
  exact ⟨StageSpec.ext (StrongId.ext hid) hlabel hmode hmembers hdomains hsame.fallbackStage,
    hrest⟩

theorem criteriaDigest_inj {cs ds : List CriterionRef} (hsize : cs.length < 2 ^ 64)
    (hsize' : ds.length < 2 ^ 64)
    (h : fed (EnsembleSpec.criteriaDigest cs) ++ r = fed (EnsembleSpec.criteriaDigest ds) ++ r') :
    cs = ds ∧ r = r' := by
  refine fed_counted (fun _ _ => True) (fun c d _ r r' hcd => ?_) hsize hsize'
    (fun _ _ => trivial) h
  simp only [fed_word, fed_nil, List.nil_append, UInt32.toUInt64_inj] at hcd
  exact ⟨CriterionRef.ext hcd.1 hcd.2.1, hcd.2.2⟩

theorem quorumDigest_inj {q q' : QuorumPolicy} (hsize : q.roleQuota.length < 2 ^ 64)
    (hsize' : q'.roleQuota.length < 2 ^ 64)
    (h : fed (EnsembleSpec.quorumDigest q) ++ r = fed (EnsembleSpec.quorumDigest q') ++ r') :
    q = q' ∧ r = r' := by
  simp only [EnsembleSpec.quorumDigest, fed_append, List.append_assoc, fed_word, fed_nil,
    List.nil_append, UInt32.toUInt64_inj] at h
  obtain ⟨hparticipants, hcount, hrest⟩ := h
  obtain ⟨hquota, hrest⟩ := fed_flatMap (fun _ _ => True)
    (fun a b _ r r' hab => by
      simp only [fed_word, fed_nil, List.nil_append, ParticipantRole.word_inj,
        UInt32.toUInt64_inj] at hab
      exact ⟨RoleQuota.ext hab.1 hab.2.1, hab.2.2⟩)
    (countWord_inj hsize hsize' hcount) (fun _ _ => trivial) hrest
  simp only [fed_word, fed_nil, List.nil_append, VoteBasis.word_inj, flagWord_inj,
    UInt32.toUInt64_inj] at hrest
  obtain ⟨hevaluations, hvalid, hthreshold, hbasis, habstentions, hoptional, hfailed,
    hunavailable, hfailures, hmaxAbstentions, hrest⟩ := hrest
  exact ⟨QuorumPolicy.ext hparticipants hquota hevaluations hvalid hthreshold hbasis habstentions
    hoptional hfailed hunavailable hfailures hmaxAbstentions, hrest⟩

theorem aggregationDigest_inj {a a' : AggregationPolicy}
    (h : fed (EnsembleSpec.aggregationDigest a) ++ r
      = fed (EnsembleSpec.aggregationDigest a') ++ r') : a = a' ∧ r = r' := by
  simp only [EnsembleSpec.aggregationDigest, fed_word, fed_nil, List.nil_append, flagWord_inj,
    AggregationKind.word_inj] at h
  obtain ⟨hkind, hweights, hpass, hacceptance, hscore, hratio, hrest⟩ := h
  exact ⟨AggregationPolicy.ext hkind hweights hpass hacceptance (Double.ext hscore)
    (Double.ext hratio), hrest⟩

theorem arbitrationDigest_inj {a a' : ArbitrationPolicy} (hsize : a.factors.length < 2 ^ 64)
    (hsize' : a'.factors.length < 2 ^ 64)
    (h : fed (EnsembleSpec.arbitrationDigest a) ++ r
      = fed (EnsembleSpec.arbitrationDigest a') ++ r') : a = a' ∧ r = r' := by
  simp only [EnsembleSpec.arbitrationDigest, fed_append, List.append_assoc, fed_word, fed_nil,
    List.nil_append] at h
  obtain ⟨hcount, hrest⟩ := h
  obtain ⟨hfactors, hrest⟩ := fed_words (fun _ _ => ArbitrationFactor.word_inj.mp)
    (countWord_inj hsize hsize' hcount) hrest
  simp only [fed_word, fed_nil, List.nil_append, TieBreakPolicy.word_inj, flagWord_inj,
    UInt32.toUInt64_inj] at hrest
  obtain ⟨htie, hunique, hselected, hrest⟩ := hrest
  exact ⟨ArbitrationPolicy.ext hfactors htie hunique hselected, hrest⟩

theorem fallbackDigest_inj {f f' : FallbackPolicy} (htriggers : f.triggers.length < 2 ^ 64)
    (htriggers' : f'.triggers.length < 2 ^ 64)
    (hlisted : f.fallbackParticipants.length < 2 ^ 64)
    (hlisted' : f'.fallbackParticipants.length < 2 ^ 64)
    (h : fed (EnsembleSpec.fallbackDigest f) ++ r
      = fed (EnsembleSpec.fallbackDigest f') ++ r') : f = f' ∧ r = r' := by
  simp only [EnsembleSpec.fallbackDigest, fed_append, List.append_assoc, fed_word, fed_nil,
    List.nil_append, flagWord_inj] at h
  obtain ⟨henabled, hcount, hrest⟩ := h
  obtain ⟨hsame, hrest⟩ := fed_words (fun _ _ => FallbackTrigger.word_inj.mp)
    (countWord_inj htriggers htriggers' hcount) hrest
  obtain ⟨hcount, hrest⟩ := fed_word.mp hrest
  obtain ⟨hmembers, hrest⟩ := fed_words (fun _ _ => StrongId.ext)
    (countWord_inj hlisted hlisted' hcount) hrest
  simp only [fed_word, fed_nil, List.nil_append, flagWord_inj, UInt32.toUInt64_inj] at hrest
  obtain ⟨heager, hdepth, hrest⟩ := hrest
  exact ⟨FallbackPolicy.ext henabled hsame hmembers heager hdepth, hrest⟩

theorem lifecycleDigest_inj {spec other : EnsembleSpec}
    (h : fed (EnsembleSpec.lifecycleDigest spec) ++ r
      = fed (EnsembleSpec.lifecycleDigest other) ++ r') :
    spec.completion = other.completion ∧ spec.retry = other.retry
      ∧ spec.cancellation = other.cancellation ∧ r = r' := by
  simp only [EnsembleSpec.lifecycleDigest, fed_word, fed_nil, List.nil_append, flagWord_inj,
    UInt32.toUInt64_inj] at h
  obtain ⟨hconsensus, hall, hpartial, hattempts, hunavailable, htransport, hmalformed, hfailed,
    hreplace, hrerun, hrequired, himpossible, hpreserve, hrest⟩ := h
  exact ⟨CompletionPolicy.ext hconsensus hall hpartial, RetryPolicy.ext hattempts hunavailable
    htransport hmalformed hfailed hreplace hrerun, CancellationPolicy.ext hrequired himpossible
    hpreserve, hrest⟩

theorem evidenceDigest_inj {e e' : EvidenceRequirement}
    (hsize : e.mandatoryCriteria.length < 2 ^ 64) (hsize' : e'.mandatoryCriteria.length < 2 ^ 64)
    (h : fed (EnsembleSpec.evidenceDigest e) ++ r = fed (EnsembleSpec.evidenceDigest e') ++ r') :
    e = e' ∧ r = r' := by
  simp only [EnsembleSpec.evidenceDigest, fed_append, List.append_assoc, fed_word, fed_nil,
    List.nil_append, flagWord_inj, UInt32.toUInt64_inj] at h
  obtain ⟨hpayload, hevaluations, hrationale, hrest⟩ := h
  obtain ⟨hcriteria, hrest⟩ := criteriaDigest_inj hsize hsize' hrest
  simp only [fed_word, fed_nil, List.nil_append, flagWord_inj] at hrest
  obtain ⟨hunknown, habstention, hrest⟩ := hrest
  exact ⟨EvidenceRequirement.ext hpayload hevaluations hrationale hcriteria hunknown habstention,
    hrest⟩

end Fields

/-! ## The specification -/

theorem forall_mem_zip_self {α : Type} {same : α → α → Prop} (h : ∀ a, same a a) (xs : List α) :
    ∀ pair ∈ xs.zip xs, same pair.1 pair.2 := by
  induction xs with
  | nil => exact fun _ hpair => absurd hpair List.not_mem_nil
  | cons a xs ih =>
    rw [List.zip_cons_cons, List.forall_mem_cons]
    exact ⟨h a, ih⟩

namespace EnsembleSpec

variable {spec other : EnsembleSpec}

theorem Agrees.sameShape (h : spec.Agrees other) : spec.SameShape other := by
  rw [← h]
  exact ⟨rfl, rfl, forall_mem_zip_self (fun _ => ⟨rfl, rfl, rfl, rfl⟩) _,
    forall_mem_zip_self (fun _ => ⟨rfl, rfl, rfl⟩) _⟩

theorem SameShape.agrees (hspec : spec.Addressable) (hother : other.Addressable)
    (hsame : spec.SameShape other) (hbytes : spec.digestBytes = other.digestBytes) :
    spec.Agrees other := by
  have hsized := hspec.sized
  have hsized' := hother.sized
  simp only [listLengths, List.cons_append, List.nil_append, List.forall_mem_cons,
    List.forall_mem_map] at hsized hsized'
  obtain ⟨hp, hs, hq, hfa, htr, hfb, hm, hj, hst⟩ := hsized
  obtain ⟨hp', hs', hq', hfa', htr', hfb', hm', hj', hst'⟩ := hsized'
  have h := congrArg (· ++ ([] : List UInt8)) hbytes
  simp only [digestBytes, digest, fed_append, List.append_assoc, fed_word, fed_nil,
    List.nil_append, fed_text hspec.representable.label hother.representable.label hsame.label,
    fed_text hspec.representable.taskClass hother.representable.taskClass hsame.taskClass,
    UInt32.toUInt64_inj] at h
  obtain ⟨hlabel, htask, htaskId, hcount, h⟩ := h
  obtain ⟨hparticipants, h⟩ := fed_flatMap
    (fun p q => p ∈ spec.participants ∧ q ∈ other.participants ∧ p.SameShape q)
    (fun p q hpq r r' => participantDigest_inj (hspec.representable.participants p hpq.1)
      (hother.representable.participants q hpq.2.1) hpq.2.2)
    (countWord_inj hp hp' hcount)
    (fun pair hpair => ⟨(List.of_mem_zip hpair).1, (List.of_mem_zip hpair).2,
      hsame.participants pair hpair⟩) h
  obtain ⟨hcount, h⟩ := fed_word.mp h
  obtain ⟨hstages, h⟩ := fed_flatMap
    (fun stage stage' => stage ∈ spec.stages ∧ stage' ∈ other.stages
      ∧ stage.SameShape stage')
    (fun stage stage' hpair r r' => stageDigest_inj
      (hspec.representable.stages stage hpair.1) (hother.representable.stages stage' hpair.2.1)
      (hst stage hpair.1) (hst' stage' hpair.2.1) hpair.2.2)
    (countWord_inj hs hs' hcount)
    (fun pair hpair => ⟨(List.of_mem_zip hpair).1, (List.of_mem_zip hpair).2,
      hsame.stages pair hpair⟩) h
  obtain ⟨hquorum, h⟩ := quorumDigest_inj hq hq' h
  obtain ⟨haggregation, h⟩ := aggregationDigest_inj h
  obtain ⟨harbitration, h⟩ := arbitrationDigest_inj hfa hfa' h
  obtain ⟨hfallback, h⟩ := fallbackDigest_inj htr htr' hfb hfb' h
  obtain ⟨hcompletion, hretry, hcancellation, h⟩ := lifecycleDigest_inj h
  obtain ⟨hevidence, h⟩ := evidenceDigest_inj hm hm' h
  obtain ⟨hcriteria, h⟩ := criteriaDigest_inj hj hj' h
  simp only [requirementsDigest, fed_word, fed_nil, List.nil_append, flagWord_inj,
    UInt16.toUInt64_inj, UInt32.toUInt64_inj] at h
  obtain ⟨hprotocol, hcapabilities, hclass, hschema, hfamily, hfeatures, hdiversity, hbudget,
    hseed, -⟩ := h
  have hrequirements : spec.requirements = other.requirements :=
    CompatibilityRequirement.ext hprotocol hcapabilities hclass hschema hfamily hfeatures
      hdiversity
  exact EnsembleSpec.ext rfl rfl hlabel htask htaskId hparticipants hstages hquorum haggregation
    harbitration hfallback hcompletion hretry hcancellation hevidence hcriteria hrequirements
    hbudget hseed rfl

/-- Specifications that feed the same bytes to the hash agree in every field but
their identity, generation and fingerprint if and only if their texts have the
same lengths and their unwritten fields the same values. -/
theorem same_bytes_agree_iff (spec other : EnsembleSpec) (hspec : spec.Addressable)
    (hother : other.Addressable) (hbytes : spec.digestBytes = other.digestBytes) :
    spec.Agrees other ↔ spec.SameShape other :=
  ⟨Agrees.sameShape, fun hsame => hsame.agrees hspec hother hbytes⟩

end EnsembleSpec

namespace Sample

/-- One participant under a label, for a class of tasks. -/
def named (label taskClass : String) : EnsembleSpec where
  id := ⟨1⟩
  label
  taskClass
  participants := [participant 1 candidateRole]

/-- The same ensemble, whose participant may not be selected. -/
def unselectable : EnsembleSpec :=
  { named "a" "b" with
    participants := [{ participant 1 candidateRole with selectableOverride := some false }] }

theorem named_addressable {label taskClass : String} (hlabel : IsByteText label)
    (htask : IsByteText taskClass) : (named label taskClass).Addressable where
  representable :=
    { label := hlabel, taskClass := htask
      participants := by
        simp only [named, List.forall_mem_singleton]
        exact ⟨by decide, by decide⟩
      stages := fun _ h => absurd h List.not_mem_nil }
  sized := by simp [named, EnsembleSpec.listLengths]

end Sample

/-- A text and the next one are not told apart, nor do they agree. -/
theorem named_bytes_agree_iff :
    (Sample.named "ab" "c").digestBytes = (Sample.named "a" "bc").digestBytes
      ∧ ((Sample.named "ab" "c").Agrees (Sample.named "a" "bc")
        ↔ (Sample.named "ab" "c").SameShape (Sample.named "a" "bc")) := by
  have hbytes : (Sample.named "ab" "c").digestBytes = (Sample.named "a" "bc").digestBytes := by
    decide +kernel
  exact ⟨hbytes, EnsembleSpec.same_bytes_agree_iff _ _
    (Sample.named_addressable (by decide) (by decide))
    (Sample.named_addressable (by decide) (by decide)) hbytes⟩

/-- Two valid specifications hash the same bytes; only one lets its participant
be selected. -/
theorem selectable_not_digested :
    validateSpec (Sample.named "a" "b") {} = .ok () ∧ validateSpec Sample.unselectable {} = .ok ()
      ∧ (Sample.named "a" "b").digestBytes = Sample.unselectable.digestBytes
      ∧ ¬ (Sample.named "a" "b").Agrees Sample.unselectable := by
  refine ⟨by decide +kernel, by decide +kernel, by decide +kernel, fun hagrees => ?_⟩
  have hparticipants := congrArg EnsembleSpec.participants hagrees
  exact absurd hparticipants (by decide +kernel)

end EnsembleFabric
