import EnsembleFabric.Library.LittleEndian

/-!
# Exact readers

A reader takes a value off the front of a list of bytes, a writer is the
list of its appends. They belong together when the reader accepts exactly
what the writer puts out (`Exact`):

> the reader returns the value `a` and leaves `rest` if and only if `a` is
> legal and the input is what is written for `a`, followed by `rest`.

From left to right the input is canonical, from right to left a legal
value is read back. A record is read field by field, one `field` rule for
each, until the record is put together (`done`). What a field says of the
record is gathered in `same` on the way: the readers of the later fields
are only asked about records that agree with the earlier ones.
-/

/-! ## Writing -/

/-- One call of a writer: a byte is pushed, or a run of bytes is appended. -/
inductive Write where
  | byte (value : UInt8)
  | raw (bytes : List UInt8)
deriving DecidableEq

namespace Write

def bytes : Write → List UInt8
  | .byte value => [value]
  | .raw bytes => bytes

/-- Everything that is written, in order. -/
def flat (writes : List Write) : List UInt8 := writes.flatMap bytes

@[simp] theorem flat_nil : flat [] = [] := rfl

@[simp] theorem flat_cons (w : Write) (writes : List Write) :
    flat (w :: writes) = w.bytes ++ flat writes := rfl

@[simp] theorem flat_append (first second : List Write) :
    flat (first ++ second) = flat first ++ flat second :=
  List.flatMap_append

end Write

open Write (flat)

/-! ## Reading -/

/-- A reader takes what it reads off the front of its input. -/
abbrev Reader (ε : Type) := StateT (List UInt8) (Except ε)

/-- Among the values of `same`, the reader accepts the legal ones, each from
the bytes that are written for it. -/
def ExactOn {ε α : Type} (same : α → Prop) (p : Reader ε α) (legal : α → Prop)
    (put : α → List Write) : Prop :=
  ∀ bytes a rest, p.run bytes = .ok (a, rest)
    ↔ same a ∧ legal a ∧ bytes = flat (put a) ++ rest

/-- The reader accepts the legal values, each from the bytes that are written
for it. -/
def Exact {ε α : Type} (p : Reader ε α) (legal : α → Prop) (put : α → List Write) : Prop :=
  ExactOn (fun _ => True) p legal put

namespace Reader

variable {ε α β : Type}

/-- The first byte of the input. -/
def byte (e : ε) : Reader ε UInt8
  | [] => .error e
  | value :: rest => .ok (value, rest)

/-- The front of the input, at a given length. -/
def take (count : Nat) (e : ε) : Reader ε (List UInt8) := fun input =>
  if count ≤ input.length then .ok (input.take count, input.drop count) else .error e

/-- A little-endian word of a given width. -/
def word (width : Nat) (e : ε) : Reader ε Nat := do
  let bytes ← take width e
  return LittleEndian.word bytes

/-- A value that is looked at before it is taken for another. -/
def checked (p : Reader ε β) (cast : β → Option α) (e : ε) : Reader ε α := do
  let b ← p
  match cast b with
  | some a => return a
  | none => throw e

/-- The same reader with other errors. -/
def relabel (f : ε → ε) (p : Reader ε α) : Reader ε α := fun input =>
  match p input with
  | .ok read => .ok read
  | .error e => .error (f e)

/-- So many values, one after the other. -/
def times (p : Reader ε α) : Nat → Reader ε (List α)
  | 0 => pure []
  | count + 1 => do
      let a ← p
      let rest ← times p count
      return a :: rest

theorem run_bind_eq_ok {q : Reader ε β} {k : β → Reader ε α} {bytes : List UInt8} {a : α}
    {rest : List UInt8} : (q >>= k).run bytes = .ok (a, rest)
      ↔ ∃ b middle, q.run bytes = .ok (b, middle) ∧ (k b).run middle = .ok (a, rest) := by
  rw [StateT.run_bind]
  cases q.run bytes with
  | error e =>
    constructor
    · rintro ⟨⟩
    · rintro ⟨b, middle, ⟨⟩, -⟩
  | ok next =>
    obtain ⟨b, middle⟩ := next
    constructor
    · intro h
      exact ⟨b, middle, rfl, h⟩
    · rintro ⟨b', middle', hread, h⟩
      obtain ⟨rfl, rfl⟩ := Prod.mk.injEq .. |>.mp (Except.ok.inj hread)
      exact h

end Reader

namespace ExactOn

variable {ε α β : Type} {same legal legal' : α → Prop} {p : Reader ε α} {put : α → List Write}

/-- A reader that meets the law for all values meets it among some of them. -/
theorem of_exact (h : Exact p legal put) (hlegal : ∀ a, legal a ↔ same a ∧ legal' a) :
    ExactOn same p legal' put := by
  intro bytes a rest
  rw [h bytes a rest, true_and, hlegal, and_assoc]

/-- Nothing is read: the value is known. -/
theorem known {a : α} (h : ∀ a', same a' ∧ legal a' ↔ a' = a) :
    ExactOn same (pure a : Reader ε α) legal fun _ => [].flatten := by
  intro bytes a' rest
  rw [← and_assoc, h]
  constructor
  · rintro ⟨⟩
    exact ⟨rfl, rfl⟩
  · rintro ⟨rfl, rfl⟩
    rfl

/-- No value is left. -/
theorem refused {e : ε} (h : ∀ a, same a → ¬ legal a) :
    ExactOn same (throw e : Reader ε α) legal put := by
  intro bytes a rest
  constructor
  · rintro ⟨⟩
  · rintro ⟨hsame, hlegal, -⟩
    exact absurd hlegal (h a hsame)

/-- The record is put together from what was read. -/
theorem done {a : α} (h : ∀ a', same a' ↔ a' = a) :
    ExactOn same (pure a : Reader ε α) (fun _ => True) fun _ => [].flatten :=
  known fun a' => by rw [and_true, h]

/-- What was read is checked before the reader goes on. -/
theorem guard {bad : Prop} [Decidable bad] {e : ε} {fits : α → Prop}
    (hbad : ∀ a, same a → (fits a ↔ ¬ bad)) (h : ¬ bad → ExactOn same p legal put) :
    ExactOn same (if bad then throw e else p) (fun a => fits a ∧ legal a) put := by
  split
  · rename_i hfails
    exact .refused fun a hsame hlegal => (hbad a hsame).mp hlegal.1 hfails
  · rename_i hgood
    intro bytes a rest
    rw [h hgood bytes a rest]
    constructor
    · rintro ⟨hsame, hlegal, hbytes⟩
      exact ⟨hsame, ⟨(hbad a hsame).mpr hgood, hlegal⟩, hbytes⟩
    · rintro ⟨hsame, ⟨-, hlegal⟩, hbytes⟩
      exact ⟨hsame, hlegal, hbytes⟩

/-- A field is read, and then the rest of the record. -/
theorem field {q : Reader ε β} {k : β → Reader ε α} {fits : β → Prop} {write : β → List Write}
    {f : α → β} {puts : α → List (List Write)} (hq : Exact q fits write)
    (hk : ∀ b, fits b → ExactOn (fun a => same a ∧ f a = b) (k b) legal fun a => (puts a).flatten) :
    ExactOn same (q >>= k) (fun a => fits (f a) ∧ legal a)
      fun a => (write (f a) :: puts a).flatten := by
  intro bytes a rest
  rw [StateT.run_bind]
  beta_reduce
  rw [List.flatten_cons, Write.flat_append, List.append_assoc]
  constructor
  · intro h
    cases hread : q.run bytes with
    | error e =>
      rw [hread] at h
      cases h
    | ok next =>
      obtain ⟨b, middle⟩ := next
      rw [hread] at h
      obtain ⟨-, hfits, rfl⟩ := (hq bytes b middle).mp hread
      obtain ⟨⟨hsame, rfl⟩, hlegal, rfl⟩ := (hk b hfits middle a rest).mp h
      exact ⟨hsame, ⟨hfits, hlegal⟩, rfl⟩
  · rintro ⟨hsame, ⟨hfits, hlegal⟩, rfl⟩
    rw [(hq _ (f a) (flat (puts a).flatten ++ rest)).mpr ⟨trivial, hfits, rfl⟩]
    exact (hk (f a) hfits _ a rest).mpr ⟨⟨hsame, rfl⟩, hlegal, rfl⟩

/-- What is left of the record is read in one piece. -/
theorem whole (h : Exact p legal put) (hsame : ∀ a, same a) :
    ExactOn same p legal fun a => [put a].flatten := by
  intro bytes a rest
  rw [h bytes a rest]
  simp only [hsame, true_and, List.flatten_cons, List.flatten_nil, List.append_nil]

end ExactOn

namespace Exact

variable {ε α β : Type}

theorem congr {p : Reader ε α} {legal legal' : α → Prop} {put : α → List Write}
    (h : Exact p legal put) (hlegal : ∀ a, legal a ↔ legal' a) : Exact p legal' put := by
  intro bytes a rest
  rw [h bytes a rest, hlegal]

/-- A legal value is read back. -/
theorem reads {p : Reader ε α} {legal : α → Prop} {put : α → List Write} (h : Exact p legal put)
    {a : α} (ha : legal a) : p.run (flat (put a)) = .ok (a, []) :=
  (h _ a []).mpr ⟨trivial, ha, (List.append_nil _).symm⟩

theorem reads_iff {p : Reader ε α} {legal : α → Prop} {put : α → List Write}
    (h : Exact p legal put) (a : α) : p.run (flat (put a)) = .ok (a, []) ↔ legal a :=
  ⟨fun hread => ((h _ a []).mp hread).2.1, h.reads⟩

/-- Only what is written for a value is read as it. -/
theorem canonical {p : Reader ε α} {legal : α → Prop} {put : α → List Write}
    (h : Exact p legal put) {bytes : List UInt8} {a : α} (hread : p.run bytes = .ok (a, [])) :
    legal a ∧ bytes = flat (put a) := by
  obtain ⟨-, hlegal, hbytes⟩ := (h bytes a []).mp hread
  exact ⟨hlegal, hbytes.trans (List.append_nil _)⟩

theorem byte (e : ε) : Exact (Reader.byte e) (fun _ => True) fun b => [.byte b] := by
  intro bytes b rest
  cases bytes with
  | nil =>
    constructor
    · rintro ⟨⟩
    · rintro ⟨-, -, ⟨⟩⟩
  | cons first others =>
    constructor
    · rintro ⟨⟩
      exact ⟨trivial, trivial, rfl⟩
    · rintro ⟨-, -, h⟩
      cases h
      rfl

theorem take (count : Nat) (e : ε) :
    Exact (Reader.take count e) (fun bs => bs.length = count) fun bs => [.raw bs] := by
  intro bytes bs rest
  simp only [true_and, Write.flat_cons, Write.flat_nil, List.append_nil, Write.bytes]
  constructor
  · intro h
    simp only [Reader.take, StateT.run] at h
    split at h
    · rename_i hlength
      cases h
      exact ⟨List.length_take_of_le hlength, (List.take_append_drop count bytes).symm⟩
    · cases h
  · rintro ⟨rfl, rfl⟩
    simp only [Reader.take, StateT.run]
    rw [if_pos (by simp), List.take_left, List.drop_left]

/-- What is read is looked at before it is taken for a value. -/
theorem convert {q : Reader ε β} {fits : β → Prop} {write : β → List Write}
    (store : α → β) (legal : α → Prop) (hq : Exact q fits write) {k : β → Reader ε α}
    (hk : ∀ b, fits b → ExactOn (fun a => store a = b) (k b) legal fun _ => [].flatten) :
    Exact (q >>= k) (fun a => fits (store a) ∧ legal a) fun a => write (store a) := by
  have hfield : Exact (q >>= k) (fun a => fits (store a) ∧ legal a)
      fun a => [write (store a)].flatten := ExactOn.field hq fun b hb => by
    simpa only [true_and] using hk b hb
  simpa only [List.flatten_cons, List.flatten_nil, List.append_nil] using hfield

theorem word (width : Nat) (e : ε) :
    Exact (Reader.word width e) (fun n => n < 256 ^ width)
      fun n => [.raw (LittleEndian.bytes width n)] := by
  refine congr (convert (LittleEndian.bytes width) (fun n => n < 256 ^ width) (take width e)
    fun bs hlength => .known fun n => ?_) fun n => ?_
  · constructor
    · rintro ⟨rfl, hlt⟩
      exact (LittleEndian.word_bytes_of_lt hlt).symm
    · rintro rfl
      refine ⟨LittleEndian.bytes_word_of_length hlength, ?_⟩
      rw [← hlength]
      exact LittleEndian.word_lt bs
  · rw [LittleEndian.bytes_length, eq_self, true_and]

theorem checked {q : Reader ε β} {fits : β → Prop} {write : β → List Write}
    (hq : Exact q fits write) {cast : β → Option α} {e : ε} {store : α → β} {legal : α → Prop}
    (hcast : ∀ a b, cast b = some a ↔ store a = b ∧ legal a) :
    Exact (q.checked cast e) (fun a => fits (store a) ∧ legal a) fun a => write (store a) := by
  refine convert store legal hq fun b _ => ?_
  cases hb : cast b with
  | none =>
    refine .refused fun a hstore hlegal => ?_
    rw [(hcast a b).mpr ⟨hstore, hlegal⟩] at hb
    cases hb
  | some a => exact .known fun a' => by rw [← hcast a' b, hb, Option.some.injEq, eq_comm]

theorem relabel {p : Reader ε α} {legal : α → Prop} {put : α → List Write}
    (h : Exact p legal put) (f : ε → ε) : Exact (p.relabel f) legal put := by
  intro bytes a rest
  rw [← h bytes a rest]
  simp only [Reader.relabel, StateT.run]
  cases p bytes with
  | ok => exact Iff.rfl
  | error e =>
    constructor
    · rintro ⟨⟩
    · rintro ⟨⟩

/-- The values of a list are read one after the other. -/
theorem times {p : Reader ε α} {legal : α → Prop} {put : α → List Write} (h : Exact p legal put)
    (count : Nat) : Exact (p.times count) (fun as => as.length = count ∧ ∀ a ∈ as, legal a)
      fun as => as.flatMap put := by
  have hput : ∀ a others rest, flat ((a :: others).flatMap put) ++ rest
      = flat (put a) ++ (flat (others.flatMap put) ++ rest) := by
    intro a others rest
    rw [List.flatMap_cons, Write.flat_append, List.append_assoc]
  induction count with
  | zero =>
    intro bytes as rest
    constructor
    · rintro ⟨⟩
      exact ⟨trivial, ⟨rfl, fun _ ha => by cases ha⟩, rfl⟩
    · rintro ⟨-, ⟨hlength, -⟩, rfl⟩
      obtain rfl := List.eq_nil_of_length_eq_zero hlength
      rfl
  | succ count ih =>
    intro bytes as rest
    rw [Reader.times, Reader.run_bind_eq_ok]
    constructor
    · rintro ⟨a, middle, hfirst, hrest⟩
      obtain ⟨others, last, hothers, hdone⟩ := Reader.run_bind_eq_ok.mp hrest
      cases hdone
      obtain ⟨-, hlegal, rfl⟩ := (h _ _ _).mp hfirst
      obtain ⟨-, ⟨hlength, hall⟩, rfl⟩ := (ih _ _ _).mp hothers
      refine ⟨trivial, ⟨by rw [List.length_cons, hlength], ?_⟩, ?_⟩
      · intro b hb
        rcases List.mem_cons.mp hb with rfl | hb
        · exact hlegal
        · exact hall b hb
      · exact (hput a others _).symm
    · rintro ⟨-, ⟨hlength, hall⟩, rfl⟩
      cases as with
      | nil => cases hlength
      | cons a others =>
        refine ⟨a, flat (others.flatMap put) ++ rest, ?_, ?_⟩
        · exact (h _ _ _).mpr ⟨trivial, hall a (List.mem_cons_self ..), hput a others rest⟩
        · refine Reader.run_bind_eq_ok.mpr ⟨others, rest, ?_, rfl⟩
          exact (ih _ _ _).mpr ⟨trivial, ⟨Nat.succ.inj hlength,
            fun b hb => hall b (List.mem_cons_of_mem _ hb)⟩, rfl⟩

end Exact

/-! ## Values that are read back as others

A writer that leaves parts of a value out has no exact reader: what it writes
for `a` is read as the value `seen a` without them. Whether `a` is read back as
that depends on `a` alone, and whatever the reader returns is legal. -/

/-- Among the values of `same`, the reader takes what is written for a legal
value for `seen` of it, and returns legal values only. -/
def ReadsAsOn {ε α : Type} (same : α → Prop) (p : Reader ε α) (legal : α → Prop)
    (put : α → List Write) (seen : α → α) : Prop :=
  (∀ bytes a rest, p.run bytes = .ok (a, rest) → same a ∧ legal a)
    ∧ ∀ a rest, same (seen a) → legal a → p.run (flat (put a) ++ rest) = .ok (seen a, rest)

/-- The reader takes what is written for a legal value for `seen` of it, and
returns legal values only. -/
def ReadsAs {ε α : Type} (p : Reader ε α) (legal : α → Prop) (put : α → List Write)
    (seen : α → α) : Prop :=
  ReadsAsOn (fun _ => True) p legal put seen

theorem Exact.readsAs {ε α : Type} {p : Reader ε α} {legal : α → Prop} {put : α → List Write}
    (h : Exact p legal put) : ReadsAs p legal put id := by
  refine ⟨fun bytes a rest hread => ?_, fun a rest _ hlegal => ?_⟩
  · obtain ⟨-, hlegal, -⟩ := (h bytes a rest).mp hread
    exact ⟨trivial, hlegal⟩
  · exact (h _ a rest).mpr ⟨trivial, hlegal, rfl⟩

namespace ReadsAsOn

variable {ε α β : Type} {same legal legal' : α → Prop} {p : Reader ε α} {put : α → List Write}
  {seen : α → α}

theorem congr (h : ReadsAsOn same p legal put seen) (hlegal : ∀ a, legal a ↔ legal' a) :
    ReadsAsOn same p legal' put seen := by
  obtain rfl : legal = legal' := funext fun a => propext (hlegal a)
  exact h

/-- The record is put together from what was read. -/
theorem done {a : α} (h : ∀ a', same a' ↔ a' = a) :
    ReadsAsOn same (pure a : Reader ε α) (fun _ => True) (fun _ => [].flatten) seen := by
  refine ⟨fun bytes a' rest hread => ?_, fun a' rest hsame _ => ?_⟩
  · cases hread
    exact ⟨(h a).mpr rfl, trivial⟩
  · rw [(h _).mp hsame]
    rfl

/-- What was read is checked before the reader goes on. -/
theorem guard {bad : Prop} [Decidable bad] {e : ε} {fits : α → Prop}
    (hbad : ∀ a, same a → (fits a ↔ ¬ bad)) (hseen : ∀ a, fits (seen a) ↔ fits a)
    (h : ¬ bad → ReadsAsOn same p legal put seen) :
    ReadsAsOn same (if bad then throw e else p) (fun a => fits a ∧ legal a) put seen := by
  split
  · rename_i hfails
    refine ⟨fun bytes a rest hread => ?_, fun a rest hsame hlegal => ?_⟩
    · cases hread
    · exact absurd hfails ((hbad _ hsame).mp ((hseen a).mpr hlegal.1))
  · rename_i hgood
    refine ⟨fun bytes a rest hread => ?_,
      fun a rest hsame hlegal => (h hgood).2 a rest hsame hlegal.2⟩
    obtain ⟨hsame, hlegal⟩ := (h hgood).1 bytes a rest hread
    exact ⟨hsame, (hbad a hsame).mpr hgood, hlegal⟩

/-- A field is read, and then the rest of the record. -/
theorem field {q : Reader ε β} {k : β → Reader ε α} {fits : β → Prop} {write : β → List Write}
    {view : β → β} {f : α → β} {puts : α → List (List Write)} (hq : ReadsAs q fits write view)
    (hf : ∀ a, f (seen a) = view (f a))
    (hk : ∀ b, fits b →
      ReadsAsOn (fun a => same a ∧ f a = b) (k b) legal (fun a => (puts a).flatten) seen) :
    ReadsAsOn same (q >>= k) (fun a => fits (f a) ∧ legal a)
      (fun a => (write (f a) :: puts a).flatten) seen := by
  refine ⟨fun bytes a rest hread => ?_, fun a rest hsame hlegal => ?_⟩
  · obtain ⟨b, middle, hfirst, hrest⟩ := Reader.run_bind_eq_ok.mp hread
    obtain ⟨-, hfits⟩ := hq.1 bytes b middle hfirst
    obtain ⟨⟨hsame, rfl⟩, hlegal⟩ := (hk b hfits).1 middle a rest hrest
    exact ⟨hsame, hfits, hlegal⟩
  · have hfirst := hq.2 (f a) (flat (puts a).flatten ++ rest) trivial hlegal.1
    obtain ⟨-, hfits⟩ := hq.1 _ _ _ hfirst
    refine Reader.run_bind_eq_ok.mpr ⟨_, _, ?_, (hk _ hfits).2 a rest ⟨hsame, hf a⟩ hlegal.2⟩
    beta_reduce
    rw [List.flatten_cons, Write.flat_append, List.append_assoc]
    exact hfirst

/-- Every value is seen as one of `same`, so nothing is asked of the values
that are read back. -/
theorem of_seen (same : α → Prop) (h : ReadsAsOn same p legal put seen)
    (hsame : ∀ a, same (seen a)) : ReadsAs p legal put seen := by
  refine ⟨fun bytes a rest hread => ⟨trivial, (h.1 bytes a rest hread).2⟩, ?_⟩
  intro a rest _ hlegal
  exact h.2 a rest (hsame a) hlegal

/-- A field that is read back as it was. -/
theorem same_field {q : Reader ε β} {k : β → Reader ε α} {fits : β → Prop}
    {write : β → List Write} {f : α → β} {puts : α → List (List Write)} (hq : Exact q fits write)
    (hf : ∀ a, f (seen a) = f a)
    (hk : ∀ b, fits b →
      ReadsAsOn (fun a => same a ∧ f a = b) (k b) legal (fun a => (puts a).flatten) seen) :
    ReadsAsOn same (q >>= k) (fun a => fits (f a) ∧ legal a)
      (fun a => (write (f a) :: puts a).flatten) seen :=
  field hq.readsAs hf hk

end ReadsAsOn

namespace ReadsAs

variable {ε α : Type} {p : Reader ε α} {legal : α → Prop} {put : α → List Write} {seen : α → α}

/-- A value is read back as `seen` of it if and only if it is legal. -/
theorem reads_iff (h : ReadsAs p legal put seen) (hseen : ∀ a, legal (seen a) ↔ legal a) (a : α) :
    p.run (flat (put a)) = .ok (seen a, []) ↔ legal a := by
  constructor
  · intro hread
    exact (hseen a).mp (h.1 _ _ _ hread).2
  · intro hlegal
    have hread := h.2 a [] trivial hlegal
    rwa [List.append_nil] at hread

/-- The values of a list are read one after the other. -/
theorem times (h : ReadsAs p legal put seen) (count : Nat) :
    ReadsAs (p.times count) (fun as => as.length = count ∧ ∀ a ∈ as, legal a)
      (fun as => as.flatMap put) (List.map seen) := by
  induction count with
  | zero =>
    refine ⟨fun bytes as rest hread => ?_, fun as rest _ hlegal => ?_⟩
    · cases hread
      exact ⟨trivial, rfl, fun _ ha => by cases ha⟩
    · obtain rfl := List.eq_nil_of_length_eq_zero hlegal.1
      rfl
  | succ count ih =>
    refine ⟨fun bytes as rest hread => ?_, fun as rest _ hlegal => ?_⟩
    · obtain ⟨a, middle, hfirst, hrest⟩ := Reader.run_bind_eq_ok.mp hread
      obtain ⟨others, last, hothers, hdone⟩ := Reader.run_bind_eq_ok.mp hrest
      cases hdone
      obtain ⟨-, hlength, hall⟩ := ih.1 _ _ _ hothers
      refine ⟨trivial, by rw [List.length_cons, hlength], fun b hb => ?_⟩
      rcases List.mem_cons.mp hb with rfl | hb
      · exact (h.1 _ _ _ hfirst).2
      · exact hall b hb
    · cases as with
      | nil => cases hlegal.1
      | cons a others =>
        refine Reader.run_bind_eq_ok.mpr ⟨seen a, flat (others.flatMap put) ++ rest, ?_, ?_⟩
        · beta_reduce
          rw [List.flatMap_cons, Write.flat_append, List.append_assoc]
          exact h.2 a _ trivial (hlegal.2 a (List.mem_cons_self ..))
        · refine Reader.run_bind_eq_ok.mpr ⟨others.map seen, rest, ?_, rfl⟩
          exact ih.2 others rest trivial ⟨Nat.succ.inj hlegal.1,
            fun b hb => hlegal.2 b (List.mem_cons_of_mem _ hb)⟩

end ReadsAs

/-! ## Bytes that are read as one value only

Neither law says what the reader does with the bytes of a value that is not
legal. It may refuse them, but it must not take them for another value. -/

/-- The reader refuses the bytes, or takes them for `a` and leaves what
follows them. There are fewer than `size` of them, so that a length is
written as it is. -/
def ReadsOnly {ε α : Type} (size : Nat) (p : Reader ε α) (bytes : List UInt8) (a : α) : Prop :=
  bytes.length < size → ∀ rest b rest', p.run (bytes ++ rest) = .ok (b, rest') →
    b = a ∧ rest' = rest

namespace ReadsOnly

variable {ε α β : Type} {size : Nat} {p : Reader ε α} {bytes : List UInt8} {a : α}

theorem of_exact {legal : α → Prop} {put : α → List Write} (h : Exact p legal put)
    (ha : legal a) : ReadsOnly size p (flat (put a)) a := by
  intro _ rest b rest' hread
  rw [(h _ a rest).mpr ⟨trivial, ha, rfl⟩] at hread
  cases hread
  exact ⟨rfl, rfl⟩

/-- The record is put together from what was read. -/
theorem done : ReadsOnly size (pure a : Reader ε α) (flat [].flatten) a := by
  rintro - rest b rest' ⟨⟩
  exact ⟨rfl, rfl⟩

/-- A field is read, and then the rest of the record. -/
theorem field {q : Reader ε β} {k : β → Reader ε α} {write : List Write}
    {puts : List (List Write)} {b : β} (hq : ReadsOnly size q (flat write) b)
    (hk : ReadsOnly size (k b) (flat puts.flatten) a) :
    ReadsOnly size (q >>= k) (flat (write :: puts).flatten) a := by
  intro hsize rest c rest' hread
  rw [List.flatten_cons, Write.flat_append] at hsize hread
  rw [List.length_append] at hsize
  rw [List.append_assoc] at hread
  obtain ⟨b', middle, hfirst, hrest⟩ := Reader.run_bind_eq_ok.mp hread
  obtain ⟨rfl, rfl⟩ := hq (by omega) _ _ _ hfirst
  exact hk (by omega) _ _ _ hrest

/-- What was read is checked before the reader goes on. -/
theorem guard {bad : Prop} [Decidable bad] {e : ε} (h : ReadsOnly size p bytes a) :
    ReadsOnly size (if bad then throw e else p) bytes a := by
  split
  · rintro - rest b rest' ⟨⟩
  · exact h

/-- What was read is looked at before it is taken for a value. -/
theorem checked {q : Reader ε β} {cast : β → Option α} {e : ε} {b : β}
    (h : ReadsOnly size q bytes b) (hcast : ∀ a', cast b = some a' → a' = a) :
    ReadsOnly size (q.checked cast e) bytes a := by
  intro hsize rest a' rest' hread
  obtain ⟨b', middle, hfirst, hdone⟩ := Reader.run_bind_eq_ok.mp hread
  obtain ⟨rfl, rfl⟩ := h hsize _ _ _ hfirst
  split at hdone
  · rename_i hsome
    cases hdone
    exact ⟨hcast _ hsome, rfl⟩
  · cases hdone

/-- What was read is turned into a value. -/
theorem map {q : Reader ε β} {b : β} (h : ReadsOnly size q bytes b) (f : β → α) :
    ReadsOnly size (do let b ← q; return f b) bytes (f b) := by
  intro hsize rest a rest' hread
  obtain ⟨b', middle, hfirst, hdone⟩ := Reader.run_bind_eq_ok.mp hread
  obtain ⟨rfl, rfl⟩ := h hsize _ _ _ hfirst
  cases hdone
  exact ⟨rfl, rfl⟩

theorem relabel (h : ReadsOnly size p bytes a) (f : ε → ε) :
    ReadsOnly size (p.relabel f) bytes a := by
  intro hsize rest b rest' hread
  refine h hsize rest b rest' ?_
  simp only [Reader.relabel, StateT.run] at hread ⊢
  split at hread
  · rename_i hok
    rw [hok, hread]
  · cases hread

/-- The values of a list are read one after the other. -/
theorem times {put : α → List Write} {seen : α → α} {as : List α}
    (h : ∀ a ∈ as, ReadsOnly size p (flat (put a)) (seen a)) :
    ReadsOnly size (p.times as.length) (flat (as.flatMap put)) (as.map seen) := by
  induction as with
  | nil =>
    rintro - rest b rest' ⟨⟩
    exact ⟨rfl, rfl⟩
  | cons a as ih =>
    intro hsize rest b rest' hread
    rw [List.flatMap_cons, Write.flat_append] at hsize hread
    rw [List.length_append] at hsize
    rw [List.append_assoc] at hread
    obtain ⟨a', middle, hfirst, hrest⟩ := Reader.run_bind_eq_ok.mp hread
    obtain ⟨rfl, rfl⟩ := h a (List.mem_cons_self ..) (by omega) _ _ _ hfirst
    obtain ⟨others, last, hothers, hdone⟩ := Reader.run_bind_eq_ok.mp hrest
    obtain ⟨rfl, rfl⟩ := ih (fun b hb => h b (List.mem_cons_of_mem _ hb)) (by omega) _ _ _ hothers
    cases hdone
    exact ⟨rfl, rfl⟩

end ReadsOnly
