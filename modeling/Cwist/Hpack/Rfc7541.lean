import Cwist.Hpack.Block

/-!
# Header block decoding after RFC 7541

The decoding process of RFC 7541 section 3 over its own table, given the same integer and string literal decoders,
and the proof that `h2_decode_header_block` carries it out.
-/

namespace Cwist.Rfc7541
open List

open H2 (decodeInteger decodeStringCounted headerTableSize)

inductive NameRef where
  | index (i : Nat)
  | text (name : Bytes)

inductive Rep where
  | indexed (i : Nat)
  | literal (incremental : Bool) (name : NameRef) (value : Bytes)
  | sizeUpdate (maxSize : Nat)

def Rep.index : Rep → Option Nat
  | .indexed i => some i
  | .literal _ (.index i) _ => some i
  | _ => none

def readName (block : Bytes) (i pos : Nat) : Option (NameRef × Nat) :=
  if i = 0 then (decodeStringCounted block pos).map fun (name, pos) => (.text name, pos) else some (.index i, pos)

def readLiteral (block : Bytes) (pos prefixBits : Nat) (incremental : Bool) : Option (Rep × Nat) := do
  let (i, pos) ← decodeInteger block pos prefixBits
  let (name, pos) ← readName block i pos
  let (value, pos) ← decodeStringCounted block pos
  some (.literal incremental name value, pos)

def readRep (block : Bytes) (pos : Nat) : Option (Rep × Nat) := do
  let b ← block[pos]?
  if 128 ≤ b.toNat then (decodeInteger block pos 7).map fun (i, pos) => (.indexed i, pos)
  else if 64 ≤ b.toNat then readLiteral block pos 6 true
  else if 32 ≤ b.toNat then (decodeInteger block pos 5).map fun (n, pos) => (.sizeUpdate n, pos)
  else readLiteral block pos 4 false

def Table.name (t : Table) : NameRef → Option Bytes
  | .index i => (t.lookup i).map Prod.fst
  | .text name => some name

def Table.step (t : Table) : Rep → Option (List Field × Table)
  | .indexed i => (t.lookup i).map fun f => ([f], t)
  | .literal incremental ref value =>
    (t.name ref).map fun name => ([(name, value)], if incremental then t.insert (name, value) else t)
  | .sizeUpdate maxSize => if maxSize ≤ headerTableSize then some ([], t.resize maxSize) else none

inductive Reads (block : Bytes) (t : Table) : Nat → List Field → Table → Prop where
  | start : Reads block t 0 [] t
  | next {pos pos' : Nat} {fields emitted : List Field} {t₁ t₂ : Table} {rep : Rep} :
      Reads block t pos fields t₁ → readRep block pos = some (rep, pos') → t₁.step rep = some (emitted, t₂) →
      Reads block t pos' (fields ++ emitted) t₂

def Decodes (block : Bytes) (t : Table) (fields : List Field) (t' : Table) : Prop :=
  ∃ pos, Reads block t pos fields t' ∧ block.length ≤ pos

def Table.OutOfRange (t : Table) (i : Nat) : Prop := i = 0 ∨ H2.staticEntries.length + t.entries.length < i

lemma lookup_outOfRange {t : Table} {i : Nat} (out : t.OutOfRange i) : t.lookup i = none := by
  rw [Table.lookup]
  rcases out with rfl | past
  · rfl
  · rw [if_neg (by omega), List.getElem?_eq_none_iff, length_append, length_map]
    omega

lemma step_outOfRange {t : Table} {rep : Rep} {i : Nat} (refers : rep.index = some i) (out : t.OutOfRange i) :
    t.step rep = none := by
  cases rep with
  | indexed j =>
    obtain rfl : j = i := Option.some.inj refers
    rw [Table.step, lookup_outOfRange out]
    rfl
  | literal incremental ref value =>
    cases ref with
    | index j =>
      obtain rfl : j = i := Option.some.inj refers
      rw [Table.step, Table.name, lookup_outOfRange out]
      rfl
    | text name => cases refers
  | sizeUpdate maxSize => cases refers

end Cwist.Rfc7541

namespace Cwist.H2
open HpackTable Option

open Rfc7541 (Rep NameRef readRep readLiteral readName Reads Decodes Field)

lemma decodeIntegerLoop_pos {bytes : Bytes} {pos m n v next : Nat}
    (read : decodeIntegerLoop bytes pos m n = some (v, next)) : pos < next := by
  induction bytes generalizing pos m n with
  | nil => cases read
  | cons b rest ih =>
    rw [decodeIntegerLoop] at read
    split at read
    · cases read
    split at read
    · simp only [Option.some.injEq, Prod.mk.injEq] at read
      omega
    · have := ih read
      omega

lemma decodeInteger_pos {buf : Bytes} {pos k v next : Nat} (read : decodeInteger buf pos k = some (v, next)) :
    pos < next := by
  rw [decodeInteger] at read
  split at read
  · cases read
  split at read
  · cases read
  dsimp only at read
  split at read
  · simp only [Option.some.injEq, Prod.mk.injEq] at read
    omega
  · have := decodeIntegerLoop_pos read
    omega

lemma decodeStringCounted_pos {buf out : Bytes} {pos next : Nat}
    (read : decodeStringCounted buf pos = some (out, next)) : pos < next := by
  obtain ⟨b, -, read⟩ := bind_eq_some_iff.mp read
  obtain ⟨⟨strLen, after⟩, integer, read⟩ := bind_eq_some_iff.mp read
  have := decodeInteger_pos integer
  dsimp only at read
  split at read
  · cases read
  split at read
  · obtain ⟨out', -, read⟩ := bind_eq_some_iff.mp read
    simp only [Option.some.injEq, Prod.mk.injEq] at read
    omega
  · simp only [Option.some.injEq, Prod.mk.injEq] at read
    omega

/-- What a turn that succeeds has done: the RFC's step on the representation at the offset. -/
structure Follows (payload : Bytes) (bs bs' : BlockState) : Prop where
  valid : bs'.table.Valid
  forward : bs.pos < bs'.pos
  step : ∃ rep fields, readRep payload bs.pos = some (rep, bs'.pos) ∧
    bs.table.toRfc.step rep = some (fields, bs'.table.toRfc) ∧ bs'.handed = bs.handed ++ fields

variable {payload : Bytes} {b : UInt8} {bs bs' : BlockState} {table : HpackTable}

section Steps

lemma indexedStep_follows (valid : bs.table.Valid) (here : payload[bs.pos]? = some b) (kind : 128 ≤ b.toNat)
    (done : indexedStep payload bs = .ok bs') : Follows payload bs bs' := by
  rw [indexedStep] at done
  split at done
  · cases done
  rename_i index pos read
  split at done
  · cases done
  rename_i name value found
  cases done
  refine ⟨valid, decodeInteger_pos read, .indexed index, [(name.bytes, value.bytes)], ?_, ?_, rfl⟩
  · simp [readRep, here, kind, read]
  · rw [Rfc7541.Table.step, resolve_toRfc, found]
    rfl

lemma sizeUpdateStep_follows (valid : bs.table.Valid) (here : payload[bs.pos]? = some b) (kind : 32 ≤ b.toNat)
    (low : b.toNat < 64) (done : sizeUpdateStep payload bs = .ok bs') : Follows payload bs bs' := by
  rw [sizeUpdateStep] at done
  split at done
  · cases done
  rename_i newSize pos read
  split at done
  · cases done
  rename_i table changed
  cases done
  obtain ⟨valid', same⟩ := setCapacity_spec valid changed
  have allowed : newSize ≤ headerTableSize := by
    rw [setCapacity] at changed
    split at changed
    · cases changed
    · omega
  refine ⟨valid', decodeInteger_pos read, .sizeUpdate newSize, [], ?_, ?_, by simp⟩
  · simp [readRep, here, kind, read, show ¬128 ≤ b.toNat by omega, show ¬64 ≤ b.toNat by omega]
  · rw [Rfc7541.Table.step, if_pos allowed, same]

lemma literalName_spec {table : HpackTable} {nameIndex pos next : Nat} {name : Bytes}
    (read : literalName payload table nameIndex pos = some (name, next)) :
    pos ≤ next ∧ ∃ ref, readName payload nameIndex pos = some (ref, next) ∧ table.toRfc.name ref = some name := by
  rw [literalName] at read
  split at read
  · obtain ⟨⟨n, v⟩, found, same⟩ := map_eq_some_iff.mp read
    obtain ⟨rfl, rfl⟩ := same
    refine ⟨le_rfl, .index nameIndex, by rw [readName, if_neg (by omega)], ?_⟩
    rw [Rfc7541.Table.name, resolve_toRfc, found]
    rfl
  · refine ⟨le_of_lt (decodeStringCounted_pos read), .text name, ?_, rfl⟩
    rw [readName, if_pos (by omega), read]
    rfl

lemma literalStep_follows {k : Nat} {incremental : Bool} (valid : bs.table.Valid)
    (kind : readRep payload bs.pos = readLiteral payload bs.pos k incremental)
    (done : literalStep payload k incremental bs = .ok bs') : Follows payload bs bs' := by
  rw [literalStep] at done
  split at done
  · cases done
  rename_i nameIndex pos₁ readIndex
  split at done
  · cases done
  rename_i name pos₂ readName_
  split at done
  · cases done
  rename_i value pos₃ readValue
  obtain ⟨forward, ref, sameName, resolved⟩ := literalName_spec readName_
  have read : readRep payload bs.pos = some (.literal incremental ref value, pos₃) := by
    rw [kind, readLiteral, readIndex]
    simp [sameName, readValue]
  have moved : bs.pos < pos₃ := by
    have := decodeInteger_pos readIndex
    have := decodeStringCounted_pos readValue
    omega
  cases incremental with
  | false =>
    cases done
    exact ⟨valid, moved, _, [(name, value)], read, by simp [Rfc7541.Table.step, resolved], rfl⟩
  | true =>
    rw [if_pos rfl] at done
    split at done
    · cases done
    cases done
    have cleanName := (CStr.ofBytes_length_iff name).mp (by omega)
    have cleanValue := (CStr.ofBytes_length_iff value).mp (by omega)
    obtain ⟨valid', same⟩ := insert_spec valid (.ofBytes name) (.ofBytes value)
    refine ⟨valid', moved, _, [(name, value)], read, ?_, rfl⟩
    simp only [BlockState.hand_table, Rfc7541.Table.step, resolved, map_some, if_true, same,
      CStr.ofBytes_bytes cleanName, CStr.ofBytes_bytes cleanValue]

lemma octet_kind (b : UInt8) :
    (b.toNat &&& 0x80 ≠ 0 ↔ 128 ≤ b.toNat) ∧ (b.toNat &&& 0xe0 = 0x20 ↔ 32 ≤ b.toNat ∧ b.toNat < 64) ∧
      (b.toNat < 128 → (b.toNat &&& 0x40 = 0x40 ↔ 64 ≤ b.toNat)) := by
  have all : ∀ i : Fin 256, (i.val &&& 0x80 ≠ 0 ↔ 128 ≤ i.val) ∧ (i.val &&& 0xe0 = 0x20 ↔ 32 ≤ i.val ∧ i.val < 64) ∧
      (i.val < 128 → (i.val &&& 0x40 = 0x40 ↔ 64 ≤ i.val)) := by decide +kernel
  exact all ⟨b.toNat, b.toNat_lt⟩

lemma blockStep_follows (valid : bs.table.Valid) (here : payload[bs.pos]? = some b)
    (done : blockStep payload b bs = .ok bs') : Follows payload bs bs' := by
  obtain ⟨indexed, update, incremental⟩ := octet_kind b
  rw [blockStep] at done
  split at done
  next high => exact indexedStep_follows valid here (indexed.mp high) done
  rename_i low
  have low : b.toNat < 128 := by
    by_contra high
    exact low (indexed.mpr (by omega))
  split at done
  next middle =>
    obtain ⟨kind, below⟩ := update.mp middle
    exact sizeUpdateStep_follows valid here kind below done
  split at done
  next literal =>
    have kind := (incremental low).mp literal
    exact literalStep_follows valid (by simp [readRep, here, kind, show ¬128 ≤ b.toNat by omega]) done
  have kind : readRep payload bs.pos = readLiteral payload bs.pos 4 false := by
    simp [readRep, here, show ¬128 ≤ b.toNat by omega, show ¬64 ≤ b.toNat by omega,
      show ¬32 ≤ b.toNat by omega]
  split at done
  · exact literalStep_follows valid kind done
  · split at done
    · exact literalStep_follows valid kind done
    · cases done

end Steps

def tableView : Except BlockState BlockState → Except HpackTable (Nat × HpackTable)
  | .error bs => .error bs.table
  | .ok bs => .ok (bs.pos, bs.table)

section View
variable {bs₁ bs₂ : BlockState}

lemma indexedStep_view (pos : bs₁.pos = bs₂.pos) (table : bs₁.table = bs₂.table) :
    tableView (indexedStep payload bs₁) = tableView (indexedStep payload bs₂) := by
  rw [indexedStep, indexedStep, pos, table]
  cases decodeInteger payload bs₂.pos 7 with
  | none => simp [tableView, table]
  | some r =>
    dsimp only
    cases bs₂.table.resolve r.1 with
    | none => rfl
    | some field => rfl

lemma sizeUpdateStep_view (pos : bs₁.pos = bs₂.pos) (table : bs₁.table = bs₂.table) :
    tableView (sizeUpdateStep payload bs₁) = tableView (sizeUpdateStep payload bs₂) := by
  rw [sizeUpdateStep, sizeUpdateStep, pos, table]
  cases decodeInteger payload bs₂.pos 5 with
  | none => simp [tableView, table]
  | some r =>
    dsimp only
    cases bs₂.table.setCapacity r.1 with
    | none => rfl
    | some table' => rfl

lemma literalStep_view {k : Nat} {incremental : Bool} (pos : bs₁.pos = bs₂.pos) (table : bs₁.table = bs₂.table) :
    tableView (literalStep payload k incremental bs₁) = tableView (literalStep payload k incremental bs₂) := by
  rw [literalStep, literalStep, pos, table]
  cases decodeInteger payload bs₂.pos k with
  | none => simp [tableView, table]
  | some r =>
    dsimp only
    cases literalName payload bs₂.table r.1 r.2 with
    | none => rfl
    | some name =>
      dsimp only
      cases decodeStringCounted payload name.2 with
      | none => rfl
      | some value =>
        dsimp only
        split
        · split
          · rfl
          · rfl
        · rfl

lemma blockStep_view (pos : bs₁.pos = bs₂.pos) (table : bs₁.table = bs₂.table) :
    tableView (blockStep payload b bs₁) = tableView (blockStep payload b bs₂) := by
  rw [blockStep, blockStep]
  split
  · exact indexedStep_view pos table
  split
  · exact sizeUpdateStep_view pos table
  split
  · exact literalStep_view pos table
  split
  · exact literalStep_view pos table
  · split
    · exact literalStep_view pos table
    · simp [tableView, table]

lemma blockLoop_view {turns : Nat} (pos : bs₁.pos = bs₂.pos) (table : bs₁.table = bs₂.table) :
    tableView (blockLoop payload turns bs₁) = tableView (blockLoop payload turns bs₂) := by
  induction turns generalizing bs₁ bs₂ with
  | zero => simp [blockLoop, tableView, pos, table]
  | succ turns ih =>
    rw [blockLoop, blockLoop, pos]
    cases payload[bs₂.pos]? with
    | none => simp [tableView, pos, table]
    | some b =>
      have step : tableView (blockStep payload b bs₁) = tableView (blockStep payload b bs₂) := blockStep_view pos table
      dsimp only
      cases first : blockStep payload b bs₁ with
      | error e₁ =>
        cases second : blockStep payload b bs₂ with
        | error e₂ => rw [first, second] at step; exact step
        | ok n₂ => rw [first, second] at step; cases step
      | ok n₁ =>
        cases second : blockStep payload b bs₂ with
        | error e₂ => rw [first, second] at step; cases step
        | ok n₂ =>
          rw [first, second] at step
          simp only [tableView, Except.ok.injEq, Prod.mk.injEq] at step
          exact ih step.1 step.2

end View

section Block

lemma blockStep_error_table (failed : blockStep payload b bs = .error bs') : bs'.table = bs.table := by
  have literal : ∀ k incremental, literalStep payload k incremental bs = .error bs' → bs'.table = bs.table := by
    intro k incremental failed
    rw [literalStep] at failed
    repeat' split at failed
    all_goals cases failed <;> rfl
  rw [blockStep] at failed
  split at failed
  · rw [indexedStep] at failed
    repeat' split at failed
    all_goals cases failed <;> rfl
  split at failed
  · rw [sizeUpdateStep] at failed
    repeat' split at failed
    all_goals cases failed <;> rfl
  repeat' split at failed
  · exact literal _ _ failed
  · exact literal _ _ failed
  · exact literal _ _ failed
  · cases failed
    rfl

section
variable (valid : bs.table.Valid) {t : Rfc7541.Table} {fields : List Field} {t₁ : Rfc7541.Table} {turns pos next i : Nat}
include valid

lemma blockLoop_valid
    (ended : blockLoop payload turns bs = .error bs' ∨ blockLoop payload turns bs = .ok bs') : bs'.table.Valid := by
  induction turns generalizing bs with
  | zero =>
    rcases ended with failed | done
    · cases failed
    · cases done
      exact valid
  | succ turns ih =>
    rw [blockLoop] at ended
    cases here : payload[bs.pos]? with rw [here] at ended
    | none =>
      rcases ended with failed | done
      · cases failed
      · cases done
        exact valid
    | some b =>
      cases step : blockStep payload b bs with simp only [step] at ended
      | error e =>
        rcases ended with failed | done
        · cases failed
          rw [blockStep_error_table step]
          exact valid
        · cases done
      | ok next => exact ih (blockStep_follows valid here step).valid ended

lemma blockLoop_reads
    (before : Reads payload t bs.pos bs.handed bs.table.toRfc) (enough : payload.length ≤ bs.pos + turns)
    (done : blockLoop payload turns bs = .ok bs') :
    Reads payload t bs'.pos bs'.handed bs'.table.toRfc ∧ payload.length ≤ bs'.pos := by
  induction turns generalizing bs with
  | zero =>
    cases done
    exact ⟨before, enough⟩
  | succ turns ih =>
    rw [blockLoop] at done
    cases here : payload[bs.pos]? with rw [here] at done
    | none =>
      cases done
      exact ⟨before, List.getElem?_eq_none_iff.mp here⟩
    | some b =>
      cases step : blockStep payload b bs with simp only [step] at done
      | error e => cases done
      | ok next =>
        obtain ⟨valid', forward, rep, fields, read, stepped, handed⟩ := blockStep_follows valid here step
        exact ih valid' (by rw [handed]; exact before.next read stepped) (by omega) done

lemma blockLoop_reaches (front : bs.pos = 0) (same : bs.table.toRfc = t) (reads : Reads payload t pos fields t₁) :
    (∃ e, blockLoop payload payload.length bs = .error e) ∨
      ∃ turns next, blockLoop payload payload.length bs = blockLoop payload turns next ∧ next.pos = pos ∧
        next.table.toRfc = t₁ ∧ next.table.Valid ∧ payload.length ≤ next.pos + turns := by
  induction reads with
  | start => exact .inr ⟨payload.length, bs, rfl, front, same, valid, by omega⟩
  | @next pos pos' fields emitted t₁ t₂ rep before read stepped ih =>
    rcases ih with failed | ⟨turns, next, loop, rfl, rfl, valid', enough⟩
    · exact .inl failed
    obtain ⟨b, here, -⟩ := bind_eq_some_iff.mp read
    have inside := (getElem?_eq_some_iff.mp here).1
    obtain ⟨turns, rfl⟩ : ∃ n, turns = n + 1 := ⟨turns - 1, by omega⟩
    rw [blockLoop, here] at loop
    dsimp only at loop
    cases step : blockStep payload b next with rw [step] at loop
    | error e => exact .inl ⟨e, loop⟩
    | ok after =>
      obtain ⟨valid'', forward, rep', fields', read', stepped', -⟩ := blockStep_follows valid' here step
      rw [read] at read'
      obtain ⟨rfl, rfl⟩ := read'
      rw [stepped] at stepped'
      simp only [Option.some.injEq, Prod.mk.injEq] at stepped'
      exact .inr ⟨turns, after, loop, rfl, stepped'.2.symm, valid'', by omega⟩

lemma blockLoop_outOfRange {rep : Rep} (front : bs.pos = 0) (same : bs.table.toRfc = t)
    (reads : Reads payload t pos fields t₁) (read : readRep payload pos = some (rep, next))
    (refers : rep.index = some i) (out : t₁.OutOfRange i) : ∃ e, blockLoop payload payload.length bs = .error e := by
  rcases blockLoop_reaches valid front same reads with failed | ⟨turns, at_, loop, rfl, rfl, valid', enough⟩
  · exact failed
  obtain ⟨b, here, -⟩ := bind_eq_some_iff.mp read
  have inside := (getElem?_eq_some_iff.mp here).1
  obtain ⟨turns, rfl⟩ : ∃ n, turns = n + 1 := ⟨turns - 1, by omega⟩
  rw [blockLoop, here] at loop
  dsimp only at loop
  cases step : blockStep payload b at_ with
  | error e => exact ⟨e, by rw [loop, step]; rfl⟩
  | ok after =>
    obtain ⟨rep', fields', read', stepped, -⟩ := (blockStep_follows valid' here step).step
    rw [read] at read'
    obtain ⟨rfl, -⟩ := read'
    rw [Rfc7541.step_outOfRange refers out] at stepped
    cases stepped

end

end Block

lemma decodeHeaderBlock_cases (table : HpackTable) (target : RequestHead) (payload : Bytes) (isRequest : Bool) :
    (∃ bs, blockLoop payload payload.length (.start table target isRequest) = .error bs ∧
        decodeHeaderBlock table target payload isRequest = (.compressionError, bs)) ∨
      ∃ bs, blockLoop payload payload.length (.start table target isRequest) = .ok bs ∧
        decodeHeaderBlock table target payload isRequest = (blockResult isRequest bs, bs) ∧
        blockResult isRequest bs ≠ .compressionError := by
  rw [decodeHeaderBlock]
  cases blockLoop payload payload.length (.start table target isRequest) with
  | error bs => exact .inl ⟨bs, rfl, rfl⟩
  | ok bs =>
    refine .inr ⟨bs, rfl, rfl, ?_⟩
    rw [blockResult]
    repeat' split
    all_goals simp

lemma decodeHeaderBlock_valid (target : RequestHead) (payload : Bytes) (isRequest : Bool)
    (valid : table.Valid) : (decodeHeaderBlock table target payload isRequest).2.table.Valid := by
  rcases decodeHeaderBlock_cases table target payload isRequest with ⟨bs, loop, same⟩ | ⟨bs, loop, same, -⟩
  · rw [same]
    exact blockLoop_valid valid (.inl loop)
  · rw [same]
    exact blockLoop_valid valid (.inr loop)

lemma decodeHeaderBlock_decodes {target : RequestHead} {isRequest : Bool}
    (valid : table.Valid) (accepted : (decodeHeaderBlock table target payload isRequest).1 ≠ .compressionError) :
    Decodes payload table.toRfc (decodeHeaderBlock table target payload isRequest).2.handed
      (decodeHeaderBlock table target payload isRequest).2.table.toRfc := by
  rcases decodeHeaderBlock_cases table target payload isRequest with ⟨bs, loop, same⟩ | ⟨bs, loop, same, -⟩
  · rw [same] at accepted
    exact absurd rfl accepted
  · rw [same]
    obtain ⟨reads, finished⟩ := blockLoop_reads valid (Reads.start) (le_of_eq (zero_add _).symm) loop
    exact ⟨bs.pos, reads, finished⟩

lemma decodeHeaderBlock_view (table : HpackTable) (target target' : RequestHead) (payload : Bytes)
    (isRequest isRequest' : Bool) : (decodeHeaderBlock table target' payload isRequest').2.table =
        (decodeHeaderBlock table target payload isRequest).2.table ∧
      ((decodeHeaderBlock table target' payload isRequest').1 = .compressionError ↔
        (decodeHeaderBlock table target payload isRequest).1 = .compressionError) := by
  have view : tableView (blockLoop payload payload.length (.start table target' isRequest')) =
      tableView (blockLoop payload payload.length (.start table target isRequest)) := blockLoop_view rfl rfl
  rcases decodeHeaderBlock_cases table target payload isRequest with ⟨bs, loop, same⟩ | ⟨bs, loop, same, other⟩ <;>
    rcases decodeHeaderBlock_cases table target' payload isRequest' with ⟨bs', loop', same'⟩ | ⟨bs', loop', same', other'⟩ <;>
    rw [loop, loop'] at view
  · simp only [tableView, Except.error.injEq] at view
    rw [same, same']
    exact ⟨view, Iff.rfl⟩
  · cases view
  · cases view
  · simp only [tableView, Except.ok.injEq, Prod.mk.injEq] at view
    rw [same, same']
    exact ⟨view.2, iff_of_false other' other⟩

/-- `h2_decode_header_block` keeps the table's accounting. It hands over the fields and leaves the
table of RFC 7541 unless it reports a compression error, which depends on the table and the block
alone. An index outside both tables is always such an error. -/
theorem decodeHeaderBlock_rfc7541 (table : HpackTable) (target : RequestHead) (payload : Bytes) (isRequest : Bool)
    (valid : table.Valid) : (decodeHeaderBlock table target payload isRequest).2.table.Valid ∧
      ((decodeHeaderBlock table target payload isRequest).1 ≠ .compressionError →
        Decodes payload table.toRfc (decodeHeaderBlock table target payload isRequest).2.handed
          (decodeHeaderBlock table target payload isRequest).2.table.toRfc) ∧ (∀ target' isRequest',
        (decodeHeaderBlock table target' payload isRequest').2.table =
            (decodeHeaderBlock table target payload isRequest).2.table ∧
          ((decodeHeaderBlock table target' payload isRequest').1 = .compressionError ↔
            (decodeHeaderBlock table target payload isRequest).1 = .compressionError)) ∧
      ∀ pos fields t rep next i, Reads payload table.toRfc pos fields t → readRep payload pos = some (rep, next) →
        rep.index = some i → t.OutOfRange i →
        (decodeHeaderBlock table target payload isRequest).1 = .compressionError := by
  refine ⟨decodeHeaderBlock_valid target payload isRequest valid, decodeHeaderBlock_decodes valid,
    fun target' isRequest' => decodeHeaderBlock_view table target target' payload isRequest isRequest', ?_⟩
  intro pos fields t rep next i reads read refers out
  obtain ⟨e, failed⟩ : ∃ e, blockLoop payload payload.length (.start table target isRequest) = .error e :=
    blockLoop_outOfRange valid rfl rfl reads read refers out
  rcases decodeHeaderBlock_cases table target payload isRequest with ⟨bs, loop, same⟩ | ⟨bs, loop, same, -⟩
  · rw [same]
  · rw [failed] at loop
    cases loop

/-- A field of the static table, a new entry, and a reference to that entry. -/
theorem decodeHeaderBlock_rfc7541_reindexed : Decodes [0x82, 0x40, 0x01, 0x61, 0x01, 0x62, 0xbe] HpackTable.init.toRfc
      [(ascii ":method", ascii "GET"), (ascii "a", ascii "b"), (ascii "a", ascii "b")]
      ⟨[(ascii "a", ascii "b")], 4096⟩ :=
  (decodeHeaderBlock_rfc7541 .init ⟨some .create, false⟩ [0x82, 0x40, 0x01, 0x61, 0x01, 0x62, 0xbe] true
    valid_init).2.1 (by decide)

end Cwist.H2
