import Cwist.Grpc.Hpack
import Cwist.Hpack.Rfc7541

namespace Cwist.Grpc
open List Option

open H2 (HpackTable HpackEntry decodeInteger decodeStringCounted headerTableSize)
open Rfc7541 (Rep NameRef readRep readLiteral readName Reads Decodes Field)

namespace Hpack

def toTable (t : Hpack) : HpackTable := ⟨t.head, t.size, t.cap⟩

variable {t : Hpack}

lemma evictLoop_toTable {limit turns : Nat} (sized : t.size = Fifo.total HpackEntry.size t.head)
    (small : t.size < 2 ^ 32) : (evictLoop limit turns t).toTable = HpackTable.evictLoop limit turns t.toTable := by
  induction turns generalizing t with
  | zero => rfl
  | succ turns ih =>
    rw [evictLoop, HpackTable.evictLoop]
    by_cases heavy : limit < t.size
    · rw [if_pos heavy, if_pos (show limit < t.toTable.size from heavy)]
      rcases eq_nil_or_concat t.head with empty | ⟨rest, old, split⟩
      · simp [toTable, empty]
      simp only [toTable, split, concat_eq_append, getLast?_append, getLast?_singleton, some_or,
        dropLast_concat]
      rw [split, concat_eq_append, Fifo.total_snoc] at sized
      have left : (t.size + (2 ^ 32 - old.size % 2 ^ 32)) % 2 ^ 32 = t.size - old.size := by
        omega
      rw [left]
      exact ih (by dsimp only; omega) (by dsimp only; omega)
    · rw [if_neg heavy, if_neg (show ¬limit < t.toTable.size from heavy)]

lemma evictTo_toTable (valid : t.toTable.Valid) (limit : Nat) :
    (t.evictTo limit).toTable = t.toTable.evictTo limit := by
  have fits := valid.size_le
  have bound := valid.capacity_le
  simp only [toTable, headerTableSize] at fits bound
  exact evictLoop_toTable valid.size_eq (by omega)

lemma insert_toTable (valid : t.toTable.Valid) (name value : CStr) :
    (t.insert name value).toTable = t.toTable.insert name value := by
  have bound := valid.capacity_le
  simp only [toTable, headerTableSize] at bound
  rw [insert, HpackTable.insert]
  by_cases large : name.length + value.length + 32 > t.cap
  · rw [if_pos large, if_pos (show t.toTable.capacity < _ from large)]
    exact evictTo_toTable valid 0
  rw [if_neg large, if_neg (show ¬t.toTable.capacity < _ from large)]
  have same := evictTo_toTable valid (t.cap - (name.length + value.length + 32))
  have room : (t.evictTo (t.cap - (name.length + value.length + 32))).toTable.size ≤ t.cap - (name.length + value.length + 32) := by
    rw [same, HpackTable.evictTo_eq valid]
    exact Fifo.total_keep_le _ _ _
  rw [show t.toTable.capacity = t.cap from rfl, ← same]
  simp only [toTable] at room ⊢
  rw [Nat.mod_eq_of_lt (by omega)]

lemma resize_toTable (valid : t.toTable.Valid) {newSize : Nat} (allowed : newSize ≤ headerTable) :
    t.toTable.setCapacity newSize = some ({ t with cap := newSize }.evictTo newSize).toTable := by
  have fits := valid.size_le
  have bound := valid.capacity_le
  simp only [toTable, headerTableSize] at fits bound
  rw [HpackTable.setCapacity, if_neg (show ¬headerTableSize < newSize from Nat.not_lt_of_le allowed)]
  congr 1
  exact (evictLoop_toTable (t := { t with cap := newSize }) valid.size_eq (by dsimp only; omega)).symm

lemma get_eq (t : Hpack) (index : Nat) : t.get index = t.toTable.resolve index := by
  have count : H2.staticTable.length = 62 := rfl
  rw [get, HpackTable.resolve, HpackTable.dynamicGet, count]
  cases H2.staticHeader index with
  | some entry => rfl
  | none =>
    dsimp only
    split
    · rfl
    · rw [HpackTable.walk_eq]
      rfl

end Hpack

def NulFree (fields : List Field) : Prop := ∀ f ∈ fields, (0 : UInt8) ∉ f.1 ∧ (0 : UInt8) ∉ f.2

def fieldBytes (field : CStr × CStr) : Field := (field.1.bytes, field.2.bytes)

namespace Scan

structure At (s : Scan) (pos : Nat) (fields : List Field) (t : Rfc7541.Table) : Prop where
  pos : s.pos = pos
  fields : s.fields.map fieldBytes = fields
  table : s.table.toTable.toRfc = t
  valid : s.table.toTable.Valid

variable {buf : Bytes} {s : Scan} {pos pos' : Nat} {fields emitted : List Field} {t t' t₁ : Rfc7541.Table}

variable {k : Nat} {incremental : Bool} {rep : Rep}

section
variable (at_ : s.At pos fields t)
include at_

lemma At.hand {name value : CStr} {table : Hpack} (pos' : Nat) (valid : table.toTable.Valid) (stale : Bool) :
    (({ s with pos := pos', table, stale } : Scan).hand name value).At pos' (fields ++ [(name.bytes, value.bytes)])
      table.toTable.toRfc := by
  refine ⟨rfl, ?_, rfl, valid⟩
  simp only [Scan.hand, map_append, at_.fields]
  rfl

lemma indexed_at {i : Nat} (read : decodeInteger buf pos 7 = some (i, pos'))
    (step : t.step (.indexed i) = some (emitted, t')) : ∃ s', s.indexed buf = .ok s' ∧ s'.At pos' (fields ++ emitted) t' := by
  rw [Rfc7541.Table.step, ← at_.table, HpackTable.resolve_toRfc, ← Hpack.get_eq] at step
  cases found : s.table.get i with
  | none => simp [found] at step
  | some entry =>
    simp only [found, map_some, some.injEq, Prod.mk.injEq] at step
    obtain ⟨rfl, rfl⟩ := step
    refine ⟨_, by rw [indexed, at_.pos, read]; simp only [found]; rfl, ?_⟩
    exact at_.hand pos' at_.valid s.stale

lemma sizeUpdate_at {n : Nat} (read : decodeInteger buf pos 5 = some (n, pos'))
    (step : t.step (.sizeUpdate n) = some (emitted, t')) :
    ∃ s', s.sizeUpdate buf = .ok s' ∧ s'.At pos' (fields ++ emitted) t' := by
  rw [Rfc7541.Table.step] at step
  split at step
  next allowed =>
    cases step
    obtain ⟨valid, same⟩ := HpackTable.setCapacity_spec at_.valid (Hpack.resize_toTable at_.valid allowed)
    refine ⟨_, by rw [sizeUpdate, at_.pos, read]; exact if_neg (Nat.not_lt_of_le allowed), rfl, ?_, ?_, valid⟩
    · rw [append_nil]
      exact at_.fields
    · rw [← at_.table]
      exact same
  · cases step

lemma literal_at {ref : NameRef} {value name : Bytes}
    (read : readLiteral buf pos k incremental = some (.literal incremental ref value, pos')) (named : t.name ref = some name)
    (cleanName : (0 : UInt8) ∉ name) (cleanValue : (0 : UInt8) ∉ value) :
    ∃ i n v, s.literal buf k = some (i, n, v, pos') ∧ n.bytes = name ∧ v.bytes = value := by
  obtain ⟨⟨i, pos₁⟩, index, read⟩ := bind_eq_some_iff.mp read
  obtain ⟨⟨ref', pos₂⟩, nameRead, read⟩ := bind_eq_some_iff.mp read
  obtain ⟨⟨value', pos₃⟩, valueRead, read⟩ := bind_eq_some_iff.mp read
  simp only [some.injEq, Prod.mk.injEq, Rep.literal.injEq, true_and] at read
  obtain ⟨⟨rfl, rfl⟩, rfl⟩ := read
  unfold readName at nameRead
  split at nameRead
  next zero =>
    obtain ⟨⟨name', after⟩, nameString, same⟩ := map_eq_some_iff.mp nameRead
    obtain ⟨rfl, rfl⟩ := same
    cases named
    refine ⟨i, .ofBytes name, .ofBytes value', ?_, CStr.ofBytes_bytes cleanName, CStr.ofBytes_bytes cleanValue⟩
    simp [literal, at_.pos, index, zero, string, nameString, valueRead]
  next positive =>
    obtain ⟨rfl, rfl⟩ := nameRead
    rw [Rfc7541.Table.name, ← at_.table, HpackTable.resolve_toRfc, ← Hpack.get_eq] at named
    cases found : s.table.get i with
    | none => simp [found] at named
    | some entry =>
      obtain ⟨n, v⟩ := entry
      simp only [found, map_some, some.injEq] at named
      refine ⟨i, n, .ofBytes value', ?_, named, CStr.ofBytes_bytes cleanValue⟩
      simp [literal, at_.pos, index, positive, found, string, valueRead]

end

lemma octet_masks (b : UInt8) :
    (b.toNat &&& 0x80 ≠ 0 ↔ 128 ≤ b.toNat) ∧ (b.toNat < 128 → (b.toNat &&& 0xc0 ≠ 0 ↔ 64 ≤ b.toNat)) ∧
      (b.toNat < 64 → (b.toNat &&& 0x20 ≠ 0 ↔ 32 ≤ b.toNat)) := by
  have all : ∀ i : Fin 256, (i.val &&& 0x80 ≠ 0 ↔ 128 ≤ i.val) ∧ (i.val < 128 → (i.val &&& 0xc0 ≠ 0 ↔ 64 ≤ i.val)) ∧
      (i.val < 64 → (i.val &&& 0x20 ≠ 0 ↔ 32 ≤ i.val)) := by decide +kernel
  exact all ⟨b.toNat, b.toNat_lt⟩

lemma readLiteral_kind (read : readLiteral buf pos k incremental = some (rep, pos')) :
    ∃ ref value, rep = .literal incremental ref value := by
  obtain ⟨_, -, read⟩ := bind_eq_some_iff.mp read
  obtain ⟨_, -, read⟩ := bind_eq_some_iff.mp read
  obtain ⟨_, -, read⟩ := bind_eq_some_iff.mp read
  simp only [some.injEq, Prod.mk.injEq] at read
  exact ⟨_, _, read.1.symm⟩

lemma incremental_at (at_ : s.At pos fields t) (read : readLiteral buf pos 6 true = some (rep, pos'))
    (step : t.step rep = some (emitted, t')) (clean : NulFree emitted) :
    ∃ s', s.incremental buf = .ok s' ∧ s'.At pos' (fields ++ emitted) t' := by
  obtain ⟨ref, value, rfl⟩ := readLiteral_kind read
  obtain ⟨name, named, same⟩ := map_eq_some_iff.mp step
  obtain ⟨rfl, rfl⟩ := same
  obtain ⟨cleanName, cleanValue⟩ := clean _ mem_cons_self
  obtain ⟨i, n, v, literal, rfl, rfl⟩ := literal_at at_ read named cleanName cleanValue
  have same := Hpack.insert_toTable at_.valid n v
  obtain ⟨valid, inserted⟩ := HpackTable.insert_spec at_.valid n v
  rw [← same] at valid inserted
  refine ⟨_, by rw [incremental, literal], ?_⟩
  rw [← at_.table, ← inserted]
  exact at_.hand pos' valid _

lemma plain_at (at_ : s.At pos fields t) (read : readLiteral buf pos 4 false = some (rep, pos'))
    (step : t.step rep = some (emitted, t')) (clean : NulFree emitted) :
    ∃ s', s.plain buf = .ok s' ∧ s'.At pos' (fields ++ emitted) t' := by
  obtain ⟨ref, value, rfl⟩ := readLiteral_kind read
  obtain ⟨name, named, same⟩ := map_eq_some_iff.mp step
  obtain ⟨rfl, rfl⟩ := same
  obtain ⟨cleanName, cleanValue⟩ := clean _ mem_cons_self
  obtain ⟨i, n, v, literal, rfl, rfl⟩ := literal_at at_ read named cleanName cleanValue
  refine ⟨_, by rw [plain, literal], ?_⟩
  rw [← at_.table]
  exact at_.hand pos' at_.valid s.stale

lemma step_at (at_ : s.At pos fields t) (read : readRep buf pos = some (rep, pos'))
    (step : t.step rep = some (emitted, t')) (clean : NulFree emitted) :
    ∃ b s', buf[pos]? = some b ∧ s.step buf b = .ok s' ∧ s'.At pos' (fields ++ emitted) t' := by
  obtain ⟨b, here, read⟩ := bind_eq_some_iff.mp read
  obtain ⟨indexed, literal, update⟩ := octet_masks b
  refine ⟨b, ?_⟩
  unfold Scan.step
  split at read
  next high =>
    obtain ⟨⟨i, after⟩, integer, same⟩ := map_eq_some_iff.mp read
    obtain ⟨rfl, rfl⟩ := same
    rw [if_pos (indexed.mpr high)]
    obtain ⟨s', done, there⟩ := indexed_at at_ integer step
    exact ⟨s', here, done, there⟩
  rename_i low
  rw [if_neg (indexed.not.mpr low)]
  split at read
  next middle =>
    rw [if_pos ((literal (by omega)).mpr middle)]
    obtain ⟨s', done, there⟩ := incremental_at at_ read step clean
    exact ⟨s', here, done, there⟩
  rename_i lower
  rw [if_neg ((literal (by omega)).not.mpr lower)]
  split at read
  next resize =>
    obtain ⟨⟨n, after⟩, integer, same⟩ := map_eq_some_iff.mp read
    obtain ⟨rfl, rfl⟩ := same
    rw [if_pos ((update (by omega)).mpr resize)]
    obtain ⟨s', done, there⟩ := sizeUpdate_at at_ integer step
    exact ⟨s', here, done, there⟩
  next lowest =>
    rw [if_neg ((update (by omega)).not.mpr lowest)]
    obtain ⟨s', done, there⟩ := plain_at at_ read step clean
    exact ⟨s', here, done, there⟩

lemma readLiteral_pos (read : readLiteral buf pos k incremental = some (rep, pos')) : pos < pos' := by
  obtain ⟨⟨i, pos₁⟩, index, read⟩ := bind_eq_some_iff.mp read
  obtain ⟨⟨ref, pos₂⟩, name, read⟩ := bind_eq_some_iff.mp read
  obtain ⟨⟨value, pos₃⟩, string, read⟩ := bind_eq_some_iff.mp read
  simp only [some.injEq, Prod.mk.injEq] at read
  have first := H2.decodeInteger_pos index
  have last := H2.decodeStringCounted_pos string
  have middle : pos₁ ≤ pos₂ := by
    unfold readName at name
    split at name
    · obtain ⟨⟨text, after⟩, found, same⟩ := map_eq_some_iff.mp name
      simp only [Prod.mk.injEq] at same
      exact same.2 ▸ le_of_lt (H2.decodeStringCounted_pos found)
    · simp only [some.injEq, Prod.mk.injEq] at name
      omega
  omega

lemma readRep_pos (read : readRep buf pos = some (rep, pos')) : pos < pos' := by
  obtain ⟨b, -, read⟩ := bind_eq_some_iff.mp read
  split at read
  · obtain ⟨⟨i, after⟩, integer, same⟩ := map_eq_some_iff.mp read
    simp only [Prod.mk.injEq] at same
    exact same.2 ▸ H2.decodeInteger_pos integer
  split at read
  · exact readLiteral_pos read
  split at read
  · obtain ⟨⟨n, after⟩, integer, same⟩ := map_eq_some_iff.mp read
    simp only [Prod.mk.injEq] at same
    exact same.2 ▸ H2.decodeInteger_pos integer
  · exact readLiteral_pos read

lemma loop_at (start : s.At 0 [] t) (reads : Reads buf t pos fields t₁) (clean : NulFree fields) :
    ∃ turns s', loop buf buf.length s = loop buf turns s' ∧ s'.At pos fields t₁ ∧ buf.length ≤ pos + turns := by
  induction reads with
  | start => exact ⟨buf.length, s, rfl, start, by omega⟩
  | @next pos pos' fields emitted t₁ t₂ rep before read stepped ih =>
    obtain ⟨cleanBefore, cleanHere⟩ := List.forall_mem_append.mp clean
    obtain ⟨turns, s₁, same, at_, enough⟩ := ih cleanBefore
    obtain ⟨b, s₂, here, step, there⟩ := step_at at_ read stepped cleanHere
    have inside := (List.getElem?_eq_some_iff.mp here).1
    have forward := readRep_pos read
    obtain ⟨turns, rfl⟩ : ∃ n, turns = n + 1 := ⟨turns - 1, by omega⟩
    refine ⟨turns, s₂, ?_, there, by omega⟩
    rw [same, loop, at_.pos, here]
    dsimp only
    rw [step]
    rfl

end Scan

lemma Hpack.decode_of_decodes {t : Hpack} {block : Bytes} {fields : List Field} {t' : Rfc7541.Table}
    (valid : t.toTable.Valid) (decodes : Decodes block t.toTable.toRfc fields t') (clean : NulFree fields) :
    (t.decode block).1 = true ∧ (t.decode block).2.fields.map fieldBytes = fields ∧
      (t.decode block).2.table.toTable.toRfc = t' ∧ (t.decode block).2.table.toTable.Valid := by
  obtain ⟨pos, reads, whole⟩ := decodes
  have start : Scan.At ⟨0, t, [], false⟩ 0 [] t.toTable.toRfc := ⟨rfl, rfl, rfl, valid⟩
  obtain ⟨turns, s, same, at_, -⟩ := Scan.loop_at start reads clean
  have ends : Scan.loop block turns s = .ok s := by
    cases turns with
    | zero => rfl
    | succ turns =>
      have past : block[s.pos]? = none := by
        rw [at_.pos]
        exact getElem?_eq_none_iff.mpr whole
      rw [Scan.loop, past]
  rw [decode, same, ends]
  exact ⟨rfl, at_.fields, at_.table, at_.valid⟩

end Cwist.Grpc
