import Cwist.Seq.Message

namespace Cwist.Seq
open List Blocks

structure Assembler where
  haveState : Bool
  total : Nat
  chunkSize : Nat
  totalLen : Nat
  dataCap : Nat
  maxDataLen : Nat
  data : Bytes
  received : List Bool
  payloadLens : List Nat
  receivedCount : Nat
  contaminated : Bool
  deriving DecidableEq

namespace Assembler

def createLimited (maxDataLen : Nat) : Assembler := ⟨false, 0, 0, 0, 0, maxDataLen, [], [], [], 0, false⟩

def create : Assembler := createLimited 0

def ceiling (a : Assembler) : Nat := if a.maxDataLen ≠ 0 then a.maxDataLen else maxReassembledSize

def allocate (a : Assembler) (chunk : Chunk) : Assembler :=
  { a with
    haveState := true
    total := chunk.total
    chunkSize := chunk.chunkSize
    dataCap := chunk.total * chunk.chunkSize
    data := replicate (chunk.total * chunk.chunkSize) 0
    received := replicate chunk.total false
    payloadLens := replicate chunk.total 0 }

def layout (a : Assembler) (chunk : Chunk) : Bool × Assembler :=
  let announced := { a with total := chunk.total, chunkSize := chunk.chunkSize }
  if chunk.total > (2 ^ 64 - 1) / chunk.chunkSize then (false, announced)
  else if chunk.total * chunk.chunkSize > a.ceiling then (false, { announced with dataCap := 0 })
  else (true, a.allocate chunk)

def put (a : Assembler) (chunk : Chunk) : Assembler :=
  let index := chunk.seq - 1
  let offset := index * a.chunkSize
  { a with
    data := overwrite a.data offset (chunk.payload.take chunk.payloadLen)
    received := a.received.set index true
    payloadLens := a.payloadLens.set index chunk.payloadLen
    totalLen := if chunk.seq = chunk.total then offset + chunk.payloadLen else a.totalLen
    receivedCount := (a.receivedCount + 1) % 2 ^ 16 }

def store (a : Assembler) (chunk : Chunk) : Bool × Assembler :=
  let index := chunk.seq - 1
  let offset := index * a.chunkSize
  if a.received.getD index false then
    if a.payloadLens.getD index 0 = chunk.payloadLen ∧
        (a.data.drop offset).take chunk.payloadLen = chunk.payload.take chunk.payloadLen then (true, a)
    else (false, { a with contaminated := true })
  else if offset > a.dataCap ∨ chunk.payloadLen > a.dataCap - offset then (false, a)
  else (true, a.put chunk)

def feed (a : Assembler) (chunk : Chunk) : Bool × Assembler :=
  if ¬chunk.WellFormed then (false, a)
  else if !a.haveState then
    match a.layout chunk with
    | (false, a) => (false, a)
    | (true, a) => a.store chunk
  else if chunk.total ≠ a.total ∨ chunk.chunkSize ≠ a.chunkSize then (false, a)
  else a.store chunk

def isComplete (a : Assembler) : Bool :=
  a.haveState && !a.contaminated && a.receivedCount == a.total && a.received.getD (a.total - 1) false &&
    decide (a.totalLen > 0)

def getData (a : Assembler) : Option Bytes := if a.isComplete then some (a.data.take a.totalLen) else none

def deliver (a : Assembler) (raw : Bytes) : Bool × Assembler :=
  match chunkParse raw with
  | none => (false, a)
  | some chunk => a.feed chunk

def deliverAll (a : Assembler) : List Bytes → List Bool × Assembler
  | [] => ([], a)
  | raw :: rest =>
    let (ok, a) := a.deliver raw
    let (oks, a) := a.deliverAll rest
    (ok :: oks, a)

section Step
variable {msg : Bytes} {c : Nat} {got : List Nat} {a : Assembler}

/-- The assembler has the layout of the message and has received the chunks at the places `got`. -/
structure Collects (msg : Bytes) (c : Nat) (got : List Nat) (a : Assembler) : Prop where
  haveState : a.haveState = true
  total : a.total = count c msg.length
  chunkSize : a.chunkSize = c
  dataCap : a.dataCap = count c msg.length * c
  dataLength : a.data.length = count c msg.length * c
  receivedLength : a.received.length = count c msg.length
  lensLength : a.payloadLens.length = count c msg.length
  received : ∀ i < count c msg.length, a.received.getD i false = decide (i ∈ got)
  lens : ∀ i < count c msg.length, i ∈ got → a.payloadLens.getD i 0 = (block c msg i).length
  filled : Blocks.Filled c msg a.data (· ∈ got)
  count : a.receivedCount = a.received.count true
  totalLen : a.totalLen = if Blocks.count c msg.length - 1 ∈ got then msg.length else 0
  clean : a.contaminated = false

variable {i : Nat} {places : List Nat}

lemma block_take (i : Nat) : (Piece msg c i).payload.take (Piece msg c i).payloadLen = block c msg i :=
  take_length

lemma allocate_collects (msg : Bytes) (c i : Nat) : Collects msg c [] (create.allocate (Piece msg c i)) where
  haveState := rfl
  total := rfl
  chunkSize := rfl
  dataCap := rfl
  dataLength := length_replicate
  receivedLength := length_replicate
  lensLength := length_replicate
  received j inside := by
    simp [allocate, Piece, inside]
  lens j inside none_ := by simp at none_
  filled k bound none_ := by simp at none_
  count := by simp [allocate, create, createLimited, count_replicate]
  totalLen := rfl
  clean := rfl

lemma layout_fits (positive : 0 < c) (fits : count c msg.length * c ≤ maxReassembledSize) :
    create.layout (Piece msg c i) = (true, create.allocate (Piece msg c i)) := by
  have small : count c msg.length ≤ (2 ^ 64 - 1) / c := by
    rw [Nat.le_div_iff_mul_le positive]
    exact le_trans fits (by decide)
  have narrow : ¬(Piece msg c i).total > (2 ^ 64 - 1) / (Piece msg c i).chunkSize := Nat.not_lt_of_le small
  have below : ¬(Piece msg c i).total * (Piece msg c i).chunkSize > create.ceiling := Nat.not_lt_of_le fits
  rw [layout, if_neg narrow, if_neg below]

lemma layout_exceeds (exceeds : maxReassembledSize < count c msg.length * c) :
    (create.layout (Piece msg c i)).1 = false := by
  have large : (Piece msg c i).total * (Piece msg c i).chunkSize > create.ceiling := exceeds
  rw [layout]
  split <;> rfl

section
variable (positive : 0 < c)
include positive

lemma put_collects (few : count c msg.length ≤ maxChunks)
    (collects : Collects msg c got a) (inside : i < count c msg.length) (new : i ∉ got) :
    Collects msg c (i :: got) (a.put (Piece msg c i)) := by
  have start := lt_of_lt_count positive inside
  have blockLength : (block c msg i).length = min c (msg.length - i * c) := block_length i
  have room : i * c + (block c msg i).length ≤ a.data.length := by
    have : i * c + c ≤ count c msg.length * c := by
      rw [← Nat.succ_mul]
      exact Nat.mul_le_mul_right c inside
    rw [collects.dataLength]
    omega
  have data : (a.put (Piece msg c i)).data = overwrite a.data (i * c) (block c msg i) := by
    have put : (a.put (Piece msg c i)).data = overwrite a.data (i * a.chunkSize)
      ((Piece msg c i).payload.take (Piece msg c i).payloadLen) := rfl
    rw [put, block_take, collects.chunkSize]
  have bound : i < a.received.length := by rw [collects.receivedLength]; exact inside
  have missing : a.received.getD i false = false := by rw [collects.received i inside, decide_eq_false new]
  refine ⟨collects.haveState, collects.total, collects.chunkSize, collects.dataCap, ?_, ?_, ?_, ?_, ?_, ?_, ?_, ?_,
    collects.clean⟩
  · rw [data, overwrite_length room, collects.dataLength]
  · exact length_set.trans collects.receivedLength
  · exact length_set.trans collects.lensLength
  · intro j inside
    show (a.received.set i true).getD j false = _
    by_cases here : i = j
    · subst here
      rw [getD_set_self bound, decide_eq_true mem_cons_self]
    · rw [getD_set_ne here, collects.received j inside]
      simp [Ne.symm here]
  · intro j bound arrived
    show (a.payloadLens.set i (block c msg i).length).getD j 0 = _
    by_cases here : i = j
    · subst here
      exact getD_set_self (collects.lensLength.symm ▸ inside)
    · rw [getD_set_ne here]
      exact collects.lens j bound ((mem_cons.mp arrived).resolve_left (Ne.symm here))
  · have more := collects.filled.overwrite positive room
    rw [data]
    intro k bound arrived
    exact more k bound (mem_cons.mp arrived)
  · have counted : (a.put (Piece msg c i)).receivedCount = (a.receivedCount + 1) % 2 ^ 16 := rfl
    have set : (a.put (Piece msg c i)).received = a.received.set i true := rfl
    have most : a.received.count true ≤ a.received.length := count_le_length
    have limit : maxChunks + 1 < 2 ^ 16 := by decide
    rw [collects.receivedLength] at most
    rw [counted, set, count_set_true bound missing, collects.count, Nat.mod_eq_of_lt (by omega)]
  · have last : (a.put (Piece msg c i)).totalLen =
        if i + 1 = count c msg.length then i * a.chunkSize + (block c msg i).length else a.totalLen := rfl
    rw [last, collects.chunkSize, collects.totalLen]
    by_cases final : i + 1 = count c msg.length
    · have upper : msg.length ≤ (i + 1) * c := final ▸ le_count_mul positive
      rw [Nat.succ_mul] at upper
      rw [if_pos final, if_pos (by rw [← final]; simp)]
      omega
    · have other : Blocks.count c msg.length - 1 ≠ i := by omega
      rw [if_neg final]
      simp only [mem_cons, other, false_or]

lemma store_new (collects : Collects msg c got a) (inside : i < count c msg.length) (new : i ∉ got) :
    a.store (Piece msg c i) = (true, a.put (Piece msg c i)) := by
  have missing : a.received.getD i false = false := by
    rw [collects.received i inside, decide_eq_false new]
  have blockLength : (block c msg i).length = min c (msg.length - i * c) := block_length i
  have whole : i * c + c ≤ count c msg.length * c := by
    rw [← Nat.succ_mul]
    exact Nat.mul_le_mul_right c inside
  rw [store, show (Piece msg c i).seq - 1 = i from rfl, collects.chunkSize, if_neg (by rw [missing]; simp), if_neg]
  rw [collects.dataCap, show (Piece msg c i).payloadLen = (block c msg i).length from rfl]
  omega

lemma store_duplicate (collects : Collects msg c got a)
    (inside : i < count c msg.length) (old : i ∈ got) : a.store (Piece msg c i) = (true, a) := by
  have place : (Piece msg c i).seq - 1 = i := rfl
  have arrived : a.received.getD i false = true := by
    rw [collects.received i inside, decide_eq_true old]
  rw [store, place, block_take, collects.chunkSize, if_pos arrived, if_pos]
  exact ⟨collects.lens i inside old, collects.filled.read positive old⟩

lemma feed_collects (few : count c msg.length ≤ maxChunks)
    (collects : Collects msg c got a) (inside : i < count c msg.length) :
    ∃ a', a.feed (Piece msg c i) = (true, a') ∧ Collects msg c (i :: got) a' := by
  have feed : a.feed (Piece msg c i) = a.store (Piece msg c i) := by
    rw [feed, if_neg (not_not.mpr (piece_wellFormed positive few inside)), if_neg (by simp [collects.haveState])]
    rw [collects.total, collects.chunkSize]
    simp [Piece]
  rw [feed]
  by_cases old : i ∈ got
  · refine ⟨a, store_duplicate positive collects inside old, ?_⟩
    have same : ∀ j, j ∈ i :: got ↔ j ∈ got := by
      intro j
      rw [mem_cons]
      exact or_iff_right_of_imp (fun here => here ▸ old)
    exact { collects with
      received := fun j bound => by rw [collects.received j bound]; simp only [same]
      lens := fun j bound arrived => collects.lens j bound ((same j).mp arrived)
      filled := fun k bound arrived => collects.filled k bound ((same _).mp arrived)
      totalLen := by rw [collects.totalLen]; simp only [same] }
  · exact ⟨_, store_new positive collects inside old, put_collects positive few collects inside old⟩

lemma feed_first (few : count c msg.length ≤ maxChunks)
    (fits : count c msg.length * c ≤ maxReassembledSize) (inside : i < count c msg.length) :
    ∃ a', create.feed (Piece msg c i) = (true, a') ∧ Collects msg c [i] a' := by
  have fresh := allocate_collects msg c i
  refine ⟨_, ?_, put_collects positive few fresh inside not_mem_nil⟩
  rw [feed, if_neg (not_not.mpr (piece_wellFormed positive few inside)), layout_fits positive fits]
  exact store_new positive fresh inside not_mem_nil

end

lemma feed_exceeds (exceeds : maxReassembledSize < count c msg.length * c) :
    (create.feed (Piece msg c i)).1 = false := by
  have refused := layout_exceeds (i := i) exceeds
  rw [feed]
  split
  · rfl
  cases laid : create.layout (Piece msg c i) with
  | mk ok a =>
    rw [laid] at refused
    obtain rfl : ok = false := refused
    rfl

lemma Collects.isComplete_iff (positive : 0 < c) (nonempty : 0 < msg.length) (collects : Collects msg c got a) :
    a.isComplete = true ↔ ∀ i < Blocks.count c msg.length, i ∈ got := by
  have chunks := count_pos positive nonempty
  have everyOne : a.receivedCount = a.total ↔ ∀ i < Blocks.count c msg.length, i ∈ got := by
    rw [collects.count, collects.total, ← collects.receivedLength, count_eq_length]
    constructor
    · intro all i inside
      have arrived := collects.received i (collects.receivedLength ▸ inside)
      rw [getD_eq_getElem?_getD, getElem?_eq_getElem inside, ← all _ (getElem_mem inside)] at arrived
      exact of_decide_eq_true arrived.symm
    · intro all b member
      obtain ⟨i, inside, rfl⟩ := getElem_of_mem member
      have arrived := collects.received i (collects.receivedLength ▸ inside)
      rw [getD_eq_getElem?_getD, getElem?_eq_getElem inside, Option.getD_some] at arrived
      rw [arrived, decide_eq_true (all i inside)]
  rw [isComplete, collects.haveState, collects.clean]
  simp only [Bool.not_false, Bool.true_and, Bool.and_eq_true, beq_iff_eq, decide_eq_true_eq]
  constructor
  · rintro ⟨⟨counted, -⟩, -⟩
    exact everyOne.mp counted
  intro all
  have last := all (Blocks.count c msg.length - 1) (by omega)
  refine ⟨⟨everyOne.mpr all, ?_⟩, ?_⟩
  · rw [collects.total, collects.received _ (by omega), decide_eq_true last]
  · rw [collects.totalLen, if_pos last]
    exact nonempty

lemma Collects.getData (positive : 0 < c) (nonempty : 0 < msg.length) (collects : Collects msg c got a)
    (all : ∀ i < Blocks.count c msg.length, i ∈ got) : a.getData = some msg := by
  have last : Blocks.count c msg.length - 1 ∈ got := all _ (by have := count_pos positive nonempty; omega)
  rw [Assembler.getData, if_pos ((collects.isComplete_iff positive nonempty).mpr all), collects.totalLen, if_pos last,
    collects.filled.complete positive all]

def wire (msg : Bytes) (c i : Nat) : Bytes := splitChunk msg c (count c msg.length) i

section
variable (positive : 0 < c) (width : c < 2 ^ 16) (few : count c msg.length ≤ maxChunks)
include positive width few

lemma deliverAll_collects (collects : Collects msg c got a) (inside : ∀ i ∈ places, i < count c msg.length) :
    ∃ a', a.deliverAll (places.map (wire msg c)) = (places.map fun _ => true, a') ∧
      Collects msg c (places.reverse ++ got) a' := by
  induction places generalizing a got with
  | nil => exact ⟨a, rfl, collects⟩
  | cons i rest ih =>
    have here := inside i mem_cons_self
    obtain ⟨a₁, fed, collects₁⟩ := feed_collects positive few collects here
    obtain ⟨a', delivered, collects'⟩ := ih collects₁ fun j member => inside j (mem_cons_of_mem i member)
    refine ⟨a', ?_, by simpa using collects'⟩
    rw [map_cons, deliverAll, deliver, wire, chunkParse_splitChunk positive width few here]
    simp only [fed, delivered, map_cons]

lemma deliverAll_fresh (fits : count c msg.length * c ≤ maxReassembledSize)
    (inside : ∀ i ∈ places, i < count c msg.length) (some_ : places ≠ []) :
    ∃ a', create.deliverAll (places.map (wire msg c)) = (places.map fun _ => true, a') ∧
      Collects msg c places.reverse a' := by
  cases places with
  | nil => exact absurd rfl some_
  | cons i rest =>
    have here := inside i mem_cons_self
    obtain ⟨a₁, fed, collects₁⟩ := feed_first positive few fits here
    obtain ⟨a', delivered, collects'⟩ :=
      deliverAll_collects positive width few collects₁ fun j member => inside j (mem_cons_of_mem i member)
    refine ⟨a', ?_, by simpa using collects'⟩
    rw [map_cons, deliverAll, deliver, wire, chunkParse_splitChunk positive width few here]
    simp only [fed, delivered, map_cons]

lemma wire_injective {j : Nat} (insideI : i < count c msg.length) (insideJ : j < count c msg.length)
    (same : wire msg c i = wire msg c j) : i = j := by
  have parsed := chunkParse_splitChunk positive width few insideI
  rw [← wire, same, wire, chunkParse_splitChunk positive width few insideJ] at parsed
  have seqs := congrArg Chunk.seq (Option.some.inj parsed)
  simp only [Piece] at seqs
  omega

end

lemma exists_places (delivery : List Bytes)
    (member : ∀ raw ∈ delivery, raw ∈ (range (count c msg.length)).map (wire msg c)) :
    ∃ places : List Nat, (∀ i ∈ places, i < count c msg.length) ∧ delivery = places.map (wire msg c) := by
  induction delivery with
  | nil => exact ⟨[], by simp, rfl⟩
  | cons raw rest ih =>
    obtain ⟨places, inside, rfl⟩ := ih fun raw' there => member raw' (mem_cons_of_mem raw there)
    obtain ⟨i, here, rfl⟩ := mem_map.mp (member raw mem_cons_self)
    refine ⟨i :: places, ?_, rfl⟩
    intro j there
    rcases mem_cons.mp there with rfl | there
    · exact mem_range.mp here
    · exact inside j there

lemma covers_iff (positive : 0 < c) (width : c < 2 ^ 16)
    (few : count c msg.length ≤ maxChunks) (inside : ∀ i ∈ places, i < count c msg.length) :
    (∀ raw ∈ (range (count c msg.length)).map (wire msg c), raw ∈ places.map (wire msg c)) ↔
      ∀ i < count c msg.length, i ∈ places := by
  simp only [mem_map, mem_range, forall_exists_index, and_imp, forall_apply_eq_imp_iff₂]
  constructor
  · intro covers i bound
    obtain ⟨j, there, same⟩ := covers i bound
    rwa [← wire_injective positive width few (inside j there) bound same]
  · intro all i bound
    exact ⟨i, all i bound, rfl⟩

end Step

end Assembler

open Assembler

/-- What the splitter's chunks owe the receiver: in any order, and with exact duplicates, every chunk is
accepted, the message is complete as soon as each of them has arrived, and it is the original. -/
def Reassembles (chunks : List Bytes) (msg : Bytes) : Prop :=
  ∀ delivery : List Bytes, (∀ raw ∈ delivery, raw ∈ chunks) → (∀ raw ∈ chunks, raw ∈ delivery) →
    (∀ ok ∈ (create.deliverAll delivery).1, ok = true) ∧
      (∀ part, part <+: delivery → ((create.deliverAll part).2.isComplete = true ↔ ∀ raw ∈ chunks, raw ∈ part)) ∧
      (create.deliverAll delivery).2.getData = some msg

section
variable {msg : Bytes} {c : Nat} (positive : 0 < c) (width : c < 2 ^ 16) (nonempty : 0 < msg.length) (few : count c msg.length ≤ maxChunks)
include positive width nonempty few

lemma reassembles_of_fits (fits : count c msg.length * c ≤ maxReassembledSize) :
    Reassembles ((range (count c msg.length)).map (wire msg c)) msg := by
  intro delivery member covers
  have chunks := count_pos positive nonempty
  obtain ⟨places, inside, rfl⟩ := exists_places delivery member
  have all := (covers_iff positive width few inside).mp covers
  have some_ := ne_nil_of_mem (all 0 chunks)
  obtain ⟨a, delivered, collects⟩ := deliverAll_fresh positive width few fits inside some_
  refine ⟨?_, ?_, ?_⟩
  · rw [delivered]
    simp
  · intro part initial
    obtain ⟨first, short, rfl⟩ := prefix_map_iff.mp initial
    have within : ∀ i ∈ first, i < count c msg.length := fun i there => inside i (short.subset there)
    rw [covers_iff positive width few within]
    by_cases none_ : first = []
    · subst none_
      refine iff_of_false (by rw [map_nil]; decide) fun every => ?_
      exact not_mem_nil (every 0 chunks)
    · obtain ⟨b, partly, holds⟩ := deliverAll_fresh positive width few fits within none_
      rw [partly, holds.isComplete_iff positive nonempty]
      simp only [mem_reverse]
  · rw [delivered]
    exact collects.getData positive nonempty (by simpa using all)

lemma not_reassembles_of_exceeds (exceeds : maxReassembledSize < count c msg.length * c) :
    ¬Reassembles ((range (count c msg.length)).map (wire msg c)) msg := by
  intro reassembles
  have chunks := count_pos positive nonempty
  -- in their own order, the very first chunk is refused
  obtain ⟨accepted, -⟩ := reassembles _ (fun _ there => there) fun _ there => there
  have first : (create.deliver (wire msg c 0)).1 = false := by
    rw [deliver, wire, chunkParse_splitChunk positive width few chunks]
    exact feed_exceeds exceeds
  obtain ⟨n, count⟩ := Nat.exists_eq_add_of_lt chunks
  rw [count, range_succ_eq_map, map_cons, deliverAll] at accepted
  have := accepted _ mem_cons_self
  rw [first] at this
  cases this

end

/-- A message that splits is reassembled exactly when its number of chunks times the chunk size is
within the assembler's limit. -/
theorem split_reassembles_iff (msg : Bytes) (c : Nat) (chunks : List Bytes) (width : c < 2 ^ 16)
    (produced : split msg c = some chunks) : Reassembles chunks msg ↔ chunks.length * c ≤ maxReassembledSize := by
  obtain ⟨⟨nonempty, positive, few, -⟩, rfl⟩ := split_eq_some_iff.mp produced
  rw [length_map, length_range]
  constructor
  · intro reassembles
    by_contra exceeds
    exact not_reassembles_of_exceeds positive width nonempty few (by omega) reassembles
  · exact reassembles_of_fits positive width nonempty few

/-- Three octets in chunks of two. -/
theorem split_reassembles_iff_short :
    Reassembles [[0, 1, 0, 2, 0, 2, 0, 2, 7, 8], [0, 2, 0, 2, 0, 1, 0, 2, 9]] [7, 8, 9] ↔ 2 * 2 ≤ maxReassembledSize :=
  split_reassembles_iff [7, 8, 9] 2 _ (by decide) (by decide)

/-- A message of the largest size in chunks of the largest size: the splitter takes it, the assembler
does not, since 1025 full chunks exceed its limit. -/
theorem split_largest_not_reassembled : ∃ chunks, split (replicate (64 * 1024 * 1024) 0) 65535 = some chunks ∧
      ¬Reassembles chunks (replicate (64 * 1024 * 1024) 0) := by
  have length : (replicate (64 * 1024 * 1024) (0 : UInt8)).length = 64 * 1024 * 1024 := length_replicate
  have count : Blocks.count 65535 (64 * 1024 * 1024) = 1025 := by decide
  refine ⟨_, split_eq_some_iff.mpr ⟨?_, rfl⟩, ?_⟩
  · rw [length, count]
    decide
  apply not_reassembles_of_exceeds
  · decide
  · decide
  · rw [length]
    decide
  · rw [length, count]
    decide
  · rw [length, count]
    decide

end Cwist.Seq
