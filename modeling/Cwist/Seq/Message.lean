import Cwist.Basic
import Cwist.Lib.Blocks

/-!
# Sequenced messages

`cwist_seq_split` cuts a message into chunks with an eight-octet header, and `cwist_seq_chunk_parse` reads one of
them.
-/

namespace Cwist.Seq
open List Blocks

def headerSize : Nat := 8

def maxChunks : Nat := 8192

def maxReassembledSize : Nat := 64 * 1024 * 1024

structure Chunk where
  seq : Nat
  total : Nat
  payloadLen : Nat
  chunkSize : Nat
  payload : Bytes
  deriving DecidableEq

def readU16 (data : Bytes) (pos : Nat) : Nat := (data.getD pos 0).toNat <<< 8 ||| (data.getD (pos + 1) 0).toNat

def writeU16 (v : Nat) : Bytes := [UInt8.ofNat (v >>> 8), UInt8.ofNat v]

/-- The checks on a chunk's fields that `cwist_seq_chunk_parse` and `cwist_seq_assembler_feed` share. -/
def Chunk.WellFormed (chunk : Chunk) : Prop :=
  ¬(chunk.seq = 0 ∨ chunk.total = 0 ∨ chunk.total > maxChunks ∨ chunk.seq > chunk.total) ∧
    ¬(chunk.payloadLen = 0 ∨ chunk.chunkSize = 0) ∧ ¬chunk.payloadLen > chunk.chunkSize ∧
    ¬(chunk.seq ≠ chunk.total ∧ chunk.payloadLen ≠ chunk.chunkSize)

instance (chunk : Chunk) : Decidable chunk.WellFormed := inferInstanceAs (Decidable (_ ∧ _))

def chunkParse (data : Bytes) : Option Chunk :=
  if data.length < headerSize then none
  else
    let chunk : Chunk := ⟨readU16 data 0, readU16 data 2, readU16 data 4, readU16 data 6, data.drop headerSize⟩
    if chunk.WellFormed ∧ ¬data.length - headerSize < chunk.payloadLen then some chunk else none

def chunkBuildHeader (seq total payloadLen chunkSize : Nat) : Bytes :=
  writeU16 seq ++ writeU16 total ++ writeU16 payloadLen ++ writeU16 chunkSize

def splitChunk (data : Bytes) (chunkPayloadSize total i : Nat) : Bytes :=
  let offset := i * chunkPayloadSize
  let plen := min (data.length - offset) chunkPayloadSize
  chunkBuildHeader (i + 1) total plen chunkPayloadSize ++ (data.drop offset).take plen

def split (data : Bytes) (chunkPayloadSize : Nat) : Option (List Bytes) :=
  if data.length = 0 ∨ chunkPayloadSize = 0 then none
  else
    let total := (data.length + chunkPayloadSize - 1) / chunkPayloadSize % 2 ^ 32
    if total = 0 ∨ total > 65535 ∨ total > maxChunks ∨ data.length > maxReassembledSize then none
    else some ((range total).map (splitChunk data chunkPayloadSize total))

lemma u16_join {v : Nat} (width : v < 2 ^ 16) : (UInt8.ofNat (v >>> 8)).toNat <<< 8 ||| (UInt8.ofNat v).toNat = v := by
  rw [UInt8.toNat_ofNat', UInt8.toNat_ofNat', ← Nat.shiftLeft_add_eq_or_of_lt (show v % 256 < 2 ^ 8 by omega)]
  omega

lemma chunkParse_build {seq total payloadLen chunkSize : Nat} {payload : Bytes} (seqWidth : seq < 2 ^ 16)
    (totalWidth : total < 2 ^ 16) (lenWidth : payloadLen < 2 ^ 16) (sizeWidth : chunkSize < 2 ^ 16)
    (whole : payloadLen = payload.length) (ready : Chunk.WellFormed ⟨seq, total, payloadLen, chunkSize, payload⟩) :
    chunkParse (chunkBuildHeader seq total payloadLen chunkSize ++ payload) =
      some ⟨seq, total, payloadLen, chunkSize, payload⟩ := by
  have length : (chunkBuildHeader seq total payloadLen chunkSize ++ payload).length = headerSize + payload.length := by
    rw [length_append]
    rfl
  have seqRead : readU16 (chunkBuildHeader seq total payloadLen chunkSize ++ payload) 0 = seq := u16_join seqWidth
  have totalRead : readU16 (chunkBuildHeader seq total payloadLen chunkSize ++ payload) 2 = total := u16_join totalWidth
  have lenRead : readU16 (chunkBuildHeader seq total payloadLen chunkSize ++ payload) 4 = payloadLen := u16_join lenWidth
  have sizeRead : readU16 (chunkBuildHeader seq total payloadLen chunkSize ++ payload) 6 = chunkSize := u16_join sizeWidth
  have rest : (chunkBuildHeader seq total payloadLen chunkSize ++ payload).drop headerSize = payload := rfl
  rw [chunkParse, if_neg (by omega)]
  dsimp only
  rw [seqRead, totalRead, lenRead, sizeRead, rest, if_pos ⟨ready, by omega⟩]

def Piece (data : Bytes) (c i : Nat) : Chunk :=
  ⟨i + 1, count c data.length, (block c data i).length, c, block c data i⟩

variable {data : Bytes}

lemma piece_wellFormed {c i : Nat} (positive : 0 < c) (few : count c data.length ≤ maxChunks)
    (inside : i < count c data.length) : (Piece data c i).WellFormed := by
  have start := lt_of_lt_count positive inside
  have length : (block c data i).length = min c (data.length - i * c) := block_length i
  -- every chunk but the last is full
  have full : i + 1 ≠ count c data.length → (block c data i).length = c := by
    intro more
    have := full_of_next positive (show i + 1 < count c data.length by omega)
    omega
  simp only [Chunk.WellFormed, Piece]
  refine ⟨by omega, by omega, by omega, ?_⟩
  rintro ⟨more, short⟩
  exact short (full more)

lemma chunkParse_splitChunk {c i : Nat} (positive : 0 < c) (width : c < 2 ^ 16)
    (few : count c data.length ≤ maxChunks) (inside : i < count c data.length) :
    chunkParse (splitChunk data c (count c data.length) i) = some (Piece data c i) := by
  have length : (block c data i).length = min (data.length - i * c) c := by
    rw [block_length, min_comm]
  have same : (data.drop (i * c)).take (min (data.length - i * c) c) = block c data i := by
    rw [block, min_comm, ← length_drop, ← take_eq_take_min]
  have limit : maxChunks < 2 ^ 16 := by decide
  simp only [splitChunk, same]
  rw [← length]
  exact chunkParse_build (by omega) (by omega) (by omega) width rfl (piece_wellFormed positive few inside)

lemma split_eq_some_iff {c : Nat} {chunks : List Bytes} : split data c = some chunks ↔
      (0 < data.length ∧ 0 < c ∧ count c data.length ≤ maxChunks ∧ data.length ≤ maxReassembledSize) ∧
        chunks = (range (count c data.length)).map (splitChunk data c (count c data.length)) := by
  rw [split]
  by_cases empty : data.length = 0 ∨ c = 0
  · rw [if_pos empty]
    exact iff_of_false (by simp) (by omega)
  rw [if_neg empty]
  have positive : 0 < count c data.length := count_pos (by omega) (by omega)
  change (if count c data.length % 2 ^ 32 = 0 ∨ count c data.length % 2 ^ 32 > 65535 ∨
      count c data.length % 2 ^ 32 > maxChunks ∨ data.length > maxReassembledSize then none
    else some ((range (count c data.length % 2 ^ 32)).map
      (splitChunk data c (count c data.length % 2 ^ 32)))) = some chunks ↔ _
  by_cases long : data.length > maxReassembledSize
  · rw [if_pos (by omega)]
    exact iff_of_false (by simp) (by omega)
  have short : count c data.length < 2 ^ 32 := by
    have : count c data.length ≤ data.length := count_le (by omega) (by omega)
    unfold maxReassembledSize at long
    omega
  rw [Nat.mod_eq_of_lt short]
  by_cases many : count c data.length > maxChunks
  · rw [if_pos (by omega)]
    exact iff_of_false (by simp) (by omega)
  · have limit : maxChunks ≤ 65535 := by decide
    rw [if_neg (by omega), Option.some.injEq, and_iff_right (by omega), eq_comm]

end Cwist.Seq
