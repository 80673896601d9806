import Cwist.Lib.Machine
import Cwist.Seq.Assembler

namespace Cwist.Seq

structure Allocs where
  data : Bool
  received : Bool
  payloadLens : Bool
  deriving DecidableEq

def Allocs.all (m : Allocs) : Bool := m.data && m.received && m.payloadLens

namespace Assembler

def reset (a : Assembler) : Assembler := createLimited a.maxDataLen

section

variable (m : Allocs) (a : Assembler) (chunk : Chunk)

def layoutWith : Bool × Assembler :=
  match a.layout chunk with
  | (false, a) => (false, a)
  | (true, a) => if m.all then (true, a) else (false, createLimited 0)

def feedWith : Bool × Assembler :=
  if ¬chunk.WellFormed then (false, a)
  else if !a.haveState then
    match a.layoutWith m chunk with
    | (false, a) => (false, a)
    | (true, a) => a.store chunk
  else if chunk.total ≠ a.total ∨ chunk.chunkSize ≠ a.chunkSize then (false, a)
  else a.store chunk

def buffer : Option Nat :=
  if chunk.WellFormed ∧ a.haveState = false ∧ (a.layout chunk).1 = true ∧ m.data = true then
    some (chunk.total * chunk.chunkSize)
  else none

end

lemma feedWith_all {m : Allocs} (a : Assembler) (chunk : Chunk) (all : m.all = true) : a.feedWith m chunk = a.feed chunk := by
  have laid : a.layoutWith m chunk = a.layout chunk := by
    unfold layoutWith
    rcases a.layout chunk with ⟨_ | _, laid⟩
    · rfl
    · exact if_pos all
  unfold feedWith
  rw [laid]
  rfl

inductive Op where
  | feed (m : Allocs) (chunk : Chunk)
  | reset

def step (a : Assembler) : Op → Assembler
  | .feed m chunk => (a.feedWith m chunk).2
  | .reset => a.reset

def stepBuffer (a : Assembler) : Op → Option Nat
  | .feed m chunk => a.buffer m chunk
  | .reset => none

def allowance (limit : Nat) : Nat := if limit = 0 ∨ limit > maxReassembledSize then maxReassembledSize else limit

/-- No buffer of a run exceeds the allowance. -/
def Bounded (limit : Nat) (ops : List Op) : Prop :=
  Machine.Meets step (fun a op => ∀ size ∈ a.stepBuffer op, size ≤ allowance limit) (createLimited limit) ops

instance (limit : Nat) (ops : List Op) : Decidable (Bounded limit ops) :=
  inferInstanceAs (Decidable (Machine.Meets ..))

def Op.Allocates : Op → Prop
  | .feed m _ => m.all = true
  | .reset => True

section Limit

variable {m : Allocs} {a : Assembler} {chunk : Chunk} {limit : Nat}

lemma store_maxDataLen : (a.store chunk).2.maxDataLen = a.maxDataLen := by
  unfold store
  dsimp only
  split
  · split <;> rfl
  · split <;> rfl

lemma layout_maxDataLen : (a.layout chunk).2.maxDataLen = a.maxDataLen := by
  unfold layout
  split
  · rfl
  · split <;> rfl

lemma feed_maxDataLen : (a.feed chunk).2.maxDataLen = a.maxDataLen := by
  have laid : (a.layout chunk).2.maxDataLen = a.maxDataLen := layout_maxDataLen
  unfold feed
  split
  · rfl
  split
  · split <;> rename_i call <;> rw [call] at laid
    · exact laid
    · exact store_maxDataLen.trans laid
  split
  · rfl
  · exact store_maxDataLen

lemma step_maxDataLen (op : Op) : (a.step op).maxDataLen = a.maxDataLen ∨ ¬op.Allocates ∧ (a.step op).maxDataLen = 0 := by
  cases op with
  | reset => exact .inl rfl
  | feed m chunk =>
    by_cases all : m.all = true
    · left
      show (a.feedWith m chunk).2.maxDataLen = _
      rw [feedWith_all a chunk all, feed_maxDataLen]
    have laid : (a.layout chunk).2.maxDataLen = a.maxDataLen := layout_maxDataLen
    show (a.feedWith m chunk).2.maxDataLen = _ ∨ _ ∧ (a.feedWith m chunk).2.maxDataLen = 0
    unfold feedWith
    split
    · exact .inl rfl
    split
    · unfold layoutWith
      generalize a.layout chunk = first at laid
      rcases first with ⟨_ | _, after⟩
      · exact .inl laid
      · dsimp only
        rw [if_neg all]
        exact .inr ⟨all, rfl⟩
    split
    · exact .inl rfl
    · exact .inl store_maxDataLen

lemma stepBuffer_le_ceiling {op : Op} {size : Nat} (allocated : size ∈ a.stepBuffer op) : size ≤ a.ceiling := by
  cases op with
  | reset => cases allocated
  | feed m chunk =>
    obtain ⟨⟨-, -, laid, -⟩, rfl⟩ := Option.ite_none_right_eq_some.mp allocated |>.imp id Option.some.inj
    unfold layout at laid
    split at laid
    · cases laid
    split at laid
    · cases laid
    · omega

lemma layout_of_fits (narrow : chunk.total ≤ (2 ^ 64 - 1) / chunk.chunkSize)
    (fits : chunk.total * chunk.chunkSize ≤ a.ceiling) : a.layout chunk = (true, a.allocate chunk) := by
  rw [layout, if_neg (not_lt.mpr narrow), if_neg (not_lt.mpr fits)]

def tinyChunk : Chunk := ⟨1, 1, 1, 1, [0]⟩
def largestChunk : Chunk := ⟨1, 8192, 8192, 8192, List.replicate 8192 0⟩
def hugeChunk : Chunk := ⟨1, 8065, 8321, 8321, List.replicate 8321 0⟩

lemma not_bounded_after_failure (positive : 0 < limit) (small : limit < maxReassembledSize) :
    ¬Bounded limit [.feed ⟨false, true, true⟩ tinyChunk, .feed ⟨true, true, true⟩ largestChunk] := by
  have ceiling : (createLimited limit).ceiling = limit := if_pos (show limit ≠ 0 by omega)
  have laid : (createLimited limit).layout tinyChunk = (true, (createLimited limit).allocate tinyChunk) :=
    layout_of_fits (by decide) (by rw [ceiling]; exact positive)
  have zeroed : (createLimited limit).step (.feed ⟨false, true, true⟩ tinyChunk) = createLimited 0 := by
    show ((createLimited limit).feedWith _ tinyChunk).2 = _
    unfold feedWith layoutWith
    rw [laid]
    rfl
  rintro ⟨-, second, -⟩
  rw [zeroed] at second
  have allocated : 8192 * 8192 ∈ (createLimited 0).stepBuffer (.feed ⟨true, true, true⟩ largestChunk) := by decide
  have within := second _ allocated
  have allowed : allowance limit = limit := if_neg (by omega)
  have full : maxReassembledSize = 8192 * 8192 := by decide
  omega

lemma not_bounded_of_large (large : maxReassembledSize < limit) : ¬Bounded limit [.feed ⟨true, true, true⟩ hugeChunk] := by
  have full : maxReassembledSize = 67108864 := by decide
  have ceiling : (createLimited limit).ceiling = limit := if_pos (show limit ≠ 0 by omega)
  have laid : (createLimited limit).layout hugeChunk = (true, (createLimited limit).allocate hugeChunk) :=
    layout_of_fits (by decide) (by rw [ceiling]; exact large)
  have allocated : 8065 * 8321 ∈ (createLimited limit).stepBuffer (.feed ⟨true, true, true⟩ hugeChunk) :=
    if_pos ⟨by decide, rfl, congrArg Prod.fst laid, rfl⟩
  rintro ⟨first, -⟩
  have within := first _ allocated
  have allowed : allowance limit = maxReassembledSize := if_pos (.inr large)
  omega

lemma bounded_of_default {ops : List Op} (same : limit = 0 ∨ limit = maxReassembledSize)
    (held : a.maxDataLen = 0 ∨ a.maxDataLen = maxReassembledSize) :
    Machine.Meets step (fun a op => ∀ size ∈ a.stepBuffer op, size ≤ allowance limit) a ops := by
  have allowed : allowance limit = maxReassembledSize := by
    unfold allowance
    split
    · rfl
    · omega
  induction ops generalizing a with
  | nil => trivial
  | cons op rest ih =>
    refine ⟨fun size allocated => ?_, ih ?_⟩
    · have within := stepBuffer_le_ceiling allocated
      unfold ceiling at within
      split at within <;> omega
    · rcases step_maxDataLen (a := a) op with stays | ⟨-, gone⟩
      · rwa [stays]
      · exact .inl gone

lemma bounded_of_allocates {ops : List Op} (small : limit ≤ maxReassembledSize) (held : a.maxDataLen = limit)
    (allocates : ∀ op ∈ ops, op.Allocates) :
    Machine.Meets step (fun a op => ∀ size ∈ a.stepBuffer op, size ≤ allowance limit) a ops := by
  induction ops generalizing a with
  | nil => trivial
  | cons op rest ih =>
    refine ⟨fun size allocated => ?_, ih ?_ fun later member => allocates later (List.mem_cons_of_mem _ member)⟩
    · have within := stepBuffer_le_ceiling allocated
      unfold ceiling at within
      unfold allowance
      split <;> split at within <;> omega
    · rcases step_maxDataLen (a := a) op with stays | ⟨failed, -⟩
      · exact stays.trans held
      · exact absurd (allocates op List.mem_cons_self) failed

end Limit

/-- Every run keeps to its limit only where the limit is the default one, in one form or the other. Without a failed
allocation every run keeps to a limit that is not above the default. -/
theorem buffer_bounded_iff (limit : Nat) : ((∀ ops, Bounded limit ops) ↔ limit = 0 ∨ limit = maxReassembledSize) ∧
      (limit ≤ maxReassembledSize → ∀ ops : List Op, (∀ op ∈ ops, op.Allocates) → Bounded limit ops) := by
  refine ⟨⟨fun bounded => ?_, fun same ops => bounded_of_default same same⟩,
    fun small ops allocates => bounded_of_allocates small rfl allocates⟩
  by_contra other
  obtain ⟨positive, different⟩ := not_or.mp other
  rcases Nat.lt_or_gt_of_ne different with small | large
  · exact not_bounded_after_failure (by omega) small (bounded _)
  · exact not_bounded_of_large large (bounded _)

/-- An assembler for request bodies: after one failed allocation it takes a layout of 64 MiB. -/
theorem body_limit_lost :
    Machine.Meets step (fun a op => ∀ size ∈ a.stepBuffer op, size ≤ 10 * 1024 * 1024) (createLimited (10 * 1024 * 1024))
        [.feed ⟨false, true, true⟩ tinyChunk] ∧
      stepBuffer (step (createLimited (10 * 1024 * 1024)) (.feed ⟨false, true, true⟩ tinyChunk))
        (.feed ⟨true, true, true⟩ largestChunk) = some (64 * 1024 * 1024) := by
  decide

end Assembler

end Cwist.Seq
