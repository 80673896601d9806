import Cwist.Seq.Limits

namespace Cwist.Seq
open List Blocks

def Chunk.content (chunk : Chunk) : Bytes := chunk.payload.take chunk.payloadLen

/-- The payload pointer has `payloadLen` octets behind it, as `cwist_seq_chunk_parse` checks. -/
def Chunk.Backed (chunk : Chunk) : Prop := chunk.payloadLen ≤ chunk.payload.length

instance (chunk : Chunk) : Decidable chunk.Backed := inferInstanceAs (Decidable (_ ≤ _))

lemma Chunk.Backed.content_length {chunk : Chunk} (backed : chunk.Backed) : chunk.content.length = chunk.payloadLen :=
  length_take_of_le backed

variable {a : Assembler} {chunk : Chunk}

namespace Assembler

def recoveryLoop (a : Assembler) (outCap : Nat) (found : Nat × List Nat) (i : Nat) : Nat × List Nat :=
  if a.received.getD i false then found
  else (found.1 + 1, if found.1 < outCap then found.2 ++ [i + 1] else found.2)

def recoveryTargets (a : Assembler) (outCap : Nat) : Nat × List Nat :=
  if !a.haveState || a.isComplete then (0, [])
  else (range a.total).foldl (a.recoveryLoop outCap) (0, [])

structure Holds (accepted : List Chunk) (a : Assembler) : Prop where
  haveState : a.haveState = true
  few : a.total ≤ maxChunks
  data : a.data.length = a.total * a.chunkSize
  dataCap : a.dataCap = a.total * a.chunkSize
  received : a.received.length = a.total
  payloadLens : a.payloadLens.length = a.total
  count : a.receivedCount = a.received.count true
  sound : ∀ c ∈ accepted, c.WellFormed ∧ c.Backed ∧ c.total = a.total ∧ c.chunkSize = a.chunkSize
  arrived : ∀ i < a.total, (a.received.getD i false = true ↔ ∃ c ∈ accepted, c.seq = i + 1)
  stored : ∀ c ∈ accepted, a.payloadLens.getD (c.seq - 1) 0 = c.payloadLen ∧
    (a.data.drop ((c.seq - 1) * a.chunkSize)).take c.payloadLen = c.content
  last : ∀ c ∈ accepted, c.seq = a.total → a.totalLen = (c.seq - 1) * a.chunkSize + c.payloadLen

section Store

variable {accepted : List Chunk}

lemma allocate_holds (few : chunk.total ≤ maxChunks) (zero : a.receivedCount = 0) : Holds [] (a.allocate chunk) where
  haveState := rfl
  few := few
  data := length_replicate
  dataCap := rfl
  received := length_replicate
  payloadLens := length_replicate
  count := by
    show a.receivedCount = (replicate chunk.total false).count true
    rw [zero, count_replicate]
    rfl
  sound := nofun
  arrived i inside := by
    have inside : i < chunk.total := inside
    simp [allocate, inside]
  stored := nofun
  last := nofun

lemma fits_of_wellFormed (wellFormed : chunk.WellFormed) (total : chunk.total = a.total)
    (chunkSize : chunk.chunkSize = a.chunkSize) :
    chunk.seq - 1 < a.total ∧ (chunk.seq - 1) * a.chunkSize + chunk.payloadLen ≤ a.total * a.chunkSize := by
  obtain ⟨place, -, short, -⟩ := wellFormed
  have inside : chunk.seq - 1 < a.total := by omega
  refine ⟨inside, ?_⟩
  calc (chunk.seq - 1) * a.chunkSize + chunk.payloadLen ≤ (chunk.seq - 1) * a.chunkSize + a.chunkSize := by omega
    _ = (chunk.seq - 1 + 1) * a.chunkSize := (Nat.succ_mul _ _).symm
    _ ≤ a.total * a.chunkSize := Nat.mul_le_mul_right _ inside

section
variable (holds : Holds accepted a) (wellFormed : chunk.WellFormed) (backed : chunk.Backed) (total : chunk.total = a.total) (chunkSize : chunk.chunkSize = a.chunkSize)
include holds wellFormed backed total chunkSize

lemma put_holds
    (fresh : a.received.getD (chunk.seq - 1) false = false) : Holds (accepted ++ [chunk]) (a.put chunk) := by
  obtain ⟨inside, room⟩ := fits_of_wellFormed wellFormed total chunkSize
  have positive : 0 < chunk.seq := by
    have := wellFormed.1
    omega
  have length := backed.content_length
  have fits : (chunk.seq - 1) * a.chunkSize + chunk.content.length ≤ a.data.length := by rw [length, holds.data]; exact room
  -- nothing accepted so far has this sequence number
  have other : ∀ c ∈ accepted, c.seq - 1 ≠ chunk.seq - 1 := by
    intro c member same
    obtain ⟨⟨place, -⟩, -⟩ := holds.sound c member
    have taken := (holds.arrived (chunk.seq - 1) inside).mpr ⟨c, member, by omega⟩
    rw [fresh] at taken
    cases taken
  have width : chunk.seq - 1 < a.received.length := holds.received ▸ inside
  refine
    { haveState := holds.haveState, few := holds.few, dataCap := holds.dataCap,
      data := (overwrite_length fits).trans holds.data,
      received := (length_set ..).trans holds.received,
      payloadLens := (length_set ..).trans holds.payloadLens,
      count := ?_, sound := ?_, arrived := ?_, stored := ?_, last := ?_ }
  · show (a.receivedCount + 1) % 2 ^ 16 = (a.received.set (chunk.seq - 1) true).count true
    have bound : a.received.count true ≤ a.received.length := count_le_length
    have few := holds.few
    have limit : maxChunks + 1 < 2 ^ 16 := by decide
    rw [holds.received] at bound
    rw [count_set_true width fresh, holds.count, Nat.mod_eq_of_lt (by omega)]
  · exact forall_mem_append.mpr
      ⟨holds.sound, forall_mem_singleton.mpr ⟨wellFormed, backed, total, chunkSize⟩⟩
  · intro i bound
    show (a.received.set (chunk.seq - 1) true).getD i false = true ↔ _
    by_cases here : chunk.seq - 1 = i
    · subst here
      refine iff_of_true ?_ ⟨chunk, by simp, by omega⟩
      exact getD_set_self width
    rw [getD_set_ne here, holds.arrived i bound]
    simp only [mem_append, or_and_right, exists_or, mem_singleton, exists_eq_left]
    exact (or_iff_left (by omega)).symm
  · intro c member
    show (a.payloadLens.set (chunk.seq - 1) chunk.payloadLen).getD (c.seq - 1) 0 = c.payloadLen ∧
      ((Blocks.overwrite a.data ((chunk.seq - 1) * a.chunkSize) chunk.content).drop ((c.seq - 1) * a.chunkSize)).take
        c.payloadLen = c.content
    rcases mem_append.mp member with earlier | new
    · obtain ⟨len, bytes⟩ := holds.stored c earlier
      have apart := other c earlier
      obtain ⟨wf, -, sameTotal, sameSize⟩ := holds.sound c earlier
      refine ⟨?_, ?_⟩
      · rwa [getD_set_ne (Ne.symm apart)]
      rw [overwrite_apart fits, bytes]
      have short : c.payloadLen ≤ a.chunkSize := sameSize ▸ not_lt.mp wf.2.2.1
      have shortNew : chunk.payloadLen ≤ a.chunkSize := chunkSize ▸ not_lt.mp wellFormed.2.2.1
      rcases Nat.lt_or_gt_of_ne apart with before | after
      · have := Nat.mul_le_mul_right a.chunkSize before
        rw [Nat.succ_mul] at this
        omega
      · have := Nat.mul_le_mul_right a.chunkSize after
        rw [Nat.succ_mul] at this
        omega
    · obtain rfl := mem_singleton.mp new
      refine ⟨getD_set_self (holds.payloadLens ▸ inside), ?_⟩
      rw [← length]
      exact overwrite_read fits
  · intro c member final
    show (if chunk.seq = chunk.total then _ else a.totalLen) = _
    rcases mem_append.mp member with earlier | new
    · have apart := other c earlier
      have final : c.seq = a.total := final
      rw [if_neg (by omega)]
      exact holds.last c earlier final
    · obtain rfl := mem_singleton.mp new
      exact if_pos (final.trans total.symm)

lemma store_holds : (a.store chunk).1 = true ∧ Holds (accepted ++ [chunk]) (a.store chunk).2 ∨
      a.store chunk = (false, { a with contaminated := true }) ∧ ∃ c ∈ accepted, c.seq = chunk.seq := by
  obtain ⟨inside, room⟩ := fits_of_wellFormed wellFormed total chunkSize
  have positive : 0 < chunk.seq := by
    have := wellFormed.1
    omega
  unfold store
  dsimp only
  split
  next arrived =>
    obtain ⟨first, before, same⟩ := (holds.arrived _ inside).mp arrived
    have same : first.seq = chunk.seq := by omega
    split
    next identical =>
      obtain ⟨len, bytes⟩ := identical
      left
      refine ⟨rfl, { holds with sound := ?_, arrived := ?_, stored := ?_, last := ?_ }⟩
      · exact forall_mem_append.mpr
          ⟨holds.sound, forall_mem_singleton.mpr ⟨wellFormed, backed, total, chunkSize⟩⟩
      · intro i bound
        rw [holds.arrived i bound]
        simp only [mem_append, or_and_right, exists_or, mem_singleton, exists_eq_left]
        refine (or_iff_left_of_imp fun same => ?_).symm
        refine (holds.arrived i bound).mp ?_
        rwa [show i = chunk.seq - 1 by omega]
      · exact forall_mem_append.mpr ⟨holds.stored, forall_mem_singleton.mpr ⟨len, bytes⟩⟩
      intro c member final
      rcases mem_append.mp member with earlier | new
      · exact holds.last c earlier final
      -- the duplicate has the length of the chunk that set `totalLen`
      obtain rfl := mem_singleton.mp new
      have stored := (holds.stored first before).1
      rw [same, len] at stored
      rw [holds.last first before (same.trans final), same, stored]
    · exact .inr ⟨rfl, first, before, same⟩
  next fresh =>
    rw [holds.dataCap, if_neg (by omega)]
    exact .inl ⟨rfl, put_holds holds wellFormed backed total chunkSize (Bool.eq_false_of_not_eq_true fresh)⟩

end

lemma Holds.same_content {c d : Chunk} (holds : Holds accepted a) (first : c ∈ accepted) (second : d ∈ accepted)
    (same : c.seq = d.seq) : c.content = d.content := by
  obtain ⟨len, bytes⟩ := holds.stored c first
  obtain ⟨len', bytes'⟩ := holds.stored d second
  rw [← bytes, ← bytes', ← len, ← len', same]

lemma layout_cases (a : Assembler) (chunk : Chunk) : a.layout chunk = (true, a.allocate chunk) ∨
    (a.layout chunk).1 = false ∧ (a.layout chunk).2.haveState = a.haveState ∧
      (a.layout chunk).2.receivedCount = a.receivedCount := by
  unfold layout
  split
  · exact .inr ⟨rfl, rfl, rfl⟩
  split
  · exact .inr ⟨rfl, rfl, rfl⟩
  · exact .inl rfl

end Store

end Assembler

structure Session where
  assembler : Assembler
  accepted : List Chunk
  deriving DecidableEq

namespace Session

open Assembler

def step (s : Session) : Op → Session
  | .feed m chunk =>
    let (ok, assembler) := s.assembler.feedWith m chunk
    ⟨assembler, if ok then s.accepted ++ [chunk] else s.accepted⟩
  | .reset => ⟨s.assembler.reset, []⟩

def run (limit : Nat) (ops : List Op) : Session := ops.foldl step ⟨createLimited limit, []⟩

section

variable (s : Session)

def first (seq : Nat) : Option Bytes := (s.accepted.find? (·.seq = seq)).map Chunk.content

def total : Nat := (s.accepted.head?.map Chunk.total).getD 0

def missing : List Nat := ((range s.total).map (· + 1)).filter fun seq => (s.first seq).isNone

def OtherLayout (chunk : Chunk) : Prop :=
  ∃ c ∈ s.accepted.head?, chunk.total ≠ c.total ∨ chunk.chunkSize ≠ c.chunkSize

/-- The chunk is of the layout, and another payload of its sequence number was accepted. -/
def Conflicts (chunk : Chunk) : Prop :=
  ¬s.OtherLayout chunk ∧ ∃ payload ∈ s.first chunk.seq, payload ≠ chunk.content

def Tracks : Prop :=
  s.accepted ≠ [] ∧ Holds s.accepted s.assembler ∨
    s.accepted = [] ∧ s.assembler.haveState = false ∧ s.assembler.receivedCount = 0

end

end Session

def Assembler.Op.Backed : Op → Prop
  | .feed _ chunk => chunk.Backed
  | .reset => True

instance : DecidablePred Assembler.Op.Backed
  | .feed _ chunk => inferInstanceAs (Decidable chunk.Backed)
  | .reset => .isTrue trivial

variable {s : Session}

namespace Session

open Assembler

variable {i : Nat}

lemma Tracks.step {op : Op} (tracks : s.Tracks) (backed : op.Backed) : (s.step op).Tracks := by
  cases op with
  | reset => exact .inr ⟨rfl, rfl, rfl⟩
  | feed m chunk =>
    show Session.Tracks ⟨(s.assembler.feedWith m chunk).2, if (s.assembler.feedWith m chunk).1 then _ else _⟩
    unfold feedWith
    split
    · exact tracks
    rename_i wellFormed
    have wellFormed := not_not.mp wellFormed
    rcases tracks with ⟨some_, holds⟩ | ⟨none_, noState, zero⟩
    · rw [if_neg (by rw [holds.haveState]; decide)]
      split
      · exact .inl ⟨some_, holds⟩
      rename_i layout
      obtain ⟨total, chunkSize⟩ := not_or.mp layout
      rcases store_holds holds wellFormed backed (not_not.mp total) (not_not.mp chunkSize) with ⟨ok, more⟩ | ⟨call, -⟩
      · rw [ok]
        exact .inl ⟨by simp, more⟩
      · rw [call]
        exact .inl ⟨some_, { holds with }⟩
    rw [if_pos (by rw [noState]; rfl)]
    rcases layout_cases s.assembler chunk with laid | ⟨refused, state, count⟩
    · by_cases all : m.all = true
      · have empty : Holds [] (s.assembler.allocate chunk) := allocate_holds (by have := wellFormed.1; omega) zero
        have call : s.assembler.layoutWith m chunk = (true, s.assembler.allocate chunk) := by
          rw [layoutWith, laid]
          exact if_pos all
        rw [call]
        rcases store_holds empty wellFormed backed rfl rfl with ⟨ok, more⟩ | ⟨-, c, member, -⟩
        · rw [ok, none_]
          exact .inl ⟨by simp, more⟩
        · cases member
      · have call : s.assembler.layoutWith m chunk = (false, createLimited 0) := by
          rw [layoutWith, laid]
          exact if_neg all
        rw [call]
        exact .inr ⟨none_, rfl, rfl⟩
    · unfold layoutWith
      generalize s.assembler.layout chunk = laid at refused state count
      obtain ⟨ok, after⟩ := laid
      cases refused
      exact .inr ⟨none_, state.trans noState, count.trans zero⟩

lemma run_tracks (limit : Nat) (ops : List Op) (backed : ∀ op ∈ ops, op.Backed) : (run limit ops).Tracks := by
  unfold run
  have start : Tracks ⟨createLimited limit, []⟩ := .inr ⟨rfl, rfl, rfl⟩
  generalize (⟨createLimited limit, []⟩ : Session) = s at start
  induction ops generalizing s with
  | nil => exact start
  | cons op rest ih =>
    exact ih (fun later member => backed later (mem_cons_of_mem _ member)) _
      (start.step (backed op mem_cons_self))

lemma first_of_mem {c : Chunk} (holds : Holds s.accepted s.assembler) (member : c ∈ s.accepted) :
    s.first c.seq = some c.content := by
  obtain ⟨d, found⟩ := Option.isSome_iff_exists.mp
    (find?_isSome.mpr ⟨c, member, decide_eq_true rfl⟩ : (s.accepted.find? (·.seq = c.seq)).isSome)
  have same : d.seq = c.seq := by simpa using find?_some found
  rw [first, found, Option.map_some, holds.same_content (mem_of_find?_eq_some found) member same]

lemma first_isSome (holds : Holds s.accepted s.assembler) (inside : i < s.assembler.total) :
    (s.first (i + 1)).isSome = s.assembler.received.getD i false := by
  rw [Bool.eq_iff_iff, holds.arrived i inside, first, Option.isSome_map, find?_isSome]
  simp only [decide_eq_true_eq]

lemma total_eq (some_ : s.accepted ≠ []) (holds : Holds s.accepted s.assembler) : s.total = s.assembler.total := by
  obtain ⟨c, rest, accepted⟩ := exists_cons_of_ne_nil some_
  rw [total, accepted]
  exact (holds.sound c (accepted ▸ mem_cons_self)).2.2.1

lemma received_of_complete (holds : Holds s.accepted s.assembler) (complete : s.assembler.isComplete = true)
    (inside : i < s.assembler.total) : s.assembler.received.getD i false = true := by
  simp only [isComplete, Bool.and_eq_true, beq_iff_eq] at complete
  obtain ⟨⟨⟨-, all⟩, -⟩, -⟩ := complete
  rw [holds.count, ← holds.received, count_eq_length] at all
  rw [← holds.received] at inside
  rw [getD_eq_getElem?_getD, getElem?_eq_getElem inside]
  exact (all _ (getElem_mem inside)).symm

lemma Tracks.getData {data : Bytes} (tracks : s.Tracks) (got : s.assembler.getData = some data) :
    (∀ seq, 1 ≤ seq → seq ≤ s.total → (s.first seq).isSome) ∧
      data = (range s.total).flatMap (fun i => (s.first (i + 1)).getD []) ∧ data.length = s.assembler.totalLen := by
  obtain ⟨complete, rfl⟩ := Option.ite_none_right_eq_some.mp got |>.imp id Option.some.inj
  rcases tracks with ⟨some_, holds⟩ | ⟨-, noState, -⟩
  swap
  · rw [isComplete, noState] at complete
    cases complete
  have total := total_eq some_ holds
  have arrived : ∀ i < s.assembler.total, ∃ c ∈ s.accepted, c.seq = i + 1 := fun i inside =>
    (holds.arrived i inside).mp (received_of_complete holds complete inside)
  have piece : ∀ c ∈ s.accepted, (s.first c.seq).getD [] = c.content ∧ c.content.length = c.payloadLen ∧
      (s.assembler.data.drop ((c.seq - 1) * s.assembler.chunkSize)).take c.payloadLen = c.content := fun c member =>
    ⟨by rw [first_of_mem holds member]; rfl, (holds.sound c member).2.1.content_length, (holds.stored c member).2⟩
  have positive : 0 < s.assembler.total := by
    obtain ⟨c, rest, accepted⟩ := exists_cons_of_ne_nil some_
    obtain ⟨wellFormed, -, same, -⟩ := holds.sound c (accepted ▸ mem_cons_self)
    have := wellFormed.1
    omega
  rw [total]
  refine ⟨fun seq low high => ?_, ?_, ?_⟩
  · obtain ⟨c, member, same⟩ := arrived (seq - 1) (by omega)
    rw [show seq = c.seq by omega, first_of_mem holds member]
    rfl
  · obtain ⟨n, count⟩ : ∃ n, s.assembler.total = n + 1 := ⟨_, (Nat.succ_pred_eq_of_pos positive).symm⟩
    obtain ⟨final, member, last⟩ := arrived n (by omega)
    obtain ⟨content, length, bytes⟩ := piece final member
    -- all chunks but the last are full
    have front : s.assembler.data.take (n * s.assembler.chunkSize) =
        (range n).flatMap fun i => (s.first (i + 1)).getD [] := by
      refine take_eq_pieces (fun i inside => ?_) fun i inside => ?_
      · obtain ⟨c, member, same⟩ := arrived i (by omega)
        obtain ⟨content, length, -⟩ := piece c member
        obtain ⟨⟨-, -, -, full⟩, -, sameTotal, sameSize⟩ := holds.sound c member
        rw [← same, content]
        omega
      · obtain ⟨c, member, same⟩ := arrived i (by omega)
        obtain ⟨content, length, bytes⟩ := piece c member
        rwa [← same, content, length, show i = c.seq - 1 by omega]
    rw [last, Nat.add_sub_cancel] at bytes
    rw [holds.last final member (last.trans count.symm), last, Nat.add_sub_cancel, take_add, bytes, front, count,
      range_succ, flatMap_append, flatMap_singleton, ← last, content]
  · obtain ⟨final, member, last⟩ := arrived (s.assembler.total - 1) (by omega)
    obtain ⟨wellFormed, -, sameTotal, sameSize⟩ := holds.sound final member
    have room := (fits_of_wellFormed wellFormed sameTotal sameSize).2
    rw [length_take, holds.data, holds.last final member (by omega)]
    omega

lemma Tracks.feed_otherLayout (tracks : s.Tracks) (other : s.OtherLayout chunk) (m : Allocs) :
    s.assembler.feedWith m chunk = (false, s.assembler) := by
  obtain ⟨c, first, different⟩ := other
  have member := mem_of_mem_head? first
  rcases tracks with ⟨-, holds⟩ | ⟨none_, -⟩
  · obtain ⟨-, -, total, chunkSize⟩ := holds.sound c member
    rw [total, chunkSize] at different
    unfold feedWith
    rw [if_pos different, if_neg (show ¬(!s.assembler.haveState) = true by rw [holds.haveState]; decide), ite_self]
  · rw [none_] at member
    cases member

lemma Tracks.feed_conflict (tracks : s.Tracks) (conflicts : s.Conflicts chunk)
    (wellFormed : chunk.WellFormed) (backed : chunk.Backed) (m : Allocs) :
    s.assembler.feedWith m chunk = (false, { s.assembler with contaminated := true }) ∧
      s.assembler.haveState = true := by
  obtain ⟨layout, payload, accepted, different⟩ := conflicts
  obtain ⟨c, found, rfl⟩ := Option.map_eq_some_iff.mp accepted
  have member := mem_of_find?_eq_some found
  have same : c.seq = chunk.seq := by simpa using find?_some found
  rcases tracks with ⟨some_, holds⟩ | ⟨none_, -⟩
  · obtain ⟨head, rest, list⟩ := exists_cons_of_ne_nil some_
    obtain ⟨-, -, total, chunkSize⟩ := holds.sound head (list ▸ mem_cons_self)
    have agrees : ¬(chunk.total ≠ s.assembler.total ∨ chunk.chunkSize ≠ s.assembler.chunkSize) := by
      rw [← total, ← chunkSize]
      exact fun other => layout ⟨head, by rw [list]; rfl, other⟩
    refine ⟨?_, holds.haveState⟩
    rw [feedWith, if_neg (not_not.mpr wellFormed), if_neg (by rw [holds.haveState]; decide), if_neg agrees]
    obtain ⟨sameTotal, sameSize⟩ := not_or.mp agrees
    rcases store_holds holds wellFormed backed (not_not.mp sameTotal) (not_not.mp sameSize) with ⟨-, more⟩ | ⟨call, -⟩
    · -- had it been accepted, both payloads would stand in the same place
      exact absurd (more.same_content (mem_append_left _ member) (by simp) same) different
    · exact call
  · rw [none_] at member
    cases member

end Session

namespace Assembler

lemma store_contaminated (contaminated : a.contaminated = true) :
    (a.store chunk).2.contaminated = true ∧ (a.store chunk).2.haveState = a.haveState := by
  unfold store
  dsimp only
  split
  · split
    · exact ⟨contaminated, rfl⟩
    · exact ⟨rfl, rfl⟩
  · split
    · exact ⟨contaminated, rfl⟩
    · exact ⟨contaminated, rfl⟩

lemma run_contaminated {later : List Op} (noReset : .reset ∉ later) (contaminated : a.contaminated = true)
    (state : a.haveState = true) : (later.foldl step a).isComplete = false := by
  induction later generalizing a with
  | nil =>
    rw [foldl_nil, isComplete, contaminated]
    simp
  | cons op rest ih =>
    have rest_ : .reset ∉ rest := fun member => noReset (mem_cons_of_mem _ member)
    cases op with
    | reset => exact absurd mem_cons_self noReset
    | feed m chunk =>
      have kept : (a.feedWith m chunk).2.contaminated = true ∧ (a.feedWith m chunk).2.haveState = true := by
        have stored : (a.store chunk).2.contaminated = true ∧ (a.store chunk).2.haveState = a.haveState :=
          store_contaminated contaminated
        unfold feedWith
        rw [if_neg (show ¬(!a.haveState) = true by rw [state]; decide)]
        split
        · exact ⟨contaminated, state⟩
        split
        · exact ⟨contaminated, state⟩
        · exact ⟨stored.1, stored.2.trans state⟩
      exact ih rest_ kept.1 kept.2

lemma recoveryLoop_foldl (outCap : Nat) (places : List Nat) (found : Nat × List Nat) :
    places.foldl (a.recoveryLoop outCap) found =
      (found.1 + ((places.filter fun i => !a.received.getD i false).map (· + 1)).length,
        found.2 ++ ((places.filter fun i => !a.received.getD i false).map (· + 1)).take (outCap - found.1)) := by
  induction places generalizing found with
  | nil => simp
  | cons i rest ih =>
    rw [foldl_cons, ih, recoveryLoop]
    by_cases arrived : a.received.getD i false = true
    · rw [if_pos arrived, filter_cons_of_neg (by simp only [arrived, Bool.not_true, Bool.false_eq_true,
        not_false_eq_true])]
    rw [if_neg arrived, filter_cons_of_pos (by simpa using arrived), map_cons, length_cons]
    by_cases room : found.1 < outCap
    · rw [if_pos room, show outCap - found.1 = (outCap - (found.1 + 1)) + 1 by omega, take_succ_cons,
        append_assoc, singleton_append]
      rw [Nat.add_right_comm, add_assoc]
    · rw [if_neg room, show outCap - found.1 = 0 by omega]
      rw [show outCap - (found.1 + 1) = 0 by omega, take_zero, take_zero, Nat.add_right_comm, add_assoc]

end Assembler

namespace Session

open Assembler

lemma missing_eq (some_ : s.accepted ≠ []) (holds : Holds s.accepted s.assembler) :
    s.missing = ((range s.assembler.total).filter fun i => !s.assembler.received.getD i false).map (· + 1) := by
  rw [missing, total_eq some_ holds, filter_map]
  congr 1
  refine filter_congr fun i member => ?_
  rw [Function.comp_apply, ← first_isSome holds (mem_range.mp member), Option.not_isSome]

lemma Tracks.recoveryTargets (tracks : s.Tracks) (outCap : Nat) :
    s.assembler.recoveryTargets outCap = (s.missing.length, s.missing.take outCap) := by
  unfold Assembler.recoveryTargets
  rcases tracks with ⟨some_, holds⟩ | ⟨none_, noState, -⟩
  · rw [missing_eq some_ holds, holds.haveState]
    split
    next complete =>
      rw [filter_eq_nil_iff.mpr fun i member => by
        rw [received_of_complete holds complete (mem_range.mp member)]; decide]
      simp
    · rw [recoveryLoop_foldl]
      simp
  · have empty : s.missing = [] := by rw [missing, total, none_]; rfl
    rw [noState, empty, take_nil]
    rfl

/-- What a hostile peer can do to an assembler. A complete message is made of the payloads accepted first, a chunk of
another layout changes nothing, a conflicting payload is rejected and the message is not complete until the next reset,
and the recovery targets are the sequence numbers of which nothing was accepted. -/
theorem hostile_run (limit : Nat) (ops : List Op) (backed : ∀ op ∈ ops, op.Backed) :
    (∀ data, (run limit ops).assembler.getData = some data →
      (∀ seq, 1 ≤ seq → seq ≤ (run limit ops).total → ((run limit ops).first seq).isSome) ∧
        data = (range (run limit ops).total).flatMap (fun i => ((run limit ops).first (i + 1)).getD []) ∧
        data.length = (run limit ops).assembler.totalLen) ∧ (∀ m chunk, (run limit ops).OtherLayout chunk →
      (run limit ops).assembler.feedWith m chunk = (false, (run limit ops).assembler)) ∧
    (∀ m chunk, chunk.WellFormed → chunk.Backed → (run limit ops).Conflicts chunk →
      (run limit ops).assembler.feedWith m chunk = (false, { (run limit ops).assembler with contaminated := true }) ∧
        ∀ later : List Op, .reset ∉ later →
          (later.foldl Assembler.step { (run limit ops).assembler with contaminated := true }).isComplete = false) ∧
    ∀ outCap, (run limit ops).assembler.recoveryTargets outCap =
      ((run limit ops).missing.length, (run limit ops).missing.take outCap) := by
  have tracks := run_tracks limit ops backed
  refine ⟨fun data got => tracks.getData got, fun m chunk other => tracks.feed_otherLayout other m,
    fun m chunk wellFormed backed conflicts => ?_, tracks.recoveryTargets⟩
  obtain ⟨rejected, state⟩ := tracks.feed_conflict conflicts wellFormed backed m
  exact ⟨rejected, fun later noReset => run_contaminated noReset rfl state⟩

theorem hostile_run_short :
    let ops : List Op := [.feed ⟨true, true, true⟩ ⟨2, 2, 1, 2, [12]⟩, .feed ⟨true, true, true⟩ ⟨1, 2, 2, 2, [10, 11]⟩]
    (∀ op ∈ ops, op.Backed) ∧ [10, 11, 12] = (range 2).flatMap fun i => ((run 0 ops).first (i + 1)).getD [] := by
  intro ops
  have backed : ∀ op ∈ ops, op.Backed := by decide
  exact ⟨backed, ((hostile_run 0 ops backed).1 [10, 11, 12] (by decide)).2.1⟩

/-- A chunk of another layout is rejected, and the message completes after it. -/
theorem complete_after_other_layout :
    let allocs : Allocs := ⟨true, true, true⟩
    let opening : Session := run 0 [.feed allocs ⟨1, 2, 2, 2, [10, 11]⟩]
    let stray : Chunk := ⟨1, 3, 2, 2, [7, 7]⟩
    opening.assembler.feedWith allocs stray = (false, opening.assembler) ∧
      ((opening.step (.feed allocs stray)).step (.feed allocs ⟨2, 2, 1, 2, [12]⟩)).assembler.getData =
        some [10, 11, 12] := by
  decide

end Session

end Cwist.Seq
