import Cwist.Lib.RingCache
import Cwist.Seq.Message

namespace Cwist.Seq.Auth
open List

abbrev Octets (n : Nat) := { bytes : Bytes // bytes.length = n }

def keySize : Nat := 32
def sessionIdSize : Nat := 16
def messageIdSize : Nat := 16
def nonceSize : Nat := 12
def tagSize : Nat := 16

def boundSize : Nat := headerSize + messageIdSize + nonceSize

def authHeaderSize : Nat := boundSize + tagSize

abbrev Mac := Octets keySize → Bytes → Octets 32

structure Context where
  key : Octets keySize
  sessionId : Octets sessionIdSize
  nonces : RingCache (Octets nonceSize)
  completedIds : RingCache (Octets messageIdSize)
  capacity : Nat
  positive : 0 < capacity

structure Metadata where
  messageId : Octets messageIdSize
  nonce : Octets nonceSize
  deriving DecidableEq

def octetsAt (data : Bytes) (off n : Nat) (inside : off + n ≤ data.length) : Octets n :=
  ⟨(data.drop off).take n, by rw [length_take, length_drop]; omega⟩

def cacheContains {n : Nat} (cache : RingCache (Octets n)) (value : Octets n) : Bool := cache.contains value

def cacheAdd {n : Nat} (cache : RingCache (Octets n)) (capacity : Nat) (value : Octets n) : RingCache (Octets n) :=
  cache.add capacity value

def seqAuthChunkValid (data : Bytes) : Option Chunk :=
  if data.length < headerSize then none
  else
    let chunk : Chunk := ⟨readU16 data 0, readU16 data 2, readU16 data 4, readU16 data 6, data.drop authHeaderSize⟩
    if chunk.WellFormed ∧ ¬data.length < authHeaderSize + chunk.payloadLen then some chunk else none

namespace Context

def create (key : Octets keySize) (sessionId : Octets sessionIdSize) (replayWindow : Nat) : Option Context :=
  if window : replayWindow = 0 ∨ replayWindow > (2 ^ 64 - 1) / 28 then none
  else
    some
      { key, sessionId
        nonces := .empty replayWindow ⟨replicate nonceSize 0, length_replicate⟩
        completedIds := .empty replayWindow ⟨replicate messageIdSize 0, length_replicate⟩
        capacity := replayWindow
        positive := by omega }

section

variable (mac : Mac) (ctx : Context)

def authTag (headerWithoutTag payload : Bytes) : Bytes :=
  (mac ctx.key (ctx.sessionId.val ++ headerWithoutTag ++ payload)).val.take tagSize

def wrap (messageId : Octets messageIdSize) (nonce : Octets nonceSize) (chunk : Bytes) : Option Bytes :=
  match chunkParse chunk with
  | none => none
  | some parsed =>
    if chunk.length ≠ headerSize + parsed.payloadLen then none
    else
      let payload := parsed.payload.take parsed.payloadLen
      let header := chunk.take headerSize ++ messageId.val ++ nonce.val
      some (header ++ ctx.authTag mac header payload ++ payload)

def unwrap (data : Bytes) : Option (Metadata × Chunk) × Context :=
  match seqAuthChunkValid data with
  | none => (none, ctx)
  | some parsed =>
    if exact_ : data.length = authHeaderSize + parsed.payloadLen then
      have long : boundSize ≤ data.length := exact_ ▸ Nat.le_add_right_of_le (by decide)
      let messageId := octetsAt data headerSize messageIdSize (le_trans (by decide) long)
      let nonce := octetsAt data (headerSize + messageIdSize) nonceSize (le_trans (by decide) long)
      let tag := (data.drop boundSize).take tagSize
      if tag ≠ ctx.authTag mac (data.take boundSize) (parsed.payload.take parsed.payloadLen) then (none, ctx)
      else if cacheContains ctx.nonces nonce || cacheContains ctx.completedIds messageId then (none, ctx)
      else (some (⟨messageId, nonce⟩, parsed), { ctx with nonces := cacheAdd ctx.nonces ctx.capacity nonce })
    else (none, ctx)

end

def markComplete (ctx : Context) (messageId : Octets messageIdSize) : Context :=
  if cacheContains ctx.completedIds messageId then ctx
  else { ctx with completedIds := cacheAdd ctx.completedIds ctx.capacity messageId }

end Context

section Envelope

variable {mac : Mac} {ctx receiver : Context} {data header rest tail front : Bytes} {messageId : Octets messageIdSize}
  {nonce : Octets nonceSize}
  {chunk wire : Bytes} {parsed : Chunk}

lemma readU16_append {pos : Nat} (inside : pos + 1 < header.length) :
    readU16 (header ++ rest) pos = readU16 header pos := by
  rw [readU16, readU16, getD_eq_getElem?_getD, getD_eq_getElem?_getD, getElem?_append_left (by omega),
    getElem?_append_left inside, ← getD_eq_getElem?_getD, ← getD_eq_getElem?_getD]

lemma chunkParse_fields (parse : chunkParse chunk = some parsed) : headerSize ≤ chunk.length ∧ parsed.WellFormed ∧
      parsed = ⟨readU16 chunk 0, readU16 chunk 2, readU16 chunk 4, readU16 chunk 6, chunk.drop headerSize⟩ := by
  unfold chunkParse at parse
  split at parse
  · cases parse
  dsimp only at parse
  split at parse
  next long sound =>
    cases parse
    exact ⟨not_lt.mp long, sound.1, rfl⟩
  · cases parse

lemma wrap_eq_some (wrapped : ctx.wrap mac messageId nonce chunk = some wire) :
    ∃ parsed, chunkParse chunk = some parsed ∧ parsed.payload.length = parsed.payloadLen ∧
      wire = chunk.take headerSize ++ messageId.val ++ nonce.val ++
        ctx.authTag mac (chunk.take headerSize ++ messageId.val ++ nonce.val) parsed.payload ++ parsed.payload := by
  unfold Context.wrap at wrapped
  split at wrapped
  · cases wrapped
  rename_i parsed parse
  split at wrapped
  · cases wrapped
  obtain ⟨long, -, fields⟩ := chunkParse_fields parse
  have payload : parsed.payload = chunk.drop headerSize := by rw [fields]
  have whole : parsed.payload.length = parsed.payloadLen := by
    rw [payload, length_drop]
    omega
  rw [take_of_length_le whole.le] at wrapped
  exact ⟨parsed, parse, whole, (Option.some.inj wrapped).symm⟩

lemma authTag_length (header payload : Bytes) : (ctx.authTag mac header payload).length = tagSize := by
  rw [Context.authTag, length_take, (mac _ _).2]
  rfl

lemma seqAuthChunkValid_envelope (parse : chunkParse chunk = some parsed)
    (whole : parsed.payload.length = parsed.payloadLen) (length : tail.length = authHeaderSize - headerSize) :
    seqAuthChunkValid (chunk.take headerSize ++ tail ++ parsed.payload) = some parsed := by
  obtain ⟨long, wellFormed, fields⟩ := chunkParse_fields parse
  have header := length_take_of_le long
  have read : ∀ pos, pos + 1 < headerSize → readU16 (chunk.take headerSize ++ tail ++ parsed.payload) pos =
      readU16 chunk pos := by
    intro pos inside
    rw [append_assoc, readU16_append (header.symm ▸ inside), ← readU16_append (header.symm ▸ inside),
      take_append_drop]
  have front : (chunk.take headerSize ++ tail).length = authHeaderSize := by
    rw [length_append, header, length]
    decide
  have same : (⟨readU16 chunk 0, readU16 chunk 2, readU16 chunk 4, readU16 chunk 6, parsed.payload⟩ : Chunk) = parsed := by
    rw [fields]
  have short : headerSize ≤ authHeaderSize := by decide
  unfold seqAuthChunkValid
  rw [read 0 (by decide), read 2 (by decide), read 4 (by decide), read 6 (by decide), drop_left' front, same]
  rw [length_append, if_neg (by omega), if_pos ⟨wellFormed, by omega⟩]

lemma octetsAt_eq {n : Nat} {field : Octets n} {off : Nat} (length : front.length = off)
    (inside : off + n ≤ (front ++ (field.val ++ rest)).length) : octetsAt (front ++ (field.val ++ rest)) off n inside = field := by
  apply Subtype.ext
  show ((front ++ (field.val ++ rest)).drop off).take n = field.val
  rw [drop_left' length, take_left' field.2]

lemma unwrap_wrap (wrapped : ctx.wrap mac messageId nonce chunk = some wire) (key : receiver.key = ctx.key)
    (session : receiver.sessionId = ctx.sessionId) (fresh : cacheContains receiver.nonces nonce = false)
    (open_ : cacheContains receiver.completedIds messageId = false) :
    ∃ parsed, chunkParse chunk = some parsed ∧ receiver.unwrap mac wire = (some (⟨messageId, nonce⟩, parsed),
        { receiver with nonces := cacheAdd receiver.nonces receiver.capacity nonce }) := by
  obtain ⟨parsed, parse, whole, rfl⟩ := wrap_eq_some wrapped
  refine ⟨parsed, parse, ?_⟩
  obtain ⟨long, -, -⟩ := chunkParse_fields parse
  have header := length_take_of_le long
  generalize bound : chunk.take headerSize ++ messageId.val ++ nonce.val = front
  have frontLength : front.length = boundSize := by
    rw [← bound, length_append, length_append, header, messageId.2, nonce.2]
    rfl
  have tagged : receiver.authTag mac front parsed.payload = ctx.authTag mac front parsed.payload := by
    rw [Context.authTag, Context.authTag, key, session]
  have tagLength : (ctx.authTag mac front parsed.payload).length = tagSize := authTag_length _ _
  generalize ctx.authTag mac front parsed.payload = tag at tagged tagLength
  have valid : seqAuthChunkValid (front ++ tag ++ parsed.payload) = some parsed := by
    have tail : (messageId.val ++ nonce.val ++ tag).length = authHeaderSize - headerSize := by
      rw [length_append, length_append, messageId.2, nonce.2, tagLength]
      decide
    have built := seqAuthChunkValid_envelope parse whole tail
    rwa [← append_assoc, ← append_assoc, bound] at built
  have length : (front ++ tag ++ parsed.payload).length = authHeaderSize + parsed.payloadLen := by
    rw [length_append, length_append, frontLength, tagLength, whole]
    rfl
  have idRead : ∀ inside, octetsAt (front ++ tag ++ parsed.payload) headerSize messageIdSize inside = messageId := by
    rw [← bound, append_assoc, append_assoc, append_assoc]
    exact fun inside => octetsAt_eq header inside
  have nonceRead : ∀ inside,
      octetsAt (front ++ tag ++ parsed.payload) (headerSize + messageIdSize) nonceSize inside = nonce := by
    rw [← bound, append_assoc, append_assoc]
    exact fun inside => octetsAt_eq (by rw [length_append, header, messageId.2]) inside
  have tagRead : ((front ++ tag ++ parsed.payload).drop boundSize).take tagSize = tag := by
    rw [append_assoc, drop_left' frontLength, take_left' tagLength]
  have headerRead : (front ++ tag ++ parsed.payload).take boundSize = front := by
    rw [append_assoc, take_left' frontLength]
  unfold Context.unwrap
  rw [valid]
  dsimp only
  rw [dif_pos length, idRead, nonceRead, tagRead, headerRead, take_of_length_le whole.le, tagged, fresh, open_,
    if_neg (not_not.mpr rfl)]
  rfl

lemma unwrap_cases (mac : Mac) (ctx : Context) (data : Bytes) : ctx.unwrap mac data = (none, ctx) ∨
      ∃ metadata chunk, ctx.unwrap mac data =
          (some (metadata, chunk), { ctx with nonces := cacheAdd ctx.nonces ctx.capacity metadata.nonce }) ∧
        cacheContains ctx.nonces metadata.nonce = false ∧ cacheContains ctx.completedIds metadata.messageId = false ∧
        metadata.messageId.val = (data.drop headerSize).take messageIdSize := by
  unfold Context.unwrap
  split
  · exact .inl rfl
  rename_i parsed _
  by_cases exact_ : data.length = authHeaderSize + parsed.payloadLen
  · rw [dif_pos exact_]
    dsimp only
    split
    · exact .inl rfl
    split
    · exact .inl rfl
    next unseen =>
      obtain ⟨nonce, message⟩ := Bool.or_eq_false_iff.mp (Bool.eq_false_of_not_eq_true unseen)
      exact .inr ⟨_, _, rfl, nonce, message, rfl⟩
  · rw [dif_neg exact_]
    exact .inl rfl

end Envelope

inductive Op where
  | unwrap (data : Bytes)
  | markComplete (messageId : Octets messageIdSize)

structure Receiver where
  ctx : Context
  accepted : List (Octets nonceSize)
  completed : List (Octets messageIdSize)

namespace Receiver

def step (mac : Mac) (s : Receiver) : Op → Receiver
  | .unwrap data =>
    match s.ctx.unwrap mac data with
    | (none, ctx) => { s with ctx }
    | (some (metadata, _), ctx) => { s with ctx, accepted := s.accepted ++ [metadata.nonce] }
  | .markComplete messageId =>
    { s with
      ctx := s.ctx.markComplete messageId
      completed := if cacheContains s.ctx.completedIds messageId then s.completed else s.completed ++ [messageId] }

def run (mac : Mac) (ctx : Context) (ops : List Op) : Receiver := ops.foldl (step mac) ⟨ctx, [], []⟩

/-- No entry comes again within the next `capacity` entries. -/
def Spaced {α : Type*} (capacity : Nat) (entries : List α) : Prop :=
  ∀ before x after, entries = before ++ x :: after → x ∉ after.take capacity

/-- The caches hold the last entries, and no nonce comes again too soon. -/
structure Tracks (capacity : Nat) (s : Receiver) : Prop where
  window : s.ctx.capacity = capacity
  nonces : s.ctx.nonces.Remembers capacity s.accepted.reverse
  completedIds : s.ctx.completedIds.Remembers capacity s.completed.reverse
  spaced : Spaced capacity s.accepted

variable {mac : Mac} {capacity : Nat} {s : Receiver} {α : Type*}

lemma mem_last {entries before after : List α} {x : α} (split : entries = before ++ x :: after)
    (recent : after.length < capacity) : x ∈ entries.reverse.take capacity := by
  rw [split, reverse_append, reverse_cons, append_assoc, take_append,
    length_reverse]
  refine mem_append_right _ ?_
  rw [show capacity - after.length = (capacity - after.length - 1) + 1 by omega]
  exact mem_cons_self

lemma Spaced.append {entries : List α} {y : α} (spaced : Spaced capacity entries)
    (new : y ∉ entries.reverse.take capacity) : Spaced capacity (entries ++ [y]) := by
  intro before x after split again
  rcases eq_nil_or_concat after with rfl | ⟨earlier, last, rfl⟩
  · simp at again
  rw [concat_eq_append] at split again
  rw [← cons_append, ← append_assoc] at split
  obtain ⟨entries_, last_⟩ := append_inj' split rfl
  obtain rfl : y = last := by simpa using last_
  rw [take_append] at again
  rcases mem_append.mp again with old | now
  · exact spaced before x earlier entries_ old
  -- the new entry itself: then fewer than `capacity` entries lie between
  obtain rfl : x = y := by simpa using mem_of_mem_take now
  refine new (mem_last entries_ ?_)
  by_contra far
  rw [show capacity - earlier.length = 0 by omega] at now
  cases now

lemma Tracks.step (positive : 0 < capacity) (tracks : Tracks capacity s) (op : Op) :
    Tracks capacity (s.step mac op) := by
  cases op with
  | unwrap data =>
    unfold Receiver.step
    dsimp only
    rcases unwrap_cases mac s.ctx data with same | ⟨metadata, chunk, call, fresh, -, -⟩
    · rw [same]
      exact { tracks with }
    rw [call]
    have new : metadata.nonce ∉ s.accepted.reverse.take capacity := by
      rw [← tracks.nonces.contains_iff positive]
      exact fun seen => Bool.false_ne_true (fresh.symm.trans seen)
    refine ⟨tracks.window, ?_, tracks.completedIds, tracks.spaced.append new⟩
    show (s.ctx.nonces.add s.ctx.capacity metadata.nonce).Remembers capacity (s.accepted ++ [metadata.nonce]).reverse
    rw [tracks.window, reverse_append]
    exact tracks.nonces.add positive _
  | markComplete messageId =>
    unfold Receiver.step Context.markComplete
    dsimp only
    split
    · exact { tracks with }
    refine ⟨tracks.window, tracks.nonces, ?_, tracks.spaced⟩
    show (s.ctx.completedIds.add s.ctx.capacity messageId).Remembers capacity (s.completed ++ [messageId]).reverse
    rw [tracks.window, reverse_append]
    exact tracks.completedIds.add positive _

lemma run_tracks {key : Octets keySize} {sessionId : Octets sessionIdSize} {ctx : Context}
    (created : Context.create key sessionId capacity = some ctx) (ops : List Op) :
    0 < capacity ∧ Tracks capacity (run mac ctx ops) := by
  unfold Context.create at created
  split at created
  · cases created
  have positive : 0 < capacity := by omega
  refine ⟨positive, ?_⟩
  have start : Tracks capacity ⟨ctx, [], []⟩ := by
    rw [← Option.some.inj created]
    exact ⟨rfl, RingCache.empty_remembers _ _, RingCache.empty_remembers _ _, fun before x after split => by simp at split⟩
  unfold run
  generalize (⟨ctx, [], []⟩ : Receiver) = s at start
  induction ops generalizing s with
  | nil => exact start
  | cons op rest ih => exact ih _ (start.step positive op)

end Receiver

/-- An envelope is opened to what was wrapped unless it is a replay. In every run an accepted nonce is not accepted
again within the next `capacity` acceptances, a completed message is rejected until `capacity` further ones complete, and
a failing unwrap changes nothing. -/
theorem envelope_replay (mac : Mac) :
    (∀ (sender receiver : Context) (messageId : Octets messageIdSize) (nonce : Octets nonceSize) (chunk wire : Bytes),
      sender.wrap mac messageId nonce chunk = some wire → receiver.key = sender.key →
      receiver.sessionId = sender.sessionId → cacheContains receiver.nonces nonce = false →
      cacheContains receiver.completedIds messageId = false →
      ∃ parsed, chunkParse chunk = some parsed ∧ (receiver.unwrap mac wire).1 = some (⟨messageId, nonce⟩, parsed)) ∧
    ∀ (key : Octets keySize) (sessionId : Octets sessionIdSize) (capacity : Nat) (ctx : Context),
      Context.create key sessionId capacity = some ctx → ∀ ops,
      (∀ before nonce after, (Receiver.run mac ctx ops).accepted = before ++ nonce :: after →
        nonce ∉ after.take capacity) ∧
      (∀ before messageId after, (Receiver.run mac ctx ops).completed = before ++ messageId :: after →
        after.length < capacity → ∀ data, (data.drop headerSize).take messageIdSize = messageId.val →
        ((Receiver.run mac ctx ops).ctx.unwrap mac data).1 = none) ∧
      ∀ data, ((Receiver.run mac ctx ops).ctx.unwrap mac data).1 = none →
        ((Receiver.run mac ctx ops).ctx.unwrap mac data).2 = (Receiver.run mac ctx ops).ctx := by
  refine ⟨fun sender receiver messageId nonce chunk wire wrapped key session fresh open_ => ?_,
    fun key sessionId capacity ctx created ops => ?_⟩
  · obtain ⟨parsed, parse, opened⟩ := unwrap_wrap wrapped key session fresh open_
    exact ⟨parsed, parse, by rw [opened]⟩
  have ⟨positive, tracks⟩ : 0 < capacity ∧ Receiver.Tracks capacity (Receiver.run mac ctx ops) :=
    Receiver.run_tracks created ops
  refine ⟨tracks.spaced, fun before messageId after split recent data named => ?_, fun data failed => ?_⟩
  · rcases unwrap_cases mac (Receiver.run mac ctx ops).ctx data with same | ⟨metadata, chunk, -, -, open_, id⟩
    · rw [same]
    · have held := (tracks.completedIds.contains_iff positive).mpr (Receiver.mem_last split recent)
      rw [show metadata.messageId = messageId from Subtype.ext (id.trans named)] at open_
      exact absurd (open_.symm.trans held) Bool.false_ne_true
  · rcases unwrap_cases mac (Receiver.run mac ctx ops).ctx data with same | ⟨metadata, chunk, call, -⟩
    · rw [same]
    · rw [call] at failed
      cases failed

/-- A new context opens its own envelope of a chunk with one octet. -/
theorem envelope_replay_first :
    let mac : Mac := fun _ _ => ⟨replicate 32 5, length_replicate⟩
    let messageId : Octets messageIdSize := ⟨replicate 16 3, length_replicate⟩
    let nonce : Octets nonceSize := ⟨replicate 12 4, length_replicate⟩
    ∃ ctx wire parsed,
      Context.create ⟨replicate 32 1, length_replicate⟩ ⟨replicate 16 2, length_replicate⟩ 4 = some ctx ∧
        ctx.wrap mac messageId nonce [0, 1, 0, 1, 0, 1, 0, 1, 7] = some wire ∧
        (ctx.unwrap mac wire).1 = some (⟨messageId, nonce⟩, parsed) := by
  intro mac messageId nonce
  obtain ⟨ctx, created⟩ : ∃ ctx, Context.create ⟨replicate 32 1, length_replicate⟩
      ⟨replicate 16 2, length_replicate⟩ 4 = some ctx := ⟨_, rfl⟩
  obtain ⟨wire, wrapped⟩ : ∃ wire, ctx.wrap mac messageId nonce [0, 1, 0, 1, 0, 1, 0, 1, 7] = some wire := ⟨_, rfl⟩
  have unused : cacheContains ctx.nonces nonce = false ∧ cacheContains ctx.completedIds messageId = false := by
    cases created
    decide
  obtain ⟨parsed, -, opened⟩ := (envelope_replay mac).1 ctx ctx messageId nonce _ wire wrapped rfl rfl unused.1 unused.2
  exact ⟨ctx, wire, parsed, created, wrapped, opened⟩

end Cwist.Seq.Auth
