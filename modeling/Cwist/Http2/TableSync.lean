import Cwist.Hpack.Rfc7541
import Cwist.Http2.Steps

namespace Cwist.H2

open Rfc7541 (Decodes Reads)

def blockEffect (table : HpackTable) (block : Bytes) : HpackTable :=
  (decodeHeaderBlock table ⟨none, false⟩ block true).2.table

structure Received where
  blocks : List Bytes := []
  pending : Option Bytes := none

namespace Received

def frame (r : Received) (f : Frame) : Received :=
  if f.type = Frame.headers then
    match f.headerFragment with
    | none => r
    | some block => if f.endHeaders then { r with blocks := r.blocks ++ [block] } else { r with pending := some block }
  else if f.type = Frame.continuation then
    match r.pending with
    | none => r
    | some block =>
      if f.endHeaders then ⟨r.blocks ++ [block ++ f.payload], none⟩ else { r with pending := some (block ++ f.payload) }
  else r

def input (r : Received) : Input → Received
  | .frame f => r.frame f
  | _ => r

def table (r : Received) : HpackTable := r.blocks.foldl blockEffect .init

end Received

def received (inputs : List Input) : Received := inputs.foldl Received.input {}

def Event.isRefusal : Event → Bool
  | .refused _ => true
  | _ => false

inductive Rfc7541.Sends : List Bytes → Rfc7541.Table → Prop where
  | nothing : Sends [] HpackTable.init.toRfc
  | block {blocks : List Bytes} {block : Bytes} {fields : List Rfc7541.Field} {t t' : Rfc7541.Table} :
      Sends blocks t → Decodes block t fields t' → Sends (blocks ++ [block]) t'

/-- The block takes one table to the other, and its encoder expects the same. -/
structure Absorbs (table : HpackTable) (block : Bytes) (table' : HpackTable) : Prop where
  effect : table' = blockEffect table block
  decodes : table.Valid → ∃ fields, Decodes block table.toRfc fields table'.toRfc

variable {env : Env} {hc hc₁ : Conn} {streamId : Nat} {block : Bytes}

section Block

variable {s : Stream} {isRequest : Bool} {rc : HdrRc}

lemma absorbs_nothing (table : HpackTable) : Absorbs table [] table :=
  ⟨rfl, fun _ => ⟨[], 0, .start, le_refl 0⟩⟩

lemma absorbs_decoded {table : HpackTable} {target : RequestHead}
    (sound : (decodeHeaderBlock table target block isRequest).1 ≠ .compressionError) :
    Absorbs table block (decodeHeaderBlock table target block isRequest).2.table :=
  ⟨(decodeHeaderBlock_view table _ target block _ isRequest).1, fun valid => ⟨_, decodeHeaderBlock_decodes valid sound⟩⟩

lemma DecodeCase.absorbs (decode : DecodeCase env hc s block isRequest (rc, hc₁)) (goes : rc ≠ .protocolError) :
    Absorbs hc.table block hc₁.table ∧ hc₁.cont = hc.cont := by
  cases decode with
  | decoded stage _ sound => exact ⟨stage.acts.leaves.table ▸ absorbs_decoded sound, stage.acts.leaves.cont⟩
  | reset acts _ sound => exact ⟨acts.leaves.table ▸ absorbs_decoded sound, acts.leaves.cont⟩
  | failed => exact absurd rfl goes
  | exhausted => exact absurd rfl goes

lemma refused_mem (acts : Acts env (hc.log (.refused streamId)) hc₁) : .refused streamId ∈ hc₁.trace :=
  acts.keeps.trace.mem (List.mem_append_right _ List.mem_cons_self)

lemma BlockCase.absorbs (decode : BlockCase env hc streamId block (rc, hc₁)) (goes : rc ≠ .protocolError)
    (calm : rc ≠ .calm) (kept : ∀ id, .refused id ∉ hc₁.trace) : Absorbs hc.table block hc₁.table ∧ hc₁.cont = hc.cont := by
  cases decode with
  | empty s found nothing => exact ⟨nothing ▸ absorbs_nothing hc.table, rfl⟩
  | trailers _ _ decode => exact decode.absorbs goes
  | refused _ _ acts => exact absurd (refused_mem acts) (kept streamId)
  | refusedSpent => exact absurd rfl calm
  | nothingSpent => exact absurd rfl calm
  | nothing _ _ acts _ nothing => exact ⟨nothing ▸ acts.leaves.table ▸ absorbs_nothing hc.table, acts.leaves.cont⟩
  | request absent _ _ decode => exact decode.absorbs goes

end Block

/-- The connection has decoded what it has received, and collects the block that is still open. -/
structure InSync (hc : Conn) (r : Received) : Prop where
  unique : hc.Unique
  valid : hc.table.Valid
  table : hc.table = r.table
  sends : Rfc7541.Sends r.blocks hc.table.toRfc
  expecting : hc.cont.expecting = r.pending.isSome
  collected : ∀ block, r.pending = some block → hc.cont.buf = block ∧ hc.cont.discard = false

section Frames

variable {hc' : Conn} {r : Received} {endHeaders endStream : Bool} {f : Frame}

lemma InSync.leaves (sync : InSync hc r) (leaves : Leaves hc hc') : InSync hc' r where
  unique := leaves.unique sync.unique
  valid := leaves.table ▸ sync.valid
  table := leaves.table.trans sync.table
  sends := leaves.table ▸ sync.sends
  expecting := leaves.cont ▸ sync.expecting
  collected := leaves.cont ▸ sync.collected

lemma InSync.absorbs (sync : InSync hc r) (absorbs : Absorbs hc.table block hc'.table) (unique : hc'.Unique)
    (idle : hc'.cont.expecting = false) : InSync hc' ⟨r.blocks ++ [block], none⟩ := by
  obtain ⟨fields, decodes⟩ := absorbs.decodes sync.valid
  refine ⟨unique, ?_, ?_, sync.sends.block decodes, idle, nofun⟩
  · rw [absorbs.effect]
    exact decodeHeaderBlock_valid _ block true sync.valid
  · rw [absorbs.effect, sync.table, Received.table, Received.table, List.foldl_append]
    rfl

lemma abort_connected {code : ErrorCode} : (hc.abort env code).connected = false := rfl

lemma not_refused_before {before after : List Event} (grown : before <+: after) (kept : ∀ id, .refused id ∉ after) :
    ∀ id, Event.refused id ∉ before := fun id member => kept id (grown.subset member)

section
variable (sync : InSync hc r)
include sync

lemma InSync.pending (open_ : hc.cont.expecting = true) : r.pending = some hc.cont.buf := by
  have waiting := sync.expecting.symm.trans open_
  obtain ⟨block, pending⟩ := Option.isSome_iff_exists.mp waiting
  rw [pending, (sync.collected block pending).1]

lemma InSync.idle (idle : hc.cont.expecting = false) : r.pending = none := by
  have nothing := sync.expecting.symm.trans idle
  simpa using nothing

lemma headersBlock_inSync (idle : hc.cont.expecting = false)
    (opened : (hc.headersBlock env streamId block endHeaders endStream).connected = true)
    (kept : ∀ id, .refused id ∉ (hc.headersBlock env streamId block endHeaders endStream).trace) :
    InSync (hc.headersBlock env streamId block endHeaders endStream)
      (if endHeaders then { r with blocks := r.blocks ++ [block] } else { r with pending := some block }) := by
  unfold Conn.headersBlock at opened kept ⊢
  dsimp only at opened kept ⊢
  have noted := leaves_endStream hc streamId endStream
  generalize (if endStream then hc.log (.endStream streamId) else hc) = base at noted opened kept ⊢
  have sync := sync.leaves noted
  have idle : base.cont.expecting = false := noted.cont ▸ idle
  have begun : BeginCase env base streamId block endHeaders endStream _ := beginHeaders_cases sync.unique idle
  generalize base.beginHeaders env streamId block endHeaders endStream = result at begun opened kept ⊢
  obtain ⟨rc, hc₁⟩ := result
  -- Both branches that go on only add to the state that `h2_begin_headers` has left.
  suffices reached : rc ≠ .protocolError → rc ≠ .calm → (∀ id, .refused id ∉ hc₁.trace) →
      InSync hc₁ (if endHeaders then { r with blocks := r.blocks ++ [block] } else { r with pending := some block }) by
    cases rc with
    | protocolError => exact absurd opened (by simp [abort_connected])
    | calm => exact absurd opened (by simp [abort_connected])
    | handled => exact { reached nofun nofun kept with }
    | ok =>
      let noted := hc₁.setLast (max hc₁.lastProcessedStreamId streamId)
      have rest : Leaves noted (noted.afterHeaders env endStream streamId) := afterHeaders_leaves
      have sync : InSync noted _ := { reached nofun nofun (not_refused_before rest.trace kept) with }
      exact sync.leaves rest
  intro sound calm kept
  have unique := begun.proceeds.unique sync.unique
  cases begun with
  | invalid => exact absurd rfl sound
  | tooLong => exact absurd rfl calm
  | complete _ ended decode =>
    obtain ⟨absorbs, cont⟩ := decode.absorbs sound calm kept
    have complete := sync.absorbs absorbs unique (cont ▸ idle)
    rw [if_pos ended, sync.idle idle]
    exact complete
  | refused absent acts => exact absurd (refused_mem acts) (kept streamId)
  | exhausted => exact absurd rfl calm
  | begun fresh more =>
    rw [if_neg (by simp [more])]
    exact ⟨unique, sync.valid, sync.table, sync.sends, rfl, fun _ same => ⟨Option.some.inj same, rfl⟩⟩

lemma continuationCase_inSync (opened : (hc.continuationCase env f).connected = true)
    (kept : ∀ id, .refused id ∉ (hc.continuationCase env f).trace) :
    ∃ block, r.pending = some block ∧ InSync (hc.continuationCase env f)
      (if f.endHeaders then ⟨r.blocks ++ [block ++ f.payload], none⟩ else { r with pending := some (block ++ f.payload) }) := by
  unfold Conn.continuationCase at opened kept ⊢
  split at opened
  · exact absurd opened (by simp [abort_connected])
  rename_i valid
  rw [if_neg valid] at kept ⊢
  obtain ⟨open_, -, continued⟩ := continuation_expected env sync.unique valid
  have pending := sync.pending open_
  refine ⟨hc.cont.buf, pending, ?_⟩
  generalize hc.handleContinuation env f.streamId f.payload f.endHeaders = result at continued opened kept ⊢
  obtain ⟨rc, hc₁⟩ := result
  suffices reached : rc ≠ .protocolError → rc ≠ .calm → (∀ id, .refused id ∉ hc₁.trace) →
      InSync hc₁ (if f.endHeaders then ⟨r.blocks ++ [hc.cont.buf ++ f.payload], none⟩
        else { r with pending := some (hc.cont.buf ++ f.payload) }) by
    cases rc with
    | protocolError => exact absurd opened (by simp [abort_connected])
    | calm => exact absurd opened (by simp [abort_connected])
    | handled => exact reached nofun nofun kept
    | ok =>
      have rest : Leaves hc₁ (hc₁.afterContinuation env f) := afterContinuation_leaves
      exact (reached nofun nofun (not_refused_before rest.trace kept)).leaves rest
  intro sound calm kept
  have unique := continued.proceeds.unique sync.unique
  have stays := (sync.collected _ pending).2
  cases continued with
  | flood => exact absurd rfl calm
  | discarded refused => exact absurd refused (by simp [stays])
  | collected _ more =>
    rw [if_neg (by simp [more])]
    exact ⟨unique, sync.valid, sync.table, sync.sends, open_, fun _ same => ⟨Option.some.inj same, stays⟩⟩
  | complete _ ended decode =>
    rw [if_pos ended]
    exact sync.absorbs (decode.absorbs sound calm kept).1 unique rfl

lemma frameCase_inSync (opened : (hc.frameCase env f).connected = true)
    (kept : ∀ id, .refused id ∉ (hc.frameCase env f).trace) : InSync (hc.frameCase env f) (r.frame f) := by
  rcases frameCase_cases env hc f with
    ⟨code, aborts⟩ | ⟨type, idle, headers⟩ | ⟨type, continuation⟩ | ⟨type, -, data⟩ | ⟨headers, continuation, -, acts⟩
  · rw [aborts] at opened
    exact absurd opened (by simp [abort_connected])
  · rw [headers] at opened kept ⊢
    rw [Received.frame, if_pos type]
    unfold Conn.headersCase at opened kept ⊢
    split at opened
    · exact absurd opened (by simp [Conn.abortAt, Conn.close])
    rename_i odd
    rw [if_neg odd] at kept ⊢
    cases fragment : f.headerFragment with
    | none =>
      rw [fragment] at opened
      exact absurd opened (by simp [abort_connected])
    | some block =>
      rw [fragment] at opened kept
      exact headersBlock_inSync sync idle opened kept
  · rw [continuation] at opened kept ⊢
    obtain ⟨block, pending, rest⟩ := continuationCase_inSync sync opened kept
    rw [Received.frame, if_neg (by rw [type]; decide), if_pos type, pending]
    exact rest
  · rw [Received.frame, if_neg (by rw [type]; decide), if_neg (by rw [type]; decide)]
    rw [data] at opened ⊢
    rcases dataCase_leaves env hc f with leaves | ⟨hc₁, -, fault⟩
    · exact sync.leaves leaves
    · rw [fault] at opened
      exact absurd opened (by simp [Conn.fault])
  · rw [Received.frame, if_neg headers, if_neg continuation]
    exact sync.leaves acts.leaves

lemma turn_inSync {input : Input} (opened : (hc.turn env input).connected = true)
    (kept : ∀ id, .refused id ∉ (hc.turn env input).trace) : InSync (hc.turn env input) (r.input input) := by
  rcases turn_cases env hc input with ⟨acts, idle⟩ | ⟨f, rfl, -, acts, -, result⟩
  · cases input with
    | frame f =>
      have connected := acts.keeps.connected opened
      have stillOpen : (hc.housekeeping env (.frame f)).connected = true := by
        by_contra closed
        have same : hc.turn env (.frame f) = hc.housekeeping env (.frame f) := by simp [Conn.turn, connected, closed]
        exact closed (same ▸ opened)
      exact absurd ⟨connected, stillOpen⟩ (idle f rfl)
    | completions queue => exact sync.leaves acts.leaves
    | deadline => exact sync.leaves acts.leaves
    | shutdown => exact sync.leaves acts.leaves
    | hangUp => exact sync.leaves acts.leaves
  · rw [result] at opened kept ⊢
    exact frameCase_inSync (sync.leaves acts.leaves) opened kept

end

end Frames

lemma start_inSync (env : Env) (sequenced : Bool) : InSync (.start env sequenced) {} := by
  have initial : InSync (.init env sequenced) {} :=
    ⟨List.nodup_nil, HpackTable.valid_init, rfl, .nothing, rfl, nofun⟩
  exact initial.leaves (start_acts env sequenced).leaves

lemma run_inSync (inputs : List Input) {r : Received} (sync : InSync hc r)
    (opened : (hc.run env inputs).connected = true) (kept : ∀ id, .refused id ∉ (hc.run env inputs).trace) :
    InSync (hc.run env inputs) (inputs.foldl Received.input r) := by
  induction inputs generalizing hc r with
  | nil => exact sync
  | cons input rest ih =>
    let next := hc.turn env input
    have unique := turn_unique env input sync.unique
    have stillOpen : next.connected = true := by
      by_contra closed
      have same := run_closed env rest (by simpa using closed)
      exact closed (same ▸ opened)
    exact ih (turn_inSync sync stillOpen (not_refused_before (run_trace env rest unique) kept)) opened kept

/-- While a connection is open and has refused no stream, its table is the one that all complete blocks
lead to, and so the one that the peer's encoder has. -/
theorem run_table_inSync (env : Env) (sequenced : Bool) (inputs : List Input)
    (opened : ((Conn.start env sequenced).run env inputs).connected = true)
    (kept : ∀ e ∈ ((Conn.start env sequenced).run env inputs).trace, e.isRefusal = false) :
    ((Conn.start env sequenced).run env inputs).table = (received inputs).table ∧
      Rfc7541.Sends (received inputs).blocks ((Conn.start env sequenced).run env inputs).table.toRfc := by
  have sync := run_inSync inputs (start_inSync env sequenced) opened fun id member => Bool.noConfusion (kept _ member)
  exact ⟨sync.table, sync.sends⟩

def twoRequests : List Input :=
  [.frame ⟨Frame.headers, 0x04, 1, [0x82, 0x86, 0x84, 0x40, 0x01, 0x61, 0x01, 0x62]⟩,
    .frame ⟨Frame.headers, 0x00, 3, [0x82, 0x86, 0x84, 0xbe]⟩, .frame ⟨Frame.continuation, 0x04, 3, [0x40, 0x01, 0x63, 0x01, 0x64]⟩]

/-- A request that adds an entry, and one in two frames that uses it and adds another. -/
theorem run_table_inSync_request :
    Rfc7541.Sends [[0x82, 0x86, 0x84, 0x40, 0x01, 0x61, 0x01, 0x62], [0x82, 0x86, 0x84, 0xbe, 0x40, 0x01, 0x63, 0x01, 0x64]]
      ((Conn.start (.simple .deferred) false).run (.simple .deferred) twoRequests).table.toRfc :=
  (run_table_inSync (.simple .deferred) false twoRequests (by decide) (by decide)).2

def refusedEntry : List Input :=
  (List.range 100).map (fun i => .frame ⟨Frame.headers, 0x04, 2 * i + 1, [0x82, 0x86, 0x84]⟩) ++
    [.frame ⟨Frame.headers, 0x04, 201, [0x82, 0x86, 0x84, 0x40, 0x01, 0x61, 0x01, 0x62]⟩]

/-- The block of a refused stream is not decoded: the connection goes on without the peer's entry. -/
theorem run_table_refused :
    ((Conn.start (.simple .deferred) false).run (.simple .deferred) refusedEntry).connected = true ∧
      ((Conn.start (.simple .deferred) false).run (.simple .deferred) refusedEntry).table ≠
        (received refusedEntry).table := by
  decide +kernel

end Cwist.H2
