import Cwist.Http2.Lifecycle

namespace Cwist.H2

/-- The identifiers in use, in the table and in an open header block, all have the property. -/
structure Ids (P : Nat → Prop) (hc : Conn) : Prop where
  streams : ∀ id ∈ hc.streams.map (·.streamId), P id
  block : hc.cont.expecting = true → P hc.cont.streamId

variable {env : Env} {hc hc' : Conn}

section Frames

variable {hc₁ : Conn} {P Q : Nat → Prop} {s : Stream} {streamId last id : Nat} {block : Bytes}
    {endHeaders endStream isRequest : Bool} {rc : HdrRc} {f : Frame}

lemma Ids.leaves (ids : Ids P hc) (leaves : Leaves hc hc') : Ids P hc' where
  streams := fun id member => ids.streams id (leaves.ids.subset member)
  block := leaves.cont ▸ ids.block

lemma Ids.keeps (ids : Ids P hc) (keeps : Keeps hc hc') : Ids P hc' where
  streams := fun id member => ids.streams id (keeps.ids.subset member)
  block := keeps.cont ▸ ids.block

lemma Ids.mono (ids : Ids P hc) (weaker : ∀ id, P id → Q id) : Ids Q hc :=
  ⟨fun id member => weaker id (ids.streams id member), fun open_ => weaker _ (ids.block open_)⟩

lemma Ids.setLast (ids : Ids P hc) : Ids P (hc.setLast last) := { ids with }

lemma DecodeCase.ids (decode : DecodeCase env hc s block isRequest (rc, hc₁)) :
    hc₁.streams.map (·.streamId) ⊆ hc.streams.map (·.streamId) := by
  cases decode with
  | decoded stage => exact stage.acts.leaves.ids.subset
  | reset acts => exact acts.leaves.ids.subset
  | failed acts => exact acts.leaves.ids.subset
  | exhausted exhausts => exact exhausts.keeps.ids.subset

lemma BlockCase.ids (decode : BlockCase env hc streamId block (rc, hc₁))
    (member : id ∈ hc₁.streams.map (·.streamId)) : id ∈ hc.streams.map (·.streamId) ∨ id = streamId := by
  have opened (member : id ∈ (hc.streamOpen streamId).streams.map (·.streamId)) :
      id ∈ hc.streams.map (·.streamId) ∨ id = streamId := by
    rw [streamOpen_streams] at member
    exact (List.mem_cons.mp member).symm
  cases decode with
  | empty => exact .inl member
  | trailers _ _ decode => exact .inl (decode.ids member)
  | refused _ _ acts => exact .inl (acts.leaves.ids.subset member)
  | refusedSpent _ exhausts => exact .inl (exhausts.keeps.ids.subset member)
  | nothing _ _ acts => exact opened (acts.leaves.ids.subset member)
  | nothingSpent _ _ exhausts => exact opened (exhausts.keeps.ids.subset member)
  | request _ _ _ decode => exact opened (decode.ids member)

lemma BlockCase.keepsIds (decode : BlockCase env hc streamId block (rc, hc₁)) (ids : Ids P hc) (new : P streamId) :
    Ids P hc₁ where
  streams := fun id member => by
    rcases decode.ids member with old | rfl
    · exact ids.streams id old
    · exact new
  block := decode.cont.1 ▸ ids.block

lemma headersBlock_ids (ids : Ids P hc) (unique : hc.Unique) (idle : hc.cont.expecting = false) (new : P streamId) :
    Ids P (hc.headersBlock env streamId block endHeaders endStream) ∧
      ((hc.headersBlock env streamId block endHeaders endStream).lastProcessedStreamId =
          max hc.lastProcessedStreamId streamId ∨
        (hc.headersBlock env streamId block endHeaders endStream).lastProcessedStreamId = hc.lastProcessedStreamId ∧
          (hc.headersBlock env streamId block endHeaders endStream).connected = false) := by
  unfold Conn.headersBlock
  dsimp only
  have noted := leaves_endStream hc streamId endStream
  generalize (if endStream then hc.log (.endStream streamId) else hc) = base at noted ⊢
  have begun : BeginCase env base streamId block endHeaders endStream _ :=
    beginHeaders_cases (noted.unique unique) (noted.cont ▸ idle)
  have ids := ids.leaves noted
  rw [← noted.last]
  generalize base.beginHeaders env streamId block endHeaders endStream = result at begun ⊢
  obtain ⟨rc, hc₁⟩ := result
  suffices reached : Ids P hc₁ ∧ hc₁.lastProcessedStreamId = base.lastProcessedStreamId by
    obtain ⟨ids, last⟩ := reached
    have aborts (code : ErrorCode) : Leaves hc₁ (hc₁.abort env code) := abort_acts.leaves
    cases rc with
    | protocolError => exact ⟨ids.leaves (aborts _), .inr ⟨(aborts _).last.trans last, rfl⟩⟩
    | calm => exact ⟨ids.leaves (aborts _), .inr ⟨(aborts _).last.trans last, rfl⟩⟩
    | handled => exact ⟨ids.setLast, .inl (by rw [← last]; rfl)⟩
    | ok =>
      have after : Leaves _ ((hc₁.setLast (max hc₁.lastProcessedStreamId streamId)).afterHeaders env endStream streamId) :=
        afterHeaders_leaves
      refine ⟨ids.setLast.leaves after, .inl (after.last.trans ?_)⟩
      rw [← last]
      rfl
  cases begun with
  | invalid => exact ⟨ids, rfl⟩
  | tooLong => exact ⟨ids, rfl⟩
  | complete _ _ decode => exact ⟨decode.keepsIds ids new, decode.cont.2⟩
  | refused _ acts =>
    exact ⟨⟨(ids.leaves ((leaves_log base (by trivial)).trans acts.leaves)).streams, fun _ => new⟩, acts.leaves.last⟩
  | exhausted exhausts => exact ⟨(ids.leaves (leaves_log base (by trivial))).keeps exhausts.keeps, exhausts.keeps.last⟩
  | begun => exact ⟨⟨ids.streams, fun _ => new⟩, rfl⟩

lemma continuationCase_ids (ids : Ids P hc) (unique : hc.Unique) : Ids P (hc.continuationCase env f) ∧
      (hc.continuationCase env f).lastProcessedStreamId = hc.lastProcessedStreamId := by
  have aborts (hc : Conn) (code : ErrorCode) : Leaves hc (hc.abort env code) := abort_acts.leaves
  unfold Conn.continuationCase
  split
  · exact ⟨ids.leaves (aborts hc _), (aborts hc _).last⟩
  rename_i valid
  obtain ⟨open_, -, continued⟩ := continuation_expected env unique valid
  generalize hc.handleContinuation env f.streamId f.payload f.endHeaders = result at continued ⊢
  obtain ⟨rc, hc₁⟩ := result
  suffices reached : Ids P hc₁ ∧ hc₁.lastProcessedStreamId = hc.lastProcessedStreamId by
    obtain ⟨ids, last⟩ := reached
    cases rc with
    | protocolError => exact ⟨ids.leaves (aborts hc₁ _), (aborts hc₁ _).last.trans last⟩
    | calm => exact ⟨ids.leaves (aborts hc₁ _), (aborts hc₁ _).last.trans last⟩
    | handled => exact ⟨ids, last⟩
    | ok =>
      have after : Leaves hc₁ (hc₁.afterContinuation env f) := afterContinuation_leaves
      exact ⟨ids.leaves after, after.last.trans last⟩
  have id := ids.block open_
  cases continued with
  | flood => exact ⟨⟨ids.streams, fun _ => id⟩, rfl⟩
  | discarded _ _ after => exact ⟨⟨ids.streams, fun open_' => (after open_').1 ▸ id⟩, rfl⟩
  | collected => exact ⟨⟨ids.streams, fun _ => id⟩, rfl⟩
  | complete _ _ decode =>
    have kept := decode.keepsIds ⟨ids.streams, fun _ => id⟩ id
    exact ⟨⟨kept.streams, nofun⟩, decode.cont.2⟩

lemma frameCase_ids (ids : Ids P hc) (unique : hc.Unique)
    (new : f.type = Frame.headers → f.streamId % 2 = 1 → P f.streamId) : Ids P (hc.frameCase env f) := by
  have aborts (last : Nat) (code : ErrorCode) : Leaves hc (hc.abortAt env last code) := (Acts.refl hc).abortAt.leaves
  rcases frameCase_cases env hc f with
    ⟨code, aborted⟩ | ⟨type, idle, headers⟩ | ⟨-, continuation⟩ | ⟨-, -, data⟩ | ⟨-, -, -, acts⟩
  · exact aborted ▸ ids.leaves (aborts _ code)
  · rw [headers]
    unfold Conn.headersCase
    split
    · exact ids.leaves (aborts _ _)
    split
    · exact ids.leaves (aborts _ _)
    · exact (headersBlock_ids ids unique idle (new type (by omega))).1
  · exact continuation ▸ (continuationCase_ids ids unique).1
  · rw [data]
    rcases dataCase_leaves env hc f with leaves | ⟨hc₁, leaves, fault⟩
    · exact ids.leaves leaves
    · rw [fault]
      have kept := ids.leaves leaves
      exact ⟨kept.streams, kept.block⟩
  · exact ids.leaves acts.leaves

lemma frameCase_last (unique : hc.Unique) : hc.lastProcessedStreamId ≤ (hc.frameCase env f).lastProcessedStreamId ∧
      (f.type = Frame.headers → (hc.frameCase env f).connected = true →
        f.streamId ≤ (hc.frameCase env f).lastProcessedStreamId) := by
  have anything : Ids (fun _ => True) hc := ⟨fun _ _ => trivial, fun _ => trivial⟩
  rcases frameCase_cases env hc f with
    ⟨code, aborted⟩ | ⟨-, idle, headers⟩ | ⟨type, continuation⟩ | ⟨type, -, data⟩ | ⟨type, -, -, acts⟩
  · rw [aborted]
    exact ⟨le_refl _, fun _ opened => by simp [Conn.abort, Conn.abortAt, Conn.close] at opened⟩
  · rw [headers]
    unfold Conn.headersCase
    split
    · exact ⟨le_refl _, fun _ opened => by simp [Conn.abortAt, Conn.close] at opened⟩
    split
    · exact ⟨le_refl _, fun _ opened => by simp [Conn.abort, Conn.abortAt, Conn.close] at opened⟩
    rename_i block _
    have begun : Ids _ (hc.headersBlock env f.streamId block f.endHeaders f.endStream) ∧ _ :=
      headersBlock_ids anything unique idle trivial
    rcases begun.2 with taken | ⟨kept, closed⟩
    · rw [taken]
      exact ⟨le_max_left _ _, fun _ _ => le_max_right _ _⟩
    · rw [kept]
      exact ⟨le_refl _, fun _ opened => by simp [closed] at opened⟩
  · rw [continuation, (continuationCase_ids anything unique).2]
    exact ⟨le_refl _, fun headers => by simp [type, Frame.headers, Frame.continuation] at headers⟩
  · rw [data]
    have kept : (hc.dataCase env f).lastProcessedStreamId = hc.lastProcessedStreamId := by
      rcases dataCase_leaves env hc f with leaves | ⟨hc₁, leaves, fault⟩
      · exact leaves.last
      · rw [fault]
        exact leaves.last
    rw [kept]
    exact ⟨le_refl _, fun headers => by simp [type, Frame.headers, Frame.data] at headers⟩
  · rw [acts.leaves.last]
    exact ⟨le_refl _, fun headers => absurd headers type⟩

end Frames

/-- What the stream table keeps. `last` bounds it only while the connection is open: a header block that
is a connection error leaves its stream behind without having been counted as processed. -/
structure Tabled (hc : Conn) : Prop where
  unique : hc.Unique
  counted : hc.Counted
  odd : Ids (· % 2 = 1) hc
  below : hc.connected = true → Ids (· ≤ hc.lastProcessedStreamId) hc

section Runs

lemma Tabled.leaves (tabled : Tabled hc) (opened : hc.connected = true) (leaves : Leaves hc hc') : Tabled hc' where
  unique := leaves.unique tabled.unique
  counted := leaves.counted tabled.counted
  odd := tabled.odd.leaves leaves
  below := fun _ => leaves.last ▸ (tabled.below opened).leaves leaves

lemma frameCase_tabled {f : Frame} (tabled : Tabled hc) (opened : hc.connected = true) : Tabled (hc.frameCase env f) := by
  have last : hc.lastProcessedStreamId ≤ (hc.frameCase env f).lastProcessedStreamId ∧ _ := frameCase_last tabled.unique
  have proceeds : Proceeds hc (hc.frameCase env f) ∨ _ := frameCase_proceeds tabled.unique
  refine ⟨?_, ?_, frameCase_ids tabled.odd tabled.unique fun _ odd => odd, fun stillOpen => ?_⟩
  · rcases proceeds with proceeds | ⟨-, hc₁, proceeds, fault⟩
    · exact proceeds.unique tabled.unique
    · rw [fault]
      exact proceeds.unique tabled.unique
  · rcases proceeds with proceeds | ⟨-, hc₁, proceeds, fault⟩
    · exact proceeds.counted tabled.counted
    · rw [fault]
      have counted := proceeds.counted tabled.counted
      exact ⟨counted.active, counted.limit⟩
  · have before := (tabled.below opened).mono fun id bound => bound.trans last.1
    exact frameCase_ids before tabled.unique fun headers _ => last.2 headers stillOpen

lemma turn_tabled {input : Input} (tabled : Tabled hc) : Tabled (hc.turn env input) := by
  by_cases closed : hc.connected = false
  · have same : hc.turn env input = hc := run_closed env [input] closed
    rw [same]
    exact tabled
  have opened : hc.connected = true := by simpa using closed
  rcases turn_cases env hc input with ⟨acts, -⟩ | ⟨f, -, -, acts, stillOpen, result⟩
  · exact tabled.leaves opened acts.leaves
  · rw [result]
    exact frameCase_tabled (tabled.leaves opened acts.leaves) stillOpen

lemma turn_last (input : Input) (unique : hc.Unique) :
    hc.lastProcessedStreamId ≤ (hc.turn env input).lastProcessedStreamId := by
  rcases turn_cases env hc input with ⟨acts, -⟩ | ⟨f, -, -, acts, -, result⟩
  · exact acts.leaves.last.ge
  · rw [result]
    exact acts.leaves.last.ge.trans (frameCase_last (acts.leaves.unique unique)).1

lemma start_tabled (env : Env) (sequenced : Bool) : Tabled (.start env sequenced) := by
  have streams := init_streams env sequenced
  have initial : Tabled (.init env sequenced) :=
    { unique := List.nodup_nil
      counted := ⟨rfl, by simp [streams]⟩
      odd := ⟨by simp [streams], nofun⟩
      below := fun _ => ⟨by simp [streams], nofun⟩ }
  exact initial.leaves rfl (start_acts env sequenced).leaves

lemma run_tabled (inputs : List Input) (tabled : Tabled hc) : Tabled (hc.run env inputs) := by
  induction inputs generalizing hc with
  | nil => exact tabled
  | cons input rest ih => exact ih (turn_tabled tabled)

end Runs

/-- After every input the counter is the length of the stream table, the table is within the announced
limit, its identifiers are distinct and odd, and `last` has not decreased. While the connection is open
`last` also bounds the identifiers. -/
theorem run_streamTable (env : Env) (sequenced : Bool) (inputs : List Input) :
    let hc := (Conn.start env sequenced).run env inputs
    hc.activeStreams = hc.streams.length ∧ hc.streams.length ≤ maxConcurrentStreams ∧
      (hc.streams.map (·.streamId)).Nodup ∧ (∀ s ∈ hc.streams, s.streamId % 2 = 1) ∧
      (hc.connected = true → ∀ s ∈ hc.streams, s.streamId ≤ hc.lastProcessedStreamId) ∧
      ∀ input, hc.lastProcessedStreamId ≤ (hc.turn env input).lastProcessedStreamId := by
  intro hc
  have tabled : Tabled hc := run_tabled inputs (start_tabled env sequenced)
  refine ⟨tabled.counted.active, tabled.counted.limit, tabled.unique, fun s member => ?_, fun opened s member => ?_,
    fun input => turn_last input tabled.unique⟩
  · exact tabled.odd.streams s.streamId (List.mem_map_of_mem member)
  · exact (tabled.below opened).streams s.streamId (List.mem_map_of_mem member)

/-- A first request whose header block refers to index 0. -/
theorem run_streamTable_badIndex : ∃ s ∈ ((Conn.start (.simple .deferred) false).run (.simple .deferred)
        [.frame ⟨Frame.headers, 0x04, 1, [0x80]⟩]).streams,
      ((Conn.start (.simple .deferred) false).run (.simple .deferred)
        [.frame ⟨Frame.headers, 0x04, 1, [0x80]⟩]).lastProcessedStreamId < s.streamId := by
  decide

end Cwist.H2
