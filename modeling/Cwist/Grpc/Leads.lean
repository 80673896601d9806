import Cwist.Grpc.Ledger

namespace Cwist.Grpc
open List

open H2 (Frame putU31)
open Trace (Extends)

/-- The logs grow, without HEADERS frames and without a loss of credit that was not in sight. -/
structure Io.Leads (io io' : Io) : Prop extends io.Explains io' where
  received : io.received <+: io'.received
  written : Extends (fun f => f.type ≠ Frame.headers) io.written io'.written

namespace Io.Leads

variable {io io' io₁ io₂ io₃ : Io}

lemma refl (io : Io) : io.Leads io := ⟨.refl io, prefix_rfl, .refl _ _⟩

lemma trans (first : io₁.Leads io₂) (second : io₂.Leads io₃) : io₁.Leads io₃ :=
  ⟨first.toExplains.trans second.toExplains, first.received.trans second.received, first.written.trans second.written⟩

lemma writes {kind : Frame → Prop} (wrote : io.Writes kind io') (others : ∀ f, kind f → f.type ≠ Frame.headers) :
    io.Leads io' where
  toExplains := .writes wrote
  received := wrote.received ▸ prefix_rfl
  written := wrote.written.mono others

lemma chatter (chat : io.Chatter io') : io.Leads io' := writes chat fun _ control => control.2.1

lemma reads {streamId : Nat} (reads : io.Reads streamId io') : io.Leads io' where
  toExplains := reads.toExplains
  received := by
    obtain ⟨more, received, -⟩ := reads.received
    exact ⟨more, received.symm⟩
  written := reads.written.mono fun _ control => control.2.1

lemma note {slips : List Slip} (harmless : (∀ sight ∈ io.sights, sight.Sound) → ∀ s ∈ slips, s ∉ creditSlips) :
    io.Leads { io with slips := io.slips ++ slips } :=
  ⟨.note harmless, prefix_rfl, .refl _ _⟩

lemma got {f : Frame} {rest : Bytes} (tick : Nat) (sight : Sight) : io.Leads ((io.got f rest tick).see sight) :=
  ⟨.got tick sight, prefix_append _ _, .refl _ _⟩

end Io.Leads

namespace Call

structure Leads (call call' : Call) : Prop where
  io : call.client.io.Leads call'.client.io
  streamId : call'.streamId = call.streamId
  readBefore : call'.readBefore = call.readBefore

lemma Leads.refl (call : Call) : call.Leads call := ⟨.refl _, rfl, rfl⟩

lemma Leads.trans {call₁ call₂ call₃ : Call} (first : call₁.Leads call₂) (second : call₂.Leads call₃) : call₁.Leads call₃ :=
  ⟨first.io.trans second.io, second.streamId.trans first.streamId, second.readBefore.trans first.readBefore⟩

lemma Same.leads {call call' : Call} (same : call.Same call') : call.Leads call' :=
  ⟨by rw [same.client]; exact .refl _, same.streamId, same.readBefore⟩

variable {env : Env} {call call' : Call} {f : Frame}

lemma setIo_leads {io : Io} (leads : call.client.io.Leads io) : call.Leads (call.setIo io) := ⟨leads, rfl, rfl⟩

lemma slip_leads {s : Slip} (harmless : s ∉ creditSlips) : call.Leads (call.slip s) :=
  setIo_leads (.note fun _ other member => by rw [mem_singleton.mp member]; exact harmless)

lemma skip_leads (harmless : (∀ sight ∈ call.client.io.sights, sight.Sound) →
    ∀ s ∈ lostWith call.streamId f, s ∉ creditSlips) : call.Leads (call.skip f) :=
  setIo_leads (.note harmless)

lemma die_leads : call.Leads call.die := ⟨.refl _, rfl, rfl⟩

/-- The pump has noted what it finds with the frame. -/
def Sees (env : Env) (call : Call) (f : Frame) : Prop := .pumped f (call.found env) ∈ call.client.io.sights

section Seen

variable (seen : call.Sees env f)

include seen

lemma handleSettings_leads (settings : f.type = Frame.settings) : call.Leads (call.handleSettings env f).2 := by
  unfold handleSettings
  split
  · exact .refl call
  rename_i fresh
  obtain ⟨ok, m, io, applied, chat⟩ := applySettings_eq env call.client settings fresh
  rw [applied]
  dsimp only
  split
  · exact ⟨.chatter chat, rfl, rfl⟩
  rename_i unknown
  split
  · exact ⟨.chatter chat, rfl, rfl⟩
  rename_i moves
  refine ⟨(Io.Leads.chatter chat).trans (.note fun sound => ?_), rfl, rfl⟩
  have noted : Sight.pumped f (call.found env) ∈ io.sights := by
    rw [chat.sights]
    exact seen
  obtain ⟨-, known | same, -⟩ := sound _ noted
  · exact absurd known unknown
  · have same : settingsWindow call.client.peerInitialWindow f = call.client.peerInitialWindow := same
    omega

omit seen in
lemma handlePing_leads : call.Leads (call.handlePing env f).2 := by
  unfold handlePing
  split
  · have control : Control Frame.ping := ⟨by decide, by decide, by decide⟩
    exact setIo_leads (.chatter (.writeFrame env _ control))
  · exact .refl call

lemma handleWindowUpdate_leads (update : f.type = Frame.windowUpdate) : call.Leads (call.handleWindowUpdate env f).2 := by
  unfold handleWindowUpdate growConnection growStream
  split
  · exact .refl call
  split
  next conn =>
    split
    next overflow =>
      have skipped : call.Leads (call.skip f) := skip_leads fun sound => by
        have room : (increment f : Int) ≤ int32Max - call.client.connSendWindow := (sound _ seen).1 update conn
        omega
      exact (skipped.trans (setIo_leads (.chatter (sendGoaway_chatter env _ 0x03)))).trans die_leads
    · exact ⟨.refl _, rfl, rfl⟩
  split
  · split
    · exact (setIo_leads (.chatter (sendRst_chatter env _ _ 0x03))).trans (fail_same _ _).leads
    · exact ⟨.refl _, rfl, rfl⟩
  · exact .refl call

omit seen in
lemma handleGoaway_leads : call.Leads (call.handleGoaway f).2 := by
  unfold handleGoaway
  dsimp only
  split
  · exact ⟨.refl _, rfl, rfl⟩
  · exact ⟨.refl _, rfl, rfl⟩

omit seen in
lemma handleRst_leads : call.Leads (call.handleRst f).2 := by
  unfold handleRst
  split
  · split
    · exact ⟨.refl _, rfl, rfl⟩
    · exact ⟨.refl _, rfl, rfl⟩
  · exact .refl call

omit seen in
lemma decodeBlock_leads (call : Call) (block : Bytes) : call.Leads (call.decodeBlock block).2.1 := by
  have stored : call.Leads { call with client := { call.client with hpack := (call.client.hpack.decode block).2.table } } :=
    ⟨.refl _, rfl, rfl⟩
  unfold decodeBlock
  dsimp only
  split
  · exact (stored.trans (slip_leads (by decide))).trans (onHeaders_same _ _ _).leads
  · exact stored.trans (onHeaders_same _ _ _).leads

omit seen in
lemma handleHeaders_leads (heads : f.type = Frame.headers) : call.Leads (call.handleHeaders env f).2 := by
  unfold handleHeaders
  split
  · exact skip_leads fun _ => Io.Reads.headers_lossless heads
  have reads : call.client.io.Reads call.streamId _ := .readHeaderBlock env call.client heads
  rcases outcome : call.client.readHeaderBlock env call.streamId f with ⟨_ | block, client⟩ <;> rw [outcome] at reads <;> dsimp only
  · exact ⟨.reads reads, rfl, rfl⟩
  have decoded := decodeBlock_leads { call with client } block
  have read : call.Leads { call with client } := ⟨.reads reads, rfl, rfl⟩
  split
  next result =>
    rw [result] at decoded
    exact read.trans decoded
  next result =>
    rw [result] at decoded
    exact (read.trans decoded).trans (afterBlock_same _ _ _).leads

omit seen in
lemma update_leads (env : Env) (io : Io) (streamId : Nat) (payload : Bytes) :
    io.Leads (io.writeFrame env ⟨Frame.windowUpdate, 0, streamId, payload⟩).2 := by
  have wrote : io.Writes (fun f => f.type = Frame.windowUpdate)
      (io.writeFrame env ⟨Frame.windowUpdate, 0, streamId, payload⟩).2 := .writeFrame env io rfl
  refine .writes wrote fun f update => ?_
  rw [update]
  decide

omit seen in
lemma data_lossless {streamId : Nat} (data : f.type = Frame.data) (empty : dataSize f = 0) :
    ∀ s ∈ lostWith streamId f, s ∉ creditSlips := by
  intro s lost credit
  rcases lostWith_credit lost credit with some_ | update | settings
  · exact some_ empty
  · exact absurd (data.symm.trans update.1) (by decide)
  · exact absurd (data.symm.trans settings) (by decide)

/-- What the pump passes over of the data is empty, of another stream or in some way badly sent. -/
lemma data_skip_leads (data : f.type = Frame.data)
    (bad : ¬(f.streamId = call.streamId ∧ (unpadded f).any (fun data => (call.decoder.feed data).1) = true ∧
      (call.found env).writes = (none, none))) : call.Leads (call.skip f) :=
  skip_leads fun sound => data_lossless data ((sound _ seen).2.2.resolve_right bad)

omit seen in
lemma returnCredit_leads {found : Found} (noted : .pumped f found ∈ call.client.io.sights)
    (writes : found.writes = (env.writes call.client.io.tick, env.writes (call.client.io.tick + 1)))
    (data : f.type = Frame.data) : call.Leads (call.returnCredit env f).2 := by
  have first := update_leads env call.client.io 0 (putU31 f.payload.length)
  unfold returnCredit
  dsimp only
  split
  next unsent =>
    rw [unsent] at first
    refine (setIo_leads first).trans (skip_leads fun sound => data_lossless data ?_)
    refine (sound _ (first.sights.subset noted)).2.2.resolve_right fun taken => ?_
    obtain ⟨now, next⟩ := Prod.mk.inj (writes.symm.trans taken.2.2)
    have sent := writeFrame_taken ⟨Frame.windowUpdate, 0, 0, putU31 f.payload.length⟩ now next
    rw [unsent] at sent
    cases sent
  next sent =>
    rw [sent] at first
    exact setIo_leads (first.trans (update_leads env _ _ _))

lemma handleData_leads (data : f.type = Frame.data) : call.Leads (call.handleData env f).2 := by
  unfold handleData
  split
  next other => exact data_skip_leads seen data fun mine => other mine.1
  split
  next padded =>
    have skipped := data_skip_leads seen data fun mine => by
      rw [padded] at mine
      exact absurd mine.2.1 Bool.false_ne_true
    exact (skipped.trans (setIo_leads (.chatter (sendGoaway_chatter env _ 0x01)))).trans die_leads
  rename_i octets unpadded
  dsimp only
  have fed : call.Leads { call with decoder := (call.decoder.feed octets).2.1, msgs := call.msgs ++ (call.decoder.feed octets).2.2 } :=
    ⟨.refl _, rfl, rfl⟩
  split
  next malformed =>
    have skipped := data_skip_leads seen data fun mine => by
      rw [unpadded] at mine
      exact malformed mine.2.1
    exact ⟨skipped.io, rfl, rfl⟩
  split
  · exact fed.trans (afterData_same _ _).leads
  -- the decoder has moved on, and the transport has not
  have returned := fed.trans (returnCredit_leads seen rfl data)
  split
  next failed =>
    rw [failed] at returned
    exact returned
  next done =>
    rw [done] at returned
    exact returned.trans (afterData_same _ _).leads

lemma handle_leads : call.Leads (call.handle env f).2 := by
  unfold handle
  split
  next settings => exact handleSettings_leads seen settings
  rename_i settings
  split
  · exact handlePing_leads
  split
  next update => exact handleWindowUpdate_leads seen update
  rename_i update
  split
  · exact handleGoaway_leads
  split
  · exact handleRst_leads
  split
  next heads => exact handleHeaders_leads heads
  split
  next data => exact handleData_leads seen data
  rename_i data
  refine skip_leads fun _ s lost credit => ?_
  rcases lostWith_credit lost credit with some_ | moves | moves
  · exact some_ (if_neg data)
  · exact update moves.1
  · exact settings moves

end Seen

lemma pastDeadline_leads (env : Env) (call : Call) : call.Leads (call.pastDeadline env).2 := by
  obtain ⟨io, asked, chat⟩ := pastDeadline_chatter env call
  rw [asked]
  exact setIo_leads (.chatter chat)

lemma deadlineExit_leads (env : Env) (call : Call) : call.Leads (call.deadlineExit env).2 :=
  ⟨.chatter ((nowMs_chatter env _).trans (sendRst_chatter env _ _ 0x08)), rfl, rfl⟩

lemma transportExit_leads (call : Call) : call.Leads call.transportExit.2 := ⟨.refl _, rfl, rfl⟩

lemma pumpFrame_leads (env : Env) (call : Call) : call.Leads (call.pumpFrame env).2 := by
  unfold pumpFrame
  rcases readFrame_cases env call.client.io with ⟨f, rest, tick, read, -, -⟩ | ⟨n, io, read, chat⟩ <;> rw [read] <;> dsimp only
  · have got : call.Leads ((call.setIo (call.client.io.got f rest tick)).see env f) := ⟨.got tick _, rfl, rfl⟩
    have seen : ((call.setIo (call.client.io.got f rest tick)).see env f).Sees env f := mem_append_right _ mem_cons_self
    have handled := got.trans (handle_leads seen)
    split
    next error =>
      rw [error] at handled
      exact handled.trans (slip_leads (by decide))
    · exact handled
  · have stopped := (Io.Leads.reads (.take n : call.client.io.Reads 0 _)).trans (.chatter chat)
    have asked := (setIo_leads stopped).trans (pastDeadline_leads env (call.setIo io))
    split
    next late =>
      rw [late] at asked
      exact asked.trans (deadlineExit_leads env _)
    next early =>
      rw [early] at asked
      exact asked.trans (transportExit_leads _)

lemma pump_leads (env : Env) (call : Call) : call.Leads (call.pump env).2 := by
  have asked := pastDeadline_leads env call
  unfold pump
  split
  next late =>
    rw [late] at asked
    exact asked.trans (deadlineExit_leads env _)
  next early =>
    rw [early] at asked
    exact asked.trans (pumpFrame_leads env _)

lemma data_leads {size : Nat} (flags : UInt8) (tick : Nat) (payload : Bytes) :
    call.Leads ((call.setIo (call.client.io.sentFrame ⟨Frame.data, flags, call.streamId, payload⟩ tick)).spend size) :=
  ⟨⟨.of_eq rfl rfl, prefix_rfl, .snoc _ (show Frame.data ≠ Frame.headers by decide)⟩, rfl, rfl⟩

lemma sendLoop_leads (env : Env) (frame : Bytes) (turns sent : Nat) : call.Leads (call.sendLoop env frame turns sent).2 := by
  induction turns generalizing call sent with
  | zero => exact .refl _
  | succ turns ih =>
    unfold sendLoop
    dsimp only
    split
    · split
      · exact .refl _
      have pumped := pump_leads env call
      split
      next kept =>
        rw [kept] at pumped
        exact pumped.trans (ih sent)
      next other =>
        rw [other] at pumped
        exact pumped
    · split
      next unsent => exact setIo_leads (.chatter (.failed unsent))
      rename_i wrote
      obtain ⟨tick, rfl⟩ := writeFrame_true wrote
      split
      · exact data_leads _ tick _
      · exact (data_leads _ tick _).trans (ih _)

lemma sendRequest_leads (env : Env) (call : Call) (frame : Bytes) : call.Leads (call.sendRequest env frame).2 :=
  sendLoop_leads env frame _ 0

lemma pumpLoop_leads (env : Env) (done : Call → Bool) (turns : Nat) : call.Leads (call.pumpLoop env done turns) := by
  induction turns generalizing call with
  | zero => exact .refl _
  | succ turns ih =>
    have pumped := pump_leads env call
    unfold pumpLoop
    split
    · exact .refl _
    split <;> rename_i outcome <;> rw [outcome] at pumped
    · exact pumped.trans ih
    · exact pumped

lemma Leads.before (leads : call.Leads call') (before : call.readBefore ≤ call.client.io.received.length) :
    call'.readBefore ≤ call'.client.io.received.length := by
  rw [leads.readBefore]
  exact le_trans before leads.io.received.length_le

end Call

/-! ### Runs -/

end Cwist.Grpc
