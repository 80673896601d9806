import Cwist.Grpc.Leads

namespace Cwist.Grpc
open List

open H2 (Frame)

lemma writeFrame_received (env : Env) (io : Io) (f : Frame) : (io.writeFrame env f).2.received = io.received := by
  have wrote : io.Writes (fun _ => True) (io.writeFrame env f).2 := .writeFrame env io trivial
  exact wrote.received

namespace Call

def Answered (call : Call) : Prop :=
  ∃ f ∈ call.client.io.received.drop call.readBefore,
    f.streamId = call.streamId ∧ f.type = Frame.headers ∧ f.endStream = false

/-- A header block with an HTTP status other than 200 has been received for the call. -/
def HttpError (call : Call) : Prop :=
  ∃ field ∈ call.fields, field.1.bytes = ascii ":status" ∧
    fieldNumber field.2 100 599 0 ≠ 0 ∧ fieldNumber field.2 100 599 0 ≠ 200

def Mute (call : Call) : Prop := call.headersReceived = false → ¬call.Answered

def Silent (call : Call) : Prop := call.headersReceived = false → call.Answered → call.HttpError

def Heard : Rc × Call → Prop
  | (.keep, call) => call.Mute
  | (.ended, call) => call.Silent
  | (.error, _) => True

def record (call : Call) : List Frame × Nat × Nat × Bool :=
  (call.client.io.received, call.readBefore, call.streamId, call.headersReceived)

variable {env : Env} {call call' : Call} {f : Frame} {httpStatus : Int}

lemma answered_of_record (same : call'.record = call.record) : call'.Answered ↔ call.Answered := by
  simp only [record, Prod.mk.injEq] at same
  obtain ⟨received, readBefore, streamId, -⟩ := same
  rw [Answered, Answered, received, readBefore, streamId]

lemma Mute.same (mute : call.Mute) (same : call'.record = call.record) : call'.Mute := by
  intro unheard answered
  have flag : call'.headersReceived = call.headersReceived := congrArg (·.2.2.2) same
  exact mute (flag ▸ unheard) ((answered_of_record same).mp answered)

lemma Mute.silent (mute : call.Mute) : call.Silent := fun unheard answered => absurd answered (mute unheard)

lemma Mute.heard {rc : Rc} (mute : call.Mute) : Heard (rc, call) := by
  cases rc with
  | keep => exact mute
  | ended => exact mute.silent
  | error => trivial

lemma returnCredit_record (env : Env) (call : Call) (f : Frame) : (call.returnCredit env f).2.record = call.record := by
  have first := writeFrame_received env call.client.io ⟨Frame.windowUpdate, 0, 0, H2.putU31 f.payload.length⟩
  unfold returnCredit
  dsimp only
  split <;> rename_i outcome <;> rw [outcome] at first
  · exact congrArg (·, call.readBefore, call.streamId, call.headersReceived) first
  · exact congrArg (·, call.readBefore, call.streamId, call.headersReceived) ((writeFrame_received env _ _).trans first)

lemma handleSettings_record (settings : f.type = Frame.settings) : (call.handleSettings env f).2.record = call.record := by
  unfold handleSettings
  split
  · rfl
  rename_i fresh
  obtain ⟨ok, m, io, applied, chat⟩ := applySettings_eq env call.client settings fresh
  have read := congrArg (·, call.readBefore, call.streamId, call.headersReceived) chat.received
  rw [applied]
  dsimp only
  split
  · exact read
  split
  · exact read
  · exact read

lemma handleWindowUpdate_record : (call.handleWindowUpdate env f).2.record = call.record := by
  unfold handleWindowUpdate growConnection growStream
  split
  · rfl
  split
  · split
    · exact congrArg (·, call.readBefore, call.streamId, call.headersReceived) (sendGoaway_chatter env _ 0x03).received
    · rfl
  split
  · split
    · exact congrArg (·, call.readBefore, call.streamId, call.headersReceived) (sendRst_chatter env _ _ 0x03).received
    · rfl
  · rfl

lemma afterData_record (call : Call) (endStream : Bool) : (call.afterData endStream).2.record = call.record := by
  unfold afterData
  split <;> rfl

lemma handleData_record : (call.handleData env f).2.record = call.record := by
  unfold handleData
  split
  · rfl
  split
  · exact congrArg (·, call.readBefore, call.streamId, call.headersReceived) (sendGoaway_chatter env _ 0x01).received
  dsimp only
  split
  · rfl
  split
  · exact afterData_record _ _
  rename_i octets unpadded _ _
  have returned := returnCredit_record env { call with
    decoder := (call.decoder.feed octets).2.1, msgs := call.msgs ++ (call.decoder.feed octets).2.2 } f
  split <;> rename_i outcome <;> rw [outcome] at returned
  · exact returned
  · exact (afterData_record _ _).trans returned

lemma handle_record (other : ¬(f.type = Frame.headers ∧ f.streamId = call.streamId)) :
    (call.handle env f).2.record = call.record := by
  unfold handle
  split
  next settings => exact handleSettings_record settings
  split
  · unfold handlePing
    split
    · exact congrArg (·, call.readBefore, call.streamId, call.headersReceived) (writeFrame_received env _ _)
    · rfl
  split
  · exact handleWindowUpdate_record
  split
  · unfold handleGoaway
    dsimp only
    split <;> rfl
  split
  · unfold handleRst
    split
    · split <;> rfl
    · rfl
  split
  next headers =>
    unfold handleHeaders
    rw [if_pos fun mine => other ⟨headers, mine⟩]
    rfl
  split
  · exact handleData_record
  · rfl

lemma readContinuations_some {streamId left : Nat} {io io' : Io} {block whole : Bytes}
    (done : Client.readContinuations env streamId left io block = (some whole, io')) :
    Trace.Extends (·.type = Frame.continuation) io.received io'.received := by
  induction left generalizing io block with
  | zero => cases done
  | succ left ih =>
    unfold Client.readContinuations at done
    rcases readFrame_cases env io with ⟨f, rest, tick, read, -⟩ | ⟨n, after, read, -⟩ <;> rw [read] at done <;> dsimp only at done
    · split at done
      · cases done
      rename_i fits
      simp only [not_or, not_not] at fits
      split at done
      · cases done
        exact .snoc _ fits.1
      · have first : Trace.Extends (·.type = Frame.continuation) io.received ((io.got f rest tick).see (.inBlock f)).received := .snoc _ fits.1
        exact first.trans (ih done)
    · cases done

lemma readHeaderBlock_some {c c' : Client} {streamId : Nat} {block : Bytes}
    (done : c.readHeaderBlock env streamId f = (some block, c')) :
    Trace.Extends (·.type = Frame.continuation) c.io.received c'.io.received := by
  unfold Client.readHeaderBlock at done
  split at done
  · cases done
  split at done
  · cases done
    exact .refl _ _
  rename_i first _ _
  rcases read : Client.readContinuations env streamId maxContinuations c.io first with ⟨_ | whole, io⟩ <;> rw [read] at done
  · cases done
  · cases done
    exact readContinuations_some read

def StatusField (call : Call) (httpStatus : Int) : Prop :=
  httpStatus ≠ 0 → ∃ field ∈ call.fields, field.1.bytes = ascii ":status" ∧ fieldNumber field.2 100 599 0 = httpStatus

lemma onHeader_statusField (held : call.StatusField httpStatus) (field : CStr × CStr) :
    (onHeader (call, httpStatus) field).1.StatusField (onHeader (call, httpStatus) field).2 := by
  obtain ⟨name, value⟩ := field
  have kept : StatusField { call with fields := call.fields ++ [(name, value)] } httpStatus := fun some_ =>
    let ⟨field, member, same⟩ := held some_
    ⟨field, mem_append_left _ member, same⟩
  unfold onHeader
  dsimp only
  split
  next named => exact fun _ => ⟨(name, value), mem_append_right _ mem_cons_self, named, rfl⟩
  split
  · exact kept
  split
  · exact kept
  split
  · exact kept
  · exact kept

lemma onHeaders_statusField (fields : List (CStr × CStr)) (held : call.StatusField httpStatus) :
    (fields.foldl onHeader (call, httpStatus)).1.StatusField (fields.foldl onHeader (call, httpStatus)).2 := by
  induction fields generalizing call httpStatus with
  | nil => exact held
  | cons field rest ih => exact ih (onHeader_statusField held field)

lemma onHeader_record (call : Call) (httpStatus : Int) (field : CStr × CStr) :
    (onHeader (call, httpStatus) field).1.record = call.record := by
  unfold onHeader
  dsimp only
  split
  · rfl
  split
  · rfl
  split
  · rfl
  split <;> rfl

lemma onHeaders_record (fields : List (CStr × CStr)) (call : Call) (httpStatus : Int) :
    (fields.foldl onHeader (call, httpStatus)).1.record = call.record := by
  induction fields generalizing call httpStatus with
  | nil => rfl
  | cons field rest ih => exact (ih _ _).trans (onHeader_record call httpStatus field)

lemma decodeBlock_record (call : Call) (block : Bytes) : (call.decodeBlock block).2.1.record = call.record := by
  unfold decodeBlock
  dsimp only
  split
  · exact onHeaders_record _ _ _
  · exact onHeaders_record _ _ _

lemma decodeBlock_statusField (call : Call) (block : Bytes) :
    (call.decodeBlock block).2.1.StatusField (call.decodeBlock block).2.2 :=
  onHeaders_statusField _ fun some_ => absurd rfl some_

lemma afterBlock_heard {endStream : Bool} (held : call.StatusField httpStatus)
    (mute : endStream = true → call.Mute) : Heard (call.afterBlock httpStatus endStream) := by
  unfold afterBlock
  split
  next bad =>
    obtain ⟨field, member, named, same⟩ := held bad.1
    exact fun _ _ => ⟨field, member, named, same ▸ bad⟩
  split
  next ends => exact (mute ends).silent
  · exact fun unheard => (nomatch unheard)

lemma Mute.reads {more : List Frame} (mute : call.Mute) (before : call.readBefore ≤ call.client.io.received.length)
    (received : call'.client.io.received = call.client.io.received ++ more) (readBefore : call'.readBefore = call.readBefore)
    (streamId : call'.streamId = call.streamId) (flag : call'.headersReceived = call.headersReceived)
    (others : ∀ g ∈ more, ¬(g.streamId = call.streamId ∧ g.type = Frame.headers ∧ g.endStream = false)) : call'.Mute := by
  rintro unheard ⟨g, member, mine⟩
  rw [received, readBefore, drop_append_of_le_length before] at member
  rw [streamId] at mine
  rcases mem_append.mp member with old | new
  · exact mute (flag ▸ unheard) ⟨g, old, mine⟩
  · exact others g new mine

lemma handleHeaders_heard (mine : f.streamId = call.streamId) (mute : f.endStream = true → call.Mute)
    (before : call.readBefore ≤ call.client.io.received.length) : Heard (call.handleHeaders env f) := by
  unfold handleHeaders
  rw [if_neg fun other => other mine]
  split
  · trivial
  rename_i block client read
  obtain ⟨more, received, continues⟩ := readHeaderBlock_some read
  have mute (ends : f.endStream = true) : Mute { call with client } := by
    refine (mute ends).reads before received rfl rfl rfl fun g member opens => ?_
    exact absurd ((continues g member).symm.trans opens.2.1) (by decide)
  have decoded := decodeBlock_record { call with client } block
  have held := decodeBlock_statusField { call with client } block
  split <;> rename_i outcome <;> rw [outcome] at decoded held
  · trivial
  · exact afterBlock_heard held fun ends => (mute ends).same decoded

lemma handle_heard (mute : call.Mute) (before : call.readBefore ≤ call.client.io.received.length) (rest : Bytes) (tick : Nat) :
    Heard (((call.setIo (call.client.io.got f rest tick)).see env f).handle env f) := by
  have read (other : ¬(f.streamId = call.streamId ∧ f.type = Frame.headers ∧ f.endStream = false)) :
      ((call.setIo (call.client.io.got f rest tick)).see env f).Mute := by
    refine mute.reads before rfl rfl rfl rfl fun g member => ?_
    rw [mem_singleton.mp member]
    exact other
  by_cases headers : f.type = Frame.headers ∧ f.streamId = call.streamId
  · have longer : call.readBefore ≤ (call.client.io.received ++ [f]).length :=
      le_trans before (prefix_append _ _).length_le
    unfold handle
    rw [headers.1]
    exact handleHeaders_heard headers.2 (fun ends => read (by rw [ends]; exact fun open_ => (nomatch open_.2.2))) longer
  · have same : (((call.setIo (call.client.io.got f rest tick)).see env f).handle env f).2.record = _ := handle_record headers
    exact ((read fun opens => headers ⟨opens.2.1, opens.1⟩).same same).heard

def Listened : Rc × Call → Prop
  | (.keep, call) => call.Mute
  | (_, call) => .unreported ∈ call.client.io.slips ∨ call.Silent

lemma pumpFrame_listened (mute : call.Mute) (before : call.readBefore ≤ call.client.io.received.length) :
    Listened (call.pumpFrame env) := by
  unfold pumpFrame
  rcases readFrame_cases env call.client.io with ⟨f, rest, tick, read, -⟩ | ⟨n, io, read, chat⟩ <;> rw [read] <;> dsimp only
  · have heard := @handle_heard env call f mute before rest tick
    rcases outcome : ((call.setIo (call.client.io.got f rest tick)).see env f).handle env f with ⟨_ | _ | _, call'⟩ <;> rw [outcome] at heard
    · exact heard
    · exact .inr heard
    · exact .inl (mem_append_right _ mem_cons_self)
  obtain ⟨late, asked, chat'⟩ := pastDeadline_chatter env (call.setIo io)
  have received := chat'.received.trans chat.received
  have silent (c : Call) (same : c.record = (late.received, call.readBefore, call.streamId, call.headersReceived)) :
      c.Silent := by
    rw [received] at same
    exact (mute.same same).silent
  rcases past : (call.setIo io).pastDeadline env with ⟨_ | _, after⟩ <;> rw [past] at asked <;> dsimp only at asked ⊢ <;>
    subst asked
  · exact .inr (silent _ rfl)
  · refine .inr (silent _ ?_)
    exact congrArg (·, call.readBefore, call.streamId, call.headersReceived) (sendRst_chatter env _ _ 0x08).received

lemma pump_listened (mute : call.Mute) (before : call.readBefore ≤ call.client.io.received.length) :
    Listened (call.pump env) := by
  obtain ⟨io, asked, chat⟩ := pastDeadline_chatter env call
  have mute : (call.setIo io).Mute :=
    mute.same (congrArg (·, call.readBefore, call.streamId, call.headersReceived) chat.received)
  have before : call.readBefore ≤ io.received.length := by
    rw [chat.received]
    exact before
  unfold pump
  rcases past : call.pastDeadline env with ⟨_ | _, after⟩ <;> rw [past] at asked <;> dsimp only at asked ⊢ <;> subst asked
  · exact pumpFrame_listened mute before
  · refine .inr (mute.same ?_).silent
    exact congrArg (·, call.readBefore, call.streamId, call.headersReceived) (sendRst_chatter env _ _ 0x08).received

lemma pumpLoop_silent {done : Call → Bool} (turns : Nat) (mute : call.Mute)
    (before : call.readBefore ≤ call.client.io.received.length) :
    .unreported ∈ (call.pumpLoop env done turns).client.io.slips ∨ (call.pumpLoop env done turns).Silent := by
  induction turns generalizing call with
  | zero => exact .inr mute.silent
  | succ turns ih =>
    unfold pumpLoop
    split
    · exact .inr mute.silent
    have pumped := @pump_listened env call mute before
    have leads := pump_leads env call
    rcases outcome : call.pump env with ⟨_ | _ | _, call'⟩ <;> rw [outcome] at pumped leads
    · exact ih pumped (leads.before before)
    · exact pumped
    · exact pumped

lemma init_before (env : Env) (c : Client) (timeoutMs : Nat) :
    (init env c timeoutMs).readBefore ≤ (init env c timeoutMs).client.io.received.length := by
  obtain ⟨tick, asked⟩ := deadlineAfter_eq env c.io timeoutMs
  unfold init
  rw [asked]

lemma Mute.wrote (mute : call.Mute) (tick : Nat) : (call.setIo (call.client.io.sentFrame f tick)).Mute := mute.same rfl

lemma Mute.spend (mute : call.Mute) (size : Nat) : (call.spend size).Mute := mute.same rfl

lemma sendLoop_mute {frame : Bytes} {turns sent : Nat} (mute : call.Mute)
    (before : call.readBefore ≤ call.client.io.received.length)
    (done : call.sendLoop env frame turns sent = (true, call')) : call'.Mute := by
  induction turns generalizing call sent with
  | zero => cases done
  | succ turns ih =>
    unfold sendLoop at done
    dsimp only at done
    split at done
    · split at done
      · cases done
        exact mute
      have pumped := @pump_listened env call mute before
      have leads := pump_leads env call
      split at done
      next kept =>
        rw [kept] at pumped leads
        exact ih pumped (leads.before before) done
      · cases done
    · split at done
      · cases done
      rename_i wrote
      obtain ⟨tick, rfl⟩ := writeFrame_true wrote
      split at done
      · cases done
        exact mute
      · exact ih ((mute.wrote tick).spend _) before done

lemma startEx_mute {c : Client} {method : CStr} {request : Bytes} {timeoutMs previousAttempts : Nat}
    (started : startEx env c method request timeoutMs previousAttempts = .ok call) : call.Mute := by
  obtain ⟨tick, asked⟩ := deadlineAfter_eq env c.io timeoutMs
  have new : (init env c timeoutMs).Mute := by
    rintro - ⟨f, member, -⟩
    unfold init at member
    rw [asked, drop_length] at member
    cases member
  have before := init_before env c timeoutMs
  unfold startEx at started
  split at started
  · cases started
  dsimp only at started
  split at started
  · cases started
  split at started
  · cases started
  rename_i sent
  cases started
  unfold sendAll at sent
  split at sent
  · cases sent
  rename_i wrote
  obtain ⟨tick', rfl⟩ := writeFrame_true wrote
  split at sent
  · cases sent
  · exact (sendLoop_mute (new.wrote tick') before sent).same rfl

end Call

end Cwist.Grpc
