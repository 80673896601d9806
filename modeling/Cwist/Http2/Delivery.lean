import Cwist.Http2.Steps
import Cwist.Http2.Transmission

namespace Cwist.H2
open List Option Conn

open Http (Request Response)
open Trace (Extends)

/-! ### The frames of a stream -/

def Event.responseFrame (streamId : Nat) : Event → Option Frame
  | .frame f => if f.streamId = streamId ∧ f.ofResponse = true then some f else none
  | _ => none

def Conn.responseFrames (hc : Conn) (streamId : Nat) : List Frame := hc.trace.filterMap (Event.responseFrame streamId)

def Event.Apart (streamId : Nat) (e : Event) : Prop := ¬e.OfResponse streamId

variable {streamId : Nat}

lemma responseFrame_none {e : Event} (other : e.Apart streamId) : e.responseFrame streamId = none := by
  cases e with
  | frame f => exact if_neg other
  | _ => rfl

lemma responseFrame_some {f : Frame} (here : f.streamId = streamId ∧ f.ofResponse = true) :
    (Event.frame f).responseFrame streamId = some f := if_pos here

variable {env : Env} {hc hc₁ hc₂ : Conn} {s : Stream} {res : Response}

section Frames

variable {hc' : Conn} {target : Nat} {s' : Stream} {f : Frame}

lemma responseFrames_extends (trace : Extends (Event.Apart streamId) hc.trace hc'.trace) :
    hc'.responseFrames streamId = hc.responseFrames streamId := by
  obtain ⟨added, same, all⟩ := trace
  have none := filterMap_eq_nil_iff.mpr fun e member => responseFrame_none (all e member)
  rw [responseFrames, same, filterMap_append, none, append_nil]
  rfl

lemma responseFrames_wrote {frames : List Frame} (trace : hc'.trace = hc.trace ++ frames.map Event.frame)
    (here : ∀ f ∈ frames, f.streamId = streamId ∧ f.ofResponse = true) :
    hc'.responseFrames streamId = hc.responseFrames streamId ++ frames := by
  have all : (frames.map Event.frame).filterMap (Event.responseFrame streamId) = frames := by
    rw [filterMap_map]
    have same : ∀ f ∈ frames, (Event.responseFrame streamId ∘ Event.frame) f = some f := fun f member =>
      responseFrame_some (here f member)
    rw [filterMap_congr same, filterMap_some]
  rw [responseFrames, trace, filterMap_append, all]
  rfl

lemma remove_settings (env : Env) (hc : Conn) (id : Nat) :
    (hc.remove env id).sequencedData = hc.sequencedData ∧ (hc.remove env id).peerMaxFrameSize = hc.peerMaxFrameSize := by
  unfold Conn.remove
  split
  · exact ⟨rfl, rfl⟩
  · split <;> exact ⟨rfl, rfl⟩

lemma remove_frames : (hc.remove env target).responseFrames streamId = hc.responseFrames streamId := by
  unfold Conn.remove
  split
  · rfl
  · split
    · exact responseFrames_extends (.snoc _ nofun)
    · rfl

/-! ### The other streams -/

lemma Conn.find_put_ne (other : s.streamId ≠ streamId) : (hc.put s).find streamId = hc.find streamId := by
  have replaced : ∀ streams : List Stream, (replaceStream s streams).find? (fun t => t.streamId == streamId) =
      streams.find? (fun t => t.streamId == streamId) := by
    intro streams
    induction streams with
    | nil => rfl
    | cons t rest ih =>
      rw [replaceStream]
      split
      next same => rw [find?_cons_of_neg (by simpa using other), find?_cons_of_neg (by simpa [same] using other)]
      · by_cases here : t.streamId = streamId
        · rw [find?_cons_of_pos (by simpa using here), find?_cons_of_pos (by simpa using here)]
        · rw [find?_cons_of_neg (by simpa using here), find?_cons_of_neg (by simpa using here), ih]
  exact replaced hc.streams

lemma Conn.find_remove_ne (other : target ≠ streamId) : (hc.remove env target).find streamId = hc.find streamId := by
  have erased : ∀ streams : List Stream, (streams.eraseP fun t => t.streamId == target).find? (fun t => t.streamId == streamId) =
      streams.find? (fun t => t.streamId == streamId) := by
    intro streams
    induction streams with
    | nil => rfl
    | cons t rest ih =>
      by_cases here : t.streamId = target
      · rw [eraseP_cons_of_pos (by simpa using here), find?_cons_of_neg (by simpa [here] using other)]
      · rw [eraseP_cons_of_neg (by simpa using here), find?_cons, find?_cons, ih]
  unfold Conn.remove
  split
  · rfl
  · split <;> exact erased hc.streams

def Stream.standing (s : Stream) : Option Response × Option Nat × Bool × Nat × Bool :=
  (s.response, s.hookCtx, s.isHead, s.progress.responseSent, s.progress.responseHeadersSent)

/-- A step that neither writes to a stream nor changes where its response stands. -/
structure Spares (streamId : Nat) (hc hc' : Conn) : Prop where
  standing : (hc'.find streamId).map Stream.standing = (hc.find streamId).map Stream.standing
  frames : hc'.responseFrames streamId = hc.responseFrames streamId
  sequenced : hc'.sequencedData = hc.sequencedData
  frameSize : 0 < hc.peerMaxFrameSize → 0 < hc'.peerMaxFrameSize

namespace Spares

lemma refl (hc : Conn) : Spares streamId hc hc := ⟨rfl, rfl, rfl, id⟩

lemma trans (h₁ : Spares streamId hc hc₁) (h₂ : Spares streamId hc₁ hc₂) : Spares streamId hc hc₂ :=
  ⟨h₂.standing.trans h₁.standing, h₂.frames.trans h₁.frames, h₂.sequenced.trans h₁.sequenced,
    h₂.frameSize ∘ h₁.frameSize⟩

lemma of_call {α : Type} {a : α} {result : α × Conn} (h : Spares streamId hc result.2) (call : result = (a, hc₁)) :
    Spares streamId hc hc₁ := by
  rw [call] at h
  exact h

lemma of_streams (streams : hc'.streams = hc.streams) (trace : Extends (Event.Apart streamId) hc.trace hc'.trace)
    (sequenced : hc'.sequencedData = hc.sequencedData) (frameSize : 0 < hc.peerMaxFrameSize → 0 < hc'.peerMaxFrameSize) :
    Spares streamId hc hc' :=
  ⟨by rw [Conn.find, streams]; rfl, responseFrames_extends trace, sequenced, frameSize⟩

lemma silent (streams : hc'.streams = hc.streams) (trace : hc'.trace = hc.trace)
    (sequenced : hc'.sequencedData = hc.sequencedData) (frameSize : 0 < hc.peerMaxFrameSize → 0 < hc'.peerMaxFrameSize) :
    Spares streamId hc hc' :=
  of_streams streams (trace ▸ .refl _ _) sequenced frameSize

lemma tick : Spares streamId hc hc.tick := silent rfl rfl rfl id

lemma setFc {fc : Http2.FlowControl} : Spares streamId hc (hc.setFc fc) := silent rfl rfl rfl id

lemma close : Spares streamId hc hc.close := silent rfl rfl rfl id

lemma log {e : Event} (other : e.Apart streamId) : Spares streamId hc (hc.log e) := of_streams rfl (.snoc _ other) rfl id

lemma write (control : f.ofResponse = false) : Spares streamId hc (hc.write env f).2 := by
  have other : (Event.frame f).Apart streamId := fun sent => by rw [sent.2] at control; cases control
  refine of_streams rfl ?_ rfl id
  show Extends _ hc.trace (hc.toIo.writeFrame env f).2.trace
  unfold Io.writeFrame
  split
  · exact .snoc _ other
  · exact .refl _ _

lemma abort {code : ErrorCode} : Spares streamId hc (hc.abort env code) :=
  (write (f := ⟨Frame.goaway, 0, 0, _⟩) rfl).trans close

lemma put_ne (other : s.streamId ≠ streamId) : Spares streamId hc (hc.put s) :=
  ⟨by rw [find_put_ne other], rfl, rfl, id⟩

lemma put_credit (found : hc.find target = some s) (same : s'.streamId = target) (standing : s'.standing = s.standing) :
    Spares streamId hc (hc.put s') := by
  refine ⟨?_, rfl, rfl, id⟩
  by_cases here : target = streamId
  · subst here
    rw [find_put found same, found, map_some, map_some, standing]
  · rw [find_put_ne (same ▸ here)]

lemma remove_ne (other : target ≠ streamId) : Spares streamId hc (hc.remove env target) :=
  ⟨by rw [find_remove_ne other], remove_frames, (remove_settings env hc target).1,
    (remove_settings env hc target).2.symm ▸ id⟩

lemma sendResponse_ne (other : target ≠ streamId) : Spares streamId hc (hc.sendResponse env target res).2 := by
  unfold sendResponse
  split
  · exact refl hc
  rename_i s found
  let result := Sender.sendResponse env hc.sequencedData hc.peerMaxFrameSize s.isHead target res ⟨hc.toIo, s.progress⟩
  have sends : Sender.Sends target ⟨hc.toIo, s.progress⟩ result.2 := Sender.sendResponse_sends
  have sent : Spares streamId hc { hc with toIo := result.2.io } := by
    refine of_streams rfl (sends.trace.mono fun e here there => ?_) rfl id
    cases e with
    | frame f => exact other (here.1.symm.trans there.1)
    | _ => exact here
  exact sent.trans (put_ne (by rw [(mem_of_find found).2]; exact other))

lemma serve_ne (other : target ≠ streamId) : Spares streamId hc (hc.serve env target res).2 := by
  have sent : Spares streamId hc (hc.sendResponse env target res).2 := sendResponse_ne other
  unfold Conn.serve
  split <;> rename_i call
  · exact sent.of_call call
  · exact (sent.of_call call).trans (remove_ne other)
  · exact (sent.of_call call).trans (remove_ne other)

/-! #### Credit and time -/

lemma applySetting {setting value : Nat} : Spares streamId hc (hc.applySetting setting value).2 := by
  unfold Conn.applySetting
  split
  · exact refl hc
  · split
    · exact refl hc
    refine ⟨?_, rfl, rfl, id⟩
    dsimp only [Conn.find]
    rw [find?_map, Option.map_map]
    rfl
  · split
    · exact refl hc
    · exact silent rfl rfl rfl fun _ => by dsimp only; omega
  · exact refl hc

lemma settingsLoop {payload : Bytes} : Spares streamId hc (hc.settingsLoop payload).2 := by
  fun_induction Conn.settingsLoop payload hc with
  | case1 i₀ i₁ v₀ v₁ v₂ v₃ rest hc hc₁ call => exact applySetting.of_call call
  | case2 i₀ i₁ v₀ v₁ v₂ v₃ rest hc hc₁ call ih => exact (applySetting.of_call call).trans ih
  | case3 => exact refl _

lemma settingsCase : Spares streamId hc (hc.settingsCase env f) := by
  have handled : Spares streamId hc (hc.handleSettings f.payload (f.has Frame.ackFlag)).2 := by
    unfold handleSettings
    split
    · exact refl hc
    · split
      · exact refl hc
      · exact settingsLoop
  unfold Conn.settingsCase
  dsimp only
  split <;> rename_i call
  · exact (handled.of_call call).trans abort
  split
  · exact handled.of_call call
  · split <;> rename_i written
    · exact (handled.of_call call).trans ((write rfl).of_call written)
    · exact ((handled.of_call call).trans ((write rfl).of_call written)).trans close

lemma windowUpdateCase : Spares streamId hc (hc.windowUpdateCase env f) := by
  have handled : Spares streamId hc (hc.handleWindowUpdate f.streamId f.payload).2 := by
    unfold handleWindowUpdate
    dsimp only
    split
    · exact refl hc
    split
    · split
      · exact refl hc
      · exact silent rfl rfl rfl id
    split
    · exact refl hc
    rename_i s found
    split
    · exact refl hc
    · exact put_credit found (mem_of_find found).2 rfl
  unfold Conn.windowUpdateCase
  split
  · exact abort
  split <;> rename_i call
  · exact (handled.of_call call).trans abort
  · exact handled.of_call call

lemma sendPing : Spares streamId hc (hc.sendPing env) := by
  unfold Conn.sendPing
  dsimp only
  split <;> rename_i call
  · exact tick.trans ((write rfl).of_call call)
  · exact (tick.trans ((write rfl).of_call call)).trans (silent rfl rfl rfl id)

lemma pingCase : Spares streamId hc (hc.pingCase env f) := by
  have charged : Spares streamId hc (hc.consumePingBudget env).2 := silent rfl rfl rfl id
  unfold Conn.pingCase
  split
  · exact abort
  split
  · split
    · have sampled : Spares streamId hc { hc with pingOutstanding := false } := silent rfl rfl rfl id
      unfold pingAcknowledged
      dsimp only
      split
      · exact sampled.trans (setFc.trans tick)
      · exact sampled.trans (setFc.trans (tick.trans sendPing))
    · exact refl hc
  split <;> rename_i call
  · exact (charged.of_call call).trans abort
  · split <;> rename_i written
    · exact (charged.of_call call).trans ((write rfl).of_call written)
    · exact ((charged.of_call call).trans ((write rfl).of_call written)).trans close

lemma refillStream {nowUs : Nat} : Spares streamId hc (hc.refillStream env target nowUs) := by
  unfold Conn.refillStream
  split
  · exact refl hc
  rename_i s found
  have refilled (fc : Http2.StreamFlowControl) : Spares streamId hc (hc.put { s with progress := { s.progress with fc } }) :=
    put_credit found (mem_of_find found).2 rfl
  dsimp only
  split
  · exact refilled _
  · exact (refilled _).trans (write rfl)

lemma returnCredit {data : Bool} : Spares streamId hc (hc.returnCredit env data target) := by
  unfold Conn.returnCredit
  split
  · unfold autoWindowUpdate
    dsimp only
    split
    · exact (setFc.trans tick).trans refillStream
    · split <;> rename_i call
      · exact (setFc.trans tick).trans ((write rfl).of_call call)
      · exact ((setFc.trans tick).trans ((write rfl).of_call call)).trans refillStream
  · exact refl hc

end Spares

end Frames

def Input.Grants (streamId : Nat) : Input → Prop
  | .frame f => f.type = Frame.settings ∨ f.type = Frame.windowUpdate ∨ f.type = Frame.ping
  | .completions queue => ∀ entry ∈ queue, entry.1 ≠ streamId
  | .deadline | .shutdown | .hangUp => True

instance Input.Grants.decidable (streamId : Nat) : DecidablePred (Input.Grants streamId)
  | .frame _ => inferInstanceAs (Decidable (_ ∨ _ ∨ _))
  | .completions queue => inferInstanceAs (Decidable (∀ entry ∈ queue, entry.1 ≠ streamId))
  | .deadline | .shutdown | .hangUp => .isTrue trivial

lemma Spares.frameCase {f : Frame} (grants : Input.Grants streamId (.frame f)) :
    Spares streamId hc (hc.frameCase env f) := by
  unfold Conn.frameCase
  split
  · exact abort
  split
  · exact abort
  rcases grants with type | type | type
  · rw [if_pos type]
    exact settingsCase
  · simp only [type]
    exact windowUpdateCase
  · simp only [type]
    exact pingCase

/-! ### The stream of the response -/

structure Sendable (sequenced : Bool) (res : Response) (isHead : Bool) (script : Script) : Prop where
  encoded : responseScript isHead res = some script
  memory : res.fileStream = none
  plain : sequenced = true → responseIsGrpc res = false → script.body = []

def Conn.Stands (hc : Conn) (streamId : Nat) (res : Response) (isHead : Bool) (script : Script) (written : List Frame) :
    Prop :=
  (∃ s, hc.find streamId = some s ∧ s.response = some res ∧ s.hookCtx = none ∧ s.isHead = isHead ∧
      script.Underway streamId s.progress written) ∨
    (hc.find streamId = none ∧ script.Complete streamId written)

/-- What a call that may go on with the response of a stream adds to the wire, and where the response stands if the
call succeeds. -/
structure Resumes (env : Env) (streamId : Nat) (res : Response) (isHead : Bool) (script : Script) (written : List Frame)
    (hc : Conn) (ok : Bool) (hc' : Conn) (added : List Frame) : Prop where
  frames : hc'.responseFrames streamId = hc.responseFrames streamId ++ added
  bounded : ∀ f ∈ added, f.payload.length ≤ Sender.frameLimit hc.peerMaxFrameSize
  stands : ok = true → hc'.Stands streamId res isHead script (written ++ added)
  reached : hc'.Stands streamId res isHead script (written ++ added) ∨
    env.Refuses ∧ script.Begun streamId (written ++ added)
  sequenced : hc'.sequencedData = hc.sequencedData

section Delivery

variable {isHead ok : Bool} {script : Script} {written added more : List Frame} {streams : List Stream}

lemma Script.Underway.congr {p p' : Progress} (underway : script.Underway streamId p written)
    (sent : p'.responseSent = p.responseSent) (headers : p'.responseHeadersSent = p.responseHeadersSent) :
    script.Underway streamId p' written := by
  rcases underway with ⟨fresh, unsent, none⟩ | ⟨short, fragments, chunks, opened⟩
  · exact .inl ⟨headers.trans fresh, sent.trans unsent, none⟩
  refine .inr ⟨sent ▸ short, fragments, chunks, ?_⟩
  exact { opened with
    headers := headers.trans opened.headers
    inside := sent ▸ opened.inside
    body := sent ▸ opened.body }

lemma Spares.stands (spares : Spares streamId hc hc₁) (stands : hc.Stands streamId res isHead script written) :
    hc₁.Stands streamId res isHead script written := by
  have standing := spares.standing
  rcases stands with ⟨s, found, response, hook, head, underway⟩ | ⟨gone, complete⟩
  · rw [found, map_some, map_eq_some_iff] at standing
    obtain ⟨t, there, same⟩ := standing
    simp only [Stream.standing, Prod.mk.injEq] at same
    obtain ⟨sameResponse, sameHook, sameHead, sent, headers⟩ := same
    exact .inl ⟨t, there, sameResponse.trans response, sameHook.trans hook, sameHead.trans head,
      underway.congr sent headers⟩
  · rw [gone, map_none, map_eq_none_iff] at standing
    exact .inr ⟨standing, complete⟩

lemma Resumes.of_spares (spares : Spares streamId hc hc₁) (stands : hc.Stands streamId res isHead script written) :
    Resumes env streamId res isHead script written hc ok hc₁ [] where
  frames := by rw [spares.frames, append_nil]
  bounded := nofun
  stands := fun _ => by rw [append_nil]; exact spares.stands stands
  reached := .inl (by rw [append_nil]; exact spares.stands stands)
  sequenced := spares.sequenced

lemma Resumes.trans (h₁ : Resumes env streamId res isHead script written hc true hc₁ added)
    (frameSize : hc₁.peerMaxFrameSize = hc.peerMaxFrameSize)
    (h₂ : Resumes env streamId res isHead script (written ++ added) hc₁ ok hc₂ more) :
    Resumes env streamId res isHead script written hc ok hc₂ (added ++ more) where
  frames := by rw [h₂.frames, h₁.frames, append_assoc]
  bounded := forall_mem_append.mpr ⟨h₁.bounded, frameSize ▸ h₂.bounded⟩
  stands := fun success => by rw [← append_assoc]; exact h₂.stands success
  reached := by rw [← append_assoc]; exact h₂.reached
  sequenced := h₂.sequenced.trans h₁.sequenced

structure Called (env : Env) (streamId : Nat) (script : Script) (written : List Frame) (s : Stream) (hc : Conn) (rc : SendRc)
    (hc' : Conn) (p : Progress) (added : List Frame) : Prop where
  found : hc'.find streamId = some { s with progress := p }
  frames : hc'.responseFrames streamId = hc.responseFrames streamId ++ added
  bounded : ∀ f ∈ added, f.payload.length ≤ Sender.frameLimit hc.peerMaxFrameSize
  reached : script.Reached env streamId rc p (written ++ added)
  unique : hc.Unique → hc'.Unique
  sequenced : hc'.sequencedData = hc.sequencedData
  frameSize : hc'.peerMaxFrameSize = hc.peerMaxFrameSize

lemma sendResponse_called {rc : SendRc} (sendable : Sendable hc.sequencedData res s.isHead script)
    (found : hc.find streamId = some s) (underway : script.Underway streamId s.progress written)
    (call : hc.sendResponse env streamId res = (rc, hc₁)) :
    ∃ p added, Called env streamId script written s hc rc hc₁ p added := by
  rcases result : Sender.sendResponse env hc.sequencedData hc.peerMaxFrameSize s.isHead streamId res ⟨hc.toIo, s.progress⟩
    with ⟨rc', x⟩
  obtain ⟨added, sent, reached⟩ := Sender.sendResponse_reaches sendable.encoded sendable.memory sendable.plain underway result
  unfold sendResponse at call
  rw [found] at call
  dsimp only at call
  rw [result] at call
  cases call
  exact ⟨x.s, added, find_put found (mem_of_find found).2, responseFrames_wrote sent.wrote sent.here, sent.bounded,
    reached, (leaves_put { hc with toIo := x.io } { s with progress := x.s }).unique, rfl, rfl⟩

lemma Conn.Unique.find_remove (unique : hc.Unique) : (hc.remove env streamId).find streamId = none :=
  find_eq_none.mpr unique.remove

lemma serve_resumes (unique : hc.Unique) (sendable : Sendable hc.sequencedData res isHead script)
    (stands : hc.Stands streamId res isHead script written) (call : hc.serve env streamId res = (ok, hc₁)) :
    ∃ added, Resumes env streamId res isHead script written hc ok hc₁ added := by
  unfold Conn.serve at call
  rcases stands with ⟨s, found, response, hook, rfl, underway⟩ | ⟨gone, complete⟩
  · rcases result : hc.sendResponse env streamId res with ⟨rc, after⟩
    obtain ⟨p, added, called⟩ := sendResponse_called sendable found underway result
    have gone : (after.remove env streamId).find streamId = none := (called.unique unique).find_remove
    have removed := (remove_settings env after streamId).1.trans called.sequenced
    rw [result] at call
    refine ⟨added, ?_⟩
    cases rc with
    | parked =>
      cases call
      have stands : hc₁.Stands streamId res s.isHead script (written ++ added) :=
        .inl ⟨_, called.found, response, hook, rfl, called.reached⟩
      exact ⟨called.frames, called.bounded, fun _ => stands, .inl stands, called.sequenced⟩
    | done =>
      cases call
      have stands : Conn.Stands _ streamId res s.isHead script (written ++ added) := .inr ⟨gone, called.reached⟩
      exact ⟨remove_frames.trans called.frames, called.bounded, fun _ => stands, .inl stands, removed⟩
    | failed =>
      cases call
      exact ⟨remove_frames.trans called.frames, called.bounded, nofun, .inr called.reached, removed⟩
  · have called : hc.sendResponse env streamId res = (.failed, hc) := by
      unfold sendResponse
      rw [gone]
    have stays : hc.remove env streamId = hc := by
      unfold Conn.remove
      rw [gone]
    rw [called] at call
    dsimp only at call
    rw [stays] at call
    cases call
    exact ⟨[], .of_spares (.refl hc) (.inr ⟨gone, complete⟩)⟩

lemma serve_frameSize (env : Env) (hc : Conn) (id : Nat) (res : Response) :
    (hc.serve env id res).2.peerMaxFrameSize = hc.peerMaxFrameSize := by
  have removed (hc : Conn) := (remove_settings env hc id).2
  have sent : (hc.sendResponse env id res).2.peerMaxFrameSize = hc.peerMaxFrameSize := by
    unfold sendResponse
    split <;> rfl
  unfold Conn.serve
  split <;> rename_i call <;> rw [call] at sent
  · exact sent
  · exact (removed _).trans sent
  · exact (removed _).trans sent

lemma resumeResponses_resumes (unique : hc.Unique)
    (sendable : Sendable hc.sequencedData res isHead script) (stands : hc.Stands streamId res isHead script written)
    (known : ∀ s ∈ streams, s.streamId = streamId → s.response = some res)
    (call : hc.resumeResponses env streams = (ok, hc₁)) :
    hc₁.peerMaxFrameSize = hc.peerMaxFrameSize ∧ ∃ added, Resumes env streamId res isHead script written hc ok hc₁ added := by
  induction streams generalizing hc written with
  | nil =>
    cases call
    exact ⟨rfl, [], .of_spares (.refl _) stands⟩
  | cons s rest ih =>
    have knownRest := fun t member => known t (mem_cons_of_mem s member)
    rw [resumeResponses] at call
    split at call
    · exact ih unique sendable stands knownRest call
    rename_i other response
    have frameSize := serve_frameSize env hc s.streamId other
    have kept : Acts env hc (hc.serve env s.streamId other).2 := (Acts.refl hc).serve
    -- the stream itself, or another one
    have resumes : ∃ added, Resumes env streamId res isHead script written hc (hc.serve env s.streamId other).1
        (hc.serve env s.streamId other).2 added := by
      by_cases here : s.streamId = streamId
      · obtain rfl : other = res := some.inj (response.symm.trans (known s mem_cons_self here))
        exact here ▸ serve_resumes unique sendable (here ▸ stands) rfl
      · exact ⟨[], .of_spares (Spares.serve_ne here) stands⟩
    obtain ⟨added, resumes⟩ := resumes
    split at call <;> rename_i served <;> rw [served] at frameSize kept resumes
    · cases call
      exact ⟨frameSize, added, resumes⟩
    · obtain ⟨same, more, later⟩ := ih (kept.keeps.unique unique) (resumes.sequenced ▸ sendable) (resumes.stands rfl)
        knownRest call
      exact ⟨same.trans frameSize, added ++ more, resumes.trans frameSize later⟩

lemma Spares.pollHooks (others : ∀ s ∈ streams, s.streamId = streamId → s.hookCtx = none) :
    Spares streamId hc (hc.pollHooks env streams) := by
  induction streams generalizing hc with
  | nil => exact refl hc
  | cons s rest ih =>
    have othersRest := fun t member => others t (mem_cons_of_mem s member)
    rw [pollHooks]
    split
    next onPoll ctx _ hook =>
      have other : s.streamId ≠ streamId := fun here => by
        rw [others s mem_cons_self here] at hook
        cases hook
      have polled : Spares streamId hc (hc.log (.onPoll s.streamId)).tick := (log (e := .onPoll s.streamId) id).trans tick
      dsimp only
      split
      · exact (polled.trans (remove_ne other)).trans (ih othersRest)
      · exact polled.trans (ih othersRest)
    · exact ih othersRest

lemma Spares.asyncDrain {queue : List (Nat × Response)} (others : ∀ entry ∈ queue, entry.1 ≠ streamId) :
    Spares streamId hc (hc.asyncDrain env queue).2 := by
  induction queue generalizing hc with
  | nil => exact refl hc
  | cons entry rest ih =>
    have other := others entry mem_cons_self
    have othersRest := fun entry member => others entry (mem_cons_of_mem _ member)
    rw [asyncDrain]
    split
    · exact ih othersRest
    rename_i s found
    have stored (res : Response) : Spares streamId hc (hc.put { s with req := none, response := some res }) :=
      put_ne (by rw [(mem_of_find found).2]; exact other)
    dsimp only
    split <;> rename_i call
    · exact (stored _).trans ((serve_ne other).of_call call)
    · exact ((stored _).trans ((serve_ne other).of_call call)).trans (ih othersRest)

/-- Where a response stands after a turn, unless a write that failed has cut it off and ended the connection. -/
def Conn.Delivers (env : Env) (hc : Conn) (streamId : Nat) (res : Response) (isHead : Bool) (script : Script)
    (written : List Frame) : Prop :=
  hc.Stands streamId res isHead script written ∨
    hc.connected = false ∧ env.Refuses ∧ script.Begun streamId written

def Conn.newFrames (hc hc' : Conn) (streamId : Nat) : List Frame :=
  (hc'.responseFrames streamId).drop (hc.responseFrames streamId).length

def Conn.Fits (hc hc' : Conn) (streamId : Nat) : Prop :=
  ∀ f ∈ hc.newFrames hc' streamId, f.payload.length ≤ hc.peerMaxFrameSize

structure Advances (env : Env) (streamId : Nat) (res : Response) (isHead : Bool) (script : Script) (written : List Frame)
    (hc hc' : Conn) (added : List Frame) : Prop where
  frames : hc'.responseFrames streamId = hc.responseFrames streamId ++ added
  bounded : ∀ f ∈ added, f.payload.length ≤ Sender.frameLimit hc.peerMaxFrameSize
  delivers : hc'.Delivers env streamId res isHead script (written ++ added)
  sequenced : hc'.sequencedData = hc.sequencedData
  frameSize : 0 < hc.peerMaxFrameSize → 0 < hc'.peerMaxFrameSize

lemma Advances.spares (h : Advances env streamId res isHead script written hc hc₁ added) (spares : Spares streamId hc₁ hc₂)
    (closed : hc₂.connected = true → hc₁.connected = true) :
    Advances env streamId res isHead script written hc hc₂ added where
  frames := spares.frames.trans h.frames
  bounded := h.bounded
  delivers := by
    rcases h.delivers with stands | ⟨disconnected, begun⟩
    · exact .inl (spares.stands stands)
    · exact .inr ⟨Bool.eq_false_iff.mpr fun open_ => by simp [closed open_] at disconnected, begun⟩
  sequenced := spares.sequenced.trans h.sequenced
  frameSize := spares.frameSize ∘ h.frameSize

section
variable (unique : hc.Unique) {input : Input}
include unique

lemma Conn.Stands.response (stands : hc.Stands streamId res isHead script written)
    (member : s ∈ hc.streams) (here : s.streamId = streamId) : s.response = some res ∧ s.hookCtx = none := by
  rcases stands with ⟨t, found, response, hook, -⟩ | ⟨gone, -⟩
  · obtain rfl := unique.eq_of_find found member here
    exact ⟨response, hook⟩
  · exact absurd here (find_eq_none.mp gone s member)

lemma housekeeping_advances
    (sendable : Sendable hc.sequencedData res isHead script) (stands : hc.Stands streamId res isHead script written)
    (grants : input.Grants streamId) :
    ∃ added, Advances env streamId res isHead script written hc (hc.housekeeping env input) added := by
  let ready := { hc with pacingWaiting := false }
  rcases call : ready.resumeResponses env hc.streams with ⟨ok, hc₁⟩
  have kept := (Acts.refl ready).resumeResponses.of_call call
  have readyUnique : ready.Unique := unique
  obtain ⟨frameSize, added, resumes⟩ := resumeResponses_resumes readyUnique sendable stands
    (fun s member here => (stands.response unique member here).1) call
  have advances (hc' : Conn) (spares : Spares streamId hc₁ hc') (delivers : hc'.Delivers env streamId res isHead script
      (written ++ added)) : Advances env streamId res isHead script written hc hc' added :=
    ⟨spares.frames.trans resumes.frames, resumes.bounded, delivers, spares.sequenced.trans resumes.sequenced,
      spares.frameSize ∘ (frameSize ▸ id)⟩
  refine ⟨added, ?_⟩
  unfold Conn.housekeeping
  rw [call]
  cases ok with
  | false =>
    refine advances _ .close ?_
    rcases resumes.reached with stands | cut
    · exact .inl (Spares.close.stands stands)
    · exact .inr ⟨rfl, cut⟩
  | true =>
    have stands := resumes.stands rfl
    have polled : Spares streamId hc₁ (hc₁.pollHooks env hc₁.streams) :=
      Spares.pollHooks fun s member here => (stands.response (kept.keeps.unique unique) member here).2
    cases input with
    | completions queue =>
      dsimp only
      split <;> rename_i drained <;> have spares := polled.trans ((Spares.asyncDrain grants).of_call drained)
      · exact advances _ spares (.inl (spares.stands stands))
      · exact advances _ (spares.trans .close) (.inl ((spares.trans .close).stands stands))
    | _ => exact advances _ polled (.inl (polled.stands stands))

lemma turn_advances (sendable : Sendable hc.sequencedData res isHead script)
    (delivers : hc.Delivers env streamId res isHead script written) (grants : input.Grants streamId) :
    ∃ added, Advances env streamId res isHead script written hc (hc.turn env input) added := by
  have stays : Advances env streamId res isHead script written hc hc [] :=
    ⟨by simp, nofun, by simpa using delivers, rfl, id⟩
  unfold Conn.turn
  by_cases closed : hc.connected = false
  · rw [if_pos (by simpa using closed)]
    exact ⟨[], stays⟩
  rw [if_neg (by simpa using closed)]
  have stands := delivers.resolve_right fun cut => closed cut.1
  have kept (input : Input) (grants : input.Grants streamId) :
      ∃ added, Advances env streamId res isHead script written hc (hc.housekeeping env input) added :=
    housekeeping_advances unique sendable stands grants
  cases input with
  | shutdown =>
    have announced : Spares streamId hc (hc.sendGoaway env hc.lastProcessedStreamId .noError).2 := .write rfl
    refine ⟨[], ?_⟩
    dsimp only
    split <;> rename_i call
    · exact stays.spares (announced.of_call call) fun _ => by simpa using closed
    · exact stays.spares ((announced.of_call call).trans .close) nofun
  | hangUp => exact ⟨[], stays.spares .close nofun⟩
  | frame f =>
    obtain ⟨added, advances⟩ := kept (.frame f) grants
    refine ⟨added, ?_⟩
    dsimp only
    split
    next connected => exact advances.spares (Spares.frameCase grants) fun _ => connected
    · exact advances
  | completions queue => exact kept _ grants
  | deadline => exact kept _ grants

lemma dispatch_advances {req : Request} {data : Bool}
    (found : hc.find s.streamId = some s) (unhooked : s.hookCtx = none) (fresh : s.progress.responseHeadersSent = false)
    (unsent : s.progress.responseSent = 0) (answer : env.handler hc.ticks req = .response res)
    (sendable : Sendable hc.sequencedData (res.injectAltSvc env.http3Port) s.isHead script) :
    ∃ added, Advances env s.streamId (res.injectAltSvc env.http3Port) s.isHead script [] hc (hc.dispatch env data s req) added := by
  let noted := (hc.log (.handler s.streamId req hc.cont.expecting)).tick
  let answered : Stream := { s with response := some (res.injectAltSvc env.http3Port) }
  have called : hc.callHandler env s req = (.response res, noted) := by
    unfold callHandler
    rw [answer]
  have handled : Spares s.streamId hc noted := (Spares.log (e := .handler ..) nofun).trans .tick
  have stored : (noted.put answered).find s.streamId = some answered := find_put found rfl
  have underway : script.Underway s.streamId answered.progress [] := .inl ⟨fresh, unsent, rfl⟩
  rcases result : (noted.put answered).sendResponse env s.streamId (res.injectAltSvc env.http3Port) with ⟨rc, after⟩
  have sendable : Sendable (noted.put answered).sequencedData _ answered.isHead script := sendable
  obtain ⟨p, added, sent⟩ := sendResponse_called sendable stored underway result
  have frames := sent.frames.trans (congrArg (· ++ added) handled.frames)
  have advances (hc' : Conn) (same : hc'.responseFrames s.streamId = after.responseFrames s.streamId)
      (sequenced : hc'.sequencedData = after.sequencedData)
      (frameSize : 0 < after.peerMaxFrameSize → 0 < hc'.peerMaxFrameSize)
      (delivers : hc'.Delivers env s.streamId _ s.isHead script added) :
      Advances env s.streamId (res.injectAltSvc env.http3Port) s.isHead script [] hc hc' added :=
    ⟨same.trans frames, sent.bounded, delivers, sequenced.trans sent.sequenced, frameSize ∘ (sent.frameSize ▸ id)⟩
  have credit : Spares s.streamId after (after.returnCredit env data s.streamId) := .returnCredit
  refine ⟨added, ?_⟩
  unfold Conn.dispatch
  rw [called]
  dsimp only
  rw [result]
  cases rc with
  | parked =>
    refine advances _ credit.frames credit.sequenced credit.frameSize (.inl (credit.stands ?_))
    exact .inl ⟨_, sent.found, rfl, unhooked, rfl, sent.reached⟩
  | done =>
    let done := after.returnCredit env data s.streamId
    have kept : Acts env after done := (Acts.refl after).returnCredit
    have uniqueDone := kept.keeps.unique (sent.unique ((leaves_put noted answered).unique unique))
    have settings := remove_settings env done s.streamId
    exact advances _ (remove_frames.trans credit.frames) (settings.1.trans credit.sequenced)
      (settings.2 ▸ credit.frameSize) (.inl (.inr ⟨uniqueDone.find_remove, sent.reached⟩))
  | failed =>
    have settings := remove_settings env after.close s.streamId
    have closed := Bool.eq_false_iff.mpr fun open_ => by cases (Keeps.remove env after.close s.streamId).connected open_
    exact advances _ remove_frames settings.1 (settings.2 ▸ id) (.inr ⟨closed, sent.reached⟩)

end

lemma Advances.fits (h : Advances env streamId res isHead script written hc hc₁ added) (limit : 0 < hc.peerMaxFrameSize) :
    hc.Fits hc₁ streamId := by
  have same : Sender.frameLimit hc.peerMaxFrameSize = hc.peerMaxFrameSize := if_neg (by omega)
  rw [Conn.Fits, newFrames, h.frames, drop_left, ← same]
  exact h.bounded

lemma run_advances {inputs : List Input} (unique : hc.Unique) (limit : 0 < hc.peerMaxFrameSize)
    (sendable : Sendable hc.sequencedData res isHead script) (delivers : hc.Delivers env streamId res isHead script written)
    (grants : ∀ input ∈ inputs, input.Grants streamId) :
    ∃ added, (hc.run env inputs).responseFrames streamId = hc.responseFrames streamId ++ added ∧
      (hc.run env inputs).Delivers env streamId res isHead script (written ++ added) ∧
      Machine.Meets (Conn.turn env) (fun hc input => hc.Fits (hc.turn env input) streamId) hc inputs := by
  induction inputs generalizing hc written with
  | nil => exact ⟨[], by simp [Conn.run], by simpa [Conn.run] using delivers, trivial⟩
  | cons input rest ih =>
    obtain ⟨added, advances⟩ := turn_advances unique sendable delivers (grants input mem_cons_self)
    obtain ⟨more, frames, delivers, meets⟩ := ih (turn_unique env input unique) (advances.frameSize limit)
      (advances.sequenced ▸ sendable) advances.delivers fun later member => grants later (mem_cons_of_mem _ member)
    refine ⟨added ++ more, ?_, ?_, advances.fits limit, meets⟩
    · rw [← append_assoc, ← advances.frames]
      exact frames
    · rw [← append_assoc]
      exact delivers

lemma Script.Underway.endStream {p : Progress} {f : Frame} (underway : script.Underway streamId p written)
    (member : f ∈ written) : f.endStream = false := by
  rcases underway with ⟨-, -, rfl⟩ | ⟨short, fragments, chunks, opened⟩
  · cases member
  have body : script.body ≠ [] := length_pos_iff.mp (by omega)
  rw [opened.written] at member
  rcases mem_append.mp member with header | data
  · exact headerFrames_endStream (if_neg fun both => body both.1) header
  · exact dataFrames_endStream data

lemma Conn.Delivers.begun (delivers : hc.Delivers env streamId res isHead script written) :
    script.Begun streamId written := by
  rcases delivers with (⟨s, -, -, -, -, underway⟩ | ⟨-, complete⟩) | ⟨-, -, begun⟩
  · exact underway.begun
  · exact ⟨written, complete, prefix_rfl⟩
  · exact begun

/-- What a handler returns goes out frame by frame, in as many turns as credit and pacing ask for: a header block, the
body and the trailers, with END_STREAM on what comes last. Only a write that fails cuts it off. -/
theorem run_response_frames {s : Stream} {req : Request} {data : Bool} {inputs : List Input} (unique : hc.Unique)
    (limit : 0 < hc.peerMaxFrameSize) (found : hc.find s.streamId = some s) (request : s.req = some req)
    (unhooked : s.hookCtx = none) (fresh : s.progress.responseHeadersSent = false) (unsent : s.progress.responseSent = 0)
    (answer : env.handler hc.ticks req = .response res)
    (sendable : Sendable hc.sequencedData (res.injectAltSvc env.http3Port) (req.method == .head) script)
    (whole : script.body = bufferedBody (req.method == .head) (res.injectAltSvc env.http3Port))
    (grants : ∀ input ∈ inputs, input.Grants s.streamId) :
    let first := hc.dispatch env data s req
    let last := first.run env inputs
    ∃ frames, last.responseFrames s.streamId = hc.responseFrames s.streamId ++ frames ∧
      script.Begun s.streamId frames ∧
      dataOctets frames <+: bufferedBody (req.method == .head) (res.injectAltSvc env.http3Port) ∧
      (last.find s.streamId = none ∧ script.Complete s.streamId frames ∧ Ended frames ∧
          dataOctets frames = bufferedBody (req.method == .head) (res.injectAltSvc env.http3Port) ∨
        (last.find s.streamId).isSome ∧ (∀ f ∈ frames, f.endStream = false) ∨
        last.connected = false ∧ env.Refuses) ∧
      hc.Fits first s.streamId ∧
      Machine.Meets (Conn.turn env) (fun hc input => hc.Fits (hc.turn env input) s.streamId) first inputs := by
  intro first last
  have head : s.isHead = (req.method == .head) := by rw [Stream.isHead, request, any_some]
  rw [← head] at sendable
  obtain ⟨added, advances⟩ := dispatch_advances unique found unhooked fresh unsent answer sendable
  have leaves : Leaves hc first := dispatch_leaves found
  obtain ⟨more, frames, delivers, meets⟩ := run_advances (leaves.unique unique) (advances.frameSize limit)
    (advances.sequenced ▸ sendable) advances.delivers grants
  have begun := delivers.begun
  refine ⟨added ++ more, ?_, begun, whole ▸ begun.dataOctets, ?_, advances.fits limit, meets⟩
  · rw [frames, advances.frames, append_assoc]
  rcases delivers with (⟨t, there, -, -, -, underway⟩ | ⟨gone, complete⟩) | ⟨closed, refuses, -⟩
  · exact .inr (.inl ⟨by rw [there]; rfl, fun f => underway.endStream⟩)
  · exact .inl ⟨gone, complete, complete.ended, complete.dataOctets.trans whole⟩
  · exact .inr (.inr ⟨closed, refuses⟩)

def oneCreditStream : Stream := { Stream.create 1 1 with req := some .create }

def twoOctets : Env := .simple (.response (.ofBody [0x61, 0x62]))

theorem run_response_frames_credit :
    let hc := { Conn.init twoOctets false with streams := [oneCreditStream] }
    let last := (hc.dispatch twoOctets false oneCreditStream .create).run twoOctets
      [.frame ⟨Frame.windowUpdate, 0, 1, putU31 1⟩, .deadline]
    ∃ script : Script, script.Complete 1 (last.responseFrames 1) ∧ Ended (last.responseFrames 1) ∧
      dataOctets (last.responseFrames 1) = [0x61, 0x62] := by
  intro hc last
  obtain ⟨script, encoded⟩ : ∃ script, responseScript false (.ofBody [0x61, 0x62]) = some script :=
    isSome_iff_exists.mp (by decide)
  have body : (responseScript false (.ofBody [0x61, 0x62])).map (·.body) = some [0x61, 0x62] := by decide
  rw [encoded] at body
  obtain ⟨frames, same, -, -, kind, -⟩ := @run_response_frames twoOctets hc (.ofBody [0x61, 0x62]) script oneCreditStream
    .create false [.frame ⟨Frame.windowUpdate, 0, 1, putU31 1⟩, .deadline] (nodup_singleton _) (by decide) rfl rfl rfl
    rfl rfl rfl ⟨encoded, rfl, nofun⟩ (some.inj body) (by decide)
  have all : last.responseFrames 1 = frames := same
  rw [all]
  rcases kind with ⟨-, complete⟩ | ⟨there, -⟩ | ⟨closed, -⟩
  · exact ⟨script, complete⟩
  · exact absurd there (by decide)
  · exact absurd closed (by decide)

def longMessage : Response :=
  { Response.ofBody (ascii "hi") with
    headers := [(.ofBytes (ascii "content-type"), ascii "application/grpc"),
      (.ofBytes (ascii "grpc-message"), List.replicate 1100 0x61)] }

/-- The header block and the body of such a response go out, and then the connection ends without END_STREAM. -/
theorem run_grpc_trailers_lost :
    let env := Env.simple (.response longMessage)
    let hc := (Conn.start env false).run env [.frame ⟨Frame.headers, 0x05, 1, [0x82, 0x86, 0x84]⟩]
    dataOctets (hc.responseFrames 1) = ascii "hi" ∧ (∀ f ∈ hc.responseFrames 1, f.endStream = false) ∧
      hc.connected = false := by
  decide +kernel

end Delivery

end Cwist.H2
