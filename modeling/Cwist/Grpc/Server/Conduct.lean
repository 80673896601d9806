import Cwist.Grpc.Server.Session

namespace Cwist.Grpc.Server
open Cwist.Grpc.Server.Session

inductive Act where
  | push (data : Bytes)
  | eof
  | markFailed (status : Status) (message : Option Bytes)
  /-- `grpc_session_send_trailers`, of a close, a failure or an expired deadline. -/
  | trailers (status : Status) (message : Option Bytes) (first second : Write)
  | writeFrame (frame : Bytes) (first second : Write)
  | recv (expired : Bool)
  | cancel
  | detach
  /-- The fields of the stream that the handler sets: the status, whether it is closed, and the pushback. -/
  | annotate (status : Status) (message : Option Bytes) (closed : Bool) (pushback : Option Int)

namespace Session

def step (s : Session) : Act → Session
  | .push data => (s.push data).getD s
  | .eof => s.markEof
  | .markFailed status message => s.markFailed status message
  | .trailers status message first second => s.sendTrailers status message first second
  | .writeFrame frame first second => (s.writeFrame frame first second).2
  | .recv expired => ((s.recv expired).map Prod.snd).getD s
  | .cancel => s.cancel
  | .detach => s.detach
  | .annotate status message closed pushback => { s with status, statusMessage := message, closed, pushback }

def run (s : Session) (acts : List Act) : Session := acts.foldl step s

end Session

inductive Phase where
  | idle | started | ended
  deriving DecidableEq

def Phase.next : Phase → Sent → Option Phase
  | .idle, .responseHeaders _ => some .started
  | .idle, .trailersOnly status _ => if status = .ok then none else some .ended
  | .started, .data _ => some .started
  | .started, .trailers _ _ => some .ended
  | _, _ => none

def phase (out : List Sent) : Option Phase := out.foldlM Phase.next .idle

lemma phase_concat (out : List Sent) (sent : Sent) : phase (out ++ [sent]) = (phase out).bind (·.next sent) := by
  rw [phase, List.foldlM_append]
  exact congrArg _ (funext fun ph => by simp)

/-- The frames so far are in order, and as long as the call has not ended the flag says where they are. -/
structure Shaped (s : Session) : Prop where
  valid : (phase s.out).isSome
  current : s.trailersSent = false → phase s.out = some (if s.headersSent then .started else .idle)

lemma Shaped.init (gzip respGzip : Bool) : Shaped (.init gzip respGzip) := ⟨rfl, fun _ => rfl⟩

def Write.Whole : Write → Prop
  | .done | .broken 0 => True
  | .broken (_ + 1) => False

def Act.Whole : Act → Prop
  | .writeFrame _ first _ => first.Whole
  | _ => True

inductive Headed (s : Session) (w : Write) : Bool × Session → Prop where
  | already (sent : s.headersSent) : Headed s w (true, s)
  | sent {fields : List (Bytes × Bytes)} (first : s.headersSent = false) :
    Headed s w (true, { s with out := s.out ++ [.responseHeaders fields], headersSent := true })
  | refused : Headed s w (false, s)
  | stuck {fields : List (Bytes × Bytes)} (first : s.headersSent = false) (part : ¬w.Whole) :
    Headed s w (false, { s with out := s.out ++ [.responseHeaders fields] })

lemma Session.sendHeaders_headed (s : Session) (w : Write) : Headed s w (s.sendHeaders w) := by
  unfold sendHeaders
  by_cases sent : s.headersSent
  · rw [if_pos sent]
    exact .already sent
  rw [if_neg sent]
  rw [Bool.not_eq_true] at sent
  split
  · exact .refused
  match w with
  | .done => exact .sent sent
  | .broken 0 =>
    dsimp only [Write.block]
    rw [List.append_nil]
    exact .refused
  | .broken (n + 1) => exact .stuck sent id

variable {s : Session}

section Step
variable {out : List Sent}

lemma Shaped.idle (shaped : Shaped s) (going : s.trailersSent = false) (first : s.headersSent = false) :
    phase s.out = some .idle := by
  rw [shaped.current going, first]
  rfl

lemma Shaped.started (shaped : Shaped s) (going : s.trailersSent = false) (sent : s.headersSent) :
    phase s.out = some .started := by
  rw [shaped.current going, sent]
  rfl

lemma Shaped.begun (sent : s.headersSent) (started : phase s.out = some .started) : Shaped s :=
  ⟨by rw [started]; rfl, fun _ => by rw [started, if_pos sent]⟩

lemma phase_begun (idle : phase out = some .idle) (fields : List (Bytes × Bytes)) :
    phase (out ++ [.responseHeaders fields]) = some .started := by
  rw [phase_concat, idle]
  rfl

lemma phase_data (started : phase out = some .started) (octets : Bytes) :
    phase (out ++ [.data octets]) = some .started := by
  rw [phase_concat, started]
  rfl

lemma phase_block {ph : Phase} (before : phase out = some ph) (block : Sent)
    (ends : ph.next block = some .ended) (w : Write) : (phase (out ++ w.block block)).isSome := by
  match w with
  | .done | .broken (n + 1) =>
    dsimp only [Write.block]
    rw [phase_concat, before, Option.bind_some, ends]
    rfl
  | .broken 0 =>
    dsimp only [Write.block]
    rw [List.append_nil, before]
    rfl

lemma Shaped.sendTrailers (shaped : Shaped s) (status : Status) (message : Option Bytes) (first second : Write) :
    Shaped (s.sendTrailers status message first second) := by
  unfold Session.sendTrailers
  split
  next open_ =>
    have going : s.trailersSent = false := by
      rw [Bool.and_eq_true] at open_
      simpa using open_.2
    split
    next alone =>
      rw [Bool.and_eq_true, Bool.not_eq_true', bne_iff_ne] at alone
      exact ⟨phase_block (shaped.idle going alone.1) (.trailersOnly status _) (if_neg alone.2) first, nofun⟩
    have headed := s.sendHeaders_headed first
    generalize s.sendHeaders first = result at headed
    cases headed with
    | already sent => exact ⟨phase_block (shaped.started going sent) _ rfl second, nofun⟩
    | sent unsent => exact ⟨phase_block (phase_begun (shaped.idle going unsent) _) _ rfl second, nofun⟩
    | refused => exact ⟨shaped.valid, nofun⟩
    | stuck unsent part =>
      refine ⟨?_, nofun⟩
      rw [phase_begun (shaped.idle going unsent)]
      rfl
  · exact shaped

lemma Shaped.writeFrame (shaped : Shaped s) (frame : Bytes) {first : Write} (whole : first.Whole) (second : Write) :
    Shaped (s.writeFrame frame first second).2 := by
  unfold Session.writeFrame
  split
  next open_ =>
    have going : s.trailersSent = false := by
      rw [Bool.and_eq_true] at open_
      simpa using open_.2
    have headed := s.sendHeaders_headed first
    generalize s.sendHeaders first = result at headed
    cases headed with
    | already sent =>
      have started := shaped.started going sent
      cases second with
      | done => exact .begun sent (phase_data started frame)
      | broken handed => exact .begun sent (phase_data started (frame.take handed))
    | sent unsent =>
      have started := phase_begun (shaped.idle going unsent)
      cases second with
      | done => exact .begun rfl (phase_data (started _) frame)
      | broken handed => exact .begun rfl (phase_data (started _) (frame.take handed))
    | refused => exact shaped
    | stuck unsent part => exact absurd whole part
  · exact shaped

end Step

lemma Shaped.congr {s' : Session} (shaped : Shaped s) (out : s'.out = s.out)
    (headers : s'.headersSent = s.headersSent) (trailers : s'.trailersSent = s.trailersSent) : Shaped s' :=
  ⟨by rw [out]; exact shaped.valid, fun going => by rw [out, headers]; exact shaped.current (trailers ▸ going)⟩

lemma Session.push_step (s : Session) (data : Bytes) : s.step (.push data) = s ∨
      s.step (.push data) = { s with queue := s.queue ++ [data], decoded := s.decoded ++ [data] } := by
  rw [step, push]
  by_cases refused : (s.cancelled || s.eof) = true
  · rw [if_pos refused]
    exact .inl rfl
  · rw [if_neg refused]
    exact .inr rfl

lemma Session.recv_step (s : Session) (expired : Bool) : s.step (.recv expired) = s ∨
      (∃ data queue, s.queue = data :: queue ∧
        s.step (.recv expired) = { s with queue, received := s.received ++ [data] }) ∨
      ∃ status message, s.step (.recv expired) = { s with cancelled := true, status, statusMessage := message } := by
  rw [step, recv]
  split
  next data queue filled => exact .inr (.inl ⟨data, queue, filled, rfl⟩)
  split_ifs
  · exact .inl rfl
  · exact .inl rfl
  · exact .inr (.inr ⟨_, _, rfl⟩)
  · exact .inl rfl

lemma Shaped.step (shaped : Shaped s) {act : Act} (whole : act.Whole) : Shaped (s.step act) := by
  cases act with
  | push data => rcases s.push_step data with same | same <;> rw [same] <;> exact shaped.congr rfl rfl rfl
  | recv expired =>
    rcases s.recv_step expired with same | ⟨data, queue, -, same⟩ | ⟨status, message, same⟩ <;> rw [same] <;>
      exact shaped.congr rfl rfl rfl
  | trailers status message first second => exact shaped.sendTrailers status message first second
  | writeFrame frame first second => exact shaped.writeFrame frame whole second
  | eof | markFailed | cancel | detach | annotate => exact shaped.congr rfl rfl rfl

lemma Shaped.run (shaped : Shaped s) {acts : List Act} (whole : ∀ act ∈ acts, act.Whole) : Shaped (s.run acts) := by
  induction acts generalizing s with
  | nil => exact shaped
  | cons act acts ih =>
    obtain ⟨first, rest⟩ := List.forall_mem_cons.mp whole
    exact ih (shaped.step first) rest

lemma Session.step_detached (gone : s.attached = false) (act : Act) :
    (s.step act).out = s.out ∧ (s.step act).attached = false := by
  cases act with
  | push data => rcases s.push_step data with same | same <;> rw [same] <;> exact ⟨rfl, gone⟩
  | recv expired =>
    rcases s.recv_step expired with same | ⟨data, queue, -, same⟩ | ⟨status, message, same⟩ <;> rw [same] <;>
      exact ⟨rfl, gone⟩
  | trailers status message first second =>
    rw [step, sendTrailers, gone]
    exact ⟨rfl, gone⟩
  | writeFrame frame first second =>
    rw [step, writeFrame, gone]
    exact ⟨rfl, gone⟩
  | detach => exact ⟨rfl, rfl⟩
  | eof | markFailed | cancel | annotate => exact ⟨rfl, gone⟩

lemma Session.run_detached (gone : s.attached = false) (acts : List Act) : (s.run acts).out = s.out := by
  induction acts generalizing s with
  | nil => rfl
  | cons act acts ih =>
    obtain ⟨same, gone'⟩ := s.step_detached gone act
    exact (ih gone').trans same

lemma Session.step_queue (kept : s.decoded = s.received ++ s.queue) (act : Act) :
    (s.step act).decoded = (s.step act).received ++ (s.step act).queue := by
  cases act with
  | push data =>
    rcases s.push_step data with same | same <;> rw [same]
    · exact kept
    · simp [kept]
  | recv expired =>
    rcases s.recv_step expired with same | ⟨data, queue, filled, same⟩ | ⟨status, message, same⟩ <;> rw [same]
    · exact kept
    · simp [kept, filled]
    · exact kept
  | trailers status message first second =>
    have side := s.sendTrailers_inboundSide status message first second
    simp only [inboundSide, Prod.mk.injEq] at side
    rw [step, side.1, side.2.1, side.2.2.1]
    exact kept
  | writeFrame frame first second =>
    have side := s.writeFrame_inboundSide frame first second
    simp only [inboundSide, Prod.mk.injEq] at side
    rw [step, side.1, side.2.1, side.2.2.1]
    exact kept
  | eof | markFailed | cancel | detach | annotate => exact kept

lemma Session.run_queue (kept : s.decoded = s.received ++ s.queue) (acts : List Act) :
    (s.run acts).decoded = (s.run acts).received ++ (s.run acts).queue := by
  induction acts generalizing s with
  | nil => exact kept
  | cons act acts ih => exact ih (s.step_queue kept act)

/-- Under every schedule in which the response headers are never handed over by a write that fails, the frames of a
session are in order, there is none after `grpc_h2_on_close`, and the handler receives the messages in the order in
which they were decoded, each once. -/
theorem session_conduct {gzip respGzip : Bool} {acts : List Act} (whole : ∀ act ∈ acts, act.Whole) :
    (∃ ph, phase ((init gzip respGzip).run acts).out = some ph) ∧
      (∀ before after, acts = before ++ after → ((init gzip respGzip).run before).attached = false →
        ((init gzip respGzip).run acts).out = ((init gzip respGzip).run before).out) ∧
      ((init gzip respGzip).run acts).decoded =
        ((init gzip respGzip).run acts).received ++ ((init gzip respGzip).run acts).queue := by
  refine ⟨Option.isSome_iff_exists.mp ((Shaped.init gzip respGzip).run whole).valid, ?_, run_queue rfl acts⟩
  rintro before after rfl gone
  rw [run, List.foldl_append]
  exact run_detached gone after

/-- Two messages, a deadline that expires and a close. -/
theorem session_conduct_deadline :
    ∃ ph, phase ((init false false).run [.push [1], .writeFrame [7] .done .done, .recv false,
      .trailers .deadlineExceeded none .done .done, .writeFrame [8] .done .done, .trailers .ok none .done .done,
      .detach]).out = some ph :=
  (session_conduct (by simp [Act.Whole, Write.Whole])).1

/-- The headers are in the batch buffer when their write fails: the next frame brings them a second time. -/
theorem headers_twice :
    ∃ fields, ((init false false).run [.writeFrame [7] (.broken 9) .done, .writeFrame [7] .done .done]).out =
      [.responseHeaders fields, .responseHeaders fields, .data [7]] :=
  ⟨_, rfl⟩

end Cwist.Grpc.Server
