import Cwist.Http2.Sender

namespace Cwist.H2
open List Option Cwist.H2.Frame

open Http (Response)

/-! ### On the wire -/

def headerFrames (streamId : Nat) : UInt8 → UInt8 → List Bytes → List Frame
  | _, _, [] => []
  | type, flags, chunk :: rest =>
    ⟨type, if rest = [] then flags ||| endHeadersFlag else flags, streamId, chunk⟩ ::
      headerFrames streamId Frame.continuation 0 rest

def dataFrame (streamId : Nat) (chunk : Bytes) : Frame := ⟨Frame.data, 0, streamId, chunk⟩

def bodyFrames (streamId : Nat) (lastFlag : UInt8) : List Bytes → List Frame
  | [] => []
  | chunk :: rest =>
    ⟨Frame.data, if rest = [] then lastFlag else 0, streamId, chunk⟩ :: bodyFrames streamId lastFlag rest

structure Script where
  block : Bytes
  body : Bytes
  trailer : Option Bytes

structure Cut where
  block : List Bytes
  body : List Bytes
  trailer : List Bytes

namespace Script

structure Cuts (script : Script) (cut : Cut) : Prop where
  block : cut.block.flatten = script.block
  body : cut.body.flatten = script.body
  trailer : cut.trailer.flatten = script.trailer.getD []
  opened : cut.block ≠ []
  chunked : ∀ chunk ∈ cut.body, chunk ≠ []
  closed : cut.trailer = [] ↔ script.trailer = none

def headerFlag (script : Script) : UInt8 :=
  if script.body = [] ∧ script.trailer = none then endStreamFlag else 0

def bodyFlag (script : Script) : UInt8 := if script.trailer = none then endStreamFlag else 0

def frames (streamId : Nat) (script : Script) (cut : Cut) : List Frame :=
  headerFrames streamId Frame.headers script.headerFlag cut.block ++ bodyFrames streamId script.bodyFlag cut.body ++
    headerFrames streamId Frame.headers endStreamFlag cut.trailer

/-- The frames of the whole response: a header block, the body and the trailers. -/
def Complete (streamId : Nat) (script : Script) (frames : List Frame) : Prop :=
  ∃ cut, script.Cuts cut ∧ frames = script.frames streamId cut

end Script

/-- END_STREAM is on one frame, and after it there is at most the rest of its header block. -/
def Ended (frames : List Frame) : Prop :=
  ∃ before last rest, frames = before ++ last :: rest ∧ last.endStream = true ∧
    (∀ f ∈ before, f.endStream = false) ∧ ∀ f ∈ rest, f.type = Frame.continuation ∧ f.endStream = false

def dataOctets (frames : List Frame) : Bytes := frames.flatMap fun f => if f.type = Frame.data then f.payload else []

variable {flags : UInt8} {chunks more : List Bytes} {f : Frame} {frames : List Frame} {script : Script}

section Wire

variable {streamId : Nat} {type : UInt8}

lemma mem_headerFrames (member : f ∈ headerFrames streamId type flags chunks) :
    f.streamId = streamId ∧ (f.type = type ∨ f.type = Frame.continuation) := by
  induction chunks generalizing type flags with
  | nil => cases member
  | cons chunk rest ih =>
    rcases mem_cons.mp member with rfl | later
    · exact ⟨rfl, .inl rfl⟩
    · obtain ⟨here, kind⟩ := ih later
      exact ⟨here, .inr (kind.elim id id)⟩

lemma mem_bodyFrames (member : f ∈ bodyFrames streamId flags chunks) :
    f.streamId = streamId ∧ f.type = Frame.data ∧ f.payload ∈ chunks := by
  induction chunks with
  | nil => cases member
  | cons chunk rest ih =>
    rcases mem_cons.mp member with rfl | later
    · exact ⟨rfl, rfl, mem_cons_self⟩
    · obtain ⟨here, kind, payload⟩ := ih later
      exact ⟨here, kind, mem_cons_of_mem _ payload⟩

lemma bodyFrames_append (last : more ≠ []) :
    bodyFrames streamId flags (chunks ++ more) = chunks.map (dataFrame streamId) ++ bodyFrames streamId flags more := by
  induction chunks with
  | nil => rfl
  | cons chunk rest ih =>
    have later := append_ne_nil_of_right_ne_nil rest last
    rw [cons_append, bodyFrames, if_neg later, ih]
    rfl

lemma bodyFrames_zero : bodyFrames streamId 0 chunks = chunks.map (dataFrame streamId) := by
  induction chunks with
  | nil => rfl
  | cons chunk rest ih =>
    rw [bodyFrames, ite_self, ih]
    rfl

lemma headerFrames_endStream (plain : flags = 0) (member : f ∈ headerFrames streamId type flags chunks) :
    f.endStream = false := by
  subst plain
  induction chunks generalizing type with
  | nil => cases member
  | cons chunk rest ih =>
    rcases mem_cons.mp member with rfl | later
    · unfold endStream Frame.has
      dsimp only
      split <;> rfl
    · exact ih later

lemma continuation_of_mem (member : f ∈ headerFrames streamId Frame.continuation 0 chunks) :
    f.type = Frame.continuation ∧ f.endStream = false :=
  ⟨(mem_headerFrames member).2.elim id id, headerFrames_endStream rfl member⟩

lemma headerFrames_ended (nonempty : chunks ≠ []) :
    Ended (headerFrames streamId Frame.headers endStreamFlag chunks) := by
  obtain ⟨chunk, rest, rfl⟩ := exists_cons_of_ne_nil nonempty
  refine ⟨[], _, _, rfl, ?_, by simp, fun f => continuation_of_mem⟩
  unfold endStream Frame.has
  dsimp only
  split <;> rfl

lemma dataFrames_endStream (member : f ∈ chunks.map (dataFrame streamId)) : f.endStream = false := by
  obtain ⟨chunk, -, rfl⟩ := mem_map.mp member
  have plain : (0 : UInt8) &&& endStreamFlag = 0 := by decide
  simp [endStream, Frame.has, dataFrame, plain]

lemma bodyFrames_ended (nonempty : chunks ≠ []) : Ended (bodyFrames streamId endStreamFlag chunks) := by
  obtain ⟨chunk, init, rfl⟩ : ∃ last init, chunks = init ++ [last] :=
    ⟨_, _, (dropLast_append_getLast nonempty).symm⟩
  rw [bodyFrames_append (by simp)]
  have flagged : endStreamFlag &&& endStreamFlag ≠ 0 := by decide
  refine ⟨init.map (dataFrame streamId), _, [], rfl, ?_, fun f => dataFrames_endStream, by simp⟩
  simpa [endStream, Frame.has] using flagged

lemma Ended.after {before : List Frame} (ended : Ended frames) (plain : ∀ f ∈ before, f.endStream = false) :
    Ended (before ++ frames) := by
  obtain ⟨init, last, rest, rfl, flagged, earlier, later⟩ := ended
  refine ⟨before ++ init, last, rest, by simp, flagged, ?_, later⟩
  intro f member
  rcases mem_append.mp member with h | h
  · exact plain f h
  · exact earlier f h

lemma Ended.of_append_nil (ended : Ended frames) : Ended (frames ++ []) := by
  rw [append_nil]
  exact ended

lemma eq_nil_of_flatten (chunked : ∀ chunk ∈ chunks, chunk ≠ []) (empty : chunks.flatten = []) : chunks = [] :=
  eq_nil_iff_forall_not_mem.mpr fun chunk member =>
    chunked chunk member (flatten_eq_nil_iff.mp empty chunk member)

lemma dataOctets_headerFrames : dataOctets (headerFrames streamId Frame.headers flags chunks) = [] := by
  refine flatMap_eq_nil_iff.mpr fun f member => if_neg fun data => ?_
  rcases (mem_headerFrames member).2 with type | type <;> rw [type] at data <;> exact absurd data (by decide)

lemma dataOctets_bodyFrames : dataOctets (bodyFrames streamId flags chunks) = chunks.flatten := by
  induction chunks with
  | nil => rfl
  | cons chunk rest ih => rw [bodyFrames, dataOctets, flatMap_cons, if_pos rfl, ← dataOctets, ih, flatten_cons]

lemma Script.Complete.dataOctets (complete : script.Complete streamId frames) : dataOctets frames = script.body := by
  obtain ⟨cut, cuts, rfl⟩ := complete
  rw [Script.frames, H2.dataOctets, flatMap_append, flatMap_append, ← H2.dataOctets, ← H2.dataOctets,
    ← H2.dataOctets, dataOctets_headerFrames, dataOctets_bodyFrames, dataOctets_headerFrames, nil_append,
    append_nil, cuts.body]

lemma Script.Complete.ended (complete : script.Complete streamId frames) : Ended frames := by
  obtain ⟨cut, cuts, rfl⟩ := complete
  unfold Script.frames
  by_cases trailer : script.trailer = none
  · rw [cuts.closed.mpr trailer]
    refine Ended.of_append_nil ?_
    by_cases body : script.body = []
    · rw [eq_nil_of_flatten cuts.chunked (cuts.body.trans body), headerFlag, if_pos ⟨body, trailer⟩]
      exact (headerFrames_ended cuts.opened).of_append_nil
    · have some : cut.body ≠ [] := fun none => body (by rw [← cuts.body, none]; rfl)
      rw [bodyFlag, if_pos trailer, headerFlag, if_neg fun both => body both.1]
      exact (bodyFrames_ended some).after fun f => headerFrames_endStream rfl
  · refine (headerFrames_ended fun none => trailer (cuts.closed.mp none)).after ?_
    rw [headerFlag, if_neg fun both => trailer both.2, bodyFlag, if_neg trailer, bodyFrames_zero]
    intro f member
    rcases mem_append.mp member with h | h
    · exact headerFrames_endStream rfl h
    · exact dataFrames_endStream h

end Wire

/-! ### What the senders write -/

def Env.Refuses (env : Env) : Prop := ∃ tick, env.writes tick = false

lemma sendAllowance_le (fc : Http2.FlowControl) (sfc : Http2.StreamFlowControl) (requested nowUs : Nat) :
    (sendAllowance fc sfc requested nowUs).1 ≤ requested := by
  unfold sendAllowance
  split
  · exact Nat.zero_le _
  dsimp only
  generalize credit : (if ((min requested fc.sendWindow : Nat) : Int) > sfc.sendWindow then sfc.sendWindow.toNat
    else min requested fc.sendWindow) = allowed
  have within : allowed ≤ requested := by
    split at credit <;> omega
  split
  · split <;> omega
  · exact within

variable {env : Env} {x y z : Sender} {ok isHead : Bool} {block : Bytes} {rc : Option SendRc}

namespace Sender

variable {streamId maxFrame fuel requested allowed tick : Nat} {more : List Frame}

/-- `y` has written `frames` since `x`. -/
def Wrote (x y : Sender) (frames : List Frame) : Prop := y.io.trace = x.io.trace ++ frames.map Event.frame

lemma Wrote.refl (x : Sender) : Wrote x x [] := (append_nil _).symm

lemma Wrote.trans (h₁ : Wrote x y frames) (h₂ : Wrote y z more) : Wrote x z (frames ++ more) := by
  rw [Wrote, h₂, h₁, map_append, append_assoc]

lemma Wrote.silent (h : Wrote x y frames) (same : z.io.trace = y.io.trace) : Wrote x z frames := same.trans h

/-- `y` has written `frames` of the response on a stream since `x`, and none of them is too long. -/
structure Sent (streamId maxFrame : Nat) (x y : Sender) (frames : List Frame) : Prop where
  wrote : Wrote x y frames
  here : ∀ f ∈ frames, f.streamId = streamId ∧ f.ofResponse = true
  bounded : ∀ f ∈ frames, f.payload.length ≤ maxFrame

lemma Sent.refl (x : Sender) : Sent streamId maxFrame x x [] := ⟨.refl x, by simp, by simp⟩

lemma Sent.trans (h₁ : Sent streamId maxFrame x y frames) (h₂ : Sent streamId maxFrame y z more) :
    Sent streamId maxFrame x z (frames ++ more) :=
  ⟨h₁.wrote.trans h₂.wrote, forall_mem_append.mpr ⟨h₁.here, h₂.here⟩,
    forall_mem_append.mpr ⟨h₁.bounded, h₂.bounded⟩⟩

lemma Sent.silent (h : Sent streamId maxFrame x y frames) (same : z.io.trace = y.io.trace) :
    Sent streamId maxFrame x z frames := { h with wrote := h.wrote.silent same }

lemma write_fc (call : x.write env f = (ok, y)) : y.io.fc = x.io.fc := by
  unfold Sender.write Io.writeFrame at call
  dsimp only at call
  split at call <;> cases call <;> rfl

lemma Wrote.write (h : Wrote x y frames) (call : y.write env f = (true, z)) :
    Wrote x z (frames ++ [f]) ∧ z.s = y.s := by
  unfold Sender.write Io.writeFrame at call
  dsimp only at call
  split at call
  · cases call
    exact ⟨h.trans rfl, rfl⟩
  · cases call

lemma Wrote.unwritten (h : Wrote x y frames) (call : y.write env f = (false, z)) :
    Wrote x z frames ∧ z.s = y.s ∧ env.Refuses := by
  unfold Sender.write Io.writeFrame at call
  dsimp only at call
  split at call <;> rename_i writes
  · cases call
  · cases call
    exact ⟨h, rfl, _, Bool.eq_false_iff.mpr writes⟩

/-- The frames of a header block go out one after another until a write fails. -/
structure Blocked (env : Env) (streamId maxFrame : Nat) (type flags : UInt8) (block : Bytes) (x : Sender) (ok : Bool)
    (y : Sender) (chunks : List Bytes) (written : List Frame) : Prop where
  wrote : Wrote x y written
  same : y.s = x.s
  fc : y.io.fc = x.io.fc
  opened : chunks ≠ []
  whole : chunks.flatten = block
  initial : written <+: headerFrames streamId type flags chunks
  finished : ok = true → written = headerFrames streamId type flags chunks
  refused : ok = false → env.Refuses
  bounded : ∀ f ∈ written, f.payload.length ≤ maxFrame

lemma headerBlockLoop_wrote {type flags : UInt8} {rest : Bytes} (positive : 0 < maxFrame)
    (enough : rest.length < fuel) : ∃ chunks written, Blocked env streamId maxFrame type flags rest x
      (x.headerBlockLoop env streamId maxFrame fuel type flags rest).1
      (x.headerBlockLoop env streamId maxFrame fuel type flags rest).2 chunks written := by
  induction fuel generalizing x type flags rest with
  | zero => omega
  | succ fuel ih =>
    rw [headerBlockLoop]
    have bound : (rest.take maxFrame).length ≤ maxFrame := length_take_le _ _
    split <;> rename_i y call
    · obtain ⟨wrote, same, refuses⟩ := (Wrote.refl x).unwritten call
      exact ⟨[rest], [], wrote, same, write_fc call, by simp, by simp, by simp, nofun, fun _ => refuses, by simp⟩
    obtain ⟨wrote, same⟩ := (Wrote.refl x).write call
    split <;> rename_i last
    · have all := take_of_length_le (by simpa using (beq_iff_eq.mp last).symm.le.trans bound)
      have frames : [⟨type, flags ||| endHeadersFlag, streamId, rest⟩] = headerFrames streamId type flags [rest] :=
        rfl
      rw [all] at wrote
      refine ⟨[rest], _, wrote, same, write_fc call, by simp, by simp, by simp [frames], fun _ => by simp [frames], nofun, ?_⟩
      rw [all] at bound
      simpa using bound
    have long : maxFrame < rest.length := by
      by_contra short
      rw [take_of_length_le (not_lt.mp short)] at last
      simp at last
    have shorter : (rest.drop maxFrame).length < fuel := by
      rw [length_drop]
      omega
    obtain ⟨chunks, written, later⟩ := @ih y Frame.continuation 0 _ shorter
    have frames : headerFrames streamId type flags (rest.take maxFrame :: chunks) =
        ⟨type, flags, streamId, rest.take maxFrame⟩ :: headerFrames streamId Frame.continuation 0 chunks := by
      rw [headerFrames, if_neg later.opened]
    rw [if_neg last] at wrote
    refine ⟨rest.take maxFrame :: chunks, _, wrote.trans later.wrote, later.same.trans same,
      later.fc.trans (write_fc call), by simp, ?_, ?_, ?_, later.refused, ?_⟩
    · rw [flatten_cons, later.whole, take_append_drop]
    · rw [frames]
      exact cons_prefix_cons.mpr ⟨rfl, later.initial⟩
    · intro finished
      rw [frames, later.finished finished]
      rfl
    · intro f member
      rcases mem_cons.mp member with rfl | member
      · exact bound
      · exact later.bounded f member

lemma sendHeaderBlock_wrote (positive : 0 < maxFrame)
    (call : x.sendHeaderBlock env streamId block maxFrame flags = (ok, y)) :
    ∃ chunks written, Blocked env streamId maxFrame Frame.headers flags block x ok y chunks written := by
  have wrote : ∃ chunks written, Blocked env streamId maxFrame Frame.headers flags block x
      (x.sendHeaderBlock env streamId block maxFrame flags).1
      (x.sendHeaderBlock env streamId block maxFrame flags).2 chunks written :=
    headerBlockLoop_wrote positive (Nat.lt_succ_self _)
  rwa [call] at wrote

lemma Blocked.sent {written : List Frame}
    (h : Blocked env streamId maxFrame Frame.headers flags block x ok y chunks written) :
    Sent streamId maxFrame x y written := by
  refine ⟨h.wrote, fun f member => ?_, h.bounded⟩
  obtain ⟨here, kind⟩ := mem_headerFrames (h.initial.subset member)
  refine ⟨here, ?_⟩
  rcases kind with kind | kind <;> rw [ofResponse, kind] <;> rfl

lemma allowance_spec (call : x.allowance env requested = (allowed, y)) :
    allowed ≤ requested ∧ y.s = x.s ∧ y.io.trace = x.io.trace := by
  cases call
  exact ⟨sendAllowance_le _ _ _ _, rfl, rfl⟩

lemma refuses_of_write (failed : SendRc.ofWrite (env.writes tick) = .failed) : env.Refuses := by
  refine ⟨tick, Bool.eq_false_iff.mpr fun writes => ?_⟩
  rw [writes] at failed
  cases failed

lemma park_spec (env : Env) (pacing : Bool) (x : Sender) :
    (x.park env pacing).1 ≠ .done ∧ ((x.park env pacing).1 = .failed → env.Refuses) ∧
      (x.park env pacing).2.s = x.s ∧ (x.park env pacing).2.io.trace = x.io.trace := by
  unfold park
  split <;> rename_i call
  · have refused := congrArg Prod.fst call
    exact ⟨nofun, fun _ => refuses_of_write refused, (congrArg (·.2.s) call).symm, (congrArg (·.2.io.trace) call).symm⟩
  · exact ⟨nofun, nofun, (congrArg (·.2.s) call).symm, (congrArg (·.2.io.trace) call).symm⟩

/-- The DATA frames of a body from where the stream stands: all that is left of it if the loop ends, and less than
that if it returns. -/
structure Streamed (env : Env) (streamId maxFrame : Nat) (body : Bytes) (lastFlag : UInt8) (x : Sender)
    (rc : Option SendRc) (y : Sender) (chunks : List Bytes) : Prop where
  chunked : ∀ chunk ∈ chunks, chunk ≠ [] ∧ chunk.length ≤ maxFrame
  sent : body.take y.s.responseSent = body.take x.s.responseSent ++ chunks.flatten
  headers : y.s.responseHeadersSent = x.s.responseHeadersSent
  finished : rc = none → y.s.responseSent = body.length ∧ Wrote x y (bodyFrames streamId lastFlag chunks)
  paused : ∀ {reason}, rc = some reason →
    reason ≠ .done ∧ (reason = .failed → env.Refuses) ∧ y.s.responseSent < body.length ∧
      Wrote x y (chunks.map (dataFrame streamId))

section Bodies

variable {body data : Bytes} {lastFlag : UInt8}

lemma streamed_park {pacing : Bool} (wrote : Wrote x y []) (same : y.s = x.s) (more : x.s.responseSent < body.length) :
    Streamed env streamId maxFrame body lastFlag x (some (y.park env pacing).1) (y.park env pacing).2 [] := by
  obtain ⟨undone, refused, kept, silent⟩ := park_spec env pacing y
  rw [same] at kept
  refine ⟨by simp, by simp [kept], by rw [kept], nofun, ?_⟩
  rintro reason ⟨⟩
  exact ⟨undone, refused, by rwa [kept], wrote.silent silent⟩

lemma Streamed.sent_finished (h : Streamed env streamId maxFrame body lastFlag x none y chunks) :
    Sent streamId maxFrame x y (bodyFrames streamId lastFlag chunks) := by
  refine ⟨(h.finished rfl).2, fun f member => ?_, fun f member => ?_⟩
  · obtain ⟨here, kind, -⟩ := mem_bodyFrames member
    exact ⟨here, by rw [ofResponse, kind]; rfl⟩
  · exact (h.chunked _ (mem_bodyFrames member).2.2).2

lemma Streamed.sent_paused {reason : SendRc}
    (h : Streamed env streamId maxFrame body lastFlag x (some reason) y chunks) :
    Sent streamId maxFrame x y (chunks.map (dataFrame streamId)) := by
  refine ⟨(h.paused rfl).2.2.2, fun f member => ?_, fun f member => ?_⟩ <;>
    obtain ⟨chunk, listed, rfl⟩ := mem_map.mp member
  · exact ⟨rfl, rfl⟩
  · exact (h.chunked chunk listed).2

lemma Streamed.cons (later : Streamed env streamId maxFrame body lastFlag y rc z chunks)
    (some : data ≠ []) (bound : data.length ≤ maxFrame) (octets : (body.drop x.s.responseSent).take data.length = data)
    (sent : y.s.responseSent = x.s.responseSent + data.length)
    (headers : y.s.responseHeadersSent = x.s.responseHeadersSent)
    (wrote : Wrote x y [⟨Frame.data, if x.s.responseSent + data.length = body.length then lastFlag else 0, streamId, data⟩])
    (inside : x.s.responseSent + data.length ≤ body.length) :
    Streamed env streamId maxFrame body lastFlag x rc z (data :: chunks) := by
  have total : body.take z.s.responseSent = body.take x.s.responseSent ++ (data :: chunks).flatten := by
    rw [later.sent, sent, take_add, octets, flatten_cons, append_assoc]
  have lengths := congrArg List.length later.sent
  simp only [length_take, length_append, sent] at lengths
  refine ⟨?_, total, later.headers.trans headers, ?_, ?_⟩
  · intro chunk member
    rcases mem_cons.mp member with rfl | member
    · exact ⟨some, bound⟩
    · exact later.chunked chunk member
  · intro finished
    obtain ⟨whole, rest⟩ := later.finished finished
    have last : x.s.responseSent + data.length = body.length ↔ chunks = [] := by
      constructor
      · intro all
        refine eq_nil_iff_forall_not_mem.mpr fun chunk member => (later.chunked chunk member).1 ?_
        exact flatten_eq_nil_iff.mp (length_eq_zero_iff.mp (by omega)) chunk member
      · rintro rfl
        simp only [flatten_nil, length_nil] at lengths
        omega
    refine ⟨whole, ?_⟩
    simp only [last] at wrote
    exact wrote.trans rest
  · intro reason paused
    obtain ⟨undone, refused, short, rest⟩ := later.paused paused
    refine ⟨undone, refused, short, ?_⟩
    rw [if_neg (by omega)] at wrote
    exact wrote.trans rest

lemma bodyLoop_streams {fuel : Nat} (positive : 0 < maxFrame) (inside : x.s.responseSent ≤ body.length)
    (enough : body.length - x.s.responseSent < fuel) : ∃ chunks, Streamed env streamId maxFrame body lastFlag x
      (x.bodyLoop env streamId maxFrame body.length (.memory body) lastFlag fuel).1
      (x.bodyLoop env streamId maxFrame body.length (.memory body) lastFlag fuel).2 chunks := by
  induction fuel generalizing x with
  | zero => omega
  | succ fuel ih =>
    rw [bodyLoop]
    dsimp only
    split <;> rename_i sent
    · exact ⟨[], by simp, by simp, rfl, fun _ => ⟨le_antisymm inside sent, .refl x⟩, nofun⟩
    have more : x.s.responseSent < body.length := by omega
    split
    · exact ⟨[], streamed_park (.refl x) rfl more⟩
    split
    next y call =>
      obtain ⟨-, same, silent⟩ := allowance_spec call
      exact ⟨[], streamed_park ((Wrote.refl x).silent silent) same more⟩
    rename_i allowed y positive call
    obtain ⟨within, same, silent⟩ := allowance_spec call
    have ready := (Wrote.refl x).silent silent
    split <;> rename_i fetched <;> cases fetched
    have length : ((body.drop x.s.responseSent).take allowed).length = allowed := by
      rw [length_take, length_drop]
      omega
    generalize octets : (body.drop x.s.responseSent).take allowed = data at length ⊢
    rw [← length] at octets positive within
    have some : data ≠ [] := fun none => positive (by rw [none]; rfl)
    have advances := length_pos_iff.mpr some
    split <;> rename_i z call
    · obtain ⟨wrote, kept, refuses⟩ := ready.unwritten call
      refine ⟨[], by simp, ?_, congrArg _ (kept.trans same), nofun, ?_⟩
      · rw [kept, same, flatten_nil, append_nil]
      · rintro reason ⟨⟩
        exact ⟨nofun, fun _ => refuses, by rwa [kept, same], wrote⟩
    obtain ⟨wrote, kept⟩ := ready.write call
    have headers : z.s.responseHeadersSent = x.s.responseHeadersSent := by rw [kept, same]
    let next := z.commit env data.length
    let next := { next with s := { next.s with responseSent := x.s.responseSent + data.length } }
    split
    · have short : next.s.responseSent < body.length := by
        show x.s.responseSent + data.length < body.length
        omega
      exact ⟨[data], (streamed_park (.refl next) rfl short).cons some (by omega) octets rfl headers wrote short.le⟩
    · obtain ⟨chunks, later⟩ := @ih next (show x.s.responseSent + data.length ≤ body.length by omega)
        (show body.length - (x.s.responseSent + data.length) < fuel by omega)
      exact ⟨data :: chunks, later.cons some (by omega) octets rfl headers wrote (by omega)⟩

end Bodies

end Sender

/-! ### Calls of the response sender -/

def bufferedBody (isHead : Bool) (res : Response) : Bytes :=
  if statusForbidsBody res.statusCode || isHead then [] else res.ptrBody.getD res.body

def responseScript (isHead : Bool) (res : Response) : Option Script := do
  let block ← encodeResponseBlock res (responseIsGrpc res)
  if responseIsGrpc res then
    if grpcFailed res then return ⟨block ++ (← encodeGrpcPairs res "13"), [], none⟩
    else return ⟨block, if statusForbidsBody res.statusCode || isHead then [] else res.body, ← encodeGrpcPairs res "0"⟩
  else return ⟨block, bufferedBody isHead res, none⟩

variable {written : List Frame} {fragments : List Bytes}

namespace Script

variable {streamId : Nat} {p : Progress}

/-- The header block is out, and the body as far as the stream's counter says. -/
structure Opened (streamId : Nat) (script : Script) (p : Progress) (written : List Frame)
    (fragments chunks : List Bytes) : Prop where
  headers : p.responseHeadersSent = true
  inside : p.responseSent ≤ script.body.length
  opened : fragments ≠ []
  block : fragments.flatten = script.block
  chunked : ∀ chunk ∈ chunks, chunk ≠ []
  body : chunks.flatten = script.body.take p.responseSent
  written : written =
    headerFrames streamId Frame.headers script.headerFlag fragments ++ chunks.map (dataFrame streamId)

def Underway (streamId : Nat) (script : Script) (p : Progress) (written : List Frame) : Prop :=
  (p.responseHeadersSent = false ∧ p.responseSent = 0 ∧ written = []) ∨
    (p.responseSent < script.body.length ∧ ∃ fragments chunks, Opened streamId script p written fragments chunks)

def Begun (streamId : Nat) (script : Script) (written : List Frame) : Prop :=
  ∃ whole, script.Complete streamId whole ∧ written <+: whole

lemma Begun.dataOctets (begun : script.Begun streamId written) : dataOctets written <+: script.body := by
  obtain ⟨whole, complete, rest, rfl⟩ := begun
  rw [← complete.dataOctets, H2.dataOctets, H2.dataOctets, flatMap_append]
  exact prefix_append _ _

def Reached (env : Env) (streamId : Nat) (script : Script) (rc : SendRc) (p : Progress) (written : List Frame) : Prop :=
  match rc with
  | .parked => script.Underway streamId p written
  | .done => script.Complete streamId written
  | .failed => env.Refuses ∧ script.Begun streamId written

lemma exists_cuts (chunks : List Bytes) (opened : fragments ≠ []) (block : fragments.flatten = script.block)
    (chunked : ∀ chunk ∈ chunks, chunk ≠ []) (body : chunks.flatten <+: script.body) :
    ∃ more, (more = [] ↔ chunks.flatten = script.body) ∧ script.Cuts ⟨fragments, chunks ++ more, script.trailer.toList⟩ := by
  obtain ⟨rest, split⟩ := body
  refine ⟨if rest = [] then [] else [rest], ?_, block, ?_, ?_, opened, ?_, ?_⟩
  · rw [← split]
    by_cases none : rest = [] <;> simp [none]
  · rw [← split]
    by_cases none : rest = [] <;> simp [none]
  · cases script.trailer <;> simp
  · intro chunk member
    rcases mem_append.mp member with earlier | later
    · exact chunked chunk earlier
    · split at later <;> simp_all
  · cases script.trailer <;> simp

lemma begun_of_header (fragments : List Bytes) (opened : fragments ≠ []) (block : fragments.flatten = script.block)
    (initial : written <+: headerFrames streamId Frame.headers script.headerFlag fragments) :
    script.Begun streamId written := by
  obtain ⟨more, -, cuts⟩ := exists_cuts [] opened block nofun nil_prefix
  refine ⟨_, ⟨_, cuts, rfl⟩, initial.trans ?_⟩
  exact (prefix_append _ _).trans (prefix_append _ _)

lemma Opened.begun (h : Opened streamId script p written fragments chunks)
    (short : p.responseSent < script.body.length) : script.Begun streamId written := by
  obtain ⟨more, last, cuts⟩ := exists_cuts chunks h.opened h.block h.chunked (h.body ▸ take_prefix _ _)
  have some : more ≠ [] := fun none => by
    have lengths := congrArg List.length (h.body.symm.trans (last.mp none))
    rw [length_take] at lengths
    omega
  refine ⟨_, ⟨_, cuts, rfl⟩, ?_⟩
  rw [h.written, Script.frames, bodyFrames_append some, ← append_assoc]
  exact (prefix_append _ _).trans (prefix_append _ _)

lemma Underway.begun (h : script.Underway streamId p written) : script.Begun streamId written := by
  rcases h with ⟨-, -, rfl⟩ | ⟨short, fragments, chunks, opened⟩
  · exact begun_of_header [script.block] (by simp) (by simp) nil_prefix
  · exact opened.begun short

structure Full (streamId : Nat) (script : Script) (written : List Frame) (fragments chunks : List Bytes) : Prop where
  opened : fragments ≠ []
  block : fragments.flatten = script.block
  chunked : ∀ chunk ∈ chunks, chunk ≠ []
  body : chunks.flatten = script.body
  written : written =
    headerFrames streamId Frame.headers script.headerFlag fragments ++ bodyFrames streamId script.bodyFlag chunks

lemma Full.complete (h : Full streamId script written fragments chunks) (bare : script.trailer = none) :
    script.Complete streamId written := by
  refine ⟨⟨fragments, chunks, []⟩, ⟨h.block, h.body, by simp [bare], h.opened, h.chunked, by simp [bare]⟩, ?_⟩
  rw [h.written, Script.frames, headerFrames, append_nil]

lemma Full.cuts {trailer : Bytes} {tail : List Bytes} (h : Full streamId script written fragments chunks)
    (closing : script.trailer = some trailer) (closed : tail ≠ []) (whole : tail.flatten = trailer) :
    script.Cuts ⟨fragments, chunks, tail⟩ :=
  ⟨h.block, h.body, by simp [closing, whole], h.opened, h.chunked, by simp [closing, closed]⟩

lemma Opened.full (h : Opened streamId script p written fragments chunks) (empty : script.body = []) :
    Full streamId script written fragments [] := by
  obtain rfl : chunks = [] := eq_nil_of_flatten h.chunked (by rw [h.body, empty, take_nil])
  exact ⟨h.opened, h.block, nofun, empty.symm, h.written⟩

end Script

lemma responseScript_cases {res : Response} (encoded : responseScript isHead res = some script) :
    ∃ block, encodeResponseBlock res (responseIsGrpc res) = some block ∧
      ((responseIsGrpc res = false ∧ script = ⟨block, bufferedBody isHead res, none⟩) ∨
        (responseIsGrpc res = true ∧ grpcFailed res = true ∧ ∃ tail, encodeGrpcPairs res "13" = some tail ∧
          script = ⟨block ++ tail, [], none⟩) ∨
        (responseIsGrpc res = true ∧ grpcFailed res = false ∧ ∃ trailer, encodeGrpcPairs res "0" = some trailer ∧
          script = ⟨block, if statusForbidsBody res.statusCode || isHead then [] else res.body, some trailer⟩)) := by
  obtain ⟨block, encodedBlock, encoded⟩ := bind_eq_some_iff.mp encoded
  refine ⟨block, encodedBlock, ?_⟩
  cases grpc : responseIsGrpc res with
  | false =>
    rw [grpc] at encoded
    exact .inl ⟨rfl, (some.inj encoded).symm⟩
  | true =>
    rw [grpc, if_pos rfl] at encoded
    cases failed : grpcFailed res with
    | true =>
      rw [failed, if_pos rfl] at encoded
      obtain ⟨tail, encodedTail, encoded⟩ := bind_eq_some_iff.mp encoded
      exact .inr (.inl ⟨rfl, rfl, tail, encodedTail, (some.inj encoded).symm⟩)
    | false =>
      rw [failed, if_neg (by decide)] at encoded
      obtain ⟨trailer, encodedTrailer, encoded⟩ := bind_eq_some_iff.mp encoded
      exact .inr (.inr ⟨rfl, rfl, trailer, encodedTrailer, (some.inj encoded).symm⟩)

variable {res : Response}

namespace Sender

open Script

variable {rc : SendRc} {streamId maxFrame : Nat}

lemma sendResponseHeaders_reaches {grpcMode : Bool} (positive : 0 < maxFrame)
    (fresh : x.s.responseHeadersSent = false) (unsent : x.s.responseSent = 0)
    (encoded : encodeResponseBlock res grpcMode = some script.block)
    (call : x.sendResponseHeaders env streamId res grpcMode maxFrame script.headerFlag = (ok, y)) :
    ∃ frames, Sent streamId maxFrame x y frames ∧ (ok = false → env.Refuses ∧ script.Begun streamId frames) ∧
      (ok = true → y.s.responseSent = 0 ∧ ∃ fragments, Opened streamId script y.s frames fragments []) := by
  unfold sendResponseHeaders at call
  rw [fresh, if_neg (by decide), encoded] at call
  dsimp only at call
  split at call <;> rename_i z wrote <;> obtain ⟨fragments, frames, block⟩ := sendHeaderBlock_wrote positive wrote <;>
    cases call
  · refine ⟨frames, block.sent, fun _ => ⟨block.refused rfl, ?_⟩, nofun⟩
    exact begun_of_header fragments block.opened block.whole block.initial
  have zero : z.s.responseSent = 0 := by rw [block.same, unsent]
  refine ⟨frames, block.sent.silent rfl, nofun, fun _ => ⟨zero, fragments, rfl, ?_, block.opened, block.whole, nofun, ?_, ?_⟩⟩
  · rw [zero]
    exact Nat.zero_le _
  · rw [zero]
    rfl
  · simpa using block.finished rfl

lemma sendGrpcTrailers_reaches {trailer : Bytes} (positive : 0 < maxFrame)
    (full : Full streamId script written fragments chunks) (closing : script.trailer = some trailer)
    (encoded : encodeGrpcPairs res "0" = some trailer) (call : x.sendGrpcTrailers env streamId res maxFrame = (rc, y)) :
    ∃ frames, Sent streamId maxFrame x y frames ∧ script.Reached env streamId rc y.s (written ++ frames) := by
  rcases sent : x.sendHeaderBlock env streamId trailer maxFrame endStreamFlag with ⟨ok, z⟩
  obtain ⟨tail, frames, block⟩ := sendHeaderBlock_wrote positive sent
  have cuts := full.cuts closing block.opened block.whole
  unfold sendGrpcTrailers at call
  rw [encoded] at call
  dsimp only at call
  rw [sent] at call
  cases call
  refine ⟨frames, block.sent, ?_⟩
  cases ok with
  | true => exact ⟨_, cuts, by rw [full.written, block.finished rfl, Script.frames]⟩
  | false =>
    refine ⟨block.refused rfl, _, ⟨_, cuts, rfl⟩, ?_⟩
    rw [full.written]
    exact (prefix_append_right_inj _).mpr block.initial

lemma sendGrpcTrailersOnly_reaches {tail : Bytes} (positive : 0 < maxFrame)
    (encoded : encodeResponseBlock res true = some block) (encodedTail : encodeGrpcPairs res "13" = some tail)
    (call : x.sendGrpcTrailersOnly env streamId res maxFrame = (rc, y)) :
    ∃ frames, Sent streamId maxFrame x y frames ∧ Script.Reached env streamId ⟨block ++ tail, [], none⟩ rc y.s frames := by
  rcases sent : x.sendHeaderBlock env streamId (block ++ tail) maxFrame endStreamFlag with ⟨ok, z⟩
  obtain ⟨fragments, frames, header⟩ := sendHeaderBlock_wrote positive sent
  unfold sendGrpcTrailersOnly at call
  rw [encoded, encodedTail] at call
  dsimp only at call
  rw [sent] at call
  cases call
  refine ⟨frames, header.sent, ?_⟩
  cases ok with
  | true =>
    refine ⟨⟨fragments, [], []⟩, ⟨header.whole, rfl, rfl, header.opened, nofun, by simp⟩, ?_⟩
    rw [header.finished rfl]
    simp [Script.frames, headerFlag, bodyFrames, headerFrames]
  | false => exact ⟨header.refused rfl, begun_of_header fragments header.opened header.whole header.initial⟩

end Sender

namespace Script.Opened

variable {streamId maxFrame : Nat}

section
variable (opened : Opened streamId script x.s written fragments chunks)
include opened

lemma extend (streamed : Sender.Streamed env streamId maxFrame script.body script.bodyFlag x rc y more) :
    chunks.flatten ++ more.flatten = script.body.take y.s.responseSent ∧ ∀ chunk ∈ chunks ++ more, chunk ≠ [] :=
  ⟨by rw [opened.body, streamed.sent], forall_mem_append.mpr ⟨opened.chunked, fun c member =>
    (streamed.chunked c member).1⟩⟩

lemma finish (short : x.s.responseSent < script.body.length)
    (streamed : Sender.Streamed env streamId maxFrame script.body script.bodyFlag x none y more) :
    Full streamId script (written ++ bodyFrames streamId script.bodyFlag more) fragments (chunks ++ more) := by
  obtain ⟨body, chunked⟩ := opened.extend streamed
  have whole := (streamed.finished rfl).1
  have some : more ≠ [] := by
    rintro rfl
    have lengths := congrArg List.length streamed.sent
    simp only [whole, length_take, flatten_nil, append_nil] at lengths
    omega
  refine ⟨opened.opened, opened.block, chunked, ?_, ?_⟩
  · rw [flatten_append, body, whole, take_length]
  · rw [opened.written, bodyFrames_append some, append_assoc]

lemma pause {reason : SendRc}
    (streamed : Sender.Streamed env streamId maxFrame script.body script.bodyFlag x (some reason) y more) :
    script.Reached env streamId reason y.s (written ++ more.map (dataFrame streamId)) := by
  obtain ⟨body, chunked⟩ := opened.extend streamed
  obtain ⟨undone, refused, short, -⟩ := streamed.paused rfl
  have later : Opened streamId script y.s (written ++ more.map (dataFrame streamId)) fragments (chunks ++ more) :=
    ⟨streamed.headers.trans opened.headers, short.le, opened.opened, opened.block, chunked,
      by rw [flatten_append, body], by rw [opened.written, map_append, append_assoc]⟩
  cases reason with
  | done => exact absurd rfl undone
  | parked => exact .inr ⟨short, _, _, later⟩
  | failed => exact ⟨refused rfl, later.begun short⟩

end

end Script.Opened

namespace Sender

open Script

variable {rc : SendRc} {streamId maxFrame peerMaxFrameSize : Nat}

lemma sendResponseHeaders_continues {grpcMode : Bool} (positive : 0 < maxFrame)
    (underway : script.Underway streamId x.s written) (encoded : encodeResponseBlock res grpcMode = some script.block)
    (call : x.sendResponseHeaders env streamId res grpcMode maxFrame script.headerFlag = (ok, y)) :
    ∃ frames, Sent streamId maxFrame x y frames ∧ (ok = false → env.Refuses ∧ script.Begun streamId (written ++ frames)) ∧
      (ok = true → (script.body ≠ [] → y.s.responseSent < script.body.length) ∧
        ∃ fragments chunks, Opened streamId script y.s (written ++ frames) fragments chunks) := by
  rcases underway with ⟨fresh, unsent, rfl⟩ | ⟨short, fragments, chunks, opened⟩
  · obtain ⟨frames, sent, begun, done⟩ := sendResponseHeaders_reaches positive fresh unsent encoded call
    refine ⟨frames, sent, begun, fun written => ?_⟩
    obtain ⟨zero, fragments, opened⟩ := done written
    exact ⟨fun some => by rw [zero]; exact length_pos_iff.mpr some, fragments, [], opened⟩
  · unfold sendResponseHeaders at call
    rw [opened.headers] at call
    cases call
    refine ⟨[], .refl x, nofun, fun _ => ⟨fun _ => short, fragments, chunks, ?_⟩⟩
    rwa [append_nil]

lemma bodyLen_memory (memory : res.fileStream = none) : res.bodyLen = (res.ptrBody.getD res.body).length := by
  unfold Response.bodyLen
  rw [memory]
  cases res.ptrBody <;> rfl

lemma sendBody_reaches {sequenced : Bool} (positive : 0 < maxFrame) (memory : res.fileStream = none)
    (unsequenced : sequenced = false) (bare : script.trailer = none) (body : script.body = res.ptrBody.getD res.body)
    (opened : Opened streamId script x.s written fragments chunks) (short : x.s.responseSent < script.body.length)
    (call : x.sendBody env sequenced streamId res maxFrame = (rc, y)) :
    ∃ frames, Sent streamId maxFrame x y frames ∧ script.Reached env streamId rc y.s (written ++ frames) := by
  have source : bodySource res = .memory script.body := by
    unfold bodySource
    rw [memory, body]
    cases res.ptrBody <;> rfl
  have length : res.bodyLen = script.body.length := by rw [bodyLen_memory memory, body]
  have flag : script.bodyFlag = endStreamFlag := if_pos bare
  unfold sendBody at call
  rw [unsequenced, if_neg (by decide), source, length, ← flag] at call
  obtain ⟨more, streamed⟩ := @bodyLoop_streams env x streamId maxFrame script.body script.bodyFlag
    (script.body.length + 1) positive short.le (by omega)
  split at call <;> rename_i loop <;> rw [loop] at streamed
  · cases call
    exact ⟨_, streamed.sent_paused, opened.pause streamed⟩
  have full := opened.finish short streamed
  obtain ⟨rfl, rfl⟩ := Prod.mk.inj call
  refine ⟨_, streamed.sent_finished.silent rfl, ?_⟩
  unfold SendRc.ofWrite
  split <;> rename_i flushed
  · exact full.complete bare
  · exact ⟨⟨_, Bool.eq_false_iff.mpr flushed⟩, _, full.complete bare, prefix_rfl⟩

def frameLimit (peerMaxFrameSize : Nat) : Nat := if peerMaxFrameSize = 0 then maxSize else peerMaxFrameSize

lemma frameLimit_pos (peerMaxFrameSize : Nat) : 0 < frameLimit peerMaxFrameSize := by
  unfold frameLimit
  split
  · decide
  · omega

lemma sendGrpcBody_reaches {trailer : Bytes} (positive : 0 < maxFrame) (closing : script.trailer = some trailer)
    (encoded : encodeGrpcPairs res "0" = some trailer) (body : script.body = res.body)
    (opened : Opened streamId script x.s written fragments chunks) (short : x.s.responseSent < script.body.length)
    (call : (match x.bodyLoop env streamId maxFrame res.body.length (.memory res.body) 0 (res.body.length + 1) with
      | (some rc, x) => (rc, x) | (none, x) => x.sendGrpcTrailers env streamId res maxFrame) = (rc, y)) :
    ∃ frames, Sent streamId maxFrame x y frames ∧ script.Reached env streamId rc y.s (written ++ frames) := by
  have flag : script.bodyFlag = 0 := if_neg (by simp [closing])
  rw [← body, ← flag] at call
  obtain ⟨more, streamed⟩ := @bodyLoop_streams env x streamId maxFrame script.body script.bodyFlag
    (script.body.length + 1) positive short.le (by omega)
  split at call <;> rename_i loop <;> rw [loop] at streamed
  · cases call
    exact ⟨_, streamed.sent_paused, opened.pause streamed⟩
  · obtain ⟨frames, sent, reached⟩ := sendGrpcTrailers_reaches positive (opened.finish short streamed) closing encoded call
    exact ⟨_, streamed.sent_finished.trans sent, by rwa [← append_assoc]⟩

section Calls

variable {sequenced isHead : Bool} {peerMaxFrameSize : Nat}

lemma sendResponse_plain (memory : res.fileStream = none) (grpc : responseIsGrpc res = false)
    (encoded : encodeResponseBlock res false = some block) (plain : sequenced = true → bufferedBody isHead res = [])
    (underway : Script.Underway streamId ⟨block, bufferedBody isHead res, none⟩ x.s written)
    (call : x.sendResponse env sequenced peerMaxFrameSize isHead streamId res = (rc, y)) :
    ∃ frames, Sent streamId (frameLimit peerMaxFrameSize) x y frames ∧
      Script.Reached env streamId ⟨block, bufferedBody isHead res, none⟩ rc y.s (written ++ frames) := by
  have positive := frameLimit_pos peerMaxFrameSize
  have empty : (res.bodyLen = 0 ∨ (statusForbidsBody res.statusCode || isHead) = true) ↔ bufferedBody isHead res = [] := by
    rw [bodyLen_memory memory, bufferedBody]
    cases statusForbidsBody res.statusCode || isHead <;> simp
  have flag : (if bufferedBody isHead res = [] then endStreamFlag else 0) =
      headerFlag ⟨block, bufferedBody isHead res, none⟩ := by simp [headerFlag]
  unfold sendResponse at call
  simp only [grpc, Bool.false_eq_true, if_false, Bool.and_false, Bool.false_and, empty, Bool.not_false, and_true, flag] at call
  split at call <;> rename_i z headers <;>
    obtain ⟨frames, sent, begun, opened⟩ := sendResponseHeaders_continues positive underway encoded headers
  · cases call
    exact ⟨frames, sent, begun rfl⟩
  obtain ⟨short, fragments, chunks, opened⟩ := opened rfl
  split at call <;> rename_i none
  · cases call
    exact ⟨frames, sent, (opened.full none).complete rfl⟩
  have body : bufferedBody isHead res = res.ptrBody.getD res.body := by
    unfold bufferedBody at none ⊢
    split <;> simp_all
  have unsequenced := Bool.eq_false_iff.mpr fun sequenced => none (plain sequenced)
  obtain ⟨more, sentMore, reached⟩ := sendBody_reaches positive memory unsequenced rfl body opened (short none) call
  exact ⟨frames ++ more, sent.trans sentMore, by rwa [← append_assoc]⟩

lemma sendResponse_trailersOnly {tail : Bytes} (grpc : responseIsGrpc res = true) (failed : grpcFailed res = true)
    (encoded : encodeResponseBlock res true = some block) (encodedTail : encodeGrpcPairs res "13" = some tail)
    (underway : Script.Underway streamId ⟨block ++ tail, [], none⟩ x.s written)
    (call : x.sendResponse env sequenced peerMaxFrameSize isHead streamId res = (rc, y)) :
    ∃ frames, Sent streamId (frameLimit peerMaxFrameSize) x y frames ∧
      Script.Reached env streamId ⟨block ++ tail, [], none⟩ rc y.s (written ++ frames) := by
  have positive := frameLimit_pos peerMaxFrameSize
  -- such a response is never resumed
  rcases underway with ⟨fresh, -, rfl⟩ | ⟨short, -⟩
  · unfold sendResponse at call
    simp only [grpc, failed, fresh, Bool.not_false, Bool.and_self, if_true] at call
    exact sendGrpcTrailersOnly_reaches positive encoded encodedTail call
  · simp at short

lemma sendResponse_grpc {trailer : Bytes} (grpc : responseIsGrpc res = true) (served : grpcFailed res = false)
    (encoded : encodeResponseBlock res true = some block) (encodedTrailer : encodeGrpcPairs res "0" = some trailer)
    (body : script = ⟨block, if statusForbidsBody res.statusCode || isHead then [] else res.body, some trailer⟩)
    (underway : script.Underway streamId x.s written)
    (call : x.sendResponse env sequenced peerMaxFrameSize isHead streamId res = (rc, y)) :
    ∃ frames, Sent streamId (frameLimit peerMaxFrameSize) x y frames ∧
      script.Reached env streamId rc y.s (written ++ frames) := by
  have positive := frameLimit_pos peerMaxFrameSize
  have empty : (res.body.length = 0 ∨ (statusForbidsBody res.statusCode || isHead) = true) ↔ script.body = [] := by
    rw [body]
    cases statusForbidsBody res.statusCode || isHead <;> simp
  have closing : script.trailer = some trailer := by rw [body]
  have flag : script.headerFlag = 0 := if_neg (by simp [closing])
  have whole : script.block = block := by rw [body]
  unfold sendResponse at call
  simp only [grpc, served, Bool.and_false, Bool.false_eq_true, if_false, if_true, empty, Bool.not_true, and_false] at call
  rw [← whole] at encoded
  rw [← flag] at call
  split at call <;> rename_i z headers <;>
    obtain ⟨frames, sent, begun, opened⟩ := sendResponseHeaders_continues positive underway encoded headers
  · cases call
    exact ⟨frames, sent, begun rfl⟩
  obtain ⟨short, fragments, chunks, opened⟩ := opened rfl
  split at call <;> rename_i none
  · obtain ⟨more, sentMore, reached⟩ := sendGrpcTrailers_reaches positive (opened.full none) closing encodedTrailer call
    exact ⟨frames ++ more, sent.trans sentMore, by rwa [← append_assoc]⟩
  have octets : script.body = res.body := by
    rw [body] at none ⊢
    split <;> simp_all
  rw [flag] at call
  obtain ⟨more, sentMore, reached⟩ := sendGrpcBody_reaches positive closing encodedTrailer octets opened (short none) call
  exact ⟨frames ++ more, sent.trans sentMore, by rwa [← append_assoc]⟩

end Calls

lemma sendResponse_reaches {sequenced isHead : Bool}
    (encoded : responseScript isHead res = some script) (memory : res.fileStream = none)
    (plain : sequenced = true → responseIsGrpc res = false → script.body = [])
    (underway : script.Underway streamId x.s written)
    (call : x.sendResponse env sequenced peerMaxFrameSize isHead streamId res = (rc, y)) :
    ∃ frames, Sent streamId (frameLimit peerMaxFrameSize) x y frames ∧
      script.Reached env streamId rc y.s (written ++ frames) := by
  obtain ⟨block, encodedBlock, kind⟩ := responseScript_cases encoded
  rcases kind with ⟨grpc, rfl⟩ | ⟨grpc, failed, tail, encodedTail, rfl⟩ | ⟨grpc, served, trailer, encodedTrailer, body⟩ <;>
    rw [grpc] at encodedBlock
  · exact sendResponse_plain memory grpc encodedBlock (fun sequenced => plain sequenced grpc) underway call
  · exact sendResponse_trailersOnly grpc failed encodedBlock encodedTail underway call
  · exact sendResponse_grpc grpc served encodedBlock encodedTrailer body underway call

end Sender

end Cwist.H2
