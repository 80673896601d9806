import Cwist.Lib.Incremental
import Cwist.Ws.Async
import Cwist.Ws.Receive

namespace Cwist.Ws
open Incremental List WebSocket Async

def Unfinished : Bytes → Prop
  | b0 :: b1 :: base =>
    (Opcode.ofNibble (b0 &&& 0x0F)).any Opcode.isControl ∧ b0 &&& 0x80 = 0 ∧ b0 &&& 0x70 = 0 ∧ b1 &&& 0x80 ≠ 0 ∧
      (b1 &&& 0x7F).toNat ≤ 125 ∧ base.length < 4 + (b1 &&& 0x7F).toNat
  | _ => False

instance : DecidablePred Unfinished
  | [] | [_] => .isFalse id
  | _ :: _ :: _ => inferInstanceAs (Decidable (_ ∧ _))

inductive Agrees (base : Bytes) : Parsed Bytes → Parsed (List Bytes) → Prop where
  | more : Agrees base .more .more
  | failed (other : ¬Unfinished base) : Agrees base .failed .failed
  | short : Agrees base .short .short
  | frame {fin : Bool} {opcode : Opcode} {payload : Bytes} {segs : List Bytes} (whole : opcode.isControl → fin) :
    Agrees base (.frame fin opcode payload segs.flatten) (.frame fin opcode payload segs)
  | late {opcode : Opcode} {payload : Bytes} {segs : List Bytes} (control : opcode.isControl) (other : ¬Unfinished base) :
    Agrees base .failed (.frame false opcode payload segs)
  | early (unfinished : Unfinished base) : Agrees base .failed .more

inductive SameLength : Length Bytes → Length (List Bytes) → Prop where
  | more : SameLength .more .more
  | short : SameLength .short .short
  | length {len : Nat} {segs : List Bytes} : SameLength (.length len segs.flatten) (.length len segs)

variable {ws : WebSocket} {async : Async} {base rest : Bytes}

lemma readExtended_same (size least : Nat) (segs : List Bytes) :
    SameLength (extended size least segs.flatten) (readExtended size least segs) := by
  unfold extended readExtended
  rw [readExact_eq]
  by_cases there : size ≤ segs.flatten.length
  · rw [if_neg (by omega), if_pos there, ← skip_flatten]
    dsimp only
    split
    · exact .short
    · exact .length
  · rw [if_pos (by omega), if_neg there]
    exact .more

lemma readLength_same (len7 : UInt8) (segs : List Bytes) :
    SameLength (lengthField len7 segs.flatten) (readLength len7 segs) := by
  unfold lengthField readLength
  split_ifs
  · exact readExtended_same 2 126 segs
  · exact readExtended_same 8 65536 segs
  · exact .length

lemma lengthField_small {len7 : UInt8} {len : Nat} (found : lengthField len7 base = .length len rest) :
    len ≤ 125 ∧ len = len7.toNat ∧ rest = base ∨ 125 < len ∧ 125 < len7.toNat := by
  unfold lengthField extended at found
  split_ifs at found with medium _ _ large
  all_goals cases found
  · exact .inr ⟨by omega, by rw [medium]; decide⟩
  · exact .inr ⟨by omega, by rw [large]; decide⟩
  · by_cases small : len7.toNat ≤ 125
    · exact .inl ⟨small, rfl, rfl⟩
    · exact .inr ⟨by omega, by omega⟩

lemma readBehind_agrees (b0 b1 : UInt8) (segs : List Bytes) :
    Agrees (b0 :: b1 :: segs.flatten) (parseBehind b0 b1 segs.flatten) (readBehind b0 b1 segs) := by
  unfold parseBehind readBehind
  cases code : Opcode.ofNibble (b0 &&& 0x0F) with
  | none => exact .failed (by simp [Unfinished, code])
  | some opcode =>
    by_cases rsv : b0 &&& 0x70 ≠ 0
    · simp only [if_pos rsv]
      exact .failed fun unfinished => rsv unfinished.2.2.1
    by_cases masked : b1 &&& 0x80 = 0
    · simp only [if_neg rsv, if_pos masked]
      exact .failed fun unfinished => unfinished.2.2.2.1 masked
    simp only [if_neg rsv, if_neg masked]
    have same := readLength_same (b1 &&& 0x7F) segs
    generalize found : lengthField (b1 &&& 0x7F) segs.flatten = field at same ⊢
    generalize readLength (b1 &&& 0x7F) segs = read at same ⊢
    cases same with
    | more => exact .more
    | short => exact .short
    | @length len rest =>
      have small := lengthField_small found
      have room : 125 < maxPayloadBytes := by decide
      by_cases large : len > maxPayloadBytes
      · simp only [if_pos large]
        refine .failed fun unfinished => ?_
        have := unfinished.2.2.2.2.1
        omega
      simp only [if_neg large, readPayload_eq]
      by_cases control : opcode.isControl
      · by_cases long : 125 < len
        · rw [if_pos (by simp [control, long]), if_pos (by simp [control, long])]
          refine .failed fun unfinished => ?_
          have := unfinished.2.2.2.2.1
          omega
        obtain ⟨short, same, behind⟩ := small.resolve_right fun other => long other.1
        rw [if_neg (show ¬(opcode.isControl && decide (len > 125)) by simp [long])]
        by_cases final : b0 &&& 0x80 = 0
        · rw [if_pos (by simp [control, final])]
          split
          · refine .early ⟨by simp [code, control], final, not_not.mp rsv, masked, ?_, ?_⟩ <;> rw [← same]
            · exact short
            · rwa [← behind]
          next there =>
            rw [final]
            refine .late control fun unfinished => there ?_
            rw [behind, same]
            exact unfinished.2.2.2.2.2
        · rw [if_neg (by simp [final, long])]
          split
          · exact .more
          · rw [← drop_drop, ← skip_flatten, ← skip_flatten]
            exact .frame fun _ => by simpa using final
      · simp only [control, Bool.false_and, Bool.false_eq_true, if_false]
        split
        · exact .more
        · rw [← drop_drop, ← skip_flatten, ← skip_flatten]
          exact .frame (by simp [control])

lemma readFrame_agrees (segs : List Bytes) : Agrees segs.flatten (parseFrame segs.flatten) (readFrame segs) := by
  unfold readFrame
  rw [readExact_eq]
  have behind := skip_flatten 2 segs
  match whole : segs.flatten with
  | [] | [_] => exact .more
  | b0 :: b1 :: base =>
    rw [whole] at behind
    change (skip 2 segs).flatten = base at behind
    rw [← behind]
    exact readBehind_agrees b0 b1 (skip 2 segs)

/-! ### The callback-driven receiver as a reader of items -/

def Async.round (ws : Async) (base : Bytes) : Verdict Async UInt8 Unit Async :=
  match parseFrame base with
  | .more => .more
  | .failed => .fail ws
  | .short => .fail (ws.closeCode 1002)
  | .frame fin opcode payload rest =>
    match ws.processFrame fin opcode payload with
    | (false, ws) => .fail ws
    | (true, ws) => if ws.terminatePending then .fail ws else .item () ws rest

lemma Async.round_item {ws ws' : Async} {u : Unit} (said : ws.round base = .item u ws' rest) :
    rest.length < base.length ∧ ws'.terminatePending = false := by
  unfold round at said
  split at said
  · cases said
  · cases said
  · cases said
  rename_i parsed
  split at said
  · cases said
  split at said
  · cases said
  next open_ =>
    cases said
    exact ⟨parseFrame_shorter parsed, by simpa using open_⟩

def Async.reader : Step Async UInt8 Unit Async where
  run := round
  shorter said := (round_item said).1

def Length.append (t : Bytes) : Length Bytes → Length Bytes
  | .more => .more
  | .short => .short
  | .length len rest => .length len (rest ++ t)

def Parsed.append (t : Bytes) : Parsed Bytes → Parsed Bytes
  | .more => .more
  | .failed => .failed
  | .short => .short
  | .frame fin opcode payload rest => .frame fin opcode payload (rest ++ t)

lemma extended_append (size least : Nat) (base t : Bytes) :
    extended size least base = .more ∨ extended size least (base ++ t) = (extended size least base).append t := by
  unfold extended
  by_cases short : base.length < size
  · exact .inl (if_pos short)
  right
  rw [if_neg (by rw [length_append]; omega), take_append_of_le_length (by omega),
    drop_append_of_le_length (by omega)]
  split <;> rfl

lemma lengthField_append (len7 : UInt8) (base t : Bytes) :
    lengthField len7 base = .more ∨ lengthField len7 (base ++ t) = (lengthField len7 base).append t := by
  unfold lengthField
  split_ifs
  · exact extended_append 2 126 base t
  · exact extended_append 8 65536 base t
  · exact .inr rfl

lemma parseBehind_append (b0 b1 : UInt8) (base t : Bytes) :
    parseBehind b0 b1 base = .more ∨ parseBehind b0 b1 (base ++ t) = (parseBehind b0 b1 base).append t := by
  unfold parseBehind
  cases Opcode.ofNibble (b0 &&& 0x0F) with
  | none => exact .inr rfl
  | some opcode =>
    dsimp only
    split
    · exact .inr rfl
    split
    · exact .inr rfl
    rcases lengthField_append (b1 &&& 0x7F) base t with more | same
    · rw [more]
      exact .inl rfl
    rw [same]
    cases lengthField (b1 &&& 0x7F) base with
    | more => exact .inl rfl
    | short => exact .inr rfl
    | length len rest =>
      dsimp only [Length.append]
      split
      · exact .inr rfl
      split
      · exact .inr rfl
      by_cases short : rest.length < 4 + len
      · exact .inl (if_pos short)
      right
      rw [if_neg short, if_neg (by rw [length_append]; omega), take_append_of_le_length (by omega),
        drop_append_of_le_length (by omega), drop_append_of_le_length (by omega),
        take_append_of_le_length (by rw [length_drop]; omega)]
      rfl

lemma parseFrame_append (base t : Bytes) :
    parseFrame base = .more ∨ parseFrame (base ++ t) = (parseFrame base).append t := by
  match base with
  | [] | [_] => exact .inl rfl
  | b0 :: b1 :: base => exact parseBehind_append b0 b1 base t

lemma Async.reader_steady (ws : Async) (base : Bytes) : Steady reader ws base := by
  rintro p t rfl
  rcases parseFrame_append p t with more | same
  · have said : ws.round p = .more := by rw [round, more]
    refine ⟨fun x q' rest item => ?_, fun e fail => ?_⟩
    · cases said.symm.trans item
    · cases said.symm.trans fail
  change (∀ x q' rest, ws.round p = .item x q' rest → ws.round (p ++ t) = .item x q' (rest ++ t)) ∧
    ∀ e, ws.round p = .fail e → ws.round (p ++ t) = .fail e
  unfold round
  rw [same]
  cases parseFrame p with
  | more => simp [Parsed.append]
  | failed => simp [Parsed.append]
  | short => simp [Parsed.append]
  | frame fin opcode payload rest =>
    dsimp only [Parsed.append]
    split
    · exact ⟨by simp, fun e fail => fail⟩
    split
    · exact ⟨by simp, fun e fail => fail⟩
    · refine ⟨fun x q' rest' item => ?_, by simp⟩
      cases item
      rfl

def Async.settled (o : Outcome Async UInt8 Unit Async) : Async × Bool :=
  match o.failure with
  | none => (o.state, false)
  | some ws => (ws, true)

lemma Async.feedLoop_cases (ws : Async) (base : Bytes) (alive : ws.terminatePending = false) :
    match (drain reader ws base).failure with
    | none =>
      ws.feedLoop base = (true, (drain reader ws base).state, (drain reader ws base).rest) ∧
        (drain reader ws base).state.terminatePending = false
    | some ws' => ∃ ok rest, ws.feedLoop base = (ok, ws', rest) ∧ (ok → ws'.terminatePending) := by
  fun_induction feedLoop ws base with
  | case1 ws base parsed =>
    have said : reader.run ws base = .more := by
      change ws.round base = _
      rw [round, parsed]
    rw [drain_more said]
    exact ⟨rfl, alive⟩
  | case2 ws base parsed =>
    have said : reader.run ws base = .fail ws := by
      change ws.round base = _
      rw [round, parsed]
    rw [drain_fail said]
    exact ⟨false, base, rfl, nofun⟩
  | case3 ws base parsed =>
    have said : reader.run ws base = .fail (ws.closeCode 1002) := by
      change ws.round base = _
      rw [round, parsed]
    rw [drain_fail said]
    exact ⟨false, base, rfl, nofun⟩
  | case4 ws base fin opcode payload rest parsed ws' processed =>
    have said : reader.run ws base = .fail ws' := by
      change ws.round base = _
      rw [round, parsed]
      dsimp only
      rw [processed]
    rw [drain_fail said]
    exact ⟨false, rest, rfl, nofun⟩
  | case5 ws base fin opcode payload rest parsed ws' processed pending =>
    have said : reader.run ws base = .fail ws' := by
      change ws.round base = _
      rw [round, parsed]
      dsimp only
      rw [processed]
      dsimp only
      rw [if_pos pending]
    rw [drain_fail said]
    exact ⟨true, rest, rfl, fun _ => pending⟩
  | case6 ws base fin opcode payload rest parsed ws' processed pending ih =>
    have said : reader.run ws base = .item () ws' rest := by
      change ws.round base = _
      rw [round, parsed]
      dsimp only
      rw [processed]
      dsimp only
      rw [if_neg pending]
    rw [drain_item said]
    exact ih (by simpa using pending)

lemma Async.settled_after (items : List Unit) (o : Outcome Async UInt8 Unit Async) : settled (o.after items) = settled o := rfl

lemma Async.serve_from (ws : Async) (base : Bytes) (segs : List Bytes) (alive : ws.terminatePending = false) :
    (match ws.feedLoop base with
      | (false, ws, _) => (ws, true)
      | (true, ws, stash) => if ws.terminatePending then (ws, true) else ws.serve stash segs) =
      settled (feed reader ws base segs) := by
  induction segs generalizing ws base with have fed := feedLoop_cases ws base alive
  | nil =>
    rw [feed, settled]
    split at fed
    · rw [fed.1]
      dsimp only
      rw [if_neg (by simp [fed.2]), serve]
    · obtain ⟨ok, rest, loop, pending⟩ := fed
      rw [loop]
      cases ok with
      | false => rfl
      | true => exact if_pos (pending rfl)
  | cons seg segs ih =>
    rw [feed]
    split at fed
    next open_ =>
      rw [fed.1, open_]
      dsimp only
      rw [if_neg (by simp [fed.2])]
      exact ih _ _ fed.2
    next ws' failed =>
      obtain ⟨ok, rest, loop, pending⟩ := fed
      rw [loop, failed]
      cases ok with
      | false => rfl
      | true => exact if_pos (pending rfl)

lemma Async.serve_eq (segs : List Bytes) : init.serve [] segs = settled (drain reader init segs.flatten) := by
  have whole := @feed_eq _ _ _ _ reader init [] segs fun ws rest _ => reader_steady ws rest
  rw [nil_append] at whole
  rw [← whole]
  have nothing : drain reader init [] = ⟨[], none, init, []⟩ := drain_more rfl
  cases segs with rw [feed, nothing]
  | nil => rfl
  | cons seg segs =>
    rw [settled_after, ← serve_from _ _ _ rfl]
    rfl

/-- The callback-driven receiver does not see where the stream is cut. -/
theorem serve_whole (segs : List Bytes) : init.serve [] segs = init.serve [] [segs.flatten] := by
  rw [serve_eq, serve_eq, flatten_singleton]

/-! ### The states -/

/-- The connections of both receivers, with the same message being assembled. -/
structure Mirrors (ws : WebSocket) (async : Async) : Prop where
  open_ : ws.isClosed = false
  closed : async.closed = false
  alive : async.terminatePending = false
  sent : ws.sent = async.sent
  buf : ws.fragBuf = async.fragBuf
  opcode : ws.fragOpcode = if async.fragActive then async.fragOpcode else .continuation
  active : async.fragActive → async.fragOpcode ≠ .continuation
  idle : async.fragActive = false → async.fragBuf = []
  fits : async.fragBuf.length ≤ maxMessageBytes

lemma Mirrors.init : Mirrors .init .init := by
  constructor <;> simp [WebSocket.init, Async.init]

lemma Mirrors.active_iff (mirrors : Mirrors ws async) : ws.fragOpcode ≠ .continuation ↔ async.fragActive := by
  rw [mirrors.opcode]
  split
  next active => simp [active, mirrors.active active]
  next idle => simp [idle]

structure Ends (ws : WebSocket) (async : Async) (delivered : List Frame) : Prop where
  closed : async.closed = ws.isClosed
  sent : async.sent = ws.sent
  delivered : async.delivered = delivered

lemma sendArgsValid_closeBody (code : Nat) : sendArgsValid .close (closeBody code).length = true := rfl

lemma Mirrors.closeCode (mirrors : Mirrors ws async) (code : Nat) :
    Ends (ws.closeWith (closeBody code)) (async.closeCode code) async.delivered := by
  have sent := mirrors.sent
  constructor <;>
    simp [closeWith, WebSocket.send, Async.closeCode, Async.queueFrame, mirrors.open_, mirrors.closed,
      sendArgsValid_closeBody, sent]

inductive Same (delivered : List Frame) : Bool × Async → WebSocket.Handled → Prop where
  | again {ws : WebSocket} {async : Async} (mirrors : Mirrors ws async) (kept : async.delivered = delivered) :
    Same delivered (true, async) (.again ws)
  | deliver {ws : WebSocket} {async : Async} {frame : Frame} (mirrors : Mirrors ws async) (data : frame.opcode ≠ .close)
    (kept : async.delivered = delivered ++ [frame]) : Same delivered (true, async) (.deliver frame ws)
  | close {ws : WebSocket} {async : Async} {frame : Frame} (close : frame.opcode = .close) (closed : ws.isClosed)
    (pending : async.terminatePending) (ends : Ends ws async delivered) : Same delivered (true, async) (.deliver frame ws)
  | fail {ws : WebSocket} {async : Async} (ends : Ends ws async delivered) : Same delivered (false, async) (.null ws)

lemma Mirrors.send (mirrors : Mirrors ws async) (opcode : Opcode) (data : Bytes) :
    Mirrors (ws.send opcode data) (async.queueFrame opcode data) := by
  have sent := mirrors.sent
  unfold WebSocket.send queueFrame
  cases valid : sendArgsValid opcode data.length with
  | false => simpa using mirrors
  | true =>
    rw [if_neg (by simp [mirrors.open_]), if_pos rfl]
    exact { mirrors with sent := by rw [sent] }

lemma Async.queueFrame_delivered (ws : Async) (opcode : Opcode) (data : Bytes) :
    (ws.queueFrame opcode data).delivered = ws.delivered := by
  unfold queueFrame
  split <;> rfl

section
variable (mirrors : Mirrors ws async)
include mirrors

lemma Mirrors.complete (fin : Bool) (opcode : Opcode)
    (payload : Bytes) : Same async.delivered (async.deliver fin opcode payload) (ws.complete fin opcode payload) := by
  unfold Async.deliver WebSocket.complete
  split
  · exact .fail (mirrors.closeCode 1007)
  split
  next close =>
    cases closeError payload with
    | some code => exact .fail (mirrors.closeCode code)
    | none =>
      have same := mirrors.send .close (if payload.length ≥ 2 then payload.take 2 else [])
      exact .close close rfl rfl ⟨rfl, same.sent.symm, queueFrame_delivered _ _ _⟩
  next other =>
    split
    · have same := mirrors.send .pong payload
      refine .deliver ?_ other ?_
      · exact ⟨same.open_, same.closed, same.alive, same.sent, same.buf, same.opcode, same.active, same.idle, same.fits⟩
      · rw [queueFrame_delivered]
    · exact .deliver
        ⟨mirrors.open_, mirrors.closed, mirrors.alive, mirrors.sent, mirrors.buf, mirrors.opcode, mirrors.active,
          mirrors.idle, mirrors.fits⟩ other rfl

lemma Mirrors.fragAppend (active : async.fragActive) (src : Bytes) :
    (ws.fragAppend src = none ∧ async.fragAppend src = none) ∨
      ∃ ws' async', ws.fragAppend src = some ws' ∧ async.fragAppend src = some async' ∧ Mirrors ws' async' ∧
        async'.delivered = async.delivered ∧ async'.fragActive ∧ ws'.fragOpcode = async'.fragOpcode := by
  have buf := mirrors.buf
  have fits := mirrors.fits
  have opcode := mirrors.opcode
  rw [if_pos active] at opcode
  unfold WebSocket.fragAppend Async.fragAppend
  by_cases empty : src = []
  · subst empty
    refine .inr ⟨ws, { async with fragBuf := async.fragBuf ++ [] }, if_pos rfl, if_neg (by simp), ?_, rfl, active, opcode⟩
    rw [append_nil]
    exact mirrors
  rw [if_neg empty, buf]
  by_cases large : async.fragBuf.length + src.length > maxMessageBytes
  · rw [if_pos large, if_pos (by omega)]
    exact .inl ⟨rfl, rfl⟩
  rw [if_neg large, if_neg (by omega)]
  refine .inr ⟨_, _, rfl, rfl, ?_, rfl, active, opcode⟩
  exact { mirrors with
    buf := rfl
    idle := fun idle => absurd active (by simp [show async.fragActive = false from idle])
    fits := by simp only [length_append]; omega }

lemma Mirrors.idle_again :
    Mirrors { ws with fragBuf := [], fragOpcode := .continuation } { async with fragBuf := [], fragActive := false } :=
  { mirrors with
    buf := rfl
    opcode := rfl
    active := nofun
    idle := fun _ => rfl
    fits := Nat.zero_le _ }

lemma Mirrors.assemble (active : async.fragActive) (payload : Bytes) :
    Same async.delivered (async.assemble false payload) (ws.buffer payload) ∧
      Same async.delivered (async.assemble true payload) (ws.assemble true payload) := by
  unfold Async.assemble WebSocket.buffer WebSocket.assemble
  rcases mirrors.fragAppend active payload with ⟨none, none'⟩ | ⟨ws', async', some_, some', mirrors', kept, -, opcode⟩
  · rw [none, none']
    have ends : Ends ws { async with fragBuf := [], fragActive := false } async.delivered :=
      ⟨mirrors.closed.trans mirrors.open_.symm, mirrors.sent.symm, rfl⟩
    exact ⟨.fail ends, .fail ⟨ends.closed, ends.sent, rfl⟩⟩
  · rw [some_, some']
    refine ⟨.again mirrors' kept, ?_⟩
    have same := mirrors'.idle_again.complete true async'.fragOpcode async'.fragBuf
    dsimp only
    rw [← kept, opcode, mirrors'.buf]
    exact same

lemma Mirrors.handle {fin : Bool} {opcode : Opcode} (payload : Bytes) (whole : opcode.isControl → fin) :
    Same async.delivered (async.processFrame fin opcode payload) (ws.handle fin opcode payload) := by
  have active := mirrors.active_iff
  have ends : Ends ws async async.delivered := ⟨mirrors.closed.trans mirrors.open_.symm, mirrors.sent.symm, rfl⟩
  unfold processFrame WebSocket.handle
  cases control : opcode.isControl with
  | true =>
    simp only [whole control, if_true, Bool.not_true, Bool.false_eq_true, and_false, false_and, if_false]
    exact mirrors.complete true opcode payload
  | false =>
    by_cases next : opcode = .continuation
    · simp only [if_pos next]
      by_cases going : async.fragActive
      · have other := active.mpr going
        obtain ⟨early, final⟩ := mirrors.assemble going payload
        cases fin with
        | false => simpa [going, other] using early
        | true => simpa [going, other, next] using final
      · have none := not_not.mp (mt active.mp going)
        cases fin <;> simpa [going, none, next] using Same.fail ends
    · simp only [if_neg next]
      by_cases going : async.fragActive
      · have other := active.mpr going
        cases fin <;> simpa [going, other, next] using Same.fail ends
      have none := not_not.mp (mt active.mp going)
      cases fin with
      | true => simpa [going, none, next] using mirrors.complete true opcode payload
      | false =>
        have begun : Mirrors { ws with fragOpcode := opcode } { async with fragActive := true, fragOpcode := opcode } :=
          { mirrors with
            opcode := rfl
            active := fun _ => next
            idle := nofun }
        have early := (begun.assemble rfl payload).1
        simpa [going, none] using early

end

/-! ### Runs -/

namespace WebSocket
variable {ws ws' : WebSocket} {segs segs' : List Bytes} {fin : Bool} {opcode : Opcode} {payload : Bytes} {frame : Frame}

lemma serve_of_null (received : ws.receive segs = .null ws') : ws.serve segs = ⟨[], ws', true⟩ := by
  rw [serve]
  split <;> rename_i here <;> rw [received] at here <;> cases here
  rfl

lemma serve_of_blocked (received : ws.receive segs = .blocked ws') : ws.serve segs = ⟨[], ws', false⟩ := by
  rw [serve]
  split <;> rename_i here <;> rw [received] at here <;> cases here
  rfl

lemma serve_of_frame (received : ws.receive segs = .frame frame ws' segs') :
    ws.serve segs = { ws'.serve segs' with frames := frame :: (ws'.serve segs').frames } := by
  rw [serve]
  split <;> rename_i here <;> rw [received] at here <;> cases here
  rfl

lemma receive_of_open (open_ : ws.isClosed = false) : ws.receive segs = ws.receiveLoop segs := by
  rw [receive, if_neg (by simp [open_])]

lemma receiveLoop_of_more (read : readFrame segs = .more) : ws.receiveLoop segs = .blocked ws := by
  rw [receiveLoop]
  split <;> rename_i here <;> rw [read] at here <;> cases here

lemma receiveLoop_of_failed (read : readFrame segs = .failed) : ws.receiveLoop segs = .null ws := by
  rw [receiveLoop]
  split <;> rename_i here <;> rw [read] at here <;> cases here

lemma receiveLoop_of_short (read : readFrame segs = .short) :
    ws.receiveLoop segs = .null (ws.closeWith (closeBody 1002)) := by
  rw [receiveLoop]
  split <;> rename_i here <;> rw [read] at here <;> cases here

lemma receiveLoop_of_frame (read : readFrame segs = .frame fin opcode payload segs') :
    ws.receiveLoop segs =
      match ws.handle fin opcode payload with
      | .again ws => ws.receiveLoop segs'
      | .null ws => .null ws
      | .deliver frame ws => .frame frame ws segs' := by
  rw [receiveLoop]
  split <;> rename_i here <;> rw [read] at here <;> cases here
  rfl

lemma serve_of_again (open_ : ws.isClosed = false) (open' : ws'.isClosed = false)
    (read : readFrame segs = .frame fin opcode payload segs') (handled : ws.handle fin opcode payload = .again ws') :
    ws.serve segs = ws'.serve segs' := by
  have same : ws.receive segs = ws'.receive segs' := by
    rw [receive_of_open open_, receive_of_open open', receiveLoop_of_frame read, handled]
  cases received : ws'.receive segs' with
  | null ws'' => rw [serve_of_null received, serve_of_null (same.trans received)]
  | blocked ws'' => rw [serve_of_blocked received, serve_of_blocked (same.trans received)]
  | frame frame ws'' rest => rw [serve_of_frame received, serve_of_frame (same.trans received)]

end WebSocket

inductive Standing where
  | open_
  | failed
  | closed (body : Option Bytes)
  deriving DecidableEq

def standing (ended closed : Bool) (sent : List (Opcode × Bytes)) : Standing :=
  if !ended then .open_ else if closed then .closed (sent.getLast?.map Prod.snd) else .failed

def Async.standing (result : Async × Bool) : Standing := Ws.standing result.2 result.1.closed result.1.sent

def WebSocket.Served.standing (served : WebSocket.Served) : Standing :=
  Ws.standing served.ended served.ws.isClosed served.ws.sent

def WebSocket.Served.messages (served : WebSocket.Served) : List Frame := served.frames.filter (·.opcode ≠ .close)

def Alike (delivered : List Frame) (o : Outcome Async UInt8 Unit Async) (served : WebSocket.Served) : Prop :=
  Ends served.ws (Async.settled o).1 (delivered ++ served.messages) ∧
    (Unfinished o.rest ∧ (Async.settled o).2 = true ∧ served.ended = false ∨
      ¬Unfinished o.rest ∧ (Async.settled o).2 = served.ended)

lemma Unfinished.failed (unfinished : Unfinished base) : parseFrame base = .failed := by
  match base with
  | b0 :: b1 :: rest =>
    obtain ⟨control, final, rsv, masked, small, -⟩ := unfinished
    obtain ⟨opcode, code, control⟩ := (Option.any_eq_true _ _).mp control
    have medium : b1 &&& 0x7F ≠ 126 := fun same => absurd (same ▸ small) (by decide)
    have large : b1 &&& 0x7F ≠ 127 := fun same => absurd (same ▸ small) (by decide)
    have room : 125 < maxPayloadBytes := by decide
    rw [parseFrame, parseBehind, code]
    dsimp only
    rw [if_neg (not_not.mpr rsv), if_neg masked, lengthField, if_neg medium, if_neg large]
    dsimp only
    rw [if_neg (by omega), if_pos (by simp [control, final])]

lemma not_unfinished (parsed : parseFrame base ≠ .failed) : ¬Unfinished base :=
  fun unfinished => parsed unfinished.failed

lemma Mirrors.serve (mirrors : Mirrors ws async) (segs : List Bytes) :
    Alike async.delivered (drain Async.reader async segs.flatten) (ws.serve segs) := by
  induction size : segs.flatten.length using Nat.strong_induction_on generalizing ws async segs with
  | _ n ih =>
  have ends : Ends ws async (async.delivered ++ []) :=
    ⟨mirrors.closed.trans mirrors.open_.symm, mirrors.sent.symm, (append_nil _).symm⟩
  have called := @WebSocket.receive_of_open ws segs mirrors.open_
  have agrees := readFrame_agrees segs
  generalize parsed : parseFrame segs.flatten = frame at agrees
  generalize read : readFrame segs = frame' at agrees
  have round : Async.reader.run async segs.flatten = async.round segs.flatten := rfl
  rw [Async.round, parsed] at round
  cases agrees with
  | more =>
    rw [drain_more round, serve_of_blocked (called.trans (receiveLoop_of_more read))]
    exact ⟨ends, .inr ⟨not_unfinished (by rw [parsed]; nofun), rfl⟩⟩
  | failed other =>
    rw [drain_fail round, serve_of_null (called.trans (receiveLoop_of_failed read))]
    exact ⟨ends, .inr ⟨other, rfl⟩⟩
  | short =>
    rw [drain_fail round, serve_of_null (called.trans (receiveLoop_of_short read))]
    have closes := mirrors.closeCode 1002
    exact ⟨⟨closes.closed, closes.sent, closes.delivered.trans (append_nil _).symm⟩,
      .inr ⟨not_unfinished (by rw [parsed]; nofun), rfl⟩⟩
  | early unfinished =>
    rw [drain_fail round, serve_of_blocked (called.trans (receiveLoop_of_more read))]
    exact ⟨ends, .inl ⟨unfinished, rfl, rfl⟩⟩
  | @late opcode payload rest control other =>
    have handled : ws.handle false opcode payload = .null ws := by rw [WebSocket.handle, if_pos (by simp [control])]
    have received : ws.receive segs = .null ws := by rw [called, receiveLoop_of_frame read, handled]
    rw [drain_fail round, serve_of_null received]
    exact ⟨ends, .inr ⟨other, rfl⟩⟩
  | @frame fin opcode payload rest whole =>
    have same := mirrors.handle payload whole
    have shorter := readFrame_shorter read
    have loop := @WebSocket.receiveLoop_of_frame ws segs rest fin opcode payload read
    have fair := not_unfinished (by rw [parsed]; nofun)
    dsimp only at round
    generalize async.processFrame fin opcode payload = result at same round
    generalize handled : ws.handle fin opcode payload = result' at same loop
    cases same with
    | fail ends' =>
      rw [drain_fail round, serve_of_null (called.trans loop)]
      exact ⟨⟨ends'.closed, ends'.sent, ends'.delivered.trans (append_nil _).symm⟩, .inr ⟨fair, rfl⟩⟩
    | @close ws' _ frame close closed pending ends' =>
      dsimp only at round
      rw [if_pos pending] at round
      have last : ws'.receive rest = .null ws' := if_pos closed
      rw [drain_fail round, serve_of_frame (called.trans loop), serve_of_null last]
      refine ⟨⟨ends'.closed, ends'.sent, ends'.delivered.trans ?_⟩, .inr ⟨fair, rfl⟩⟩
      simp [WebSocket.Served.messages, close]
    | @deliver ws' async' frame mirrors' data kept =>
      dsimp only at round
      rw [if_neg (by simp [mirrors'.alive])] at round
      obtain ⟨ends', verdict⟩ := ih _ (size ▸ shorter) mirrors' rest rfl
      rw [drain_item round, serve_of_frame (called.trans loop)]
      refine ⟨⟨ends'.closed, ends'.sent, ends'.delivered.trans ?_⟩, verdict⟩
      rw [kept]
      simp [WebSocket.Served.messages, data]
    | again mirrors' kept =>
      dsimp only at round
      rw [if_neg (by simp [mirrors'.alive])] at round
      have alike := ih _ (size ▸ shorter) mirrors' rest rfl
      rw [drain_item round, serve_of_again mirrors.open_ mirrors'.open_ read handled, ← kept]
      exact alike

def EndsUnfinished (stream : Bytes) : Prop := Unfinished (drain Async.reader .init stream).rest

/-- However a stream is cut for either of them, both receivers deliver the same messages and send the same frames; and they
come to the same verdict, if and only if the stream does not end inside of a control frame without FIN. -/
theorem receivers_mirror_iff {segs other : List Bytes} (same : segs.flatten = other.flatten) :
    (Async.init.serve [] segs).1.delivered = (WebSocket.init.serve other).messages ∧
      (Async.init.serve [] segs).1.sent = (WebSocket.init.serve other).ws.sent ∧
      (Async.standing (Async.init.serve [] segs) = (WebSocket.init.serve other).standing ↔
        ¬EndsUnfinished segs.flatten) := by
  obtain ⟨ends, verdict⟩ := Mirrors.init.serve other
  rw [serve_eq, same]
  refine ⟨ends.delivered, ends.sent, ?_⟩
  rw [Async.standing, WebSocket.Served.standing, ends.closed, ends.sent]
  rcases verdict with ⟨unfinished, ended, going⟩ | ⟨finished, alike⟩
  · refine iff_of_false ?_ (not_not.mpr unfinished)
    rw [ended, going]
    cases (WebSocket.init.serve other).ws.isClosed <;> simp [Ws.standing]
  · refine iff_of_true ?_ finished
    rw [alike]

def sampleStream : Bytes :=
  [0x01, 0x81, 0, 0, 0, 0, 0x68] ++ [0x89, 0x80, 0, 0, 0, 0] ++ [0x80, 0x81, 0, 0, 0, 0, 0x69]

theorem receivers_mirror_sample : (Async.init.serve [] [sampleStream.take 9, sampleStream.drop 9]).1.delivered =
        (WebSocket.init.serve [sampleStream]).messages ∧
      Async.standing (Async.init.serve [] [sampleStream.take 9, sampleStream.drop 9]) =
        (WebSocket.init.serve [sampleStream]).standing := by
  have same : [sampleStream.take 9, sampleStream.drop 9].flatten = [sampleStream].flatten := by decide
  have whole : ¬EndsUnfinished [sampleStream.take 9, sampleStream.drop 9].flatten := by
    unfold EndsUnfinished
    decide +kernel
  obtain ⟨delivered, -, verdict⟩ := receivers_mirror_iff same
  exact ⟨delivered, verdict.mpr whole⟩

/-- The header of a CLOSE frame without FIN: one receiver has failed, the other one waits. -/
theorem unfinished_close : Async.standing (Async.init.serve [] [[0x08, 0x80]]) = .failed ∧
      (WebSocket.init.serve [[0x08, 0x80]]).standing = .open_ := by
  decide +kernel

end Cwist.Ws
