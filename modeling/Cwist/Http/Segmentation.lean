import Cwist.Http.Receive
import Cwist.Http.ChunkedReads

namespace Cwist.Http
open Delimit Incremental List Stash

def HeadersBelow (stream : Bytes) : Prop :=
  ∀ rest, Remains receiver () stream () rest → ∀ block behind, cut crlfcrlf rest = some (block, behind) →
    block.length + 4 < readBufferSize

def streamOutcome (stream : Bytes) : Outcome Unit UInt8 WireRequest ParseError := drain receiver () stream

def StarvedRun (buf : Bytes) : List Bytes → Prop
  | [] => Starved (streamOutcome buf).rest
  | seg :: fills =>
    Starved (streamOutcome buf).rest ∨
      (streamOutcome buf).failure = none ∧ StarvedRun ((streamOutcome buf).rest ++ seg) fills

lemma validate_error {headers : List (Bytes × Bytes)} {e : ParseError} (failed : validateTransferEncoding headers = .error e) :
    e ≠ .eof ∧ e ≠ .headerOverflow := by
  unfold validateTransferEncoding at failed
  dsimp only at failed
  split at failed
  · cases failed
  split at failed
  · cases failed
    decide
  split at failed
  · cases failed
    decide
  · cases failed

lemma check_error {pass : HeaderPass} {isHttp11 : Bool} {e : ParseError} (failed : pass.check isHttp11 = .error e) :
    e ≠ .eof ∧ e ≠ .headerOverflow := by
  unfold HeaderPass.check at failed
  split at failed
  · cases failed
    decide
  split at failed
  · cases failed
    decide
  split at failed
  · cases failed
    decide
  split at failed
  next e' invalid =>
    cases failed
    split at invalid
    · exact validate_error invalid
    · cases invalid
  split at failed
  · cases failed
    decide
  · cases failed

lemma parse_error {block rest : Bytes} {e : ParseError} (failed : parseRequestWithHeaderEnd block rest = .error e) :
    e ≠ .eof ∧ e ≠ .headerOverflow := by
  unfold parseRequestWithHeaderEnd at failed
  split at failed
  · cases failed
    decide
  split at failed
  · cases failed
    decide
  split at failed
  · cases failed
    decide
  rename_i line _ _ pass _
  cases checked : pass.check ((ascii "HTTP/1.1").isPrefixOf line.version) with rw [checked] at failed
  | ok => cases failed
  | error e' =>
    cases failed
    exact check_error checked

lemma verdict_fail_ne_eof {buf : Bytes} {e : ParseError} (said : verdict buf = .fail e) : e ≠ .eof := by
  unfold verdict at said
  dsimp only at said
  repeat' split at said
  all_goals first
    | cases said; done
    | cases said; decide
    | cases said
      rename_i failed
      exact (parse_error failed).1

lemma Starved.more {buf : Bytes} (starved : Starved buf) : verdict buf = .more := by
  obtain ⟨block, behind, req, found, parsed, asks⟩ := starved
  split at asks
  next positive => rw [verdict_of_length found parsed positive, if_neg (by omega), if_pos asks.2.1]
  next zero => rw [verdict_of_chunked found parsed zero asks.1, asks.2.1]

lemma verdict_fail_append {p block behind : Bytes} {e : ParseError} (found : cut crlfcrlf p = some (block, behind))
    (said : verdict p = .fail e) (t : Bytes) : verdict (p ++ t) = .fail e := by
  have whole := cut_append t found
  cases parsed : parseRequestWithHeaderEnd block [] with
  | error e' =>
    simp only [verdict, found, parsed, Verdict.fail.injEq] at said
    simp only [verdict, whole, parsed, said]
  | ok req =>
    by_cases positive : req.contentLength > 0
    · rw [verdict_of_length found parsed positive] at said
      rw [verdict_of_length whole parsed positive]
      split at said
      next large => rw [if_pos large, said]
      · split at said <;> cases said
    · by_cases te : req.teChunkedSeen
      · rw [verdict_of_chunked found parsed positive te] at said
        rw [verdict_of_chunked whole parsed positive te]
        split at said
        · cases said
        · cases said
        next broken => rw [chunkedScan_malformed broken t, said]
      · rw [verdict_of_plain found parsed positive te] at said
        cases said

lemma verdict_item_append {p rest : Bytes} {req : WireRequest} (said : verdict p = .item req () rest) (t : Bytes) :
    verdict (p ++ t) = .item req () (rest ++ t) := by
  obtain ⟨block, framed, rfl, -, -, always⟩ := verdict_item said
  have here := always (rest ++ t)
  rwa [← append_assoc] at here

lemma receiver_steady {stream : Bytes}
    (below : ∀ block behind, cut crlfcrlf stream = some (block, behind) → block.length + 4 < readBufferSize) :
    Steady receiver () stream := by
  rintro p t rfl
  refine ⟨fun req _ rest said => verdict_item_append said t, fun e said => ?_⟩
  change verdict p = .fail e at said
  change verdict (p ++ t) = .fail e
  cases found : cut crlfcrlf p with
  | some pieces => exact verdict_fail_append found said t
  | none =>
    rw [verdict_of_none found] at said
    split at said
    · cases said
      cases whole : cut crlfcrlf (p ++ t) with
      | none => rw [verdict_of_none whole, if_pos (by simp; omega)]
      | some pieces =>
        have short := below _ _ whole
        obtain ⟨after, here, -⟩ := cut_of_append (by decide) whole (show pieces.1.length + 4 ≤ p.length by omega)
        rw [found] at here
        cases here
    · cases said

lemma Stash.drain_eq (stash : Stash) :
    ∃ result, stash.drain = ((streamOutcome stash.1.rbuf).items, result) ∧
      match result with
      | .ok stash' => stash'.1.rbuf = (streamOutcome stash.1.rbuf).rest ∧ (streamOutcome stash.1.rbuf).failure = none ∧
          ¬Starved (streamOutcome stash.1.rbuf).rest
      | .error (e, conn) => conn.rbuf = (streamOutcome stash.1.rbuf).rest ∧
          ((streamOutcome stash.1.rbuf).failure = some e ∨
            (streamOutcome stash.1.rbuf).failure = none ∧ Starved (streamOutcome stash.1.rbuf).rest ∧ e = .eof) := by
  fun_induction drain stash with
  | case1 stash req conn received requests result rest ih =>
    obtain ⟨said, wf⟩ := stash.2.of_ok received
    have outcome : streamOutcome stash.1.rbuf = (streamOutcome conn.rbuf).after [req] := drain_item said
    obtain ⟨result', same, spec⟩ := ih
    rw [same] at rest
    cases rest
    rw [outcome]
    exact ⟨_, rfl, spec⟩
  | case2 stash conn received =>
    obtain ⟨⟨said, room, same⟩, wf⟩ := stash.2.of_more received
    have outcome : streamOutcome stash.1.rbuf = ⟨[], none, (), stash.1.rbuf⟩ := drain_more said
    rw [outcome]
    exact ⟨_, rfl, same, rfl, room⟩
  | case3 stash e conn received =>
    obtain ⟨same, said | ⟨said, room, eof⟩⟩ := stash.2.of_fatal received
    · have outcome : streamOutcome stash.1.rbuf = ⟨[], some e, (), stash.1.rbuf⟩ := drain_fail said
      rw [outcome]
      exact ⟨_, rfl, same, .inl rfl⟩
    · have outcome : streamOutcome stash.1.rbuf = ⟨[], none, (), stash.1.rbuf⟩ := drain_more said
      rw [outcome]
      exact ⟨_, rfl, same, .inr ⟨rfl, room, eof⟩⟩

lemma not_starved_of_failure {buf : Bytes} {e : ParseError} (failed : (streamOutcome buf).failure = some e) :
    ¬Starved (streamOutcome buf).rest := by
  intro starved
  have stops := @drain_stops _ _ _ _ receiver () buf
  have more := starved.more
  unfold streamOutcome at failed more
  rw [failed] at stops
  exact absurd (stops.symm.trans more) nofun

lemma Stash.serve_eq {stash : Stash} {fills : List Bytes} {o : Outcome Unit UInt8 WireRequest ParseError}
    (served : stash.serve fills = some o) : (¬StarvedRun stash.1.rbuf fills → o = feed receiver () stash.1.rbuf fills) ∧
      (StarvedRun stash.1.rbuf fills → o.failure = some .eof) := by
  induction fills generalizing stash o with obtain ⟨result, same, spec⟩ := stash.drain_eq
  | nil =>
    rw [serve, same] at served
    rcases result with ⟨e, conn⟩ | stash'
    · obtain ⟨rest, failed | ⟨open_, starved, rfl⟩⟩ := spec
      · cases served
        refine ⟨fun _ => ?_, fun starved => absurd starved (not_starved_of_failure failed)⟩
        rw [rest, ← failed]
        rfl
      · cases served
        exact ⟨fun fed => absurd starved fed, fun _ => rfl⟩
    · obtain ⟨rest, open_, fed⟩ := spec
      cases served
      refine ⟨fun _ => ?_, fun starved => absurd starved fed⟩
      rw [rest, ← open_]
      rfl
  | cons seg fills ih =>
    rw [serve, same] at served
    rw [feed]
    rcases result with ⟨e, conn⟩ | stash'
    · obtain ⟨rest, failed | ⟨open_, starved, rfl⟩⟩ := spec
      · cases served
        refine ⟨fun _ => ?_, ?_⟩
        · have failed' : (Incremental.drain receiver () stash.1.rbuf).failure = some e := failed
          rw [rest, failed']
          rfl
        · rintro (starved | ⟨open_, -⟩)
          · exact absurd starved (not_starved_of_failure failed)
          · rw [failed] at open_
            cases open_
      · cases served
        exact ⟨fun fed => absurd (.inl starved) fed, fun _ => rfl⟩
    · obtain ⟨rest, open_, fed⟩ := spec
      have open' : (Incremental.drain receiver () stash.1.rbuf).failure = none := open_
      dsimp only at served
      split at served
      · cases served
      rename_i conn filled
      obtain ⟨o', served', rfl⟩ := Option.map_eq_some_iff.mp served
      obtain ⟨goes, starves⟩ := ih served'
      have buf := (stash'.2.fill filled).2
      rw [rest] at buf
      rw [buf] at goes starves
      rw [open']
      refine ⟨fun ends => ?_, ?_⟩
      · rw [goes fun starved => ends (.inr ⟨open_, starved⟩)]
        rfl
      · rintro (starved | ⟨-, starved⟩)
        · exact absurd starved fed
        · exact starves starved

lemma feed_ne_eof (buf : Bytes) (fills : List Bytes) : (feed receiver () buf fills).failure ≠ some .eof := by
  intro failed
  obtain ⟨_, buf', said⟩ := feed_failure failed
  exact verdict_fail_ne_eof said rfl

def AsyncConn.Received.seen : AsyncConn.Received → Except (Option ParseError) WireRequest × Bytes
  | .ok req conn => (.ok req, conn.rbuf)
  | .needMore conn => (.error none, conn.rbuf)
  | .fatal e conn => (.error (some e), conn.rbuf)

lemma AsyncConn.Answers.seen {conn : AsyncConn} {received : AsyncConn.Received} (answers : conn.Answers received) :
    (∃ req rest, verdict conn.rbuf = .item req () rest ∧ received.seen = (.ok req, rest)) ∨
      (∃ e, verdict conn.rbuf = .fail e ∧ received.seen = (.error (some e), conn.rbuf)) ∨ verdict conn.rbuf = .more ∧
        (¬Starved conn.rbuf ∧ received.seen = (.error none, conn.rbuf) ∨
          Starved conn.rbuf ∧ received.seen = (.error (some .eof), conn.rbuf)) := by
  cases answers with
  | ok said wf => exact .inl ⟨_, _, said, rfl⟩
  | fail said same => exact .inr (.inl ⟨_, said, by rw [Received.seen, same]⟩)
  | more said room same wf => exact .inr (.inr ⟨said, .inl ⟨room, by rw [Received.seen, same]⟩⟩)
  | starved said room same => exact .inr (.inr ⟨said, .inr ⟨room, by rw [Received.seen, same]⟩⟩)

lemma AsyncConn.Wf.seen_eq {conn conn' : AsyncConn} (wf : conn.Wf) (wf' : conn'.Wf) (same : conn.rbuf = conn'.rbuf) :
    conn.receive.seen = conn'.receive.seen := by
  have here := wf.answers.seen
  have there := wf'.answers.seen
  rw [same] at here
  rcases here with ⟨req, rest, said, seen⟩ | ⟨e, said, seen⟩ | ⟨said, ⟨room, seen⟩ | ⟨room, seen⟩⟩
  all_goals
    rw [said] at there
    rcases there with ⟨req', rest', said', seen'⟩ | ⟨e', said', seen'⟩ | ⟨said', ⟨room', seen'⟩ | ⟨room', seen'⟩⟩
    all_goals first
      | contradiction
      | cases said'
        rw [seen, seen']

lemma Stash.serve_isSome {stash : Stash} {fills : List Bytes}
    (below : stash.1.rbuf.length + fills.flatten.length + 1 < asyncStashMax) : ∃ o, stash.serve fills = some o := by
  induction fills generalizing stash with obtain ⟨result, same, spec⟩ := stash.drain_eq
  | nil =>
    rw [serve, same]
    rcases result with ⟨e, conn⟩ | stash' <;> exact ⟨_, rfl⟩
  | cons seg fills ih =>
    rw [serve, same]
    rcases result with ⟨e, conn⟩ | stash'
    · exact ⟨_, rfl⟩
    have shorter : (streamOutcome stash.1.rbuf).rest.length ≤ stash.1.rbuf.length := drain_rest_le () _
    rw [← spec.1] at shorter
    rw [flatten_cons, length_append] at below
    have some_ := stash'.2.fill_isSome seg (by omega)
    dsimp only
    split
    next missing =>
      rw [missing] at some_
      cases some_
    next conn filled =>
      have buf := (stash'.2.fill filled).2
      obtain ⟨o, served⟩ := @ih ⟨conn, (stash'.2.fill filled).1⟩ (by rw [buf, length_append]; omega)
      rw [served]
      exact ⟨_, rfl⟩

lemma Starved.long {buf : Bytes} (starved : Starved buf) : readBufferSize ≤ buf.length := by
  obtain ⟨block, behind, req, found, -, asks⟩ := starved
  have size : buf.length = block.length + 4 + behind.length := cut_length found
  have cap : asyncStashMax = readBufferSize + maxBodySize := rfl
  split at asks
  · omega
  · have room : 4096 ≤ maxBodySize := by decide
    omega

lemma headersBelow_of_short {stream : Bytes} (short : stream.length < readBufferSize) : HeadersBelow stream := by
  intro rest remains block behind found
  have := remains.length_le
  have size : rest.length = block.length + 4 + behind.length := cut_length found
  omega

lemma not_starvedRun_of_short {buf : Bytes} {fills : List Bytes} (short : buf.length + fills.flatten.length < readBufferSize) :
    ¬StarvedRun buf fills := by
  induction fills generalizing buf with
  | nil =>
    intro starved
    have := starved.long
    have shorter : (streamOutcome buf).rest.length ≤ buf.length := drain_rest_le () _
    omega
  | cons seg fills ih =>
    have shorter : (streamOutcome buf).rest.length ≤ buf.length := drain_rest_le () _
    rw [flatten_cons, length_append] at short
    rintro (starved | ⟨-, starved⟩)
    · have := starved.long
      omega
    · exact ih (by rw [length_append]; omega) starved

/-- However a stream is cut into fills that the stash has room for, the same requests are delivered, with the same error and
the same octets left, if and only if no fill ends with a request that starves. Every request takes out its header block and
its framed body, and it does not matter whether it takes over the stash or a copy. -/
theorem segmentation_iff {allocs allocs' : List Bool} {fills other : List Bytes}
    {o o' : Outcome Unit UInt8 WireRequest ParseError} (same : fills.flatten = other.flatten)
    (below : HeadersBelow fills.flatten) (served : (fresh allocs).serve fills = some o)
    (served' : (fresh allocs').serve other = some o') (fed : ¬StarvedRun [] other) : (o = o' ↔ ¬StarvedRun [] fills) ∧
      (∀ (stash : Stash) (req : WireRequest) (conn : AsyncConn), stash.1.receive = .ok req conn →
        ∃ block framed, stash.1.rbuf = block ++ crlfcrlf ++ framed ++ conn.rbuf ∧
          cut crlfcrlf stash.1.rbuf = some (block, framed ++ conn.rbuf) ∧ Framed req framed) ∧
      ∀ (stash : Stash) (allocs : List Bool), { stash.1 with allocs }.receive.seen = stash.1.receive.seen := by
  have steady : ∀ (_ : Unit) rest, Remains receiver () fills.flatten () rest → Steady receiver () rest :=
    fun _ rest remains => receiver_steady (below rest remains)
  have whole : o' = streamOutcome fills.flatten := by
    rw [(serve_eq served').1 fed, same]
    rw [same] at steady
    exact feed_eq fun q' rest remains => steady q' rest remains
  refine ⟨⟨fun agree starved => ?_, fun ends => ?_⟩, fun stash req conn received => ?_, fun stash allocs => ?_⟩
  · have failed := (serve_eq served).2 starved
    rw [agree, (serve_eq served').1 fed] at failed
    exact feed_ne_eof _ _ failed
  · rw [(serve_eq served).1 ends, whole]
    exact feed_eq fun q' rest remains => steady q' rest remains
  · obtain ⟨said, -⟩ := stash.2.of_ok received
    obtain ⟨block, framed, split, found, framing, -⟩ := verdict_item said
    refine ⟨block, framed, split, ?_, framing⟩
    rw [split, append_assoc]
    exact found _
  · exact AsyncConn.Wf.seen_eq ⟨stash.2.fits, stash.2.ladder⟩ stash.2 rfl

def samples : List Bytes := [ascii "GET / HTTP/1.1\r\nHost: a\r\n\r\nGET /b HT", ascii "TP/1.1\r\nHost: a\r\n\r\n"]

theorem segmentation_two_fills :
    ∃ o, (fresh []).serve samples = some o ∧ (fresh []).serve [samples.flatten] = some o := by
  obtain ⟨o, served⟩ := @Stash.serve_isSome (fresh []) samples (by decide)
  obtain ⟨o', served'⟩ := @Stash.serve_isSome (fresh []) [samples.flatten] (by decide)
  have below := @headersBelow_of_short samples.flatten (by decide)
  have fed := @not_starvedRun_of_short [] [samples.flatten] (by decide)
  have agree := (segmentation_iff (by simp) below served served' fed).1.mpr (not_starvedRun_of_short (by decide))
  exact ⟨o, served, agree ▸ served'⟩

def chunkedHead : Bytes := ascii "POST / HTTP/1.1\r\nHost: a\r\nTransfer-Encoding: chunked"

def chunkedRequest : WireRequest :=
  { method := .post, path := ascii "/", query := []
    headers := [(ascii "Transfer-Encoding", ascii "chunked"), (ascii "Host", ascii "a")], body := [], contentLength := 0
    version := ascii "HTTP/1.1", keepAlive := true, teChunkedSeen := true, expect100Seen := false }

def trailing (n : Nat) : Bytes := chunkedHead ++ crlfcrlf ++ (ascii "0\r\n" ++ replicate n 0x61)

lemma chunkedHead_parsed : parseRequestWithHeaderEnd chunkedHead [] = .ok chunkedRequest := by
  decide +kernel

lemma chunkedHead_cut (behind : Bytes) : cut crlfcrlf (chunkedHead ++ crlfcrlf ++ behind) = some (chunkedHead, behind) := by
  have here : cut crlfcrlf (chunkedHead ++ crlfcrlf) = some (chunkedHead, []) := by decide
  exact cut_append behind here

lemma zeroLine_cut (behind : Bytes) : cut crlf (ascii "0\r\n" ++ behind) = some (ascii "0", behind) := by
  have here : cut crlf (ascii "0\r\n") = some (ascii "0", []) := by decide
  exact cut_append behind here

lemma trailing_cut (n : Nat) (t : Bytes) : cut crlf (replicate n 0x61 ++ t) =
    (cut crlf t).map fun (before, after) => (replicate n 0x61 ++ before, after) :=
  cut_skip (fun member => absurd (eq_of_mem_replicate member) (by decide)) t

lemma trailing_front (n : Nat) (positive : n ≠ 0) (t : Bytes) : ¬crlf <+: replicate n 0x61 ++ t := by
  cases n with
  | zero => exact absurd rfl positive
  | succ n =>
    rintro ⟨more, same⟩
    exact absurd (cons.inj same).1 (by decide)

lemma trailing_scan (n : Nat) (positive : n ≠ 0) : chunkedScan 0 [] (ascii "0\r\n" ++ replicate n 0x61) = .needMore := by
  have missing : cut crlf (replicate n 0x61) = none := by
    have := trailing_cut n []
    rwa [append_nil] at this
  have other := trailing_front n positive []
  rw [append_nil] at other
  rw [chunkedScan_of_zero (zeroLine_cut _) (by decide), scanTrailers_of_none other missing]

lemma trailing_scan_end (n : Nat) (positive : n ≠ 0) :
    chunkedScan 0 [] (ascii "0\r\n" ++ (replicate n 0x61 ++ crlfcrlf)) = .complete [] [] := by
  have trailer : cut crlf (replicate n 0x61 ++ crlfcrlf) = some (replicate n 0x61, crlf) := by
    have ends : cut crlf crlfcrlf = some ([], crlf) := by decide
    simp [trailing_cut, ends]
  have empty : scanTrailers crlf = some [] := by decide +kernel
  rw [chunkedScan_of_zero (zeroLine_cut _) (by decide), scanTrailers_of_line (trailing_front n positive _) trailer,
    empty]

lemma trailing_length (n : Nat) : (trailing n).length = 59 + n := by
  have head : (chunkedHead ++ crlfcrlf).length = 56 := by decide
  have line : (ascii "0\r\n").length = 3 := by decide
  rw [trailing, length_append, head, length_append, length_replicate]
  omega

lemma trailing_verdict {n : Nat} (positive : n ≠ 0) : verdict (trailing n) = .more := by
  rw [trailing, verdict_of_chunked (chunkedHead_cut _) chunkedHead_parsed (by decide) rfl, trailing_scan n positive]

lemma trailing_starved {n : Nat} (positive : n ≠ 0) (long : 59 + n + 4096 > asyncStashMax) : Starved (trailing n) := by
  refine (starved_iff (chunkedHead_cut _) chunkedHead_parsed).mpr ?_
  exact ⟨rfl, trailing_scan n positive, by rw [← trailing, trailing_length]; exact long⟩

lemma trailing_end {n : Nat} (positive : n ≠ 0) : verdict (trailing n ++ crlfcrlf) = .item chunkedRequest () [] := by
  have whole : trailing n ++ crlfcrlf = chunkedHead ++ crlfcrlf ++ (ascii "0\r\n" ++ (replicate n 0x61 ++ crlfcrlf)) := by
    rw [trailing]
    simp only [append_assoc]
  rw [whole, verdict_of_chunked (chunkedHead_cut _) chunkedHead_parsed (by decide) rfl, trailing_scan_end n positive]
  rfl

lemma streamOutcome_nil : streamOutcome [] = ⟨[], none, (), []⟩ := by
  have said : verdict [] = .more := by rw [verdict_of_none rfl, if_neg (by decide)]
  exact drain_more said

lemma starvedRun_first (seg : Bytes) (fills : List Bytes) : StarvedRun [] (seg :: fills) ↔ StarvedRun seg fills := by
  have nothing : ¬Starved [] := not_starved_of_none rfl
  rw [StarvedRun, streamOutcome_nil]
  simp [nothing]

lemma feed_first (seg : Bytes) (fills : List Bytes) : feed receiver () [] (seg :: fills) = feed receiver () seg fills := by
  have nothing : Incremental.drain receiver () [] = ⟨[], none, (), []⟩ := streamOutcome_nil
  rw [feed, nothing]
  rfl

/-- A trailer of ten and a half million octets: if its end comes with the next fill the connection is dropped, and if
everything comes at once the request is delivered. -/
theorem starved_or_delivered : ∃ o o', (fresh []).serve [trailing 10500000, crlfcrlf] = some o ∧
      (fresh []).serve [trailing 10500000 ++ crlfcrlf] = some o' ∧
      o.failure = some .eof ∧ o' = ⟨[chunkedRequest], none, (), []⟩ := by
  have positive : 10500000 ≠ 0 := by decide
  have size : ∀ fills : List Bytes, fills.flatten = trailing 10500000 ++ crlfcrlf →
      (fresh []).1.rbuf.length + fills.flatten.length + 1 < asyncStashMax := by
    intro fills same
    rw [same, length_append, trailing_length]
    decide
  obtain ⟨o, served⟩ := serve_isSome (size [trailing 10500000, crlfcrlf] (by simp))
  obtain ⟨o', served'⟩ := serve_isSome (size [trailing 10500000 ++ crlfcrlf] (by simp))
  have waits : streamOutcome (trailing 10500000) = ⟨[], none, (), trailing 10500000⟩ := drain_more (trailing_verdict positive)
  have ends : streamOutcome (trailing 10500000 ++ crlfcrlf) = ⟨[chunkedRequest], none, (), []⟩ := by
    rw [streamOutcome, drain_item (trailing_end positive)]
    exact congrArg (Outcome.after [chunkedRequest]) streamOutcome_nil
  refine ⟨o, o', served, served', (serve_eq served).2 ?_, ?_⟩
  · refine (starvedRun_first _ _).mpr (.inl ?_)
    rw [waits]
    exact trailing_starved positive (by decide)
  have fed : ¬StarvedRun [] [trailing 10500000 ++ crlfcrlf] := by
    rw [starvedRun_first, StarvedRun, ends]
    exact not_starved_of_none rfl
  have whole : o' = feed receiver () [] [trailing 10500000 ++ crlfcrlf] := (serve_eq served').1 fed
  rw [whole, feed_first]
  exact ends

end Cwist.Http
