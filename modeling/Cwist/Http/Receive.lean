import Cwist.Lib.Incremental
import Cwist.Http.Parse

namespace Cwist.Http
open Delimit List

def asyncStashIdle : Nat := 4096

def bodyZcMin : Nat := 16 * 1024

structure AsyncConn where
  rbuf : Bytes
  cap : Nat
  expectContinueSent : Bool
  allocs : List Bool

namespace AsyncConn

def fresh (allocs : List Bool) : AsyncConn := ⟨[], 0, false, allocs⟩

def growCap (cap need : Nat) : Nat :=
  if cap < need then
    if cap > asyncStashMax / 2 then asyncStashMax else if cap = 0 then cap else growCap (cap * 2) need
  else cap
termination_by need - cap

def Ladder (cap : Nat) : Prop := cap = 0 ∨ cap = asyncStashMax ∨ ∃ j ≤ 11, cap = asyncStashIdle * 2 ^ j

variable {cap need : Nat} {conn : AsyncConn}

lemma Ladder.le (ladder : Ladder cap) : cap ≤ asyncStashMax := by
  rcases ladder with rfl | rfl | ⟨j, small, rfl⟩
  · exact Nat.zero_le _
  · exact Nat.le_refl _
  · calc asyncStashIdle * 2 ^ j ≤ asyncStashIdle * 2 ^ 11 := Nat.mul_le_mul_left _ (Nat.pow_le_pow_right (by decide) small)
      _ ≤ asyncStashMax := by decide

lemma Ladder.room (ladder : Ladder cap) (below : cap ≠ asyncStashMax) : cap + 4096 ≤ asyncStashMax := by
  rcases ladder with rfl | rfl | ⟨j, small, rfl⟩
  · decide
  · exact absurd rfl below
  · calc asyncStashIdle * 2 ^ j + 4096 ≤ asyncStashIdle * 2 ^ 11 + 4096 :=
          Nat.add_le_add_right (Nat.mul_le_mul_left _ (Nat.pow_le_pow_right (by decide) small)) _
      _ ≤ asyncStashMax := by decide

lemma Ladder.growCap (ladder : Ladder cap) (need : Nat) : Ladder (growCap cap need) := by
  fun_induction AsyncConn.growCap cap need with
  | case1 => exact .inr (.inl rfl)
  | case2 | case4 => exact ladder
  | case3 cap low small positive ih =>
    apply ih
    rcases ladder with rfl | rfl | ⟨j, bound, rfl⟩
    · exact absurd rfl positive
    · exact absurd small (by decide)
    refine .inr (.inr ⟨j + 1, ?_, by rw [Nat.pow_succ, Nat.mul_assoc]⟩)
    by_contra last
    have top : j = 11 := by omega
    subst top
    exact small (by decide)

def baseCap (conn : AsyncConn) : Nat := if conn.cap = 0 then asyncStashIdle else conn.cap

lemma Ladder.baseCap (ladder : Ladder conn.cap) : Ladder conn.baseCap := by
  unfold AsyncConn.baseCap
  split
  · exact .inr (.inr ⟨0, by decide, rfl⟩)
  · exact ladder

lemma baseCap_ne_zero (conn : AsyncConn) : conn.baseCap ≠ 0 := by
  unfold baseCap
  split
  · decide
  · assumption

def stashGrow (conn : AsyncConn) (need : Nat) : Option AsyncConn :=
  if need > asyncStashMax then none
  else if conn.cap ≥ need then some conn
  else
    let cap := min (growCap conn.baseCap need) asyncStashMax
    if cap = conn.cap then none else some { conn with cap }

lemma le_growCap (positive : cap ≠ 0) (fits : need ≤ asyncStashMax) : need ≤ growCap cap need := by
  fun_induction growCap cap need with
  | case1 cap low large => exact fits
  | case2 => contradiction
  | case3 cap low small _ ih => exact ih (by omega)
  | case4 cap high => omega

lemma stashGrow_eq_none_iff : conn.stashGrow need = none ↔ need > asyncStashMax := by
  unfold stashGrow
  split
  · simpa
  rename_i fits
  refine iff_of_false ?_ fits
  split
  · nofun
  · have enough := le_growCap conn.baseCap_ne_zero (Nat.le_of_not_lt fits)
    rw [if_neg (by omega)]
    nofun

lemma stashGrow_some {conn' : AsyncConn} (grown : conn.stashGrow need = some conn') :
    ∃ cap, need ≤ cap ∧ conn.cap ≤ cap ∧ (Ladder conn.cap → Ladder cap) ∧ conn' = { conn with cap } := by
  unfold stashGrow at grown
  split at grown
  · cases grown
  rename_i fits
  split at grown
  · cases grown
    exact ⟨conn.cap, by assumption, le_rfl, id, rfl⟩
  dsimp only at grown
  split at grown
  · cases grown
  cases grown
  have enough := le_min (le_growCap conn.baseCap_ne_zero (Nat.le_of_not_lt fits)) (Nat.le_of_not_lt fits)
  refine ⟨_, enough, by omega, fun ladder => ?_, rfl⟩
  have grown := ladder.baseCap.growCap need
  rwa [min_eq_left grown.le]

def fill (conn : AsyncConn) (seg : Bytes) : Option AsyncConn :=
  match _grown : if conn.rbuf.length + 1 ≥ conn.cap then conn.stashGrow (conn.rbuf.length + 4096) else some conn with
  | none => none
  | some conn' =>
    let avail := conn'.cap - 1 - conn'.rbuf.length
    if seg.length < avail then some { conn' with rbuf := conn'.rbuf ++ seg }
    else fill { conn' with rbuf := conn'.rbuf ++ seg.take avail } (seg.drop avail)
termination_by seg.length
decreasing_by
  rw [length_drop]
  have room : conn'.rbuf.length + 1 < conn'.cap := by
    split at _grown
    · obtain ⟨cap, enough, -, -, rfl⟩ := stashGrow_some _grown
      dsimp only
      omega
    next wide =>
      rw [← Option.some.inj _grown]
      omega
  omega

inductive Received where
  | ok (req : WireRequest) (conn : AsyncConn)
  | needMore (conn : AsyncConn)
  | fatal (error : ParseError) (conn : AsyncConn)

def receive (conn : AsyncConn) : Received :=
  if conn.rbuf = [] then .needMore conn
  else
    match cut crlfcrlf conn.rbuf with
    | none => if conn.rbuf.length ≥ readBufferSize - 1 then .fatal .headerOverflow conn else .needMore conn
    | some (block, behind) =>
      match parseRequestWithHeaderEnd block [] with
      | .error e => .fatal e conn
      | .ok req =>
        let headerLen := block.length + 4
        let length := req.contentLength
        let interim := req.expect100Seen && !conn.expectContinueSent &&
          (length > behind.length || req.teChunkedSeen && length == 0)
        let conn := { conn with expectContinueSent := conn.expectContinueSent || interim }
        if length > 0 then
          if length > maxBodySize then .fatal .bodyTooLarge conn
          else if behind.length < length then
            match conn.stashGrow (headerLen + length + 1) with
            | none => .fatal .eof conn
            | some conn => .needMore conn
          else if headerLen + length = conn.rbuf.length ∧ length ≥ bodyZcMin then
            if conn.allocs.headD true then
              -- the request takes the whole stash as a region, and the connection starts on a fresh one
              .ok { req with body := (conn.rbuf.drop headerLen).take length }
                { conn with rbuf := [], cap := readBufferSize, expectContinueSent := false, allocs := conn.allocs.tail }
            else
              .ok { req with body := behind.take length }
                { conn with rbuf := behind.drop length, expectContinueSent := false, allocs := conn.allocs.tail }
          else
            .ok { req with body := behind.take length } { conn with rbuf := behind.drop length, expectContinueSent := false }
        else if req.teChunkedSeen then
          match chunkedScan behind.length [] behind with
          | .complete body rest => .ok { req with body } { conn with rbuf := rest, expectContinueSent := false }
          | .needMore =>
            match conn.stashGrow (conn.rbuf.length + 4096) with
            | none => .fatal .eof conn
            | some conn => .needMore conn
          | .malformed => .fatal .malformed conn
        else .ok req { conn with rbuf := behind, expectContinueSent := false }

end AsyncConn

open Incremental (Verdict Outcome)

def verdict (buf : Bytes) : Verdict Unit UInt8 WireRequest ParseError :=
  match cut crlfcrlf buf with
  | none => if buf.length ≥ readBufferSize - 1 then .fail .headerOverflow else .more
  | some (block, behind) =>
    match parseRequestWithHeaderEnd block [] with
    | .error e => .fail e
    | .ok req =>
      let length := req.contentLength
      if length > 0 then
        if length > maxBodySize then .fail .bodyTooLarge
        else if behind.length < length then .more
        else .item { req with body := behind.take length } () (behind.drop length)
      else if req.teChunkedSeen then
        match chunkedScan 0 [] behind with
        | .complete body rest => .item { req with body } () rest
        | .needMore => .more
        | .malformed => .fail .malformed
      else .item req () behind

/-- An incomplete request that asks for more room than the stash may have. -/
def Starved (buf : Bytes) : Prop :=
  ∃ block behind req, cut crlfcrlf buf = some (block, behind) ∧ parseRequestWithHeaderEnd block [] = .ok req ∧
    if req.contentLength > 0 then
      req.contentLength ≤ maxBodySize ∧ behind.length < req.contentLength ∧
        block.length + 4 + req.contentLength + 1 > asyncStashMax
    else
      req.teChunkedSeen ∧ chunkedScan 0 [] behind = .needMore ∧ buf.length + 4096 > asyncStashMax

section Found
variable {buf block behind : Bytes} {req : WireRequest}

lemma verdict_of_none (missing : cut crlfcrlf buf = none) :
    verdict buf = if buf.length ≥ readBufferSize - 1 then .fail .headerOverflow else .more := by
  rw [verdict, missing]

lemma not_starved_of_none (missing : cut crlfcrlf buf = none) : ¬Starved buf := by
  rintro ⟨block, behind, req, found, -⟩
  rw [missing] at found
  cases found

section
variable (found : cut crlfcrlf buf = some (block, behind)) (parsed : parseRequestWithHeaderEnd block [] = .ok req)
include found parsed

lemma verdict_of_length (positive : req.contentLength > 0) :
    verdict buf =
      if req.contentLength > maxBodySize then .fail .bodyTooLarge
      else if behind.length < req.contentLength then .more
      else .item { req with body := behind.take req.contentLength } () (behind.drop req.contentLength) := by
  simp only [verdict, found, parsed, positive, if_true]

lemma verdict_of_chunked (zero : ¬req.contentLength > 0) (te : req.teChunkedSeen) :
    verdict buf =
      match chunkedScan 0 [] behind with
      | .complete body rest => .item { req with body } () rest
      | .needMore => .more
      | .malformed => .fail .malformed := by
  simp only [verdict, found, parsed, zero, te, if_true, if_false]

lemma verdict_of_plain (zero : ¬req.contentLength > 0) (te : ¬req.teChunkedSeen) :
    verdict buf = .item req () behind := by
  simp only [verdict, found, parsed, zero, te, if_false]
  rfl

lemma starved_iff :
    Starved buf ↔
      if req.contentLength > 0 then
        req.contentLength ≤ maxBodySize ∧ behind.length < req.contentLength ∧
          block.length + 4 + req.contentLength + 1 > asyncStashMax
      else
        req.teChunkedSeen ∧ chunkedScan 0 [] behind = .needMore ∧ buf.length + 4096 > asyncStashMax := by
  constructor
  · rintro ⟨block', behind', req', found', parsed', starved⟩
    rw [found] at found'
    cases found'
    rw [parsed] at parsed'
    cases parsed'
    exact starved
  · intro starved
    exact ⟨block, behind, req, found, parsed, starved⟩

end

end Found

def Framed (req : WireRequest) (framed : Bytes) : Prop :=
  if req.contentLength > 0 then framed = req.body ∧ framed.length = req.contentLength
  else if req.teChunkedSeen then chunkedScan 0 [] framed = .complete req.body []
  else framed = []

lemma verdict_item {buf rest : Bytes} {req : WireRequest} (said : verdict buf = .item req () rest) :
    ∃ block framed, buf = block ++ crlfcrlf ++ framed ++ rest ∧ (∀ t, cut crlfcrlf (block ++ crlfcrlf ++ t) = some (block, t)) ∧
      Framed req framed ∧ ∀ t, verdict (block ++ crlfcrlf ++ framed ++ t) = .item req () t := by
  cases found : cut crlfcrlf buf with
  | none =>
    rw [verdict_of_none found] at said
    split at said <;> cases said
  | some pieces =>
    obtain ⟨block, behind⟩ := pieces
    have found' := cut_replace (by decide) found
    have whole := eq_of_cut found
    cases parsed : parseRequestWithHeaderEnd block [] with
    | error e => simp [verdict, found, parsed] at said
    | ok req' =>
      by_cases positive : req'.contentLength > 0
      · rw [verdict_of_length found parsed positive] at said
        split at said
        · cases said
        rename_i small
        split at said
        · cases said
        cases said
        have size : (behind.take req'.contentLength).length = req'.contentLength := length_take_of_le (by omega)
        refine ⟨block, behind.take req'.contentLength, ?_, found', ?_, fun t => ?_⟩
        · rw [append_assoc, take_append_drop, whole]
        · rw [Framed, if_pos positive]
          exact ⟨rfl, size⟩
        · rw [append_assoc, verdict_of_length (found' _) parsed positive, if_neg small, if_neg (by simp; omega),
            take_append_of_le_length size.ge, take_of_length_le size.le, drop_append_of_le_length size.ge,
            drop_of_length_le size.le, nil_append]
      · by_cases te : req'.teChunkedSeen
        · rw [verdict_of_chunked found parsed positive te] at said
          split at said
          next body rest' scanned =>
            cases said
            obtain ⟨framed, rfl, ends⟩ := chunkedScan_split scanned
            refine ⟨block, framed, by rw [whole]; simp, found', ?_, fun t => ?_⟩
            · rw [Framed, if_neg positive, if_pos te]
              simpa using ends 0 []
            · rw [append_assoc, verdict_of_chunked (found' _) parsed positive te, ends]
          · cases said
          · cases said
        · rw [verdict_of_plain found parsed positive te] at said
          cases said
          refine ⟨block, [], by rw [whole]; simp, found', ?_, fun t => ?_⟩
          · rw [Framed, if_neg positive, if_neg te]
          · rw [append_assoc, verdict_of_plain (found' _) parsed positive te]
            rfl

lemma verdict_shorter {buf rest : Bytes} {req : WireRequest} (said : verdict buf = .item req () rest) :
    rest.length < buf.length := by
  obtain ⟨block, framed, rfl, -⟩ := verdict_item said
  simp [crlfcrlf, crlf]
  omega

def receiver : Incremental.Step Unit UInt8 WireRequest ParseError where
  run _ buf := verdict buf
  shorter := verdict_shorter

namespace AsyncConn

/-- The stash holds what it has room for, and is not larger than its hard cap. -/
structure Wf (conn : AsyncConn) : Prop where
  fits : conn.rbuf.length ≤ conn.cap
  ladder : Ladder conn.cap

inductive Answers (conn : AsyncConn) : Received → Prop where
  | ok {req : WireRequest} {conn' : AsyncConn} (said : verdict conn.rbuf = .item req () conn'.rbuf) (wf : conn'.Wf) :
    Answers conn (.ok req conn')
  | fail {e : ParseError} {conn' : AsyncConn} (said : verdict conn.rbuf = .fail e) (same : conn'.rbuf = conn.rbuf) :
    Answers conn (.fatal e conn')
  | more {conn' : AsyncConn} (said : verdict conn.rbuf = .more) (room : ¬Starved conn.rbuf) (same : conn'.rbuf = conn.rbuf)
    (wf : conn'.Wf) : Answers conn (.needMore conn')
  | starved {conn' : AsyncConn} (said : verdict conn.rbuf = .more) (room : Starved conn.rbuf) (same : conn'.rbuf = conn.rbuf) :
    Answers conn (.fatal .eof conn')

variable {conn conn' : AsyncConn}

section
variable (wf : conn.Wf)
include wf

lemma Wf.grow (sent : Bool) (need : Nat) (said : verdict conn.rbuf = .more)
    (starves : Starved conn.rbuf ↔ need > asyncStashMax) : conn.Answers
      (match { conn with expectContinueSent := sent }.stashGrow need with
      | none => .fatal .eof { conn with expectContinueSent := sent }
      | some conn => .needMore conn) := by
  split
  next grown => exact .starved said (starves.mpr (stashGrow_eq_none_iff.mp grown)) rfl
  rename_i conn' grown
  have room : ¬Starved conn.rbuf := by
    rw [starves, ← stashGrow_eq_none_iff, grown]
    nofun
  obtain ⟨cap, -, larger, ladder, rfl⟩ := stashGrow_some grown
  exact .more said room rfl ⟨wf.fits.trans larger, ladder wf.ladder⟩

lemma Wf.shrink {req : WireRequest} {rest : Bytes}
    (said : verdict conn.rbuf = .item req () rest) (allocs : List Bool) : Wf ⟨rest, conn.cap, false, allocs⟩ :=
  ⟨(verdict_shorter said).le.trans wf.fits, wf.ladder⟩

lemma Wf.answers : conn.Answers conn.receive := by
  unfold receive
  split
  next empty =>
    have missing : cut crlfcrlf conn.rbuf = none := by rw [empty]; rfl
    refine .more ?_ (not_starved_of_none missing) rfl wf
    rw [verdict_of_none missing, empty, if_neg (by decide)]
  split
  next missing =>
    have said := verdict_of_none missing
    split
    next long => exact .fail (by rw [said, if_pos long]) rfl
    next short => exact .more (by rw [said, if_neg short]) (not_starved_of_none missing) rfl wf
  rename_i block behind found
  have size : conn.rbuf.length = block.length + 4 + behind.length := cut_length found
  split
  next e bad => exact .fail (by simp [verdict, found, bad]) rfl
  rename_i req parsed
  have starves := starved_iff found parsed
  dsimp only
  split
  next positive =>
    have said := verdict_of_length found parsed positive
    rw [if_pos positive] at starves
    split
    next large => exact .fail (by rw [said, if_pos large]) rfl
    rename_i small
    rw [if_neg small] at said
    split
    next short =>
      rw [if_pos short] at said
      exact wf.grow _ _ said (starves.trans ⟨fun starved => starved.2.2, fun beyond => ⟨by omega, short, beyond⟩⟩)
    rename_i whole
    rw [if_neg whole] at said
    split
    · split
      · -- the region is the body, and nothing is behind it
        have region : conn.rbuf.drop (block.length + 4) = behind := by
          have front : (block ++ crlfcrlf).length = block.length + 4 := length_append
          rw [eq_of_cut found, ← front, drop_left]
        have nothing : behind.drop req.contentLength = [] := drop_of_length_le (by omega)
        rw [nothing] at said
        exact .ok (by rw [region]; exact said) ⟨Nat.zero_le _, .inr (.inr ⟨2, by decide, rfl⟩)⟩
      · exact .ok said (wf.shrink said _)
    · exact .ok said (wf.shrink said _)
  next zero =>
    rw [if_neg zero] at starves
    split
    next te =>
      have said := verdict_of_chunked found parsed zero te
      have within : behind.length ≤ asyncStashMax := by
        have := wf.fits
        have := wf.ladder.le
        omega
      rw [chunkedScan_avail within]
      split
      next body rest scanned =>
        rw [scanned] at said
        exact .ok said (wf.shrink said _)
      next scanned =>
        rw [scanned] at said
        have starves' := starves.trans ⟨fun starved => starved.2.2, fun beyond => ⟨te, scanned, beyond⟩⟩
        generalize conn.rbuf.length + 4096 = need at starves' ⊢
        exact wf.grow _ need said starves'
      next scanned =>
        rw [scanned] at said
        exact .fail said rfl
    next te =>
      have said := verdict_of_plain found parsed zero te
      exact .ok said (wf.shrink said _)

lemma Wf.make_room
    (grown : (if conn.rbuf.length + 1 ≥ conn.cap then conn.stashGrow (conn.rbuf.length + 4096) else some conn) = some conn') :
    conn'.rbuf = conn.rbuf ∧ conn'.rbuf.length + 1 < conn'.cap ∧ Ladder conn'.cap := by
  split at grown
  · obtain ⟨cap, enough, -, ladder, rfl⟩ := stashGrow_some grown
    exact ⟨rfl, by dsimp only; omega, ladder wf.ladder⟩
  · rw [← Option.some.inj grown]
    exact ⟨rfl, by omega, wf.ladder⟩

lemma Wf.fill {seg : Bytes} (filled : conn.fill seg = some conn') : conn'.Wf ∧ conn'.rbuf = conn.rbuf ++ seg := by
  fun_induction AsyncConn.fill conn seg with
  | case1 => cases filled
  | case2 conn seg conn1 grown avail short =>
    obtain ⟨same, room, ladder⟩ := wf.make_room grown
    cases filled
    refine ⟨⟨?_, ladder⟩, by rw [same]⟩
    simp only [length_append, avail] at short ⊢
    omega
  | case3 conn seg conn1 grown avail long ih =>
    obtain ⟨same, room, ladder⟩ := wf.make_room grown
    obtain ⟨wf', whole⟩ := ih ⟨by simp only [length_append, length_take, avail]; omega, ladder⟩ filled
    exact ⟨wf', by rw [whole, same, append_assoc, take_append_drop]⟩

lemma Wf.fill_isSome (seg : Bytes)
    (below : conn.rbuf.length + seg.length + 1 < asyncStashMax) : (conn.fill seg).isSome := by
  fun_induction AsyncConn.fill conn seg with
  | case1 conn seg grown =>
    split at grown
    · have beyond := stashGrow_eq_none_iff.mp grown
      have := wf.fits
      by_cases top : conn.cap = asyncStashMax
      · omega
      · have := wf.ladder.room top
        omega
    · cases grown
  | case2 => rfl
  | case3 conn seg conn1 grown avail long ih =>
    obtain ⟨same, room, ladder⟩ := wf.make_room grown
    refine ih ⟨by simp only [length_append, length_take, avail]; omega, ladder⟩ ?_
    rw [same] at room ⊢
    simp only [length_append, length_take, length_drop]
    omega

lemma Wf.of_ok {req : WireRequest} (received : conn.receive = .ok req conn') :
    verdict conn.rbuf = .item req () conn'.rbuf ∧ conn'.Wf := by
  have answers := wf.answers
  rw [received] at answers
  cases answers with
  | ok said wf' => exact ⟨said, wf'⟩

lemma Wf.of_more (received : conn.receive = .needMore conn') :
    (verdict conn.rbuf = .more ∧ ¬Starved conn.rbuf ∧ conn'.rbuf = conn.rbuf) ∧ conn'.Wf := by
  have answers := wf.answers
  rw [received] at answers
  cases answers with
  | more said room same wf' => exact ⟨⟨said, room, same⟩, wf'⟩

lemma Wf.of_fatal {e : ParseError} (received : conn.receive = .fatal e conn') :
    conn'.rbuf = conn.rbuf ∧ (verdict conn.rbuf = .fail e ∨ verdict conn.rbuf = .more ∧ Starved conn.rbuf ∧ e = .eof) := by
  have answers := wf.answers
  rw [received] at answers
  cases answers with
  | fail said same => exact ⟨same, .inl said⟩
  | starved said room same => exact ⟨same, .inr ⟨said, room, rfl⟩⟩

end

end AsyncConn

abbrev Stash := { conn : AsyncConn // conn.Wf }

namespace Stash

def fresh (allocs : List Bool) : Stash := ⟨.fresh allocs, ⟨le_rfl, .inl rfl⟩⟩

def drain (stash : Stash) : List WireRequest × Except (ParseError × AsyncConn) Stash :=
  match received : stash.1.receive with
  | .ok req conn =>
    let (requests, result) := drain ⟨conn, (stash.2.of_ok received).2⟩
    (req :: requests, result)
  | .needMore conn => ([], .ok ⟨conn, (stash.2.of_more received).2⟩)
  | .fatal e conn => ([], .error (e, conn))
termination_by stash.1.rbuf.length
decreasing_by exact verdict_shorter (stash.2.of_ok received).1

def serve (stash : Stash) : List Bytes → Option (Outcome Unit UInt8 WireRequest ParseError)
  | [] =>
    match stash.drain with
    | (requests, .error (e, conn)) => some ⟨requests, some e, (), conn.rbuf⟩
    | (requests, .ok stash) => some ⟨requests, none, (), stash.1.rbuf⟩
  | seg :: fills =>
    match stash.drain with
    | (requests, .error (e, conn)) => some ⟨requests, some e, (), conn.rbuf ++ (seg :: fills).flatten⟩
    | (requests, .ok stash) =>
      match filled : stash.1.fill seg with
      | none => none
      | some conn => (serve ⟨conn, (stash.2.fill filled).1⟩ fills).map (·.after requests)

end Stash

end Cwist.Http
