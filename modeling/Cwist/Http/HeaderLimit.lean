import Cwist.Http.Segmentation

namespace Cwist.Http
open Delimit Incremental List Stash

/-- Some fill ends with at least as much of the header block in the stash as the limit is, but not with all of it. -/
def EndsInside (len : Nat) (fills : List Bytes) (headerLen : Nat) : Prop :=
  ∃ k ≤ fills.length, readBufferSize - 1 ≤ len + (fills.take k).flatten.length ∧
    len + (fills.take k).flatten.length < headerLen

variable {len headerLen : Nat}

lemma endsInside_cons {seg : Bytes} {fills : List Bytes} : EndsInside len (seg :: fills) headerLen ↔
      readBufferSize - 1 ≤ len ∧ len < headerLen ∨ EndsInside (len + seg.length) fills headerLen := by
  constructor
  · rintro ⟨k, inside, reached, before⟩
    cases k with
    | zero => exact .inl ⟨by simpa using reached, by simpa using before⟩
    | succ k =>
      refine .inr ⟨k, by simpa using inside, ?_, ?_⟩
      all_goals
        simp only [take_succ_cons, flatten_cons, length_append] at reached before
        omega
  · rintro (⟨reached, before⟩ | ⟨k, inside, reached, before⟩)
    · exact ⟨0, Nat.zero_le _, by simpa using reached, by simpa using before⟩
    refine ⟨k + 1, by simpa using inside, ?_, ?_⟩
    all_goals
      simp only [take_succ_cons, flatten_cons, length_append]
      omega

lemma endsInside_nil : EndsInside len [] headerLen ↔ readBufferSize - 1 ≤ len ∧ len < headerLen := by
  constructor
  · rintro ⟨k, -, reached, before⟩
    exact ⟨by simpa using reached, by simpa using before⟩
  · rintro ⟨reached, before⟩
    exact ⟨0, Nat.zero_le _, by simpa using reached, by simpa using before⟩

lemma verdict_fail_of_found {buf block behind : Bytes} {e : ParseError} (found : cut crlfcrlf buf = some (block, behind))
    (said : verdict buf = .fail e) : e ≠ .headerOverflow := by
  unfold verdict at said
  rw [found] at said
  dsimp only at said
  repeat' split at said
  all_goals first
    | cases said; done
    | cases said; decide
    | cases said
      rename_i failed
      exact (parse_error failed).2

section Front
variable {stash : Stash} {fills : List Bytes} {o : Outcome Unit UInt8 WireRequest ParseError} {block behind : Bytes}
  {req : WireRequest} {rest : Bytes}

lemma Stash.serve_of_fail {e : ParseError} (said : verdict stash.1.rbuf = .fail e) (served : stash.serve fills = some o) :
    o.items = [] ∧ o.failure = some e := by
  have outcome : streamOutcome stash.1.rbuf = ⟨[], some e, (), stash.1.rbuf⟩ := drain_fail said
  obtain ⟨result, same, spec⟩ := stash.drain_eq
  rw [outcome] at same spec
  rcases result with ⟨e', conn⟩ | stash'
  · obtain ⟨-, failed | ⟨open_, -⟩⟩ := spec
    · cases failed
      cases fills with rw [serve, same] at served
      | nil =>
        cases served
        exact ⟨rfl, rfl⟩
      | cons seg fills =>
        cases served
        exact ⟨rfl, rfl⟩
    · cases open_
  · cases spec.2.1

lemma Stash.serve_of_item (said : verdict stash.1.rbuf = .item req () rest)
    (served : stash.serve fills = some o) : o.items.head? = some req := by
  have outcome : streamOutcome stash.1.rbuf = (streamOutcome rest).after [req] := drain_item said
  obtain ⟨result, same, -⟩ := stash.drain_eq
  rw [outcome] at same
  cases fills with rw [serve, same] at served
  | nil => rcases result with ⟨e, conn⟩ | stash' <;> cases served <;> rfl
  | cons seg fills =>
    rcases result with ⟨e, conn⟩ | stash'
    · cases served
      rfl
    dsimp only at served
    split at served
    · cases served
    · obtain ⟨o', -, rfl⟩ := Option.map_eq_some_iff.mp served
      rfl

lemma Stash.serve_of_more (said : verdict stash.1.rbuf = .more) (served : stash.serve fills = some o) :
    Starved stash.1.rbuf ∧ o.failure = some .eof ∨
      match fills with
      | [] => o.failure = none
      | seg :: fills => ∃ stash' : Stash, stash'.1.rbuf = stash.1.rbuf ++ seg ∧ stash'.serve fills = some o := by
  have outcome : streamOutcome stash.1.rbuf = ⟨[], none, (), stash.1.rbuf⟩ := drain_more said
  obtain ⟨result, same, spec⟩ := stash.drain_eq
  rw [outcome] at same spec
  rcases result with ⟨e, conn⟩ | stash'
  · obtain ⟨-, failed | ⟨-, starved, rfl⟩⟩ := spec
    · cases failed
    · cases fills <;> (rw [serve, same] at served; cases served; exact .inl ⟨starved, rfl⟩)
  right
  obtain ⟨rest, -, -⟩ := spec
  cases fills with rw [serve, same] at served
  | nil =>
    cases served
    rfl
  | cons seg fills =>
    dsimp only at served ⊢
    split at served
    · cases served
    rename_i conn filled
    obtain ⟨o', served', rfl⟩ := Option.map_eq_some_iff.mp served
    refine ⟨⟨conn, (stash'.2.fill filled).1⟩, ?_, served'⟩
    exact (stash'.2.fill filled).2.trans (congrArg (· ++ seg) rest)

lemma Stash.verdict_of_rejected (found : cut crlfcrlf stash.1.rbuf = some (block, behind))
    (served : stash.serve fills = some o) (empty : o.items = []) (overflow : o.failure = some .headerOverflow) :
    verdict stash.1.rbuf = .more := by
  cases said : verdict stash.1.rbuf with
  | item req _ rest =>
    have first := serve_of_item said served
    simp [empty] at first
  | fail e =>
    obtain ⟨-, failed⟩ := serve_of_fail said served
    exact absurd (Option.some.inj (failed.symm.trans overflow)) (verdict_fail_of_found found said)
  | more => rfl

lemma Stash.not_rejected (found : cut crlfcrlf stash.1.rbuf = some (block, behind))
    (served : stash.serve fills = some o) : ¬(o.items = [] ∧ o.failure = some .headerOverflow) := by
  rintro ⟨empty, overflow⟩
  induction fills generalizing stash behind with have said := verdict_of_rejected found served empty overflow
  | nil => rcases serve_of_more said served with ⟨-, failed⟩ | failed <;> simp [overflow] at failed
  | cons seg fills ih =>
    rcases serve_of_more said served with ⟨-, failed⟩ | ⟨stash', buf, served'⟩
    · simp [overflow] at failed
    · exact ih (by rw [buf]; exact cut_append seg found) served'

lemma starvedRun_of_more {seg : Bytes} (said : verdict stash.1.rbuf = .more)
    (starved : StarvedRun (stash.1.rbuf ++ seg) fills) : StarvedRun stash.1.rbuf (seg :: fills) := by
  have outcome : streamOutcome stash.1.rbuf = ⟨[], none, (), stash.1.rbuf⟩ := drain_more said
  rw [StarvedRun, outcome]
  exact .inr ⟨rfl, starved⟩

lemma starvedRun_of_starved (starved : Starved stash.1.rbuf) : StarvedRun stash.1.rbuf fills := by
  have outcome : streamOutcome stash.1.rbuf = ⟨[], none, (), stash.1.rbuf⟩ := drain_more starved.more
  cases fills <;> rw [StarvedRun, outcome]
  · exact starved
  · exact .inl starved

lemma Stash.rejected_iff (found : cut crlfcrlf (stash.1.rbuf ++ fills.flatten) = some (block, behind))
    (served : stash.serve fills = some o) :
    o.items = [] ∧ o.failure = some .headerOverflow ↔ EndsInside stash.1.rbuf.length fills (block.length + 4) := by
  induction fills generalizing stash with
  | nil =>
    rw [flatten_nil, append_nil] at found
    have size : stash.1.rbuf.length = block.length + 4 + behind.length := cut_length found
    rw [endsInside_nil]
    exact iff_of_false (not_rejected found served) (by omega)
  | cons seg fills ih =>
    rw [flatten_cons] at found
    cases here : cut crlfcrlf stash.1.rbuf with
    | none =>
      have before : stash.1.rbuf.length < block.length + 4 := by
        by_contra there
        obtain ⟨after, found', -⟩ := cut_of_append (by decide) found (show block.length + 4 ≤ _ by omega)
        rw [here] at found'
        cases found'
      have said := verdict_of_none here
      split at said
      next long => exact iff_of_true (serve_of_fail said served) (endsInside_cons.mpr (.inl ⟨long, before⟩))
      rename_i short
      rcases serve_of_more said served with ⟨starved, -⟩ | ⟨stash', buf, served'⟩
      · exact absurd starved (not_starved_of_none here)
      · rw [ih (by rw [buf, append_assoc]; exact found) served', endsInside_cons, buf]
        simp [short]
    | some pieces =>
      have size : stash.1.rbuf.length = pieces.1.length + 4 + pieces.2.length := cut_length here
      have whole := cut_append (seg ++ fills.flatten) here
      rw [found] at whole
      cases whole
      refine iff_of_false (not_rejected here served) ?_
      rintro ⟨k, -, -, inside⟩
      omega

lemma Stash.delivered
    (there : verdict (stash.1.rbuf ++ fills.flatten) = .item req () rest) (served : stash.serve fills = some o)
    (fed : ¬StarvedRun stash.1.rbuf fills) :
    o.items.head? = some req ∨ o.items = [] ∧ o.failure = some .headerOverflow := by
  induction fills generalizing stash with
  | nil =>
    rw [flatten_nil, append_nil] at there
    exact .inl (serve_of_item there served)
  | cons seg fills ih =>
    rw [flatten_cons] at there
    cases said : verdict stash.1.rbuf with
    | item req' _ rest' =>
      have whole := verdict_item_append said (seg ++ fills.flatten)
      rw [there] at whole
      cases whole
      exact .inl (serve_of_item said served)
    | fail e =>
      cases here : cut crlfcrlf stash.1.rbuf with
      | none =>
        rw [verdict_of_none here] at said
        split at said
        next long => exact .inr (serve_of_fail (by rw [verdict_of_none here, if_pos long]) served)
        · cases said
      | some pieces =>
        have whole := verdict_fail_append here said (seg ++ fills.flatten)
        rw [there] at whole
        cases whole
    | more =>
      rcases serve_of_more said served with ⟨starved, -⟩ | ⟨stash', buf, served'⟩
      · exact absurd (starvedRun_of_starved starved) fed
      · refine ih (by rw [buf, append_assoc]; exact there) served' fun starved => fed ?_
        rw [buf] at starved
        exact starvedRun_of_more said starved

end Front

/-- A request is rejected for the length of its header block if and only if some fill ends beyond the limit and still inside
of the block; a request that is in the stream and does not starve is delivered otherwise, however long its header block is. -/
theorem headerLimit_iff {stash : Stash} {fills : List Bytes} {o : Outcome Unit UInt8 WireRequest ParseError}
    {block behind : Bytes} (found : cut crlfcrlf (stash.1.rbuf ++ fills.flatten) = some (block, behind))
    (served : stash.serve fills = some o) :
    (o.items = [] ∧ o.failure = some .headerOverflow ↔ EndsInside stash.1.rbuf.length fills (block.length + 4)) ∧
      ∀ req rest, verdict (stash.1.rbuf ++ fills.flatten) = .item req () rest → ¬StarvedRun stash.1.rbuf fills →
        (o.items.head? = some req ↔ ¬EndsInside stash.1.rbuf.length fills (block.length + 4)) := by
  have rejected := rejected_iff found served
  refine ⟨rejected, fun req rest there fed => ?_⟩
  rw [← rejected]
  constructor
  · rintro first ⟨empty, -⟩
    simp [empty] at first
  · intro accepted
    exact (delivered there served fed).resolve_right accepted

def longHead (n : Nat) : Bytes := ascii "GET /" ++ replicate n 0x61 ++ ascii " HTTP/1.1\r\nHost: a"

section
variable (n : Nat)
include n

lemma longHead_length : (longHead n).length = 23 + n := by
  have front : (ascii "GET /").length = 5 := by decide
  have back : (ascii " HTTP/1.1\r\nHost: a").length = 18 := by decide
  simp only [longHead, length_append, length_replicate, front, back]
  omega

lemma longHead_cut (c : UInt8) (d t : Bytes) (other : c ∉ ascii "GET /a") :
    cut (c :: d) (longHead n ++ t) = (cut (c :: d) (ascii " HTTP/1.1\r\nHost: a" ++ t)).map
      fun (before, after) => (ascii "GET /" ++ replicate n 0x61 ++ before, after) := by
  have same : ascii "GET /a" = ascii "GET /" ++ [0x61] := by decide
  rw [same, mem_append, not_or, mem_singleton] at other
  rw [longHead, append_assoc]
  refine cut_skip (fun member => ?_) _
  rcases mem_append.mp member with member | member
  · exact other.1 member
  · exact other.2 (eq_of_mem_replicate member)

lemma longHead_line : ∃ line, requestLine (ascii "GET /" ++ replicate n 0x61 ++ ascii " HTTP/1.1") = some line ∧
    line.version = ascii "HTTP/1.1" := by
  have token : cut [0x20] (ascii "GET /" ++ replicate n 0x61 ++ ascii " HTTP/1.1") =
      some (ascii "GET", ascii "/" ++ (replicate n 0x61 ++ ascii " HTTP/1.1")) := by
    have front : cut [0x20] (ascii "GET /") = some (ascii "GET", ascii "/") := by decide
    exact cut_append _ front
  have target : cut [0x20] (ascii "/" ++ (replicate n 0x61 ++ ascii " HTTP/1.1")) =
      some (ascii "/" ++ replicate n 0x61, ascii "HTTP/1.1") := by
    have back : cut [0x20] (ascii " HTTP/1.1") = some ([], ascii "HTTP/1.1") := by decide
    rw [← append_assoc, cut_skip, back]
    · simp
    intro member
    rcases mem_append.mp member with member | member
    · exact absurd member (by decide)
    · exact absurd (eq_of_mem_replicate member) (by decide)
  unfold requestLine
  split
  · exact ⟨_, rfl, rfl⟩
  rw [token]
  dsimp only
  rw [target]
  exact ⟨_, rfl, rfl⟩

lemma longHead_parsed :
    ∃ req, parseRequestWithHeaderEnd (longHead n) [] = .ok req ∧ req.contentLength = 0 ∧ req.teChunkedSeen = false := by
  have first : cut crlf (longHead n ++ crlf) =
      some (ascii "GET /" ++ replicate n 0x61 ++ ascii " HTTP/1.1", ascii "Host: a\r\n") := by
    rw [crlf, longHead_cut n _ _ _ (by decide)]
    rfl
  obtain ⟨line, read, version⟩ := longHead_line n
  have pass : ∀ keepAlive, ((HeaderPass.init keepAlive).loop (ascii "Host: a\r\n")).any (fun pass =>
      (pass.check true).isOk && pass.contentLength == 0 && !pass.teSeen) := by decide +kernel
  obtain ⟨pass, looped, clean⟩ := (Option.any_eq_true _ _).mp (pass line.keepAlive)
  have v11 : (ascii "HTTP/1.1").isPrefixOf (ascii "HTTP/1.1") = true := by decide
  simp only [Bool.and_eq_true, beq_iff_eq, Bool.not_eq_true'] at clean
  rw [parseRequestWithHeaderEnd, first]
  dsimp only
  rw [read]
  dsimp only
  rw [looped, version, v11]
  dsimp only
  cases checked : pass.check true with
  | error e =>
    rw [checked] at clean
    simp [Except.isOk, Except.toBool] at clean
  | ok => exact ⟨_, rfl, clean.1.2, clean.2⟩

lemma longHead_found : cut crlfcrlf (longHead n ++ crlfcrlf) = some (longHead n, []) := by
  have skipped := longHead_cut n 0x0d [0x0a, 0x0d, 0x0a] crlfcrlf (by decide)
  change cut crlfcrlf _ = (cut crlfcrlf _).map _ at skipped
  rw [skipped]
  rfl

lemma longHead_found_fills :
    cut crlfcrlf ((fresh []).1.rbuf ++ [longHead n, crlfcrlf].flatten) = some (longHead n, []) := by
  have whole : (fresh []).1.rbuf ++ [longHead n, crlfcrlf].flatten = longHead n ++ crlfcrlf := by
    simp [fresh, AsyncConn.fresh]
  rw [whole, longHead_found]

lemma longHead_verdict : ∃ req, verdict (longHead n ++ crlfcrlf) = .item req () [] := by
  obtain ⟨req, parsed, length, te⟩ := longHead_parsed n
  exact ⟨req, verdict_of_plain (longHead_found n) parsed (by omega) (by simp [te])⟩

lemma longHead_served (small : n < 20000) {fills : List Bytes} (same : fills.flatten = longHead n ++ crlfcrlf) :
    ∃ o, (fresh []).serve fills = some o := by
  apply serve_isSome
  rw [same, length_append, longHead_length]
  have room : 30000 < asyncStashMax := by decide
  have four : crlfcrlf.length = 4 := rfl
  have empty : (fresh []).1.rbuf.length = 0 := rfl
  omega

end

lemma longHead_ends_inside : EndsInside 0 [longHead 16400, crlfcrlf] ((longHead 16400).length + 4) := by
  rw [endsInside_cons, endsInside_cons]
  refine .inr (.inl ?_)
  rw [longHead_length]
  decide

theorem headerLimit_two_fills :
    ∃ o, (fresh []).serve [longHead 16400, crlfcrlf] = some o ∧ o.items = [] ∧ o.failure = some .headerOverflow := by
  obtain ⟨o, served⟩ := @longHead_served 16400 (by decide) [longHead 16400, crlfcrlf] (by simp)
  exact ⟨o, served, (headerLimit_iff (longHead_found_fills 16400) served).1.mpr longHead_ends_inside⟩

/-- A header block longer than the limit: it is rejected if its empty line comes with the next fill, and the request is
delivered if everything comes at once. -/
theorem rejected_or_delivered : readBufferSize ≤ (longHead 16400 ++ crlfcrlf).length ∧
      ∃ o o', (fresh []).serve [longHead 16400, crlfcrlf] = some o ∧
        (fresh []).serve [longHead 16400 ++ crlfcrlf] = some o' ∧
        (o.items = [] ∧ o.failure = some .headerOverflow) ∧ o'.items ≠ [] := by
  refine ⟨by rw [length_append, longHead_length]; decide, ?_⟩
  obtain ⟨o, served⟩ := @longHead_served 16400 (by decide) [longHead 16400, crlfcrlf] (by simp)
  obtain ⟨o', served'⟩ := @longHead_served 16400 (by decide) [longHead 16400 ++ crlfcrlf] (by simp)
  refine ⟨o, o', served, served', ?_, ?_⟩
  · exact (rejected_iff (longHead_found_fills 16400) served).mpr longHead_ends_inside
  obtain ⟨req, said⟩ := longHead_verdict 16400
  have more : verdict (fresh []).1.rbuf = .more := by
    rw [verdict_of_none rfl, if_neg (by decide)]
  rcases serve_of_more more served' with ⟨starved, -⟩ | ⟨stash, buf, served'⟩
  · exact absurd starved (not_starved_of_none rfl)
  · have first := serve_of_item (by rw [buf]; exact said) served'
    intro empty
    simp [empty] at first

end Cwist.Http
