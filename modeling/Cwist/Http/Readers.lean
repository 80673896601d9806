import Cwist.Http.Framing
import Cwist.Http.Segmentation

namespace Cwist.Http
open Delimit Incremental List

inductive First where
  | request (req : WireRequest) (unread : Bytes)
  | refused (e : ParseError)
  | waiting
  deriving DecidableEq

def Stash.first (stash : Stash) : List Bytes → Option First
  | [] =>
    match stash.1.receive with
    | .ok req conn => some (.request req conn.rbuf)
    | .fatal e _ => some (.refused e)
    | .needMore _ => some .waiting
  | seg :: fills =>
    match received : stash.1.receive with
    | .ok req conn => some (.request req (conn.rbuf ++ (seg :: fills).flatten))
    | .fatal e _ => some (.refused e)
    | .needMore conn =>
      match filled : conn.fill seg with
      | none => none
      | some conn' => first ⟨conn', ((stash.2.of_more received).2.fill filled).1⟩ fills

def First.body : First → Option (Bytes × Bytes)
  | .request req unread => some (req.body, unread)
  | .refused _ | .waiting => none

/-- What a buffer of `cap` octets holds of the stream decides about the message, or there is nothing else. -/
def Fits (cap : Nat) (stream : Bytes) : Prop :=
  stream.length ≤ cap - 1 ∨ chunkedScan 0 [] (stream.take (cap - 1)) ≠ .needMore

def Verdict.first : Verdict Unit UInt8 WireRequest ParseError → First
  | .item req _ rest => .request req rest
  | .fail e => .refused e
  | .more => .waiting

lemma Stash.first_eq {stash : Stash} {fills : List Bytes} {result : First} (received : stash.first fills = some result)
    (below : ∀ block behind, cut crlfcrlf (stash.1.rbuf ++ fills.flatten) = some (block, behind) →
      block.length + 4 < readBufferSize) (fed : ∀ p, p <+: stash.1.rbuf ++ fills.flatten → ¬Starved p) :
    result = Verdict.first (verdict (stash.1.rbuf ++ fills.flatten)) := by
  induction fills generalizing stash with
  | nil =>
    rw [flatten_nil, append_nil] at fed ⊢
    rw [first] at received
    split at received <;> rename_i answered <;> cases received
    · obtain ⟨said, -⟩ := stash.2.of_ok answered
      rw [said, Verdict.first]
    · obtain ⟨-, said | ⟨-, starved, -⟩⟩ := stash.2.of_fatal answered
      · rw [said, Verdict.first]
      · exact absurd starved (fed _ prefix_rfl)
    · obtain ⟨⟨said, -⟩, -⟩ := stash.2.of_more answered
      rw [said, Verdict.first]
  | cons seg fills ih =>
    have steady := receiver_steady below stash.1.rbuf (seg :: fills).flatten rfl
    rw [first] at received
    split at received <;> rename_i answered
    · cases received
      obtain ⟨said, -⟩ := stash.2.of_ok answered
      rw [show verdict _ = _ from steady.1 _ _ _ said, Verdict.first]
    · cases received
      obtain ⟨-, said | ⟨-, starved, -⟩⟩ := stash.2.of_fatal answered
      · rw [show verdict _ = _ from steady.2 _ said, Verdict.first]
      · exact absurd starved (fed _ (prefix_append _ _))
    obtain ⟨⟨said, -, same⟩, wf⟩ := stash.2.of_more answered
    split at received
    · cases received
    rename_i conn conn' filled
    have buf := (wf.fill filled).2
    rw [same] at buf
    rw [flatten_cons, ← append_assoc, ← buf] at below fed ⊢
    exact ih received below fed

lemma chunked_no_length {head : Bytes} {req : WireRequest} (parsed : parseRequestWithHeaderEnd head [] = .ok req)
    (ends : cut crlfcrlf (head ++ crlfcrlf) = some (head, [])) (chunked : req.teChunkedSeen) : req.contentLength = 0 := by
  have accepted : parseRequestLen (head ++ crlfcrlf) = some req := by
    rw [parseRequestLen, ends]
    simp [parsed, Except.toOption]
  obtain ⟨first, text, pass, -, sees, -, checked, -, te, length⟩ := parseRequestLen_accepted accepted
  obtain ⟨-, good, coded⟩ := HeaderPass.check_ok checked
  obtain ⟨unseen, -⟩ := coded (te ▸ chunked)
  rw [length]
  exact sees.clNone (not_not.mp (mt (sees.clSeen good).mpr (by simp [unseen])))

section Chunked
variable {head stream : Bytes} {req : WireRequest}

lemma Fits.scan {cap : Nat} (fits : Fits cap stream) : (chunkedScan 0 [] stream).result =
      (chunkedScan 0 [] (stream.take (cap - 1))).result.map fun (body, rest) => (body, rest ++ stream.drop (cap - 1)) := by
  cases scanned : chunkedScan 0 [] (stream.take (cap - 1)) with
  | complete body rest =>
    obtain ⟨framed, split, ends⟩ := chunkedScan_split scanned
    have whole := ends 0 (rest ++ stream.drop (cap - 1))
    rw [← append_assoc, ← split, take_append_drop] at whole
    rw [whole]
    rfl
  | malformed =>
    have whole := chunkedScan_malformed scanned (stream.drop (cap - 1))
    rw [take_append_drop] at whole
    rw [whole]
    rfl
  | needMore =>
    have short := fits.resolve_right fun other => other scanned
    rw [take_of_length_le short] at scanned
    rw [scanned]
    rfl

lemma Fits.not_starved {cap : Nat} (fits : Fits cap stream) (small : cap ≤ readBufferSize)
    (parsed : parseRequestWithHeaderEnd head [] = .ok req) (length : req.contentLength = 0)
    (below : head.length + 4 < readBufferSize) (ends : cut crlfcrlf (head ++ crlfcrlf ++ stream) = some (head, stream))
    {p : Bytes} (front : p <+: head ++ crlfcrlf ++ stream) : ¬Starved p := by
  obtain ⟨t, whole⟩ := front
  rintro ⟨block, behind, req', found, parsed', asks⟩
  have found' := cut_append t found
  rw [whole, ends] at found'
  cases found'
  rw [parsed] at parsed'
  cases parsed'
  rw [if_neg (by omega)] at asks
  obtain ⟨-, scanned, long⟩ := asks
  have size : p.length = head.length + 4 + behind.length := cut_length found
  have room : 2 * readBufferSize + 4096 < asyncStashMax := by decide
  -- behind the header block there is more than the buffer would hold, so that the message is decided
  have beyond : cap - 1 < behind.length := by omega
  rcases fits with short | decided
  · rw [length_append] at short
    omega
  rw [take_append_of_le_length beyond.le] at decided
  cases early : chunkedScan 0 [] (behind.take (cap - 1)) with
  | complete body rest =>
    obtain ⟨framed, split, always⟩ := chunkedScan_split early
    have here := always 0 (rest ++ behind.drop (cap - 1))
    rw [← append_assoc, ← split, take_append_drop, scanned] at here
    cases here
  | malformed =>
    have here := chunkedScan_malformed early (behind.drop (cap - 1))
    rw [take_append_drop, scanned] at here
    cases here
  | needMore => exact decided early

end Chunked

/-- The blocking reader and the non-blocking one come to the same body and leave the same octets for the next request, or
both do not accept the message, if and only if no read of the blocking one ends where its trailer loop begins a round, or one
octet later. -/
theorem readers_agree_iff {head stream buf : Bytes} {segs fills : List Bytes} {req : WireRequest} {allocs : List Bool}
    {result : First} (parsed : parseRequestWithHeaderEnd head [] = .ok req) (chunked : req.teChunkedSeen)
    (below : head.length + 4 < readBufferSize) (ends : cut crlfcrlf (head ++ crlfcrlf) = some (head, []))
    (fits : Fits readBufferSize stream) (room : buf.length ≤ readBufferSize - 1) (reads : ∀ seg ∈ segs, seg ≠ [])
    (same : buf ++ segs.flatten = stream) (same' : fills.flatten = head ++ crlfcrlf ++ stream)
    (received : (Stash.fresh allocs).first fills = some result) :
    readChunkedBody readBufferSize buf segs = result.body ↔
      ∀ stop ∈ stops [] (stream.take (readBufferSize - 1)), Reader.Clear readBufferSize ⟨0, buf, segs⟩ stop := by
  have length := chunked_no_length parsed ends chunked
  have ends' := cut_append stream ends
  have empty : (Stash.fresh allocs).1.rbuf ++ fills.flatten = head ++ crlfcrlf ++ stream := same'
  have nonblocking : result = Verdict.first (verdict (head ++ crlfcrlf ++ stream)) := by
    rw [← empty]
    refine Stash.first_eq received ?_ ?_ <;> rw [empty]
    · intro block behind found
      rw [ends'] at found
      cases found
      exact below
    · intro p front
      exact fits.not_starved (le_rfl) parsed length below ends' front
  have body : result.body = (chunkedScan 0 [] stream).result := by
    rw [nonblocking, verdict_of_chunked ends' parsed (by omega) chunked, nil_append]
    cases chunkedScan 0 [] stream <;> rfl
  have valid : Reader.Valid readBufferSize ⟨0, buf, segs⟩ := ⟨by simpa [Reader.avail] using room, reads⟩
  have blocking := valid.readChunks_iff 0 []
  simp only [Reader.view, Reader.hidden, Reader.stream, same, Nat.sub_zero] at blocking
  rw [body, fits.scan, ← blocking]
  rfl

def hello : Bytes := ascii "5\r\nhello\r\n0\r\n\r\nGET"

theorem readers_agree_hello :
    readChunkedBody readBufferSize (hello.take 5) [hello.drop 5] = some (ascii "hello", ascii "GET") := by
  have fits : Fits readBufferSize hello := .inl (by decide)
  have received : (Stash.fresh []).first [chunkedHead ++ crlfcrlf, hello] =
      some (.request { chunkedRequest with body := ascii "hello" } (ascii "GET")) := by
    decide +kernel
  have places : stops [] (hello.take (readBufferSize - 1)) = [5] := by decide +kernel
  have clear : Reader.Clear readBufferSize ⟨0, hello.take 5, [hello.drop 5]⟩ 5 := by
    rintro k ⟨left, member, rfl⟩
    have reads : outstanding [hello.drop 5] = [13, 0] := by decide
    have hidden : (Reader.hidden readBufferSize ⟨0, hello.take 5, [hello.drop 5]⟩).length = 0 := by decide
    rw [reads] at member
    rw [hidden]
    simp only [mem_cons, not_mem_nil, or_false] at member
    omega
  refine (readers_agree_iff chunkedHead_parsed rfl (by decide) (by decide) fits (by decide)
    (by decide) (by simp) (by simp) received).mpr ?_
  rw [places]
  simpa using clear

/-- The zero-size line comes with one read and the empty line with the next one: the blocking reader leaves the empty line
for the next request. -/
theorem readers_disagree :
    readChunkedBody readBufferSize (ascii "0\r\n") [ascii "\r\nGET"] = some ([], ascii "\r\nGET") ∧
      (Stash.fresh []).first [chunkedHead ++ crlfcrlf ++ ascii "0\r\n", ascii "\r\nGET"] =
        some (.request chunkedRequest (ascii "GET")) ∧
      First.body (.request chunkedRequest (ascii "GET")) = some ([], ascii "GET") := by
  decide +kernel

end Cwist.Http
