import Cwist.Http.Chunked

namespace Cwist.Http
open Delimit List Reader

def outstanding : List Bytes → List Nat
  | [] => [0]
  | seg :: segs => (seg :: segs).flatten.length :: outstanding segs

variable {after buf line out : Bytes}

lemma outstanding_le {segs : List Bytes} {left : Nat} (member : left ∈ outstanding segs) :
    left ≤ segs.flatten.length := by
  induction segs with
  | nil => simpa [outstanding] using member
  | cons seg segs ih =>
    rcases mem_cons.mp member with rfl | later
    · exact le_rfl
    · have := ih later
      simp only [flatten_cons, length_append]
      omega

lemma flatten_mem_outstanding (segs : List Bytes) : segs.flatten.length ∈ outstanding segs := by
  cases segs <;> simp [outstanding]

def trailerStops (buf : Bytes) : List Nat :=
  if buf.length < 2 ∨ crlf <+: buf then [buf.length]
  else
    match _found : cut crlf buf with
    | none => [buf.length]
    | some (_, after) => buf.length :: trailerStops after
termination_by buf.length
decreasing_by have := cut_crlf_length _found; omega

def stops (out buf : Bytes) : List Nat :=
  match _found : cut crlf buf with
  | none => []
  | some (line, after) =>
    match parseChunkSize line with
    | none => []
    | some 0 => trailerStops after
    | some size =>
      if size > maxBodySize ∨ out.length + size > maxBodySize then []
      else if after.length < size + 2 then []
      else if (after.drop size).take 2 ≠ crlf then []
      else stops (out ++ after.take size) (after.drop (size + 2))
termination_by buf.length
decreasing_by have := cut_crlf_length _found; rw [length_drop]; omega

lemma length_mem_trailerStops (buf : Bytes) : buf.length ∈ trailerStops buf := by
  fun_cases trailerStops buf <;> simp

lemma trailerStops_le {stop : Nat} (member : stop ∈ trailerStops buf) : stop ≤ buf.length := by
  fun_induction trailerStops buf with
  | case1 buf done => exact (mem_singleton.mp member).le
  | case2 buf going missing => exact (mem_singleton.mp member).le
  | case3 buf going line after found ih =>
    rcases mem_cons.mp member with rfl | later
    · exact le_rfl
    · have := ih later
      have := cut_crlf_length found
      omega

lemma trailerStops_of_line (other : ¬crlf <+: buf) (found : cut crlf buf = some (line, after)) :
    trailerStops buf = buf.length :: trailerStops after := by
  have size := cut_crlf_length found
  have going : ¬(buf.length < 2 ∨ crlf <+: buf) := by
    rintro (short | here)
    · omega
    · exact other here
  rw [trailerStops, if_neg going]
  split
  next missing =>
    rw [found] at missing
    cases missing
  next here =>
    rw [found] at here
    cases here
    rfl

lemma trailerStops_of_none (missing : cut crlf buf = none) : trailerStops buf = [buf.length] := by
  fun_cases trailerStops buf with
  | case1 | case2 => rfl
  | case3 going line after found =>
    rw [missing] at found
    cases found

lemma stops_of_none (missing : cut crlf buf = none) : stops out buf = [] := by
  rw [stops]
  split
  · rfl
  next found =>
    rw [missing] at found
    cases found

section
variable (found : cut crlf buf = some (line, after))
include found

lemma stops_of_zero (zero : parseChunkSize line = some 0) : stops out buf = trailerStops after := by
  rw [stops]
  split
  next missing =>
    rw [found] at missing
    cases missing
  next here =>
    rw [found] at here
    cases here
    rw [zero]
    rfl

lemma stops_of_bad (bad : parseChunkSize line = none) : stops out buf = [] := by
  rw [stops]
  split
  · rfl
  rename_i here
  rw [found] at here
  cases here
  rw [bad]

lemma stops_of_chunk {size : Nat}
    (parsed : parseChunkSize line = some size) (positive : size ≠ 0) :
    stops out buf =
      if size > maxBodySize ∨ out.length + size > maxBodySize then []
      else if after.length < size + 2 then []
      else if (after.drop size).take 2 ≠ crlf then []
      else stops (out ++ after.take size) (after.drop (size + 2)) := by
  rw [stops]
  split
  next missing =>
    rw [found] at missing
    cases missing
  rename_i here
  rw [found] at here
  cases here
  rw [parsed]
  split
  · contradiction
  · cases ‹some size = some 0›
    exact absurd rfl positive
  · cases ‹some size = some _›
    rfl

end

lemma stops_le {stop : Nat} (member : stop ∈ stops out buf) : stop ≤ buf.length := by
  fun_induction stops out buf with
  | case1 | case2 | case4 | case5 | case6 => cases member
  | case3 out buf line after found size =>
    have := trailerStops_le member
    have := cut_crlf_length found
    omega
  | case7 out buf line after found size parsed positive fits there ends ih =>
    have inside := ih member
    have := cut_crlf_length found
    rw [length_drop] at inside
    omega

namespace Reader
variable {cap : Nat} {enough : Bytes → Bool} {r r' : Reader}

def view (cap : Nat) (r : Reader) : Bytes := r.stream.take (cap - 1 - r.offset)

def hidden (cap : Nat) (r : Reader) : Bytes := r.stream.drop (cap - 1 - r.offset)

lemma view_append_hidden (cap : Nat) (r : Reader) : r.view cap ++ r.hidden cap = r.stream := take_append_drop _ _

/-- The buffer holds what was received, and the end of the stream is the end of the reads. -/
structure Valid (cap : Nat) (r : Reader) : Prop where
  fits : r.avail ≤ cap - 1
  reads : ∀ seg ∈ r.incoming, seg ≠ []

lemma Valid.rest_view (valid : r.Valid cap) : r.rest <+: r.view cap := by
  have := valid.fits
  rw [view, stream, take_append, take_of_length_le (by unfold avail at this; omega)]
  exact prefix_append _ _

/-- Some read ends with `k` octets of the view outstanding. -/
def EndsAt (cap : Nat) (r : Reader) (k : Nat) : Prop :=
  ∃ left ∈ outstanding r.incoming, left - (r.hidden cap).length = k

section
variable (valid : r.Valid cap)
include valid

lemma Valid.view_length :
    (r.view cap).length = r.rest.length + (r.incoming.flatten.length - (r.hidden cap).length) := by
  have fits := valid.fits
  unfold avail at fits
  simp only [view, hidden, stream, length_take, length_drop, length_append]
  omega

lemma EndsAt.le {k : Nat} (ends : r.EndsAt cap k) : r.rest.length + k ≤ (r.view cap).length := by
  obtain ⟨left, member, rfl⟩ := ends
  have := outstanding_le member
  rw [valid.view_length]
  omega

lemma Valid.endsAt : r.EndsAt cap ((r.view cap).length - r.rest.length) :=
  ⟨_, flatten_mem_outstanding r.incoming, by rw [valid.view_length]; omega⟩

lemma Valid.rest_eq : r.rest = (r.view cap).take ((r.view cap).length - ((r.view cap).length - r.rest.length)) := by
  have := valid.rest_view.length_le
  rw [Nat.sub_sub_self this]
  exact prefix_iff_eq_take.mp valid.rest_view

lemma Valid.of_recv_none (failed : r.recv cap = none) : r.rest = r.view cap := by
  have fits := valid.fits
  unfold recv at failed
  split at failed
  next full =>
    have whole : r.rest.length = cap - 1 - r.offset := by unfold avail at full fits; omega
    rw [view, stream, ← whole, take_left]
  split at failed
  next incoming =>
    rw [view, stream, incoming, flatten_nil, append_nil, take_of_length_le]
    unfold avail at fits
    omega
  next incoming => exact absurd rfl (valid.reads [] (incoming ▸ mem_cons_self))
  · cases failed

end

lemma recv_stream (received : r.recv cap = some r') : r'.stream = r.stream ∧ r'.offset = r.offset := by
  obtain ⟨got, -, rest, incoming, offset⟩ := recv_flatten received
  exact ⟨by rw [stream, stream, rest, incoming, append_assoc], offset⟩

lemma view_congr (stream : r'.stream = r.stream) (offset : r'.offset = r.offset) :
    r'.view cap = r.view cap ∧ r'.hidden cap = r.hidden cap := by
  rw [view, hidden, stream, offset]
  exact ⟨rfl, rfl⟩

section
variable (valid : r.Valid cap)
include valid

lemma Valid.recv (received : r.recv cap = some r') :
    r'.Valid cap ∧ ∀ k, r.EndsAt cap k ↔ k = (r.view cap).length - r.rest.length ∨ r'.EndsAt cap k := by
  have ⟨hview, hhidden⟩ := @view_congr cap r r' (recv_stream received).1 (recv_stream received).2
  have fits := valid.fits
  have now : (r.view cap).length - r.rest.length = r.incoming.flatten.length - (r.hidden cap).length := by
    rw [valid.view_length]
    omega
  simp only [now, EndsAt, hhidden]
  have beyond : (r.hidden cap).length = r.stream.length - (cap - 1 - r.offset) := length_drop
  unfold Reader.recv at received
  split at received
  · cases received
  rename_i space
  split at received
  · cases received
  · cases received
  rename_i c seg segs incoming
  cases received
  have total : r.stream.length = r.rest.length + ((c :: seg).length + segs.flatten.length) := by
    rw [stream, incoming, length_append, flatten_cons, length_append]
  unfold avail at fits space beyond
  refine ⟨⟨?_, ?_⟩, fun k => ?_⟩
  · simp only [avail, length_append, length_take]
    omega
  · intro s member
    split at member
    · exact valid.reads s (incoming ▸ mem_cons_of_mem _ member)
    rename_i left
    rcases mem_cons.mp member with rfl | later
    · exact left
    · exact valid.reads s (incoming ▸ mem_cons_of_mem _ later)
  rw [incoming]
  split
  · simp only [outstanding, mem_cons, exists_eq_or_imp]
    exact or_congr_left eq_comm
  rename_i left
  -- the rest of the segment, and what comes after it, does not fit the buffer
  have long : cap - 1 - avail r < (c :: seg).length := by
    by_contra short
    exact left (drop_eq_nil_of_le (by omega))
  have after : ∀ left' ∈ outstanding segs, left' - (r.hidden cap).length = 0 := by
    intro left' member
    have := outstanding_le member
    unfold avail at long
    omega
  have here : (List.drop (cap - 1 - avail r) (c :: seg) :: segs).flatten.length - (r.hidden cap).length = 0 := by
    unfold avail at long ⊢
    simp only [flatten_cons, length_append, length_drop]
    omega
  simp only [outstanding, mem_cons, exists_eq_or_imp, here]
  constructor
  · rintro (same | ⟨left', member, same⟩)
    · exact .inl same.symm
    · exact .inr (.inr ⟨left', member, same⟩)
  · rintro (same | same | ⟨left', member, same⟩)
    · exact .inl same.symm
    · exact .inr ⟨_, flatten_mem_outstanding segs, (after _ (flatten_mem_outstanding segs)).trans same⟩
    · exact .inr ⟨left', member, same⟩

lemma Valid.await (awaited : r.await cap enough = some r') :
    r'.Valid cap ∧ ∀ k, enough ((r.view cap).take ((r.view cap).length - k)) → (r.EndsAt cap k ↔ r'.EndsAt cap k) := by
  fun_induction Reader.await cap enough r with
  | case1 r ready =>
    cases awaited
    exact ⟨valid, fun k _ => Iff.rfl⟩
  | case2 r waiting failed => cases awaited
  | case3 r waiting next received ih =>
    obtain ⟨valid', ends⟩ := valid.recv received
    obtain ⟨valid'', ends'⟩ := ih valid' awaited
    obtain ⟨hview, -⟩ := @view_congr cap r next (recv_stream received).1 (recv_stream received).2
    rw [hview] at ends'
    refine ⟨valid'', fun k done => ?_⟩
    rw [ends, ← ends' k done]
    constructor
    · rintro (rfl | later)
      · exact absurd (valid.rest_eq ▸ done) waiting
      · exact later
    · exact .inr

lemma Valid.of_await_none (failed : r.await cap enough = none) : ¬enough (r.view cap) := by
  fun_induction Reader.await cap enough r with
  | case1 r ready => cases failed
  | case2 r waiting nothing => exact valid.of_recv_none nothing ▸ waiting
  | case3 r waiting next received ih =>
    obtain ⟨hview, -⟩ := @view_congr cap r next (recv_stream received).1 (recv_stream received).2
    exact hview ▸ ih (valid.recv received).1 failed

lemma Valid.advance {n : Nat} (there : n ≤ r.rest.length) :
    (r.advance n).Valid cap ∧ (r.advance n).view cap = (r.view cap).drop n ∧ (r.advance n).hidden cap = r.hidden cap ∧
      ∀ k, (r.advance n).EndsAt cap k ↔ r.EndsAt cap k := by
  have fits := valid.fits
  unfold avail at fits
  have behind : (r.advance n).stream = r.stream.drop n := by
    rw [stream, stream, drop_append_of_le_length there]
    rfl
  have hhidden : (r.advance n).hidden cap = r.hidden cap := by
    rw [hidden, behind, drop_drop]
    congr 1
    simp only [Reader.advance]
    omega
  refine ⟨⟨?_, valid.reads⟩, ?_, hhidden, fun k => ?_⟩
  · simp only [avail, Reader.advance, length_drop]
    omega
  · rw [view, view, drop_take]
    congr 1
    simp only [Reader.advance]
    omega
  · rw [EndsAt, hhidden]
    rfl

end

/-- No read ends where `stop` octets follow, nor one octet further. -/
def Clear (cap : Nat) (r : Reader) (stop : Nat) : Prop := ∀ k, r.EndsAt cap k → stop ≠ k ∧ stop ≠ k + 1

lemma Clear.congr {stop : Nat} (same : ∀ k ≤ stop, (r.EndsAt cap k ↔ r'.EndsAt cap k)) :
    r.Clear cap stop ↔ r'.Clear cap stop := by
  constructor <;> intro clear k ends
  · by_cases before : k ≤ stop
    · exact clear k ((same k before).mpr ends)
    · omega
  · by_cases before : k ≤ stop
    · exact clear k ((same k before).mp ends)
    · omega

section
variable (valid : r.Valid cap)
include valid

lemma Valid.clear_of_two (two : 2 ≤ r.rest.length) : r.Clear cap (r.view cap).length := by
  intro k ends
  have := ends.le valid
  omega

lemma Valid.not_clear (short : r.rest.length < 2) : ¬r.Clear cap (r.view cap).length := by
  intro clear
  have := clear _ valid.endsAt
  omega

lemma Valid.readLine_none (failed : r.readLine cap = none) : cut crlf (r.view cap) = none := by
  cases awaited : r.await cap fun buf => (cut crlf buf).isSome with
  | none => simpa using valid.of_await_none awaited
  | some r1 =>
    obtain ⟨-, -, ready⟩ := await_stream awaited
    obtain ⟨pieces, found⟩ := Option.isSome_iff_exists.mp ready
    simp [readLine, awaited, found] at failed

lemma Valid.readLine (read : r.readLine cap = some (line, r')) :
    ∃ after, cut crlf (r.view cap) = some (line, after) ∧ r'.Valid cap ∧ r'.view cap = after ∧
      r'.hidden cap = r.hidden cap ∧ ∀ k ≤ after.length, (r.EndsAt cap k ↔ r'.EndsAt cap k) := by
  obtain ⟨r1, after, awaited, here, rfl, -⟩ := readLine_spec read
  obtain ⟨valid1, ends1⟩ := valid.await awaited
  obtain ⟨stream, offset, -⟩ := await_stream awaited
  obtain ⟨hview, hhidden⟩ := @view_congr cap r r1 stream offset
  have size := cut_crlf_length here
  obtain ⟨valid2, view2, hidden2, ends2⟩ := valid1.advance (n := line.length + 2) (by omega)
  obtain ⟨more, whole⟩ := valid1.rest_view
  have found : cut crlf (r.view cap) = some (line, after ++ more) := by
    rw [← hview, ← whole]
    exact cut_append more here
  have behind : (line ++ crlf).length = line.length + 2 := by simp [crlf]
  refine ⟨after ++ more, found, valid2, ?_, hidden2.trans hhidden, fun k inside => ?_⟩
  · rw [view2, hview, eq_of_cut found, ← behind, drop_left]
  · rw [ends2]
    exact ends1 k (cut_take crlf_ne_nil found inside)

lemma Valid.readTrailers_iff : (r.readTrailers cap).map stream = (scanTrailers (r.view cap)).map (· ++ r.hidden cap) ↔
      ∀ stop ∈ trailerStops (r.view cap), r.Clear cap stop := by
  fun_induction readTrailers cap r with
  | case1 r short =>
    refine iff_of_false (fun same => ?_) fun clear => valid.not_clear short (clear _ (length_mem_trailerStops _))
    obtain ⟨rest, ended, same⟩ := Option.map_eq_some_iff.mp same.symm
    have := scanTrailers_length ended
    rw [← view_append_hidden cap r, append_cancel_right_eq] at same
    rw [same] at this
    omega
  | case2 r long front =>
    have two : 2 ≤ r.rest.length := by omega
    have clear := valid.clear_of_two two
    have here := front.trans valid.rest_view
    obtain ⟨-, view2, hidden2, -⟩ := valid.advance two
    have size := here.length_le
    rw [scanTrailers, if_neg (by simp [crlf] at size; omega), if_pos here, trailerStops, if_pos (.inr here)]
    refine iff_of_true ?_ (by simpa using clear)
    rw [Option.map_some, Option.map_some, ← view_append_hidden cap (r.advance 2), view2, hidden2]
  | case3 r long other failed =>
    have missing := valid.readLine_none failed
    have two : 2 ≤ r.rest.length := by omega
    obtain ⟨more, whole⟩ := valid.rest_view
    have other' : ¬crlf <+: r.view cap := by rwa [← whole, crlf_front_iff two]
    rw [scanTrailers_of_none other' missing, trailerStops_of_none missing]
    exact iff_of_true rfl (by simpa using valid.clear_of_two two)
  | case4 r long other line next read ih =>
    have two : 2 ≤ r.rest.length := by omega
    obtain ⟨more, whole⟩ := valid.rest_view
    have other' : ¬crlf <+: r.view cap := by rwa [← whole, crlf_front_iff two]
    obtain ⟨after, found, valid', view', hidden', ends⟩ := valid.readLine read
    rw [view', hidden'] at ih
    rw [scanTrailers_of_line other' found, trailerStops_of_line other' found, ih valid']
    simp only [mem_cons, forall_eq_or_imp, valid.clear_of_two two, true_and]
    refine forall₂_congr fun stop member => (Clear.congr fun k before => ?_).symm
    exact ends k (before.trans (trailerStops_le member))

lemma Valid.chunk {size : Nat} (awaited : r.await cap (fun buf => size + 2 ≤ buf.length) = some r') :
    size + 2 ≤ (r.view cap).length ∧ r'.rest.take size = (r.view cap).take size ∧
      (r'.rest.drop size).take 2 = ((r.view cap).drop size).take 2 ∧ (r'.advance (size + 2)).Valid cap ∧
      (r'.advance (size + 2)).view cap = (r.view cap).drop (size + 2) ∧
      (r'.advance (size + 2)).hidden cap = r.hidden cap ∧
      ∀ k ≤ (r.view cap).length - (size + 2), (r.EndsAt cap k ↔ (r'.advance (size + 2)).EndsAt cap k) := by
  obtain ⟨valid', ends⟩ := valid.await awaited
  obtain ⟨stream, offset, ready⟩ := await_stream awaited
  obtain ⟨hview, hhidden⟩ := @view_congr cap r r' stream offset
  have there : size + 2 ≤ r'.rest.length := by simpa using ready
  obtain ⟨more, whole⟩ := valid'.rest_view
  obtain ⟨valid2, view2, hidden2, ends2⟩ := valid'.advance there
  rw [hview] at whole view2
  have inside : size + 2 ≤ (r.view cap).length := by
    rw [← whole, length_append]
    omega
  refine ⟨inside, ?_, ?_, valid2, view2, hidden2.trans hhidden, fun k before => ?_⟩
  · rw [← whole, take_append_of_le_length (by omega)]
  · rw [← whole, drop_append_of_le_length (by omega), take_append_of_le_length (by rw [length_drop]; omega)]
  rw [ends2]
  refine ends k ?_
  simp only [length_take, decide_eq_true_eq]
  omega

lemma Valid.readChunks_iff (avail : Nat) (out : Bytes) :
    (r.readChunks cap out).map (fun (body, r) => (body, r.stream)) =
        (chunkedScan avail out (r.view cap)).result.map (fun (body, rest) => (body, rest ++ r.hidden cap)) ↔
      ∀ stop ∈ stops out (r.view cap), r.Clear cap stop := by
  fun_induction readChunks cap out r with
  | case1 out r failed =>
    have missing := valid.readLine_none failed
    rw [chunkedScan_of_none missing, stops_of_none missing]
    refine iff_of_true ?_ (by simp)
    split <;> rfl
  | case2 out r line r1 read bad =>
    obtain ⟨after, found, -⟩ := valid.readLine read
    rw [chunkedScan_of_bad found bad, stops_of_bad found bad]
    exact iff_of_true rfl (by simp)
  | case3 out r line r1 read zero =>
    obtain ⟨after, found, valid1, view1, hidden1, ends⟩ := valid.readLine read
    have trailers := valid1.readTrailers_iff
    rw [view1, hidden1] at trailers
    have same : (∀ stop ∈ trailerStops after, r.Clear cap stop) ↔ ∀ stop ∈ trailerStops after, r1.Clear cap stop :=
      forall₂_congr fun stop member => Clear.congr fun k before => ends k (before.trans (trailerStops_le member))
    rw [chunkedScan_of_zero found zero, stops_of_zero found zero, same, ← trailers]
    cases r1.readTrailers cap <;> cases scanTrailers after <;> simp [Scan.result]
  | case4 out r line r1 read size positive parsed large =>
    obtain ⟨after, found, -⟩ := valid.readLine read
    rw [chunkedScan_result_of_chunk found parsed positive, stops_of_chunk found parsed positive, if_pos large, if_pos large]
    exact iff_of_true rfl (by simp)
  | case5 out r line r1 read size positive parsed fits failed =>
    obtain ⟨after, found, valid1, view1, -⟩ := valid.readLine read
    have short : after.length < size + 2 := by
      have := valid1.of_await_none failed
      rw [view1] at this
      simpa using this
    rw [chunkedScan_result_of_chunk found parsed positive, stops_of_chunk found parsed positive, if_neg fits, if_pos short, if_pos short]
    exact iff_of_true rfl (by simp)
  | case6 out r line r1 read size positive parsed fits r2 awaited ends =>
    obtain ⟨after, found, valid1, view1, -⟩ := valid.readLine read
    obtain ⟨there, -, mark, -⟩ := valid1.chunk awaited
    rw [view1] at there mark
    rw [mark] at ends
    have long : ¬after.length < size + 2 := by omega
    rw [chunkedScan_result_of_chunk found parsed positive, stops_of_chunk found parsed positive, if_neg fits, if_neg long, if_pos ends, if_pos ends]
    exact iff_of_true rfl (by simp)
  | case7 out r line r1 read size positive parsed fits r2 awaited ends ih =>
    obtain ⟨after, found, valid1, view1, hidden1, ends1⟩ := valid.readLine read
    obtain ⟨there, chunk, mark, valid2, view2, hidden2, ends2⟩ := valid1.chunk awaited
    rw [view1] at there mark chunk view2 ends2
    rw [mark] at ends
    rw [view2, hidden2, hidden1, chunk] at ih
    have long : ¬after.length < size + 2 := by omega
    rw [chunkedScan_result_of_chunk found parsed positive, stops_of_chunk found parsed positive, if_neg fits, if_neg fits,
      if_neg long, if_neg long, if_neg ends, if_neg ends, chunk, ih valid2]
    refine forall₂_congr fun stop member => (Clear.congr fun k before => ?_).symm
    have inside := stops_le member
    rw [length_drop] at inside
    rw [ends1 k (by omega), ends2 k (by omega)]

end

end Reader
end Cwist.Http
