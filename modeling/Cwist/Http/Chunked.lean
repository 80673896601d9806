import Cwist.Basic
import Cwist.Lib.Delimit

/-!
# Chunked bodies

The two readers of a chunked body.
-/

namespace Cwist.Http
open Delimit List

def maxBodySize : Nat := 10 * 1024 * 1024

def readBufferSize : Nat := 16384

def asyncStashMax : Nat := readBufferSize + maxBodySize

def crlf : Bytes := [0x0d, 0x0a]

def hexDigit (c : UInt8) : Option Nat :=
  if 0x30 ≤ c ∧ c ≤ 0x39 then some (c.toNat - 0x30)
  else if 0x61 ≤ c ∧ c ≤ 0x66 then some (c.toNat - 0x61 + 10)
  else if 0x41 ≤ c ∧ c ≤ 0x46 then some (c.toNat - 0x41 + 10)
  else none

def parseChunkSize (line : Bytes) : Option Nat :=
  let digits := line.takeWhile (· != 0x3b)
  if digits = [] then none
  else
    digits.foldlM (fun value c => do
      let digit ← hexDigit c
      if value > (maxBodySize - digit) / 16 then none else some (value * 16 + digit)) 0

lemma crlf_ne_nil : crlf ≠ [] := by decide

variable {buf line after rest out more body : Bytes}

lemma cut_crlf_length (found : cut crlf buf = some (line, after)) :
    buf.length = line.length + 2 + after.length := cut_length found

inductive Scan where
  | complete (body rest : Bytes)
  | needMore
  | malformed
  deriving DecidableEq

def Scan.result : Scan → Option (Bytes × Bytes)
  | .complete body rest => some (body, rest)
  | .needMore | .malformed => none

def scanTrailers (buf : Bytes) : Option Bytes :=
  if buf.length < 2 then none
  else if crlf <+: buf then some (buf.drop 2)
  else
    match _found : cut crlf buf with
    | none => none
    | some (_, after) => scanTrailers after
termination_by buf.length
decreasing_by have := cut_crlf_length _found; omega

def chunkedScan (avail : Nat) (out buf : Bytes) : Scan :=
  match _found : cut crlf buf with
  | none => if avail > asyncStashMax then .malformed else .needMore
  | some (line, after) =>
    match parseChunkSize line with
    | none => .malformed
    | some 0 =>
      match scanTrailers after with
      | none => .needMore
      | some rest => .complete out rest
    | some size =>
      if size > maxBodySize then .malformed
      else if after.length < size + 2 then .needMore
      else if (after.drop size).take 2 ≠ crlf then .malformed
      else if out.length + size > maxBodySize then .malformed
      else chunkedScan avail (out ++ after.take size) (after.drop (size + 2))
termination_by buf.length
decreasing_by have := cut_crlf_length _found; rw [length_drop]; omega

lemma scanTrailers_of_none (other : ¬crlf <+: buf) (missing : cut crlf buf = none) : scanTrailers buf = none := by
  rw [scanTrailers]
  by_cases short : buf.length < 2
  · rw [if_pos short]
  rw [if_neg short, if_neg other]
  split
  · rfl
  next found =>
    rw [missing] at found
    cases found

lemma scanTrailers_of_line (other : ¬crlf <+: buf) (found : cut crlf buf = some (line, after)) :
    scanTrailers buf = scanTrailers after := by
  have size := cut_crlf_length found
  rw [scanTrailers, if_neg (by omega), if_neg other]
  split
  next missing =>
    rw [found] at missing
    cases missing
  next here =>
    rw [found] at here
    cases here
    rfl

lemma scanTrailers_length (ended : scanTrailers buf = some rest) : rest.length + 2 ≤ buf.length := by
  fun_induction scanTrailers buf with
  | case1 buf short => cases ended
  | case2 buf long here =>
    cases ended
    rw [length_drop]
    omega
  | case3 buf long other missing => cases ended
  | case4 buf long other line after found ih =>
    have := ih ended
    have := cut_crlf_length found
    omega

lemma chunkedScan_of_none {avail : Nat} (missing : cut crlf buf = none) :
    chunkedScan avail out buf = if avail > asyncStashMax then .malformed else .needMore := by
  rw [chunkedScan]
  split
  · rfl
  next found =>
    rw [missing] at found
    cases found

section Line
variable {avail size : Nat} {out : Bytes}

section
variable (found : cut crlf buf = some (line, after))
include found

lemma chunkedScan_of_line :
    chunkedScan avail out buf =
      match parseChunkSize line with
      | none => .malformed
      | some 0 =>
        match scanTrailers after with
        | none => .needMore
        | some rest => .complete out rest
      | some size =>
        if size > maxBodySize then .malformed
        else if after.length < size + 2 then .needMore
        else if (after.drop size).take 2 ≠ crlf then .malformed
        else if out.length + size > maxBodySize then .malformed
        else chunkedScan avail (out ++ after.take size) (after.drop (size + 2)) := by
  rw [chunkedScan]
  split
  next missing =>
    rw [found] at missing
    cases missing
  next here =>
    rw [found] at here
    cases here
    rfl

lemma chunkedScan_of_bad (bad : parseChunkSize line = none) : chunkedScan avail out buf = .malformed := by
  rw [chunkedScan_of_line found, bad]

lemma chunkedScan_of_zero (zero : parseChunkSize line = some 0) :
    chunkedScan avail out buf =
      match scanTrailers after with
      | none => .needMore
      | some rest => .complete out rest := by
  rw [chunkedScan_of_line found, zero]
  rfl

lemma chunkedScan_of_chunk (parsed : parseChunkSize line = some size)
    (positive : size ≠ 0) :
    chunkedScan avail out buf =
      if size > maxBodySize then .malformed
      else if after.length < size + 2 then .needMore
      else if (after.drop size).take 2 ≠ crlf then .malformed
      else if out.length + size > maxBodySize then .malformed
      else chunkedScan avail (out ++ after.take size) (after.drop (size + 2)) := by
  rw [chunkedScan_of_line found, parsed]
  split
  · contradiction
  · cases ‹some size = some 0›
    exact absurd rfl positive
  · cases ‹some size = some _›
    rfl

lemma chunkedScan_result_of_chunk (parsed : parseChunkSize line = some size)
    (positive : size ≠ 0) :
    (chunkedScan avail out buf).result =
      if size > maxBodySize ∨ out.length + size > maxBodySize then none
      else if after.length < size + 2 then none
      else if (after.drop size).take 2 ≠ crlf then none
      else (chunkedScan avail (out ++ after.take size) (after.drop (size + 2))).result := by
  rw [chunkedScan_of_chunk found parsed positive]
  split_ifs <;> first | rfl | omega

end

end Line

lemma crlf_front_iff (two : 2 ≤ buf.length) : crlf <+: buf ++ more ↔ crlf <+: buf := by
  constructor <;> intro front
  · exact prefix_of_prefix_length_le front (prefix_append _ _) two
  · exact front.trans (prefix_append _ _)

lemma chunk_append {size : Nat} (there : ¬after.length < size + 2) (t : Bytes) :
    ¬(after ++ t).length < size + 2 ∧ ((after ++ t).drop size).take 2 = (after.drop size).take 2 ∧
      (after ++ t).take size = after.take size ∧ (after ++ t).drop (size + 2) = after.drop (size + 2) ++ t := by
  refine ⟨by simp; omega, ?_, ?_, ?_⟩
  · rw [drop_append_of_le_length (by omega), take_append_of_le_length (by rw [length_drop]; omega)]
  · rw [take_append_of_le_length (by omega)]
  · rw [drop_append_of_le_length (by omega)]

lemma scanTrailers_split (ended : scanTrailers buf = some rest) :
    ∃ framed, buf = framed ++ rest ∧ ∀ t, scanTrailers (framed ++ t) = some t := by
  fun_induction scanTrailers buf with
  | case1 => cases ended
  | case2 buf long front =>
    obtain ⟨more, rfl⟩ := front
    cases ended
    refine ⟨crlf, rfl, fun t => ?_⟩
    rw [scanTrailers]
    rfl
  | case3 => cases ended
  | case4 buf long other line after found ih =>
    obtain ⟨framed, rfl, ends⟩ := ih ended
    refine ⟨line ++ crlf ++ framed, by rw [eq_of_cut found]; simp, fun t => ?_⟩
    have there : 2 ≤ (line ++ crlf).length := by simp [crlf]
    have other' : ¬crlf <+: line ++ crlf ++ framed ++ t := by
      rw [eq_of_cut found, crlf_front_iff there] at other
      rwa [append_assoc, crlf_front_iff there]
    have found' := cut_replace crlf_ne_nil found (framed ++ t)
    rw [← append_assoc] at found'
    rw [scanTrailers_of_line other' found', ends]

lemma chunkedScan_split {avail : Nat} (ended : chunkedScan avail out buf = .complete body rest) :
    ∃ framed, buf = framed ++ rest ∧ ∀ avail' t, chunkedScan avail' out (framed ++ t) = .complete body t := by
  fun_induction chunkedScan avail out buf with
  | case1 | case2 | case3 | case4 | case6 | case7 | case8 | case9 => cases ended
  | case5 out buf line after found zero rest' trailers =>
    cases ended
    obtain ⟨framed, rfl, ends⟩ := scanTrailers_split trailers
    refine ⟨line ++ crlf ++ framed, by rw [eq_of_cut found]; simp, fun avail' t => ?_⟩
    have found' := cut_replace crlf_ne_nil found (framed ++ t)
    rw [← append_assoc] at found'
    rw [chunkedScan_of_zero found' zero, ends]
  | case10 out buf line after found size positive parsed small there mark fits ih =>
    obtain ⟨framed, same, ends⟩ := ih ended
    have split : after = after.take (size + 2) ++ (framed ++ rest) := by rw [← same, take_append_drop]
    refine ⟨line ++ crlf ++ (after.take (size + 2) ++ framed), ?_, fun avail' t => ?_⟩
    · rw [eq_of_cut found]
      conv_lhs => rw [split]
      simp only [append_assoc]
    have found' := cut_replace crlf_ne_nil found (after.take (size + 2) ++ (framed ++ t))
    have size' : (after.take (size + 2)).length = size + 2 := length_take_of_le (by omega)
    obtain ⟨there', mark', take', drop'⟩ := chunk_append (not_lt.mpr size'.ge) (framed ++ t)
    have marked : ((after.take (size + 2)).drop size).take 2 = (after.drop size).take 2 := by
      rw [drop_take, take_take]
      congr 1
      omega
    have taken : (after.take (size + 2)).take size = after.take size := by
      rw [take_take, min_eq_left (by omega)]
    have nothing := drop_of_length_le size'.le
    have whole : line ++ crlf ++ (after.take (size + 2) ++ framed) ++ t =
        line ++ crlf ++ (after.take (size + 2) ++ (framed ++ t)) := by simp
    rw [whole, chunkedScan_of_chunk found' parsed positive, if_neg small, if_neg there', mark', marked, if_neg mark,
      if_neg fits, take', taken, drop', nothing]
    exact ends avail' t

lemma chunkedScan_avail {avail : Nat} (fits : avail ≤ asyncStashMax) (out buf : Bytes) :
    chunkedScan avail out buf = chunkedScan 0 out buf := by
  fun_induction chunkedScan avail out buf with
  | case1 out buf missing beyond => omega
  | case2 out buf missing within => rw [chunkedScan_of_none missing, if_neg (by omega)]
  | case3 out buf line after found bad => rw [chunkedScan_of_bad found bad]
  | case4 out buf line after found zero trailers => rw [chunkedScan_of_zero found zero, trailers]
  | case5 out buf line after found zero rest trailers => rw [chunkedScan_of_zero found zero, trailers]
  | case6 out buf line after found size positive parsed large =>
    rw [chunkedScan_of_chunk found parsed positive, if_pos large]
  | case7 out buf line after found size positive parsed small short =>
    rw [chunkedScan_of_chunk found parsed positive, if_neg small, if_pos short]
  | case8 out buf line after found size positive parsed small there mark =>
    rw [chunkedScan_of_chunk found parsed positive, if_neg small, if_neg there, if_pos mark]
  | case9 out buf line after found size positive parsed small there mark large =>
    rw [chunkedScan_of_chunk found parsed positive, if_neg small, if_neg there, if_neg mark, if_pos large]
  | case10 out buf line after found size positive parsed small there mark room ih =>
    rw [chunkedScan_of_chunk found parsed positive, if_neg small, if_neg there, if_neg mark, if_neg room, ih]

lemma chunkedScan_malformed (broken : chunkedScan 0 out buf = .malformed) (t : Bytes) :
    chunkedScan 0 out (buf ++ t) = .malformed := by
  generalize none : 0 = avail at broken
  fun_induction chunkedScan avail out buf with
  | case1 out buf missing beyond => subst none; exact absurd beyond (by decide)
  | case2 | case4 | case5 | case7 => cases broken
  | case3 out buf line after found bad => rw [chunkedScan_of_bad (cut_append t found) bad]
  | case6 out buf line after found size positive parsed large =>
    rw [chunkedScan_of_chunk (cut_append t found) parsed positive, if_pos large]
  | case8 out buf line after found size positive parsed small there mark =>
    obtain ⟨there', mark', -⟩ := chunk_append there t
    rw [chunkedScan_of_chunk (cut_append t found) parsed positive, if_neg small, if_neg there', mark', if_pos mark]
  | case9 out buf line after found size positive parsed small there mark large =>
    obtain ⟨there', mark', -⟩ := chunk_append there t
    rw [chunkedScan_of_chunk (cut_append t found) parsed positive, if_neg small, if_neg there', mark', if_neg mark,
      if_pos large]
  | case10 out buf line after found size positive parsed small there mark room ih =>
    obtain ⟨there', mark', take', drop'⟩ := chunk_append there t
    rw [chunkedScan_of_chunk (cut_append t found) parsed positive, if_neg small, if_neg there', mark', if_neg mark,
      if_neg room, take', drop']
    exact ih broken

structure Reader where
  offset : Nat
  rest : Bytes
  incoming : List Bytes
  deriving DecidableEq

namespace Reader

def avail (r : Reader) : Nat := r.offset + r.rest.length

def stream (r : Reader) : Bytes := r.rest ++ r.incoming.flatten

def recv (cap : Nat) (r : Reader) : Option Reader :=
  if r.avail ≥ cap - 1 then none
  else
    match r.incoming with
    | [] | [] :: _ => none
    | (c :: seg) :: segs =>
      let space := cap - 1 - r.avail
      let left := (c :: seg).drop space
      some { r with
        rest := r.rest ++ (c :: seg).take space
        incoming := if left = [] then segs else left :: segs }

variable {cap : Nat} {r r' : Reader}

lemma recv_flatten (received : r.recv cap = some r') :
    ∃ got, got ≠ [] ∧ r'.rest = r.rest ++ got ∧ r.incoming.flatten = got ++ r'.incoming.flatten ∧ r'.offset = r.offset := by
  unfold recv at received
  split at received
  · cases received
  split at received
  · cases received
  · cases received
  rename_i c seg segs incoming
  cases received
  refine ⟨(c :: seg).take (cap - 1 - r.avail), ?_, rfl, ?_, rfl⟩
  · obtain ⟨n, positive⟩ : ∃ n, cap - 1 - r.avail = n + 1 := ⟨cap - 1 - r.avail - 1, by omega⟩
    rw [positive]
    exact cons_ne_nil c _
  rw [incoming]
  split
  next nothing =>
    rw [flatten_cons, ← take_append_drop (cap - 1 - r.avail) (c :: seg), nothing, append_nil,
      take_take, Nat.min_self]
  · rw [flatten_cons, flatten_cons, ← append_assoc, take_append_drop]

def await (cap : Nat) (enough : Bytes → Bool) (r : Reader) : Option Reader :=
  if enough r.rest then some r
  else
    match _received : r.recv cap with
    | none => none
    | some r' => r'.await cap enough
termination_by r.incoming.flatten.length
decreasing_by
  obtain ⟨got, nonempty, -, same, -⟩ := recv_flatten _received
  rw [same, length_append]
  have := length_pos_iff.mpr nonempty
  omega

def advance (n : Nat) (r : Reader) : Reader := { r with offset := r.offset + n, rest := r.rest.drop n }

def readLine (cap : Nat) (r : Reader) : Option (Bytes × Reader) := do
  let r ← r.await cap fun buf => (cut crlf buf).isSome
  let (line, _) ← cut crlf r.rest
  some (line, r.advance (line.length + 2))

lemma await_stream {enough : Bytes → Bool} (awaited : r.await cap enough = some r') :
    r'.stream = r.stream ∧ r'.offset = r.offset ∧ enough r'.rest := by
  fun_induction await cap enough r with
  | case1 r ready =>
    cases awaited
    exact ⟨rfl, rfl, ready⟩
  | case2 r waiting failed => cases awaited
  | case3 r waiting next received ih =>
    obtain ⟨stream, offset, ready⟩ := ih awaited
    obtain ⟨got, -, rest, incoming, same⟩ := recv_flatten received
    refine ⟨?_, offset.trans same, ready⟩
    rw [stream, Reader.stream, Reader.stream, rest, incoming, append_assoc]

lemma readLine_spec (read : r.readLine cap = some (line, r')) :
    ∃ r1 after, r.await cap (fun buf => (cut crlf buf).isSome) = some r1 ∧ cut crlf r1.rest = some (line, after) ∧
      r' = r1.advance (line.length + 2) ∧ r'.rest = after := by
  obtain ⟨r1, awaited, read⟩ := Option.bind_eq_some_iff.mp read
  obtain ⟨⟨found, after⟩, here, read⟩ := Option.bind_eq_some_iff.mp read
  cases read
  refine ⟨r1, after, awaited, here, rfl, ?_⟩
  have behind : (line ++ crlf).length = line.length + 2 := by simp [crlf]
  rw [advance, eq_of_cut here, ← behind, drop_left]

lemma readLine_stream (read : r.readLine cap = some (line, r')) : r.stream = line ++ crlf ++ r'.stream := by
  obtain ⟨r1, after, awaited, here, rfl, rest⟩ := readLine_spec read
  rw [← (await_stream awaited).1, stream, stream, rest, ← append_assoc, ← eq_of_cut here]
  rfl

def readTrailers (cap : Nat) (r : Reader) : Option Reader :=
  if r.rest.length < 2 then some r
  else if crlf <+: r.rest then some (r.advance 2)
  else
    match _read : r.readLine cap with
    | none => none
    | some (_, r') => r'.readTrailers cap
termination_by r.stream.length
decreasing_by rw [readLine_stream _read]; simp [crlf]; omega

def readChunks (cap : Nat) (out : Bytes) (r : Reader) : Option (Bytes × Reader) :=
  match _read : r.readLine cap with
  | none => none
  | some (line, r1) =>
    match parseChunkSize line with
    | none => none
    | some 0 => (r1.readTrailers cap).map fun r2 => (out, r2)
    | some size =>
      if size > maxBodySize ∨ out.length + size > maxBodySize then none
      else
        match _awaited : r1.await cap fun buf => size + 2 ≤ buf.length with
        | none => none
        | some r2 =>
          if (r2.rest.drop size).take 2 ≠ crlf then none
          else (r2.advance (size + 2)).readChunks cap (out ++ r2.rest.take size)
termination_by r.stream.length
decreasing_by
  have same := congrArg List.length (await_stream _awaited).1
  have read := congrArg List.length (readLine_stream _read)
  simp only [stream, advance, length_append, length_drop, crlf, length_cons] at same read ⊢
  omega

end Reader

def readChunkedBody (cap : Nat) (buf : Bytes) (segs : List Bytes) : Option (Bytes × Bytes) :=
  (Reader.readChunks cap [] ⟨0, buf, segs⟩).map fun (body, r) => (body, r.stream)

end Cwist.Http
