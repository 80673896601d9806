import Cwist.Grpc.Server.Inbound

namespace Cwist.Grpc.Server
open H2 (getBytes)
open Incremental List Decoder

variable (inflate : Bytes → Except InflateError Bytes)

def frameLength (s : Bytes) : Nat := getBytes ((s.drop 1).take 4)

def frameFlag (s : Bytes) : Nat := (s.getD 0 0).toNat

def BadHeader (s : Bytes) : Prop := frameFlag s > 1 ∨ frameLength s > init.maxMessageSize

instance (s : Bytes) : Decidable (BadHeader s) := inferInstanceAs (Decidable (_ ∨ _))

def message (gzip : Bool) (s : Bytes) : Verdict Unit UInt8 Bytes Unit :=
  if s.length < 5 then .more
  else if BadHeader s then .fail ()
  else if s.length < 5 + frameLength s then .more
  else
    match messageInflate inflate gzip (frameFlag s, (s.drop 5).take (frameLength s)) with
    | .ok data => .item data () (s.drop (5 + frameLength s))
    | .error _ => .fail ()

variable {gzip : Bool} {s : Session} {body rest : Bytes} {d : Decoder} {payload : Bytes} {input : Bytes} {flag : Nat}

lemma message_shorter {s data : Bytes} {u : Unit} (said : message inflate gzip s = .item data u rest) :
    rest.length < s.length := by
  unfold message at said
  split at said
  · cases said
  split at said
  · cases said
  split at said
  · cases said
  split at said
  · cases said
    rw [length_drop]
    omega
  · cases said

def messageReader (gzip : Bool) : Step Unit UInt8 Bytes Unit where
  run _ s := message inflate gzip s
  shorter := message_shorter inflate

lemma frameFlag_append {s : Bytes} (header : 5 ≤ s.length) (t : Bytes) : frameFlag (s ++ t) = frameFlag s := by
  match s with
  | b :: s => rfl

lemma frameLength_append {s : Bytes} (header : 5 ≤ s.length) (t : Bytes) : frameLength (s ++ t) = frameLength s := by
  unfold frameLength
  rw [drop_append_of_le_length (by omega), take_append_of_le_length (by rw [length_drop]; omega)]

lemma messageReader_steady (gzip : Bool) (u : Unit) (s : Bytes) : Steady (messageReader inflate gzip) u s := by
  rintro p t rfl
  change (∀ x q' rest, message inflate gzip p = .item x q' rest → message inflate gzip (p ++ t) = .item x q' (rest ++ t)) ∧
    ∀ e, message inflate gzip p = .fail e → message inflate gzip (p ++ t) = .fail e
  unfold message
  by_cases short : p.length < 5
  · simp only [if_pos short]
    exact ⟨nofun, nofun⟩
  have header : 5 ≤ p.length := by omega
  have same : BadHeader (p ++ t) ↔ BadHeader p := by
    rw [BadHeader, BadHeader, frameFlag_append header, frameLength_append header]
  have short' : ¬(p ++ t).length < 5 := by rw [length_append]; omega
  simp only [if_neg short, if_neg short', same, frameFlag_append header, frameLength_append header]
  by_cases bad : BadHeader p
  · simp only [if_pos bad]
    exact ⟨nofun, fun e fail => fail⟩
  simp only [if_neg bad]
  by_cases incomplete : p.length < 5 + frameLength p
  · simp only [if_pos incomplete]
    exact ⟨nofun, nofun⟩
  have complete : ¬(p ++ t).length < 5 + frameLength p := by rw [length_append]; omega
  rw [if_neg incomplete, if_neg complete, drop_append_of_le_length (by omega),
    take_append_of_le_length (by rw [length_drop]; omega), drop_append_of_le_length (by omega)]
  cases messageInflate inflate gzip (frameFlag p, (p.drop 5).take (frameLength p)) with
  | error e => exact ⟨nofun, fun e fail => fail⟩
  | ok data =>
    refine ⟨fun x q' rest item => ?_, nofun⟩
    cases item
    rfl

def pending (d : Decoder) : Bytes := d.header ++ d.payload

structure Ready (d : Decoder) : Prop where
  limit : d.maxMessageSize = init.maxMessageSize
  at_ : d.header.length < 5 ∧ d.payload = [] ∧ d.payloadLen = 0 ∨
    d.header.length = 5 ∧ ¬BadHeader d.header ∧ d.compressed = frameFlag d.header ∧ d.payloadLen = frameLength d.header ∧
      d.payload.length < d.payloadLen

inductive Turn (s : Bytes) : Bool × Decoder × Option Bytes × Bytes → Prop where
  | bad {d : Decoder} {message : Option Bytes} {rest : Bytes} (header : 5 ≤ s.length) (bad : BadHeader s) :
    Turn s (false, d, message, rest)
  | part {d : Decoder} (ready : Ready d) (kept : pending d = s)
    (missing : s.length < 5 ∨ ¬BadHeader s ∧ s.length < 5 + frameLength s) : Turn s (true, d, none, [])
  | whole {d : Decoder} (ready : Ready d) (empty : pending d = []) (header : 5 + frameLength s ≤ s.length)
    (good : ¬BadHeader s) (flag : d.compressed = frameFlag s) :
    Turn s (true, d, some ((s.drop 5).take (frameLength s)), s.drop (5 + frameLength s))

lemma feedPayload_turn (limit : d.maxMessageSize = init.maxMessageSize)
    (header : d.header.length = 5) (good : ¬BadHeader d.header) (flag : d.compressed = frameFlag d.header)
    (length : d.payloadLen = frameLength d.header) (fits : d.payload.length ≤ d.payloadLen) :
    Turn (d.header ++ (d.payload ++ input)) (true, d.feedPayload input) := by
  have five := header.ge
  have sameFlag := frameFlag_append five (d.payload ++ input)
  have sameLength := frameLength_append five (d.payload ++ input)
  have good' : ¬BadHeader (d.header ++ (d.payload ++ input)) := by rwa [BadHeader, sameFlag, sameLength]
  have size : (d.header ++ (d.payload ++ input)).length = 5 + (d.payload.length + input.length) := by
    rw [length_append, header, length_append]
  unfold feedPayload
  dsimp only
  by_cases missing : d.payload.length + input.length < d.payloadLen
  · have all : min (d.payloadLen - d.payload.length) input.length = input.length := by omega
    rw [all, take_length, drop_length, if_pos (by rw [length_append]; omega)]
    refine .part ⟨limit, .inr ⟨header, good, flag, length, ?_⟩⟩ rfl (.inr ⟨good', ?_⟩)
    · simpa using missing
    · omega
  have some_ : min (d.payloadLen - d.payload.length) input.length = d.payloadLen - d.payload.length := by omega
  rw [some_, if_neg (by rw [length_append, length_take]; omega)]
  have front : (d.header ++ (d.payload ++ input)).drop 5 = d.payload ++ input := by
    rw [← header, drop_left]
  have payload : d.payload ++ input.take (d.payloadLen - d.payload.length) =
      ((d.header ++ (d.payload ++ input)).drop 5).take (frameLength (d.header ++ (d.payload ++ input))) := by
    rw [front, sameLength, ← length, take_append, take_of_length_le fits]
  have rest : input.drop (d.payloadLen - d.payload.length) =
      (d.header ++ (d.payload ++ input)).drop (5 + frameLength (d.header ++ (d.payload ++ input))) := by
    rw [← drop_drop, front, sameLength, ← length, drop_append, drop_of_length_le fits, nil_append]
  rw [payload, rest]
  refine .whole ⟨limit, .inl ⟨by simp, rfl, rfl⟩⟩ rfl (by omega) good' (by rw [sameFlag]; exact flag)

lemma Ready.turn (ready : Ready d) (input : Bytes) : Turn (pending d ++ input) (d.feedStep input) := by
  obtain ⟨limit, ⟨short, empty, zero⟩ | ⟨header, good, flag, length, fits⟩⟩ := ready
  · unfold feedStep
    rw [if_pos short, pending, empty, append_nil]
    dsimp only
    by_cases missing : d.header.length + input.length < 5
    · have all : min (5 - d.header.length) input.length = input.length := by omega
      rw [all, take_length, drop_length, if_pos (by rw [length_append]; omega)]
      refine .part ⟨limit, .inl ⟨by simpa using missing, rfl, zero⟩⟩ ?_ (.inl (by simpa using missing))
      simp [pending]
    have some_ : min (5 - d.header.length) input.length = 5 - d.header.length := by omega
    rw [some_, if_neg (by rw [length_append, length_take]; omega)]
    generalize taken : d.header ++ input.take (5 - d.header.length) = header
    have five : header.length = 5 := by rw [← taken, length_append, length_take]; omega
    have whole : d.header ++ input = header ++ ([] ++ input.drop (5 - d.header.length)) := by
      rw [← taken, nil_append, append_assoc, take_append_drop]
    have flag := frameFlag_append five.ge ([] ++ input.drop (5 - d.header.length))
    have length := frameLength_append five.ge ([] ++ input.drop (5 - d.header.length))
    have parsed : getBytes (header.drop 1) = frameLength header := by
      rw [frameLength, take_of_length_le (by rw [length_drop]; omega)]
    rw [whole, limit, parsed]
    by_cases bad : BadHeader header
    · refine (if_pos bad).symm ▸ .bad (by rw [length_append]; omega) ?_
      rwa [BadHeader, flag, length]
    · refine (if_neg bad).symm ▸ ?_
      exact @feedPayload_turn ⟨init.maxMessageSize, header, frameFlag header, [], frameLength header⟩ _ rfl five bad
        rfl rfl (Nat.zero_le _)
  · unfold feedStep
    rw [if_neg (by omega), pending, append_assoc]
    exact feedPayload_turn limit header good flag length fits.le

lemma Ready.more (ready : Ready d) (gzip : Bool) : message inflate gzip (pending d) = .more := by
  obtain ⟨-, ⟨short, empty, -⟩ | ⟨header, good, -, length, fits⟩⟩ := ready
  · rw [message, pending, empty, append_nil, if_pos short]
  have sameFlag := frameFlag_append header.ge d.payload
  have sameLength := frameLength_append header.ge d.payload
  have good' : ¬BadHeader (pending d) := by rwa [pending, BadHeader, sameFlag, sameLength]
  have size : (pending d).length = 5 + d.payload.length := by rw [pending, length_append, header]
  rw [message, if_neg (by omega), if_neg good', if_pos]
  rw [size, pending]
  omega

lemma Ready.short (ready : Ready d) (input : Bytes) : (pending d).length < 5 + frameLength (pending d ++ input) := by
  obtain ⟨-, ⟨short, empty, -⟩ | ⟨header, -, -, length, fits⟩⟩ := ready
  · rw [pending, empty, append_nil]
    omega
  · rw [pending, append_assoc, frameLength_append header.ge, length_append]
    omega

structure Fed (s : Session) (o : Outcome Unit UInt8 Bytes Unit) (ok : Bool) (s' : Session) : Prop where
  queue : s'.queue = s.queue ++ o.items
  gzip : s'.gzip = s.gzip
  alive : s'.cancelled = false
  open_ : s'.eof = false
  verdict : ok = o.failure.isNone
  ready : ok → Ready s'.decoder ∧ pending s'.decoder = o.rest

lemma Session.decode_eq (alive : s.cancelled = false) (open_ : s.eof = false) (flag : Nat) (payload : Bytes) :
    s.decode inflate flag payload =
      match messageInflate inflate s.gzip (flag, payload) with
      | .ok data => some { s with queue := s.queue ++ [data], decoded := s.decoded ++ [data] }
      | .error _ => none := by
  unfold decode messageInflate push
  rw [alive, open_]
  by_cases plain : flag = 0
  · simp [plain]
  · cases s.gzip with
    | false => simp [plain]
    | true => cases inflated : inflate payload <;> simp [plain, inflated]

lemma Session.feedLoop_fed {turns : Nat} (ready : Ready s.decoder)
    (alive : s.cancelled = false) (open_ : s.eof = false) (enough : input.length ≤ turns) :
    ∃ ok s', s.feedLoop inflate turns input = (ok, s') ∧
      Fed s (drain (messageReader inflate s.gzip) () (pending s.decoder ++ input)) ok s' := by
  induction turns generalizing s input with
  | zero =>
    have none := length_eq_zero_iff.mp (Nat.le_zero.mp enough)
    subst none
    have said := ready.more inflate s.gzip
    refine ⟨true, s, rfl, ?_⟩
    rw [append_nil, drain_more said]
    exact ⟨(append_nil _).symm, rfl, alive, open_, rfl, fun _ => ⟨ready, rfl⟩⟩
  | succ turns ih =>
    rw [feedLoop]
    by_cases none : input = []
    · have said := ready.more inflate s.gzip
      refine ⟨true, s, if_pos none, ?_⟩
      rw [none, append_nil, drain_more said]
      exact ⟨(append_nil _).symm, rfl, alive, open_, rfl, fun _ => ⟨ready, rfl⟩⟩
    rw [if_neg none]
    have turn := ready.turn input
    have size : (pending s.decoder ++ input).length = (pending s.decoder).length + input.length := length_append
    have short := ready.short input
    generalize pending s.decoder ++ input = whole at turn size short ⊢
    generalize s.decoder.feedStep input = result at turn ⊢
    have read : (messageReader inflate s.gzip).run () whole = message inflate s.gzip whole := rfl
    unfold message at read
    cases turn with
    | bad header bad =>
      rw [if_neg (by omega), if_pos bad] at read
      rw [drain_fail read]
      exact ⟨false, _, rfl, (append_nil _).symm, rfl, alive, open_, rfl, nofun⟩
    | @part d ready' kept missing =>
      have said : (messageReader inflate s.gzip).run () whole = .more := by
        rcases missing with few | ⟨good, few⟩
        · rw [read, if_pos few]
        · rw [read]
          split <;> rfl
      have done : feedLoop inflate turns { s with decoder := d } [] = (true, { s with decoder := d }) := by
        cases turns <;> simp [feedLoop]
      rw [drain_more said]
      exact ⟨true, _, done, (append_nil _).symm, rfl, alive, open_, rfl, fun _ => ⟨ready', kept⟩⟩
    | @whole d ready' empty header good flag =>
      rw [if_neg (by omega), if_neg good, if_neg (by omega)] at read
      have decoded := @Session.decode_eq inflate { s with decoder := d } alive open_ (frameFlag whole)
        ((whole.drop 5).take (frameLength whole))
      dsimp only at decoded ⊢
      rw [flag, decoded]
      cases inflated : messageInflate inflate s.gzip (frameFlag whole, (whole.drop 5).take (frameLength whole)) with
      | error e =>
        rw [inflated] at read
        rw [drain_fail read]
        exact ⟨false, _, rfl, (append_nil _).symm, rfl, alive, open_, rfl, nofun⟩
      | ok data =>
        rw [inflated] at read
        rw [drain_item read]
        obtain ⟨ok, s', loop, fed⟩ := @ih { s with decoder := d, queue := s.queue ++ [data], decoded := s.decoded ++ [data] }
          (whole.drop (5 + frameLength whole)) ready' alive open_ (by rw [length_drop]; omega)
        rw [empty] at fed
        refine ⟨ok, s', loop, ?_, fed.gzip, fed.alive, fed.open_, fed.verdict, fed.ready⟩
        rw [fed.queue, append_assoc]
        rfl

lemma Session.fail_inboundSide (s : Session) (status : Status) (message : Bytes) :
    (s.fail status message).inboundSide = (s.queue, s.decoded, s.received, true) := by
  rw [fail, sendTrailers_inboundSide]
  rfl

lemma Session.inbound_fed (ready : Ready s.decoder) (alive : s.cancelled = false) (open_ : s.eof = false)
    (frames : List Bytes) : (s.inbound inflate frames).queue =
        s.queue ++ (drain (messageReader inflate s.gzip) () (pending s.decoder ++ frames.flatten)).items ∧
      (s.inbound inflate frames).cancelled =
        (drain (messageReader inflate s.gzip) () (pending s.decoder ++ frames.flatten)).failure.isSome := by
  induction frames generalizing s with
  | nil =>
    have said := ready.more inflate s.gzip
    rw [flatten_nil, append_nil, drain_more said]
    exact ⟨(append_nil _).symm, alive⟩
  | cons data frames ih =>
    obtain ⟨ok, s', loop, fed⟩ := s.feedLoop_fed inflate ready alive open_ (le_refl data.length)
    have whole := @drain_append _ _ _ _ (messageReader inflate s.gzip) () (pending s.decoder ++ data) frames.flatten
      fun u rest _ => messageReader_steady inflate s.gzip u rest
    rw [inbound, onData, loop, flatten_cons, ← append_assoc]
    cases ok with
    | true =>
      have going := Option.isNone_iff_eq_none.mp fed.verdict.symm
      obtain ⟨ready', rest⟩ := fed.ready rfl
      obtain ⟨queue, cancelled⟩ := ih ready' fed.alive fed.open_
      obtain ⟨split, -⟩ := whole.1 going
      rw [if_neg (by simp [fed.alive]), queue, cancelled, split, fed.gzip, rest, fed.queue, append_assoc]
      exact ⟨rfl, rfl⟩
    | false =>
      obtain ⟨e, failed⟩ := Option.isSome_iff_exists.mp (by simpa using fed.verdict)
      have failing : ∀ status text, (s'.fail status text).queue = s.queue ++
          (drain (messageReader inflate s.gzip) () (pending s.decoder ++ data)).items ∧ (s'.fail status text).cancelled := by
        intro status text
        have side := s'.fail_inboundSide status text
        exact ⟨(congrArg Prod.fst side).trans fed.queue, congrArg (·.2.2.2) side⟩
      rw [whole.2 e failed]
      dsimp only
      split <;> rw [if_pos (failing _ _).2]
      · exact failing _ _
      · exact failing _ _

def splitMessages (body : Bytes) : List (Nat × Bytes) × Bytes :=
  match _decoded : decodeNextMessage body with
  | none => ([], body)
  | some (flag, payload, rest) => ((flag, payload) :: (splitMessages rest).1, (splitMessages rest).2)
termination_by body.length
decreasing_by all_goals exact decodeNextMessage_shorter _decoded

def Inflates (gzip : Bool) (message : Nat × Bytes) : Prop := (messageInflate inflate gzip message).isOk

def Good (gzip : Bool) (message : Nat × Bytes) : Prop :=
  message.1 ≤ 1 ∧ message.2.length ≤ init.maxMessageSize ∧ Inflates inflate gzip message

def BadTail (tail : Bytes) : Prop := 5 ≤ tail.length ∧ BadHeader tail

lemma splitMessages_of_none (missing : decodeNextMessage body = none) : splitMessages body = ([], body) := by
  rw [splitMessages]
  split
  · rfl
  next found =>
    rw [missing] at found
    cases found

lemma splitMessages_of_some (found : decodeNextMessage body = some (flag, payload, rest)) :
    splitMessages body = ((flag, payload) :: (splitMessages rest).1, (splitMessages rest).2) := by
  rw [splitMessages]
  split
  next missing =>
    rw [found] at missing
    cases missing
  next here =>
    rw [found] at here
    cases here
    rfl

lemma decodeMessages_eq (body : Bytes) :
    decodeMessages body = if (splitMessages body).2 = [] then some (splitMessages body).1 else none := by
  fun_induction decodeMessages body with
  | case1 => rw [splitMessages_of_none rfl]; rfl
  | case2 body nonempty missing => rw [splitMessages_of_none missing, if_neg nonempty]
  | case3 body nonempty flag payload rest found ih =>
    rw [splitMessages_of_some found, ih]
    split <;> rfl

lemma decodeNextMessage_none (missing : decodeNextMessage body = none) :
    body.length < 5 ∨ body.length < 5 + frameLength body := by
  unfold decodeNextMessage at missing
  split at missing
  next short => exact .inl short
  dsimp only at missing
  split at missing
  · unfold frameLength
    omega
  · cases missing

lemma decodeNextMessage_some (found : decodeNextMessage body = some (flag, payload, rest)) :
    5 + frameLength body ≤ body.length ∧ flag = frameFlag body ∧ payload = (body.drop 5).take (frameLength body) ∧
      rest = body.drop (5 + frameLength body) ∧ payload.length = frameLength body := by
  unfold decodeNextMessage at found
  split at found
  · cases found
  dsimp only at found
  split at found
  · cases found
  cases found
  change _ ∧ _ ∧ _ ∧ _ ∧ ((body.drop 5).take (frameLength body)).length = frameLength body
  have fits : 5 + frameLength body ≤ body.length := by unfold frameLength; omega
  refine ⟨fits, rfl, rfl, rfl, ?_⟩
  rw [length_take, length_drop]
  omega

lemma drain_messages (gzip : Bool) (body : Bytes) : ((drain (messageReader inflate gzip) () body).failure = none ↔
        (∀ m ∈ (splitMessages body).1, Good inflate gzip m) ∧ ¬BadTail (splitMessages body).2) ∧
      ((drain (messageReader inflate gzip) () body).failure = none →
        inflateAll inflate gzip (splitMessages body).1 = .ok (drain (messageReader inflate gzip) () body).items) ∧
      ((drain (messageReader inflate gzip) () body).items = [] ↔
        ∀ m, (splitMessages body).1.head? = some m → ¬Good inflate gzip m) := by
  fun_induction splitMessages body with
  | case1 body missing =>
    have read : (messageReader inflate gzip).run () body = message inflate gzip body := rfl
    unfold message at read
    have few := decodeNextMessage_none missing
    by_cases bad : BadTail body
    · rw [if_neg (by have := bad.1; omega), if_pos bad.2] at read
      rw [drain_fail read]
      simp [bad]
    have said : (messageReader inflate gzip).run () body = .more := by
      rw [read]
      by_cases short : body.length < 5
      · rw [if_pos short]
      · rw [if_neg short, if_neg fun header => bad ⟨by omega, header⟩, if_pos (by omega)]
    rw [drain_more said]
    simp [bad, inflateAll]
  | case2 body flag payload rest found ih =>
    obtain ⟨whole, rfl, rfl, rfl, length⟩ := decodeNextMessage_some found
    obtain ⟨none_iff, items, empty⟩ := ih
    have read : (messageReader inflate gzip).run () body = message inflate gzip body := rfl
    unfold message at read
    rw [if_neg (by omega)] at read
    by_cases bad : BadHeader body
    · have notGood : ¬Good inflate gzip (frameFlag body, (body.drop 5).take (frameLength body)) := by
        rintro ⟨flag, size, -⟩
        rcases bad with large | long
        · exact absurd flag (by omega)
        · rw [length] at size
          omega
      rw [if_pos bad] at read
      rw [drain_fail read]
      simp [notGood]
    rw [if_neg bad, if_neg (by omega)] at read
    have sound : frameFlag body ≤ 1 ∧ ((body.drop 5).take (frameLength body)).length ≤ init.maxMessageSize := by
      rw [BadHeader] at bad
      omega
    cases inflated : messageInflate inflate gzip (frameFlag body, (body.drop 5).take (frameLength body)) with
    | error e =>
      have notGood : ¬Good inflate gzip (frameFlag body, (body.drop 5).take (frameLength body)) := by
        rintro ⟨-, -, ok⟩
        rw [Inflates, inflated] at ok
        cases ok
      rw [inflated] at read
      rw [drain_fail read]
      simp [notGood]
    | ok data =>
      have good : Good inflate gzip (frameFlag body, (body.drop 5).take (frameLength body)) := by
        refine ⟨sound.1, sound.2, ?_⟩
        rw [Inflates, inflated]
        rfl
      rw [inflated] at read
      rw [drain_item read]
      refine ⟨?_, fun going => ?_, ?_⟩
      · exact none_iff.trans (by simp [good])
      · rw [inflateAll, inflated]
        rw [items going]
        rfl
      · exact iff_of_false (cons_ne_nil _ _) (by simp [good])

lemma inflateAll_isOk (gzip : Bool) (messages : List (Nat × Bytes)) :
    (inflateAll inflate gzip messages).isOk ↔ ∀ m ∈ messages, Inflates inflate gzip m := by
  induction messages with
  | nil => simp [inflateAll, Except.isOk, Except.toBool]
  | cons message messages ih =>
    rw [inflateAll, forall_mem_cons, ← ih, Inflates]
    cases messageInflate inflate gzip message with
    | error e => simp [Except.isOk, Except.toBool]
    | ok data => cases inflateAll inflate gzip messages <;> simp [Except.isOk, Except.toBool]

lemma dispatchStream_isOk (gzip : Bool) (body : Bytes) : (dispatchStream inflate gzip body).isOk ↔
      body ≠ [] ∧ (splitMessages body).2 = [] ∧ ∀ m ∈ (splitMessages body).1, Inflates inflate gzip m := by
  unfold dispatchStream
  by_cases nonempty : body = []
  · simp [nonempty, Except.isOk, Except.toBool]
  rw [if_neg nonempty, decodeMessages_eq]
  by_cases ends : (splitMessages body).2 = []
  · rw [if_pos ends, ← inflateAll_isOk]
    dsimp only
    cases inflateAll inflate gzip (splitMessages body).1 with
    | ok messages => simp [nonempty, ends, Except.isOk, Except.toBool]
    | error e => cases e <;> simp [Except.isOk, Except.toBool]
  · simp [ends, Except.isOk, Except.toBool]

lemma dispatchStream_messages {messages : List Bytes} (nonempty : body ≠ [])
    (ends : (splitMessages body).2 = []) (inflated : inflateAll inflate gzip (splitMessages body).1 = .ok messages) :
    dispatchStream inflate gzip body = .ok messages := by
  rw [dispatchStream, if_neg nonempty, decodeMessages_eq, if_pos ends]
  dsimp only
  rw [inflated]

/-- Both hand the same messages to the handler, and both reject the body or none. -/
def Agree (session : Session) (dispatch : Except (Status × Bytes) (List Bytes)) : Prop :=
  session.queue = dispatch.toOption.getD [] ∧ (session.cancelled ↔ ¬dispatch.isOk)

def RejectsFirst (gzip : Bool) (body : Bytes) : Prop :=
  match splitMessages body with
  | ([], tail) => BadTail tail
  | (message :: _, _) => ¬Good inflate gzip message

lemma rejectsFirst_iff
    (bad : ¬((∀ m ∈ (splitMessages body).1, Good inflate gzip m) ∧ ¬BadTail (splitMessages body).2)) :
    RejectsFirst inflate gzip body ↔ ∀ m, (splitMessages body).1.head? = some m → ¬Good inflate gzip m := by
  unfold RejectsFirst
  split
  next split =>
    rw [split] at bad ⊢
    simpa using bad
  next split =>
    rw [split]
    simp

lemma not_rejectsFirst (good : ∀ m ∈ (splitMessages body).1, Good inflate gzip m)
    (tail : ¬BadTail (splitMessages body).2) : ¬RejectsFirst inflate gzip body := by
  unfold RejectsFirst
  split
  next split => rwa [split] at tail
  next message messages _ split =>
    rw [split] at good
    exact not_not.mpr (good message mem_cons_self)

/-- However a body is cut into DATA frames, the session and the buffered dispatch agree if and only if it is made of messages
that the session takes, or is rejected by the session with its first message and by the dispatch for any of them or for what is
left behind them. -/
theorem paths_agree_iff (gzip respGzip : Bool) (frames : List Bytes) :
    Agree ((Session.init gzip respGzip).inbound inflate frames) (dispatchStream inflate gzip frames.flatten) ↔
      (frames.flatten ≠ [] ∧ (splitMessages frames.flatten).2 = [] ∧
          ∀ m ∈ (splitMessages frames.flatten).1, Good inflate gzip m) ∨ RejectsFirst inflate gzip frames.flatten ∧
          ((splitMessages frames.flatten).2 ≠ [] ∨
            ∃ m ∈ (splitMessages frames.flatten).1, ¬Inflates inflate gzip m) := by
  have ready : Ready (Session.init gzip respGzip).decoder := ⟨rfl, .inl ⟨Nat.zero_lt_succ 4, rfl, rfl⟩⟩
  obtain ⟨queue, cancelled⟩ := Session.inbound_fed inflate ready rfl rfl frames
  change _ = [] ++ (drain (messageReader inflate gzip) () ([] ++ frames.flatten)).items at queue
  change _ = (drain (messageReader inflate gzip) () ([] ++ frames.flatten)).failure.isSome at cancelled
  rw [nil_append, nil_append] at queue
  rw [nil_append] at cancelled
  obtain ⟨none_iff, items, empty⟩ := drain_messages inflate gzip frames.flatten
  have ok_iff := dispatchStream_isOk inflate gzip frames.flatten
  rw [Agree, queue, cancelled]
  generalize frames.flatten = body at *
  cases failed : (drain (messageReader inflate gzip) () body).failure with
  | none =>
    obtain ⟨good, tail⟩ := none_iff.mp failed
    constructor
    · rintro ⟨-, verdict⟩
      obtain ⟨nonempty, ends, -⟩ := ok_iff.mp (by simpa using verdict)
      exact .inl ⟨nonempty, ends, good⟩
    · rintro (⟨nonempty, ends, -⟩ | ⟨first, -⟩)
      · rw [dispatchStream_messages inflate nonempty ends (items failed)]
        exact ⟨rfl, by simp [Except.isOk, Except.toBool]⟩
      · exact absurd first (not_rejectsFirst inflate good tail)
  | some e =>
    have bad := mt none_iff.mpr (by rw [failed]; nofun)
    have first_iff := rejectsFirst_iff inflate bad
    rw [← empty] at first_iff
    constructor
    · rintro ⟨same, verdict⟩
      have error := verdict.mp rfl
      have nothing : (drain (messageReader inflate gzip) () body).items = [] := by
        rw [same]
        cases answered : dispatchStream inflate gzip body with
        | error e => rfl
        | ok messages =>
          rw [answered] at error
          exact absurd rfl error
      refine .inr ⟨first_iff.mpr nothing, ?_⟩
      by_contra fine
      rw [not_or, not_not] at fine
      have nonempty : body ≠ [] := by
        rintro rfl
        rw [splitMessages_of_none rfl] at bad
        exact bad ⟨nofun, fun tail => absurd tail.1 (by decide)⟩
      exact error (ok_iff.mpr ⟨nonempty, fine.1, fun m member => not_not.mp fun other => fine.2 ⟨m, member, other⟩⟩)
    · rintro (⟨-, ends, good⟩ | ⟨first, left⟩)
      · exact absurd ⟨good, fun tail => absurd tail.1 (by rw [ends]; decide)⟩ bad
      have error : ¬(dispatchStream inflate gzip body).isOk := by
        rw [ok_iff]
        rintro ⟨-, ends, all⟩
        rcases left with other | ⟨m, member, other⟩
        · exact other ends
        · exact other (all m member)
      refine ⟨?_, iff_of_true rfl error⟩
      rw [first_iff.mp first]
      cases answered : dispatchStream inflate gzip body with
      | error e => rfl
      | ok messages =>
        rw [answered] at error
        exact absurd rfl error

def noInflate (_ : Bytes) : Except InflateError Bytes := .error .corrupt

/-- A body that ends inside of a message: the dispatch rejects it and the session does not. -/
theorem truncated_body : ((Session.init false false).inbound noInflate [[0, 0, 0, 0, 1]]).cancelled = false ∧
      dispatchStream noInflate false [0, 0, 0, 0, 1] = .error (.invalidArgument, ascii "malformed gRPC stream frame") := by
  decide +kernel

end Cwist.Grpc.Server
