import Cwist.Grpc.Books

namespace Cwist.Grpc
open List Call

open H2 (Frame getBytes putU31)
open Trace (Extends)

def creditSlips : List Slip := [.lostIncrement, .lostDelta, .uncredited]

lemma lostWith_credit {streamId : Nat} {f : Frame} {s : Slip} (lost : s ∈ lostWith streamId f) (credit : s ∈ creditSlips) :
    dataSize f ≠ 0 ∨ f.type = Frame.windowUpdate ∧ (f.streamId = 0 ∨ f.streamId = streamId) ∨ f.type = Frame.settings := by
  unfold lostWith at lost
  split at lost
  · rw [mem_singleton.mp lost] at credit
    exact absurd credit (by decide)
  split at lost
  next data =>
    split at lost
    · cases lost
    next some_ => exact .inl (by rwa [dataSize, if_pos data, ne_eq, length_eq_zero_iff])
  split at lost
  next update =>
    split at lost
    next mine => exact .inr (.inl ⟨update, mine⟩)
    · cases lost
  split at lost
  next settings => exact .inr (.inr settings)
  · cases lost

/-- The log of sights grows, and as long as they are sound no credit is lost. -/
structure Io.Explains (io io' : Io) : Prop where
  sights : io.sights <+: io'.sights
  credit : (∀ sight ∈ io'.sights, sight.Sound) → ∀ s ∈ creditSlips, s ∈ io'.slips → s ∈ io.slips

namespace Io.Explains

variable {io io' : Io}

lemma of_eq (sights : io'.sights = io.sights) (slips : io'.slips = io.slips) : io.Explains io' :=
  ⟨sights ▸ prefix_rfl, fun _ _ _ member => slips ▸ member⟩

lemma refl (io : Io) : io.Explains io := of_eq rfl rfl

lemma trans {io₁ io₂ io₃ : Io} (first : io₁.Explains io₂) (second : io₂.Explains io₃) : io₁.Explains io₃ where
  sights := first.sights.trans second.sights
  credit sound s credit member :=
    first.credit (fun sight old => sound sight (second.sights.subset old)) s credit (second.credit sound s credit member)

lemma note {slips : List Slip} (harmless : (∀ sight ∈ io.sights, sight.Sound) → ∀ s ∈ slips, s ∉ creditSlips) :
    io.Explains { io with slips := io.slips ++ slips } where
  sights := prefix_rfl
  credit sound s credit member :=
    (mem_append.mp member).resolve_right fun new => harmless sound s new credit

lemma writes {kind : Frame → Prop} (wrote : io.Writes kind io') : io.Explains io' where
  sights := wrote.sights ▸ prefix_rfl
  credit _ _ _ member := wrote.slips ▸ member

lemma got {f : Frame} {rest : Bytes} (tick : Nat) (sight : Sight) : io.Explains ((io.got f rest tick).see sight) :=
  ⟨prefix_append _ _, fun _ _ _ => id⟩

/-- A frame that is dropped in sight. -/
lemma drop {sight : Sight} {streamId : Nat} {f : Frame} (seen : sight ∈ io.sights)
    (lossless : sight.Sound → dataSize f = 0 ∧ ¬(f.type = Frame.windowUpdate ∧ (f.streamId = 0 ∨ f.streamId = streamId)) ∧
      f.type ≠ Frame.settings) : io.Explains (io.drop streamId f) := by
  refine note fun sound s lost credit => ?_
  obtain ⟨data, update, settings⟩ := lossless (sound sight seen)
  rcases lostWith_credit lost credit with some_ | mine | moves
  · exact some_ data
  · exact update mine
  · exact settings moves

end Io.Explains

/-- Reading the rest of a header block: frames come in, and control frames may go out. -/
structure Io.Reads (streamId : Nat) (io io' : Io) : Prop extends io.Explains io' where
  received : ∃ more, io'.received = io.received ++ more ∧ (.lostIncrement ∉ io'.slips → tally (grant streamId) more = 0)
  written : Extends (fun f => Control f.type) io.written io'.written
  slips : io.slips <+: io'.slips

variable {io : Io} {f : Frame}

namespace Io.Reads

variable {streamId : Nat} {rest : Bytes}

lemma note {slips : List Slip} (harmless : (∀ sight ∈ io.sights, sight.Sound) → ∀ s ∈ slips, s ∉ creditSlips) :
    io.Reads streamId { io with slips := io.slips ++ slips } :=
  ⟨.note harmless, ⟨[], (append_nil _).symm, fun _ => rfl⟩, .refl _ _, prefix_append _ _⟩

lemma chatter {io' : Io} (chat : io.Chatter io') : io.Reads streamId io' :=
  ⟨.writes chat, ⟨[], chat.received.trans (append_nil _).symm, fun _ => rfl⟩, chat.written,
    chat.slips ▸ prefix_rfl⟩

lemma take (n : Nat) : io.Reads streamId (io.take n) :=
  ⟨.of_eq rfl rfl, ⟨[], (append_nil _).symm, fun _ => rfl⟩, .refl _ _, prefix_rfl⟩

lemma got (tick : Nat) (none_ : grant streamId f = 0) : io.Reads streamId ((io.got f rest tick).see (.inBlock f)) :=
  ⟨.got tick _, ⟨[f], rfl, fun _ => by rw [tally_singleton, none_]⟩, .refl _ _, prefix_rfl⟩

lemma trans {io₁ io₂ io₃ : Io} (first : io₁.Reads streamId io₂) (second : io₂.Reads streamId io₃) :
    io₁.Reads streamId io₃ where
  toExplains := first.toExplains.trans second.toExplains
  received := by
    obtain ⟨more, received, free⟩ := first.received
    obtain ⟨more', received', free'⟩ := second.received
    refine ⟨more ++ more', by rw [received', received, append_assoc], fun counted => ?_⟩
    rw [tally_append, free' counted, free fun member => counted (second.slips.subset member)]
  written := first.written.trans second.written
  slips := first.slips.trans second.slips

lemma abandon : io.Reads streamId io.abandon := note fun _ => by decide

lemma dropped (tick : Nat) :
    io.Reads streamId (((io.got f rest tick).see (.inBlock f)).abandon.drop streamId f) where
  toExplains := by
    have seen : Sight.inBlock f ∈ ((io.got f rest tick).see (.inBlock f)).sights := mem_append_right _ mem_cons_self
    have read : io.Explains ((io.got f rest tick).see (.inBlock f)) := .got tick _
    have left : ((io.got f rest tick).see (.inBlock f)).Explains ((io.got f rest tick).see (.inBlock f)).abandon :=
      .note fun _ => by decide
    refine (read.trans left).trans (.drop seen fun continues => ?_)
    have continues : f.type = Frame.continuation := continues
    rw [dataSize, continues]
    exact ⟨if_neg (by decide), fun update => absurd update.1 (by decide), by decide⟩
  received := by
    refine ⟨[f], rfl, fun counted => ?_⟩
    exact not_not.mp fun some_ => counted (mem_append_right _ (lostIncrement_of_grant (.inr rfl) some_))
  written := .refl _ _
  slips := (prefix_append _ _).trans (prefix_append _ _)

lemma readContinuations (env : Env) (left : Nat) (io : Io) (block : Bytes) :
    io.Reads streamId (Client.readContinuations env streamId left io block).2 := by
  induction left generalizing io block with
  | zero => exact abandon
  | succ left ih =>
    unfold Client.readContinuations
    rcases readFrame_cases env io with ⟨f, rest, tick, read, -, -⟩ | ⟨n, after, read, chat⟩ <;> rw [read] <;> dsimp only
    · split
      · exact dropped tick
      rename_i fits
      simp only [not_or, not_not] at fits
      have continues : grant streamId f = 0 :=
        if_neg (by rw [fits.1]; exact fun both => absurd both.1 (by decide))
      split
      · exact got tick continues
      · exact (got tick continues).trans (ih _ _)
    · exact ((take n).trans (chatter chat)).trans abandon

lemma headers_lossless (heads : f.type = Frame.headers) : ∀ s ∈ lostWith streamId f, s ∉ creditSlips := by
  intro s lost credit
  rcases lostWith_credit lost credit with data | update | settings
  · exact data (if_neg (by rw [heads]; decide))
  · exact absurd (heads.symm.trans update.1) (by decide)
  · exact absurd (heads.symm.trans settings) (by decide)

lemma readHeaderBlock (env : Env) (c : Client) (heads : f.type = Frame.headers) :
    c.io.Reads streamId (c.readHeaderBlock env streamId f).2.io := by
  unfold Client.readHeaderBlock
  cases Client.fragment f with
  | none => exact note fun _ => headers_lossless heads
  | some block =>
    dsimp only
    split
    · exact chatter (.refl _)
    · exact readContinuations env maxContinuations c.io block

end Io.Reads

namespace Call

/-! ### The window of a call -/

variable {client c : Client} {kind : Frame → Prop}

lemma Purse.move {r : List Frame} {call call' : Call} (purse : call.Purse r) (more wrote : List Frame)
    (streamId : call'.streamId = call.streamId) (readBefore : call'.readBefore = call.readBefore)
    (writtenBefore : call'.writtenBefore = call.writtenBefore)
    (written : call'.client.io.written = call.client.io.written ++ wrote)
    (slips : ∀ s ∈ call.client.io.slips, s ∈ call'.client.io.slips)
    (ended : call'.streamEnded = false → call.streamEnded = false)
    (balance : .lostIncrement ∉ call'.client.io.slips → .lostDelta ∉ call'.client.io.slips → call'.streamEnded = false →
      call.streamId < 2 ^ 31 → call'.sendWindow - call'.client.peerInitialWindow + tally (dataSizeOn call.streamId) wrote =
        call.sendWindow - call.client.peerInitialWindow + tally (grant call.streamId) more) :
    call'.Purse (r ++ more) where
  odd := by
    rw [streamId]
    exact purse.odd
  readBefore := by
    have before := purse.readBefore
    rw [length_append]
    omega
  writtenBefore := by
    have before := purse.writtenBefore
    rw [written, length_append]
    omega
  window := by
    intro increments deltas open_ small
    rw [streamId] at small
    have before := purse.window (fun member => increments (slips _ member)) (fun member => deltas (slips _ member))
      (ended open_) small
    have moved := balance increments deltas open_ small
    rw [streamId, readBefore, writtenBefore, written, drop_append_of_le_length purse.readBefore,
      drop_append_of_le_length purse.writtenBefore, tally_append, tally_append]
    omega

/-- A call is in order with the frames `r`. -/
structure Books (r : List Frame) (call : Call) : Prop where
  client : call.client.Books none r
  purse : call.Purse r

def Settled (call : Call) : Prop := call.Books call.client.io.received

structure Owes (r : List Frame) (f : Frame) (call : Call) : Prop where
  books : call.Books r
  read : call.client.io.received = r ++ [f]
  small : f.payload.length ≤ maxInboundFrame

structure Same (call call' : Call) : Prop where
  client : call'.client = call.client
  streamId : call'.streamId = call.streamId
  sendWindow : call'.sendWindow = call.sendWindow
  readBefore : call'.readBefore = call.readBefore
  writtenBefore : call'.writtenBefore = call.writtenBefore
  ended : call'.streamEnded = false → call.streamEnded = false

lemma Same.trans {call₁ call₂ call₃ : Call} (first : call₁.Same call₂) (second : call₂.Same call₃) : call₁.Same call₃ :=
  ⟨second.client.trans first.client, second.streamId.trans first.streamId, second.sendWindow.trans first.sendWindow,
    second.readBefore.trans first.readBefore, second.writtenBefore.trans first.writtenBefore, first.ended ∘ second.ended⟩

variable {r wrote : List Frame} {call call' : Call} {n : Nat}

lemma Purse.setClient (purse : call.Purse r) (window : client.peerInitialWindow = call.client.peerInitialWindow)
    (written : client.io.written = call.client.io.written ++ wrote) (free : tally (dataSizeOn call.streamId) wrote = 0)
    (slips : ∀ s ∈ call.client.io.slips, s ∈ client.io.slips) : Purse r { call with client } := by
  rw [← append_nil r]
  refine purse.move [] wrote rfl rfl rfl written slips id fun _ _ _ _ => ?_
  rw [free, tally_nil]
  simp only [window]

lemma Books.same (books : call.Books r) (same : call.Same call') : call'.Books r where
  client := by
    rw [same.client]
    exact books.client
  purse := by
    rw [← append_nil r]
    refine books.purse.move [] [] same.streamId same.readBefore same.writtenBefore ?_ ?_ same.ended fun _ _ _ _ => ?_
    · rw [same.client, append_nil]
    · rw [same.client]
      exact fun _ => id
    · rw [same.client, same.sendWindow]
      rfl

lemma Books.writes (books : call.Books r) (wrote : call.client.io.Writes kind io)
    (plain : ∀ f, kind f → f.type ≠ Frame.data ∧ grant 0 f = 0) : (call.setIo io).Books r where
  client := books.client.writes wrote plain
  purse := by
    obtain ⟨frames, written, kinds⟩ := wrote.written
    refine books.purse.setClient rfl written ?_ fun s member => wrote.slips ▸ member
    exact tally_eq_zero fun f member => dataSizeOn_eq_zero (plain f (kinds f member)).1

lemma Purse.chatter (purse : call.Purse r) (chat : call.client.io.Chatter io)
    (window : client.peerInitialWindow = call.client.peerInitialWindow) (written : client.io.written = io.written)
    (slips : ∀ s ∈ io.slips, s ∈ client.io.slips) : Purse r { call with client } := by
  obtain ⟨frames, wrote, control⟩ := chat.written
  refine purse.setClient window (written.trans wrote) ?_ fun s member => slips s (chat.slips ▸ member)
  exact tally_eq_zero fun f member => dataSizeOn_eq_zero (control f member).plain.1

section
variable (books : call.Books r)
include books

lemma Books.slip (s : Slip) : (call.slip s).Books r where
  client := books.client.note [s]
  purse := books.purse.setClient rfl (append_nil _).symm rfl fun _ member => mem_append_left _ member

lemma Books.goaway (goaway : Bool) : Call.Books r { call with client := { call.client with goaway } } where
  client := { books.client with }
  purse := { books.purse with }

lemma Books.die : call.die.Books r where
  client := books.client.die
  purse := { books.purse with }

end

/-! ### One frame -/

section
variable (owes : call.Owes r f)
include owes

lemma Owes.idle (block : startsBlock f = false) (neutral : Neutral f)
    (other : grant call.streamId f = 0) : call.Settled := by
  unfold Settled
  rw [owes.read]
  refine ⟨owes.books.client.idle block neutral, ?_⟩
  refine owes.books.purse.move [f] [] rfl rfl rfl (append_nil _).symm (fun _ => id) id fun _ _ _ _ => ?_
  rw [tally_singleton, other]
  rfl

lemma Owes.skip : (call.skip f).Settled := by
  unfold Settled
  rw [show (call.skip f).client.io.received = r ++ [f] from owes.read]
  refine ⟨owes.books.client.drop call.streamId, ?_⟩
  refine owes.books.purse.move [f] [] rfl rfl rfl (append_nil _).symm (fun _ => mem_append_left _) id
    fun increments _ _ _ => ?_
  have none_ := not_not.mp fun some_ => increments (mem_append_right _ (lostIncrement_of_grant (.inr rfl) some_))
  rw [tally_singleton, none_]
  rfl

lemma Owes.same (same : call.Same call') : call'.Owes r f :=
  ⟨owes.books.same same, by rw [same.client]; exact owes.read, owes.small⟩

lemma Owes.writes (wrote : call.client.io.Writes kind io)
    (plain : ∀ f, kind f → f.type ≠ Frame.data ∧ grant 0 f = 0) : (call.setIo io).Owes r f :=
  ⟨owes.books.writes wrote plain, wrote.received.trans owes.read, owes.small⟩

end

section
variable (settled : call.Settled)
include settled

lemma Settled.writes (wrote : call.client.io.Writes kind io)
    (plain : ∀ f, kind f → f.type ≠ Frame.data ∧ grant 0 f = 0) : (call.setIo io).Settled := by
  unfold Settled
  rw [show (call.setIo io).client.io.received = call.client.io.received from wrote.received]
  exact Books.writes settled wrote plain

lemma Settled.chatter (chat : call.client.io.Chatter io) : (call.setIo io).Settled :=
  settled.writes chat fun _ control => control.plain

lemma Settled.same (same : call.Same call') : call'.Settled := by
  unfold Settled
  rw [same.client]
  exact Books.same settled same

lemma Settled.slip (s : Slip) : (call.slip s).Settled := Books.slip settled s

lemma Settled.die : call.die.Settled := Books.die settled

end

lemma fail_same (call : Call) (status : Status) : call.Same (call.fail status) :=
  ⟨rfl, rfl, rfl, rfl, rfl, fun ended => nomatch ended⟩

section
variable (env : Env) (owes : call.Owes r f)
include env owes

end

lemma onHeader_same (call : Call) (httpStatus : Int) (field : CStr × CStr) :
    call.Same (onHeader (call, httpStatus) field).1 := by
  unfold onHeader
  dsimp only
  repeat' split
  all_goals exact ⟨rfl, rfl, rfl, rfl, rfl, id⟩

lemma onHeaders_same (fields : List (CStr × CStr)) (call : Call) (httpStatus : Int) :
    call.Same (fields.foldl onHeader (call, httpStatus)).1 := by
  induction fields generalizing call httpStatus with
  | nil => exact ⟨rfl, rfl, rfl, rfl, rfl, id⟩
  | cons field rest ih => exact (onHeader_same call httpStatus field).trans (ih _ _)

lemma afterBlock_same (call : Call) (httpStatus : Int) (endStream : Bool) :
    call.Same (call.afterBlock httpStatus endStream).2 := by
  unfold afterBlock
  split
  · exact ⟨rfl, rfl, rfl, rfl, rfl, fun ended => nomatch ended⟩
  split
  · exact ⟨rfl, rfl, rfl, rfl, rfl, fun ended => nomatch ended⟩
  · exact ⟨rfl, rfl, rfl, rfl, rfl, id⟩

lemma Owes.reads (owes : call.Owes r f) (other : grant call.streamId f = 0)
    (reads : call.client.io.Reads call.streamId io) (log : client.io = io)
    (window : client.peerInitialWindow = call.client.peerInitialWindow) : Purse io.received { call with client } := by
  obtain ⟨more, received, free⟩ := reads.received
  obtain ⟨wrote, written, control⟩ := reads.written
  rw [received, owes.read, append_assoc]
  refine owes.books.purse.move ([f] ++ more) wrote rfl rfl rfl (by rw [log]; exact written) ?_ id fun increments _ _ _ => ?_
  · rw [log]
    exact fun _ member => reads.slips.subset member
  rw [log] at increments
  rw [tally_append, tally_singleton, other, free increments,
    tally_eq_zero fun g member => dataSizeOn_eq_zero (control g member).plain.1]
  simp only [window]

def ForStream (f : Frame) : Prop := f.type = Frame.windowUpdate ∧ f.streamId ≠ 0

lemma ForStream.plain (update : ForStream f) : f.type ≠ Frame.data ∧ grant 0 f = 0 :=
  ⟨by rw [update.1]; decide, if_neg fun both => update.2 both.2⟩

lemma afterData_same (call : Call) (endStream : Bool) : call.Same (call.afterData endStream).2 := by
  unfold afterData
  split
  · exact ⟨rfl, rfl, rfl, rfl, rfl, fun ended => nomatch ended⟩
  · exact ⟨rfl, rfl, rfl, rfl, rfl, id⟩

lemma nowMs_chatter (env : Env) (io : Io) : io.Chatter (io.nowMs env).2 := .tick io _

lemma pastDeadline_chatter (env : Env) (call : Call) :
    ∃ io, (call.pastDeadline env).2 = call.setIo io ∧ call.client.io.Chatter io := by
  unfold pastDeadline
  split
  · exact ⟨call.client.io, rfl, .refl _⟩
  · exact ⟨_, rfl, nowMs_chatter env _⟩

lemma Settled.stop (settled : call.Settled) (chat : (call.client.io.take n).Chatter io) : (call.setIo io).Settled := by
  unfold Settled
  rw [show (call.setIo io).client.io.received = call.client.io.received from chat.received]
  have taken : (call.setIo (call.client.io.take n)).Purse call.client.io.received := { settled.purse with }
  exact ⟨(settled.client.take n).chatter chat, taken.chatter chat rfl rfl fun _ => id⟩

lemma deadlineAfter_eq (env : Env) (io : Io) (timeoutMs : Nat) :
    ∃ tick, (deadlineAfter env io timeoutMs).2 = { io with tick } := by
  unfold deadlineAfter
  split
  · exact ⟨io.tick, rfl⟩
  · exact ⟨_, rfl⟩

end Call

/-! ### Connecting -/

namespace Client

end Client

/-! ### Runs -/

def Session.Settled : Session → Prop
  | idle client => client.Books none client.io.received
  | busy call => call.Settled

lemma Session.Settled.client {s : Session} (settled : s.Settled) : s.client.Books none s.client.io.received := by
  cases s with
  | idle client => exact settled
  | busy call => exact Call.Books.client settled

end Cwist.Grpc
