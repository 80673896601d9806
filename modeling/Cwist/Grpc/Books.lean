import Cwist.Grpc.Call

/-!
# The books of a gRPC connection

What the frames that a client has read and written say about the connection: where in the streams of octets it is,
which header blocks it has seen, and what may be sent in either direction.
-/

namespace Cwist.Grpc
open List Client

open H2 (Frame getBytes putU31)
open Trace (Extends)

/-! ### Header blocks -/

structure Wire where
  blocks : List Bytes
  pending : Option (Nat × Bytes)
  deriving DecidableEq

def promisedFragment (f : Frame) : Option Bytes :=
  let padding := if f.has Frame.paddedFlag then (f.payload.getD 0 0).toNat else 0
  let offset := if f.has Frame.paddedFlag then 5 else 4
  if padding + offset > f.payload.length then none
  else some ((f.payload.drop offset).take (f.payload.length - offset - padding))

namespace Wire

def table (w : Wire) : Hpack := w.blocks.foldl (fun t block => (t.decode block).2.table) .init

def extend (w : Wire) (streamId : Nat) (block : Bytes) (ends : Bool) : Wire :=
  if ends then ⟨w.blocks ++ [block], none⟩ else ⟨w.blocks, some (streamId, block)⟩

def step (w : Wire) (f : Frame) : Wire :=
  if f.type = Frame.headers then w.extend f.streamId ((Client.fragment f).getD []) f.endHeaders
  else if f.type = pushPromise then w.extend f.streamId ((promisedFragment f).getD []) f.endHeaders
  else if f.type = Frame.continuation then
    match w.pending with
    | none => w
    | some (streamId, block) => if f.streamId = streamId then w.extend streamId (block ++ f.payload) f.endHeaders else w
  else w

end Wire

def wire (frames : List Frame) : Wire := frames.foldl Wire.step ⟨[], none⟩

lemma Wire.extend_pending (w : Wire) (streamId : Nat) (block : Bytes) (ends : Bool) :
    (w.extend streamId block ends).pending = if ends then none else some (streamId, block) := by
  unfold extend
  split <;> rfl

lemma Wire.extend_table (w : Wire) (streamId : Nat) (block : Bytes) (ends : Bool) :
    (w.extend streamId block ends).table = if ends then (w.table.decode block).2.table else w.table := by
  unfold extend table
  split
  · rw [foldl_append]
    rfl
  · rfl

lemma wire_snoc (frames : List Frame) (f : Frame) : wire (frames ++ [f]) = (wire frames).step f := by
  simp only [wire, foldl_append, foldl_cons, foldl_nil]

/-! ### Windows -/

def grant (streamId : Nat) (f : Frame) : Nat :=
  if f.type = Frame.windowUpdate ∧ f.streamId = streamId then Call.increment f else 0

lemma increment_putU31 (streamId n : Nat) : Call.increment ⟨Frame.windowUpdate, 0, streamId, putU31 n⟩ = n % 2 ^ 31 := by
  unfold Call.increment putU31 H2.putU32 getBytes
  simp only [map_cons, map_nil, length_cons, length_nil, if_true, foldl_cons, foldl_nil,
    UInt8.toNat_ofNat', Nat.shiftRight_eq_div_pow]
  omega

def dataSize (f : Frame) : Nat := if f.type = Frame.data then f.payload.length else 0

def dataSizes (frames : List Frame) : List Nat := (frames.filter (·.type == Frame.data)).map (·.payload.length)

def dataSizeOn (streamId : Nat) (f : Frame) : Nat :=
  if f.type = Frame.data ∧ f.streamId = streamId then f.payload.length else 0

variable {f : Frame}

lemma dataSizeOn_eq_zero {streamId : Nat} (other : f.type ≠ Frame.data) : dataSizeOn streamId f = 0 :=
  if_neg fun both => other both.1

def acceptable : Nat × Nat → Bool
  | (0x2, value) => value == 0
  | (0x4, value) => value ≤ 0x7fffffff
  | (0x5, value) => 16384 ≤ value && value ≤ 16777215
  | _ => true

def entriesWindow (entries : List (Nat × Nat)) (window : Nat) : Nat :=
  entries.foldl (fun window (id, value) => if id = 0x4 then value else window) window

def settingsWindow (window : Nat) (f : Frame) : Nat :=
  if f.type = Frame.settings ∧ ¬f.has Frame.ackFlag ∧ f.payload.length % 6 = 0 then
    entriesWindow ((settingEntries f.payload).takeWhile acceptable) window
  else window

def initialWindow (frames : List Frame) : Nat := frames.foldl settingsWindow defaultWindow

lemma initialWindow_snoc (frames : List Frame) (f : Frame) :
    initialWindow (frames ++ [f]) = settingsWindow (initialWindow frames) f := by
  simp only [initialWindow, foldl_append, foldl_cons, foldl_nil]

/-- Nothing that the windows depend on is passed over. In the handshake that is any WINDOW_UPDATE of the connection and
any data, and inside a header block any other frame. The pump takes an increment that the connection's window has room
for, a new initial window when the client knows of the call, and data of the call that is well padded and well framed
while the transport takes the WINDOW_UPDATE for it. -/
def Sight.Sound : Sight → Prop
  | greeting f => ¬(f.type = Frame.windowUpdate ∧ f.streamId = 0) ∧ dataSize f = 0
  | inBlock f => f.type = Frame.continuation
  | pumped f found =>
    (f.type = Frame.windowUpdate → f.streamId = 0 → (Call.increment f : Int) ≤ int32Max - found.conn) ∧
      (found.active = true ∨ settingsWindow found.window f = found.window) ∧
      (dataSize f = 0 ∨ f.streamId = found.streamId ∧
        (Call.unpadded f).any (fun data => (found.decoder.feed data).1) = true ∧ found.writes = (none, none))

instance : DecidablePred Sight.Sound
  | .greeting f => inferInstanceAs (Decidable (¬(f.type = Frame.windowUpdate ∧ f.streamId = 0) ∧ dataSize f = 0))
  | .inBlock f => inferInstanceAs (Decidable (f.type = Frame.continuation))
  | .pumped f found => inferInstanceAs (Decidable (
    (f.type = Frame.windowUpdate → f.streamId = 0 → (Call.increment f : Int) ≤ int32Max - found.conn) ∧
      (found.active = true ∨ settingsWindow found.window f = found.window) ∧
      (dataSize f = 0 ∨ f.streamId = found.streamId ∧
        (Call.unpadded f).any (fun data => (found.decoder.feed data).1) = true ∧ found.writes = (none, none))))

structure Neutral (f : Frame) : Prop where
  data : dataSize f = 0
  update : grant 0 f = 0
  settings : ∀ window, settingsWindow window f = window

lemma Neutral.ofType {type : UInt8} (ofType : f.type = type) (data : type ≠ Frame.data)
    (update : type ≠ Frame.windowUpdate) (settings : type ≠ Frame.settings) : Neutral f where
  data := if_neg (by rw [ofType]; exact data)
  update := if_neg (by rw [ofType]; exact fun both => update both.1)
  settings _ := if_neg (by rw [ofType]; exact fun all => settings all.1)

lemma Control.plain (control : Control f.type) : f.type ≠ Frame.data ∧ grant 0 f = 0 :=
  ⟨control.1, if_neg fun update => control.2.2 update.1⟩

lemma dataSizes_extends {kind : Frame → Prop} {frames later : List Frame} (added : Extends kind frames later)
    (others : ∀ f, kind f → f.type ≠ Frame.data) : dataSizes later = dataSizes frames := by
  obtain ⟨more, rfl, kinds⟩ := added
  have none_ : more.filter (·.type == Frame.data) = [] :=
    filter_eq_nil_iff.mpr fun f member => by simpa using others f (kinds f member)
  rw [dataSizes, filter_append, none_, append_nil]
  rfl

/-! ### What is lost with a frame -/

variable {streamId : Nat}

section Lost

lemma startsBlock_false {type : UInt8} (ofType : f.type = type) (heads : type ≠ Frame.headers) (promises : type ≠ pushPromise) :
    startsBlock f = false := by
  simp only [startsBlock, ofType, Bool.or_eq_false_iff, beq_eq_false_iff_ne]
  exact ⟨heads, promises⟩

lemma undecoded_of_startsBlock (block : startsBlock f = true) : .undecoded ∈ lostWith streamId f := by
  rw [lostWith, if_pos block]
  exact mem_cons_self

lemma uncredited_of_dataSize (some_ : dataSize f ≠ 0) : .uncredited ∈ lostWith streamId f := by
  unfold dataSize at some_
  split at some_
  next data =>
    have plain := startsBlock_false data (by decide) (by decide)
    have full : f.payload ≠ [] := fun empty => some_ (by rw [empty]; rfl)
    rw [lostWith, if_neg (by rw [plain]; decide), if_pos data, if_neg full]
    exact mem_cons_self
  · exact absurd rfl some_

lemma lostIncrement_of_grant {id : Nat} (mine : id = 0 ∨ id = streamId) (some_ : grant id f ≠ 0) :
    .lostIncrement ∈ lostWith streamId f := by
  unfold grant at some_
  split at some_
  next update =>
    obtain ⟨update, rfl⟩ := update
    have plain := startsBlock_false update (by decide) (by decide)
    have other : f.type ≠ Frame.data := by rw [update]; decide
    rw [lostWith, if_neg (by rw [plain]; decide), if_neg other, if_pos update, if_pos mine]
    exact mem_cons_self
  · exact absurd rfl some_

lemma lostDelta_of_settingsWindow {window : Nat} (moves : settingsWindow window f ≠ window) :
    .lostDelta ∈ lostWith streamId f := by
  unfold settingsWindow at moves
  split at moves
  next settings =>
    obtain ⟨settings, fresh, -⟩ := settings
    have plain := startsBlock_false settings (by decide) (by decide)
    have data : f.type ≠ Frame.data := by rw [settings]; decide
    have update : f.type ≠ Frame.windowUpdate := by rw [settings]; decide
    rw [lostWith, if_neg (by rw [plain]; decide), if_neg data, if_neg update, if_pos settings, if_neg fresh]
    exact mem_cons_self
  · exact absurd rfl moves

end Lost

/-! ### SETTINGS -/

lemma applySetting_eq (c : Client) (entry : Nat × Nat) : ∃ m, c.applySetting entry = if acceptable entry then
      some ({ c with peerMaxFrame := m, peerInitialWindow := entriesWindow [entry] c.peerInitialWindow },
        (entriesWindow [entry] c.peerInitialWindow : Int) - c.peerInitialWindow) else none := by
  unfold applySetting acceptable
  split
  next value =>
    refine ⟨c.peerMaxFrame, ?_⟩
    by_cases push : value = 0 <;> simp [push, entriesWindow]
  next value =>
    refine ⟨c.peerMaxFrame, ?_⟩
    by_cases large : value > 0x7fffffff
    · rw [if_pos large, if_neg (by simpa using large)]
    · rw [if_neg large, if_pos (by simpa using large)]
      rfl
  next value =>
    refine ⟨value, ?_⟩
    by_cases outside : value < 16384 ∨ value > 16777215
    · rw [if_pos outside, if_neg (by simp; omega)]
    · rw [if_neg outside, if_pos (by simp; omega)]
      simp [entriesWindow]
  next push window frame =>
    obtain ⟨id, value⟩ := entry
    refine ⟨c.peerMaxFrame, ?_⟩
    have other : id ≠ 0x4 := fun same => window value (by rw [same])
    simp [entriesWindow, other]

lemma applyEntries_eq (entries : List (Nat × Nat)) (c : Client) : ∃ ok m, applyEntries entries c =
      (ok, { c with peerMaxFrame := m, peerInitialWindow := entriesWindow (entries.takeWhile acceptable) c.peerInitialWindow },
        (entriesWindow (entries.takeWhile acceptable) c.peerInitialWindow : Int) - c.peerInitialWindow) := by
  induction entries generalizing c with
  | nil => exact ⟨true, c.peerMaxFrame, by simp [applyEntries, entriesWindow]⟩
  | cons entry rest ih =>
    obtain ⟨m, applied⟩ := applySetting_eq c entry
    unfold applyEntries
    rw [applied]
    cases accepted : acceptable entry with
    | false =>
      rw [takeWhile_cons_of_neg (by simp [accepted])]
      exact ⟨false, c.peerMaxFrame, by simp [entriesWindow]⟩
    | true =>
      rw [if_pos rfl, takeWhile_cons_of_pos accepted]
      dsimp only
      obtain ⟨ok, m', later⟩ := ih { c with peerMaxFrame := m, peerInitialWindow := entriesWindow [entry] c.peerInitialWindow }
      rw [later]
      refine ⟨ok, m', ?_⟩
      dsimp only
      rw [show entriesWindow (entry :: rest.takeWhile acceptable) c.peerInitialWindow =
        entriesWindow (rest.takeWhile acceptable) (entriesWindow [entry] c.peerInitialWindow) from rfl]
      congr 2
      omega

lemma applySettings_eq (env : Env) (c : Client) (settings : f.type = Frame.settings) (fresh : ¬f.has Frame.ackFlag) :
    ∃ ok m io, c.applySettings env f.payload =
      (ok, { c with io, peerMaxFrame := m, peerInitialWindow := settingsWindow c.peerInitialWindow f },
        (settingsWindow c.peerInitialWindow f : Int) - c.peerInitialWindow) ∧ c.io.Chatter io := by
  unfold applySettings settingsWindow
  split
  next uneven =>
    rw [if_neg fun all => uneven all.2.2]
    exact ⟨false, c.peerMaxFrame, c.io, by simp, .refl _⟩
  rename_i even
  rw [if_pos ⟨settings, fresh, not_not.mp even⟩]
  obtain ⟨ok, m, applied⟩ := applyEntries_eq (settingEntries f.payload) c
  rw [applied]
  cases ok with
  | false => exact ⟨false, m, c.io, rfl, .refl _⟩
  | true =>
    have control : Control Frame.settings := ⟨by decide, by decide, by decide⟩
    exact ⟨_, m, _, rfl, .writeFrame env c.io control⟩

/-! ### The books -/

/-- The client agrees with the frames `r` that it has dealt with, and is in the middle of the block `pending`, if any.
Each line stands as long as the slip that would break it has not happened. -/
structure Client.Books (pending : Option (Nat × Bytes)) (r : List Frame) (c : Client) : Prop where
  odd : c.nextStreamId % 2 = 1
  table : .undecoded ∉ c.io.slips → (wire r).pending = pending ∧ (wire r).table = c.hpack
  conn : .lostIncrement ∉ c.io.slips →
    c.connSendWindow = defaultWindow + tally (grant 0) r - tally dataSize c.io.written
  initial : .lostDelta ∉ c.io.slips → c.peerInitialWindow = initialWindow r
  credit : .uncredited ∉ c.io.slips → tally dataSize r = tally (grant 0) c.io.written
  spends : ∀ s ∈ c.io.spends, (s.size : Int) ≤ s.conn ∧ (s.size : Int) ≤ s.stream
  spent : c.io.spends.map (·.size) = dataSizes c.io.written

structure Call.Purse (r : List Frame) (call : Call) : Prop where
  odd : call.streamId % 2 = 1
  readBefore : call.readBefore ≤ r.length
  writtenBefore : call.writtenBefore ≤ call.client.io.written.length
  window : .lostIncrement ∉ call.client.io.slips → .lostDelta ∉ call.client.io.slips → call.streamEnded = false →
    call.streamId < 2 ^ 31 →
    call.sendWindow = call.client.peerInitialWindow + tally (grant call.streamId) (r.drop call.readBefore) -
      tally (dataSizeOn call.streamId) (call.client.io.written.drop call.writtenBefore)

namespace Client.Books

variable {pending : Option (Nat × Bytes)} {r : List Frame} {c : Client}

variable {io : Io} {block : Bytes} {w : Wire}

section
variable (books : c.Books pending r) {n : Nat}
include books

lemma note (slips : List Slip) :
    Client.Books pending r { c with io := { c.io with slips := c.io.slips ++ slips } } where
  odd := books.odd
  table absent := books.table fun member => absent (mem_append_left _ member)
  conn absent := books.conn fun member => absent (mem_append_left _ member)
  initial absent := books.initial fun member => absent (mem_append_left _ member)
  credit absent := books.credit fun member => absent (mem_append_left _ member)
  spends := books.spends
  spent := books.spent

lemma writes {kind : Frame → Prop} (wrote : c.io.Writes kind io)
    (plain : ∀ f, kind f → f.type ≠ Frame.data ∧ grant 0 f = 0) : Client.Books pending r { c with io } where
  odd := books.odd
  table absent := books.table (wrote.slips ▸ absent)
  conn absent := by
    have same : tally dataSize io.written = tally dataSize c.io.written :=
      tally_extends wrote.written fun f ofKind => if_neg (plain f ofKind).1
    rw [same]
    exact books.conn (wrote.slips ▸ absent)
  initial absent := books.initial (wrote.slips ▸ absent)
  credit absent := by
    rw [tally_extends wrote.written fun f ofKind => (plain f ofKind).2]
    exact books.credit (wrote.slips ▸ absent)
  spends := by
    rw [wrote.spends]
    exact books.spends
  spent := by
    rw [wrote.spends, books.spent, dataSizes_extends wrote.written fun f ofKind => (plain f ofKind).1]

lemma chatter (chat : c.io.Chatter io) : Client.Books pending r { c with io } :=
  books.writes chat fun _ control => control.plain

lemma read (f : Frame) (rest : Bytes) (tick : Nat) (sight : Sight) :
    Client.Books pending r { c with io := (c.io.got f rest tick).see sight } := { books with }

lemma die : Client.Books pending r { c with dead := true } := { books with }

lemma take (n : Nat) : Client.Books pending r { c with io := c.io.take n } := { books with }

lemma abandon (other : Option (Nat × Bytes)) : Client.Books other r { c with io := c.io.abandon } :=
  { books.note [.undecoded] with table := fun absent => absurd (mem_append_right _ mem_cons_self) absent }

/-! ### Frames that are dealt with -/

lemma view {after : Option (Nat × Bytes)} {table : Hpack} (neutral : Neutral f)
    (moves : ∀ w : Wire, w.pending = pending → (w.step f).pending = after)
    (decodes : ∀ w : Wire, w.pending = pending → w.table = c.hpack → (w.step f).table = table) :
    Client.Books after (r ++ [f]) { c with hpack := table } where
  odd := books.odd
  table absent := by
    obtain ⟨before, same⟩ := books.table absent
    rw [wire_snoc]
    exact ⟨moves _ before, decodes _ before same⟩
  conn absent := by
    rw [tally_append, tally_singleton, neutral.update]
    exact books.conn absent
  initial absent := by
    rw [initialWindow_snoc, neutral.settings]
    exact books.initial absent
  credit absent := by
    rw [tally_append, tally_singleton, neutral.data]
    exact books.credit absent
  spends := books.spends
  spent := books.spent

end

lemma step_idle (idle : w.pending = none) (plain : startsBlock f = false) : w.step f = w := by
  unfold Wire.step
  simp only [startsBlock, Bool.or_eq_false_iff, beq_eq_false_iff_ne, ne_eq] at plain
  rw [if_neg plain.1, if_neg plain.2, idle]
  split <;> rfl

lemma table_snoc (books : c.Books none r) (plain : startsBlock f = false) (absent : .undecoded ∉ c.io.slips) :
    (wire (r ++ [f])).pending = none ∧ (wire (r ++ [f])).table = c.hpack := by
  have before := books.table absent
  rw [wire_snoc, step_idle before.1 plain]
  exact before

lemma idle (books : c.Books none r) (block : startsBlock f = false) (neutral : Neutral f) : c.Books none (r ++ [f]) :=
  books.view neutral (fun w before => by rw [step_idle before block]; exact before)
    fun w before same => by rw [step_idle before block]; exact same

lemma drop (books : c.Books none r) (streamId : Nat) :
    Client.Books none (r ++ [f]) { c with io := c.io.drop streamId f } where
  odd := books.odd
  table absent := by
    have before := fun member => absent (mem_append_left _ member)
    have block := Bool.eq_false_iff.mpr fun block => absent (mem_append_right _ (undecoded_of_startsBlock block))
    have same := books.table before
    rw [wire_snoc, step_idle same.1 block]
    exact same
  conn absent := by
    have none_ := not_not.mp fun some_ => absent (mem_append_right _ (lostIncrement_of_grant (.inl rfl) some_))
    rw [tally_append, tally_singleton, none_]
    exact books.conn fun member => absent (mem_append_left _ member)
  initial absent := by
    have same : settingsWindow (initialWindow r) f = initialWindow r :=
      not_not.mp fun moves => absent (mem_append_right _ (lostDelta_of_settingsWindow moves))
    rw [initialWindow_snoc, same]
    exact books.initial fun member => absent (mem_append_left _ member)
  credit absent := by
    have none_ := not_not.mp fun some_ => absent (mem_append_right _ (uncredited_of_dataSize some_))
    rw [tally_append, tally_singleton, none_]
    exact books.credit fun member => absent (mem_append_left _ member)
  spends := books.spends
  spent := books.spent

lemma extend (books : c.Books pending r) (neutral : Neutral f)
    (steps : ∀ w : Wire, w.pending = pending → w.step f = w.extend streamId block f.endHeaders) :
    Client.Books (if f.endHeaders then none else some (streamId, block)) (r ++ [f])
      { c with hpack := if f.endHeaders then (c.hpack.decode block).2.table else c.hpack } := by
  refine books.view neutral (fun w before => ?_) fun w before same => ?_
  · rw [steps w before, Wire.extend_pending]
  · rw [steps w before, Wire.extend_table, same]

lemma headers (books : c.Books none r) (heads : f.type = Frame.headers) (fragment : fragment f = some block) :
    Client.Books (if f.endHeaders then none else some (f.streamId, block)) (r ++ [f])
      { c with hpack := if f.endHeaders then (c.hpack.decode block).2.table else c.hpack } := by
  refine books.extend (.ofType heads (by decide) (by decide) (by decide)) fun w _ => ?_
  rw [Wire.step, if_pos heads, fragment]
  rfl

lemma continuation (books : c.Books (some (streamId, block)) r)
    (continues : f.type = Frame.continuation) (same : f.streamId = streamId) :
    Client.Books (if f.endHeaders then none else some (streamId, block ++ f.payload)) (r ++ [f])
      { c with hpack := if f.endHeaders then (c.hpack.decode (block ++ f.payload)).2.table else c.hpack } := by
  refine books.extend (.ofType continues (by decide) (by decide) (by decide)) fun w before => ?_
  have heads : f.type ≠ Frame.headers := by rw [continues]; decide
  have promises : f.type ≠ pushPromise := by rw [continues]; decide
  rw [Wire.step, if_neg heads, if_neg promises, if_pos continues, before]
  exact if_pos same

lemma readContinuations (env : Env) (streamId : Nat) (left : Nat)
    (books : c.Books (some (streamId, block)) c.io.received) :
    (∃ whole io, readContinuations env streamId left c.io block = (some whole, io) ∧
      Client.Books none io.received { c with io, hpack := (c.hpack.decode whole).2.table }) ∨
    ∃ io, readContinuations env streamId left c.io block = (none, io) ∧
      Client.Books none io.received { c with io } := by
  induction left generalizing c block with
  | zero => exact .inr ⟨_, rfl, books.abandon none⟩
  | succ left ih =>
    unfold readContinuations
    rcases readFrame_cases env c.io with ⟨f, rest, tick, read, -, -⟩ | ⟨n, io, read, chat⟩ <;> rw [read] <;> dsimp only
    · have got := books.read f rest tick (.inBlock f)
      split
      · exact .inr ⟨_, rfl, (got.abandon none).drop streamId⟩
      rename_i fits
      simp only [not_or, not_not] at fits
      have next := got.continuation fits.1 fits.2.1
      split
      next ends =>
        rw [if_pos ends, if_pos ends] at next
        exact .inl ⟨_, _, rfl, next⟩
      next more =>
        rw [if_neg more, if_neg more] at next
        exact ih (c := { c with io := (c.io.got f rest tick).see (.inBlock f) }) next
    · refine .inr ⟨_, rfl, ?_⟩
      rw [show io.abandon.received = c.io.received from chat.received]
      exact ((books.take n).chatter chat).abandon none

lemma readHeaderBlock (env : Env) (books : c.Books none r) (read : c.io.received = r ++ [f])
    (heads : f.type = Frame.headers) : (∃ block io, c.readHeaderBlock env f.streamId f = (some block, { c with io }) ∧
      Client.Books none io.received { c with io, hpack := (c.hpack.decode block).2.table }) ∨
    ∃ io, c.readHeaderBlock env f.streamId f = (none, { c with io }) ∧ Client.Books none io.received { c with io } := by
  unfold Client.readHeaderBlock
  cases start : Client.fragment f with
  | none =>
    refine .inr ⟨_, rfl, ?_⟩
    have dropped := books.drop (f := f) f.streamId
    rwa [← read] at dropped
  | some block =>
    have begun := books.headers heads start
    rw [← read] at begun
    dsimp only
    split
    next ends =>
      rw [if_pos ends, if_pos ends] at begun
      exact .inl ⟨block, c.io, rfl, begun⟩
    next more =>
      rw [if_neg more, if_neg more] at begun
      rcases Client.Books.readContinuations env f.streamId maxContinuations begun with ⟨whole, io, call, settled⟩ | ⟨io, call, settled⟩
      · exact .inl ⟨whole, io, by rw [call], settled⟩
      · exact .inr ⟨io, by rw [call], settled⟩

lemma increment (books : c.Books none r) (update : f.type = Frame.windowUpdate) (whole : f.streamId = 0) :
    Client.Books none (r ++ [f]) { c with connSendWindow := c.connSendWindow + Call.increment f } where
  odd := books.odd
  table := books.table_snoc (startsBlock_false update (by decide) (by decide))
  conn absent := by
    have before := books.conn absent
    have size : grant 0 f = Call.increment f := if_pos ⟨update, whole⟩
    rw [tally_append, tally_singleton]
    dsimp only
    omega
  initial absent := by
    have settings : f.type ≠ Frame.settings := by rw [update]; decide
    rw [initialWindow_snoc, settingsWindow, if_neg fun all => settings all.1]
    exact books.initial absent
  credit absent := by
    have data : f.type ≠ Frame.data := by rw [update]; decide
    rw [tally_append, tally_singleton, dataSize, if_neg data]
    exact books.credit absent
  spends := books.spends
  spent := books.spent

lemma settings (books : c.Books none r) (settings : f.type = Frame.settings) (m : Nat) : Client.Books none (r ++ [f])
      { c with peerMaxFrame := m, peerInitialWindow := settingsWindow c.peerInitialWindow f } where
  odd := books.odd
  table := books.table_snoc (startsBlock_false settings (by decide) (by decide))
  conn absent := by
    have update : f.type ≠ Frame.windowUpdate := by rw [settings]; decide
    rw [tally_append, tally_singleton, grant, if_neg fun both => update both.1]
    exact books.conn absent
  initial absent := by rw [initialWindow_snoc, books.initial absent]
  credit absent := by
    have data : f.type ≠ Frame.data := by rw [settings]; decide
    rw [tally_append, tally_singleton, dataSize, if_neg data]
    exact books.credit absent
  spends := books.spends
  spent := books.spent

lemma data (books : c.Books none r) (data : f.type = Frame.data) (small : f.payload.length ≤ maxInboundFrame)
    (tick : Nat) :
    Client.Books none (r ++ [f]) { c with io := c.io.sentFrame ⟨Frame.windowUpdate, 0, 0, putU31 f.payload.length⟩ tick } where
  odd := books.odd
  table := books.table_snoc (startsBlock_false data (by decide) (by decide))
  conn absent := by
    have update : f.type ≠ Frame.windowUpdate := by rw [data]; decide
    have more : grant 0 f = 0 := if_neg fun both => update both.1
    have less : dataSize (onWire ⟨Frame.windowUpdate, 0, 0, putU31 f.payload.length⟩) = 0 := if_neg (by decide : Frame.windowUpdate ≠ Frame.data)
    simp only [Io.sentFrame, tally_append, tally_singleton, more, less]
    exact books.conn absent
  initial absent := by
    have settings : f.type ≠ Frame.settings := by rw [data]; decide
    rw [initialWindow_snoc, settingsWindow, if_neg fun all => settings all.1]
    exact books.initial absent
  credit absent := by
    have taken : dataSize f = f.payload.length := if_pos data
    have returned : grant 0 (onWire ⟨Frame.windowUpdate, 0, 0, putU31 f.payload.length⟩) = f.payload.length := by
      have size := increment_putU31 0 f.payload.length
      rw [Nat.mod_eq_of_lt (lt_of_le_of_lt small (by decide))] at size
      exact (if_pos ⟨rfl, rfl⟩).trans size
    simp only [Io.sentFrame, tally_append, tally_singleton, taken, returned, books.credit absent]
  spends := books.spends
  spent := by
    refine books.spent.trans ?_
    simp only [Io.sentFrame, dataSizes, filter_append, map_append]
    exact (append_nil _).symm

lemma spend {flags : UInt8} {payload : Bytes} {stream : Int} (books : c.Books pending r) (tick : Nat)
    (conn : (payload.length : Int) ≤ c.connSendWindow) (allowed : (payload.length : Int) ≤ stream) :
    Client.Books pending r { c with
      connSendWindow := c.connSendWindow - payload.length
      io := { c.io.sentFrame ⟨Frame.data, flags, streamId, payload⟩ tick with
        spends := c.io.spends ++ [⟨payload.length, c.connSendWindow, stream⟩] } } where
  odd := books.odd
  table := books.table
  conn absent := by
    have before := books.conn absent
    have size : dataSize (onWire ⟨Frame.data, flags, streamId, payload⟩) = payload.length := if_pos rfl
    simp only [Io.sentFrame, tally_append, tally_singleton, size]
    omega
  initial := books.initial
  credit absent := by
    have more : grant 0 (onWire ⟨Frame.data, flags, streamId, payload⟩) = 0 :=
      if_neg fun both => absurd both.1 (by decide : Frame.data ≠ Frame.windowUpdate)
    simp only [Io.sentFrame, tally_append, tally_singleton, more]
    exact books.credit absent
  spends := forall_mem_append.mpr ⟨books.spends, forall_mem_singleton.mpr ⟨conn, allowed⟩⟩
  spent := by
    rw [map_append, books.spent]
    simp only [Io.sentFrame, dataSizes, filter_append, map_append]
    rfl

end Client.Books

end Cwist.Grpc
