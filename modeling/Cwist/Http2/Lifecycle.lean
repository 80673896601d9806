import Cwist.Http2.Steps

namespace Cwist.H2
open List Conn

open Http (Request Response)
open Trace (Orderly Extends)

/-! ### What a trace may show -/

def Event.handles (streamId : Nat) : Event → Bool
  | .handler id .. => id == streamId
  | _ => false

def Event.offers (streamId : Nat) : Event → Bool
  | .onHeaders id .. => id == streamId
  | _ => false

def Admissible (before : List Event) : Event → Prop
  | .created id => .created id ∉ before
  | .handler id _ blockOpen =>
    blockOpen = false ∧ .decoded id ∈ before ∧ .endStream id ∈ before ∧ ∀ e ∈ before, e.handles id = false
  | .onHeaders id _ _ => .decoded id ∈ before ∧ ∀ e ∈ before, e.offers id = false
  | _ => True

lemma admissible_of_routine (before : List Event) : ∀ e : Event, e.Routine → Admissible before e
  | .frame _, _ | .onData .., _ | .onPoll _, _ | .onCancel _, _ | .onClose _, _ | .rejected _, _ | .exhausted _, _ => trivial

lemma handles_of_routine {id : Nat} : ∀ {e : Event}, e.Routine → e.handles id = false
  | .frame _, _ | .onData .., _ | .onPoll _, _ | .onCancel _, _ | .onClose _, _ | .rejected _, _ | .exhausted _, _ => rfl

lemma offers_of_routine {id : Nat} : ∀ {e : Event}, e.Routine → e.offers id = false
  | .frame _, _ | .onData .., _ | .onPoll _, _ | .onCancel _, _ | .onClose _, _ | .rejected _, _ | .exhausted _, _ => rfl

lemma handles_once {t : List Event} (orderly : Orderly Admissible t) (id : Nat) : t.countP (Event.handles id) ≤ 1 := by
  refine orderly.countP_le_one fun before e admissible handles => ?_
  cases e with
  | handler id' req blockOpen =>
    obtain rfl : id' = id := by simpa [Event.handles] using handles
    exact admissible.2.2.2
  | _ => cases handles

/-! ### What a connection remembers -/

/-- What holds of the streams in the table and the events so far. `opening` is a stream whose header
block is being decoded. -/
structure Records (opening : Option Nat) (hc : Conn) : Prop where
  unique : hc.Unique
  orderly : Orderly Admissible hc.trace
  created : ∀ s ∈ hc.streams, .created s.streamId ∈ hc.trace
  decoded : ∀ s ∈ hc.streams, some s.streamId ≠ opening → .decoded s.streamId ∈ hc.trace
  handledKnown : ∀ id, ∀ e ∈ hc.trace, e.handles id = true → .created id ∈ hc.trace
  offeredKnown : ∀ id, ∀ e ∈ hc.trace, e.offers id = true → .created id ∈ hc.trace
  offered : ∀ id, ∀ e ∈ hc.trace, e.offers id = true → ∀ s ∈ hc.streams, s.streamId = id → s.hookOffered = true

structure Lifecycle (opening : Option Nat) (hc : Conn) : Prop extends Records opening hc where
  handled : ∀ id, ∀ e ∈ hc.trace, e.handles id = true → hc.Served id

variable {env : Env} {hc hc' hc₁ : Conn} {s : Stream} {streamId : Nat} {opening : Option Nat}

section Streams

lemma mem_of_extends {before after : List Event} {p : Event → Bool} {e : Event}
    (grown : Extends Event.Routine before after) (other : ∀ e : Event, e.Routine → p e = false) (member : e ∈ after)
    (holds : p e = true) : e ∈ before :=
  (grown.mem_iff fun routine => by simp [other e routine] at holds).mp member

lemma Records.keeps (records : Records opening hc) (keeps : Keeps hc hc') : Records opening hc' where
  unique := keeps.unique records.unique
  orderly := records.orderly.extend keeps.trace admissible_of_routine
  created := fun t member => by
    obtain ⟨s, sMember, evolves⟩ := keeps.streams t member
    rw [evolves.streamId]
    exact keeps.trace.mem (records.created s sMember)
  decoded := fun t member other => by
    obtain ⟨s, sMember, evolves⟩ := keeps.streams t member
    rw [evolves.streamId] at other ⊢
    exact keeps.trace.mem (records.decoded s sMember other)
  handledKnown := fun id e member handles =>
    keeps.trace.mem (records.handledKnown id e
      (mem_of_extends keeps.trace (fun _ => handles_of_routine) member handles) handles)
  offeredKnown := fun id e member offers =>
    keeps.trace.mem (records.offeredKnown id e
      (mem_of_extends keeps.trace (fun _ => offers_of_routine) member offers) offers)
  offered := fun id e member offers t tMember same => by
    obtain ⟨s, sMember, evolves⟩ := keeps.streams t tMember
    have before := mem_of_extends keeps.trace (fun _ => offers_of_routine) member offers
    rw [evolves.hookOffered]
    exact records.offered id e before offers s sMember (evolves.streamId ▸ same)

lemma Lifecycle.keeps (life : Lifecycle opening hc) (keeps : Keeps hc hc') : Lifecycle opening hc' where
  toRecords := life.toRecords.keeps keeps
  handled := fun id e member handles =>
    keeps.served (life.handled id e (mem_of_extends keeps.trace (fun _ => handles_of_routine) member handles) handles)

lemma Lifecycle.log {e : Event} (life : Lifecycle opening hc) (free : ∀ before, Admissible before e)
    (handles : ∀ id, e.handles id = false) (offers : ∀ id, e.offers id = false) : Lifecycle opening (hc.log e) := by
  have before {e' : Event} {p : Event → Bool} (other : p e = false) (member : e' ∈ (hc.log e).trace)
      (holds : p e' = true) : e' ∈ hc.trace := by
    rcases mem_append.mp member with old | new
    · exact old
    · rw [mem_singleton.mp new, other] at holds
      cases holds
  exact {
    unique := life.unique
    orderly := life.orderly.snoc (free _)
    created := fun s member => mem_append_left _ (life.created s member)
    decoded := fun s member other => mem_append_left _ (life.decoded s member other)
    handledKnown := fun id e' member holds =>
      mem_append_left _ (life.handledKnown id e' (before (handles id) member holds) holds)
    offeredKnown := fun id e' member holds =>
      mem_append_left _ (life.offeredKnown id e' (before (offers id) member holds) holds)
    offered := fun id e' member holds => life.offered id e' (before (offers id) member holds) holds
    handled := fun id e' member holds => life.handled id e' (before (handles id) member holds) holds }

lemma Lifecycle.streamOpen (life : Lifecycle none hc) (absent : hc.find streamId = none)
    (fresh : .created streamId ∉ hc.trace) : Lifecycle (some streamId) (hc.streamOpen streamId) := by
  have before {e' : Event} {p : Event → Bool} (other : p (.created streamId) = false)
      (member : e' ∈ (hc.streamOpen streamId).trace) (holds : p e' = true) : e' ∈ hc.trace := by
    rcases mem_append.mp member with old | new
    · exact old
    · rw [mem_singleton.mp new, other] at holds
      cases holds
  have members {t : Stream} (member : t ∈ (hc.streamOpen streamId).streams) :
      t = Stream.fresh streamId hc.peerInitialWindowSize ∨ t ∈ hc.streams := by
    rw [streamOpen_streams] at member
    exact mem_cons.mp member
  refine {
    unique := life.unique.streamOpen absent
    orderly := life.orderly.snoc fresh
    created := fun t member => ?_
    decoded := fun t member other => ?_
    handledKnown := fun id e' member holds =>
      mem_append_left _ (life.handledKnown id e' (before rfl member holds) holds)
    offeredKnown := fun id e' member holds =>
      mem_append_left _ (life.offeredKnown id e' (before rfl member holds) holds)
    offered := fun id e' member holds t tMember same => ?_
    handled := fun id e' member holds t tMember same => ?_ }
  · rcases members member with rfl | old
    · exact mem_append_right _ mem_cons_self
    · exact mem_append_left _ (life.created t old)
  · rcases members member with rfl | old
    · exact absurd rfl other
    · exact mem_append_left _ (life.decoded t old nofun)
  · have old := before rfl member holds
    rcases members tMember with rfl | tOld
    · obtain rfl : streamId = id := same
      exact absurd (life.offeredKnown streamId e' old holds) fresh
    · exact life.offered id e' old holds t tOld same
  · have old := before rfl member holds
    rcases members tMember with rfl | tOld
    · obtain rfl : streamId = id := same
      exact absurd (life.handledKnown streamId e' old holds) fresh
    · exact life.handled id e' old holds t tOld same

lemma Lifecycle.log_decoded (life : Lifecycle opening hc) (only : ∀ id, opening = some id → id = streamId) :
    Lifecycle none (hc.log (.decoded streamId)) := by
  have logged : Lifecycle opening (hc.log (.decoded streamId)) := life.log (fun _ => trivial) (fun _ => rfl) (fun _ => rfl)
  refine { logged with decoded := fun s member _ => ?_ }
  by_cases here : some s.streamId = opening
  · rw [only s.streamId here.symm]
    exact mem_append_right _ mem_cons_self
  · exact logged.decoded s member here

lemma Lifecycle.gone (life : Lifecycle opening hc) (only : ∀ id, opening = some id → id = streamId)
    (gone : ∀ t ∈ hc.streams, t.streamId ≠ streamId) : Lifecycle none hc :=
  { life with
    decoded := fun s member _ => life.decoded s member fun here => gone s member (only s.streamId here.symm) }

end Streams

/-! ### Hook and handler -/

variable {endStream : Bool}

section Handler

variable {s' : Stream}

lemma mem_replaceStream {t : Stream} : ∀ {streams : List Stream}, t ∈ replaceStream s' streams → t = s' ∨ t ∈ streams
  | [], member => absurd member not_mem_nil
  | u :: rest, member => by
    rw [replaceStream] at member
    split at member
    · rcases mem_cons.mp member with here | later
      · exact .inl here
      · exact .inr (mem_cons_of_mem _ later)
    · rcases mem_cons.mp member with here | later
      · exact .inr (here ▸ mem_cons_self)
      · exact (mem_replaceStream later).imp_right (mem_cons_of_mem _)

lemma offered_hookOffered (s : Stream) (ctx : Option Nat) : (s.offered ctx).hookOffered = true := by
  cases ctx <;> rfl

lemma offered_response (s : Stream) (ctx : Option Nat) : (s.offered ctx).response = s.response := by
  cases ctx <;> rfl

lemma Lifecycle.hookOffer (life : Lifecycle none hc) (found : hc.find s.streamId = some s) :
    Lifecycle none (hc.hookOffer env s).2 := by
  rcases hookOffer_spec env hc s with same | ⟨req, ctx, request, fresh, -, offer⟩
  · rw [same]
    exact life
  rw [offer]
  obtain ⟨sMember, -⟩ := mem_of_find found
  let asked := hc.log (.onHeaders s.streamId req hc.cont.expecting)
  have notYet : ∀ e ∈ hc.trace, e.offers s.streamId = false := by
    intro e member
    by_contra offers
    have already := life.offered s.streamId e member (by simpa using offers) s sMember rfl
    rw [fresh] at already
    cases already
  have there := find_put found (offered_streamId s ctx)
  have unique : (asked.put (s.offered ctx)).Unique := (leaves_put asked _).unique life.unique
  -- The stream that was offered is the only one that has changed.
  have members {t : Stream} (member : t ∈ (asked.put (s.offered ctx)).streams) : t = s.offered ctx ∨ t ∈ hc.streams :=
    mem_replaceStream member
  have ids {t : Stream} (member : t ∈ (asked.put (s.offered ctx)).streams) : ∃ u ∈ hc.streams, t.streamId = u.streamId := by
    rcases members member with rfl | old
    · exact ⟨s, sMember, offered_streamId s ctx⟩
    · exact ⟨t, old, rfl⟩
  have handledBefore {e : Event} {id : Nat} (member : e ∈ asked.trace) (handles : e.handles id = true) : e ∈ hc.trace := by
    rcases mem_append.mp member with old | new
    · exact old
    · rw [mem_singleton.mp new] at handles
      cases handles
  refine {
    unique := unique
    orderly := life.orderly.snoc ⟨life.decoded s sMember nofun, notYet⟩
    created := fun t member => ?_
    decoded := fun t member _ => ?_
    handledKnown := fun id e member handles =>
      mem_append_left _ (life.handledKnown id e (handledBefore member handles) handles)
    offeredKnown := fun id e member offers => ?_
    offered := fun id e member offers t tMember same => ?_
    handled := fun id e member handles t tMember same => ?_ }
  · obtain ⟨u, uMember, same⟩ := ids member
    exact mem_append_left _ (same ▸ life.created u uMember)
  · obtain ⟨u, uMember, same⟩ := ids member
    exact mem_append_left _ (same ▸ life.decoded u uMember nofun)
  · rcases mem_append.mp member with old | new
    · exact mem_append_left _ (life.offeredKnown id e old offers)
    · rw [mem_singleton.mp new] at offers
      obtain rfl : s.streamId = id := by simpa [Event.offers] using offers
      exact mem_append_left _ (life.created s sMember)
  · rcases members tMember with rfl | old
    · exact offered_hookOffered s ctx
    rcases mem_append.mp member with before | new
    · exact life.offered id e before offers t old same
    rw [mem_singleton.mp new] at offers
    obtain rfl : s.streamId = id := by simpa [Event.offers] using offers
    rw [unique.eq_of_find there tMember same]
    exact offered_hookOffered s ctx
  · rcases members tMember with rfl | old
    · have served := life.handled id e (handledBefore member handles) handles s sMember (offered_streamId s ctx ▸ same)
      rcases served with gone | sent
      · rw [request] at gone
        cases gone
      · exact .inr (offered_response s ctx ▸ sent)
    · exact life.handled id e (handledBefore member handles) handles t old same

lemma Lifecycle.dispatch {data : Bool} {req : Request} (life : Lifecycle none hc) (found : hc.find s.streamId = some s)
    (request : s.req = some req) (unanswered : s.response = none) (ended : .endStream s.streamId ∈ hc.trace)
    (closed : hc.cont.expecting = false) : Lifecycle none (hc.dispatch env data s req) := by
  obtain ⟨hc₁, called, acts, served⟩ := dispatch_spec env data req found
  rcases called with rfl | rfl
  · exact life.keeps acts.keeps
  obtain ⟨sMember, -⟩ := mem_of_find found
  have keeps := acts.keeps
  have notYet : ∀ e ∈ hc.trace, e.handles s.streamId = false := by
    intro e member
    by_contra handles
    rcases life.handled s.streamId e member (by simpa using handles) s sMember rfl with gone | sent
    · rw [request] at gone
      cases gone
    · rw [unanswered] at sent
      cases sent
  have records : Records none (hc.log (.handler s.streamId req hc.cont.expecting)) := {
    unique := life.unique
    orderly := life.orderly.snoc ⟨closed, life.decoded s sMember nofun, ended, notYet⟩
    created := fun t member => mem_append_left _ (life.created t member)
    decoded := fun t member other => mem_append_left _ (life.decoded t member other)
    handledKnown := fun id e member handles => by
      rcases mem_append.mp member with old | new
      · exact mem_append_left _ (life.handledKnown id e old handles)
      · rw [mem_singleton.mp new] at handles
        obtain rfl : s.streamId = id := by simpa [Event.handles] using handles
        exact mem_append_left _ (life.created s sMember)
    offeredKnown := fun id e member offers => by
      rcases mem_append.mp member with old | new
      · exact mem_append_left _ (life.offeredKnown id e old offers)
      · rw [mem_singleton.mp new] at offers
        cases offers
    offered := fun id e member offers t tMember same => by
      rcases mem_append.mp member with old | new
      · exact life.offered id e old offers t tMember same
      · rw [mem_singleton.mp new] at offers
        cases offers }
  refine { records.keeps keeps with handled := fun id e member handles => ?_ }
  by_cases here : s.streamId = id
  · exact here ▸ served life.unique
  have before := mem_of_extends keeps.trace (fun _ => handles_of_routine) member handles
  rcases mem_append.mp before with old | new
  · exact keeps.served (life.handled id e old handles)
  · rw [mem_singleton.mp new] at handles
    exact absurd (by simpa [Event.handles] using handles) here

def Conn.Answerable (hc : Conn) (s : Stream) : Prop :=
  s.req = none ∨ s.response = none ∧ .endStream s.streamId ∈ hc.trace ∧ hc.cont.expecting = false

lemma Lifecycle.completeRequest (life : Lifecycle none hc) (found : hc.find s.streamId = some s)
    (answerable : endStream = true → hc.Answerable s) : Lifecycle none (hc.completeRequest env endStream s) := by
  rcases completeRequest_cases env endStream hc s with acts | ⟨s', hc', offer, rest⟩
  · exact life.keeps acts.keeps
  have offered : Lifecycle none (hc.hookOffer env s).2 := life.hookOffer found
  have there := hookOffer_found env found
  have leaves := hookOffer_leaves env hc s
  rw [offer] at offered there leaves
  rcases rest with acts | ⟨req, request, -, ended, same⟩
  · exact offered.keeps acts.keeps
  rw [same]
  have unchanged : s.req ≠ none ∧ s'.response = s.response ∧ s'.streamId = s.streamId := by
    rcases hookOffer_spec env hc s with kept | ⟨req', ctx, request', -, -, asked⟩
    · rw [offer] at kept
      obtain ⟨rfl, -⟩ := Prod.mk.inj kept
      exact ⟨by simp [request], rfl, rfl⟩
    · rw [offer] at asked
      obtain ⟨rfl, -⟩ := Prod.mk.inj asked
      exact ⟨by simp [request'], offered_response s ctx, offered_streamId s ctx⟩
  obtain ⟨unanswered, seen, closed⟩ := (answerable ended).resolve_left unchanged.1
  exact offered.dispatch there request (unchanged.2.1.trans unanswered)
    (unchanged.2.2 ▸ leaves.trace.subset seen) (leaves.cont ▸ closed)

end Handler

/-! ### Header blocks -/

variable {block : Bytes}

section Blocks

variable {isRequest : Bool} {rc : HdrRc}

lemma Lifecycle.setTable {table : HpackTable} (life : Lifecycle opening hc) : Lifecycle opening (hc.setTable table) :=
  { life with }

lemma DecodeCase.lifecycle (decode : DecodeCase env hc s block isRequest (rc, hc₁)) (life : Lifecycle opening hc)
    (only : ∀ id, opening = some id → id = s.streamId) :
    Orderly Admissible hc₁.trace ∧ (rc ≠ .protocolError → Lifecycle none hc₁) := by
  cases decode with
  | decoded stage =>
    have decoded := (life.setTable.keeps stage.acts.keeps).log_decoded only
    exact ⟨decoded.orderly, fun _ => decoded⟩
  | reset acts gone =>
    have reset := (life.setTable.keeps acts.keeps).gone only gone
    exact ⟨reset.orderly, fun _ => reset⟩
  | failed acts => exact ⟨(life.setTable.keeps acts.keeps).orderly, fun goes => absurd rfl goes⟩
  | exhausted exhausts => exact ⟨(life.setTable.keeps exhausts.keeps).orderly, fun goes => absurd rfl goes⟩

lemma Lifecycle.log_refused (life : Lifecycle opening hc) : Lifecycle opening (hc.log (.refused streamId)) :=
  life.log (fun _ => trivial) (fun _ => rfl) (fun _ => rfl)

lemma BlockCase.lifecycle (decode : BlockCase env hc streamId block (rc, hc₁)) (life : Lifecycle none hc)
    (fresh : hc.find streamId = none → .created streamId ∉ hc.trace) :
    Orderly Admissible hc₁.trace ∧ (rc ≠ .protocolError → rc ≠ .calm → Lifecycle none hc₁) := by
  cases decode with
  | empty => exact ⟨life.orderly, fun _ _ => life⟩
  | trailers _ _ decode => exact (decode.lifecycle life nofun).imp_right fun alive goes _ => alive goes
  | refused _ _ acts =>
    have refused := life.log_refused.keeps acts.keeps
    exact ⟨refused.orderly, fun _ _ => refused⟩
  | refusedSpent _ exhausts => exact ⟨(life.log_refused.keeps exhausts.keeps).orderly, fun _ goes => absurd rfl goes⟩
  | nothing absent _ acts gone =>
    have closed := ((life.streamOpen absent (fresh absent)).keeps acts.keeps).gone (by simp) gone
    exact ⟨closed.orderly, fun _ _ => closed⟩
  | nothingSpent absent _ exhausts =>
    exact ⟨((life.streamOpen absent (fresh absent)).keeps exhausts.keeps).orderly, fun _ goes => absurd rfl goes⟩
  | request absent _ _ decode =>
    have opened := life.streamOpen absent (fresh absent)
    exact (decode.lifecycle opened (by simp [Stream.fresh, Stream.create])).imp_right fun alive goes _ => alive goes

lemma DecodeCase.created {id : Nat} (decode : DecodeCase env hc s block isRequest (rc, hc₁)) :
    .created id ∈ hc₁.trace ↔ .created id ∈ hc.trace := by
  have other : ¬Event.Routine (.created id) := nofun
  cases decode with
  | decoded stage =>
    have before := stage.acts.keeps.trace.mem_iff other
    simpa [Conn.log, Io.log, setTable] using before
  | reset acts => exact acts.keeps.trace.mem_iff other
  | failed acts => exact acts.keeps.trace.mem_iff other
  | exhausted exhausts => exact exhausts.keeps.trace.mem_iff other

lemma BlockCase.created {id : Nat} (decode : BlockCase env hc streamId block (rc, hc₁))
    (member : .created id ∈ hc₁.trace) : .created id ∈ hc.trace ∨ id = streamId := by
  have other : ¬Event.Routine (.created id) := nofun
  have opened (member : .created id ∈ (hc.streamOpen streamId).trace) : .created id ∈ hc.trace ∨ id = streamId := by
    rcases mem_append.mp member with old | new
    · exact .inl old
    · exact .inr (by simpa using mem_singleton.mp new)
  cases decode with
  | empty => exact .inl member
  | trailers _ _ decode => exact .inl (decode.created.mp member)
  | refused _ _ acts =>
    have before := (acts.keeps.trace.mem_iff other).mp member
    exact .inl (by simpa [Conn.log, Io.log] using before)
  | refusedSpent _ exhausts =>
    have before := (exhausts.keeps.trace.mem_iff other).mp member
    exact .inl (by simpa [Conn.log, Io.log] using before)
  | nothing _ _ acts => exact opened ((acts.keeps.trace.mem_iff other).mp member)
  | nothingSpent _ _ exhausts => exact opened ((exhausts.keeps.trace.mem_iff other).mp member)
  | request _ _ _ decode => exact opened (decode.created.mp member)

lemma DecodeCase.cont (decode : DecodeCase env hc s block isRequest (rc, hc₁)) :
    hc₁.cont = hc.cont ∧ hc₁.lastProcessedStreamId = hc.lastProcessedStreamId := by
  cases decode with
  | decoded stage => exact ⟨stage.acts.keeps.cont, stage.acts.keeps.last⟩
  | reset acts => exact ⟨acts.keeps.cont, acts.keeps.last⟩
  | failed acts => exact ⟨acts.keeps.cont, acts.keeps.last⟩
  | exhausted exhausts => exact ⟨exhausts.keeps.cont, exhausts.keeps.last⟩

lemma BlockCase.cont (decode : BlockCase env hc streamId block (rc, hc₁)) :
    hc₁.cont = hc.cont ∧ hc₁.lastProcessedStreamId = hc.lastProcessedStreamId := by
  cases decode with
  | empty => exact ⟨rfl, rfl⟩
  | trailers _ _ decode => exact decode.cont
  | refused _ _ acts => exact ⟨acts.keeps.cont, acts.keeps.last⟩
  | refusedSpent _ exhausts => exact ⟨exhausts.keeps.cont, exhausts.keeps.last⟩
  | nothing _ _ acts => exact ⟨acts.keeps.cont, acts.keeps.last⟩
  | nothingSpent _ _ exhausts => exact ⟨exhausts.keeps.cont, exhausts.keeps.last⟩
  | request _ _ _ decode => exact decode.cont

lemma BlockCase.found (decode : BlockCase env hc streamId block (.ok, hc₁)) : ∃ s', hc₁.find streamId = some s' ∧
      (s'.response = none ∧ hc.find streamId = none ∨
        ∃ s, hc.find streamId = some s ∧ s'.req.isSome = s.req.isSome ∧ s'.response = s.response) := by
  have decoded {hc : Conn} {s : Stream} {isRequest : Bool} (decode : DecodeCase env hc s block isRequest (.ok, hc₁)) :
      ∃ s', hc₁.find s.streamId = some s' ∧ s'.req.isSome = s.req.isSome ∧ s'.response = s.response := by
    cases decode with
    | decoded stage request => exact ⟨_, stage.evolves.streamId ▸ stage.found, request, stage.response⟩
  cases decode with
  | empty s found => exact ⟨s, found, .inr ⟨s, found, rfl, rfl⟩⟩
  | trailers found _ decode =>
    obtain ⟨s', there, rest⟩ := decoded decode
    obtain ⟨-, same⟩ := mem_of_find found
    exact ⟨s', same ▸ there, .inr ⟨_, found, rest⟩⟩
  | request absent _ _ decode =>
    obtain ⟨s', there, -, response⟩ := decoded decode
    exact ⟨s', there, .inl ⟨response, absent⟩⟩

end Blocks

/-! ### The open header block -/

/-- What holds of the header block that is being collected, and of the identifiers used so far. -/
structure Collecting (hc : Conn) : Prop where
  below : ∀ id, .created id ∈ hc.trace → id ≤ hc.lastProcessedStreamId
  pending : hc.cont.expecting = true → hc.cont.streamId ≤ hc.lastProcessedStreamId
  refused : hc.cont.expecting = true → hc.cont.discard = true → hc.find hc.cont.streamId = none
  fresh : hc.cont.expecting = true → hc.cont.discard = false → hc.find hc.cont.streamId = none →
    .created hc.cont.streamId ∉ hc.trace
  ended : hc.cont.expecting = true → hc.cont.endStream = true → .endStream hc.cont.streamId ∈ hc.trace
  spent : hc.cont.expecting = true → hc.cont.endStream = true → ∀ s, hc.find hc.cont.streamId = some s → s.req = none

/-- A connection that has behaved so far and, while it is open, can go on. -/
structure Sound (hc : Conn) : Prop where
  orderly : Orderly Admissible hc.trace
  lifecycle : hc.connected = true → Lifecycle none hc
  collecting : hc.connected = true → Collecting hc

section Open

lemma Sound.of_open (life : Lifecycle none hc) (collecting : Collecting hc) : Sound hc :=
  ⟨life.orderly, fun _ => life, fun _ => collecting⟩

lemma Sound.of_closed (orderly : Orderly Admissible hc.trace) (closed : hc.connected = false) : Sound hc :=
  ⟨orderly, fun opened => by simp [closed] at opened, fun opened => by simp [closed] at opened⟩

lemma Sound.abort {code : ErrorCode} (orderly : Orderly Admissible hc.trace) : Sound (hc.abort env code) := by
  have acts : Acts env hc (hc.abort env code) := abort_acts
  exact .of_closed (orderly.extend acts.keeps.trace admissible_of_routine) rfl

lemma Collecting.of_idle (idle : hc.cont.expecting = false)
    (below : ∀ id, .created id ∈ hc.trace → id ≤ hc.lastProcessedStreamId) : Collecting hc where
  below := below
  pending := fun open_ => by simp [idle] at open_
  refused := fun open_ => by simp [idle] at open_
  fresh := fun open_ => by simp [idle] at open_
  ended := fun open_ => by simp [idle] at open_
  spent := fun open_ => by simp [idle] at open_

lemma Collecting.leaves_idle (collecting : Collecting hc) (leaves : Leaves hc hc') (idle : hc.cont.expecting = false) :
    Collecting hc' :=
  .of_idle (leaves.cont ▸ idle) fun id member => leaves.last ▸ collecting.below id (leaves.created id member)

lemma Collecting.keeps (collecting : Collecting hc) (keeps : Keeps hc hc') (unique : hc.Unique)
    (stays : hc.cont.expecting = true → hc'.find hc.cont.streamId = none → hc.find hc.cont.streamId = none) :
    Collecting hc' := by
  have created (id : Nat) : .created id ∈ hc'.trace ↔ .created id ∈ hc.trace := keeps.trace.mem_iff (by nofun)
  obtain ⟨below, pending, refused, fresh, ended, spent⟩ := collecting
  refine ⟨fun id member => keeps.last ▸ below id ((created id).mp member), ?_, ?_, ?_, ?_, ?_⟩ <;> rw [keeps.cont]
  · exact keeps.last ▸ pending
  · intro open_ discard
    have absent := find_eq_none.mp (refused open_ discard)
    refine find_eq_none.mpr fun t member same => ?_
    obtain ⟨u, uMember, evolves⟩ := keeps.streams t member
    exact absent u uMember (evolves.streamId ▸ same)
  · intro open_ discard gone
    rw [created]
    exact fresh open_ discard (stays open_ gone)
  · exact fun open_ last => keeps.trace.mem (ended open_ last)
  intro open_ last t found
  obtain ⟨tMember, same⟩ := mem_of_find found
  obtain ⟨u, uMember, evolves⟩ := keeps.streams t tMember
  have uId : u.streamId = hc.cont.streamId := evolves.streamId ▸ same
  cases there : hc.find hc.cont.streamId with
  | none => exact absurd uId (find_eq_none.mp there u uMember)
  | some s =>
    rw [← unique.eq_of_find there uMember uId] at there
    exact evolves.req (spent open_ last u there)

lemma find_hookEndStream (env : Env) (hc : Conn) (s : Stream) (id : Nat) : (hc.hookEndStream env s).find id = hc.find id := by
  unfold hookEndStream
  split <;> rfl

lemma find_hookOffer_none {id : Nat} (gone : (hc.hookOffer env s).2.find id = none) : hc.find id = none := by
  have ids : (hc.hookOffer env s).2.streams.map (·.streamId) = hc.streams.map (·.streamId) := by
    rcases hookOffer_spec env hc s with same | ⟨req, ctx, -, -, -, offer⟩
    · rw [same]
    · rw [offer]
      exact replaceStream_ids _ _
  refine find_eq_none.mpr fun t member same => ?_
  obtain ⟨u, uMember, uId⟩ := mem_map.mp (ids ▸ mem_map_of_mem (f := Stream.streamId) member)
  exact find_eq_none.mp gone u uMember (uId.trans same)

lemma completeRequest_open (spent : endStream = true → s.req = none) :
    hc.completeRequest env endStream s = (if endStream then hc else (hc.hookOffer env s).2) ∨
      hc.completeRequest env endStream s = hc.hookEndStream env s := by
  unfold completeRequest
  cases endStream with
  | false =>
    refine .inl ?_
    rw [if_neg (by simp)]
    dsimp only
    split
    · rfl
    · split <;> rfl
  | true =>
    have gone := spent rfl
    have offer : hc.hookOffer env s = (s, hc) := by
      unfold hookOffer
      split <;> simp_all
    rw [if_neg (by simp [gone]), offer]
    dsimp only
    split
    · exact .inr rfl
    · rw [gone]
      exact .inl rfl

end Open

/-! ### Frames -/

/-- A HEADERS or DATA frame with END_STREAM ends a stream whose request is still to be answered, and not
in the middle of its trailers. -/
def Conn.EndsOnce (hc : Conn) (f : Frame) : Prop :=
  f.type = Frame.headers ∨ f.type = Frame.data → f.endStream = true → ∀ s ∈ hc.find f.streamId,
    s.req.isNone ∨ s.response.isNone ∧ (f.type = Frame.headers → f.endHeaders = true)

section Frames

variable {endHeaders : Bool} {f : Frame}

lemma Lifecycle.afterHeaders (life : Lifecycle none hc)
    (answerable : endStream = true → ∀ s, hc.find streamId = some s → hc.Answerable s) :
    Lifecycle none (hc.afterHeaders env endStream streamId) := by
  unfold Conn.afterHeaders
  split
  · exact life
  rename_i s found
  obtain ⟨-, rfl⟩ := mem_of_find found
  split
  · split
    · exact life.keeps (Acts.refl hc).hookEndStream.keeps
    · exact life
  · exact life.completeRequest found fun ended => answerable ended s found

lemma Collecting.afterHeaders (collecting : Collecting hc) (unique : hc.Unique) (open_ : hc.cont.expecting = true)
    (same : hc.cont.streamId = streamId) : Collecting (hc.afterHeaders env hc.cont.endStream streamId) := by
  have ended (s : Stream) : Collecting (hc.hookEndStream env s) :=
    collecting.keeps (Acts.refl hc).hookEndStream.keeps unique fun _ gone => find_hookEndStream env hc s _ ▸ gone
  unfold Conn.afterHeaders
  split
  · exact collecting
  rename_i s found
  split
  · split
    · exact ended s
    · exact collecting
  rcases completeRequest_open (fun last => collecting.spent open_ last s (same ▸ found)) with offered | last
  · rw [offered]
    split
    · exact collecting
    rename_i more
    have leaves := hookOffer_leaves env hc s
    refine ⟨fun id member => leaves.last ▸ collecting.below id (leaves.created id member), ?_, ?_, ?_, ?_, ?_⟩ <;>
      rw [leaves.cont]
    · exact leaves.last ▸ collecting.pending
    · intro _ discard
      have absent := collecting.refused open_ discard
      rw [same, found] at absent
      cases absent
    · exact fun _ kept gone member => collecting.fresh open_ kept (find_hookOffer_none gone) (leaves.created _ member)
    · exact fun _ last => absurd last more
    · exact fun _ last => absurd last more
  · rw [last]
    exact ended s

section
variable (life : Lifecycle none hc) (collecting : Collecting hc)
include life collecting

lemma headersBlock_sound (idle : hc.cont.expecting = false) (once : endStream = true → ∀ s, hc.find streamId = some s →
      s.req = none ∨ s.response = none ∧ endHeaders = true) :
    Sound (hc.headersBlock env streamId block endHeaders endStream) := by
  unfold headersBlock
  dsimp only
  have noted := leaves_endStream hc streamId endStream
  have life : Lifecycle none (if endStream then hc.log (.endStream streamId) else hc) := by
    split
    · exact life.log (fun _ => trivial) (fun _ => rfl) (fun _ => rfl)
    · exact life
  have seen (ended : endStream = true) :
      .endStream streamId ∈ (if endStream then hc.log (.endStream streamId) else hc).trace := by
    rw [if_pos ended]
    exact mem_append_right _ mem_cons_self
  have once : endStream = true → ∀ s, (if endStream then hc.log (.endStream streamId) else hc).find streamId = some s →
      s.req = none ∨ s.response = none ∧ endHeaders = true := by
    intro ended s found
    rw [if_pos ended] at found
    exact once ended s found
  have collecting := collecting.leaves_idle noted idle
  have idle : (if endStream then hc.log (.endStream streamId) else hc).cont.expecting = false := noted.cont ▸ idle
  generalize (if endStream then hc.log (.endStream streamId) else hc) = base at life seen once collecting idle ⊢
  have begun : BeginCase env base streamId block endHeaders endStream _ := beginHeaders_cases life.unique idle
  generalize base.beginHeaders env streamId block endHeaders endStream = result at begun ⊢
  have unused (fresh : base.find streamId = none → base.lastProcessedStreamId < streamId)
      (absent : base.find streamId = none) : .created streamId ∉ base.trace := fun member => by
    have := collecting.below streamId member
    have := fresh absent
    omega
  cases begun with
  | invalid => exact .abort life.orderly
  | tooLong => exact .abort life.orderly
  | complete fresh ended decode =>
    obtain ⟨rc, hc₁⟩ := result
    obtain ⟨orderly, alive⟩ := decode.lifecycle life (unused fresh)
    have cont := decode.cont
    have below : ∀ id, .created id ∈ hc₁.trace → id ≤ max hc₁.lastProcessedStreamId streamId := by
      intro id member
      rcases decode.created member with old | rfl
      · have := collecting.below id old
        omega
      · omega
    have collecting : Collecting (hc₁.setLast (max hc₁.lastProcessedStreamId streamId)) :=
      .of_idle (cont.1 ▸ idle) below
    cases rc with
    | protocolError => exact .abort orderly
    | calm => exact .abort orderly
    | handled => exact .of_open { alive nofun nofun with } collecting
    | ok =>
      let noted := hc₁.setLast (max hc₁.lastProcessedStreamId streamId)
      have life : Lifecycle none noted := { alive nofun nofun with }
      refine .of_open (life.afterHeaders fun last s found => ?_)
        (collecting.leaves_idle afterHeaders_leaves (cont.1 ▸ idle))
      have seen := decode.proceeds.trace.subset (seen last)
      obtain ⟨s', there, new | ⟨s₀, found₀, request, response⟩⟩ := decode.found
      all_goals
        obtain rfl : s' = s := Option.some.inj (there.symm.trans found)
        obtain ⟨-, same⟩ := mem_of_find found
      · exact .inr ⟨new.1, same ▸ seen, cont.1 ▸ idle⟩
      · rcases once last s₀ found₀ with gone | ⟨unanswered, -⟩
        · exact .inl (by simpa [gone] using request)
        · exact .inr ⟨response.trans unanswered, same ▸ seen, cont.1 ▸ idle⟩
  | @refused hc₁ absent acts =>
    have refused := life.log_refused.keeps acts.keeps
    refine .of_open { refused with } ?_
    have gone : ∀ t ∈ hc₁.streams, t.streamId ≠ streamId := fun t member same => by
      obtain ⟨u, uMember, evolves⟩ := acts.keeps.streams t member
      exact find_eq_none.mp absent u uMember (evolves.streamId ▸ same)
    refine ⟨?_, fun _ => le_max_right _ _, fun _ _ => find_eq_none.mpr gone, nofun, fun _ last => ?_, fun _ _ s found => ?_⟩
    · intro id member
      have := collecting.below id (((leaves_log base (by trivial)).trans acts.leaves).created id member)
      have last : hc₁.lastProcessedStreamId = base.lastProcessedStreamId := acts.keeps.last
      show id ≤ max hc₁.lastProcessedStreamId streamId
      omega
    · exact acts.keeps.trace.mem (mem_append_left _ (seen last))
    · obtain ⟨member, same⟩ := mem_of_find found
      exact absurd same (gone s member)
  | exhausted exhausts => exact .abort (life.log_refused.keeps exhausts.keeps).orderly
  | begun fresh more =>
    let opened := (base.setCont ⟨block, streamId, true, endStream, false, 0⟩).setLast
      (max base.lastProcessedStreamId streamId)
    have life : Lifecycle none opened := { life with }
    have collecting : Collecting opened := by
      refine ⟨fun id member => le_trans (collecting.below id member) (le_max_left _ _), fun _ => le_max_right _ _, nofun,
        fun _ _ => unused fresh, fun _ => seen, fun _ last s found => ?_⟩
      rcases once last s found with gone | ⟨-, ended⟩
      · exact gone
      · rw [more] at ended
        cases ended
    refine .of_open (life.afterHeaders fun last s found => .inl (collecting.spent rfl last s found)) ?_
    exact collecting.afterHeaders life.unique rfl rfl

lemma continuationCase_sound : Sound (hc.continuationCase env f) := by
  unfold continuationCase
  split
  · exact .abort life.orderly
  rename_i valid
  obtain ⟨open_, same, continued⟩ := continuation_expected env life.unique valid
  generalize hc.handleContinuation env f.streamId f.payload f.endHeaders = result at continued ⊢
  cases continued with
  | flood => exact .abort life.orderly
  | @discarded cont refused last after =>
    have absent := collecting.refused open_ refused
    have life : Lifecycle none (hc.setCont cont) := { life with }
    have collecting : Collecting (hc.setCont cont) := by
      refine ⟨collecting.below, ?_, ?_, ?_, ?_, ?_⟩
      · exact fun open_' => (after open_').1 ▸ collecting.pending open_
      · exact fun open_' _ => (after open_').1 ▸ absent
      · intro open_' kept
        have := (after open_').2
        simp [setCont, this] at kept
      · exact fun open_' ended => (after open_').1 ▸ collecting.ended open_ (last ▸ ended)
      · exact fun open_' ended => (after open_').1 ▸ collecting.spent open_ (last ▸ ended)
    dsimp only
    unfold afterContinuation
    split
    · exact .abort life.orderly
    split
    · have gone : (hc.setCont cont).find f.streamId = none := same ▸ absent
      rw [gone]
      exact .of_open life collecting
    · exact .of_open life collecting
  | collected _ more =>
    dsimp only
    unfold afterContinuation
    split
    · exact .abort life.orderly
    rw [if_neg (by simp [more])]
    exact .of_open { life with } { collecting with }
  | @complete rc hc₁ kept ended decode =>
    obtain ⟨orderly, alive⟩ := decode.lifecycle { life with } (collecting.fresh open_ kept)
    have frame := decode.cont
    have below : ∀ id, .created id ∈ hc₁.trace → id ≤ hc₁.lastProcessedStreamId := by
      intro id member
      rw [frame.2]
      rcases decode.created member with old | rfl
      · exact collecting.below id old
      · exact collecting.pending open_
    let closed := hc₁.setCont { hc₁.cont with expecting := false, buf := [], streamId := 0, frameCount := 0 }
    have collecting' : Collecting closed := .of_idle rfl below
    cases rc with
    | protocolError => exact .abort orderly
    | calm => exact .abort orderly
    | handled => exact .of_open { alive (by simp) (by simp) with } collecting'
    | ok =>
      have life' : Lifecycle none closed := { alive (by simp) (by simp) with }
      dsimp only
      unfold afterContinuation
      split
      · exact .abort orderly
      split
      next last =>
        have last : hc.cont.endStream = true := by simpa [setCont, frame.1] using last.2
        have seen : .endStream f.streamId ∈ hc₁.trace := decode.proceeds.trace.subset (same ▸ collecting.ended open_ last)
        obtain ⟨s, there, rest⟩ := decode.found
        have found : closed.find f.streamId = some s := same ▸ there
        obtain ⟨-, sId⟩ := mem_of_find found
        rw [found]
        have answerable : closed.Answerable s := by
          rcases rest with new | ⟨s₀, found₀, request, -⟩
          · exact .inr ⟨new.1, sId ▸ seen, rfl⟩
          · have gone := collecting.spent open_ last s₀ found₀
            exact .inl (by simpa [gone] using request)
        refine .of_open (life'.completeRequest (sId ▸ found) fun _ => answerable) ?_
        exact collecting'.leaves_idle (completeRequest_leaves (sId ▸ found)) rfl
      · exact .of_open life' collecting'

lemma dataCase_sound (idle : hc.cont.expecting = false)
    (once : f.endStream = true → ∀ s, hc.find f.streamId = some s → s.req = none ∨ s.response = none) :
    Sound (hc.dataCase env f) := by
  have kept {hc₁ : Conn} (acts : Acts env hc hc₁) : Sound hc₁ :=
    .of_open (life.keeps acts.keeps) (collecting.leaves_idle acts.leaves idle)
  unfold dataCase
  split
  · exact kept (Acts.refl hc).abortAt
  split
  · exact kept abort_acts
  dsimp only
  have noted := leaves_endStream hc f.streamId f.endStream
  have life : Lifecycle none (if f.endStream then hc.log (.endStream f.streamId) else hc) := by
    split
    · exact life.log (fun _ => trivial) (fun _ => rfl) (fun _ => rfl)
    · exact life
  have seen (ended : f.endStream = true) :
      .endStream f.streamId ∈ (if f.endStream then hc.log (.endStream f.streamId) else hc).trace := by
    rw [if_pos ended]
    exact mem_append_right _ mem_cons_self
  have once : f.endStream = true → ∀ s,
      (if f.endStream then hc.log (.endStream f.streamId) else hc).find f.streamId = some s →
      s.req = none ∨ s.response = none := by
    intro ended s found
    rw [if_pos ended] at found
    exact once ended s found
  have collecting := collecting.leaves_idle noted idle
  have idle : (if f.endStream then hc.log (.endStream f.streamId) else hc).cont.expecting = false := noted.cont ▸ idle
  generalize (if f.endStream then hc.log (.endStream f.streamId) else hc) = base at life seen once collecting idle ⊢
  have kept {hc₁ : Conn} (acts : Acts env base hc₁) : Sound hc₁ :=
    .of_open (life.keeps acts.keeps) (collecting.leaves_idle acts.leaves idle)
  split
  · exact kept dataUnknown_acts
  rename_i s found
  obtain ⟨-, same⟩ := mem_of_find found
  have there : base.find s.streamId = some s := same ▸ found
  rcases dataStream_cases there with (acts | ⟨hc₁, acts, fault⟩) | ⟨hc₁, s₁, req, stage, request, ended, result⟩
  · exact kept acts
  · rw [fault]
    exact .of_closed (life.keeps acts.keeps).orderly rfl
  rw [result]
  have unanswered : s.response = none := by
    rcases once ended s found with gone | unanswered
    · rw [stage.evolves.req gone] at request
      cases request
    · exact unanswered
  have seen : .endStream s₁.streamId ∈ hc₁.trace := by
    rw [stage.evolves.streamId, same]
    exact stage.acts.keeps.trace.mem (seen ended)
  have dispatched : Leaves base (hc₁.dispatch env true s₁ req) := stage.acts.leaves.trans (dispatch_leaves stage.found)
  exact .of_open
    ((life.keeps stage.acts.keeps).dispatch stage.found request (stage.response.trans unanswered) seen
      (stage.acts.keeps.cont ▸ idle))
    (collecting.leaves_idle dispatched idle)

lemma frameCase_sound (once : hc.EndsOnce f) : Sound (hc.frameCase env f) := by
  rcases frameCase_cases env hc f with
    ⟨code, aborts⟩ | ⟨type, idle, headers⟩ | ⟨-, continuation⟩ | ⟨type, idle, data⟩ | ⟨-, -, idle, acts⟩
  · exact aborts ▸ .abort life.orderly
  · rw [headers]
    unfold headersCase
    split
    · exact .of_closed (life.keeps (Acts.refl hc).abortAt.keeps).orderly rfl
    split
    · exact .abort life.orderly
    · refine headersBlock_sound life collecting idle fun ended s found => ?_
      have once := once (.inl type) ended s found
      simpa [type] using once
  · exact continuation ▸ continuationCase_sound life collecting
  · rw [data]
    refine dataCase_sound life collecting idle fun ended s found => ?_
    have once := once (.inr type) ended s found
    simp only [Option.isNone_iff_eq_none] at once
    exact once.imp_right And.left
  · exact .of_open (life.keeps acts.keeps) (collecting.leaves_idle acts.leaves idle)

end

end Frames

/-! ### Runs -/

/-- The stream whose trailers are being collected is not let go in the meantime. -/
def Conn.BlockStays (hc kept : Conn) : Prop :=
  hc.cont.expecting = true → (hc.find hc.cont.streamId).isSome = true → (kept.find hc.cont.streamId).isSome = true

def Conn.Steady (env : Env) (hc : Conn) : Input → Prop
  | .frame f => hc.BlockStays (hc.housekeeping env (.frame f)) ∧ (hc.housekeeping env (.frame f)).EndsOnce f
  | .completions queue => hc.BlockStays (hc.housekeeping env (.completions queue))
  | .deadline => hc.BlockStays (hc.housekeeping env .deadline)
  | .shutdown | .hangUp => True

instance (hc kept : Conn) : Decidable (hc.BlockStays kept) := inferInstanceAs (Decidable (_ → _ → _))

instance (hc : Conn) (f : Frame) : Decidable (hc.EndsOnce f) := inferInstanceAs (Decidable (_ ∨ _ → _ → ∀ s ∈ _, _))

instance (env : Env) (hc : Conn) : ∀ input, Decidable (hc.Steady env input)
  | .frame _ => inferInstanceAs (Decidable (_ ∧ _))
  | .completions queue => inferInstanceAs (Decidable (hc.BlockStays (hc.housekeeping env (.completions queue))))
  | .deadline => inferInstanceAs (Decidable (hc.BlockStays (hc.housekeeping env .deadline)))
  | .shutdown => .isTrue trivial
  | .hangUp => .isTrue trivial

section Runs

variable {input : Input}

lemma Lifecycle.sound (life : Lifecycle none hc) (collecting : Collecting hc) (acts : Acts env hc hc')
    (stays : hc.BlockStays hc') : Lifecycle none hc' ∧ Collecting hc' := by
  refine ⟨life.keeps acts.keeps, collecting.keeps acts.keeps life.unique fun open_ gone => ?_⟩
  by_contra present
  have stays := stays open_ (by simpa [Option.isSome_iff_ne_none] using present)
  rw [gone] at stays
  cases stays

lemma turn_sound (sound : Sound hc) (steady : hc.Steady env input) : Sound (hc.turn env input) := by
  by_cases closed : hc.connected = false
  · have same : hc.turn env input = hc := run_closed env [input] closed
    rw [same]
    exact sound
  have opened : hc.connected = true := by simpa using closed
  have life := sound.lifecycle opened
  have collecting := sound.collecting opened
  have kept {hc' : Conn} (acts : Acts env hc hc') (stays : hc.BlockStays hc') : Sound hc' :=
    .of_open (life.sound collecting acts stays).1 (life.sound collecting acts stays).2
  unfold Conn.turn
  rw [if_neg (by simp [opened])]
  cases input with
  | shutdown =>
    have announced : Acts env hc (hc.sendGoaway env hc.lastProcessedStreamId .noError).2 := (Acts.refl hc).sendGoaway
    dsimp only
    split <;> rename_i next call
    · refine kept (announced.of_call call) fun _ present => ?_
      obtain rfl : (hc.sendGoaway env hc.lastProcessedStreamId .noError).2 = next := by rw [call]
      exact present
    · exact .of_closed (life.keeps (announced.of_call call).close.keeps).orderly rfl
  | hangUp =>
    have acts : Acts env hc hc.close := (Acts.refl hc).close
    exact .of_closed (life.keeps acts.keeps).orderly rfl
  | frame f =>
    obtain ⟨life, collecting⟩ := life.sound collecting (Acts.refl hc).housekeeping steady.1
    dsimp only
    split
    · exact frameCase_sound life collecting steady.2
    · exact .of_open life collecting
  | completions queue => exact kept (Acts.refl hc).housekeeping steady
  | deadline => exact kept (Acts.refl hc).housekeeping steady

lemma start_sound (env : Env) (sequenced : Bool) : Sound (.start env sequenced) := by
  have acts := start_acts env sequenced
  have trace := init_trace env sequenced
  have streams := init_streams env sequenced
  have life : Lifecycle none (.init env sequenced) :=
    { unique := nodup_nil
      orderly := trace ▸ Trace.orderly_nil
      created := by simp [streams]
      decoded := by simp [streams]
      handledKnown := by simp [trace]
      offeredKnown := by simp [trace]
      offered := by simp [trace]
      handled := by simp [trace] }
  have collecting : Collecting (.init env sequenced) := .of_idle rfl (by simp [trace])
  exact .of_open (life.keeps acts.keeps) (collecting.leaves_idle acts.leaves rfl)

end Runs

/-- In a steady run every stream is created once, and the handler and `on_headers` are called once for
a stream and not before its header block, and in the handler's case END_STREAM, has arrived. -/
theorem run_orderly (env : Env) (sequenced : Bool) (inputs : List Input)
    (steady : Machine.Meets (Conn.turn env) (Conn.Steady env) (.start env sequenced) inputs) :
    Orderly Admissible ((Conn.start env sequenced).run env inputs).trace := by
  have sound := steady.invariant (fun _ _ => turn_sound) (start_sound env sequenced)
  exact sound.orderly

/-- A request with a body, ended by DATA and answered. -/
theorem run_orderly_request : Orderly Admissible ((Conn.start (.simple (.response (.ofBody [0x61]))) false).run
      (.simple (.response (.ofBody [0x61])))
      [.frame ⟨Frame.headers, 0x04, 1, [0x82, 0x86, 0x84]⟩, .frame ⟨Frame.data, 0x01, 1, [0x62]⟩]).trace :=
  run_orderly _ false _ (by decide)

def endedTwice : List Input :=
  [.frame ⟨Frame.settings, 0x00, 0, [0x00, 0x04, 0x00, 0x00, 0x00, 0x00]⟩,
   .frame ⟨Frame.headers, 0x05, 1, [0x82, 0x86, 0x84]⟩,
   .frame ⟨Frame.data, 0x01, 1, []⟩]

/-- The handler gets the request of a parked response again. -/
theorem run_endedTwice_handled : ¬Orderly Admissible ((Conn.start (.simple (.response (.ofBody [0x61]))) false).run
      (.simple (.response (.ofBody [0x61]))) endedTwice).trace := by
  intro orderly
  have once := handles_once orderly 1
  revert once
  decide

end Cwist.H2
