import Cwist.Http2.Acts

/-!
# What a frame can do

What acts leave alone, and one inversion lemma for each function that opens streams, decodes header blocks or calls
the handler.
-/

namespace Cwist.H2
open List Conn Event Cwist.H2.Frame Acts

open Http (Request Response)
open Trace (Extends)

/-! ### What acts leave alone -/

def Event.Routine : Event → Prop
  | .handler .. | .onHeaders .. | .endStream _ | .created _ | .refused _ | .decoded _ => False
  | _ => True

lemma Event.Quiet.routine : ∀ {e : Event}, e.Quiet → e.Routine
  | .frame _, _ | .onData .., _ | .onPoll _, _ | .onCancel _, _ | .onClose _, _ => trivial

/-- The counter of the stream table counts it, and the table is within the limit that was announced. -/
structure Conn.Counted (hc : Conn) : Prop where
  active : hc.activeStreams = hc.streams.length
  limit : hc.streams.length ≤ maxConcurrentStreams

structure Keeps (hc hc' : Conn) : Prop where
  cont : hc'.cont = hc.cont
  table : hc'.table = hc.table
  last : hc'.lastProcessedStreamId = hc.lastProcessedStreamId
  faulted : hc'.faulted = hc.faulted
  connected : hc'.connected = true → hc.connected = true
  trace : Extends Event.Routine hc.trace hc'.trace
  streams : ∀ t ∈ hc'.streams, ∃ s ∈ hc.streams, s.Evolves t
  ids : (hc'.streams.map (·.streamId)).Sublist (hc.streams.map (·.streamId))
  counted : hc.Counted → hc'.Counted

variable {env : Env} {hc hc₁ hc₂ : Conn}

namespace Keeps

lemma refl (hc : Conn) : Keeps hc hc where
  cont := rfl
  table := rfl
  last := rfl
  faulted := rfl
  connected := id
  trace := .refl _ _
  streams := fun t member => ⟨t, member, .refl t⟩
  ids := .refl _
  counted := id

lemma trans (h₁ : Keeps hc hc₁) (h₂ : Keeps hc₁ hc₂) : Keeps hc hc₂ where
  cont := h₂.cont.trans h₁.cont
  table := h₂.table.trans h₁.table
  last := h₂.last.trans h₁.last
  faulted := h₂.faulted.trans h₁.faulted
  connected := h₁.connected ∘ h₂.connected
  trace := h₁.trace.trans h₂.trace
  streams := fun t member => by
    obtain ⟨u, uMember, uEvolves⟩ := h₂.streams t member
    obtain ⟨s, sMember, sEvolves⟩ := h₁.streams u uMember
    exact ⟨s, sMember, sEvolves.trans uEvolves⟩
  ids := h₂.ids.trans h₁.ids
  counted := h₂.counted ∘ h₁.counted

lemma of_streams (streams : hc₁.streams = hc.streams) (active : hc₁.activeStreams = hc.activeStreams) (cont : hc₁.cont = hc.cont) (table : hc₁.table = hc.table)
    (last : hc₁.lastProcessedStreamId = hc.lastProcessedStreamId) (faulted : hc₁.faulted = hc.faulted)
    (connected : hc₁.connected = true → hc.connected = true) (trace : Extends Event.Routine hc.trace hc₁.trace) :
    Keeps hc hc₁ where
  cont := cont
  table := table
  last := last
  faulted := faulted
  connected := connected
  trace := trace
  streams := fun t member => ⟨t, streams ▸ member, .refl t⟩
  ids := by rw [streams]
  counted := fun counted => ⟨by rw [active, streams]; exact counted.active, by rw [streams]; exact counted.limit⟩

lemma io (core : hc₁.core = hc.core) (connected : hc₁.connected = true → hc.connected = true)
    (trace : Extends Event.Quiet hc.trace hc₁.trace) : Keeps hc hc₁ := by
  simp only [Conn.core, Prod.mk.injEq] at core
  obtain ⟨streams, active, last, cont, table, -, faulted⟩ := core
  exact of_streams streams active cont table last faulted connected (trace.mono fun _ => Event.Quiet.routine)

lemma write {f : Frame} : Keeps hc (hc.write env f).2 := by
  refine of_streams rfl rfl rfl rfl rfl rfl id ?_
  show Extends Event.Routine hc.trace (hc.toIo.writeFrame env f).2.trace
  unfold Io.writeFrame
  have routine := trivial
  split
  · exact .snoc _ routine
  · exact .refl _ _

lemma remove (env : Env) (hc : Conn) (streamId : Nat) : Keeps hc (hc.remove env streamId) := by
  unfold Conn.remove
  split
  · exact refl hc
  rename_i s found
  have same : s.streamId = streamId := by simpa using find?_some found
  have shorter : (hc.streams.eraseP fun s => s.streamId == streamId).length = hc.streams.length - 1 :=
    length_eraseP_of_mem (mem_of_find?_eq_some found) (by simpa using same)
  have erased : Keeps hc { hc with
      streams := hc.streams.eraseP fun s => s.streamId == streamId
      activeStreams := hc.activeStreams - 1 } :=
    { refl hc with
      streams := fun t member => ⟨t, mem_of_mem_eraseP member, .refl t⟩
      ids := eraseP_sublist.map _
      counted := fun ⟨active, limit⟩ => ⟨by rw [shorter, ← active], shorter ▸ (Nat.sub_le _ 1).trans limit⟩ }
  split
  · have routine := trivial
    exact { erased with trace := Extends.snoc _ routine, counted := fun counted => { erased.counted counted with } }
  · exact erased

lemma log {e : Event} (hc : Conn) (routine : e.Routine) : Keeps hc (hc.log e) :=
  of_streams rfl rfl rfl rfl rfl rfl id (.snoc _ routine)

lemma sendRstStream (env : Env) (hc : Conn) (streamId : Nat) (code : ErrorCode) :
    Keeps hc (hc.sendRstStream env streamId code).2 := by
  have charged : Keeps hc (hc.consumeOutRstBudget env).2 := of_streams rfl rfl rfl rfl rfl rfl id (.refl _ _)
  unfold Conn.sendRstStream
  split <;> rename_i call <;> rw [call] at charged
  · have routine : Event.Routine (.exhausted streamId) := trivial
    exact charged.trans ((log _ routine).trans write)
  · exact charged.trans write

lemma reject (env : Env) (hc : Conn) (streamId : Nat) (code : ErrorCode) : Keeps hc (hc.reject env streamId code) := by
  have routine : Event.Routine (.rejected streamId) := trivial
  exact (log hc routine).trans write

end Keeps

lemma evolved_streams {streams streams' : List Stream} (evolved : List.Forall₂ Stream.Evolves streams streams') :
    (∀ t ∈ streams', ∃ s ∈ streams, s.Evolves t) ∧ streams'.map (·.streamId) = streams.map (·.streamId) := by
  induction evolved with
  | nil => simp
  | cons first rest ih =>
    obtain ⟨members, ids⟩ := ih
    refine ⟨?_, by rw [map_cons, map_cons, ids, first.streamId]⟩
    intro t member
    rcases mem_cons.mp member with rfl | later
    · exact ⟨_, mem_cons_self, first⟩
    · obtain ⟨s, sMember, evolves⟩ := members t later
      exact ⟨s, mem_cons_of_mem _ sMember, evolves⟩

lemma Keeps.evolved {streams : List Stream} (evolved : List.Forall₂ Stream.Evolves hc.streams streams) :
    Keeps hc { hc with streams } :=
  { Keeps.refl hc with
    streams := (evolved_streams evolved).1
    ids := by rw [(evolved_streams evolved).2]
    counted := fun ⟨active, limit⟩ => ⟨active.trans evolved.length_eq, evolved.length_eq ▸ limit⟩ }

variable {hc' : Conn}

lemma Act.keeps (act : Act env hc hc') : Keeps hc hc' := by
  cases act with
  | io core connected trace => exact .io core connected trace
  | streams evolved => exact .evolved evolved
  | remove streamId => exact .remove env hc streamId
  | reset streamId code => exact .sendRstStream env hc streamId code
  | reject streamId code => exact .reject env hc streamId code

lemma Acts.keeps (acts : Acts env hc hc') : Keeps hc hc' := by
  induction acts with
  | refl => exact .refl hc
  | tail _ act ih => exact ih.trans act.keeps

/-! ### Resets -/

def Event.Plain : Event → Prop
  | .frame f => f.type ≠ rstStream
  | .created _ | .rejected _ | .exhausted _ => False
  | _ => True

variable {streamId : Nat}

lemma Event.Quiet.plain : ∀ {e : Event}, e.Quiet → e.Plain
  | .frame _, type => type
  | .onData .., _ | .onPoll _, _ | .onCancel _, _ | .onClose _, _ => trivial

/-! ### The stream table -/

variable {s s' : Stream}

namespace Conn

variable {t : Stream}

def Unique (hc : Conn) : Prop := (hc.streams.map (·.streamId)).Nodup

lemma mem_of_find (found : hc.find streamId = some s) : s ∈ hc.streams ∧ s.streamId = streamId :=
  ⟨mem_of_find?_eq_some found, by simpa using find?_some found⟩

lemma find_eq_none : hc.find streamId = none ↔ ∀ s ∈ hc.streams, s.streamId ≠ streamId := by
  simp [find]

lemma Unique.eq_of_find (unique : hc.Unique) (found : hc.find streamId = some s) (member : t ∈ hc.streams)
    (same : t.streamId = streamId) : t = s := by
  obtain ⟨sMember, sId⟩ := mem_of_find found
  exact inj_on_of_nodup_map unique member sMember (same.trans sId.symm)

lemma find_put (found : hc.find streamId = some s) (same : s'.streamId = streamId) :
    (hc.put s').find streamId = some s' := by
  have replaced : ∀ streams : List Stream, streams.find? (fun s => s.streamId == streamId) = some s →
      (replaceStream s' streams).find? (fun s => s.streamId == streamId) = some s' := by
    intro streams found
    induction streams with
    | nil => simp at found
    | cons t rest ih =>
      by_cases here : t.streamId = streamId
      · simp [replaceStream, here, same]
      · simpa [replaceStream, here, same] using ih (by simpa [here] using found)
  exact replaced hc.streams found

lemma Unique.remove (unique : hc.Unique) : ∀ t ∈ (hc.remove env streamId).streams, t.streamId ≠ streamId := by
  have erased : ∀ streams : List Stream, (streams.map (·.streamId)).Nodup →
      ∀ t ∈ streams.eraseP fun s => s.streamId == streamId, t.streamId ≠ streamId := by
    intro streams nodup
    induction streams with
    | nil => simp
    | cons s rest ih =>
      obtain ⟨fresh, nodup⟩ := nodup_cons.mp nodup
      intro t member
      by_cases here : s.streamId = streamId
      · rw [eraseP_cons_of_pos (by simpa using here)] at member
        rintro rfl
        exact fresh (mem_map.mpr ⟨t, member, here.symm⟩)
      · rw [eraseP_cons_of_neg (by simpa using here)] at member
        rcases mem_cons.mp member with rfl | later
        · exact here
        · exact ih nodup t later
  unfold Conn.remove
  split
  next absent => exact find_eq_none.mp absent
  · split <;> exact erased hc.streams unique

end Conn

lemma Keeps.unique (keeps : Keeps hc hc') (unique : hc.Unique) : hc'.Unique := keeps.ids.nodup unique

/-! ### The handler and the hooks -/

/-- A request that the handler has had is gone from its stream, or its response is under way. -/
def Conn.Served (hc : Conn) (streamId : Nat) : Prop :=
  ∀ t ∈ hc.streams, t.streamId = streamId → t.req = none ∨ t.response.isSome

section Handler

lemma Keeps.served (keeps : Keeps hc hc') (served : hc.Served streamId) : hc'.Served streamId := by
  intro t member same
  obtain ⟨s, sMember, evolves⟩ := keeps.streams t member
  rcases served s sMember (evolves.streamId ▸ same) with gone | sent
  · exact .inl (evolves.req gone)
  · exact .inr (evolves.response sent)

lemma Conn.Unique.served_remove (unique : hc.Unique) : (hc.remove env streamId).Served streamId :=
  fun t member same => absurd same (unique.remove t member)

lemma Conn.Unique.served_put (unique : hc.Unique) (found : hc.find s.streamId = some s)
    (evolves : s.Evolves s') (served : s'.req = none ∨ s'.response.isSome) : (hc.put s').Served s.streamId := by
  have kept : Keeps hc (hc.put s') := .evolved (replaceStream_evolved found evolves)
  intro t member same
  rw [(kept.unique unique).eq_of_find (find_put found evolves.streamId) member same]
  exact served

lemma dispatch_spec (env : Env) (data : Bool) (req : Request) (found : hc.find s.streamId = some s) :
    ∃ hc₁, (hc₁ = hc ∨ hc₁ = hc.log (.handler s.streamId req hc.cont.expecting)) ∧
      Acts env hc₁ (hc.dispatch env data s req) ∧ (hc.Unique → (hc.dispatch env data s req).Served s.streamId) := by
  unfold Conn.dispatch callHandler
  cases env.handler hc.ticks req with
  | unavailable =>
    have credited : Acts env hc (hc.tick.returnCredit env data s.streamId) := (refl hc).tick.returnCredit
    exact ⟨hc, .inl rfl, credited.remove, fun unique => (credited.keeps.unique unique).served_remove⟩
  | deferred =>
    let called := hc.log (.handler s.streamId req hc.cont.expecting)
    have gone : s.Evolves { s with req := none } := ⟨rfl, fun _ => rfl, fun some => some, rfl, rfl⟩
    have kept : Acts env called (called.tick.put { s with req := none }) := (refl called).tick.put found gone
    refine ⟨called, .inr rfl, kept.returnCredit, fun unique => ?_⟩
    have served := Conn.Unique.served_put unique found gone (.inl rfl)
    exact (refl _).returnCredit.keeps.served served
  | response res =>
    let called := hc.log (.handler s.streamId req hc.cont.expecting)
    let res := res.injectAltSvc env.http3Port
    have stored : s.Evolves { s with response := some res } := ⟨rfl, fun none => none, fun _ => rfl, rfl, rfl⟩
    let kept := called.tick.put { s with response := some res }
    have acts : Acts env called kept := (refl called).tick.put found stored
    have served (unique : hc.Unique) : kept.Served s.streamId := Conn.Unique.served_put unique found stored (.inr rfl)
    have sent : Acts env kept (kept.sendResponse env s.streamId res).2 := (refl kept).sendResponse
    refine ⟨called, .inr rfl, ?_⟩
    dsimp only
    split <;> rename_i call
    all_goals have answered := sent.of_call call
    · exact ⟨(acts.trans answered).returnCredit, fun unique => answered.returnCredit.keeps.served (served unique)⟩
    · exact ⟨(acts.trans answered).returnCredit.remove,
        fun unique => answered.returnCredit.remove.keeps.served (served unique)⟩
    · exact ⟨(acts.trans answered).close.remove, fun unique => answered.close.remove.keeps.served (served unique)⟩

lemma hookOffer_spec (env : Env) (hc : Conn) (s : Stream) :
    hc.hookOffer env s = (s, hc) ∨ ∃ req ctx, s.req = some req ∧ s.hookOffered = false ∧ env.onHeaders.isSome ∧
      hc.hookOffer env s =
        (s.offered ctx, (hc.log (.onHeaders s.streamId req hc.cont.expecting)).tick.put (s.offered ctx)) := by
  unfold hookOffer
  split
  next onHeaders req hook request =>
    split
    · exact .inl rfl
    next fresh => exact .inr ⟨req, onHeaders hc.ticks req, request, by simpa using fresh, by rw [hook]; rfl, rfl⟩
  · exact .inl rfl

lemma completeRequest_cases (env : Env) (endStream : Bool) (hc : Conn) (s : Stream) :
    Acts env hc (hc.completeRequest env endStream s) ∨ ∃ s' hc', hc.hookOffer env s = (s', hc') ∧
        (Acts env hc' (hc.completeRequest env endStream s) ∨
          ∃ req, s'.req = some req ∧ s'.hookCtx = none ∧ endStream = true ∧
            hc.completeRequest env endStream s = hc'.dispatch env false s' req) := by
  unfold completeRequest
  split
  · exact .inl (refl hc).rejectContentLength
  generalize hc.hookOffer env s = offer
  obtain ⟨s', hc'⟩ := offer
  refine .inr ⟨s', hc', rfl, ?_⟩
  dsimp only
  split
  · split
    · exact .inl (refl _).hookEndStream
    · exact .inl (refl _)
  rename_i taken
  split
  next req request =>
    split
    next ended => exact .inr ⟨req, request, by simpa using taken, ended, rfl⟩
    · exact .inl (refl _)
  · exact .inl (refl _)

end Handler

/-! ### DATA -/

/-- How the DATA case ends without the handler. A fault is the access to a request that is not there. -/
def Ends (env : Env) (hc hc' : Conn) : Prop := Acts env hc hc' ∨ ∃ hc₁, Acts env hc hc₁ ∧ hc' = hc₁.fault

/-- What a stage of the DATA case hands on: the stream as it stands in the table. -/
structure Stage (env : Env) (hc : Conn) (s : Stream) (hc' : Conn) (s' : Stream) : Prop where
  acts : Acts env hc hc'
  found : hc'.find s'.streamId = some s'
  evolves : s.Evolves s'
  response : s'.response = s.response

variable {len : Nat} {endStream : Bool}

section Data

variable {s₁ : Stream}

variable {data : Bytes}

lemma Ends.of_acts (acts : Acts env hc hc') : Ends env hc hc' := .inl acts

lemma Ends.after (ends : Ends env hc₁ hc') (acts : Acts env hc hc₁) : Ends env hc hc' := by
  rcases ends with rest | ⟨hc₂, rest, rfl⟩
  · exact .inl (acts.trans rest)
  · exact .inr ⟨hc₂, acts.trans rest, rfl⟩

lemma Ends.fault (acts : Acts env hc hc₁) : Ends env hc hc₁.fault := .inr ⟨hc₁, acts, rfl⟩

lemma Stage.refl (found : hc.find s.streamId = some s) : Stage env hc s hc s :=
  ⟨.refl hc, found, .refl s, rfl⟩

lemma Stage.trans (h₁ : Stage env hc s hc₁ s₁) (h₂ : Stage env hc₁ s₁ hc' s') : Stage env hc s hc' s' :=
  ⟨h₁.acts.trans h₂.acts, h₂.found, h₁.evolves.trans h₂.evolves, h₂.response.trans h₁.response⟩

lemma Stage.put (acts : Acts env hc hc₁) (found : hc₁.find s.streamId = some s) (evolves : s.Evolves s')
    (response : s'.response = s.response) : Stage env hc s (hc₁.put s') s' :=
  ⟨acts.put found evolves, evolves.streamId ▸ find_put found evolves.streamId, evolves, response⟩

def Stages (env : Env) (hc : Conn) (s : Stream) : Except Conn (Stream × Conn) → Prop
  | .error hc' => Ends env hc hc'
  | .ok (s', hc') => Stage env hc s hc' s'

lemma dataReceive_stages (found : hc.find s.streamId = some s) : Stages env hc s (hc.dataReceive env s len) := by
  unfold dataReceive
  split
  · exact Stage.refl found
  split
  · exact .of_acts (refl hc).abort
  split
  · exact .of_acts (refl hc).setFc.abort
  · exact Stage.put (refl hc).setFc found ⟨rfl, fun none => none, fun some => some, rfl, rfl⟩ rfl

lemma dataCount_stages (found : hc.find s.streamId = some s) : Stages env hc s (hc.dataCount env s len) := by
  have counted : Stage env hc s (hc.put { s with receivedContent := s.receivedContent + len })
      { s with receivedContent := s.receivedContent + len } :=
    .put (.refl hc) found ⟨rfl, fun none => none, fun some => some, rfl, rfl⟩ rfl
  unfold dataCount
  split
  · exact Stage.refl found
  dsimp only
  split
  · split
    · exact .fault counted.acts
    · split
      · exact .of_acts counted.acts.rejectContentLength
      · exact counted
  · exact counted

lemma dataBuffer_stages (found : hc.find s.streamId = some s) : Stages env hc s (hc.dataBuffer env s data) := by
  unfold dataBuffer
  split
  · exact Stage.refl found
  split
  · split
    · exact Stage.refl found
    · split
      · exact .of_acts (refl hc).reject.remove
      · exact Stage.put (.refl hc) found ⟨rfl, fun none => none, fun some => some, rfl, rfl⟩ rfl
  · split
    · exact .fault (.refl hc)
    rename_i req request
    split
    · exact .of_acts (refl hc).reject.remove
    · exact Stage.put (.refl hc) found ⟨rfl, fun none => (nomatch request.symm.trans none), fun some => some, rfl, rfl⟩ rfl

lemma dataIncomplete_acts : Acts env hc (hc.dataIncomplete env s) := (refl hc).reject.autoWindowUpdate.remove

lemma dataAssemble_stages (found : hc.find s.streamId = some s) : Stages env hc s (hc.dataAssemble env s) := by
  unfold dataAssemble
  split
  · exact Stage.refl found
  split
  · exact .of_acts dataIncomplete_acts
  · exact .fault (.refl hc)
  rename_i octets req _ request
  split
  · exact .of_acts dataIncomplete_acts
  · exact Stage.put (.refl hc) found ⟨rfl, fun none => (nomatch request.symm.trans none), fun some => some, rfl, rfl⟩ rfl

lemma dataHookPoll_acts (acts : Acts env hc hc₁) : Acts env hc (hc₁.dataHookPoll env s endStream) := by
  unfold dataHookPoll
  split
  · split
    · have polled := (acts.log (e := .onPoll s.streamId) trivial).tick
      dsimp only
      split
      · exact polled.autoWindowUpdate.remove
      · exact polled.autoWindowUpdate
    · exact acts.autoWindowUpdate
  · exact acts.autoWindowUpdate

lemma dataHook_acts (decided : ¬(endStream ∧ !hc.sequencedData ∧ s.contentLengthMatches = none)) :
    Acts env hc (hc.dataHook env s data endStream) := by
  unfold dataHook
  rw [if_neg decided]
  split
  · exact (refl hc).rejectContentLength
  split
  · split
    · have called : Acts env hc (hc.log (.onData s.streamId data endStream)).tick :=
        ((refl hc).log (e := .onData s.streamId data endStream) trivial).tick
      dsimp only
      split
      · exact called.remove
      · exact dataHookPoll_acts called
    · exact dataHookPoll_acts (.refl hc)
  · exact dataHookPoll_acts (.refl hc)

lemma dataHook_ends : Ends env hc (hc.dataHook env s data endStream) := by
  by_cases undecided : endStream ∧ !hc.sequencedData ∧ s.contentLengthMatches = none
  · unfold dataHook
    rw [if_pos undecided]
    exact .fault (.refl hc)
  · exact .of_acts (dataHook_acts undecided)

lemma dataStream_cases (found : hc.find s.streamId = some s) : Ends env hc (hc.dataStream env s len data endStream) ∨
      ∃ hc₁ s₁ req, Stage env hc s hc₁ s₁ ∧ s₁.req = some req ∧ endStream = true ∧
        hc.dataStream env s len data endStream = hc₁.dispatch env true s₁ req := by
  have received : Stages env hc s (hc.dataReceive env s len) := dataReceive_stages found
  unfold dataStream
  split <;> rename_i call <;> rw [call] at received
  · exact .inl received
  rename_i s₁ hc₁
  have counted : Stages env hc₁ s₁ (hc₁.dataCount env s₁ data.length) := dataCount_stages received.found
  unfold dataDeliver
  split <;> rename_i call <;> rw [call] at counted
  · exact .inl (Ends.after counted received.acts)
  rename_i s₂ hc₂
  have ready := received.trans counted
  split
  · exact .inl (dataHook_ends.after ready.acts)
  have buffered : Stages env hc₂ s₂ (hc₂.dataBuffer env s₂ data) := dataBuffer_stages ready.found
  unfold dataBuffered
  split <;> rename_i call <;> rw [call] at buffered
  · exact .inl (Ends.after buffered ready.acts)
  rename_i s₃ hc₃
  have ready := ready.trans buffered
  split <;> rename_i ended
  · have assembled : Stages env hc₃ s₃ (hc₃.dataAssemble env s₃) := dataAssemble_stages ready.found
    unfold dataEnd
    split <;> rename_i call <;> rw [call] at assembled
    · exact .inl (Ends.after assembled ready.acts)
    rename_i s₄ hc₄
    have ready := ready.trans assembled
    unfold dataServe
    split
    · exact .inl (.of_acts ready.acts.rejectContentLength)
    next req _ request => exact .inr ⟨hc₄, s₄, req, ready, request, ended, rfl⟩
    · exact .inl (.fault ready.acts)
  · exact .inl (.of_acts ready.acts.autoWindowUpdate)

end Data

/-! ### Header blocks -/

variable {block : Bytes}

section Blocks

variable {isRequest endHeaders : Bool}

def Exhausts (env : Env) (hc hc₁ : Conn) : Prop :=
  ∃ hc₂ streamId code, Acts env hc hc₂ ∧ (hc₂.sendRstStream env streamId code).1 = .exhausted ∧
    (hc₁ = (hc₂.sendRstStream env streamId code).2 ∨ hc₁ = (hc₂.sendRstStream env streamId code).2.remove env streamId)

lemma Exhausts.keeps (exhausts : Exhausts env hc hc₁) : Keeps hc hc₁ := by
  obtain ⟨hc₂, streamId, code, acts, -, rfl | rfl⟩ := exhausts
  · exact acts.keeps.trans (.sendRstStream env hc₂ streamId code)
  · exact acts.keeps.trans ((Keeps.sendRstStream env hc₂ streamId code).trans (.remove env _ streamId))

lemma Exhausts.after (exhausts : Exhausts env hc₁ hc₂) (acts : Acts env hc hc₁) : Exhausts env hc hc₂ := by
  obtain ⟨hc₃, streamId, code, rest, spent⟩ := exhausts
  exact ⟨hc₃, streamId, code, acts.trans rest, spent⟩

lemma resetStream_spec (env : Env) (streamId : Nat) (exhausted : HdrRc) (unique : hc.Unique) :
    ∃ hc₁, (∀ t ∈ hc₁.streams, t.streamId ≠ streamId) ∧
      (Acts env hc hc₁ ∧ hc.resetStream env exhausted streamId = (.handled, hc₁) ∨
        Exhausts env hc hc₁ ∧ hc.resetStream env exhausted streamId = (exhausted, hc₁)) := by
  have keeps := Keeps.sendRstStream env hc streamId .protocolError
  refine ⟨(hc.sendRstStream env streamId .protocolError).2.remove env streamId, (keeps.unique unique).remove, ?_⟩
  unfold resetStream
  dsimp only
  split <;> rename_i spent
  · exact .inr ⟨⟨hc, streamId, .protocolError, .refl hc, spent, .inr rfl⟩, rfl⟩
  · exact .inl ⟨((refl hc).reset spent).remove, rfl⟩

inductive DecodeCase (env : Env) (hc : Conn) (s : Stream) (block : Bytes) (isRequest : Bool) : HdrRc × Conn → Prop where
  | decoded {hc₁ : Conn} {s₁ : Stream}
      (stage : Stage env (hc.setTable (decodeHeaderBlock hc.table s.toRequestHead block isRequest).2.table) s hc₁ s₁)
      (request : s₁.req.isSome = s.req.isSome)
      (sound : (decodeHeaderBlock hc.table s.toRequestHead block isRequest).1 ≠ .compressionError) :
      DecodeCase env hc s block isRequest (.ok, hc₁.log (.decoded s.streamId))
  | reset {hc₁ : Conn}
      (acts : Acts env (hc.setTable (decodeHeaderBlock hc.table s.toRequestHead block isRequest).2.table) hc₁)
      (gone : ∀ t ∈ hc₁.streams, t.streamId ≠ s.streamId)
      (sound : (decodeHeaderBlock hc.table s.toRequestHead block isRequest).1 ≠ .compressionError) :
      DecodeCase env hc s block isRequest (.handled, hc₁)
  | failed {hc₁ : Conn}
      (acts : Acts env (hc.setTable (decodeHeaderBlock hc.table s.toRequestHead block isRequest).2.table) hc₁) :
      DecodeCase env hc s block isRequest (.protocolError, hc₁)
  | exhausted {hc₁ : Conn}
      (exhausts : Exhausts env (hc.setTable (decodeHeaderBlock hc.table s.toRequestHead block isRequest).2.table) hc₁) :
      DecodeCase env hc s block isRequest (.protocolError, hc₁)

lemma decodeStreamHeaders_cases (unique : hc.Unique) (found : hc.find s.streamId = some s) :
    DecodeCase env hc s block isRequest (hc.decodeStreamHeaders env s block isRequest) := by
  have request := decodeHeaderBlock_request hc.table s.toRequestHead block isRequest
  have never := decodeHeaderBlock_ne_nullRequest hc.table s.toRequestHead block isRequest
  let base := hc.setTable (decodeHeaderBlock hc.table s.toRequestHead block isRequest).2.table
  let s₁ : Stream := { s with toRequestHead := (decodeHeaderBlock hc.table s.toRequestHead block isRequest).2.target }
  have evolves : s.Evolves s₁ := by
    refine ⟨rfl, fun none => ?_, fun some => some, rfl, rfl⟩
    simpa [none] using request
  have stage : Stage env base s (base.put s₁) s₁ := .put (.refl base) found evolves rfl
  unfold decodeStreamHeaders
  dsimp only
  split <;> rename_i rc
  · exact .decoded stage request (by rw [rc]; decide)
  · obtain ⟨hc₁, gone, ⟨acts, reset⟩ | ⟨exhausts, reset⟩⟩ :=
      resetStream_spec env s.streamId .protocolError (stage.acts.keeps.unique unique)
    · exact reset ▸ .reset (stage.acts.trans acts) gone (by rw [rc]; decide)
    · exact reset ▸ .exhausted (exhausts.after stage.acts)
  · exact .failed stage.acts
  · exact absurd rc never

inductive BlockCase (env : Env) (hc : Conn) (streamId : Nat) (block : Bytes) : HdrRc × Conn → Prop where
  | empty (s : Stream) (found : hc.find streamId = some s) (nothing : block = []) : BlockCase env hc streamId block (.ok, hc)
  | trailers {s : Stream} {result : HdrRc × Conn} (found : hc.find streamId = some s) (some : block ≠ [])
      (decode : DecodeCase env hc s block false result) : BlockCase env hc streamId block result
  | refused {hc₁ : Conn} (absent : hc.find streamId = none) (full : hc.activeStreams ≥ maxConcurrentStreams)
      (acts : Acts env (hc.log (.refused streamId)) hc₁) : BlockCase env hc streamId block (.handled, hc₁)
  | refusedSpent {hc₁ : Conn} (absent : hc.find streamId = none) (exhausts : Exhausts env (hc.log (.refused streamId)) hc₁) :
      BlockCase env hc streamId block (.calm, hc₁)
  | nothing {hc₁ : Conn} (absent : hc.find streamId = none) (room : hc.activeStreams < maxConcurrentStreams)
      (acts : Acts env (hc.streamOpen streamId) hc₁) (gone : ∀ t ∈ hc₁.streams, t.streamId ≠ streamId)
      (nothing : block = []) : BlockCase env hc streamId block (.handled, hc₁)
  | nothingSpent {hc₁ : Conn} (absent : hc.find streamId = none) (room : hc.activeStreams < maxConcurrentStreams)
      (exhausts : Exhausts env (hc.streamOpen streamId) hc₁) : BlockCase env hc streamId block (.calm, hc₁)
  | request {result : HdrRc × Conn} (absent : hc.find streamId = none)
      (room : hc.activeStreams < maxConcurrentStreams) (some : block ≠ [])
      (decode : DecodeCase env (hc.streamOpen streamId) (Stream.fresh streamId hc.peerInitialWindowSize) block true result) :
      BlockCase env hc streamId block result

lemma streamOpen_streams (hc : Conn) (streamId : Nat) :
    (hc.streamOpen streamId).streams = Stream.fresh streamId hc.peerInitialWindowSize :: hc.streams := by
  show replaceStream _ (_ :: hc.streams) = _
  rw [replaceStream, if_pos]
  rfl

lemma streamOpen_find (hc : Conn) (streamId : Nat) :
    (hc.streamOpen streamId).find streamId = some (Stream.fresh streamId hc.peerInitialWindowSize) := by
  rw [Conn.find, streamOpen_streams, find?_cons_of_pos]
  exact beq_self_eq_true streamId

lemma Conn.Unique.streamOpen (unique : hc.Unique) (absent : hc.find streamId = none) : (hc.streamOpen streamId).Unique := by
  rw [Conn.Unique, streamOpen_streams, map_cons, nodup_cons]
  refine ⟨?_, unique⟩
  rw [mem_map]
  rintro ⟨t, member, same⟩
  exact find_eq_none.mp absent t member same

lemma decodeBlock_cases (unique : hc.Unique) : BlockCase env hc streamId block (hc.decodeBlock env streamId block) := by
  unfold decodeBlock
  split
  next s found =>
    obtain ⟨-, rfl⟩ := mem_of_find found
    split
    · exact .empty s found ‹_›
    · exact .trailers found ‹_› (decodeStreamHeaders_cases unique found)
  rename_i absent
  unfold requestStreamCreate
  by_cases full : hc.activeStreams ≥ maxConcurrentStreams
  · rw [if_pos full]
    let noted := hc.log (.refused streamId)
    rcases call : noted.sendRstStream env streamId .refusedStream with ⟨rc, hc₁⟩
    have reset (granted : rc ≠ .exhausted) : Acts env noted hc₁ :=
      ((refl noted).reset (by rw [call]; exact granted)).of_call call
    cases rc with
    | exhausted => exact .refusedSpent absent ⟨noted, streamId, .refusedStream, .refl noted, by rw [call], .inl (by rw [call])⟩
    | sent => exact .refused absent full (reset nofun)
    | failed => exact .refused absent full (reset nofun)
  · have room : hc.activeStreams < maxConcurrentStreams := by omega
    have opened := unique.streamOpen absent
    rw [if_neg full]
    dsimp only
    split
    · obtain ⟨hc₁, gone, ⟨acts, reset⟩ | ⟨exhausts, reset⟩⟩ := resetStream_spec env streamId .calm opened
      · exact reset ▸ .nothing absent room acts gone ‹_›
      · exact reset ▸ .nothingSpent absent room exhausts
    · exact .request absent room ‹_› (decodeStreamHeaders_cases opened (streamOpen_find hc streamId))

inductive BeginCase (env : Env) (hc : Conn) (streamId : Nat) (block : Bytes) (endHeaders endStream : Bool) :
    HdrRc × Conn → Prop where
  | invalid : BeginCase env hc streamId block endHeaders endStream (.protocolError, hc)
  | tooLong : BeginCase env hc streamId block endHeaders endStream (.calm, hc)
  | complete {result : HdrRc × Conn} (fresh : hc.find streamId = none → hc.lastProcessedStreamId < streamId)
      (ended : endHeaders = true) (decode : BlockCase env hc streamId block result) :
      BeginCase env hc streamId block endHeaders endStream result
  | refused {hc₁ : Conn} (absent : hc.find streamId = none) (acts : Acts env (hc.log (.refused streamId)) hc₁) :
      BeginCase env hc streamId block endHeaders endStream (.handled, hc₁.setCont ⟨[], streamId, true, endStream, true, 0⟩)
  | exhausted {hc₁ : Conn} (exhausts : Exhausts env (hc.log (.refused streamId)) hc₁) :
      BeginCase env hc streamId block endHeaders endStream (.calm, hc₁)
  | begun (fresh : hc.find streamId = none → hc.lastProcessedStreamId < streamId) (more : endHeaders = false) :
      BeginCase env hc streamId block endHeaders endStream (.ok, hc.setCont ⟨block, streamId, true, endStream, false, 0⟩)

lemma beginHeaders_cases (unique : hc.Unique) (idle : hc.cont.expecting = false) :
    BeginCase env hc streamId block endHeaders endStream (hc.beginHeaders env streamId block endHeaders endStream) := by
  unfold beginHeaders
  rw [if_neg (by simp [idle])]
  split
  · exact .invalid
  rename_i known
  have fresh : hc.find streamId = none → hc.lastProcessedStreamId < streamId := by
    intro absent
    by_contra late
    exact known ⟨by simp [absent], by omega⟩
  split <;> rename_i ended
  · exact .complete fresh ended (decodeBlock_cases unique)
  split
  · exact .tooLong
  split
  next full =>
    let noted := hc.log (.refused streamId)
    have absent : hc.find streamId = none := by simpa using full.1
    rcases call : noted.sendRstStream env streamId .refusedStream with ⟨rc, hc₁⟩
    have reset (granted : rc ≠ .exhausted) : Acts env noted hc₁ :=
      ((refl noted).reset (by rw [call]; exact granted)).of_call call
    cases rc with
    | exhausted => exact .exhausted ⟨noted, streamId, .refusedStream, .refl noted, by rw [call], .inl (by rw [call])⟩
    | sent => exact .refused absent (reset nofun)
    | failed => exact .refused absent (reset nofun)
  · exact .begun fresh (by simpa using ended)

inductive ContinuationCase (env : Env) (hc : Conn) (payload : Bytes) (endHeaders : Bool) : HdrRc × Conn → Prop where
  | flood : ContinuationCase env hc payload endHeaders
      (.calm, hc.setCont { hc.cont with frameCount := hc.cont.frameCount + 1 })
  | discarded {cont : Cont} (refused : hc.cont.discard = true) (same : cont.endStream = hc.cont.endStream)
      (after : cont.expecting = true → cont.streamId = hc.cont.streamId ∧ cont.discard = true) :
      ContinuationCase env hc payload endHeaders (.ok, hc.setCont cont)
  | collected (kept : hc.cont.discard = false) (more : endHeaders = false) :
      ContinuationCase env hc payload endHeaders
        (.ok, hc.setCont { hc.cont with frameCount := hc.cont.frameCount + 1, buf := hc.cont.buf ++ payload })
  | complete {rc : HdrRc} {hc₁ : Conn} (kept : hc.cont.discard = false) (ended : endHeaders = true)
      (decode : BlockCase env
        (hc.setCont { hc.cont with frameCount := hc.cont.frameCount + 1, buf := hc.cont.buf ++ payload })
        hc.cont.streamId (hc.cont.buf ++ payload) (rc, hc₁)) :
      ContinuationCase env hc payload endHeaders
        (rc, hc₁.setCont { hc₁.cont with expecting := false, buf := [], streamId := 0, frameCount := 0 })

lemma handleContinuation_cases {payload : Bytes} (unique : hc.Unique) (open_ : hc.cont.expecting = true) :
    ContinuationCase env hc payload endHeaders (hc.handleContinuation env hc.cont.streamId payload endHeaders) := by
  unfold handleContinuation
  rw [if_neg (by simp [open_])]
  dsimp only
  split
  · exact .flood
  split
  · exact .flood
  split
  next refused =>
    split
    · exact .discarded refused rfl nofun
    · exact .discarded refused rfl fun _ => ⟨rfl, refused⟩
  next kept =>
    have kept : hc.cont.discard = false := by simpa [setCont] using kept
    split <;> rename_i ended
    · exact .complete kept ended (decodeBlock_cases unique)
    · exact .collected kept (by simpa using ended)

lemma continuation_expected (env : Env) {f : Frame} (unique : hc.Unique)
    (valid : ¬(f.streamId = 0 ∨ !hc.cont.expecting ∨ hc.cont.streamId ≠ f.streamId)) :
    hc.cont.expecting = true ∧ hc.cont.streamId = f.streamId ∧
      ContinuationCase env hc f.payload f.endHeaders (hc.handleContinuation env f.streamId f.payload f.endHeaders) := by
  simp only [not_or, Bool.not_eq_true, Bool.not_eq_false', not_not] at valid
  obtain ⟨-, open_, same⟩ := valid
  rw [← same]
  exact ⟨open_, rfl, handleContinuation_cases unique open_⟩

end Blocks

/-! ### Whole turns -/

/-- What every step does that reads no missing request: the table keeps its identifiers apart, the trace only
grows. -/
structure Proceeds (hc hc' : Conn) : Prop where
  unique : hc.Unique → hc'.Unique
  counted : hc.Counted → hc'.Counted
  trace : hc.trace <+: hc'.trace
  faulted : hc'.faulted = hc.faulted

structure Leaves (hc hc' : Conn) : Prop extends Proceeds hc hc' where
  cont : hc'.cont = hc.cont
  table : hc'.table = hc.table
  last : hc'.lastProcessedStreamId = hc.lastProcessedStreamId
  created : ∀ id, .created id ∈ hc'.trace → .created id ∈ hc.trace
  ids : (hc'.streams.map (·.streamId)).Sublist (hc.streams.map (·.streamId))

section Turns

variable {endHeaders data isRequest : Bool}

variable {f : Frame} {result : HdrRc × Conn} {e : Event}

lemma Proceeds.refl (hc : Conn) : Proceeds hc hc := ⟨id, id, prefix_rfl, rfl⟩

lemma Proceeds.trans (h₁ : Proceeds hc hc₁) (h₂ : Proceeds hc₁ hc₂) : Proceeds hc hc₂ :=
  ⟨h₂.unique ∘ h₁.unique, h₂.counted ∘ h₁.counted, h₁.trace.trans h₂.trace, h₂.faulted.trans h₁.faulted⟩

lemma proceeds_of_same (streams : hc₁.streams = hc.streams) (active : hc₁.activeStreams = hc.activeStreams)
    (trace : hc.trace <+: hc₁.trace) (faulted : hc₁.faulted = hc.faulted) : Proceeds hc hc₁ where
  unique := fun unique => by rw [Conn.Unique, streams]; exact unique
  counted := fun counted => ⟨by rw [active, streams]; exact counted.active, by rw [streams]; exact counted.limit⟩
  trace := trace
  faulted := faulted

lemma proceeds_log (hc : Conn) (e : Event) : Proceeds hc (hc.log e) := proceeds_of_same rfl rfl (prefix_append _ _) rfl

lemma proceeds_setTable (hc : Conn) (table : HpackTable) : Proceeds hc (hc.setTable table) :=
  proceeds_of_same rfl rfl prefix_rfl rfl

lemma proceeds_setCont (hc : Conn) (cont : Cont) : Proceeds hc (hc.setCont cont) := proceeds_of_same rfl rfl prefix_rfl rfl

lemma proceeds_setLast (hc : Conn) (last : Nat) : Proceeds hc (hc.setLast last) := proceeds_of_same rfl rfl prefix_rfl rfl

lemma Leaves.refl (hc : Conn) : Leaves hc hc := ⟨.refl hc, rfl, rfl, rfl, fun _ => id, .refl _⟩

lemma Leaves.trans (h₁ : Leaves hc hc₁) (h₂ : Leaves hc₁ hc₂) : Leaves hc hc₂ :=
  ⟨h₁.toProceeds.trans h₂.toProceeds, h₂.cont.trans h₁.cont, h₂.table.trans h₁.table, h₂.last.trans h₁.last,
    fun id => h₁.created id ∘ h₂.created id, h₂.ids.trans h₁.ids⟩

lemma leaves_log (hc : Conn) (plain : e.Plain) : Leaves hc (hc.log e) :=
  have trace : Extends Event.Plain hc.trace (hc.log e).trace := .snoc _ plain
  ⟨proceeds_log hc e, rfl, rfl, rfl, fun id => (trace.mem_iff (e := .created id) nofun).mp, .refl _⟩

lemma leaves_tick (hc : Conn) : Leaves hc hc.tick :=
  ⟨proceeds_of_same rfl rfl prefix_rfl rfl, rfl, rfl, rfl, fun _ => id, .refl _⟩

lemma replaceStream_ids (s : Stream) (streams : List Stream) :
    (replaceStream s streams).map (·.streamId) = streams.map (·.streamId) := by
  induction streams with
  | nil => rfl
  | cons t rest ih =>
    rw [replaceStream]
    split
    next same => rw [map_cons, map_cons, same]
    · rw [map_cons, map_cons, ih]

lemma leaves_put (hc : Conn) (s : Stream) : Leaves hc (hc.put s) := by
  have ids := replaceStream_ids s hc.streams
  have length : (replaceStream s hc.streams).length = hc.streams.length := by
    simpa using congrArg List.length ids
  refine ⟨⟨fun unique => ?_, fun counted => ⟨?_, ?_⟩, prefix_rfl, rfl⟩, rfl, rfl, rfl, fun _ => id, ?_⟩
  · rw [Conn.Unique, Conn.put, ids]
    exact unique
  · exact counted.active.trans length.symm
  · exact length ▸ counted.limit
  · rw [Conn.put, ids]

lemma Keeps.proceeds (keeps : Keeps hc hc₁) : Proceeds hc hc₁ :=
  ⟨keeps.unique, keeps.counted, keeps.trace.prefix, keeps.faulted⟩

lemma Acts.proceeds (acts : Acts env hc hc₁) : Proceeds hc hc₁ := acts.keeps.proceeds

lemma Acts.leaves (acts : Acts env hc hc₁) : Leaves hc hc₁ :=
  have keeps := acts.keeps
  ⟨acts.proceeds, keeps.cont, keeps.table, keeps.last, fun id => (keeps.trace.mem_iff (e := .created id) nofun).mp, keeps.ids⟩

lemma Exhausts.proceeds (exhausts : Exhausts env hc hc₁) : Proceeds hc hc₁ := exhausts.keeps.proceeds

lemma abort_acts {code : ErrorCode} : Acts env hc (hc.abort env code) := (refl hc).abort

lemma leaves_endStream (hc : Conn) (streamId : Nat) (endStream : Bool) :
    Leaves hc (if endStream then hc.log (.endStream streamId) else hc) := by
  split
  · exact leaves_log hc trivial
  · exact .refl hc

lemma offered_streamId (s : Stream) (ctx : Option Nat) : (s.offered ctx).streamId = s.streamId := by
  cases ctx <;> rfl

lemma hookOffer_found (env : Env) (found : hc.find s.streamId = some s) :
    (hc.hookOffer env s).2.find (hc.hookOffer env s).1.streamId = some (hc.hookOffer env s).1 := by
  rcases hookOffer_spec env hc s with same | ⟨req, ctx, -, -, -, offer⟩
  · rw [same]
    exact found
  · rw [offer, offered_streamId]
    exact find_put found (offered_streamId s ctx)

lemma hookOffer_leaves (env : Env) (hc : Conn) (s : Stream) : Leaves hc (hc.hookOffer env s).2 := by
  rcases hookOffer_spec env hc s with same | ⟨req, ctx, -, -, -, offer⟩
  · rw [same]
    exact .refl hc
  · rw [offer]
    exact (leaves_log hc (by trivial)).trans ((leaves_tick _).trans (leaves_put _ _))

lemma dispatch_leaves {req : Request} (found : hc.find s.streamId = some s) :
    Leaves hc (hc.dispatch env data s req) := by
  obtain ⟨hc₁, called, acts, -⟩ := dispatch_spec env data req found
  rcases called with rfl | rfl
  · exact acts.leaves
  · exact (leaves_log hc (by trivial)).trans acts.leaves

lemma completeRequest_leaves (found : hc.find s.streamId = some s) :
    Leaves hc (hc.completeRequest env endStream s) := by
  rcases completeRequest_cases env endStream hc s with acts | ⟨s', hc', offer, rest⟩
  · exact acts.leaves
  have offered := hookOffer_leaves env hc s
  have there := hookOffer_found env found
  rw [offer] at offered there
  rcases rest with acts | ⟨req, -, -, -, same⟩
  · exact offered.trans acts.leaves
  · rw [same]
    exact offered.trans (dispatch_leaves there)

lemma afterHeaders_leaves : Leaves hc (hc.afterHeaders env endStream streamId) := by
  unfold afterHeaders
  split
  · exact .refl hc
  rename_i s found
  obtain ⟨-, rfl⟩ := mem_of_find found
  split
  · split
    · exact (refl hc).hookEndStream.leaves
    · exact .refl hc
  · exact completeRequest_leaves found

lemma afterContinuation_leaves : Leaves hc (hc.afterContinuation env f) := by
  unfold afterContinuation
  split
  · exact abort_acts.leaves
  split
  · split
    · exact .refl _
    rename_i s found
    obtain ⟨-, same⟩ := mem_of_find found
    rw [← same] at found
    exact completeRequest_leaves found
  · exact .refl _

lemma DecodeCase.proceeds (decode : DecodeCase env hc s block isRequest result) : Proceeds hc result.2 := by
  have decoded := proceeds_setTable hc (decodeHeaderBlock hc.table s.toRequestHead block isRequest).2.table
  cases decode with
  | decoded stage => exact decoded.trans (stage.acts.proceeds.trans (proceeds_log _ _))
  | reset acts => exact decoded.trans acts.proceeds
  | failed acts => exact decoded.trans acts.proceeds
  | exhausted exhausts => exact decoded.trans exhausts.proceeds

lemma streamOpen_proceeds (absent : hc.find streamId = none) (room : hc.activeStreams < maxConcurrentStreams) :
    Proceeds hc (hc.streamOpen streamId) := by
  refine ⟨fun unique => unique.streamOpen absent, fun counted => ?_, prefix_append _ _, rfl⟩
  have active := counted.active
  have length : (hc.streamOpen streamId).streams.length = hc.streams.length + 1 := by rw [streamOpen_streams, length_cons]
  have more : (hc.streamOpen streamId).activeStreams = hc.activeStreams + 1 := rfl
  constructor <;> omega

lemma BlockCase.proceeds (decode : BlockCase env hc streamId block result) : Proceeds hc result.2 := by
  cases decode with
  | empty => exact .refl hc
  | trailers _ _ decode => exact decode.proceeds
  | refused _ _ acts => exact (proceeds_log hc _).trans acts.proceeds
  | refusedSpent _ exhausts => exact (proceeds_log hc _).trans exhausts.proceeds
  | nothing absent room acts => exact (streamOpen_proceeds absent room).trans acts.proceeds
  | nothingSpent absent room exhausts => exact (streamOpen_proceeds absent room).trans exhausts.proceeds
  | request absent room _ decode => exact (streamOpen_proceeds absent room).trans decode.proceeds

lemma BeginCase.proceeds (begin_ : BeginCase env hc streamId block endHeaders endStream result) :
    Proceeds hc result.2 := by
  cases begin_ with
  | invalid => exact .refl hc
  | tooLong => exact .refl hc
  | complete _ _ decode => exact decode.proceeds
  | refused _ acts => exact (proceeds_log hc _).trans (acts.proceeds.trans (proceeds_setCont _ _))
  | exhausted exhausts => exact (proceeds_log hc _).trans exhausts.proceeds
  | begun => exact proceeds_setCont hc _

lemma ContinuationCase.proceeds {payload : Bytes}
    (continued : ContinuationCase env hc payload endHeaders result) : Proceeds hc result.2 := by
  cases continued with
  | flood => exact proceeds_setCont hc _
  | discarded => exact proceeds_setCont hc _
  | collected => exact proceeds_setCont hc _
  | complete _ _ decode => exact (proceeds_setCont hc _).trans (decode.proceeds.trans (proceeds_setCont _ _))

lemma headersBlock_proceeds (unique : hc.Unique) (idle : hc.cont.expecting = false) :
    Proceeds hc (hc.headersBlock env streamId block endHeaders endStream) := by
  unfold headersBlock
  dsimp only
  have noted := leaves_endStream hc streamId endStream
  generalize (if endStream then hc.log (.endStream streamId) else hc) = hc' at noted ⊢
  have begun : BeginCase env hc' streamId block endHeaders endStream _ :=
    beginHeaders_cases (noted.unique unique) (noted.cont ▸ idle)
  have proceeds := noted.toProceeds.trans begun.proceeds
  split <;> rename_i call <;> rw [call] at proceeds
  · exact proceeds.trans abort_acts.proceeds
  · exact proceeds.trans abort_acts.proceeds
  · exact proceeds.trans (proceeds_setLast _ _)
  · exact proceeds.trans ((proceeds_setLast _ _).trans afterHeaders_leaves.toProceeds)

lemma headersCase_proceeds (unique : hc.Unique) (idle : hc.cont.expecting = false) :
    Proceeds hc (hc.headersCase env f) := by
  unfold headersCase
  split
  · exact (refl hc).abortAt.proceeds
  split
  · exact abort_acts.proceeds
  · exact headersBlock_proceeds unique idle

lemma continuationCase_proceeds (unique : hc.Unique) : Proceeds hc (hc.continuationCase env f) := by
  unfold continuationCase
  split
  · exact abort_acts.proceeds
  rename_i valid
  obtain ⟨-, -, continued⟩ := continuation_expected env unique valid
  have proceeds := continued.proceeds
  split <;> rename_i call <;> rw [call] at proceeds
  · exact proceeds.trans abort_acts.proceeds
  · exact proceeds.trans abort_acts.proceeds
  · exact proceeds
  · exact proceeds.trans afterContinuation_leaves.toProceeds

lemma dataUnknown_acts : Acts env hc (hc.dataUnknown env len) := by
  unfold dataUnknown
  split
  · exact abort_acts
  · exact (refl hc).setFc

lemma Ends.leaves (ends : Ends env hc hc₁) : Leaves hc hc₁ ∨ ∃ hc₂, Leaves hc hc₂ ∧ hc₁ = hc₂.fault := by
  rcases ends with acts | ⟨hc₂, acts, rfl⟩
  · exact .inl acts.leaves
  · exact .inr ⟨hc₂, acts.leaves, rfl⟩

lemma dataStream_leaves {data : Bytes} (found : hc.find s.streamId = some s) :
    Leaves hc (hc.dataStream env s len data endStream) ∨
      ∃ hc₁, Leaves hc hc₁ ∧ hc.dataStream env s len data endStream = hc₁.fault := by
  rcases dataStream_cases found with ends | ⟨hc₁, s₁, req, stage, -, -, result⟩
  · exact ends.leaves
  · rw [result]
    exact .inl (stage.acts.leaves.trans (dispatch_leaves stage.found))

lemma dataCase_leaves (env : Env) (hc : Conn) (f : Frame) :
    Leaves hc (hc.dataCase env f) ∨ ∃ hc₁, Leaves hc hc₁ ∧ hc.dataCase env f = hc₁.fault := by
  unfold dataCase
  split
  · exact .inl (refl hc).abortAt.leaves
  split
  · exact .inl abort_acts.leaves
  dsimp only
  have noted := leaves_endStream hc f.streamId f.endStream
  generalize (if f.endStream then hc.log (.endStream f.streamId) else hc) = hc' at noted ⊢
  split
  · exact .inl (noted.trans dataUnknown_acts.leaves)
  rename_i s found
  obtain ⟨-, same⟩ := mem_of_find found
  rw [← same] at found
  rcases dataStream_leaves found with leaves | ⟨hc₁, leaves, fault⟩
  · exact .inl (noted.trans leaves)
  · exact .inr ⟨hc₁, noted.trans leaves, fault⟩

lemma frameCase_acts (headers : f.type ≠ Frame.headers) (continuation : f.type ≠ Frame.continuation)
    (data : f.type ≠ Frame.data) : Acts env hc (hc.frameCase env f) := by
  unfold frameCase
  split
  · exact abort_acts
  split
  · exact abort_acts
  split
  · exact (refl hc).settingsCase
  split
  · exact (refl hc).rstStreamCase
  split
  · exact (refl hc).pingCase
  split
  · exact (refl hc).close
  split
  · exact (refl hc).windowUpdateCase
  · exact .refl hc

lemma frameCase_cases (env : Env) (hc : Conn) (f : Frame) : (∃ code, hc.frameCase env f = hc.abort env code) ∨
      f.type = Frame.headers ∧ hc.cont.expecting = false ∧ hc.frameCase env f = hc.headersCase env f ∨
      f.type = Frame.continuation ∧ hc.frameCase env f = hc.continuationCase env f ∨
      f.type = Frame.data ∧ hc.cont.expecting = false ∧ hc.frameCase env f = hc.dataCase env f ∨
      f.type ≠ Frame.headers ∧ f.type ≠ Frame.continuation ∧ hc.cont.expecting = false ∧
        Acts env hc (hc.frameCase env f) := by
  by_cases long : f.payload.length > maxSize
  · exact .inl ⟨_, by rw [frameCase, if_pos long]⟩
  by_cases interrupts : hc.cont.expecting ∧ (f.type ≠ Frame.continuation ∨ f.streamId ≠ hc.cont.streamId)
  · exact .inl ⟨_, by rw [frameCase, if_neg long, if_pos interrupts]⟩
  have idle (other : f.type ≠ Frame.continuation) : hc.cont.expecting = false := by
    by_contra open_
    exact interrupts ⟨by simpa using open_, .inl other⟩
  refine .inr ?_
  by_cases headers : f.type = Frame.headers
  · refine .inl ⟨headers, idle (headers ▸ by decide), ?_⟩
    rw [frameCase, if_neg long, if_neg interrupts, headers]
    rfl
  by_cases continuation : f.type = Frame.continuation
  · refine .inr (.inl ⟨continuation, ?_⟩)
    rw [frameCase, if_neg long, if_neg interrupts, continuation]
    rfl
  by_cases data : f.type = Frame.data
  · refine .inr (.inr (.inl ⟨data, idle continuation, ?_⟩))
    rw [frameCase, if_neg long, if_neg interrupts, data]
    rfl
  · exact .inr (.inr (.inr ⟨headers, continuation, idle continuation, frameCase_acts headers continuation data⟩))

lemma turn_cases (env : Env) (hc : Conn) (input : Input) : Acts env hc (hc.turn env input) ∧
        (∀ f, input = .frame f → ¬(hc.connected = true ∧ (hc.housekeeping env (.frame f)).connected = true)) ∨
      ∃ f, input = .frame f ∧ hc.connected = true ∧ Acts env hc (hc.housekeeping env (.frame f)) ∧
        (hc.housekeeping env (.frame f)).connected = true ∧
        hc.turn env input = (hc.housekeeping env (.frame f)).frameCase env f := by
  have kept (input : Input) : Acts env hc (hc.housekeeping env input) := (refl hc).housekeeping
  unfold Conn.turn
  split
  next closed => exact .inl ⟨.refl hc, fun _ _ live => by simp [live.1] at closed⟩
  rename_i connected
  cases input with
  | shutdown =>
    have announced : Acts env hc (hc.sendGoaway env hc.lastProcessedStreamId .noError).2 := (refl hc).sendGoaway
    refine .inl ⟨?_, nofun⟩
    dsimp only
    split <;> rename_i call
    · exact announced.of_call call
    · exact (announced.of_call call).close
  | hangUp => exact .inl ⟨(refl hc).close, nofun⟩
  | frame f =>
    dsimp only
    split
    · exact .inr ⟨f, rfl, by simpa using connected, kept (.frame f), ‹_›, rfl⟩
    rename_i closed
    refine .inl ⟨kept (.frame f), ?_⟩
    rintro _ ⟨⟩ live
    exact closed live.2
  | completions queue => exact .inl ⟨kept (.completions queue), nofun⟩
  | deadline => exact .inl ⟨kept .deadline, nofun⟩

lemma frameCase_proceeds (unique : hc.Unique) : Proceeds hc (hc.frameCase env f) ∨
      f.type = Frame.data ∧ ∃ hc₁, Proceeds hc hc₁ ∧ hc.frameCase env f = hc₁.fault := by
  rcases frameCase_cases env hc f with
    ⟨code, aborts⟩ | ⟨-, idle, headers⟩ | ⟨-, continuation⟩ | ⟨type, -, data⟩ | ⟨-, -, -, acts⟩
  · exact .inl (aborts ▸ abort_acts.proceeds)
  · exact .inl (headers ▸ headersCase_proceeds unique idle)
  · exact .inl (continuation ▸ continuationCase_proceeds unique)
  · rw [data]
    rcases dataCase_leaves env hc f with leaves | ⟨hc₁, leaves, fault⟩
    · exact .inl leaves.toProceeds
    · exact .inr ⟨type, hc₁, leaves.toProceeds, fault⟩
  · exact .inl acts.proceeds

lemma turn_proceeds (env : Env) (input : Input) (unique : hc.Unique) :
    Proceeds hc (hc.turn env input) ∨ ∃ hc₁, Proceeds hc hc₁ ∧ hc.turn env input = hc₁.fault := by
  rcases turn_cases env hc input with ⟨acts, -⟩ | ⟨f, -, -, acts, -, result⟩
  · exact .inl acts.proceeds
  rw [result]
  have kept := acts.proceeds
  rcases frameCase_proceeds (kept.unique unique) with proceeds | ⟨-, hc₁, proceeds, fault⟩
  · exact .inl (kept.trans proceeds)
  · exact .inr ⟨hc₁, kept.trans proceeds, fault⟩

lemma turn_unique (env : Env) (input : Input) (unique : hc.Unique) : (hc.turn env input).Unique := by
  rcases turn_proceeds env input unique with proceeds | ⟨hc₁, proceeds, fault⟩
  · exact proceeds.unique unique
  · rw [fault]
    exact proceeds.unique unique

lemma turn_trace (env : Env) (input : Input) (unique : hc.Unique) : hc.trace <+: (hc.turn env input).trace := by
  rcases turn_proceeds env input unique with proceeds | ⟨hc₁, proceeds, fault⟩
  · exact proceeds.trace
  · rw [fault]
    exact proceeds.trace

lemma run_trace (env : Env) (inputs : List Input) (unique : hc.Unique) : hc.trace <+: (hc.run env inputs).trace := by
  induction inputs generalizing hc with
  | nil => exact prefix_rfl
  | cons input rest ih => exact (turn_trace env input unique).trans (ih (turn_unique env input unique))

lemma run_closed (env : Env) (inputs : List Input) (closed : hc.connected = false) : hc.run env inputs = hc := by
  induction inputs with
  | nil => rfl
  | cons input rest ih =>
    have stays : hc.turn env input = hc := by simp [Conn.turn, closed]
    show (hc.turn env input).run env rest = hc
    rw [stays, ih]

lemma init_trace (env : Env) (sequenced : Bool) : (Conn.init env sequenced).trace = [] := rfl

lemma init_streams (env : Env) (sequenced : Bool) : (Conn.init env sequenced).streams = [] := rfl

lemma start_acts (env : Env) (sequenced : Bool) : Acts env (.init env sequenced) (.start env sequenced) := by
  have announced : Acts env (.init env sequenced)
      ((Conn.init env sequenced).write env ⟨Frame.settings, 0, 0, serverSettings⟩).2 :=
    (refl _).write (show Frame.settings ≠ rstStream by decide)
  unfold Conn.start
  split <;> rename_i call
  · exact (announced.of_call call).close
  · exact (((announced.of_call call).write (show windowUpdate ≠ rstStream by decide)).setFc).sendPing

lemma start_unique (env : Env) (sequenced : Bool) : (Conn.start env sequenced).Unique :=
  (start_acts env sequenced).keeps.unique nodup_nil

end Turns

end Cwist.H2
