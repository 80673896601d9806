import Cwist.Quic.FlowControl

namespace Cwist.Quic
open List Option ConnFc

inductive LimitFrame where
  | maxData (maximum : Nat)
  | maxStreamData (streamId maximum : Nat)
  deriving DecidableEq

def LimitFrame.decode : Bytes → Option LimitFrame
  | [] => none
  | type :: rest =>
    if type = frameMaxData then
      match Varint.decode rest with
      | some (maximum, []) => some (.maxData maximum)
      | _ => none
    else if type = frameMaxStreamData then
      match Varint.decode rest with
      | some (streamId, rest) =>
        match Varint.decode rest with
        | some (maximum, []) => some (.maxStreamData streamId maximum)
        | _ => none
      | none => none
    else none

structure Endpoint where
  conn : ConnFc
  streams : List StreamFc
  deriving DecidableEq

inductive Call where
  | updateRtt (sample : UInt64)
  | evaluateQuality
  | adjustWindows (stream : Option Nat)
  | consumeConn (bytes : UInt64)
  | consumeStream (stream : Nat) (bytes : UInt64)
  | sendMaxData (bufLen : Nat) (force : Bool)
  | sendMaxStreamData (stream : Nat) (bufLen : Nat) (force : Bool)

namespace Endpoint

def call (e : Endpoint) : Call → Endpoint × Option Bytes
  | .updateRtt sample => ({ e with conn := e.conn.updateRtt sample }, none)
  | .evaluateQuality => ({ e with conn := e.conn.evaluateQuality }, none)
  | .adjustWindows none => ({ e with conn := e.conn.adjustWindow }, none)
  | .adjustWindows (some i) =>
    ({ conn := e.conn.adjustWindow, streams := e.streams.modify i (StreamFc.adjustWindow e.conn) }, none)
  | .consumeConn bytes => ({ e with conn := e.conn.consume bytes }, none)
  | .consumeStream i bytes => ({ e with streams := e.streams.modify i (·.consume bytes) }, none)
  | .sendMaxData bufLen force =>
    let (conn, frame) := e.conn.maybeSendMaxData bufLen force
    ({ e with conn }, frame)
  | .sendMaxStreamData i bufLen force =>
    ({ e with streams := e.streams.modify i fun sfc => (sfc.maybeSendMaxStreamData bufLen force).1 },
      e.streams[i]?.bind fun sfc => (sfc.maybeSendMaxStreamData bufLen force).2)

def recorded (e : Endpoint) : Call → Option LimitFrame
  | .sendMaxData .. => some (.maxData e.conn.maxData.toNat)
  | .sendMaxStreamData i .. => e.streams[i]?.map fun sfc => .maxStreamData sfc.streamId.toNat sfc.maxStreamData.toNat
  | _ => none

def Carried (e : Endpoint) : Prop :=
  e.conn.maxData ≤ maxVarint ∧ ∀ sfc ∈ e.streams, sfc.maxStreamData ≤ maxVarint

def Raises (e e' : Endpoint) : Prop :=
  e.conn.maxData ≤ e'.conn.maxData ∧
    List.Forall₂ (fun sfc sfc' => sfc.maxStreamData ≤ sfc'.maxStreamData) e.streams e'.streams

def Honest (e : Endpoint) : List Call → Prop
  | [] => e.Carried
  | c :: rest => e.Carried ∧ e.Raises (e.call c).1 ∧
      (∀ frame ∈ (e.call c).2, LimitFrame.decode frame = (e.call c).1.recorded c) ∧ Honest (e.call c).1 rest

def init (initialConn initialStream maxConn maxStream : UInt64) (streams : List (UInt64 × UInt64)) : Endpoint :=
  ⟨ConnFc.init initialConn initialStream maxConn maxStream, streams.map fun s => StreamFc.init s.1 s.2⟩

end Endpoint

variable {value window maximum limit : UInt64}

section Arithmetic

variable {increment : UInt64}

lemma le_maxVarint_iff : value ≤ maxVarint ↔ value.toNat < 2 ^ 62 := by
  rw [UInt64.le_iff_toNat_le, maxVarint_toNat]
  omega

lemma saturatingAdd_le (narrow : increment ≤ maxVarint) : saturatingAdd value increment ≤ maxVarint := by
  have difference := UInt64.toNat_sub_of_le _ _ narrow
  have bound := UInt64.le_iff_toNat_le.mp narrow
  rw [maxVarint_toNat] at difference bound
  unfold saturatingAdd
  split
  · exact UInt64.le_refl _
  rename_i fits
  have fits : value.toNat ≤ (maxVarint - increment).toNat := not_lt.mp fits
  rw [le_maxVarint_iff, UInt64.toNat_add]
  omega

lemma raisedLimit_ge : limit ≤ raisedLimit value window limit := by
  unfold raisedLimit
  dsimp only
  split
  · exact UInt64.le_refl _
  next above => exact UInt64.not_lt.mp above

lemma raisedLimit_le (narrow : window ≤ maxVarint) (bound : limit ≤ maxVarint) :
    raisedLimit value window limit ≤ maxVarint := by
  unfold raisedLimit
  dsimp only
  split
  · exact bound
  · exact saturatingAdd_le narrow

lemma grow_le (narrow : window ≤ limit) (bound : maximum ≤ limit) : grow window maximum ≤ limit := by
  unfold grow
  split
  · split
    · exact bound
    next within => exact UInt64.le_trans (UInt64.not_lt.mp within) bound
  · exact narrow

end Arithmetic

/-- Every limit and window of the connection can be carried, and every window to come. -/
structure ConnFc.Narrow (fc : ConnFc) : Prop where
  maxData : fc.maxData ≤ maxVarint
  window : fc.connWindowSize ≤ maxVarint
  maximum : fc.connMaxWindow ≤ maxVarint

structure StreamFc.Narrow (maximum : UInt64) (sfc : StreamFc) : Prop where
  streamId : sfc.streamId ≤ maxVarint
  limit : sfc.maxStreamData ≤ maxVarint
  window : sfc.streamWindowSize ≤ maxVarint
  maximum : maximum ≤ maxVarint

def Endpoint.Narrow (e : Endpoint) : Prop :=
  e.conn.Narrow ∧ ∀ sfc ∈ e.streams, sfc.Narrow e.conn.streamMaxWindow

lemma ConnFc.evaluateQuality_eq (fc : ConnFc) : ∃ quality, fc.evaluateQuality = { fc with quality } := by
  unfold evaluateQuality
  split
  · exact ⟨fc.quality, rfl⟩
  split
  · exact ⟨_, rfl⟩
  split
  · exact ⟨_, rfl⟩
  split <;> exact ⟨_, rfl⟩

lemma ConnFc.updateRtt_eq (fc : ConnFc) (sample : UInt64) : ∃ srttUs rttvarUs minRttUs rttInitialized quality,
    fc.updateRtt sample = { fc with srttUs, rttvarUs, minRttUs, rttInitialized, quality } := by
  unfold updateRtt
  split
  · exact ⟨_, _, _, _, _, rfl⟩
  split
  · obtain ⟨quality, same⟩ := evaluateQuality_eq
      { fc with srttUs := sample, rttvarUs := sample / 2, minRttUs := sample, rttInitialized := true }
    exact ⟨_, _, _, _, quality, same⟩
  · exact ⟨_, _, _, _, _, (evaluateQuality_eq _).choose_spec⟩

lemma ConnFc.consume_eq (fc : ConnFc) (bytes : UInt64) : ∃ connConsumed, fc.consume bytes = { fc with connConsumed } :=
  ⟨_, rfl⟩

lemma StreamFc.consume_eq (sfc : StreamFc) (bytes : UInt64) :
    ∃ streamConsumed, sfc.consume bytes = { sfc with streamConsumed } :=
  ⟨_, rfl⟩

section Frames

variable {fc : ConnFc} {sfc : StreamFc} {bufLen : Nat} {force : Bool}

lemma decode_maxData (narrow : maximum ≤ maxVarint) :
    LimitFrame.decode (frameMaxData :: writeVarint maximum (varintSize maximum)) = some (.maxData maximum.toNat) := by
  have decoded := decode_writeVarint (le_maxVarint_iff.mp narrow) []
  rw [append_nil] at decoded
  rw [LimitFrame.decode, if_pos rfl, decoded]

lemma decode_maxStreamData {streamId : UInt64} (id : streamId ≤ maxVarint) (narrow : maximum ≤ maxVarint) :
    LimitFrame.decode
        (frameMaxStreamData :: writeVarint streamId (varintSize streamId) ++ writeVarint maximum (varintSize maximum)) =
      some (.maxStreamData streamId.toNat maximum.toNat) := by
  have decoded := decode_writeVarint (le_maxVarint_iff.mp narrow) []
  rw [append_nil] at decoded
  rw [cons_append, LimitFrame.decode, if_neg (by decide), if_pos rfl, decode_writeVarint (le_maxVarint_iff.mp id)]
  dsimp only
  rw [decoded]

lemma maybeSendMaxData_cases (fc : ConnFc) (bufLen : Nat) (force : Bool) :
    fc.maybeSendMaxData bufLen force = (fc, none) ∨
      ∃ maximum, maximum = raisedLimit fc.connConsumed fc.connWindowSize fc.maxData ∧ fc.maybeSendMaxData bufLen force =
          ({ fc with maxData := maximum }, some (frameMaxData :: writeVarint maximum (varintSize maximum))) := by
  unfold maybeSendMaxData
  split
  · exact .inl rfl
  dsimp only
  generalize raisedLimit fc.connConsumed fc.connWindowSize fc.maxData = maximum
  split
  · exact .inl rfl
  · exact .inr ⟨maximum, rfl, rfl⟩

lemma maybeSendMaxStreamData_cases (sfc : StreamFc) (bufLen : Nat) (force : Bool) :
    sfc.maybeSendMaxStreamData bufLen force = (sfc, none) ∨
      ∃ maximum, maximum = raisedLimit sfc.streamConsumed sfc.streamWindowSize sfc.maxStreamData ∧
        sfc.maybeSendMaxStreamData bufLen force = ({ sfc with maxStreamData := maximum }, some (frameMaxStreamData ::
          writeVarint sfc.streamId (varintSize sfc.streamId) ++ writeVarint maximum (varintSize maximum))) := by
  unfold StreamFc.maybeSendMaxStreamData
  split
  · exact .inl rfl
  dsimp only
  generalize raisedLimit sfc.streamConsumed sfc.streamWindowSize sfc.maxStreamData = maximum
  split
  · exact .inl rfl
  · exact .inr ⟨maximum, rfl, rfl⟩

lemma maybeSendMaxData_spec (narrow : fc.Narrow) :
    (∃ maxData, (fc.maybeSendMaxData bufLen force).1 = { fc with maxData } ∧ fc.maxData ≤ maxData ∧ maxData ≤ maxVarint) ∧
      ∀ frame ∈ (fc.maybeSendMaxData bufLen force).2,
        LimitFrame.decode frame = some (.maxData (fc.maybeSendMaxData bufLen force).1.maxData.toNat) := by
  rcases maybeSendMaxData_cases fc bufLen force with quiet | ⟨maximum, raised, sent⟩
  · rw [quiet]
    exact ⟨⟨fc.maxData, rfl, UInt64.le_refl _, narrow.maxData⟩, nofun⟩
  have carried : maximum ≤ maxVarint := raised ▸ raisedLimit_le narrow.window narrow.maxData
  rw [sent]
  refine ⟨⟨maximum, rfl, raised ▸ raisedLimit_ge, carried⟩, fun frame written => ?_⟩
  rw [← some.inj written]
  exact decode_maxData carried

lemma maybeSendMaxStreamData_spec {most : UInt64} (narrow : sfc.Narrow most) :
    (∃ maxStreamData, (sfc.maybeSendMaxStreamData bufLen force).1 = { sfc with maxStreamData } ∧
        sfc.maxStreamData ≤ maxStreamData ∧ maxStreamData ≤ maxVarint) ∧
      ∀ frame ∈ (sfc.maybeSendMaxStreamData bufLen force).2, LimitFrame.decode frame =
        some (.maxStreamData (sfc.maybeSendMaxStreamData bufLen force).1.streamId.toNat
          (sfc.maybeSendMaxStreamData bufLen force).1.maxStreamData.toNat) := by
  rcases maybeSendMaxStreamData_cases sfc bufLen force with quiet | ⟨maximum, raised, sent⟩
  · rw [quiet]
    exact ⟨⟨sfc.maxStreamData, rfl, UInt64.le_refl _, narrow.limit⟩, nofun⟩
  have carried : maximum ≤ maxVarint := raised ▸ raisedLimit_le narrow.window narrow.limit
  rw [sent]
  refine ⟨⟨maximum, rfl, raised ▸ raisedLimit_ge, carried⟩, fun frame written => ?_⟩
  rw [← some.inj written]
  exact decode_maxStreamData narrow.streamId carried

end Frames

variable {e : Endpoint}

namespace Endpoint

variable {c : Call}

/-- What a call does to a stream: it keeps the stream narrow and does not lower its limit. -/
def Advances (most : UInt64) (sfc sfc' : StreamFc) : Prop :=
  sfc.maxStreamData ≤ sfc'.maxStreamData ∧ sfc'.Narrow most

lemma forall₂_modify {α : Type*} {R : α → α → Prop} {f : α → α} {xs : List α} (i : Nat) (keeps : ∀ x ∈ xs, R x x)
    (changes : ∀ x ∈ xs, R x (f x)) : List.Forall₂ R xs (xs.modify i f) := by
  induction xs generalizing i with
  | nil => simp
  | cons x rest ih =>
    have tail : ∀ y ∈ rest, R y y := fun y member => keeps y (mem_cons_of_mem _ member)
    cases i with
    | zero => exact .cons (changes x mem_cons_self) (forall₂_same.mpr tail)
    | succ i => exact .cons (keeps x mem_cons_self) (ih i tail fun y member => changes y (mem_cons_of_mem _ member))

lemma call_spec (narrow : e.Narrow) : ((e.call c).1.conn.Narrow ∧ e.conn.maxData ≤ (e.call c).1.conn.maxData ∧
        (e.call c).1.conn.streamMaxWindow = e.conn.streamMaxWindow) ∧
      List.Forall₂ (Advances e.conn.streamMaxWindow) e.streams (e.call c).1.streams ∧
      ∀ frame ∈ (e.call c).2, LimitFrame.decode frame = (e.call c).1.recorded c := by
  obtain ⟨conn, streams⟩ := narrow
  have same : ∀ sfc ∈ e.streams, Advances e.conn.streamMaxWindow sfc sfc := fun sfc member =>
    ⟨UInt64.le_refl _, streams sfc member⟩
  have still := forall₂_same.mpr same
  have adjusted : e.conn.adjustWindow.Narrow ∧ e.conn.maxData ≤ e.conn.adjustWindow.maxData ∧
      e.conn.adjustWindow.streamMaxWindow = e.conn.streamMaxWindow := by
    unfold adjustWindow
    split
    · exact ⟨conn, UInt64.le_refl _, rfl⟩
    · exact ⟨{ conn with window := grow_le conn.window conn.maximum }, UInt64.le_refl _, rfl⟩
  cases c with
  | updateRtt sample =>
    obtain ⟨srtt, rttvar, minRtt, initialized, quality, same⟩ := e.conn.updateRtt_eq sample
    refine ⟨?_, still, nofun⟩
    show (e.conn.updateRtt sample).Narrow ∧ _ ≤ (e.conn.updateRtt sample).maxData ∧
      (e.conn.updateRtt sample).streamMaxWindow = _
    rw [same]
    exact ⟨{ conn with }, UInt64.le_refl _, rfl⟩
  | evaluateQuality =>
    obtain ⟨quality, same⟩ := e.conn.evaluateQuality_eq
    refine ⟨?_, still, nofun⟩
    show e.conn.evaluateQuality.Narrow ∧ _ ≤ e.conn.evaluateQuality.maxData ∧ e.conn.evaluateQuality.streamMaxWindow = _
    rw [same]
    exact ⟨{ conn with }, UInt64.le_refl _, rfl⟩
  | adjustWindows stream =>
    cases stream with
    | none => exact ⟨adjusted, still, nofun⟩
    | some i =>
      refine ⟨adjusted, forall₂_modify i same fun sfc member => ?_, nofun⟩
      unfold StreamFc.adjustWindow
      split
      · exact same sfc member
      · have held := streams sfc member
        exact ⟨UInt64.le_refl _, { held with window := grow_le held.window held.maximum }⟩
  | consumeConn bytes =>
    obtain ⟨consumed, same⟩ := e.conn.consume_eq bytes
    rw [call, same]
    exact ⟨⟨{ conn with }, UInt64.le_refl _, rfl⟩, still, nofun⟩
  | consumeStream i bytes =>
    refine ⟨⟨conn, UInt64.le_refl _, rfl⟩, forall₂_modify i same fun sfc member => ?_, nofun⟩
    obtain ⟨consumed, same⟩ := sfc.consume_eq bytes
    rw [same]
    exact ⟨UInt64.le_refl _, { streams sfc member with }⟩
  | sendMaxData bufLen force =>
    obtain ⟨⟨maxData, after, rises, carried⟩, frames⟩ := @maybeSendMaxData_spec e.conn bufLen force conn
    refine ⟨?_, still, frames⟩
    show (e.conn.maybeSendMaxData bufLen force).1.Narrow ∧ _ ≤ (e.conn.maybeSendMaxData bufLen force).1.maxData ∧
      (e.conn.maybeSendMaxData bufLen force).1.streamMaxWindow = _
    rw [after]
    exact ⟨{ conn with maxData := carried }, rises, rfl⟩
  | sendMaxStreamData i bufLen force =>
    refine ⟨⟨conn, UInt64.le_refl _, rfl⟩, forall₂_modify i same fun sfc member => ?_, fun frame written => ?_⟩
    · obtain ⟨⟨limit, after, rises, carried⟩, -⟩ := @maybeSendMaxStreamData_spec sfc bufLen force _ (streams sfc member)
      rw [after]
      exact ⟨rises, { streams sfc member with limit := carried }⟩
    obtain ⟨sfc, present, written⟩ := bind_eq_some_iff.mp written
    have frames := (@maybeSendMaxStreamData_spec sfc bufLen force _ (streams sfc (mem_of_getElem? present))).2
    rw [frames frame written]
    show _ = Option.map _ (List.modify _ i _)[i]?
    rw [getElem?_modify, present]
    simp only [if_true, Option.map_eq_map, Option.map_some]

lemma narrow_of_advances {most : UInt64} {streams after : List StreamFc}
    (advances : List.Forall₂ (Advances most) streams after) : ∀ sfc ∈ after, sfc.Narrow most := by
  induction advances with
  | nil => simp
  | cons first _ ih => exact forall_mem_cons.mpr ⟨first.2, ih⟩

lemma Narrow.honest (narrow : e.Narrow) (calls : List Call) : e.Honest calls := by
  induction calls generalizing e with
  | nil => exact ⟨narrow.1.maxData, fun sfc member => (narrow.2 sfc member).limit⟩
  | cons c rest ih =>
    obtain ⟨⟨conn, rises, most⟩, streams, frames⟩ := @call_spec e c narrow
    refine ⟨⟨narrow.1.maxData, fun sfc member => (narrow.2 sfc member).limit⟩,
      ⟨rises, streams.imp fun _ _ advance => advance.1⟩, frames, ih ⟨conn, ?_⟩⟩
    rw [most]
    exact narrow_of_advances streams

end Endpoint

section Wide

lemma lt_grow (positive : 0 < window) (narrow : window ≤ maxVarint) (wide : maxVarint < maximum) :
    window < grow window maximum := by
  have low := le_maxVarint_iff.mp narrow
  have below := UInt64.lt_of_le_of_lt narrow wide
  have positive := UInt64.lt_iff_toNat_lt.mp positive
  unfold grow
  rw [if_pos below]
  split
  · exact below
  · rw [UInt64.lt_iff_toNat_lt, UInt64.toNat_mul, show (2 : UInt64).toNat = 2 from rfl]
    have zero : (0 : UInt64).toNat = 0 := rfl
    omega

lemma distance_lt {larger : UInt64} (less : window < larger) (narrow : window ≤ limit) :
    limit.toNat + 1 - larger.toNat < limit.toNat + 1 - window.toNat := by
  have := UInt64.lt_iff_toNat_lt.mp less
  have := UInt64.le_iff_toNat_le.mp narrow
  omega

lemma le_raisedLimit : window ≤ raisedLimit 0 window limit := by
  have sum : saturatingAdd 0 window = window := by
    unfold saturatingAdd
    rw [if_neg (UInt64.not_lt.mpr (UInt64.zero_le ..)), UInt64.zero_add]
  unfold raisedLimit
  rw [sum]
  dsimp only
  split
  next below => exact UInt64.le_of_lt below
  · exact UInt64.le_refl _

lemma varintSize_le : varintSize value ≤ 8 := by
  unfold varintSize
  split
  · decide
  split
  · decide
  split <;> decide

lemma maybeSendMaxData_forced (fc : ConnFc) : ∃ maximum, ∃ frame,
    maximum = raisedLimit fc.connConsumed fc.connWindowSize fc.maxData ∧
      fc.maybeSendMaxData 17 true = ({ fc with maxData := maximum }, some frame) := by
  unfold maybeSendMaxData
  generalize raisedLimit fc.connConsumed fc.connWindowSize fc.maxData = maximum
  have size : varintSize maximum ≤ 8 := varintSize_le
  rw [if_neg (by simp)]
  dsimp only
  rw [if_neg (by omega)]
  exact ⟨maximum, _, rfl, rfl⟩

lemma maybeSendMaxStreamData_forced (sfc : StreamFc) : ∃ maximum, ∃ frame,
    maximum = raisedLimit sfc.streamConsumed sfc.streamWindowSize sfc.maxStreamData ∧
      sfc.maybeSendMaxStreamData 17 true = ({ sfc with maxStreamData := maximum }, some frame) := by
  unfold StreamFc.maybeSendMaxStreamData
  generalize raisedLimit sfc.streamConsumed sfc.streamWindowSize sfc.maxStreamData = maximum
  have size : varintSize maximum ≤ 8 := varintSize_le
  have idSize : varintSize sfc.streamId ≤ 8 := varintSize_le
  rw [if_neg (by simp)]
  dsimp only
  rw [if_neg (by omega)]
  exact ⟨maximum, _, rfl, rfl⟩

lemma updateRtt_poor {fc : ConnFc} (fresh : fc.rttInitialized = false) : ∃ srttUs rttvarUs minRttUs rttInitialized,
      fc.updateRtt 1000000 = { fc with srttUs, rttvarUs, minRttUs, rttInitialized, quality := .poor } := by
  unfold updateRtt
  rw [if_neg (by decide), fresh, if_pos (by decide)]
  unfold evaluateQuality
  dsimp only
  rw [if_neg (by simp), if_neg (by decide), if_neg (by decide), if_neg (by decide)]
  exact ⟨_, _, _, _, rfl⟩

end Wide

namespace Endpoint

variable {sfc : StreamFc} {i : Nat}

lemma exists_not_honest_conn (poor : e.conn.quality = .poor) (unused : e.conn.connConsumed = 0)
    (positive : 0 < e.conn.connWindowSize) (wide : maxVarint < e.conn.connMaxWindow) : ∃ calls, ¬e.Honest calls := by
  -- on how far the window is from the largest integer
  induction distance : maxVarint.toNat + 1 - e.conn.connWindowSize.toNat using Nat.strong_induction_on generalizing e with
  | _ n ih =>
  by_cases narrow : e.conn.connWindowSize ≤ maxVarint
  · have larger := lt_grow positive narrow wide
    have adjusted : e.conn.adjustWindow =
        { e.conn with connWindowSize := grow e.conn.connWindowSize e.conn.connMaxWindow } := by
      rw [adjustWindow, if_neg (by rw [poor]; decide)]
    generalize grow e.conn.connWindowSize e.conn.connMaxWindow = window at larger adjusted
    have nearer : maxVarint.toNat + 1 - window.toNat < n := distance ▸ distance_lt larger narrow
    obtain ⟨calls, fails⟩ := @ih _ nearer { e with conn := { e.conn with connWindowSize := window } } poor unused
      (UInt64.lt_trans positive larger) wide rfl
    refine ⟨.adjustWindows none :: calls, fun honest => fails ?_⟩
    have later := honest.2.2.2
    rwa [call, adjusted] at later
  · refine ⟨[.sendMaxData 17 true], fun honest => ?_⟩
    obtain ⟨maximum, frame, raised, sent⟩ := maybeSendMaxData_forced e.conn
    have carried := honest.2.2.2.1
    rw [call, sent] at carried
    have carried := carried
    rw [unused] at raised
    have least : e.conn.connWindowSize ≤ maximum := raised ▸ le_raisedLimit
    exact narrow (UInt64.le_trans least carried)

lemma exists_not_honest_stream (present : e.streams[i]? = some sfc)
    (poor : e.conn.quality = .poor) (unused : sfc.streamConsumed = 0) (positive : 0 < sfc.streamWindowSize)
    (wide : maxVarint < e.conn.streamMaxWindow) : ∃ calls, ¬e.Honest calls := by
  induction distance : maxVarint.toNat + 1 - sfc.streamWindowSize.toNat using Nat.strong_induction_on generalizing e sfc with
  | _ n ih =>
  by_cases narrow : sfc.streamWindowSize ≤ maxVarint
  · have larger := lt_grow positive narrow wide
    have adjusted : sfc.adjustWindow e.conn =
        { sfc with streamWindowSize := grow sfc.streamWindowSize e.conn.streamMaxWindow } := by
      rw [StreamFc.adjustWindow, if_neg (by rw [poor]; decide)]
    have conn : ∃ window, e.conn.adjustWindow = { e.conn with connWindowSize := window } := by
      rw [adjustWindow, if_neg (by rw [poor]; decide)]
      exact ⟨_, rfl⟩
    obtain ⟨connWindow, conn⟩ := conn
    generalize grow sfc.streamWindowSize e.conn.streamMaxWindow = window at larger adjusted
    have nearer : maxVarint.toNat + 1 - window.toNat < n := distance ▸ distance_lt larger narrow
    have present : (e.streams.modify i (StreamFc.adjustWindow e.conn))[i]? =
        some { sfc with streamWindowSize := window } := by
      rw [getElem?_modify, present]
      simp only [if_true, Option.map_eq_map, Option.map_some, adjusted]
    obtain ⟨calls, fails⟩ := @ih _ nearer
      ⟨{ e.conn with connWindowSize := connWindow }, e.streams.modify i (StreamFc.adjustWindow e.conn)⟩ _ present poor
      unused (UInt64.lt_trans positive larger) wide rfl
    refine ⟨.adjustWindows (some i) :: calls, fun honest => fails ?_⟩
    have later := honest.2.2.2
    rwa [call, conn] at later
  · refine ⟨[.sendMaxStreamData i 17 true], fun honest => ?_⟩
    obtain ⟨maximum, frame, raised, sent⟩ := maybeSendMaxStreamData_forced sfc
    have carried := honest.2.2.2.2
    have present : (e.call (.sendMaxStreamData i 17 true)).1.streams[i]? = some { sfc with maxStreamData := maximum } := by
      rw [call, getElem?_modify, present]
      simp only [if_true, Option.map_eq_map, Option.map_some, sent]
    have carried := carried _ (mem_of_getElem? present)
    rw [unused] at raised
    have least : sfc.streamWindowSize ≤ maximum := raised ▸ le_raisedLimit
    exact narrow (UInt64.le_trans least carried)

lemma exists_not_honest_id (present : e.streams[i]? = some sfc)
    (wide : ¬sfc.streamId ≤ maxVarint) : ∃ calls, ¬e.Honest calls := by
  refine ⟨[.sendMaxStreamData i 17 true], fun honest => wide ?_⟩
  obtain ⟨maximum, frame, -, sent⟩ := maybeSendMaxStreamData_forced sfc
  have after : (e.call (.sendMaxStreamData i 17 true)).1.streams[i]? = some { sfc with maxStreamData := maximum } := by
    rw [call, getElem?_modify, present]
    simp only [if_true, Option.map_eq_map, Option.map_some, sent]
  have written : frame ∈ (e.call (.sendMaxStreamData i 17 true)).2 := by
    rw [call, present, bind_some, sent]
    rfl
  have told := honest.2.2.1 frame written
  rw [recorded, after, map_some] at told
  -- whatever the frame says, its integers have at most 62 bits
  rw [le_maxVarint_iff]
  unfold LimitFrame.decode at told
  split at told
  · cases told
  split at told
  · split at told <;> cases told
  split at told
  · split at told
    next decoded =>
      split at told
      · cases told
        exact Varint.decode_lt decoded
      · cases told
    · cases told
  · cases told

lemma clampWindow_le_iff : clampWindow window ≤ maxVarint ↔ window ≤ maxVarint := by
  unfold clampWindow
  split
  next small =>
    have least : minInitialWindow ≤ maxVarint := by decide
    exact iff_of_true least (UInt64.le_trans (UInt64.le_of_lt small) least)
  · rfl

lemma clampWindow_pos (window : UInt64) : 0 < clampWindow window := by
  have least : (0 : UInt64) < minInitialWindow := by decide
  unfold clampWindow
  split
  · exact least
  next large => exact UInt64.lt_of_lt_of_le least (UInt64.not_lt.mp large)

lemma raised_le_iff {initial : UInt64} :
    (if clampWindow maximum < clampWindow initial then clampWindow initial else clampWindow maximum) ≤ maxVarint ↔
      initial ≤ maxVarint ∧ maximum ≤ maxVarint := by
  rw [← @clampWindow_le_iff initial, ← @clampWindow_le_iff maximum]
  split
  next larger => exact ⟨fun bound => ⟨bound, UInt64.le_trans (UInt64.le_of_lt larger) bound⟩, And.left⟩
  next larger => exact ⟨fun bound => ⟨UInt64.le_trans (UInt64.not_lt.mp larger) bound, bound⟩, And.right⟩

lemma honest_poor (fresh : e.conn.rttInitialized = false) (honest : ∀ calls, e.Honest calls) :
    ∃ e' : Endpoint, (∀ calls, e'.Honest calls) ∧ e'.conn.quality = .poor ∧ e'.streams = e.streams ∧
      e'.conn.connConsumed = e.conn.connConsumed ∧ e'.conn.connWindowSize = e.conn.connWindowSize ∧
      e'.conn.connMaxWindow = e.conn.connMaxWindow ∧ e'.conn.streamMaxWindow = e.conn.streamMaxWindow := by
  obtain ⟨srttUs, rttvarUs, minRttUs, rttInitialized, poor⟩ := updateRtt_poor fresh
  refine ⟨{ e with conn := { e.conn with srttUs, rttvarUs, minRttUs, rttInitialized, quality := .poor } },
    fun calls => ?_, rfl, rfl, rfl, rfl, rfl, rfl⟩
  have later := (honest (.updateRtt 1000000 :: calls)).2.2.2
  rwa [call, poor] at later

lemma init_windows (initialConn initialStream maxConn maxStream : UInt64) (streams : List (UInt64 × UInt64)) :
    (init initialConn initialStream maxConn maxStream streams).conn.connConsumed = 0 ∧
      (init initialConn initialStream maxConn maxStream streams).conn.connWindowSize = clampWindow initialConn ∧
      (init initialConn initialStream maxConn maxStream streams).conn.connMaxWindow =
        (if clampWindow maxConn < clampWindow initialConn then clampWindow initialConn else clampWindow maxConn) ∧
      (init initialConn initialStream maxConn maxStream streams).conn.streamMaxWindow =
        if clampWindow maxStream < clampWindow initialStream then clampWindow initialStream else clampWindow maxStream :=
  ⟨rfl, rfl, rfl, rfl⟩

/-- Every run tells the peer the limits that are recorded, never lowers one and never exceeds 62 bits, if and only if
the windows given to the initialisers, and the stream ids, have at most 62 bits. -/
theorem honest_iff (initialConn initialStream maxConn maxStream : UInt64) (streams : List (UInt64 × UInt64)) :
    (∀ calls, (init initialConn initialStream maxConn maxStream streams).Honest calls) ↔
      (initialConn ≤ maxVarint ∧ maxConn ≤ maxVarint) ∧
        ∀ s ∈ streams, s.1 ≤ maxVarint ∧ s.2 ≤ maxVarint ∧ initialStream ≤ maxVarint ∧ maxStream ≤ maxVarint := by
  constructor
  · intro honest
    obtain ⟨e, slow, poor, same, windows⟩ := honest_poor rfl honest
    obtain ⟨consumed, window, connMax, streamMax⟩ := init_windows initialConn initialStream maxConn maxStream streams
    rw [consumed, window, connMax, streamMax] at windows
    obtain ⟨unused, window, connMax, streamMax⟩ := windows
    refine ⟨?_, fun s member => ?_⟩
    · rw [← raised_le_iff]
      by_contra wide
      rw [← connMax] at wide
      have positive := clampWindow_pos initialConn
      rw [← window] at positive
      obtain ⟨calls, fails⟩ := exists_not_honest_conn poor unused positive (UInt64.not_le.mp wide)
      exact fails (slow calls)
    obtain ⟨i, place⟩ := getElem?_of_mem member
    have present : (init initialConn initialStream maxConn maxStream streams).streams[i]? =
        some (StreamFc.init s.1 s.2) := by
      rw [init, getElem?_map, place, map_some]
    refine ⟨?_, ?_, ?_⟩
    · by_contra wide
      obtain ⟨calls, fails⟩ := exists_not_honest_id present wide
      exact fails (honest calls)
    · exact clampWindow_le_iff.mp ((honest []).2 _ (mem_of_getElem? present))
    rw [← raised_le_iff]
    by_contra wide
    rw [← same] at present
    rw [← streamMax] at wide
    obtain ⟨calls, fails⟩ := exists_not_honest_stream present poor rfl (clampWindow_pos s.2) (UInt64.not_le.mp wide)
    exact fails (slow calls)
  · rintro ⟨conn, each⟩ calls
    refine Narrow.honest ⟨⟨clampWindow_le_iff.mpr conn.1, clampWindow_le_iff.mpr conn.1, raised_le_iff.mpr conn⟩, ?_⟩ calls
    intro sfc member
    obtain ⟨s, given, rfl⟩ := mem_map.mp member
    obtain ⟨id, window, maximum⟩ := each s given
    exact ⟨id, clampWindow_le_iff.mpr window, clampWindow_le_iff.mpr window, raised_le_iff.mpr maximum⟩

/-- An initial window of 2^62: the limit is recorded as such, and the peer reads 0. -/
theorem wide_window_misread :
    let e := init 4611686018427387904 0 0 0 []
    (e.call (.sendMaxData 9 true)).2.bind LimitFrame.decode = some (.maxData 0) ∧
      (e.call (.sendMaxData 9 true)).1.conn.maxData.toNat = 2 ^ 62 := by
  decide

end Endpoint

end Cwist.Quic
