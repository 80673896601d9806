import Cwist.Http2.Steps

namespace Cwist.H2
open Conn

def fedAssembler (assembler : Option Seq.Assembler) (data : Bytes) : Option (Option Seq.Assembler) :=
  if data = [] then some assembler
  else
    match Seq.chunkParse data with
    | none => some assembler
    | some chunk =>
      match (assembler.getD (.createLimited maxBodySize)).feed chunk with
      | (false, _) => none
      | (true, assembler) => some (some assembler)

def Stream.NeedsRequest (s : Stream) (sequenced : Bool) (data : Bytes) (endStream : Bool) : Prop :=
  if sequenced then
    s.hookCtx.isNone ∧ endStream = true ∧ ∃ fed ∈ fedAssembler s.bodyAssembler data, (assembledBody fed).isSome
  else s.hasContentLength = true ∨ s.hookCtx.isNone ∧ (data ≠ [] ∨ endStream = true)

def Conn.Accepts (hc : Conn) (s : Stream) (len : Nat) : Prop :=
  len = 0 ∨ (hc.fc.receive len).isSome ∧ (s.progress.fc.receive len).isSome

/-- A DATA frame within both windows that needs a request which is not there. -/
def Conn.LacksRequest (hc : Conn) (f : Frame) : Prop :=
  f.type = Frame.data ∧ f.payload.length ≤ Frame.maxSize ∧ hc.cont.expecting = false ∧ f.streamId ≠ 0 ∧
    ∃ data ∈ f.dataOctets, ∃ s ∈ hc.find f.streamId,
      s.req.isNone ∧ hc.Accepts s f.payload.length ∧ s.NeedsRequest hc.sequencedData data f.endStream

section Data

variable {env : Env} {hc hc' : Conn} {s : Stream} {data : Bytes} {endStream : Bool} {len : Nat}

lemma Leaves.clear (leaves : Leaves hc hc') (clear : hc.faulted = false) : hc'.faulted = false :=
  leaves.faulted.trans clear

lemma Acts.clear (acts : Acts env hc hc') (clear : hc.faulted = false) : hc'.faulted = false :=
  acts.leaves.clear clear

section
variable (clear : hc.faulted = false)
include clear

section
variable (found : hc.find s.streamId = some s)
include found

lemma dispatch_clear {req : Http.Request} :
    (hc.dispatch env true s req).faulted = false := (dispatch_leaves found).clear clear

lemma dataServe_faulted : (hc.dataServe env s).faulted = true ↔ s.req = none := by
  unfold dataServe Stream.contentLengthMatches
  cases request : s.req with
  | none =>
    simp only [iff_true]
    cases s.hasContentLength <;> rfl
  | some req =>
    simp only [reduceCtorEq, iff_false, Bool.not_eq_true]
    split
    · exact (Acts.refl hc).rejectContentLength.clear clear
    · exact dispatch_clear clear found
    next undecided _ => split at undecided <;> simp_all

lemma dataEnd_faulted : (hc.dataEnd env s).faulted = true ↔
      s.req = none ∧ (hc.sequencedData = true → (assembledBody s.bodyAssembler).isSome) := by
  unfold dataEnd dataAssemble
  by_cases sequenced : hc.sequencedData = true
  · rw [if_neg (by simp [sequenced])]
    cases assembled : assembledBody s.bodyAssembler with
    | none => simpa [sequenced] using dataIncomplete_acts.clear clear
    | some octets =>
      cases request : s.req with
      | none => simp [Conn.fault]
      | some req =>
        dsimp only
        by_cases large : s.bodyAssembler.isSome ∧ req.body.length + octets.length > maxBodySize
        · rw [if_pos large]
          simpa using dataIncomplete_acts.clear clear
        rw [if_neg large]
        let s' : Stream := { s with
          req := some { req with body := req.body ++ octets }
          receivedContent := (req.body ++ octets).length }
        have kept : (hc.put s').find s'.streamId = some s' := find_put found rfl
        have served : ((hc.put s').dataServe env s').faulted = true ↔ s'.req = none :=
          dataServe_faulted ((leaves_put hc s').clear clear) kept
        simpa [s'] using served
  · simpa [sequenced] using dataServe_faulted clear found

lemma dataBuffered_faulted :
    (hc.dataBuffered env s data endStream).faulted = true ↔
      s.req = none ∧
        if hc.sequencedData then endStream = true ∧ ∃ fed ∈ fedAssembler s.bodyAssembler data, (assembledBody fed).isSome
        else data ≠ [] ∨ endStream = true := by
  have ends {hc : Conn} {s : Stream} (clear : hc.faulted = false) (found : hc.find s.streamId = some s) :
      (if endStream then hc.dataEnd env s else hc.autoWindowUpdate env s.streamId).faulted = true ↔
        s.req = none ∧ endStream = true ∧ (hc.sequencedData = true → (assembledBody s.bodyAssembler).isSome) := by
    split
    next ended => simp [ended, dataEnd_faulted clear found]
    next more => simp [more, (Acts.refl hc).autoWindowUpdate.clear clear]
  unfold dataBuffered dataBuffer fedAssembler
  by_cases nothing : data = []
  · rw [if_pos nothing]
    rw [ends clear found]
    cases hc.sequencedData <;> simp [nothing]
  rw [if_neg nothing]
  by_cases sequenced : hc.sequencedData = true
  · rw [if_pos sequenced, if_pos sequenced, if_neg nothing]
    cases Seq.chunkParse data with
    | none =>
      rw [ends clear found]
      simp [sequenced]
    | some chunk =>
      dsimp only
      rcases (s.bodyAssembler.getD (.createLimited maxBodySize)).feed chunk with ⟨taken, assembler⟩
      cases taken with
      | false => simpa using (Acts.refl hc).reject.remove.clear clear
      | true =>
        let s' : Stream := { s with bodyAssembler := some assembler }
        have kept : (hc.put s').find s'.streamId = some s' := find_put found rfl
        have rest := ends ((leaves_put hc s').clear clear) kept
        simpa [sequenced, Conn.put] using rest
  · rw [if_neg sequenced, if_neg sequenced]
    cases request : s.req with
    | none => simp [Conn.fault, nothing]
    | some req =>
      dsimp only
      by_cases large : req.body.length + data.length > maxBodySize
      · rw [if_pos large]
        simpa using (Acts.refl hc).reject.remove.clear clear
      rw [if_neg large]
      let s' : Stream := { s with req := some { req with body := req.body ++ data } }
      have kept : (hc.put s').find s'.streamId = some s' := find_put found rfl
      have rest := ends ((leaves_put hc s').clear clear) kept
      simpa [s'] using rest

end

lemma dataHook_clear (known : hc.sequencedData = true ∨ s.hasContentLength = false ∨ s.req ≠ none) :
    (hc.dataHook env s data endStream).faulted = false := by
  have decided : ¬(endStream ∧ !hc.sequencedData ∧ s.contentLengthMatches = none) := by
    rintro ⟨-, unsequenced, undecided⟩
    unfold Stream.contentLengthMatches at undecided
    split at undecided <;> simp_all
  exact (dataHook_acts decided).clear clear

lemma dataDeliver_faulted (found : hc.find s.streamId = some s) : (hc.dataDeliver env s data endStream).faulted = true ↔
      s.req = none ∧ s.NeedsRequest hc.sequencedData data endStream := by
  have rest {hc : Conn} {s : Stream} (clear : hc.faulted = false) (found : hc.find s.streamId = some s)
      (known : hc.sequencedData = true ∨ s.hasContentLength = false ∨ s.req ≠ none) :
      (if s.hookCtx.isSome then hc.dataHook env s data endStream
        else hc.dataBuffered env s data endStream).faulted = true ↔
        s.req = none ∧ s.NeedsRequest hc.sequencedData data endStream := by
    unfold Stream.NeedsRequest
    have hooked : (hc.dataHook env s data endStream).faulted = false := dataHook_clear clear known
    cases hook : s.hookCtx <;> simp only [Option.isSome_none, Option.isSome_some, Bool.false_eq_true, if_false, if_true,
      dataBuffered_faulted clear found, hooked]
    all_goals
      cases sequenced : hc.sequencedData with
      | true => simp
      | false =>
        have known := known.resolve_left (by simp [sequenced])
        by_cases gone : s.req = none
        · simp [known.resolve_right fun present => present gone]
        · simp [gone]
  unfold dataDeliver dataCount
  by_cases sequenced : hc.sequencedData = true
  · rw [if_pos sequenced]
    exact rest clear found (.inl sequenced)
  rw [if_neg sequenced]
  let s' : Stream := { s with receivedContent := s.receivedContent + data.length }
  have kept : (hc.put s').find s'.streamId = some s' := find_put found rfl
  have clear' := (leaves_put hc s').clear clear
  by_cases announced : s.hasContentLength = true
  · rw [if_pos announced]
    cases request : s.req with
    | none => simp [Conn.fault, Stream.NeedsRequest, sequenced, announced]
    | some req =>
      dsimp only
      by_cases large : s.receivedContent + data.length > req.contentLength
      · rw [if_pos large]
        simpa using (Acts.refl (hc.put s')).rejectContentLength.clear clear'
      rw [if_neg large]
      have delivered := rest clear' kept (.inr (.inr (by simp [s', request])))
      rw [show s'.req = some req from request] at delivered
      exact delivered
  · rw [if_neg announced]
    exact rest clear' kept (.inr (.inl (by simpa using announced)))

lemma dataStream_faulted (found : hc.find s.streamId = some s) :
    (hc.dataStream env s len data endStream).faulted = true ↔
      s.req = none ∧ hc.Accepts s len ∧ s.NeedsRequest hc.sequencedData data endStream := by
  unfold dataStream dataReceive Conn.Accepts
  by_cases empty : len = 0
  · simpa [empty] using dataDeliver_faulted clear found
  cases hc.fc.receive len with
  | none => simpa [empty] using abort_acts.clear clear
  | some fc =>
    cases s.progress.fc.receive len with
    | none => simpa [empty] using ((Acts.refl hc).setFc.abort).clear clear
    | some sfc =>
      let s' : Stream := { s with progress := { s.progress with fc := sfc.consume len } }
      have charged : ((hc.setFc (fc.consume len)).put s').find s'.streamId = some s' := find_put found rfl
      have rest : (((hc.setFc (fc.consume len)).put s').dataDeliver env s' data endStream).faulted = true ↔
          s.req = none ∧ s.NeedsRequest hc.sequencedData data endStream :=
        dataDeliver_faulted ((leaves_put (hc.setFc (fc.consume len)) s').clear clear) charged
      simpa [empty] using rest

lemma dataCase_faulted {f : Frame} : (hc.dataCase env f).faulted = true ↔
      f.streamId ≠ 0 ∧ ∃ data ∈ f.dataOctets, ∃ s ∈ hc.find f.streamId,
        s.req.isNone ∧ hc.Accepts s f.payload.length ∧ s.NeedsRequest hc.sequencedData data f.endStream := by
  unfold dataCase
  by_cases zero : f.streamId = 0
  · simpa [zero] using (Acts.refl hc).abortAt.clear clear
  rw [if_neg zero]
  cases f.dataOctets with
  | none => simpa using abort_acts.clear clear
  | some data =>
    dsimp only
    have noted := leaves_endStream hc f.streamId f.endStream
    have sameFind : (if f.endStream then hc.log (.endStream f.streamId) else hc).find f.streamId = hc.find f.streamId := by
      split <;> rfl
    have sameFc (s : Stream) :
        (if f.endStream then hc.log (.endStream f.streamId) else hc).Accepts s f.payload.length ↔
          hc.Accepts s f.payload.length := by
      split <;> rfl
    have sameMode :
        (if f.endStream then hc.log (.endStream f.streamId) else hc).sequencedData = hc.sequencedData := by
      split <;> rfl
    generalize (if f.endStream then hc.log (.endStream f.streamId) else hc) = base at noted sameFind sameFc sameMode ⊢
    rw [sameFind]
    cases found : hc.find f.streamId with
    | none => simpa using dataUnknown_acts.clear (noted.clear clear)
    | some s =>
      obtain ⟨-, same⟩ := mem_of_find found
      have there : base.find s.streamId = some s := by rw [same, sameFind, found]
      have faulted : (base.dataStream env s f.payload.length data f.endStream).faulted = true ↔ _ :=
        dataStream_faulted (noted.clear clear) there
      rw [sameFc, sameMode] at faulted
      simpa [zero] using faulted

end

lemma frameCase_data {f : Frame} (type : f.type = Frame.data) :
    hc.frameCase env f =
      if f.payload.length > Frame.maxSize then hc.abort env .frameSizeError
      else if hc.cont.expecting then hc.abort env .protocolError
      else hc.dataCase env f := by
  unfold frameCase
  rw [type]
  have other : Frame.data ≠ Frame.continuation := by decide
  simp only [ne_eq, other, not_false_eq_true, true_or, and_true]
  rfl

lemma frameCase_faulted {f : Frame} (clear : hc.faulted = false) (unique : hc.Unique) :
    (hc.frameCase env f).faulted = true ↔ hc.LacksRequest f := by
  unfold Conn.LacksRequest
  by_cases type : f.type = Frame.data
  · rw [frameCase_data type]
    by_cases long : f.payload.length > Frame.maxSize
    · rw [if_pos long]
      have short : ¬f.payload.length ≤ Frame.maxSize := by omega
      simpa [short] using abort_acts.clear clear
    rw [if_neg long]
    by_cases open_ : hc.cont.expecting = true
    · simpa [open_] using abort_acts.clear clear
    · rw [if_neg open_, dataCase_faulted clear]
      have short : f.payload.length ≤ Frame.maxSize := by omega
      simp [type, short, open_]
  · have proceeds : Proceeds hc (hc.frameCase env f) ∨ _ := frameCase_proceeds unique
    have kept := (proceeds.resolve_right fun data => type data.1).faulted.trans clear
    simp [type, kept]

end Data

def Conn.HasRequest (env : Env) (hc : Conn) : Input → Prop
  | .frame f =>
    hc.connected = true → (hc.housekeeping env (.frame f)).connected = true →
      ¬(hc.housekeeping env (.frame f)).LacksRequest f
  | _ => True

section Runs

variable {env : Env} {hc : Conn} {input : Input}

lemma turn_faulted (clear : hc.faulted = false) (unique : hc.Unique) :
    (hc.turn env input).faulted = true ↔ ¬hc.HasRequest env input := by
  rcases turn_cases env hc input with ⟨acts, idle⟩ | ⟨f, rfl, connected, acts, stillOpen, result⟩
  · rw [acts.clear clear]
    simp only [Bool.false_eq_true, false_iff, not_not]
    cases input with
    | frame f => exact fun connected stillOpen => absurd ⟨connected, stillOpen⟩ (idle f rfl)
    | _ => trivial
  · rw [result, frameCase_faulted (acts.clear clear) (acts.leaves.unique unique)]
    simp [Conn.HasRequest, connected, stillOpen]

lemma turn_faulted_stays (unique : hc.Unique) (faulted : hc.faulted = true) : (hc.turn env input).faulted = true := by
  rcases turn_proceeds env input unique with proceeds | ⟨hc₁, -, fault⟩
  · exact proceeds.faulted.trans faulted
  · rw [fault]
    rfl

lemma run_faulted_stays (inputs : List Input) (unique : hc.Unique) (faulted : hc.faulted = true) :
    (hc.run env inputs).faulted = true := by
  induction inputs generalizing hc with
  | nil => exact faulted
  | cons input rest ih => exact ih (turn_unique env input unique) (turn_faulted_stays unique faulted)

lemma run_clear_iff (inputs : List Input) (unique : hc.Unique) (clear : hc.faulted = false) :
    (hc.run env inputs).faulted = false ↔ Machine.Meets (Conn.turn env) (Conn.HasRequest env) hc inputs := by
  induction inputs generalizing hc with
  | nil => exact iff_of_true clear trivial
  | cons input rest ih =>
    have unique' := turn_unique env input unique
    have step : (hc.turn env input).faulted = true ↔ ¬hc.HasRequest env input := turn_faulted clear unique
    by_cases present : hc.HasRequest env input
    · have clear' : (hc.turn env input).faulted = false := by
        simpa [present] using step
      exact (ih unique' clear').trans (and_iff_right present).symm
    · have faulted : ((hc.turn env input).run env rest).faulted = true :=
        run_faulted_stays rest unique' (step.mpr present)
      refine iff_of_false ?_ fun meets => present meets.1
      show ¬((hc.turn env input).run env rest).faulted = false
      simp [faulted]

end Runs

lemma start_clear (env : Env) (sequenced : Bool) : (Conn.start env sequenced).faulted = false :=
  (start_acts env sequenced).clear rfl

/-- A run reads no missing request exactly when none of its steps is a DATA frame that needs one. -/
theorem run_requests_present (env : Env) (sequenced : Bool) (inputs : List Input) :
    ((Conn.start env sequenced).run env inputs).faulted = false ↔
      Machine.Meets (Conn.turn env) (Conn.HasRequest env) (.start env sequenced) inputs :=
  run_clear_iff inputs (start_unique env sequenced) (start_clear env sequenced)

/-- A request that is deferred, and DATA on its stream. -/
theorem run_deferred_faults : ((Conn.start (.simple .deferred) false).run (.simple .deferred)
      [.frame ⟨Frame.headers, 0x05, 1, [0x82, 0x86, 0x84]⟩, .frame ⟨Frame.data, 0x01, 1, [0x61]⟩]).faulted = true := by
  decide

end Cwist.H2
