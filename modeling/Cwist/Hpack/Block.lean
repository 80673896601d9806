import Cwist.Hpack.Integer
import Cwist.Hpack.Huffman
import Cwist.Hpack.Table
import Cwist.Http.Request

/-!
# Header blocks

`h2_decode_header_block` of `http2.c` and what it does with each field. A field that breaks the rules of a request is a
stream error: decoding goes on for the sake of the table.
-/

namespace Cwist.H2

open Http (Request Method)

def maxHeadersPerRequest : Nat := 256

/-- The part of a stream that a header block is applied to. -/
structure RequestHead where
  req : Option Request
  hasContentLength : Bool
  deriving DecidableEq

structure HeaderState where
  seenMethod : Bool
  seenPath : Bool
  seenScheme : Bool
  seenAuthority : Bool
  seenRegular : Bool
  seenHost : Bool
  isConnect : Bool
  isRequest : Bool
  headerCount : Nat
  deriving DecidableEq

def HeaderState.start (isRequest : Bool) : HeaderState :=
  ⟨false, false, false, false, !isRequest, false, false, isRequest, 0⟩

def fieldNameIsValid (name : Bytes) : Bool :=
  let octet (c : UInt8) : Bool := !(c ≤ 0x20 || c ≥ 0x7f || (0x41 ≤ c && c ≤ 0x5a))
  match name with
  | [] => false
  | c :: rest => octet c && rest.all (fun c => octet c && c != 0x3a) && (c != 0x3a || rest != [])

def fieldValueIsValid (value : Bytes) : Bool :=
  let blank (c : Option UInt8) : Bool := c == some 0x20 || c == some 0x09
  !(blank value.head? || blank value.getLast?) && value.all fun c => !(c == 0x00 || c == 0x0d || c == 0x0a)

def parseContentLength (value : Bytes) : Option Nat :=
  if value = [] then none
  else
    value.foldlM (fun parsed c =>
      if c < 0x30 || c > 0x39 || parsed > (2 ^ 64 - 1 - 9) / 10 then none
      else some (parsed * 10 + (c.toNat - 0x30))) 0

def parsePath (req : Request) (path : Bytes) : Request :=
  match path.dropWhile (· != 0x3f) with
  | [] => { req with path := path }
  | _ :: query => { req with path := path.takeWhile (· != 0x3f), query := query }

def applyPseudo (s : RequestHead) (req : Request) (name value : Bytes) (st : HeaderState) :
    Bool × RequestHead × HeaderState :=
  if st.seenRegular then (false, s, st)
  else if name = ascii ":method" then
    if st.seenMethod then (false, s, st)
    else
      (true, { s with req := some { req with method := Http.stringToMethod value } },
        { st with seenMethod := true, isConnect := value = ascii "CONNECT" })
  else if name = ascii ":path" then
    if st.seenPath then (false, s, st)
    else (true, { s with req := some (parsePath req value) }, { st with seenPath := true })
  else if name = ascii ":scheme" then
    if st.seenScheme then (false, s, st) else (true, s, { st with seenScheme := true })
  else if name = ascii ":authority" then
    if st.seenAuthority then (false, s, st)
    else (true, { s with req := some (req.headerAdd (ascii "host") value) }, { st with seenAuthority := true })
  else (false, s, st)

def connectionSpecific : List Bytes :=
  ["connection", "keep-alive", "proxy-connection", "transfer-encoding", "upgrade"].map ascii

def applyRegular (s : RequestHead) (req : Request) (name value : Bytes) (st : HeaderState) :
    Bool × RequestHead × HeaderState :=
  let st := { st with seenRegular := true }
  if name ∈ connectionSpecific then (false, s, st)
  else if name = ascii "te" ∧ value ≠ ascii "trailers" then (false, s, st)
  else if name = ascii "host" ∧ st.seenHost then (false, s, st)
  else
    let st := if name = ascii "host" then { st with seenHost := true } else st
    if st.isRequest ∧ name = ascii "content-length" then
      match parseContentLength value with
      | none => (false, s, st)
      | some contentLength =>
        if s.hasContentLength ∧ req.contentLength ≠ contentLength then (false, s, st)
        else
          let req := { req with contentLength }
          (true, { req := some (req.headerAdd name value), hasContentLength := true }, st)
    else (true, { s with req := some (req.headerAdd name value) }, st)

def applyHeader (s : RequestHead) (name value : Bytes) (st : HeaderState) : Bool × RequestHead × HeaderState :=
  match s.req with
  | none => (false, s, st)
  | some req =>
    if !fieldNameIsValid name || !fieldValueIsValid value then (false, s, st)
    else
      let st := { st with headerCount := st.headerCount + 1 }
      if st.headerCount > maxHeadersPerRequest then (false, s, st)
      else if name.head? = some 0x3a then applyPseudo s req name value st
      else applyRegular s req name value st

def decodeStringCounted (buf : Bytes) (pos : Nat) : Option (Bytes × Nat) := do
  let b ← buf[pos]?
  let (strLen, pos) ← decodeInteger buf pos 7
  if pos + strLen > buf.length then none
  else if b.toNat &&& 0x80 ≠ 0 then
    let out ← huffmanDecode ((buf.drop pos).take strLen)
    some (out, pos + strLen)
  else some ((buf.drop pos).take strLen, pos + strLen)

/-- A decoder in a block. `handed` lists the fields that it passed on, also those that were refused. -/
structure BlockState where
  pos : Nat
  table : HpackTable
  target : RequestHead
  st : HeaderState
  streamError : Bool
  handed : List (Bytes × Bytes)

namespace BlockState

def start (table : HpackTable) (target : RequestHead) (isRequest : Bool) : BlockState :=
  ⟨0, table, target, .start isRequest, false, []⟩

def hand (bs : BlockState) (name value : Bytes) : BlockState :=
  let (ok, target, st) := applyHeader bs.target name value bs.st
  { bs with target, st, streamError := bs.streamError || !ok, handed := bs.handed ++ [(name, value)] }

@[simp] lemma hand_pos (bs : BlockState) (name value : Bytes) : (bs.hand name value).pos = bs.pos := rfl

@[simp] lemma hand_table (bs : BlockState) (name value : Bytes) : (bs.hand name value).table = bs.table := rfl

@[simp] lemma hand_handed (bs : BlockState) (name value : Bytes) :
    (bs.hand name value).handed = bs.handed ++ [(name, value)] := rfl

end BlockState

def indexedStep (payload : Bytes) (bs : BlockState) : Except BlockState BlockState :=
  match decodeInteger payload bs.pos 7 with
  | none => .error bs
  | some (index, pos) =>
    match bs.table.resolve index with
    | none => .error { bs with pos }
    | some (name, value) => .ok ({ bs with pos }.hand name.bytes value.bytes)

def sizeUpdateStep (payload : Bytes) (bs : BlockState) : Except BlockState BlockState :=
  match decodeInteger payload bs.pos 5 with
  | none => .error bs
  | some (newSize, pos) =>
    match bs.table.setCapacity newSize with
    | none => .error { bs with pos }
    | some table => .ok { bs with pos, table }

def literalName (payload : Bytes) (table : HpackTable) (nameIndex pos : Nat) : Option (Bytes × Nat) :=
  if nameIndex > 0 then (table.resolve nameIndex).map fun (name, _) => (name.bytes, pos)
  else decodeStringCounted payload pos

def literalStep (payload : Bytes) (prefixBits : Nat) (incremental : Bool) (bs : BlockState) :
    Except BlockState BlockState :=
  match decodeInteger payload bs.pos prefixBits with
  | none => .error bs
  | some (nameIndex, pos) =>
    match literalName payload bs.table nameIndex pos with
    | none => .error { bs with pos }
    | some (name, pos) =>
      match decodeStringCounted payload pos with
      | none => .error { bs with pos }
      | some (value, pos) =>
        let bs := { bs with pos }.hand name value
        if incremental then
          if (CStr.ofBytes name).length ≠ name.length ∨ (CStr.ofBytes value).length ≠ value.length then .error bs
          else .ok { bs with table := bs.table.insert (.ofBytes name) (.ofBytes value) }
        else .ok bs

def blockStep (payload : Bytes) (b : UInt8) (bs : BlockState) : Except BlockState BlockState :=
  if b.toNat &&& 0x80 ≠ 0 then indexedStep payload bs
  else if b.toNat &&& 0xe0 = 0x20 then sizeUpdateStep payload bs
  else if b.toNat &&& 0x40 = 0x40 then literalStep payload 6 true bs
  else if b.toNat &&& 0xf0 = 0x00 then literalStep payload 4 false bs
  else if b.toNat &&& 0xf0 = 0x10 then literalStep payload 4 false bs
  else .error bs

/-- A step that fails leaves the table as it stands there. -/
def blockLoop (payload : Bytes) : Nat → BlockState → Except BlockState BlockState
  | 0, bs => .ok bs
  | turns + 1, bs =>
    match payload[bs.pos]? with
    | none => .ok bs
    | some b => (blockStep payload b bs).bind (blockLoop payload turns)

inductive DecodeRc where
  | ok | streamError | compressionError | nullRequest
  deriving DecidableEq, Repr

def HeaderState.controlValid (st : HeaderState) : Bool :=
  if st.isConnect then st.seenMethod && st.seenAuthority && !st.seenScheme && !st.seenPath
  else st.seenMethod && st.seenScheme && st.seenPath

def blockResult (isRequest : Bool) (bs : BlockState) : DecodeRc :=
  if bs.streamError then .streamError
  else if isRequest then
    if !bs.st.controlValid then .streamError
    else if bs.st.seenPath then
      match bs.target.req with
      | none => .nullRequest
      | some req => if req.path.length = 0 ∧ req.method ≠ .options then .streamError else .ok
    else .ok
  else .ok

def decodeHeaderBlock (table : HpackTable) (target : RequestHead) (payload : Bytes) (isRequest : Bool) :
    DecodeRc × BlockState :=
  match blockLoop payload payload.length (.start table target isRequest) with
  | .error bs => (.compressionError, bs)
  | .ok bs => (blockResult isRequest bs, bs)

def lastState {α : Type} : Except α α → α
  | .ok a | .error a => a

section Keeps

variable {Q : BlockState → Prop} {payload : Bytes} {bs : BlockState}

section
variable (frame : ∀ bs pos table, Q bs → Q { bs with pos, table })
include frame

lemma indexedStep_keeps
    (hand : ∀ bs name value, Q bs → Q (bs.hand name value)) (before : Q bs) : Q (lastState (indexedStep payload bs)) := by
  unfold indexedStep
  split
  · exact before
  · split
    · exact frame _ _ _ before
    · exact hand _ _ _ (frame _ _ _ before)

lemma sizeUpdateStep_keeps (before : Q bs) : Q (lastState (sizeUpdateStep payload bs)) := by
  unfold sizeUpdateStep
  split
  · exact before
  · split
    · exact frame _ _ _ before
    · exact frame _ _ _ before

section
variable (hand : ∀ bs name value, Q bs → Q (bs.hand name value)) (before : Q bs)
include hand before

lemma literalStep_keeps {prefixBits : Nat} {incremental : Bool} :
    Q (lastState (literalStep payload prefixBits incremental bs)) := by
  unfold literalStep
  split
  · exact before
  split
  · exact frame _ _ _ before
  split
  · exact frame _ _ _ before
  split
  · split
    · exact hand _ _ _ (frame _ _ _ before)
    · exact frame _ _ _ (hand _ _ _ (frame _ _ _ before))
  · exact hand _ _ _ (frame _ _ _ before)

lemma blockStep_keeps {b : UInt8} : Q (lastState (blockStep payload b bs)) := by
  unfold blockStep
  split
  · exact indexedStep_keeps frame hand before
  split
  · exact sizeUpdateStep_keeps frame before
  split
  · exact literalStep_keeps frame hand before
  split
  · exact literalStep_keeps frame hand before
  split
  · exact literalStep_keeps frame hand before
  · exact before

lemma blockLoop_keeps {turns : Nat} : Q (lastState (blockLoop payload turns bs)) := by
  induction turns generalizing bs with
  | zero => exact before
  | succ turns ih =>
    rw [blockLoop]
    split
    · exact before
    rename_i b _
    have step : Q (lastState (blockStep payload b bs)) := blockStep_keeps frame hand before
    cases result : blockStep payload b bs with rw [result] at step
    | error bs' => exact step
    | ok bs' => exact ih step

end

end

end Keeps

variable {s : RequestHead} {name value : Bytes} {st : HeaderState}

lemma applyHeader_none (gone : s.req = none) : (applyHeader s name value st).2 = (s, st) := by
  unfold applyHeader
  rw [gone]

lemma applyPseudo_isSome {req : Request}
    (request : s.req = some req) : (applyPseudo s req name value st).2.1.req.isSome := by
  have there : s.req.isSome := by rw [request]; rfl
  unfold applyPseudo
  repeat' split
  all_goals first | exact there | rfl

lemma applyRegular_isSome {req : Request}
    (request : s.req = some req) : (applyRegular s req name value st).2.1.req.isSome := by
  have there : s.req.isSome := by rw [request]; rfl
  unfold applyRegular
  dsimp only
  repeat' split
  all_goals first | exact there | rfl

lemma applyHeader_isSome (s : RequestHead) (name value : Bytes) (st : HeaderState) :
    (applyHeader s name value st).2.1.req.isSome = s.req.isSome := by
  cases request : s.req with
  | none => rw [applyHeader_none request, request]
  | some req =>
    have there : s.req.isSome := by rw [request]; rfl
    unfold applyHeader
    rw [request]
    dsimp only
    split
    · exact there
    split
    · exact there
    split
    · exact applyPseudo_isSome request
    · exact applyRegular_isSome request

lemma blockLoop_request (payload : Bytes) (turns : Nat) (bs : BlockState) :
    (lastState (blockLoop payload turns bs)).target.req.isSome = bs.target.req.isSome ∧
      (bs.target.req = none → (lastState (blockLoop payload turns bs)).st = bs.st) := by
  refine blockLoop_keeps
    (Q := fun bs' => bs'.target.req.isSome = bs.target.req.isSome ∧ (bs.target.req = none → bs'.st = bs.st))
    (fun _ _ _ before => before) ?_ ⟨rfl, fun _ => rfl⟩
  rintro bs' name value ⟨same, noted⟩
  refine ⟨(applyHeader_isSome bs'.target name value bs'.st).trans same, fun gone => ?_⟩
  have empty : bs'.target.req = none := by simpa [gone] using same
  have kept : (bs'.hand name value).st = bs'.st := congrArg Prod.snd (applyHeader_none empty)
  exact kept.trans (noted gone)

lemma decodeHeaderBlock_request (table : HpackTable) (target : RequestHead) (payload : Bytes) (isRequest : Bool) :
    (decodeHeaderBlock table target payload isRequest).2.target.req.isSome = target.req.isSome := by
  have kept := blockLoop_request payload payload.length (.start table target isRequest)
  unfold decodeHeaderBlock
  split <;> rename_i result <;> rw [result] at kept <;> exact kept.1

lemma decodeHeaderBlock_ne_nullRequest (table : HpackTable) (target : RequestHead) (payload : Bytes) (isRequest : Bool) :
    (decodeHeaderBlock table target payload isRequest).1 ≠ .nullRequest := by
  have kept := blockLoop_request payload payload.length (.start table target isRequest)
  unfold decodeHeaderBlock
  split <;> rename_i bs result <;> rw [result] at kept
  · simp
  obtain ⟨same, noted⟩ := kept
  unfold blockResult
  split
  · simp
  split
  · split
    · simp
    split
    next path =>
      split
      next gone =>
        have empty : target.req = none := by simpa [lastState, gone, BlockState.start] using same.symm
        have started : bs.st = .start isRequest := noted empty
        rw [started] at path
        cases path
      · split <;> simp
    · simp
  · simp

end Cwist.H2
