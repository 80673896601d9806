import Cwist.Hpack.Block
import Cwist.Http.Framing
import Cwist.Http.Method

namespace Cwist.Rfc9113
open Cwist.Http (Request caseEq)

abbrev Field := Bytes × Bytes

def pseudoNames : List Bytes := [":method", ":scheme", ":authority", ":path"].map ascii

def isTchar (c : UInt8) : Bool :=
  c ∈ ascii "!#$%&'*+-.^_`|~" || 0x30 ≤ c && c ≤ 0x39 || 0x41 ≤ c && c ≤ 0x5a || 0x61 ≤ c && c ≤ 0x7a

def isUpper (c : UInt8) : Bool := 0x41 ≤ c && c ≤ 0x5a

/-- Pseudo-header fields come first, each once at most, and only those of a request. -/
def PseudoFirst (fields : List Field) : Prop :=
  ∃ pseudo regular, fields = pseudo ++ regular ∧ (∀ f ∈ pseudo, f.1 ∈ pseudoNames) ∧ (pseudo.map Prod.fst).Nodup ∧
    ∀ f ∈ regular, f.1.head? ≠ some 0x3a

def Sent (fields : List Field) (name : String) : Prop := ascii name ∈ fields.map Prod.fst

def Control (fields : List Field) : Prop :=
  if (ascii ":method", ascii "CONNECT") ∈ fields then
    Sent fields ":authority" ∧ ¬Sent fields ":scheme" ∧ ¬Sent fields ":path"
  else Sent fields ":method" ∧ Sent fields ":scheme" ∧ Sent fields ":path" ∧ (ascii ":path", []) ∉ fields

/-- A name is a token without upper-case letters, and pseudo-header fields have a colon in front. -/
def LowerToken (name : Bytes) : Prop :=
  name ∈ pseudoNames ∨ name ≠ [] ∧ ∀ c ∈ name, isTchar c = true ∧ isUpper c = false

def connectionSpecific : List Bytes :=
  ["connection", "keep-alive", "proxy-connection", "transfer-encoding", "upgrade"].map ascii

def seen (req : Request) (name : String) : Option Bytes :=
  (req.headers.find? fun header => caseEq header.1 (ascii name)).map Prod.snd

/-- The request has one authority, and it is the one in `:authority` when a `host` is sent also. -/
def OneAuthority (fields : List Field) (req : Request) : Prop :=
  (∃! authority, ∃ header ∈ req.headers, caseEq header.1 (ascii "host") = true ∧ header.2 = authority) ∧
    ∀ authority host, (ascii ":authority", authority) ∈ fields → (ascii "host", host) ∈ fields →
      seen req "host" = some authority

structure RequestRules (most : Nat) (fields : List Field) (req : Request) : Prop where
  pseudoFirst : PseudoFirst fields
  control : Control fields
  names : ∀ f ∈ fields, LowerToken f.1
  values : ∀ f ∈ fields, (0x00 : UInt8) ∉ f.2 ∧ (0x0d : UInt8) ∉ f.2 ∧ (0x0a : UInt8) ∉ f.2
  connection : ∀ f ∈ fields, f.1 ∉ connectionSpecific
  te : ∀ f ∈ fields, f.1 = ascii "te" → f.2 = ascii "trailers"
  length : ∃ n, ∀ f ∈ fields, f.1 = ascii "content-length" → Rfc9112.lengthValue f.2 = some n
  few : fields.length ≤ most
  authority : OneAuthority fields req

end Cwist.Rfc9113

namespace Cwist.H2
open Http (Request Method caseEq)
open Rfc9113 List BlockState

/-! ### A field that is taken -/

inductive Taken (s : RequestHead) (req : Request) (st : HeaderState) : Bytes → Bytes → RequestHead → HeaderState → Prop where
  | method {value : Bytes} (early : st.seenRegular = false) (once : st.seenMethod = false) :
    Taken s req st (ascii ":method") value { s with req := some { req with method := Http.stringToMethod value } }
      { st with seenMethod := true, isConnect := value = ascii "CONNECT" }
  | path {value : Bytes} (early : st.seenRegular = false) (once : st.seenPath = false) :
    Taken s req st (ascii ":path") value { s with req := some (parsePath req value) } { st with seenPath := true }
  | scheme {value : Bytes} (early : st.seenRegular = false) (once : st.seenScheme = false) :
    Taken s req st (ascii ":scheme") value s { st with seenScheme := true }
  | authority {value : Bytes} (early : st.seenRegular = false) (once : st.seenAuthority = false) :
    Taken s req st (ascii ":authority") value { s with req := some (req.headerAdd (ascii "host") value) }
      { st with seenAuthority := true }
  | length {value : Bytes} {contentLength : Nat} (parsed : parseContentLength value = some contentLength)
    (same : s.hasContentLength = true → req.contentLength = contentLength) :
    Taken s req st (ascii "content-length") value
      ⟨some ({ req with contentLength }.headerAdd (ascii "content-length") value), true⟩ { st with seenRegular := true }
  | regular {name value : Bytes} (plain : name.head? ≠ some 0x3a) (between : name ∉ connectionSpecific)
    (te : name = ascii "te" → value = ascii "trailers") (other : name ≠ ascii "content-length") :
    Taken s req st name value { s with req := some (req.headerAdd name value) }
      { st with seenRegular := true, seenHost := st.seenHost || name = ascii "host" }

variable {s s' : RequestHead} {req : Request} {name value : Bytes} {st st' : HeaderState}

lemma applyPseudo_true
    (taken : applyPseudo s req name value st = (true, s', st')) : Taken s req st name value s' st' := by
  unfold applyPseudo at taken
  split at taken
  · cases taken
  rename_i early
  rw [Bool.not_eq_true] at early
  iterate 4
    split at taken
    next same =>
      subst same
      split at taken
      · cases taken
      next once =>
        cases taken
        constructor
        · exact early
        · simpa using once
  cases taken

lemma applyRegular_true (plain : name.head? ≠ some 0x3a) (isRequest : st.isRequest = true)
    (taken : applyRegular s req name value st = (true, s', st')) : Taken s req st name value s' st' := by
  unfold applyRegular at taken
  dsimp only at taken
  split at taken
  · cases taken
  rename_i between
  split at taken
  · cases taken
  rename_i te
  rw [not_and, not_not] at te
  split at taken
  · cases taken
  by_cases host : name = ascii "host"
  · have other : name ≠ ascii "content-length" := by rw [host]; decide
    have flags : Taken s req st name value _ _ := .regular plain between te other
    simp only [host, if_true] at taken
    rw [if_neg fun both => absurd both.2 (by decide)] at taken
    simp only [host, decide_true, Bool.or_true] at flags
    cases taken
    rw [host]
    exact flags
  rw [if_neg host] at taken
  by_cases length : name = ascii "content-length"
  · subst length
    rw [if_pos ⟨isRequest, rfl⟩] at taken
    split at taken
    · cases taken
    rename_i contentLength parsed
    split at taken
    · cases taken
    rename_i same
    rw [not_and, not_not] at same
    cases taken
    exact .length parsed same
  · rw [if_neg fun both => length both.2] at taken
    have flags : Taken s req st name value _ _ := .regular plain between te length
    simp only [host, decide_false, Bool.or_false] at flags
    cases taken
    exact flags

lemma applyHeader_true (request : s.req = some req) (isRequest : st.isRequest = true)
    (taken : applyHeader s name value st = (true, s', st')) :
    fieldNameIsValid name = true ∧ fieldValueIsValid value = true ∧ st.headerCount + 1 ≤ maxHeadersPerRequest ∧
      Taken s req { st with headerCount := st.headerCount + 1 } name value s' st' := by
  unfold applyHeader at taken
  rw [request] at taken
  dsimp only at taken
  split at taken
  · cases taken
  rename_i valid
  simp only [Bool.or_eq_true, Bool.not_eq_true', not_or, Bool.not_eq_false] at valid
  split at taken
  · cases taken
  rename_i few
  refine ⟨valid.1, valid.2, not_lt.mp few, ?_⟩
  split at taken
  · exact applyPseudo_true taken
  next plain => exact applyRegular_true plain isRequest taken

/-! ### The flags -/

lemma sent_snoc {fields : List Field} {f : Field} {name : String} :
    Sent (fields ++ [f]) name ↔ Sent fields name ∨ f.1 = ascii name := by
  rw [Sent, Sent, map_append, mem_append, map_singleton, mem_singleton, eq_comm (a := ascii name)]

/-- The flags of `h2_header_state` tell which fields there have been. -/
structure Flags (fields : List Field) (st : HeaderState) : Prop where
  order : ∃ pseudo regular, fields = pseudo ++ regular ∧ (∀ f ∈ pseudo, f.1 ∈ pseudoNames) ∧ (pseudo.map Prod.fst).Nodup ∧
    (∀ f ∈ regular, f.1.head? ≠ some 0x3a) ∧ (st.seenRegular = false → regular = [])
  method : st.seenMethod = true ↔ Sent fields ":method"
  path : st.seenPath = true ↔ Sent fields ":path"
  scheme : st.seenScheme = true ↔ Sent fields ":scheme"
  authority : st.seenAuthority = true ↔ Sent fields ":authority"
  connect : st.isConnect = true ↔ (ascii ":method", ascii "CONNECT") ∈ fields

variable {fields : List Field}

section Flags

section
variable (flags : Flags fields st)
include flags

lemma Flags.pseudo (early : st.seenRegular = false) (value : Bytes)
    (known : name ∈ pseudoNames) (fresh : name ∉ fields.map Prod.fst) {seenRegular : Bool} :
    ∃ pseudo regular, fields ++ [(name, value)] = pseudo ++ regular ∧ (∀ f ∈ pseudo, f.1 ∈ pseudoNames) ∧
      (pseudo.map Prod.fst).Nodup ∧ (∀ f ∈ regular, f.1.head? ≠ some 0x3a) ∧ (seenRegular = false → regular = []) := by
  obtain ⟨pseudo, regular, rfl, names, unique, -, none_⟩ := flags.order
  obtain rfl := none_ early
  rw [append_nil] at fresh
  refine ⟨pseudo ++ [(name, value)], [], by simp, ?_, ?_, by simp, fun _ => rfl⟩
  · intro f member
    rcases mem_append.mp member with before | last
    · exact names f before
    · rw [mem_singleton.mp last]
      exact known
  · rw [map_append, nodup_append]
    refine ⟨unique, by simp, ?_⟩
    rintro a inside b last rfl
    rw [map_singleton, mem_singleton] at last
    rw [last] at inside
    exact fresh inside

lemma Flags.regular (plain : name.head? ≠ some 0x3a) (value : Bytes) (seenHost : Bool) :
    Flags (fields ++ [(name, value)]) { st with seenRegular := true, seenHost } := by
  have other (known : String) (pseudo : (ascii known).head? = some 0x3a) : name ≠ ascii known := by
    rintro rfl
    exact plain pseudo
  obtain ⟨pseudo, regular, split, names, unique, plains, -⟩ := flags.order
  refine ⟨⟨pseudo, regular ++ [(name, value)], by rw [split, append_assoc], names, unique, ?_, nofun⟩, ?_, ?_, ?_, ?_, ?_⟩
  · intro f member
    rcases mem_append.mp member with before | last
    · exact plains f before
    · rw [mem_singleton.mp last]
      exact plain
  · simp [sent_snoc, flags.method, other ":method" rfl]
  · simp [sent_snoc, flags.path, other ":path" rfl]
  · simp [sent_snoc, flags.scheme, other ":scheme" rfl]
  · simp [sent_snoc, flags.authority, other ":authority" rfl]
  · simp [flags.connect, Ne.symm (other ":method" rfl)]

lemma Flags.counted (headerCount : Nat) : Flags fields { st with headerCount } :=
  ⟨flags.order, flags.method, flags.path, flags.scheme, flags.authority, flags.connect⟩

lemma Flags.taken (taken : Taken s req st name value s' st') : Flags (fields ++ [(name, value)]) st' := by
  cases taken with
  | method early once =>
    have fresh : ¬Sent fields ":method" := by rw [← flags.method, once]; simp
    have none_ : st.isConnect = true → False := fun there =>
      fresh (mem_map.mpr ⟨_, flags.connect.mp there, rfl⟩)
    refine ⟨flags.pseudo early _ (by decide) fresh, ?_, ?_, ?_, ?_, ?_⟩
    · simp [sent_snoc]
    · simp +decide [sent_snoc, flags.path]
    · simp +decide [sent_snoc, flags.scheme]
    · simp +decide [sent_snoc, flags.authority]
    · rw [mem_append, ← flags.connect]
      simp [eq_false none_, eq_comm]
  | path early once =>
    have fresh : ¬Sent fields ":path" := by rw [← flags.path, once]; simp
    refine ⟨flags.pseudo early _ (by decide) fresh, ?_, ?_, ?_, ?_, ?_⟩
    · simp +decide [sent_snoc, flags.method]
    · simp [sent_snoc]
    · simp +decide [sent_snoc, flags.scheme]
    · simp +decide [sent_snoc, flags.authority]
    · simp +decide [flags.connect]
  | scheme early once =>
    have fresh : ¬Sent fields ":scheme" := by rw [← flags.scheme, once]; simp
    refine ⟨flags.pseudo early _ (by decide) fresh, ?_, ?_, ?_, ?_, ?_⟩
    · simp +decide [sent_snoc, flags.method]
    · simp +decide [sent_snoc, flags.path]
    · simp [sent_snoc]
    · simp +decide [sent_snoc, flags.authority]
    · simp +decide [flags.connect]
  | authority early once =>
    have fresh : ¬Sent fields ":authority" := by rw [← flags.authority, once]; simp
    refine ⟨flags.pseudo early _ (by decide) fresh, ?_, ?_, ?_, ?_, ?_⟩
    · simp +decide [sent_snoc, flags.method]
    · simp +decide [sent_snoc, flags.path]
    · simp +decide [sent_snoc, flags.scheme]
    · simp [sent_snoc]
    · simp +decide [flags.connect]
  | length => exact flags.regular (by decide) _ _
  | regular plain => exact flags.regular plain _ _

end

end Flags

/-! ### The request -/

def exposed (f : Field) : Option Field :=
  if f.1 = ascii ":authority" then some (ascii "host", f.2) else if f.1.head? = some 0x3a then none else some f

structure Filled (fields : List Field) (s : RequestHead) (req : Request) : Prop where
  request : s.req = some req
  lengths : ∀ f ∈ fields, f.1 = ascii "content-length" →
    s.hasContentLength = true ∧ parseContentLength f.2 = some req.contentLength
  headers : req.headers = (fields.filterMap exposed).reverse
  method : ∀ value, (ascii ":method", value) ∈ fields → req.method = Http.stringToMethod value
  path : ∀ value, (ascii ":path", value) ∈ fields → req.path = value.takeWhile (· != 0x3f)

lemma parsePath_path (req : Request) (path : Bytes) : (parsePath req path).path = path.takeWhile (· != 0x3f) := by
  unfold parsePath
  split
  next none_ => exact (takeWhile_eq_self_iff.mpr (dropWhile_eq_nil_iff.mp none_)).symm
  · rfl

lemma parsePath_others (req : Request) (path : Bytes) :
    (parsePath req path).headers = req.headers ∧ (parsePath req path).method = req.method ∧
      (parsePath req path).contentLength = req.contentLength := by
  unfold parsePath
  split <;> exact ⟨rfl, rfl, rfl⟩

lemma filterMap_exposed_snoc (fields : List Field) (f : Field) :
    ((fields ++ [f]).filterMap exposed).reverse = (exposed f).toList ++ (fields.filterMap exposed).reverse := by
  cases taken : exposed f <;> simp [taken]

section Filled

lemma Filled.lengths_snoc (filled : Filled fields s req) (other : name ≠ ascii "content-length") (value : Bytes) :
    ∀ f ∈ fields ++ [(name, value)], f.1 = ascii "content-length" →
      s.hasContentLength = true ∧ parseContentLength f.2 = some req.contentLength := by
  intro f member length
  rcases mem_append.mp member with before | last
  · exact filled.lengths f before length
  · rw [mem_singleton.mp last] at length
    exact absurd length other

lemma Filled.other (filled : Filled fields s req) (notMethod : name ≠ ascii ":method") (notPath : name ≠ ascii ":path")
    (notLength : name ≠ ascii "content-length") (value : Bytes) {headers : List Field}
    (added : headers = (exposed (name, value)).toList ++ req.headers) :
    Filled (fields ++ [(name, value)]) { s with req := some { req with headers } } { req with headers } := by
  refine ⟨rfl, ?_, ?_, ?_, ?_⟩
  · exact filled.lengths_snoc notLength value
  · rw [filterMap_exposed_snoc, ← filled.headers]
    exact added
  · intro value' member
    exact filled.method value' (by simpa [Ne.symm notMethod] using member)
  · intro value' member
    exact filled.path value' (by simpa [Ne.symm notPath] using member)

lemma Filled.taken (filled : Filled fields s req) (flags : Flags fields st) (taken : Taken s req st name value s' st') :
    ∃ req', Filled (fields ++ [(name, value)]) s' req' := by
  cases taken with
  | method early once =>
    have fresh : ¬Sent fields ":method" := by rw [← flags.method, once]; simp
    refine ⟨_, rfl, ?_, ?_, ?_, ?_⟩
    · exact filled.lengths_snoc (by decide) value
    · rw [filterMap_exposed_snoc, ← filled.headers]
      rfl
    · intro value' member
      rcases mem_append.mp member with before | last
      · exact absurd (mem_map.mpr ⟨_, before, rfl⟩) fresh
      · cases mem_singleton.mp last
        rfl
    · intro value' member
      exact filled.path value' (by simpa +decide using member)
  | path early once =>
    have fresh : ¬Sent fields ":path" := by rw [← flags.path, once]; simp
    obtain ⟨headers, method, length'⟩ := parsePath_others req value
    refine ⟨_, rfl, ?_, ?_, ?_, ?_⟩
    · rw [length']
      exact filled.lengths_snoc (by decide) value
    · rw [filterMap_exposed_snoc, ← filled.headers]
      exact headers
    · intro value' member
      rw [method]
      exact filled.method value' (by simpa +decide using member)
    · intro value' member
      rcases mem_append.mp member with before | last
      · exact absurd (mem_map.mpr ⟨_, before, rfl⟩) fresh
      · cases mem_singleton.mp last
        exact parsePath_path req value
  | scheme early once =>
    have same : s = { s with req := some { req with headers := req.headers } } := by
      rw [← filled.request]
    rw [same]
    exact ⟨_, filled.other (by decide) (by decide) (by decide) value rfl⟩
  | authority early once => exact ⟨_, filled.other (by decide) (by decide) (by decide) value rfl⟩
  | @length value contentLength parsed same =>
    refine ⟨_, rfl, ?_, ?_, ?_, ?_⟩
    · intro f member length
      rcases mem_append.mp member with before | last
      · obtain ⟨there, parsed'⟩ := filled.lengths f before length
        rw [same there] at parsed'
        exact ⟨rfl, parsed'⟩
      · rw [mem_singleton.mp last]
        exact ⟨rfl, parsed⟩
    · rw [filterMap_exposed_snoc, ← filled.headers]
      rfl
    · intro value' member
      exact filled.method value' (by simpa +decide using member)
    · intro value' member
      exact filled.path value' (by simpa +decide using member)
  | regular plain between te other =>
    have pseudo (known : String) (colon : (ascii known).head? = some 0x3a) : name ≠ ascii known := by
      rintro rfl
      exact plain colon
    refine ⟨_, filled.other (pseudo ":method" rfl) (pseudo ":path" rfl) other value ?_⟩
    simp [exposed, pseudo ":authority" rfl, plain]

end Filled

/-! ### A block -/

/-- The fields that have been handed to `h2_apply_header` when it has refused none. -/
structure Accepted (bs : BlockState) : Prop where
  isRequest : bs.st.isRequest = true
  count : bs.st.headerCount = bs.handed.length
  few : bs.handed.length ≤ maxHeadersPerRequest
  valid : ∀ f ∈ bs.handed, fieldNameIsValid f.1 = true ∧ fieldValueIsValid f.2 = true
  between : ∀ f ∈ bs.handed, f.1 ∉ Rfc9113.connectionSpecific
  te : ∀ f ∈ bs.handed, f.1 = ascii "te" → f.2 = ascii "trailers"
  flags : Flags bs.handed bs.st
  filled : ∃ req, Filled bs.handed bs.target req

def RequestHead.create : RequestHead := ⟨some Request.create, false⟩

lemma accepted_start (table : HpackTable) : Accepted (.start table .create true) where
  isRequest := rfl
  count := rfl
  few := Nat.zero_le _
  valid := by simp [start]
  between := by simp [start]
  te := by simp [start]
  flags := ⟨⟨[], [], by simp [start]⟩, by simp [start, HeaderState.start, Sent],
    by simp [start, HeaderState.start, Sent], by simp [start, HeaderState.start, Sent],
    by simp [start, HeaderState.start, Sent], by simp [start, HeaderState.start]⟩
  filled := ⟨Request.create, rfl, by simp [start], rfl, by simp [start], by simp [start]⟩

lemma Taken.checked (taken : Taken s req st name value s' st') :
    st'.isRequest = st.isRequest ∧ st'.headerCount = st.headerCount ∧ name ∉ Rfc9113.connectionSpecific ∧
      (name = ascii "te" → value = ascii "trailers") := by
  cases taken with
  | regular plain between te other => exact ⟨rfl, rfl, between, te⟩
  | _ => exact ⟨rfl, rfl, by decide, fun same => absurd same (by decide)⟩

lemma accepted_hand {bs : BlockState} (accepted : Accepted bs)
    (sound : (bs.hand name value).streamError = false) : Accepted (bs.hand name value) := by
  obtain ⟨req, filled⟩ := accepted.filled
  have result : applyHeader bs.target name value bs.st = (true, (bs.hand name value).target, (bs.hand name value).st) := by
    unfold hand at sound ⊢
    simp only [Bool.or_eq_false_iff, Bool.not_eq_false'] at sound
    exact Prod.ext sound.2 rfl
  obtain ⟨validName, validValue, few, taken⟩ := applyHeader_true filled.request accepted.isRequest result
  obtain ⟨isRequest, count, between, te⟩ := taken.checked
  have counted := accepted.flags.counted (bs.st.headerCount + 1)
  have members {P : Field → Prop} (before : ∀ f ∈ bs.handed, P f) (last : P (name, value)) :
      ∀ f ∈ (bs.hand name value).handed, P f := by
    intro f member
    rcases mem_append.mp member with inside | new
    · exact before f inside
    · rw [mem_singleton.mp new]
      exact last
  refine ⟨isRequest.trans accepted.isRequest, ?_, ?_, members accepted.valid ⟨validName, validValue⟩,
    members accepted.between between, members accepted.te te, counted.taken taken, filled.taken counted taken⟩
  · rw [count, hand_handed, length_append, accepted.count]
    rfl
  · rw [hand_handed, length_append, ← accepted.count]
    exact few

lemma accepted_block (table : HpackTable) (payload : Bytes) (turns : Nat)
    (sound : (lastState (blockLoop payload turns (.start table .create true))).streamError = false) :
    Accepted (lastState (blockLoop payload turns (.start table .create true))) := by
  refine blockLoop_keeps (Q := fun bs => bs.streamError = false → Accepted bs) ?_ ?_ (fun _ => accepted_start table) sound
  · intro bs pos table before sound
    obtain ⟨isRequest, count, few, valid, between, te, flags, filled⟩ := before sound
    exact ⟨isRequest, count, few, valid, between, te, flags, filled⟩
  · intro bs name value before sound
    refine accepted_hand (before ?_) sound
    unfold hand at sound
    simp only [Bool.or_eq_false_iff] at sound
    exact sound.1

/-! ### The rules -/

/-- What `h2_decode_header_block` leaves to its input: names are tokens, the path of OPTIONS is not empty, and there is one
authority. -/
structure Unchecked (fields : List Field) : Prop where
  tokens : ∀ f ∈ fields, f.1.head? ≠ some 0x3a → ∀ c ∈ f.1, isTchar c = true
  path : ¬((ascii ":method", ascii "OPTIONS") ∈ fields ∧ (ascii ":path", []) ∈ fields)
  authority : ∃! authority, (ascii ":authority", authority) ∈ fields ∨ (ascii "host", authority) ∈ fields

lemma methodMagic_ne_options (str magic : Bytes) : Http.methodMagic str magic ≠ some .options := by
  unfold Http.methodMagic
  repeat' split
  all_goals nofun

lemma stringToMethod_options (options : Http.stringToMethod value = .options) : value = ascii "OPTIONS" := by
  unfold Http.stringToMethod Http.stringToMethodLen at options
  split at options
  · cases magic : Http.methodMagic value ((value ++ [0]).take 4) with
    | some m =>
      rw [magic] at options
      exact absurd (magic.trans (congrArg some options)) (methodMagic_ne_options _ _)
    | none =>
      rw [magic] at options
      exact (Http.methodByLength_eq_iff (by decide) (by decide)).mp options
  · cases options

lemma fieldNameIsValid_lower (valid : fieldNameIsValid name = true) : name ≠ [] ∧ ∀ c ∈ name, isUpper c = false := by
  cases name with
  | nil => cases valid
  | cons c rest =>
    refine ⟨cons_ne_nil _ _, fun d member => ?_⟩
    simp only [fieldNameIsValid, Bool.and_eq_true, all_eq_true, Bool.not_eq_true', Bool.or_eq_false_iff] at valid
    rcases mem_cons.mp member with rfl | later
    · exact valid.1.1.2
    · exact (valid.1.2 d later).1.2

lemma toLower_of_lower {c : UInt8} (lower : isUpper c = false) : Http.toLower c = c := by
  simp only [isUpper, Bool.and_eq_false_iff, decide_eq_false_iff_not] at lower
  rw [Http.toLower, if_neg]
  tauto

lemma caseEq_host (lower : ∀ c ∈ name, isUpper c = false) :
    caseEq name (ascii "host") = true ↔ name = ascii "host" := by
  have same : name.map Http.toLower = name := by
    conv_rhs => rw [← map_id name]
    exact map_congr_left fun c member => toLower_of_lower (lower c member)
  have host : (ascii "host").map Http.toLower = ascii "host" := by decide
  rw [caseEq, beq_iff_eq, same, host]

lemma lengthValue_of_parse {n : Nat} (parsed : parseContentLength value = some n) :
    Rfc9112.lengthValue value = some n := by
  have folded : ∀ (value : Bytes) (start : Nat),
      value.foldlM (fun parsed c =>
        if c < 0x30 || c > 0x39 || parsed > (2 ^ 64 - 1 - 9) / 10 then none
        else some (parsed * 10 + (c.toNat - 0x30))) start = some n →
      value.all Rfc9112.isDigit = true ∧ value.foldl (fun n c => n * 10 + (c.toNat - 0x30)) start = n := by
    intro value
    induction value with intro start same
    | nil => exact ⟨rfl, Option.some.inj same⟩
    | cons c value ih =>
      rw [foldlM_cons] at same
      split at same
      · cases same
      rename_i digit
      obtain ⟨digits, rest⟩ := ih _ same
      simp only [Bool.or_eq_true, decide_eq_true_eq, not_or, UInt8.not_lt] at digit
      refine ⟨?_, rest⟩
      simp [Rfc9112.isDigit, digit.1.1, digit.1.2, digits]
  unfold parseContentLength at parsed
  split at parsed
  · cases parsed
  next some_ =>
    obtain ⟨digits, rest⟩ := folded value 0 parsed
    rw [Rfc9112.lengthValue, if_pos ⟨some_, digits⟩, rest]

section Rules
variable {bs : BlockState}

section
variable (accepted : Accepted bs) {f : Field}
include accepted

lemma Accepted.lower (member : f ∈ bs.handed) : ∀ c ∈ f.1, isUpper c = false :=
  (fieldNameIsValid_lower (accepted.valid f member).1).2

lemma Accepted.shows_iff (filled : Filled bs.handed bs.target req) (authority : Bytes) :
    (∃ header ∈ req.headers, caseEq header.1 (ascii "host") = true ∧ header.2 = authority) ↔
      (ascii ":authority", authority) ∈ bs.handed ∨ (ascii "host", authority) ∈ bs.handed := by
  rw [filled.headers]
  simp only [mem_reverse, mem_filterMap]
  constructor
  · rintro ⟨header, ⟨f, member, shown⟩, host, rfl⟩
    unfold exposed at shown
    split at shown
    next pseudo =>
      cases shown
      exact .inl (pseudo ▸ member)
    split at shown
    · cases shown
    · cases shown
      rw [caseEq_host (accepted.lower member)] at host
      exact .inr (host ▸ member)
  · have host : caseEq (ascii "host") (ascii "host") = true := by decide
    rintro (member | member)
    · exact ⟨(ascii "host", authority), ⟨_, member, rfl⟩, host, rfl⟩
    · exact ⟨(ascii "host", authority), ⟨_, member, rfl⟩, host, rfl⟩

lemma Accepted.oneAuthority_iff (filled : Filled bs.handed bs.target req) : OneAuthority bs.handed req ↔
      ∃! authority, (ascii ":authority", authority) ∈ bs.handed ∨ (ascii "host", authority) ∈ bs.handed := by
  unfold OneAuthority
  simp only [accepted.shows_iff filled]
  constructor
  · exact And.left
  intro one
  refine ⟨one, fun authority host sent sent' => ?_⟩
  obtain ⟨header, inside, same, -⟩ := (accepted.shows_iff filled authority).mpr (.inl sent)
  have found : (req.headers.find? fun header => caseEq header.1 (ascii "host")).isSome := by
    rw [find?_isSome]
    exact ⟨header, inside, same⟩
  obtain ⟨first, first_⟩ := Option.isSome_iff_exists.mp found
  have matching : caseEq first.1 (ascii "host") = true := by simpa using find?_some first_
  have shown := (accepted.shows_iff filled first.2).mp ⟨first, mem_of_find?_eq_some first_, matching, rfl⟩
  rw [seen, first_]
  exact congrArg some (one.unique shown (.inl sent))

lemma Accepted.lowerToken (member : f ∈ bs.handed) :
    LowerToken f.1 ↔ (f.1.head? ≠ some 0x3a → ∀ c ∈ f.1, isTchar c = true) := by
  have pseudo : ∀ name ∈ pseudoNames, name.head? = some 0x3a := by decide
  constructor
  · rintro (known | ⟨-, octets⟩) plain
    · exact absurd (pseudo _ known) plain
    · exact fun c inside => (octets c inside).1
  intro tokens
  obtain ⟨front, back, split, names, -, plains, -⟩ := accepted.flags.order
  rw [split] at member
  rcases mem_append.mp member with first | second
  · exact .inl (names f first)
  · obtain ⟨some_, lower⟩ := fieldNameIsValid_lower (accepted.valid f (split ▸ member)).1
    exact .inr ⟨some_, fun c inside => ⟨tokens (plains f second) c inside, lower c inside⟩⟩

lemma Accepted.values (member : f ∈ bs.handed) :
    (0x00 : UInt8) ∉ f.2 ∧ (0x0d : UInt8) ∉ f.2 ∧ (0x0a : UInt8) ∉ f.2 := by
  have valid := (accepted.valid f member).2
  simp only [fieldValueIsValid, Bool.and_eq_true, all_eq_true] at valid
  exact ⟨fun inside => absurd (valid.2 _ inside) (by decide), fun inside => absurd (valid.2 _ inside) (by decide),
    fun inside => absurd (valid.2 _ inside) (by decide)⟩

lemma Accepted.control_iff (filled : Filled bs.handed bs.target req) (ok : blockResult true bs = .ok) :
    Control bs.handed ↔ ¬((ascii ":method", ascii "OPTIONS") ∈ bs.handed ∧ (ascii ":path", []) ∈ bs.handed) := by
  obtain ⟨valid, path⟩ : bs.st.controlValid = true ∧
      (bs.st.seenPath = true → req.path.length = 0 → req.method = .options) := by
    unfold blockResult at ok
    rw [filled.request] at ok
    split at ok
    · cases ok
    simp only [if_true] at ok
    split at ok
    · cases ok
    rename_i valid
    refine ⟨by simpa using valid, fun seenPath empty => ?_⟩
    rw [if_pos seenPath] at ok
    by_contra other
    rw [if_pos ⟨empty, other⟩] at ok
    cases ok
  unfold HeaderState.controlValid at valid
  unfold Control
  split at valid
  next connect =>
    rw [accepted.flags.connect] at connect
    simp only [Bool.and_eq_true, Bool.not_eq_true', ← Bool.not_eq_true, accepted.flags.method, accepted.flags.authority,
      accepted.flags.scheme, accepted.flags.path] at valid
    rw [if_pos connect]
    refine ⟨fun _ both => valid.2 (mem_map.mpr ⟨_, both.2, rfl⟩), fun _ => ⟨valid.1.1.2, valid.1.2, valid.2⟩⟩
  rename_i connect
  rw [accepted.flags.connect] at connect
  simp only [Bool.and_eq_true, accepted.flags.method, accepted.flags.scheme, accepted.flags.path] at valid path
  rw [if_neg connect]
  obtain ⟨⟨method, scheme⟩, sent⟩ := valid
  refine ⟨fun control both => control.2.2.2 both.2, fun unchecked => ⟨method, scheme, sent, fun empty => unchecked ⟨?_, empty⟩⟩⟩
  -- An empty path passes for OPTIONS only.
  have options := path sent (by rw [filled.path _ empty]; rfl)
  obtain ⟨⟨_, value⟩, member, rfl⟩ := mem_map.mp method
  rw [filled.method value member] at options
  rw [stringToMethod_options options] at member
  exact member

end

end Rules

/-- A header block that `h2_decode_header_block` takes for a request follows the rules of RFC 9113 exactly when what it does
not check holds: every other rule it does check, whatever the dynamic table is. -/
theorem decoded_request_rules_iff (table : HpackTable) (payload : Bytes)
    (ok : (decodeHeaderBlock table .create payload true).1 = .ok) :
    (∃ req, (decodeHeaderBlock table .create payload true).2.target.req = some req ∧
      RequestRules maxHeadersPerRequest (decodeHeaderBlock table .create payload true).2.handed req) ↔
    Unchecked (decodeHeaderBlock table .create payload true).2.handed := by
  have block := accepted_block table payload payload.length
  unfold decodeHeaderBlock at ok ⊢
  cases result : blockLoop payload payload.length (.start table .create true) with
  | error bs =>
    rw [result] at ok
    cases ok
  | ok bs =>
    rw [result] at ok block
    dsimp only at ok ⊢
    have sound : bs.streamError = false := by
      unfold blockResult at ok
      split at ok
      · cases ok
      next sound => simpa using sound
    have accepted : Accepted bs := block sound
    obtain ⟨req, filled⟩ := accepted.filled
    have only : ∀ req', bs.target.req = some req' ↔ req' = req := by
      intro req'
      rw [filled.request, Option.some.injEq, eq_comm]
    simp only [only, exists_eq_left]
    constructor
    · intro rules
      exact ⟨fun f member => (accepted.lowerToken member).mp (rules.names f member),
        (accepted.control_iff filled ok).mp rules.control, (accepted.oneAuthority_iff filled).mp rules.authority⟩
    intro unchecked
    obtain ⟨pseudo, regular, split, names, unique, plain, -⟩ := accepted.flags.order
    exact {
      pseudoFirst := ⟨pseudo, regular, split, names, unique, plain⟩
      control := (accepted.control_iff filled ok).mpr unchecked.path
      names := fun f member => (accepted.lowerToken member).mpr (unchecked.tokens f member)
      values := fun f member => accepted.values member
      connection := accepted.between
      te := accepted.te
      length := ⟨req.contentLength, fun f member length => lengthValue_of_parse (filled.lengths f member length).2⟩
      few := accepted.few
      authority := (accepted.oneAuthority_iff filled).mpr unchecked.authority }

/-- `GET /` with an authority, in four representations. -/
theorem decoded_get_rules :
    ∃ req, (decodeHeaderBlock .init .create [0x82, 0x86, 0x84, 0x01, 0x01, 0x78] true).2.target.req = some req ∧
      RequestRules maxHeadersPerRequest
        (decodeHeaderBlock .init .create [0x82, 0x86, 0x84, 0x01, 0x01, 0x78] true).2.handed req := by
  refine (decoded_request_rules_iff .init [0x82, 0x86, 0x84, 0x01, 0x01, 0x78] (by decide)).mpr ?_
  have fields : (decodeHeaderBlock .init .create [0x82, 0x86, 0x84, 0x01, 0x01, 0x78] true).2.handed =
      [(ascii ":method", ascii "GET"), (ascii ":scheme", ascii "http"), (ascii ":path", ascii "/"),
        (ascii ":authority", ascii "x")] := by
    decide
  rw [fields]
  refine ⟨by decide, by decide, ascii "x", .inl (by decide), ?_⟩
  rintro authority (sent | sent)
  · simpa +decide using sent
  · exact absurd sent (by simp +decide)

/-- A block with `:authority: x` and `host: y` is taken, and the application sees the latter; so is one with a field `a/b`,
and OPTIONS with an empty path. -/
theorem decoded_request_breaks_rules :
    ((decodeHeaderBlock .init .create [0x82, 0x86, 0x84, 0x01, 0x01, 0x78, 0x0f, 0x17, 0x01, 0x79] true).1 = .ok ∧
      ¬∃ req, (decodeHeaderBlock .init .create
          [0x82, 0x86, 0x84, 0x01, 0x01, 0x78, 0x0f, 0x17, 0x01, 0x79] true).2.target.req = some req ∧
        RequestRules maxHeadersPerRequest (decodeHeaderBlock .init .create
          [0x82, 0x86, 0x84, 0x01, 0x01, 0x78, 0x0f, 0x17, 0x01, 0x79] true).2.handed req) ∧
    ((decodeHeaderBlock .init .create [0x82, 0x86, 0x84, 0x00, 0x03, 0x61, 0x2f, 0x62, 0x00] true).1 = .ok ∧
      (ascii "a/b", []) ∈ (decodeHeaderBlock .init .create
        [0x82, 0x86, 0x84, 0x00, 0x03, 0x61, 0x2f, 0x62, 0x00] true).2.handed) ∧
    ((decodeHeaderBlock .init .create ([0x02, 0x07] ++ ascii "OPTIONS" ++ [0x86, 0x04, 0x00]) true).1 = .ok ∧
      (ascii ":path", []) ∈ (decodeHeaderBlock .init .create
        ([0x02, 0x07] ++ ascii "OPTIONS" ++ [0x86, 0x04, 0x00]) true).2.handed) := by
  refine ⟨⟨by decide, ?_⟩, by decide, by decide⟩
  rintro ⟨req, request, rules⟩
  have authority := rules.authority.2 (ascii "x") (ascii "y") (by decide) (by decide +kernel)
  have shown : (decodeHeaderBlock .init .create
      [0x82, 0x86, 0x84, 0x01, 0x01, 0x78, 0x0f, 0x17, 0x01, 0x79] true).2.target.req.bind (seen · "host") =
        some (ascii "y") := by
    decide
  rw [request] at shown
  rw [Option.bind_some, authority] at shown
  exact absurd shown (by decide)

end Cwist.H2
