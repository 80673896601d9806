import Cwist.App.StaticFile

namespace Cwist.Rfc9110

open Http (caseEq)

/-! ### Entity tags -/

def etagc (c : UInt8) : Prop := c = 0x21 ∨ 0x23 ≤ c ∧ c ≤ 0x7e ∨ 0x80 ≤ c

def blank (c : UInt8) : Prop := c = 0x20 ∨ c = 0x09

def entityTag (weak : Bool) (octets : Bytes) : Bytes := (if weak then ascii "W/" else []) ++ 0x22 :: (octets ++ [0x22])

inductive TagList : Bytes → List (Bool × Bytes) → Prop where
  | nil : TagList [] []
  | skip {c : UInt8} {s : Bytes} {tags : List (Bool × Bytes)} : blank c ∨ c = 0x2c → TagList s tags → TagList (c :: s) tags
  | last {weak : Bool} {octets ows : Bytes} : (∀ c ∈ octets, etagc c) → (∀ c ∈ ows, blank c) →
      TagList (entityTag weak octets ++ ows) [(weak, octets)]
  | cons {weak : Bool} {octets ows s : Bytes} {tags : List (Bool × Bytes)} : (∀ c ∈ octets, etagc c) →
      (∀ c ∈ ows, blank c) → TagList s tags → TagList (entityTag weak octets ++ ows ++ 0x2c :: s) ((weak, octets) :: tags)

/-- `If-None-Match` is false: `*`, or a list with the tag by the weak comparison. -/
def TagMatches (value tag : Bytes) : Prop := value = ascii "*" ∨ ∃ tags weak, TagList value tags ∧ (weak, tag) ∈ tags

/-! ### Ranges -/

inductive RangeSpec where
  | int (first : Nat) (last : Option Nat)
  | suffix (length : Nat)

def RangeSpec.denotes (size : Nat) : RangeSpec → Option (Nat × Nat)
  | int first last => if first < size then some (first, min (last.getD (size - 1)) (size - 1)) else none
  | suffix length => if length ≠ 0 ∧ size ≠ 0 then some (size - length, size - 1) else none

inductive RangeSpec.Text : RangeSpec → Bytes → Prop where
  | bounded {a b : Bytes} : IsNumber a → IsNumber b → digitsValue a ≤ digitsValue b →
      Text (.int (digitsValue a) (some (digitsValue b))) (a ++ 0x2d :: b)
  | unbounded {a : Bytes} : IsNumber a → Text (.int (digitsValue a) none) (a ++ [0x2d])
  | suffix {n : Bytes} : IsNumber n → Text (.suffix (digitsValue n)) (0x2d :: n)

inductive RangeSet : Bytes → Prop where
  | one {spec : RangeSpec} {s : Bytes} : spec.Text s → RangeSet s
  | more {spec : RangeSpec} {s before after rest : Bytes} : spec.Text s → (∀ c ∈ before, blank c) → (∀ c ∈ after, blank c) →
      RangeSet rest → RangeSet (s ++ before ++ 0x2c :: (after ++ rest))

/-- A value for the range unit `bytes`, whose name is case-insensitive. -/
def ForBytes (value set : Bytes) : Prop := ∃ unit, caseEq unit (ascii "bytes") = true ∧ value = unit ++ 0x3d :: set

end Cwist.Rfc9110

namespace Cwist.App
open List

open Http (Response headerGet decimal)
open Rfc9110 (TagMatches RangeSpec RangeSet ForBytes)

/-! ### What a response is -/

def IsNotModified (res : Response) : Prop := res.statusCode = 304 ∧ res.body = [] ∧ res.ptrBody = none

/-- The octets from `first` to `last`. -/
structure IsPartial (file : CachedFile) (res : Response) (first last : Nat) : Prop where
  status : res.statusCode = 206
  inside : first ≤ last ∧ last < file.size
  body : res.ptrBody = some ((file.data.drop first).take (last + 1 - first))
  range : headerGet res.headers (ascii "Content-Range") = some (.ofBytes (contentRange first last file.size))
  length : headerGet res.headers (ascii "Content-Length") = some (.ofBytes (decimal (last + 1 - first)))

structure IsUnsatisfied (file : CachedFile) (res : Response) : Prop where
  status : res.statusCode = 416
  body : res.body = [] ∧ res.ptrBody = none
  range : headerGet res.headers (ascii "Content-Range") = some (.ofBytes (ascii "bytes */" ++ decimal file.size))

structure IsWhole (file : CachedFile) (res : Response) : Prop where
  status : res.statusCode = 200
  body : res.ptrBody = some file.data
  range : headerGet res.headers (ascii "Content-Range") = none

/-! ### Fields -/

variable {p rest : Bytes} {size rs sv n : Nat} {headers : List (CStr × Bytes)} {value name : Bytes} {file : CachedFile}
  {first last : Nat} {digits : Bytes} {key : String} {a : Bytes} {s : Bytes} {c : UInt8}

lemma headerGet_headerAdd_other (other : Http.caseEq (CStr.ofBytes (ascii key)).bytes name = false) :
    headerGet (headerAdd headers key value) name = headerGet headers name := by
  unfold headerAdd
  split
  · rfl
  · simp [headerGet, other]

lemma headerGet_headerAdd_self
    (own : Http.caseEq (CStr.ofBytes (ascii key)).bytes name = true) (clean : 0x0d ∉ value ∧ 0x0a ∉ value) :
    headerGet (headerAdd headers key value) name = some (.ofBytes value) := by
  simp [headerAdd, headerGet, clean, own]

lemma decimal_clean (n : Nat) : (0x0d : UInt8) ∉ decimal n ∧ (0x0a : UInt8) ∉ decimal n := by
  constructor <;> intro member
  · exact absurd (Http.mem_decimal member).1 (by decide)
  · exact absurd (Http.mem_decimal member).1 (by decide)

lemma contentRange_clean (first last size : Nat) :
    (0x0d : UInt8) ∉ contentRange first last size ∧ (0x0a : UInt8) ∉ contentRange first last size := by
  have a := decimal_clean first
  have b := decimal_clean last
  have c := decimal_clean size
  have unit : (0x0d : UInt8) ∉ ascii "bytes " ∧ (0x0a : UInt8) ∉ ascii "bytes " := by decide
  simp [contentRange, a, b, c, unit]

lemma notModifiedResponse_spec (cacheControl : Option Bytes) (file : CachedFile) :
    IsNotModified (notModifiedResponse cacheControl file) := ⟨rfl, rfl, rfl⟩

lemma rangeNotSatisfiable_spec (file : CachedFile) : IsUnsatisfied file (rangeNotSatisfiable file) where
  status := rfl
  body := ⟨rfl, rfl⟩
  range := by
    apply headerGet_headerAdd_self (by decide)
    have size := decimal_clean file.size
    have unit : (0x0d : UInt8) ∉ ascii "bytes */" ∧ (0x0a : UInt8) ∉ ascii "bytes */" := by decide
    simp [size, unit]

lemma headerGet_bodyHeaders (headers : List (CStr × Bytes)) (cacheControl : Option Bytes) (file : CachedFile) (sendLen : Nat) :
    headerGet (bodyHeaders headers cacheControl file sendLen) (ascii "Content-Range") =
        headerGet headers (ascii "Content-Range") ∧
      headerGet (bodyHeaders headers cacheControl file sendLen) (ascii "Content-Length") =
        some (.ofBytes (decimal sendLen)) := by
  unfold bodyHeaders
  constructor
  · rw [headerGet_headerAdd_other (by decide), headerGet_headerAdd_other (by decide),
      headerGet_headerAdd_other (by decide), headerGet_headerAdd_other (by decide),
      headerGet_headerAdd_other (by decide), headerGet_headerAdd_other (by decide)]
  · rw [headerGet_headerAdd_other (by decide), headerGet_headerAdd_other (by decide),
      headerGet_headerAdd_other (by decide), headerGet_headerAdd_other (by decide),
      headerGet_headerAdd_other (by decide)]
    exact headerGet_headerAdd_self (by decide) (decimal_clean sendLen)

lemma wholeFile_spec (cacheControl : Option Bytes) (file : CachedFile) : IsWhole file (wholeFile cacheControl file) where
  status := rfl
  body := rfl
  range := (headerGet_bodyHeaders [] cacheControl file file.size).1

lemma partialContent_spec (cacheControl : Option Bytes) (inOrder : first ≤ last)
    (inside : last < file.size) : IsPartial file (partialContent cacheControl file first last) first last := by
  have length : last - first + 1 = last + 1 - first := by omega
  have fields := headerGet_bodyHeaders (headerAdd [] "Content-Range" (contentRange first last file.size)) cacheControl file
    (last - first + 1)
  refine ⟨rfl, ⟨inOrder, inside⟩, ?_, ?_, ?_⟩
  · rw [← length]
    rfl
  · exact fields.1.trans (headerGet_headerAdd_self (by decide) (contentRange_clean first last file.size))
  · rw [← length]
    exact fields.2

@[simp]
lemma rangeNotSatisfiable_status (file : CachedFile) : (rangeNotSatisfiable file).statusCode = 416 := rfl

@[simp]
lemma partialContent_status (cacheControl : Option Bytes) (file : CachedFile) (first last : Nat) :
    (partialContent cacheControl file first last).statusCode = 206 := rfl

@[simp]
lemma wholeFile_status (cacheControl : Option Bytes) (file : CachedFile) : (wholeFile cacheControl file).statusCode = 200 := rfl

lemma CachedFile.size_small (file : CachedFile) : file.size < 2 ^ 63 := file.small

/-! ### Numbers -/

def saturated (n : Nat) : Nat := min n (2 ^ 64 - 1)

lemma strtoull_digits (number : IsNumber digits) (ends : ∀ c, rest.head? = some c → isDigit c = false) :
    strtoull (digits ++ rest) = some (saturated (digitsValue digits), rest) := by
  have all := all_eq_true.mp number.2
  have front : (digits ++ rest).takeWhile isDigit = digits ∧ (digits ++ rest).dropWhile isDigit = rest := by
    rw [takeWhile_append_of_pos all, dropWhile_append_of_pos all]
    cases rest with
    | nil => simp
    | cons c rest =>
      have notDigit := ends c rfl
      simp [notDigit]
  obtain ⟨first, others, rfl⟩ := exists_cons_of_ne_nil number.1
  obtain ⟨-, minus, plus, space⟩ := digit_facts (all first mem_cons_self)
  have skip : (first :: others ++ rest).dropWhile isSpace = first :: others ++ rest := by simp [space]
  simp only [strtoull, skip]
  simp only [cons_append, head?_cons, Option.some.injEq, minus, plus, or_self, if_false]
  rw [← cons_append, front.1, front.2, if_neg number.1, Option.some.injEq, Prod.mk.injEq]
  refine ⟨?_, rfl⟩
  unfold saturated
  split <;> omega

lemma strtoull_number (number : IsNumber digits) : strtoull digits = some (saturated (digitsValue digits), []) := by
  have whole : strtoull (digits ++ []) = some (saturated (digitsValue digits), []) := strtoull_digits number (by simp)
  rwa [append_nil] at whole

lemma strtoull_nil : strtoull [] = none := rfl

/-! ### Ranges -/

def readsAs (size : Nat) (p : Bytes) : Option (Nat × Nat) :=
  match readRange size p with
  | none => none
  | some (first, last) =>
    if first > last ∨ first ≥ size then none else some (first, if last ≥ size then size - 1 else last)

lemma readsAs_inside (reads : readsAs size p = some (first, last)) : first ≤ last ∧ last < size := by
  unfold readsAs at reads
  split at reads
  case h_1 => cases reads
  case h_2 start finish found =>
    split at reads
    case isTrue => cases reads
    case isFalse inside =>
      obtain ⟨rfl, rfl⟩ := Prod.mk.inj (Option.some.inj reads)
      split <;> omega

lemma dropWhile_dash (number : IsNumber a) (rest : Bytes) :
    (a ++ 0x2d :: rest).dropWhile (· != 0x2d) = 0x2d :: rest := by
  have noDash : ∀ c ∈ a, (c != 0x2d) = true := by
    intro c member
    simpa using (digit_facts (all_eq_true.mp number.2 c member)).2.1
  rw [dropWhile_append_of_pos noDash]
  simp

lemma readRange_first (size : Nat) (notSuffix : p.head? ≠ some 0x2d) (read : strtoull p = some (rs, rest)) :
    readRange size p = some (rs, match strtoull (p.dropWhile (· != 0x2d)).tail with
        | some (re, _) => re
        | none => (size + (2 ^ 64 - 1)) % 2 ^ 64) := by
  unfold readRange
  split
  case h_1 => exact absurd rfl notSuffix
  case h_2 =>
  simp only [read]
  rcases p.dropWhile (· != 0x2d) with _ | ⟨_, _ | ⟨c, rest'⟩⟩
  · rfl
  · rfl
  · simp only [tail_cons]
    cases strtoull (c :: rest') <;> rfl

lemma readRange_suffix (size : Nat) (read : strtoull s = some (sv, rest)) :
    readRange size (0x2d :: s) =
      if rest = [] then some (size - sv, (size + (2 ^ 64 - 1)) % 2 ^ 64) else none := by
  have start : (if size > sv then size - sv else 0) = size - sv := by
    split <;> omega
  cases rest with
  | nil => simp only [readRange, read, start, if_true]
  | cons c rest => simp [readRange, read]

lemma head_ne_dash (number : IsNumber a) (rest : Bytes) : (a ++ rest).head? ≠ some 0x2d := by
  obtain ⟨c, others, rfl⟩ := exists_cons_of_ne_nil number.1
  simpa using number.head.2.1

lemma readsAs_text {spec : RangeSpec} (small : size < 2 ^ 63) (text : spec.Text p) :
    readsAs size p = spec.denotes size := by
  have dash (rest : Bytes) (c : UInt8) (first : (0x2d :: rest : Bytes).head? = some c) : isDigit c = false := by
    cases first
    decide
  cases text with
  | @bounded a b first last inOrder =>
    have read := readRange_first size (head_ne_dash first _) (strtoull_digits first (dash b))
    rw [dropWhile_dash first, tail_cons, strtoull_number last] at read
    simp only [readsAs, read, RangeSpec.denotes, saturated, Option.getD_some]
    by_cases inside : digitsValue a < size
    · rw [if_neg (by omega), if_pos inside, Option.some.injEq, Prod.mk.injEq]
      split <;> omega
    · rw [if_pos (by omega), if_neg inside]
  | @unbounded a first =>
    have read := readRange_first size (head_ne_dash first _) (strtoull_digits first (dash []))
    rw [dropWhile_dash first, tail_cons, strtoull_nil] at read
    simp only [readsAs, read, RangeSpec.denotes, saturated, Option.getD_none]
    by_cases inside : digitsValue a < size
    · rw [if_neg (by omega), if_pos inside, Option.some.injEq, Prod.mk.injEq]
      split <;> omega
    · rw [if_pos (by omega), if_neg inside]
  | @suffix n number =>
    have read := readRange_suffix size (strtoull_number number)
    simp only [readsAs, read, if_true, RangeSpec.denotes, saturated]
    by_cases some_ : digitsValue n ≠ 0 ∧ size ≠ 0
    · rw [if_neg (by omega), if_pos some_, Option.some.injEq, Prod.mk.injEq]
      split <;> omega
    · rw [if_pos (by omega), if_neg some_]

/-- A text that the scanner takes for a part of the file: behind a dash it is one number that is not zero; otherwise the number at
the front is inside the file and not above the one behind the first dash. -/
def TakenForPart (size : Nat) (p : Bytes) : Prop :=
  match p with
  | 0x2d :: suffix => size ≠ 0 ∧ ∃ n, n ≠ 0 ∧ strtoull suffix = some (n, [])
  | _ => ∃ first rest, strtoull p = some (first, rest) ∧ first < size ∧
      ∀ last rest', strtoull (p.dropWhile (· != 0x2d)).tail = some (last, rest') → first ≤ last

lemma takenForPart_iff (small : size < 2 ^ 63) :
    TakenForPart size p ↔ ∃ first last, readsAs size p = some (first, last) := by
  by_cases suffix : p.head? = some 0x2d
  · obtain ⟨s, rfl⟩ := head?_eq_some_iff.mp suffix
    simp only [TakenForPart]
    cases read : strtoull s with
    | none => simp [readsAs, readRange, read]
    | some pair =>
      obtain ⟨sv, rest⟩ := pair
      cases rest with
      | cons c rest => simp [readsAs, readRange, read]
      | nil =>
        simp only [readsAs, readRange_suffix size read, if_true, Option.some.injEq, Prod.mk.injEq, and_true]
        constructor
        · rintro ⟨filled, n, positive, rfl⟩
          rw [if_neg (by omega)]
          exact ⟨_, _, rfl⟩
        rintro ⟨first, last, reads⟩
        split at reads
        case isTrue => cases reads
        case isFalse inside =>
          refine ⟨?_, sv, ?_, rfl⟩ <;> rintro rfl
          · exact inside (.inr (Nat.zero_le _))
          · exact inside (.inr (by omega))
  have same : TakenForPart size p ↔ ∃ first rest, strtoull p = some (first, rest) ∧ first < size ∧
      ∀ last rest', strtoull (p.dropWhile (· != 0x2d)).tail = some (last, rest') → first ≤ last := by
    unfold TakenForPart
    split
    case h_1 => exact absurd rfl suffix
    case h_2 => exact Iff.rfl
  rw [same]
  cases read : strtoull p with
  | none =>
    have unread : readRange size p = none := by
      unfold readRange
      split
      case h_1 => exact absurd rfl suffix
      case h_2 => simp only [read]
    simp [readsAs, unread]
  | some pair =>
    obtain ⟨rs, rest⟩ := pair
    rw [readsAs, readRange_first size suffix read]
    cases behind : strtoull (p.dropWhile (· != 0x2d)).tail with
    | none =>
      constructor
      · rintro ⟨first, rest', found, inside, -⟩
        cases found
        simp only
        rw [if_neg (by omega)]
        exact ⟨_, _, rfl⟩
      · rintro ⟨first, last, reads⟩
        simp only at reads
        split at reads
        case isTrue => cases reads
        case isFalse inside => exact ⟨rs, rest, rfl, by omega, by simp⟩
    | some pair =>
      obtain ⟨re, rest''⟩ := pair
      constructor
      · rintro ⟨first, rest', found, inside, below⟩
        cases found
        have inOrder := below re rest'' rfl
        simp only
        rw [if_neg (by omega)]
        exact ⟨_, _, rfl⟩
      · rintro ⟨first, last, reads⟩
        simp only at reads
        split at reads
        case isTrue => cases reads
        case isFalse inside =>
          refine ⟨rs, rest, rfl, by omega, ?_⟩
          intro last' rest' same
          cases same
          omega

/-! ### Entity tags -/

lemma hexadecimal_etagc (member : c ∈ hexadecimal n) : Rfc9110.etagc c := by
  have octet : ∀ d < 16, Rfc9110.etagc (hexOctet d) := by
    unfold Rfc9110.etagc
    decide
  unfold hexadecimal at member
  split at member
  · obtain rfl := mem_singleton.mp member
    exact octet 0 (by omega)
  · obtain ⟨d, digit, rfl⟩ := mem_map.mp member
    exact octet d (Nat.digits_lt_base (by omega) (mem_reverse.mp digit))

lemma tag_etagc (member : c ∈ file.tag) : Rfc9110.etagc c := by
  rcases mem_append.mp member with member | member
  · exact hexadecimal_etagc member
  rcases mem_cons.mp member with rfl | member
  · exact .inr (.inl (by decide))
  · exact hexadecimal_etagc member

lemma tagMatches_etag (file : CachedFile) : TagMatches file.etag file.tag := by
  have listed : Rfc9110.TagList (Rfc9110.entityTag false file.tag ++ []) [(false, file.tag)] :=
    .last (fun c member => tag_etagc member) (by simp)
  rw [append_nil] at listed
  exact .inr ⟨_, false, listed, mem_singleton_self _⟩

/-! ### Requests -/

section Requests
-- `date` is what a field value stands for as an HTTP-date, and `lib` reads it in the server.
variable (lib : DateLibrary) (date : CStr → Option Int) (cacheControl : Option Bytes)

def Unchanged (req : StaticRequest) (file : CachedFile) : Prop :=
  match req.ifNoneMatch with
  | some value => TagMatches value.bytes file.tag
  | none => ∃ value t, req.ifModifiedSince = some value ∧ date value = some t ∧ file.lastMod ≤ t

structure AnswersAs9110 (req : StaticRequest) (file : CachedFile) (res : Response) : Prop where
  unchanged : Unchanged date req file → IsNotModified res
  changed : ¬ Unchanged date req file → res.statusCode ≠ 304
  whole : ¬ Unchanged date req file →
    (req.isHead = true ∨ ∀ value, req.range = some value → ∀ set, ¬ ForBytes value.bytes set) → IsWhole file res
  single : ¬ Unchanged date req file → req.isHead = false → ∀ value set spec, req.range = some value →
    ForBytes value.bytes set → RangeSpec.Text spec set →
      match spec.denotes file.size with
      | some (first, last) => IsPartial file res first last
      | none => IsUnsatisfied file res
  malformed : ¬ Unchanged date req file → req.isHead = false → ∀ value, req.range = some value →
    (∀ set, ForBytes value.bytes set → ¬ RangeSet set) → res.statusCode ≠ 206
  inside : res.statusCode = 206 → ∃ first last, IsPartial file res first last

/-- The server reads a date that is not before the last modification, and not the second before 1970. -/
def NotSince (req : StaticRequest) (file : CachedFile) : Prop :=
  ∃ value, req.ifModifiedSince = some value ∧ parseDate lib value ≠ -1 ∧ file.lastMod ≤ parseDate lib value

structure Regular (req : StaticRequest) (file : CachedFile) : Prop where
  precondition :
    match req.ifNoneMatch with
    | some value => value.bytes ≠ file.etag → (TagMatches value.bytes file.tag ↔ NotSince lib req file)
    | none => ∀ value, req.ifModifiedSince = some value →
      ((parseDate lib value ≠ -1 ∧ file.lastMod ≤ parseDate lib value) ↔ ∃ t, date value = some t ∧ file.lastMod ≤ t)
  head : ¬ Unchanged date req file → req.isHead = true → ∀ value, req.range = some value →
    value.bytes.take 6 ≠ ascii "bytes="
  unit : ¬ Unchanged date req file → req.isHead = false → ∀ value set spec, req.range = some value →
    ForBytes value.bytes set → RangeSpec.Text spec set → value.bytes.take 6 = ascii "bytes="
  malformed : ¬ Unchanged date req file → req.isHead = false → ∀ value set, req.range = some value →
    value.bytes = ascii "bytes=" ++ set → ¬ RangeSet set → ¬ TakenForPart file.size set

variable {lib date cacheControl} {req : StaticRequest}

lemma notModified_iff : notModified lib req file = true ↔
    (∃ value, req.ifNoneMatch = some value ∧ value.bytes = file.etag) ∨ NotSince lib req file := by
  have exactly : req.ifNoneMatch.map CStr.bytes = some file.etag ↔
      ∃ value, req.ifNoneMatch = some value ∧ value.bytes = file.etag := Option.map_eq_some_iff
  unfold notModified NotSince
  split
  case isTrue same => simp [exactly.mp same]
  case isFalse different =>
    rw [← exactly, or_iff_right different]
    cases sent : req.ifModifiedSince with
    | none => simp
    | some value => simp

lemma notModified_iff_unchanged :
    (notModified lib req file = true ↔ Unchanged date req file) ↔
      match req.ifNoneMatch with
      | some value => value.bytes ≠ file.etag → (TagMatches value.bytes file.tag ↔ NotSince lib req file)
      | none => ∀ value, req.ifModifiedSince = some value →
      ((parseDate lib value ≠ -1 ∧ file.lastMod ≤ parseDate lib value) ↔ ∃ t, date value = some t ∧ file.lastMod ≤ t) := by
  rw [notModified_iff]
  cases sent : req.ifNoneMatch with
  | some value =>
    simp only [Unchanged, sent, Option.some.injEq, exists_eq_left']
    by_cases own : value.bytes = file.etag
    · have matched : TagMatches value.bytes file.tag := own ▸ tagMatches_etag file
      simp [own, own ▸ matched]
    · simp only [own, false_or, ne_eq, not_false_eq_true, forall_const]
      exact ⟨Iff.symm, Iff.symm⟩
  | none =>
    simp only [Unchanged, sent, NotSince, reduceCtorEq, false_and, exists_false, false_or]
    cases since : req.ifModifiedSince with
    | none => simp
    | some value => simp

lemma serveFile_eq : serveFile lib cacheControl req file =
    if notModified lib req file then notModifiedResponse cacheControl file
    else
      match req.range with
      | none => wholeFile cacheControl file
      | some value =>
        if value.bytes.take 6 = ascii "bytes=" then
          match readsAs file.size (value.bytes.drop 6) with
          | none => rangeNotSatisfiable file
          | some (first, last) => partialContent cacheControl file first last
        else wholeFile cacheControl file := by
  unfold serveFile readsAs
  split
  case isTrue => rfl
  case isFalse =>
  cases req.range with
  | none => rfl
  | some value =>
    simp only
    split
    case isFalse => rfl
    case isTrue =>
    cases readRange file.size (value.bytes.drop 6) with
    | none => rfl
    | some pair =>
      simp only
      split <;> rfl

lemma forBytes_take {set : Bytes} (spelled : value.take 6 = ascii "bytes=") :
    ForBytes value set ↔ set = value.drop 6 := by
  have whole : value = ascii "bytes" ++ 0x3d :: value.drop 6 := by
    conv_lhs => rw [← take_append_drop 6 value, spelled]
    rfl
  constructor
  · rintro ⟨unit, same, rfl⟩
    have five : unit.length = 5 := by
      have lengths := congrArg length (beq_iff_eq.mp same)
      rw [length_map] at lengths
      exact lengths
    have behind : (unit ++ 0x3d :: set).drop (unit.length + 1) = set := by simp [drop_append]
    rwa [five, eq_comm] at behind
  · rintro rfl
    exact ⟨ascii "bytes", by decide, whole⟩

variable (cacheControl) in
lemma changed_cases (fresh : ¬ notModified lib req file = true) :
    (∃ value, req.range = some value ∧ value.bytes.take 6 = ascii "bytes=" ∧
        (readsAs file.size (value.bytes.drop 6) = none ∧
            serveFile lib cacheControl req file = rangeNotSatisfiable file ∨
          ∃ first last, readsAs file.size (value.bytes.drop 6) = some (first, last) ∧
            serveFile lib cacheControl req file = partialContent cacheControl file first last)) ∨
      (∀ value, req.range = some value → value.bytes.take 6 ≠ ascii "bytes=") ∧
        serveFile lib cacheControl req file = wholeFile cacheControl file := by
  rw [serveFile_eq, if_neg fresh]
  cases sent : req.range with
  | none => exact .inr ⟨by simp, rfl⟩
  | some value =>
    by_cases spelled : value.bytes.take 6 = ascii "bytes="
    · left
      refine ⟨value, rfl, spelled, ?_⟩
      simp only [spelled, if_true]
      cases reads : readsAs file.size (value.bytes.drop 6) with
      | none => exact .inl ⟨rfl, rfl⟩
      | some pair => exact .inr ⟨pair.1, pair.2, rfl, rfl⟩
    · right
      refine ⟨?_, if_neg spelled⟩
      intro value' same
      cases same
      exact spelled

lemma Regular.answers (regular : Regular lib date req file) :
    AnswersAs9110 date req file (serveFile lib cacheControl req file) := by
  have governs := notModified_iff_unchanged.mpr regular.precondition
  by_cases unchanged : Unchanged date req file
  · have answer : serveFile lib cacheControl req file = notModifiedResponse cacheControl file := by
      rw [serveFile_eq, if_pos (governs.mpr unchanged)]
    have spec := notModifiedResponse_spec cacheControl file
    rw [answer]
    refine ⟨fun _ => spec, fun not => absurd unchanged not, fun not => absurd unchanged not, fun not => absurd unchanged not,
      fun not => absurd unchanged not, ?_⟩
    intro status
    exact absurd (status.symm.trans spec.1) (by decide)
  have fresh : ¬ notModified lib req file = true := fun same => unchanged (governs.mp same)
  rcases changed_cases cacheControl fresh with ⟨value, sent, spelled, answer⟩ | ⟨notSpelled, answer⟩
  · have get : req.isHead = false := by
      by_contra head
      exact regular.head unchanged (by simpa using head) value sent spelled
    have notOther : ¬ (req.isHead = true ∨ ∀ value, req.range = some value → ∀ set, ¬ ForBytes value.bytes set) := by
      rintro (head | other)
      · exact Bool.false_ne_true (get.symm.trans head)
      · exact other value sent _ ((forBytes_take spelled).mpr rfl)
    have own {value' : CStr} {set : Bytes} (sent' : req.range = some value') (forBytes : ForBytes value'.bytes set) :
        set = value.bytes.drop 6 := by
      cases sent.symm.trans sent'
      exact (forBytes_take spelled).mp forBytes
    rcases answer with ⟨reads, answer⟩ | ⟨first, last, reads, answer⟩
    · have spec := rangeNotSatisfiable_spec file
      rw [answer]
      refine ⟨fun same => absurd same unchanged, fun _ => by rw [spec.status]; decide, fun _ other => absurd other notOther, ?_,
        fun _ _ _ _ _ => by rw [spec.status]; decide, fun status => absurd (status.symm.trans spec.status) (by decide)⟩
      intro _ _ value' set spec' sent' forBytes text
      rw [own sent' forBytes] at text
      rw [← readsAs_text file.size_small text, reads]
      exact spec
    obtain ⟨inOrder, inside⟩ := readsAs_inside reads
    have spec := partialContent_spec cacheControl inOrder inside
    rw [answer]
    refine ⟨fun same => absurd same unchanged, fun _ => by rw [spec.status]; decide, fun _ other => absurd other notOther, ?_,
      ?_, fun _ => ⟨first, last, spec⟩⟩
    · intro _ _ value' set spec' sent' forBytes text
      rw [own sent' forBytes] at text
      rw [← readsAs_text file.size_small text, reads]
      exact spec
    · intro _ _ value' sent' malformed
      cases sent.symm.trans sent'
      have notSet := malformed _ ((forBytes_take spelled).mpr rfl)
      have whole : value.bytes = ascii "bytes=" ++ value.bytes.drop 6 := by
        rw [← spelled, take_append_drop]
      exact absurd ((takenForPart_iff file.size_small).mpr ⟨first, last, reads⟩)
        (regular.malformed unchanged get value _ sent whole notSet)
  · have spec := wholeFile_spec cacheControl file
    rw [answer]
    refine ⟨fun same => absurd same unchanged, fun _ => by rw [spec.status]; decide, fun _ _ => spec, ?_,
      fun _ _ _ _ _ => by rw [spec.status]; decide, fun status => absurd (status.symm.trans spec.status) (by decide)⟩
    intro _ get value set spec' sent forBytes text
    exact absurd (regular.unit unchanged get value set spec' sent forBytes text) (notSpelled value sent)

lemma AnswersAs9110.regular (answers : AnswersAs9110 date req file (serveFile lib cacheControl req file)) :
    Regular lib date req file := by
  have governs : notModified lib req file = true ↔ Unchanged date req file := by
    constructor
    · intro same
      by_contra changed
      apply answers.changed changed
      rw [serveFile_eq, if_pos same]
      rfl
    · intro unchanged
      by_contra fresh
      have status := (answers.unchanged unchanged).1
      rcases changed_cases cacheControl fresh with ⟨_, _, _, ⟨_, answer⟩ | ⟨_, _, _, answer⟩⟩ | ⟨_, answer⟩
      all_goals
        rw [answer] at status
        simp at status
  have fresh (changed : ¬ Unchanged date req file) : ¬ notModified lib req file = true := fun same => changed (governs.mp same)
  refine ⟨notModified_iff_unchanged.mp governs, ?_, ?_, ?_⟩
  · intro changed head value sent spelled
    have status := (answers.whole changed (.inl head)).status
    rcases changed_cases cacheControl (fresh changed) with
      ⟨_, _, _, ⟨_, answer⟩ | ⟨_, _, _, answer⟩⟩ | ⟨notSpelled, -⟩
    · rw [answer] at status
      simp at status
    · rw [answer] at status
      simp at status
    · exact notSpelled value sent spelled
  · intro changed get value set spec sent forBytes text
    by_contra notSpelled
    have asked := answers.single changed get value set spec sent forBytes text
    rcases changed_cases cacheControl (fresh changed) with ⟨value', sent', spelled, -⟩ | ⟨-, answer⟩
    · cases sent.symm.trans sent'
      exact notSpelled spelled
    rw [answer] at asked
    split at asked
    · simpa using asked.status
    · simpa using asked.status
  · intro changed get value set sent whole notSet taken
    obtain ⟨first, last, reads⟩ := (takenForPart_iff file.size_small).mp taken
    have spelled : value.bytes.take 6 = ascii "bytes=" := by
      rw [whole]
      rfl
    have behind : value.bytes.drop 6 = set := by
      rw [whole]
      rfl
    have refused := answers.malformed changed get value sent (by
      intro set' forBytes
      rw [(forBytes_take spelled).mp forBytes, behind]
      exact notSet)
    rcases changed_cases cacheControl (fresh changed) with
      ⟨value', sent', -, ⟨nothing, -⟩ | ⟨_, _, -, answer⟩⟩ | ⟨notSpelled, -⟩
    · cases sent.symm.trans sent'
      rw [behind] at nothing
      exact absurd (nothing.symm.trans reads) (by simp)
    · exact refused (by rw [answer]; rfl)
    · exact notSpelled value sent spelled

end Requests

/-- The answer to a GET or HEAD of a cached file is the one of RFC 9110 exactly for the regular requests: the tag decides
as the date that the server falls back to, the server and the RFC read the date alike, and no text that is not a range
is taken for one. -/
theorem serveFile_answers_iff (lib : DateLibrary) (date : CStr → Option Int) (cacheControl : Option Bytes)
    (req : StaticRequest) (file : CachedFile) :
    AnswersAs9110 date req file (serveFile lib cacheControl req file) ↔ Regular lib date req file :=
  ⟨AnswersAs9110.regular, Regular.answers⟩

def oneOctet : CachedFile := ⟨.ofBytes (ascii "/srv/a"), ascii "x", 0, ascii "Thu, 01 Jan 1970 00:00:00 GMT", by decide⟩

def foreignTag : StaticRequest :=
  ⟨false, some (.ofBytes (ascii "\"a\"")), some (.ofBytes (ascii "Thu, 01 Jan 1970 00:00:00 GMT")), none⟩

def bareNumber : StaticRequest := ⟨false, none, none, some (.ofBytes (ascii "bytes=0"))⟩

lemma dash_of_rangeSet (valid : RangeSet s) : 0x2d ∈ s := by
  have ofText {spec : RangeSpec} {s : Bytes} (text : spec.Text s) : 0x2d ∈ s := by
    cases text <;> simp
  cases valid with
  | one text => exact ofText text
  | more text => simp [ofText text]

lemma not_tagMatches_foreign : ¬ TagMatches (ascii "\"a\"") oneOctet.tag := by
  have own : oneOctet.tag = ascii "0-1" := by decide +kernel
  rw [own]
  rintro (star | ⟨tags, weak, listed, member⟩)
  · exact absurd star (by decide)
  generalize text : ascii "\"a\"" = value at listed
  cases listed with
  | nil => exact absurd text (by decide)
  | skip separator _ =>
    obtain ⟨rfl, -⟩ := cons.inj (show (0x22 : UInt8) :: [0x61, 0x22] = _ from text)
    revert separator
    unfold Rfc9110.blank
    decide
  | @last weak' octets ows plain _ =>
    obtain ⟨-, rfl⟩ := Prod.mk.inj (mem_singleton.mp member)
    have lengths := congrArg length text
    have short : (ascii "\"a\"").length = 3 := by decide
    have long : (ascii "0-1").length = 3 := by decide
    simp only [Rfc9110.entityTag, length_append, length_cons, length_nil, short, long] at lengths
    omega
  | @cons weak' octets ows rest tags plain _ _ =>
    have comma : (0x2c : UInt8) ∈ ascii "\"a\"" := by
      rw [text]
      simp
    exact absurd comma (by decide)

/-- A library that takes any word for `%Z`, as glibc does, and knows two days. -/
def anyZone : DateLibrary where
  Tm := Bytes
  zero := []
  strptime text format _ := (format = ascii "%a, %d %b %Y %H:%M:%S %Z", text.bytes.take 25)
  timegm tm := if tm = ascii "Thu, 01 Jan 1970 00:00:00" then 0 else 2114380800

def easternTime : StaticRequest := ⟨false, none, some (.ofBytes (ascii "Thu, 01 Jan 2037 00:00:00 EST")), none⟩

theorem foreign_tag_and_bare_number :
    ¬ AnswersAs9110 (fun _ => some 0) foreignTag oneOctet (serveFile anyZone none foreignTag oneOctet) ∧
      ¬ AnswersAs9110 (fun _ => none) easternTime oneOctet (serveFile anyZone none easternTime oneOctet) ∧
      ¬ AnswersAs9110 (fun _ => none) bareNumber oneOctet (serveFile anyZone none bareNumber oneOctet) := by
  refine ⟨?_, ?_, ?_⟩ <;> intro answers
  · have governs : (CStr.ofBytes (ascii "\"a\"")).bytes ≠ oneOctet.etag →
        (TagMatches (CStr.ofBytes (ascii "\"a\"")).bytes oneOctet.tag ↔ NotSince anyZone foreignTag oneOctet) :=
      answers.regular.precondition
    have matched := (governs (by decide +kernel)).mpr ⟨_, rfl, by decide +kernel, by decide +kernel⟩
    exact not_tagMatches_foreign matched
  · obtain ⟨t, isDate, -⟩ := (answers.regular.precondition _ rfl).mp ⟨by decide +kernel, by decide +kernel⟩
    cases isDate
  · have unread := answers.regular.malformed (by simp [Unchanged, bareNumber]) rfl _ (ascii "0") rfl (by decide)
      (fun valid => absurd (dash_of_rangeSet valid) (by decide))
    apply unread
    exact ⟨0, [], by decide, by decide, fun _ _ _ => Nat.zero_le _⟩

end Cwist.App
