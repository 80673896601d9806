import Cwist.Http.Parse

/-!
# The framing of a request

RFC 9112 says how the lines of the header section are read and what they say about the body.
-/

namespace Cwist.Rfc9112
open Cwist.Http Delimit

def lines (text : Bytes) : List Bytes :=
  match _found : cut crlf text with
  | none => []
  | some (line, after) => line :: lines after
termination_by text.length
decreasing_by have := cut_crlf_length _found; omega

def headerSection (raw : Bytes) : Option (Bytes × List Bytes) :=
  match cut crlfcrlf raw with
  | none => none
  | some (block, _) =>
    match lines (block ++ crlf) with
    | [] => none
    | first :: rest => some (first, rest)

def fieldLine (line : Bytes) : Option (Bytes × Bytes) :=
  if line.head?.any isBlank ∨ 0x0d ∈ line ∨ 0x0a ∈ line then none
  else
    match cut [0x3a] line with
    | none => none
    | some (name, value) => if name.getLast?.any isBlank then none else some (name, value)

def trim (value : Bytes) : Bytes := (value.dropWhile isBlank).rdropWhile isBlank

def named (name : Bytes) (fields : List (Bytes × Bytes)) : List Bytes :=
  (fields.filter fun (key, _) => caseEq key name).map Prod.snd

def isDigit (c : UInt8) : Bool := 0x30 ≤ c && c ≤ 0x39

def lengthValue (value : Bytes) : Option Nat :=
  if value ≠ [] ∧ value.all isDigit then some (value.foldl (fun n c => n * 10 + (c.toNat - 0x30)) 0) else none

def elements (value : Bytes) : List Bytes :=
  match _found : cut [0x2c] value with
  | none => [value]
  | some (first, after) => first :: elements after
termination_by value.length
decreasing_by have := cut_length _found; simp at this; omega

def transferCodings (value : Bytes) : List Bytes := ((elements value).map trim).filter (· ≠ [])

inductive Framing where
  | chunked
  | length (n : Nat)
  deriving DecidableEq

def framing (version : Bytes) (fields : List (Bytes × Bytes)) : Option Framing :=
  match named (ascii "Transfer-Encoding") fields, named (ascii "Content-Length") fields with
  | [], [] => some (.length 0)
  | [], value :: values =>
    match lengthValue (trim value) with
    | none => none
    | some n => if ∀ other ∈ values, lengthValue (trim other) = some n then some (.length n) else none
  | codes :: more, [] =>
    match (codes :: more).flatMap transferCodings with
    | [coding] => if version = ascii "HTTP/1.1" ∧ caseEq coding (ascii "chunked") then some .chunked else none
    | _ => none
  | _ :: _, _ :: _ => none

end Cwist.Rfc9112

namespace Cwist.Http
open Delimit Rfc9112 List HeaderPass

def WireRequest.framing (req : WireRequest) : Framing :=
  if req.teChunkedSeen then .chunked else .length req.contentLength

/-- Every line of the header section is a field and every field is a header of the request; the fields give exactly one
framing, which is the request's; and a request of HTTP/1.1 has one host. -/
def Unambiguous (raw : Bytes) (req : WireRequest) : Prop :=
  ∃ first text fields, headerSection raw = some (first, text) ∧ text.mapM fieldLine = some fields ∧
    (req.headers.reverse.map fun (name, value) => (name, trim value)) =
      (fields.map fun (name, value) => (name, trim value)) ∧
    Rfc9112.framing req.version fields = some req.framing ∧
    (req.version = ascii "HTTP/1.1" → ∃ host, named (ascii "Host") fields = [host] ∧ trim host ≠ [])

/-- What the parser does not look at: lines that are no field lines, and how often and up to where the coding is named,
and in which version. -/
def Overlooked (raw : Bytes) (req : WireRequest) : Prop :=
  ∃ first text, headerSection raw = some (first, text) ∧
    ((∃ line ∈ text, 0x3a ∉ line ∨ line.head?.any isBlank ∨ 0x0d ∈ line ∨ 0x0a ∈ line) ∨
      req.teChunkedSeen ∧
        (req.version ≠ ascii "HTTP/1.1" ∨
          ∀ coding, 0 ∉ coding →
            (named (ascii "Transfer-Encoding") (text.filterMap fieldLine)).flatMap transferCodings ≠ [coding]))

/-! ### The lines -/

lemma lines_of_none {text : Bytes} (missing : cut crlf text = none) : lines text = [] := by
  rw [lines]
  split
  · rfl
  next found =>
    rw [missing] at found
    cases found

lemma lines_of_cut {text line after : Bytes} (found : cut crlf text = some (line, after)) :
    lines text = line :: lines after := by
  rw [lines]
  split
  next missing =>
    rw [found] at missing
    cases missing
  next here =>
    rw [found] at here
    cases here
    rfl

lemma solid_line {text line after : Bytes} (solid : cut crlfcrlf (crlf ++ text) = none)
    (found : cut crlf text = some (line, after)) : line ≠ [] ∧ cut crlfcrlf (crlf ++ after) = none := by
  rw [eq_of_cut found] at solid
  constructor
  · rintro rfl
    simp [crlf, crlfcrlf, cut] at solid
  · rw [append_assoc, ← append_assoc crlf line] at solid
    exact cut_none_of_suffix solid

lemma HeaderPass.loop_eq (pass : HeaderPass) {text : Bytes} (solid : cut crlfcrlf (crlf ++ text) = none) :
    pass.loop text = (lines text).foldlM line pass := by
  fun_induction loop pass text with
  | case1 pass text short =>
    cases found : cut crlf text with
    | none => rw [lines_of_none found]; rfl
    | some pieces =>
      have := cut_crlf_length found
      have := length_pos_iff.mpr (solid_line solid found).1
      omega
  | case2 pass text long missing =>
    rw [lines_of_none missing]
    rfl
  | case3 pass text long after found => exact absurd rfl (solid_line solid found).1
  | case4 pass text long line after other found ih =>
    rw [lines_of_cut found]
    exact Option.bind_congr fun next _ => ih next (solid_line solid found).2

def headerOf (line : Bytes) : Option (Bytes × Bytes) :=
  (cut [0x3a] line).map fun (key, after) => (key, after.dropWhile (· == 0x20))

def HeaderPass.add (pass : HeaderPass) (header : Bytes × Bytes) : HeaderPass :=
  see header.1 header.2 { pass with headers := header :: pass.headers }

lemma HeaderPass.lines_eq {text : List Bytes} {pass result : HeaderPass} (done : text.foldlM line pass = some result) :
    result = (text.filterMap headerOf).foldl add pass ∧
      ∀ line ∈ text, ∀ key after, cut [0x3a] line = some (key, after) → ¬key.getLast?.any isBlank := by
  induction text generalizing pass with
  | nil => exact ⟨(Option.some.inj done).symm, by simp⟩
  | cons line text ih =>
    obtain ⟨next, step, done⟩ := Option.bind_eq_some_iff.mp done
    obtain ⟨same, names⟩ := ih done
    unfold HeaderPass.line at step
    split at step
    next missing =>
      cases step
      rw [filterMap_cons_none (by rw [headerOf, missing]; rfl)]
      refine ⟨same, forall_mem_cons.mpr ⟨fun key after found => ?_, names⟩⟩
      rw [missing] at found
      cases found
    next key after found =>
      split at step
      · cases step
      rename_i clean
      cases step
      rw [filterMap_cons_some (by rw [headerOf, found]; rfl)]
      refine ⟨same, forall_mem_cons.mpr ⟨fun key' after' found' => ?_, names⟩⟩
      rw [found] at found'
      cases found'
      exact clean

/-! ### What the pass has seen -/

lemma caseEq_length {a b : Bytes} (same : caseEq a b) : a.length = b.length := by
  have := congrArg length (eq_of_beq same)
  simpa using this

namespace HeaderPass

section
variable (value : Bytes) (pass : HeaderPass)
include value pass

lemma see_contentLength {key : Bytes} (same : caseEq key (ascii "Content-Length")) :
    pass.see key value = pass.seeContentLength value := by
  have size : key.length = 14 := caseEq_length same
  simp [see, size, same]

lemma see_host {key : Bytes} (same : caseEq key (ascii "Host")) : pass.see key value = pass.seeHost value := by
  have size : key.length = 4 := caseEq_length same
  simp [see, size, same]

lemma see_transferEncoding {key : Bytes}
    (same : caseEq key (ascii "Transfer-Encoding")) : pass.see key value = { pass with teSeen := true } := by
  have size : key.length = 17 := caseEq_length same
  simp [see, size, same]

lemma see_other {key : Bytes} (length : ¬caseEq key (ascii "Content-Length"))
    (host : ¬caseEq key (ascii "Host")) (te : ¬caseEq key (ascii "Transfer-Encoding")) :
    ∃ keepAlive expect100 expectBad, pass.see key value =
      { pass with keepAlive := keepAlive, expect100 := expect100, expectBad := expectBad } := by
  unfold see seeConnection seeExpect
  split_ifs <;> first | contradiction | exact ⟨_, _, _, rfl⟩

end

structure Sees (fields : List (Bytes × Bytes)) (pass : HeaderPass) : Prop where
  kept : pass.headers = fields.reverse
  te : pass.teSeen ↔ named (ascii "Transfer-Encoding") fields ≠ []
  host : pass.hasHost ↔ named (ascii "Host") fields ≠ []
  hostDup : pass.hostDup = false → (named (ascii "Host") fields).length ≤ 1
  hostEmpty : pass.hostEmpty = false → ∀ value ∈ named (ascii "Host") fields, value.rdropWhile isBlank ≠ []
  clSeen : pass.clBad = false → (pass.clSeen ↔ named (ascii "Content-Length") fields ≠ [])
  clValue : pass.clBad = false → pass.clValue = pass.contentLength
  clSame : pass.clBad = false → ∀ value ∈ named (ascii "Content-Length") fields,
    parseContentLength (value.rdropWhile isBlank) = some pass.contentLength
  clNone : named (ascii "Content-Length") fields = [] → pass.contentLength = 0

lemma Sees.init (keepAlive : Bool) : Sees [] (init keepAlive) := by
  constructor <;> simp [HeaderPass.init, named]

lemma named_concat (name key value : Bytes) (headers : List (Bytes × Bytes)) :
    named name (headers ++ [(key, value)]) = named name headers ++ if caseEq key name then [value] else [] := by
  unfold named
  split_ifs with same <;> simp [same]

lemma caseEq_disjoint {key a : Bytes} (b : Bytes) (same : caseEq key a) (other : a.length ≠ b.length) :
    ¬caseEq key b := by
  intro both
  have := caseEq_length same
  have := caseEq_length both
  omega

lemma named_concat_of_eq {name key : Bytes} (value : Bytes) (fields : List (Bytes × Bytes)) (same : caseEq key name) :
    named name (fields ++ [(key, value)]) = named name fields ++ [value] := by
  rw [named_concat, if_pos same]

lemma named_concat_of_ne {name key : Bytes} (value : Bytes) (fields : List (Bytes × Bytes)) (other : ¬caseEq key name) :
    named name (fields ++ [(key, value)]) = named name fields := by
  rw [named_concat, if_neg other, append_nil]

lemma Sees.add {fields : List (Bytes × Bytes)} {pass : HeaderPass} (sees : Sees fields pass) (key value : Bytes) :
    Sees (fields ++ [(key, value)]) (pass.add (key, value)) := by
  have kept : (key, value) :: pass.headers = (fields ++ [(key, value)]).reverse := by rw [sees.kept]; simp
  unfold HeaderPass.add
  by_cases length : caseEq key (ascii "Content-Length")
  · have host := named_concat_of_ne value fields (caseEq_disjoint (ascii "Host") length (by decide))
    have te := named_concat_of_ne value fields (caseEq_disjoint (ascii "Transfer-Encoding") length (by decide))
    have this := named_concat_of_eq value fields length
    rw [see_contentLength _ _ length]
    unfold seeContentLength
    split
    · exact ⟨kept, te ▸ sees.te, host ▸ sees.host, host ▸ sees.hostDup, host ▸ sees.hostEmpty, nofun, nofun, nofun,
        by simp [this]⟩
    rename_i len parsed
    refine ⟨kept, te ▸ sees.te, host ▸ sees.host, host ▸ sees.hostDup, host ▸ sees.hostEmpty, fun _ => by simp [this],
      fun _ => rfl, fun good other member => ?_, by simp [this]⟩
    simp only [Bool.or_eq_false_iff, Bool.and_eq_false_iff, bne_eq_false_iff_eq] at good
    rw [this] at member
    rcases mem_append.mp member with before | last
    · have seen := (sees.clSeen good.1).mpr (ne_nil_of_mem before)
      rcases good.2 with unseen | same
      · rw [unseen] at seen
        cases seen
      · rw [sees.clSame good.1 other before, ← sees.clValue good.1, same]
    · rw [mem_singleton.mp last, parsed]
  by_cases host : caseEq key (ascii "Host")
  · have te := named_concat_of_ne value fields (caseEq_disjoint (ascii "Transfer-Encoding") host (by decide))
    have length := named_concat_of_ne value fields length
    have this := named_concat_of_eq value fields host
    rw [see_host _ _ host]
    refine ⟨kept, te ▸ sees.te, by simp [seeHost, this], fun single => ?_, fun full other member => ?_, length ▸ sees.clSeen,
      sees.clValue, length ▸ sees.clSame, length ▸ sees.clNone⟩
    · have first : ¬pass.hasHost := by simp_all [seeHost]
      have none := not_not.mp (mt sees.host.mpr first)
      rw [this, none]
      simp
    · simp only [seeHost, Bool.or_eq_false_iff] at full
      rw [this] at member
      rcases mem_append.mp member with before | last
      · exact sees.hostEmpty full.1 other before
      · rw [mem_singleton.mp last]
        simpa using full.2
  have length := named_concat_of_ne value fields length
  have hostSame := named_concat_of_ne value fields host
  by_cases te : caseEq key (ascii "Transfer-Encoding")
  · have this := named_concat_of_eq value fields te
    rw [see_transferEncoding _ _ te]
    exact ⟨kept, by simp [this], hostSame ▸ sees.host, hostSame ▸ sees.hostDup, hostSame ▸ sees.hostEmpty,
      length ▸ sees.clSeen, sees.clValue, length ▸ sees.clSame, length ▸ sees.clNone⟩
  · have this := named_concat_of_ne value fields te
    obtain ⟨keepAlive, expect100, expectBad, same⟩ := see_other value { pass with headers := (key, value) :: pass.headers }
      (by assumption) host te
    rw [same]
    exact ⟨kept, this ▸ sees.te, hostSame ▸ sees.host, hostSame ▸ sees.hostDup, hostSame ▸ sees.hostEmpty,
      length ▸ sees.clSeen, sees.clValue, length ▸ sees.clSame, length ▸ sees.clNone⟩

lemma Sees.foldl {pass : HeaderPass} {before : List (Bytes × Bytes)} (sees : Sees before pass)
    (fields : List (Bytes × Bytes)) : Sees (before ++ fields) (fields.foldl HeaderPass.add pass) := by
  induction fields generalizing pass before with
  | nil => simpa using sees
  | cons field fields ih => simpa using ih (sees.add field.1 field.2)

end HeaderPass

/-! ### The values -/

variable {line value : Bytes} {c : UInt8} {n : Nat} {fields : List (Bytes × Bytes)}

lemma elements_of_none (missing : cut [0x2c] value = none) : elements value = [value] := by
  rw [elements]
  split
  · rfl
  next found =>
    rw [missing] at found
    cases found

lemma elements_of_cut {first after : Bytes} (found : cut [0x2c] value = some (first, after)) :
    elements value = first :: elements after := by
  rw [elements]
  split
  next missing =>
    rw [found] at missing
    cases missing
  next here =>
    rw [found] at here
    cases here
    rfl

lemma transferCodings_separator (value : Bytes) (separates : isBlank c || c == 0x2c) :
    transferCodings (c :: value) = transferCodings value := by
  by_cases comma : c = 0x2c
  · subst comma
    have found : cut [0x2c] (0x2c :: value) = some ([], value) := by simp [cut]
    rw [transferCodings, elements_of_cut found]
    rfl
  have blank : isBlank c := by simpa [comma] using separates
  have cutSame : cut [0x2c] (c :: value) = (cut [0x2c] value).map fun (before, after) => (c :: before, after) :=
    cut_cons_of_not_front c (by simpa [eq_comm] using comma)
  have trimSame : ∀ text, trim (c :: text) = trim text := fun text => by simp [trim, blank]
  cases found : cut [0x2c] value with rw [found] at cutSame
  | none =>
    rw [transferCodings, transferCodings, elements_of_none cutSame, elements_of_none found]
    simp [trimSame]
  | some pieces =>
    rw [transferCodings, transferCodings, elements_of_cut cutSame, elements_of_cut found]
    simp [trimSame]

lemma transferCodings_dropWhile (p : UInt8 → Bool) (separates : ∀ c, p c → isBlank c || c == 0x2c) (value : Bytes) :
    transferCodings (value.dropWhile p) = transferCodings value := by
  induction value with
  | nil => rfl
  | cons c value ih =>
    rw [dropWhile_cons]
    split
    next skipped => rw [ih, transferCodings_separator value (separates c skipped)]
    · rfl

lemma cut_comma (value : Bytes) :
    cut [0x2c] value = if 0x2c ∈ value then some (value.takeWhile (· != 0x2c), (value.dropWhile (· != 0x2c)).drop 1) else none := by
  induction value with
  | nil => rfl
  | cons c value ih =>
    by_cases comma : c = 0x2c
    · subst comma
      simp [cut]
    · rw [cut_cons_of_not_front c (by simpa [eq_comm] using comma), ih]
      have : ¬(0x2c = c) := fun same => comma same.symm
      by_cases later : 0x2c ∈ value <;> simp [later, comma, this]

lemma transferCodings_nil : transferCodings [] = [] := by
  rw [transferCodings, elements_of_none rfl]
  rfl

lemma transferCodings_token (begins : value.dropWhile isBlank = value) : transferCodings value =
      (if (value.takeWhile (· != 0x2c)).rdropWhile isBlank = [] then [] else [(value.takeWhile (· != 0x2c)).rdropWhile isBlank])
        ++ transferCodings ((value.dropWhile (· != 0x2c)).drop 1) := by
  have begins' : ∀ text, text <+: value → text.dropWhile isBlank = text := by
    rintro text ⟨more, rfl⟩
    cases text with
    | nil => rfl
    | cons c text =>
      have first : ¬isBlank c := by
        intro blank
        have shorter := (dropWhile_suffix isBlank (l := text ++ more)).length_le
        rw [cons_append, dropWhile_cons_of_pos blank] at begins
        rw [begins, length_cons] at shorter
        omega
      rw [dropWhile_cons_of_neg first]
  have found := cut_comma value
  split at found
  · rw [transferCodings, elements_of_cut found, map_cons, filter_cons, trim, begins' _ (List.takeWhile_prefix _)]
    split_ifs <;> first | rfl | simp_all
  rename_i missing
  have whole : value.takeWhile (· != 0x2c) = value :=
    takeWhile_eq_self_iff.mpr fun c member => by simpa using fun same : c = 0x2c => missing (same ▸ member)
  have behind : value.dropWhile (· != 0x2c) = [] :=
    dropWhile_eq_nil_iff.mpr fun c member => by simpa using fun same : c = 0x2c => missing (same ▸ member)
  rw [whole, behind, drop_nil, transferCodings_nil, transferCodings, elements_of_none found, map_singleton, trim, begins]
  split_ifs <;> simp_all

lemma dropWhile_separators (value : Bytes) :
    (value.dropWhile fun c => isBlank c || c == 0x2c).dropWhile isBlank = value.dropWhile fun c => isBlank c || c == 0x2c := by
  have first := head?_dropWhile_not (fun c => isBlank c || c == 0x2c) value
  cases start : value.dropWhile fun c => isBlank c || c == 0x2c with
  | nil => rfl
  | cons c rest =>
    rw [start] at first
    have token : ¬isBlank c := fun blank => by simp [blank] at first
    rw [dropWhile_cons_of_neg token]

lemma codings_eq (value : Bytes) : codings value = transferCodings value := by
  fun_induction codings value with
  | case1 => exact transferCodings_nil.symm
  | case2 c rest start token next empty ih =>
    rw [ih, ← transferCodings_dropWhile (fun c => isBlank c || c == 0x2c) (fun _ => id) (c :: rest),
      transferCodings_token (dropWhile_separators _), if_pos empty, nil_append]
  | case3 c rest start token next nonempty ih =>
    rw [ih, ← transferCodings_dropWhile (fun c => isBlank c || c == 0x2c) (fun _ => id) (c :: rest),
      transferCodings_token (dropWhile_separators _), if_neg nonempty]
    rfl

section
variable (member : c ∈ value) (blank : ¬isBlank c)
include member blank

lemma mem_dropWhile : c ∈ value.dropWhile isBlank := by
  rw [← takeWhile_append_dropWhile (p := isBlank) (l := value)] at member
  rcases mem_append.mp member with skipped | kept
  · exact absurd (mem_takeWhile_imp skipped) blank
  · exact kept

lemma mem_trim : c ∈ trim value := by
  rw [trim, rdropWhile, mem_reverse]
  exact mem_dropWhile (mem_reverse.mpr (mem_dropWhile member blank)) blank

lemma mem_transferCodings (comma : c ≠ 0x2c) : ∃ coding ∈ transferCodings value, c ∈ coding := by
  have inside : ∃ element ∈ elements value, c ∈ element := by
    fun_induction elements value with
    | case1 value missing => exact ⟨value, mem_singleton_self value, member⟩
    | case2 value first after found ih =>
      rw [eq_of_cut found, append_assoc, mem_append, singleton_append, mem_cons] at member
      rcases member with here | same | later
      · exact ⟨first, mem_cons_self, here⟩
      · exact absurd same comma
      · obtain ⟨element, listed, here⟩ := ih later
        exact ⟨element, mem_cons_of_mem _ listed, here⟩
  obtain ⟨element, listed, here⟩ := inside
  have here' := mem_trim here blank
  exact ⟨trim element, by simpa [transferCodings] using ⟨⟨element, listed, rfl⟩, ne_nil_of_mem here'⟩, here'⟩

end

/-! ### Numbers -/

lemma parseContentLength_digits {start : Nat}
    (parsed : value.foldlM (fun len c =>
      if 0x30 ≤ c ∧ c ≤ 0x39 then
        if len > (2 ^ 64 - 1 - 9) / 10 then none else some (len * 10 + (c.toNat - 0x30))
      else none) start = some n) :
    value.all isDigit ∧ value.foldl (fun n c => n * 10 + (c.toNat - 0x30)) start = n := by
  induction value generalizing start with
  | nil => exact ⟨rfl, Option.some.inj parsed⟩
  | cons c value ih =>
    rw [foldlM_cons] at parsed
    obtain ⟨next, step, parsed⟩ := Option.bind_eq_some_iff.mp parsed
    split_ifs at step with digit large
    cases step
    obtain ⟨digits, same⟩ := ih parsed
    exact ⟨by simp [isDigit, digit, digits], same⟩

lemma lengthValue_trim (parsed : parseContentLength (value.rdropWhile isBlank) = some n) :
    lengthValue (trim value) = some n := by
  unfold parseContentLength at parsed
  split at parsed
  · cases parsed
  rename_i nonempty
  obtain ⟨digits, same⟩ := parseContentLength_digits parsed
  have begins : value.dropWhile isBlank = value := by
    cases value with
    | nil => rfl
    | cons c rest =>
      obtain ⟨first, more, whole⟩ := exists_cons_of_ne_nil nonempty
      obtain ⟨behind, split⟩ := List.rdropWhile_prefix isBlank (l := c :: rest)
      rw [whole] at split
      cases split
      rw [whole, all_cons, Bool.and_eq_true] at digits
      have token : ¬isBlank c := by
        intro blank
        have digit := digits.1
        simp only [isBlank, Bool.or_eq_true, beq_iff_eq] at blank
        rcases blank with rfl | rfl <;> exact absurd digit (by decide)
      rw [dropWhile_cons_of_neg token]
  rw [trim, begins, lengthValue, if_pos ⟨nonempty, digits⟩, same]

lemma trim_ne_nil (full : value.rdropWhile isBlank ≠ []) : trim value ≠ [] := by
  intro empty
  have blanks : ∀ c ∈ value, isBlank c := by
    intro c member
    by_contra token
    exact not_mem_nil (empty ▸ mem_trim member token)
  exact full (rdropWhile_eq_nil_iff.mpr blanks)

/-! ### Accepted requests -/

lemma validateTransferEncoding_ok {headers : List (Bytes × Bytes)} (valid : validateTransferEncoding headers = .ok ())
    {key : Bytes} (member : (key, value) ∈ headers)
    (named : caseEq (CStr.ofBytes key).bytes (ascii "Transfer-Encoding")) :
    ∀ coding ∈ codings (CStr.ofBytes value).bytes, caseEq coding (ascii "chunked") := by
  have listed : codings (CStr.ofBytes value).bytes ∈
      (headers.filter fun (key, _) => caseEq (CStr.ofBytes key).bytes (ascii "Transfer-Encoding")).map
        fun (_, value) => codings (CStr.ofBytes value).bytes :=
    mem_map.mpr ⟨(key, value), mem_filter.mpr ⟨member, named⟩, rfl⟩
  unfold validateTransferEncoding at valid
  dsimp only at valid
  split at valid
  next empty =>
    rw [empty] at listed
    cases listed
  rename_i final more same
  split at valid
  · cases valid
  split at valid
  · cases valid
  rename_i supported
  intro coding token
  by_contra other
  refine supported (any_eq_true.mpr ⟨_, same ▸ listed, any_eq_true.mpr ⟨coding, token, ?_⟩⟩)
  simpa using other

lemma HeaderPass.check_ok {pass : HeaderPass} {isHttp11 : Bool} (checked : pass.check isHttp11 = .ok ()) :
    (isHttp11 → pass.hasHost ∧ pass.hostDup = false ∧ pass.hostEmpty = false) ∧ pass.clBad = false ∧
      (pass.teSeen → pass.clSeen = false ∧ validateTransferEncoding pass.headers = .ok ()) := by
  unfold check at checked
  split at checked
  · cases checked
  rename_i host
  split at checked
  · cases checked
  rename_i good
  split at checked
  · cases checked
  rename_i single
  refine ⟨fun http11 => ?_, by simpa using good, fun te => ⟨by simpa [te] using single, ?_⟩⟩
  · simpa [http11, and_assoc] using host
  rw [if_pos te] at checked
  split at checked
  · cases checked
  · assumption

lemma parseRequestLen_accepted {raw : Bytes} {req : WireRequest} (accepted : parseRequestLen raw = some req) :
    ∃ first text pass, headerSection raw = some (first, text) ∧ HeaderPass.Sees (text.filterMap headerOf) pass ∧
      (∀ line ∈ text, ∀ key after, cut [0x3a] line = some (key, after) → ¬key.getLast?.any isBlank) ∧
      pass.check ((ascii "HTTP/1.1").isPrefixOf req.version) = .ok () ∧ req.headers = pass.headers ∧
      req.teChunkedSeen = pass.teSeen ∧ req.contentLength = pass.contentLength := by
  unfold parseRequestLen at accepted
  split at accepted
  · cases accepted
  rename_i block rest ended
  unfold parseRequestWithHeaderEnd at accepted
  split at accepted
  · cases accepted
  rename_i first after found
  split at accepted
  · cases accepted
  rename_i line read
  split at accepted
  · cases accepted
  rename_i pass looped
  cases checked : pass.check ((ascii "HTTP/1.1").isPrefixOf line.version) with rw [checked] at accepted
  | error e => cases accepted
  | ok =>
    cases accepted
    have solid := cut_none_before ended crlf_ne_nil
    have solid' : cut crlfcrlf (crlf ++ after) = none := by
      rw [eq_of_cut found, append_assoc] at solid
      exact cut_none_of_suffix solid
    rw [loop_eq _ solid'] at looped
    obtain ⟨same, names⟩ := lines_eq looped
    refine ⟨first, lines after, pass, ?_, ?_, names, checked, rfl, rfl, rfl⟩
    · rw [headerSection, ended]
      dsimp only
      rw [lines_of_cut found]
    · rw [same]
      exact (HeaderPass.Sees.init line.keepAlive).foldl _

/-! ### Lines that are fields -/

lemma headerOf_of_fieldLine {name : Bytes} (field : fieldLine line = some (name, value)) :
    headerOf line = some (name, value.dropWhile (· == 0x20)) := by
  unfold fieldLine at field
  split at field
  · cases field
  split at field
  · cases field
  rename_i found
  split at field
  · cases field
  cases field
  rw [headerOf, found]
  rfl

lemma cut_colon_isSome (colon : 0x3a ∈ line) : ∃ name value, cut [0x3a] line = some (name, value) := by
  induction line with
  | nil => cases colon
  | cons c line ih =>
    by_cases here : c = 0x3a
    · exact ⟨[], line, by simp [cut, here]⟩
    obtain ⟨name, value, found⟩ := ih ((mem_cons.mp colon).resolve_left fun same => here same.symm)
    refine ⟨c :: name, value, ?_⟩
    rw [cut_cons_of_not_front c (by simpa [eq_comm] using here), found]
    rfl

lemma fieldLine_isSome_iff (clean : ∀ key after, cut [0x3a] line = some (key, after) → ¬key.getLast?.any isBlank) :
    (∃ field, fieldLine line = some field) ↔ ¬(0x3a ∉ line ∨ line.head?.any isBlank ∨ 0x0d ∈ line ∨ 0x0a ∈ line) := by
  unfold fieldLine
  by_cases broken : line.head?.any isBlank ∨ 0x0d ∈ line ∨ 0x0a ∈ line
  · rw [if_pos broken]
    exact iff_of_false nofun (not_not.mpr (.inr broken))
  rw [if_neg broken]
  by_cases colon : 0x3a ∈ line
  · obtain ⟨name, value, found⟩ := cut_colon_isSome colon
    rw [found]
    dsimp only
    rw [if_neg (clean name value found)]
    exact iff_of_true ⟨_, rfl⟩ (by simpa [colon] using broken)
  · have missing : cut [0x3a] line = none := by
      cases found : cut [0x3a] line with
      | none => rfl
      | some pieces =>
        rw [eq_of_cut found] at colon
        simp at colon
    rw [missing]
    exact iff_of_false nofun (not_not.mpr (.inl colon))

lemma mapM_eq_some_iff {α β : Type*} {f : α → Option β} {xs : List α} {ys : List β} :
    xs.mapM f = some ys ↔ (∀ x ∈ xs, ∃ y, f x = some y) ∧ ys = xs.filterMap f := by
  induction xs generalizing ys with
  | nil => simp [eq_comm]
  | cons x xs ih =>
    rw [mapM_cons]
    cases here : f x with
    | none => simp [here]
    | some y =>
      simp only [Option.bind_eq_bind, Option.bind_some, Option.bind_eq_some_iff, ih, filterMap_cons_some here,
        forall_mem_cons]
      constructor
      · rintro ⟨rest, ⟨all, rfl⟩, same⟩
        exact ⟨⟨⟨y, here⟩, all⟩, (Option.some.inj same).symm⟩
      · rintro ⟨⟨-, all⟩, rfl⟩
        exact ⟨_, ⟨all, rfl⟩, rfl⟩

def skipSpaces (value : Bytes) : Bytes := value.dropWhile (· == 0x20)

lemma trim_skipSpaces (value : Bytes) : trim (skipSpaces value) = trim value := by
  have same : (skipSpaces value).dropWhile isBlank = value.dropWhile isBlank := by
    unfold skipSpaces
    induction value with
    | nil => rfl
    | cons c value ih =>
      rw [dropWhile_cons]
      split
      next space =>
        have blank : isBlank c := by simp [isBlank, space]
        rw [ih, dropWhile_cons_of_pos blank]
      · rfl
  rw [trim, same, trim]

lemma headers_eq {text : List Bytes} (all : ∀ line ∈ text, ∃ field, fieldLine line = some field) :
    text.filterMap headerOf = (text.filterMap fieldLine).map fun (name, value) => (name, skipSpaces value) := by
  induction text with
  | nil => rfl
  | cons line text ih =>
    obtain ⟨⟨⟨name, value⟩, field⟩, all⟩ := forall_mem_cons.mp all
    rw [filterMap_cons_some field, filterMap_cons_some (headerOf_of_fieldLine field), ih all]
    rfl

lemma named_skipSpaces (name : Bytes) (fields : List (Bytes × Bytes)) :
    named name (fields.map fun (name, value) => (name, skipSpaces value)) = (named name fields).map skipSpaces := by
  simp [named, filter_map, Function.comp_def]

lemma nul_not_mem {coding name : Bytes} (same : caseEq coding name) (nul : 0 ∉ name.map toLower) : 0 ∉ coding := by
  intro member
  have lower := eq_of_beq same
  exact nul (lower ▸ mem_map.mpr ⟨0, member, by decide⟩)

lemma coding_chunked {pass : HeaderPass}
    (kept : pass.headers = (fields.map fun (name, value) => (name, skipSpaces value)).reverse)
    (valid : validateTransferEncoding pass.headers = .ok ()) {coding : Bytes} (nul : 0 ∉ coding)
    (single : (named (ascii "Transfer-Encoding") fields).flatMap transferCodings = [coding]) :
    caseEq coding (ascii "chunked") := by
  obtain ⟨value, member, token⟩ := mem_flatMap.mp (single ▸ mem_singleton_self coding)
  obtain ⟨⟨key, value'⟩, listed, rfl⟩ := mem_map.mp member
  obtain ⟨listed, same⟩ := mem_filter.mp listed
  have inside : (key, skipSpaces value') ∈ pass.headers := by
    rw [kept, mem_reverse]
    exact mem_map.mpr ⟨(key, value'), listed, rfl⟩
  -- a NUL in the value would be in the coding
  have clean : 0 ∉ value' := by
    intro member'
    obtain ⟨other, there, zero⟩ := mem_transferCodings member' (by decide) (by decide)
    have both := mem_flatMap.mpr ⟨value', member, there⟩
    rw [single, mem_singleton] at both
    exact nul (both ▸ zero)
  have clean' : 0 ∉ skipSpaces value' := fun member' => clean ((dropWhile_suffix _).subset member')
  have key' := CStr.ofBytes_bytes (nul_not_mem same (by decide))
  have tokens := validateTransferEncoding_ok valid inside (by rw [key']; exact same)
  rw [CStr.ofBytes_bytes clean', codings_eq, skipSpaces,
    transferCodings_dropWhile _ fun c space => by simp only [beq_iff_eq] at space; subst space; rfl] at tokens
  exact tokens coding token

lemma framing_coded {version : Bytes} {result : Framing} (coded : named (ascii "Transfer-Encoding") fields ≠ []) :
    Rfc9112.framing version fields = some result ↔
      result = .chunked ∧ named (ascii "Content-Length") fields = [] ∧ version = ascii "HTTP/1.1" ∧
        ∃ coding, (named (ascii "Transfer-Encoding") fields).flatMap transferCodings = [coding] ∧
          caseEq coding (ascii "chunked") := by
  obtain ⟨codes, more, whole⟩ := exists_cons_of_ne_nil coded
  unfold Rfc9112.framing
  rw [whole]
  cases named (ascii "Content-Length") fields with
  | cons value values => simp
  | nil =>
    dsimp only
    split
    next coding single =>
      rw [single]
      split_ifs with plain
      · constructor
        · intro same
          exact ⟨(Option.some.inj same).symm, rfl, plain.1, coding, rfl, plain.2⟩
        · rintro ⟨rfl, -⟩
          rfl
      · simpa using fun _ version => by simpa [version] using plain
    next several =>
      refine iff_of_false nofun ?_
      rintro ⟨-, -, -, coding, single, -⟩
      exact several coding single

lemma framing_length {version : Bytes} (plain : named (ascii "Transfer-Encoding") fields = [])
    (same : ∀ value ∈ named (ascii "Content-Length") fields, lengthValue (trim value) = some n)
    (none : named (ascii "Content-Length") fields = [] → n = 0) :
    Rfc9112.framing version fields = some (.length n) := by
  unfold Rfc9112.framing
  rw [plain]
  cases lengths : named (ascii "Content-Length") fields with
  | nil => simp [none lengths]
  | cons value values =>
    rw [lengths] at same
    obtain ⟨first, rest⟩ := forall_mem_cons.mp same
    dsimp only
    rw [first]
    dsimp only
    rw [if_pos rest]

/-- A request that the parser accepts has one framing unless there is something in it that the parser overlooks. -/
theorem unambiguous_iff {raw : Bytes} {req : WireRequest} (accepted : parseRequestLen raw = some req) :
    Unambiguous raw req ↔ ¬Overlooked raw req := by
  obtain ⟨first, text, pass, sec, sees, names, checked, headers, te, length⟩ := parseRequestLen_accepted accepted
  obtain ⟨hosts, good, coded⟩ := check_ok checked
  constructor
  · rintro ⟨first', text', fields, sec', fieldsEq, -, framed, -⟩ ⟨first'', text'', sec'', broken⟩
    rw [sec] at sec' sec''
    cases sec'
    cases sec''
    obtain ⟨all, rfl⟩ := mapM_eq_some_iff.mp fieldsEq
    rcases broken with ⟨line, member, bad⟩ | ⟨seen, bad⟩
    · exact (fieldLine_isSome_iff (names line member)).mp (all line member) bad
    rw [headers_eq all] at sees
    have some_ := sees.te.mp (te ▸ seen)
    rw [named_skipSpaces, ne_eq, map_eq_nil_iff] at some_
    obtain ⟨-, -, version, coding, single, chunked⟩ := (framing_coded some_).mp framed
    rcases bad with other | several
    · exact other version
    · exact several coding (nul_not_mem chunked (by decide)) single
  intro fair
  have all : ∀ line ∈ text, ∃ field, fieldLine line = some field := by
    intro line member
    refine (fieldLine_isSome_iff (names line member)).mpr fun bad => ?_
    exact fair ⟨first, text, sec, .inl ⟨line, member, bad⟩⟩
  rw [headers_eq all] at sees
  have kept := sees.kept
  refine ⟨first, text, text.filterMap fieldLine, sec, mapM_eq_some_iff.mpr ⟨all, rfl⟩, ?_, ?_, fun version => ?_⟩
  · simp [headers, kept, trim_skipSpaces]
  · unfold WireRequest.framing
    have seen := sees.te
    rw [named_skipSpaces, ne_eq, map_eq_nil_iff, ← te] at seen
    split
    next chunked =>
      obtain ⟨unseen, valid⟩ := coded (te ▸ chunked)
      obtain ⟨version, coding, nul, single⟩ : req.version = ascii "HTTP/1.1" ∧ ∃ coding, 0 ∉ coding ∧
          (named (ascii "Transfer-Encoding") (text.filterMap fieldLine)).flatMap transferCodings = [coding] := by
        by_contra bad
        refine fair ⟨first, text, sec, .inr ⟨chunked, ?_⟩⟩
        simp only [not_and_or, not_exists] at bad
        refine bad.imp id fun several coding nul single => ?_
        exact (several coding).elim (fun zero => zero nul) fun other => other single
      have lengths := not_not.mp (mt (sees.clSeen good).mpr (by simp [unseen]))
      rw [named_skipSpaces, map_eq_nil_iff] at lengths
      exact (framing_coded (seen.mp chunked)).mpr
        ⟨rfl, lengths, version, coding, single, coding_chunked kept valid nul single⟩
    next plain =>
      refine framing_length (not_not.mp (mt seen.mpr plain)) (fun value member => ?_) fun none => ?_
      · have parsed := sees.clSame good (skipSpaces value) (by
          rw [named_skipSpaces]
          exact mem_map_of_mem member)
        rw [length, ← trim_skipSpaces]
        exact lengthValue_trim parsed
      · rw [length]
        exact sees.clNone (by rw [named_skipSpaces, none, map_nil])
  · obtain ⟨present, dup, empty⟩ := hosts (by rw [version]; decide)
    have nonempty := sees.host.mp present
    have single := sees.hostDup dup
    have full := sees.hostEmpty empty
    rw [named_skipSpaces] at nonempty single full
    obtain ⟨host, only⟩ : ∃ host, named (ascii "Host") (text.filterMap fieldLine) = [host] := by
      apply length_eq_one_iff.mp
      have := length_pos_iff.mpr nonempty
      rw [length_map] at this single
      omega
    refine ⟨host, only, ?_⟩
    rw [only] at full
    rw [← trim_skipSpaces]
    exact trim_ne_nil (full _ (mem_singleton_self _))

def sample (version : String) (headers : List (String × String)) (length : Nat) (te : Bool) : WireRequest :=
  { method := .post, path := ascii "/", query := [], headers := headers.map fun (name, value) => (ascii name, ascii value)
    body := [], contentLength := length, version := ascii version, keepAlive := version == "HTTP/1.1", teChunkedSeen := te
    expect100Seen := false }

theorem chunked_unambiguous : ¬Overlooked (ascii "POST / HTTP/1.1\r\nHost: a\r\nTransfer-Encoding: chunked\r\n\r\n")
      (sample "HTTP/1.1" [("Transfer-Encoding", "chunked"), ("Host", "a")] 0 true) :=
  (unambiguous_iff (by decide +kernel)).mp
    ⟨ascii "POST / HTTP/1.1", [ascii "Host: a", ascii "Transfer-Encoding: chunked"],
      [(ascii "Host", ascii " a"), (ascii "Transfer-Encoding", ascii " chunked")],
      by decide +kernel, by rfl, by decide +kernel, by decide +kernel, fun _ => ⟨ascii " a", by decide, by decide⟩⟩

lemma not_unambiguous {raw first : Bytes} {text : List Bytes} {req : WireRequest}
    (sec : headerSection raw = some (first, text))
    (broken : (text.mapM fieldLine).bind (Rfc9112.framing req.version) = none) : ¬Unambiguous raw req := by
  rintro ⟨first', text', fields, sec', fieldsEq, -, framed, -⟩
  rw [sec] at sec'
  cases sec'
  rw [fieldsEq, Option.bind_some, framed] at broken
  cases broken

/-- The second line continues the first, so that the length is not 1; the coding is read up to its NUL; and HTTP/1.0 has
no transfer codings. -/
theorem framing_overlooked : (parseRequestLen (ascii "POST / HTTP/1.0\r\nContent-Length: 1\r\n 0\r\n\r\n") =
        some (sample "HTTP/1.0" [("Content-Length", "1")] 1 false) ∧
      ¬Unambiguous (ascii "POST / HTTP/1.0\r\nContent-Length: 1\r\n 0\r\n\r\n")
        (sample "HTTP/1.0" [("Content-Length", "1")] 1 false)) ∧
    (parseRequestLen (ascii "POST / HTTP/1.0\r\nTransfer-Encoding: chunked\x00, gzip\r\n\r\n") =
        some (sample "HTTP/1.0" [("Transfer-Encoding", "chunked\x00, gzip")] 0 true) ∧
      ¬Unambiguous (ascii "POST / HTTP/1.0\r\nTransfer-Encoding: chunked\x00, gzip\r\n\r\n")
        (sample "HTTP/1.0" [("Transfer-Encoding", "chunked\x00, gzip")] 0 true)) := by
  refine ⟨⟨by decide +kernel, ?_⟩, by decide +kernel, ?_⟩
  · exact @not_unambiguous _ (ascii "POST / HTTP/1.0") [ascii "Content-Length: 1", ascii " 0"] _ (by decide +kernel)
      (by decide)
  · exact @not_unambiguous _ (ascii "POST / HTTP/1.0") [ascii "Transfer-Encoding: chunked\x00, gzip"] _ (by decide +kernel)
      (by decide +kernel)

end Cwist.Http
