import Cwist.Hpack.Encode
import Cwist.Lib.Emit

namespace Cwist.H2
open List

open Http (Response decimal)

def integerOctets (value prefixBits : Nat) : Bytes := (encodeInteger 0 6 value prefixBits).2

lemma encodeInteger_cap (cap k : Nat) {v : Nat} (fits : v < 2 ^ 32) :
    encodeInteger 0 cap v k =
      if v < 2 ^ k - 1 then (1, integerOctets v k)
      else if (integerOctets v k).length ≤ cap then ((integerOctets v k).length, integerOctets v k)
      else (0, (integerOctets v k).take (max 1 cap)) := by
  unfold integerOctets encodeInteger
  by_cases short : v < 2 ^ k - 1
  · simp only [short, if_true]
  have bound : v - (2 ^ k - 1) < 2 ^ (7 * (4 + 1)) := by omega
  have count := PrefixInt.length_groups_le 4 (v - (2 ^ k - 1))
  have six : 1 + (PrefixInt.groups 4 (v - (2 ^ k - 1))).length ≤ 6 := by omega
  have order : (PrefixInt.groups 4 (v - (2 ^ k - 1))).length + 1 = 1 + (PrefixInt.groups 4 (v - (2 ^ k - 1))).length :=
    add_comm _ _
  have turn : max 1 cap = cap - 1 + 1 := by omega
  simp only [short, if_false, encodeIntegerLoop_eq _ 4 1 _ bound, six, if_true, length_cons, length_map, order,
    turn, take_succ_cons]
  split <;> rfl

lemma integerOctets_pos (value prefixBits : Nat) : 1 ≤ (integerOctets value prefixBits).length := by
  unfold integerOctets encodeInteger
  dsimp only
  split <;> simp

lemma integerOctets_short {value prefixBits : Nat} (short : value < 2 ^ prefixBits - 1) :
    (integerOctets value prefixBits).length = 1 := by
  unfold integerOctets encodeInteger
  simp [short]

def stringOctets (str : Bytes) : Bytes := integerOctets (str.length % 2 ^ 32) 7 ++ str

lemma encodeString_fits {room : Nat} {str : Bytes} (fits : (stringOctets str).length ≤ room) :
    encodeString room str = ((stringOctets str).length, stringOctets str) := by
  have small : str.length % 2 ^ 32 < 2 ^ 32 := Nat.mod_lt _ (by decide)
  have positive := integerOctets_pos (str.length % 2 ^ 32) 7
  rw [stringOctets, length_append] at fits ⊢
  unfold encodeString
  rw [encodeInteger_cap room 7 small]
  by_cases short : str.length % 2 ^ 32 < 2 ^ 7 - 1
  · have one := integerOctets_short short
    rw [if_pos short, one]
    dsimp only
    rw [if_neg (by omega)]
  · rw [if_neg short, if_pos (by omega)]
    dsimp only
    rw [if_neg (by omega)]

lemma encodeString_full {room : Nat} {str : Bytes} (full : room < (stringOctets str).length) :
    (encodeString room str).1 = 0 ∧ 1 ≤ (encodeString room str).2.length ∧
      (encodeString room str).2.length ≤ max 1 room := by
  have small : str.length % 2 ^ 32 < 2 ^ 32 := Nat.mod_lt _ (by decide)
  have positive := integerOctets_pos (str.length % 2 ^ 32) 7
  rw [stringOctets, length_append] at full
  unfold encodeString
  rw [encodeInteger_cap room 7 small]
  by_cases short : str.length % 2 ^ 32 < 2 ^ 7 - 1
  · have one := integerOctets_short short
    rw [if_pos short]
    dsimp only
    rw [if_pos (by omega)]
    exact ⟨rfl, positive, by dsimp only; omega⟩
  rw [if_neg short]
  by_cases inside : (integerOctets (str.length % 2 ^ 32) 7).length ≤ room
  · rw [if_pos inside]
    dsimp only
    rw [if_pos (by omega)]
    exact ⟨rfl, positive, by dsimp only; omega⟩
  · rw [if_neg inside]
    dsimp only
    rw [if_pos (.inl rfl)]
    refine ⟨rfl, ?_, ?_⟩ <;> dsimp only <;> rw [length_take] <;> omega

inductive Part where
  | octet (b : UInt8)
  | index (i : Fin 62)
  | text (str : Bytes)

namespace Part

def wire : Part → Bytes
  | .octet b => [b]
  | .index i => integerOctets i 4
  | .text str => stringOctets str

def emit (cap : Nat) (out : Bytes) : Part → Except Bytes Bytes
  | .octet b => if out.length ≥ cap then .error out else .ok (out ++ [b])
  | .index i => emitIndex cap i out
  | .text str => emitString cap str out

variable {cap : Nat} {out left str : Bytes}

lemma wire_pos (p : Part) : 1 ≤ p.wire.length := by
  cases p with
  | octet b => exact le_refl 1
  | index i => exact integerOctets_pos i 4
  | text str =>
    rw [wire, stringOctets, length_append]
    exact (integerOctets_pos _ _).trans (Nat.le_add_right _ _)

lemma emitString_fits (fits : out.length + (stringOctets str).length ≤ cap) :
    emitString cap str out = .ok (out ++ stringOctets str) := by
  have positive := wire_pos (.text str)
  rw [wire] at positive
  unfold emitString H2.emit
  dsimp only
  rw [encodeString_fits (by omega)]
  rw [if_neg (by omega)]

lemma emitString_full (start : out.length ≤ cap) (full : cap < out.length + (stringOctets str).length) :
    ∃ left, emitString cap str out = .error left ∧ out.length + 1 ≤ left.length ∧
      left.length ≤ out.length + max 1 (cap - out.length) := by
  obtain ⟨zero, some, most⟩ := @encodeString_full (cap - out.length) str (by omega)
  unfold emitString H2.emit
  dsimp only
  rw [if_pos zero]
  refine ⟨_, rfl, ?_, ?_⟩ <;> rw [length_append] <;> omega

lemma emitIndex_fits {i : Fin 62} (fits : out.length + (integerOctets i 4).length ≤ cap) :
    emitIndex cap i out = .ok (out ++ integerOctets i 4) := by
  have small : (i : Nat) < 2 ^ 32 := by omega
  have positive := integerOctets_pos i 4
  unfold emitIndex H2.emit
  dsimp only
  rw [if_neg (by omega), encodeInteger_cap _ 4 small]
  by_cases short : (i : Nat) < 2 ^ 4 - 1
  · rw [if_pos short]
    rfl
  · have inside : (integerOctets i 4).length ≤ cap - out.length := by omega
    rw [if_neg short, if_pos inside]
    rw [if_neg (by omega)]

lemma emitIndex_full {i : Fin 62} (full : cap < out.length + (integerOctets i 4).length) :
    ∃ left, emitIndex cap i out = .error left ∧ (out.length ≤ cap → left.length ≤ cap) := by
  have small : (i : Nat) < 2 ^ 32 := by omega
  unfold emitIndex H2.emit
  dsimp only
  by_cases room : out.length + 1 > cap
  · rw [if_pos room]
    exact ⟨out, rfl, id⟩
  rw [if_neg room, encodeInteger_cap _ 4 small]
  by_cases short : (i : Nat) < 2 ^ 4 - 1
  · have := integerOctets_short short
    omega
  have outside : ¬(integerOctets i 4).length ≤ cap - out.length := by omega
  rw [if_neg short, if_neg outside]
  refine ⟨_, rfl, fun _ => ?_⟩
  rw [length_append, length_take]
  omega

lemma fills (cap : Nat) : Emit.Fills (emit cap) wire cap where
  fits := fun out p fits => by
    cases p with
    | octet b =>
      have room : ¬out.length ≥ cap := by
        simp only [wire, length_singleton] at fits
        omega
      rw [emit, if_neg room]
      rfl
    | index i => exact emitIndex_fits fits
    | text str => exact emitString_fits fits
  full := fun out p start full => by
    cases p with
    | octet b =>
      have none : out.length ≥ cap := by
        simp only [wire, length_singleton] at full
        omega
      exact ⟨out, by rw [emit, if_pos none]⟩
    | index i =>
      obtain ⟨left, fails, -⟩ := emitIndex_full full
      exact ⟨left, fails⟩
    | text str =>
      obtain ⟨left, fails, -⟩ := emitString_full start full
      exact ⟨left, fails⟩

lemma emit_within_iff {p : Part} (start : out.length ≤ cap) (full : cap < out.length + p.wire.length)
    (fails : p.emit cap out = .error left) : left.length ≤ cap ↔ ¬∃ str, p = .text str ∧ out.length = cap := by
  cases p with
  | octet b =>
    rw [emit] at fails
    split at fails
    · cases fails
      simpa using start
    · cases fails
  | index i =>
    obtain ⟨left', fails', within⟩ := emitIndex_full full
    obtain rfl : left' = left := by simpa using fails'.symm.trans fails
    simpa using within start
  | text str =>
    obtain ⟨left', fails', least, most⟩ := emitString_full start full
    obtain rfl : left' = left := by simpa using fails'.symm.trans fails
    constructor
    · omega
    · intro clear
      have before : out.length ≠ cap := fun atEnd => clear ⟨str, rfl, atEnd⟩
      omega

end Part

def emitParts (cap : Nat) (parts : List Part) : Except Bytes Bytes := parts.foldlM (Part.emit cap) []

def blockOctets (parts : List Part) : Bytes := parts.flatMap Part.wire

def Clears (cap : Nat) (parts : List Part) : Prop :=
  ∀ before str after, parts = before ++ .text str :: after → (blockOctets before).length ≠ cap

lemma blockOctets_append (parts parts' : List Part) : blockOctets (parts ++ parts') = blockOctets parts ++ blockOctets parts' :=
  flatMap_append

lemma blockOctets_lt (before : List Part) (p : Part) (after : List Part) :
    (blockOctets before).length < (blockOctets (before ++ p :: after)).length := by
  have := p.wire_pos
  rw [blockOctets_append]
  simp only [blockOctets, flatMap_cons, length_append]
  omega

lemma emitParts_ok_iff {cap : Nat} {parts : List Part} {block : Bytes} :
    emitParts cap parts = .ok block ↔ block = blockOctets parts ∧ (blockOctets parts).length ≤ cap :=
  (Part.fills cap).ok_iff

lemma emitParts_within_iff (cap : Nat) (parts : List Part) :
    (Emit.stored (emitParts cap parts)).length ≤ cap ↔ Clears cap parts := by
  by_cases room : (blockOctets parts).length ≤ cap
  · rw [emitParts_ok_iff.mpr ⟨rfl, room⟩]
    refine iff_of_true room fun before str after split atEnd => ?_
    have := blockOctets_lt before (.text str) after
    rw [← split] at this
    omega
  obtain ⟨before, p, after, left, split, inside, past, fails, result⟩ :=
    (Part.fills cap).error parts [] (Nat.zero_le cap) (by simpa [blockOctets] using room)
  change List.length [] + (blockOctets before).length ≤ cap at inside
  rw [length_nil, zero_add] at inside past
  have within := Part.emit_within_iff inside past fails
  rw [show emitParts cap parts = .error left from result]
  refine within.trans ⟨fun clear before' str after' split' atEnd => ?_, ?_⟩
  · -- Another place where the parts reach the end of the buffer would be before or behind this one.
    have same : before' = before ∧ p = .text str := by
      rcases append_eq_append_iff.mp (split'.symm.trans split) with ⟨more, rfl, rest⟩ | ⟨more, rfl, rest⟩
      · cases more with
        | nil => exact ⟨by simp, (List.cons.inj rest).1.symm⟩
        | cons q more =>
          have := blockOctets_lt before' q more
          omega
      · cases more with
        | nil => exact ⟨by simp, (List.cons.inj rest).1⟩
        | cons q more =>
          obtain ⟨rfl, -⟩ := List.cons.inj rest
          rw [blockOctets_append] at atEnd
          simp only [blockOctets, flatMap_cons, length_append] at atEnd past
          omega
    exact clear ⟨str, same.2, same.1 ▸ atEnd⟩
  · rintro clear ⟨str, rfl, atEnd⟩
    exact clear before str after split atEnd

lemma staticTableFindName_lt (name : Bytes) : staticTableFindName name < 62 := by
  unfold staticTableFindName
  split
  next i found =>
    have bound := findIdx?_eq_some_iff_getElem.mp found
    obtain ⟨inside, -⟩ := bound
    have count : staticEntries.length = 61 := rfl
    omega
  · decide

def pairParts (name value : Bytes) : List Part :=
  .index ⟨staticTableFindName name, staticTableFindName_lt name⟩ ::
    if staticTableFindName name = 0 then [.text name, .text value] else [.text value]

lemma emitPair_eq (cap : Nat) (out name value : Bytes) :
    emitPair cap out name value = (pairParts name value).foldlM (Part.emit cap) out := by
  unfold emitPair pairParts
  dsimp only
  split <;> simp only [foldlM_cons, foldlM_nil, bind_pure] <;> rfl

lemma foldlM_pairs {α : Type} (cap : Nat) (parts : α → List Part) (entries : List α) (out : Bytes) :
    entries.foldlM (fun out entry => (parts entry).foldlM (Part.emit cap) out) out =
      (entries.flatMap parts).foldlM (Part.emit cap) out := by
  induction entries generalizing out with
  | nil => rfl
  | cons entry rest ih =>
    rw [foldlM_cons, flatMap_cons, foldlM_append]
    congr 1
    funext out
    exact ih out

def headerParts (pairs : List (CStr × CStr)) : List Part :=
  pairs.flatMap fun (name, value) => pairParts (lowerName name.bytes) value.bytes

lemma encodeHeaderPairs_eq (cap : Nat) (pairs : List (CStr × CStr)) :
    encodeHeaderPairs cap pairs = emitParts cap (headerParts pairs) := by
  unfold encodeHeaderPairs emitParts headerParts
  rw [← foldlM_pairs]
  simp only [emitPair_eq]

def statusParts : Nat → List Part
  | 200 => [.octet 0x88]
  | 204 => [.octet 0x89]
  | 206 => [.octet 0x8a]
  | 304 => [.octet 0x8b]
  | 400 => [.octet 0x8c]
  | 404 => [.octet 0x8d]
  | 500 => [.octet 0x8e]
  | other => [.index 0, .text (ascii ":status"), .text (decimal other)]

lemma emitStatus_eq (cap statusCode : Nat) : emitStatus cap statusCode = emitParts cap (statusParts statusCode) := by
  unfold emitParts
  fun_cases statusParts statusCode <;> simp only [emitStatus, foldlM_cons, foldlM_nil, bind_pure] <;> rfl

def sentHeaders (res : Response) (grpcMode : Bool) : List (CStr × Bytes) :=
  res.headers.filter fun (name, value) => !skipsHeader grpcMode name value

def responseParts (res : Response) (grpcMode : Bool) : List Part :=
  statusParts res.statusCode ++
    ((if grpcMode || statusForbidsBody res.statusCode then []
      else pairParts (ascii "content-length") (decimal res.bodyLen)) ++
      (sentHeaders res grpcMode).flatMap fun (name, value) => pairParts (lowerName name.bytes) (CStr.ofBytes value).bytes)

lemma foldlM_sent (cap : Nat) (grpcMode : Bool) (headers : List (CStr × Bytes)) (out : Bytes) :
    headers.foldlM (fun out (name, value) =>
        if skipsHeader grpcMode name value then .ok out
        else emitPair cap out (lowerName name.bytes) (CStr.ofBytes value).bytes) out =
      ((headers.filter fun (name, value) => !skipsHeader grpcMode name value).flatMap fun (name, value) =>
        pairParts (lowerName name.bytes) (CStr.ofBytes value).bytes).foldlM (Part.emit cap) out := by
  induction headers generalizing out with
  | nil => rfl
  | cons entry rest ih =>
    obtain ⟨name, value⟩ := entry
    rw [foldlM_cons]
    by_cases skipped : skipsHeader grpcMode name value
    · rw [filter_cons_of_neg (by simpa using skipped)]
      simp only [skipped, if_true]
      exact ih out
    · rw [filter_cons_of_pos (by simpa using skipped), flatMap_cons, foldlM_append]
      simp only [skipped, emitPair_eq]
      congr 1
      funext out
      simpa only [emitPair_eq] using ih out

lemma encodeResponseHeaders_eq (res : Response) (cap : Nat) (grpcMode : Bool) :
    encodeResponseHeaders res cap grpcMode = emitParts cap (responseParts res grpcMode) := by
  unfold encodeResponseHeaders emitParts responseParts
  rw [emitStatus_eq, foldlM_append]
  congr 1
  funext out
  rw [foldlM_append]
  split
  · exact foldlM_sent cap grpcMode res.headers out
  dsimp only
  rw [emitPair_eq]
  congr 1
  funext out
  exact foldlM_sent cap grpcMode res.headers out

/-- What is asked of a call with a buffer: nothing is stored behind its end, and a block that does not fit is
reported. -/
def Contained (cap : Nat) (parts : List Part) (result : Except Bytes Bytes) : Prop :=
  (Emit.stored result).length ≤ cap ∧ (cap < (blockOctets parts).length → ∃ left, result = .error left)

lemma contained_iff (cap : Nat) (parts : List Part) : Contained cap parts (emitParts cap parts) ↔ Clears cap parts := by
  rw [← emitParts_within_iff]
  refine and_iff_left fun large => ?_
  obtain ⟨-, -, -, left, -, -, -, -, result⟩ :=
    (Part.fills cap).error parts [] (Nat.zero_le cap) (by simpa [blockOctets] using large)
  exact ⟨left, result⟩

/-- The encoders stay within their buffer exactly when no string literal starts right at its end. -/
theorem encoder_contained_iff (cap : Nat) :
    (∀ pairs, Contained cap (headerParts pairs) (encodeHeaderPairs cap pairs) ↔ Clears cap (headerParts pairs)) ∧
      ∀ res grpcMode, Contained cap (responseParts res grpcMode) (encodeResponseHeaders res cap grpcMode) ↔
        Clears cap (responseParts res grpcMode) := by
  constructor
  · intro pairs
    rw [encodeHeaderPairs_eq]
    exact contained_iff cap _
  · intro res grpcMode
    rw [encodeResponseHeaders_eq]
    exact contained_iff cap _

def brimfulTrailers : List (CStr × CStr) :=
  [(.ofBytes (ascii "x"), .ofBytes (List.replicate 1017 0x61)), (.ofBytes (ascii "y"), .ofBytes (ascii "b"))]

/-- An octet is stored behind the end of the buffer. -/
theorem encodeHeaderPairs_overruns : (Emit.stored (encodeHeaderPairs 1024 brimfulTrailers)).length = 1025 := by
  decide +kernel

end Cwist.H2
