import Cwist.Http2.Wire

namespace Cwist.Ws

def maxPayloadBytes : Nat := 16 * 1024 * 1024

def maxMessageBytes : Nat := 64 * 1024 * 1024

inductive Opcode where
  | continuation | text | binary | close | ping | pong
  deriving DecidableEq, Repr

namespace Opcode

def ofNibble (n : UInt8) : Option Opcode :=
  if n = 0x0 then some .continuation
  else if n = 0x1 then some .text
  else if n = 0x2 then some .binary
  else if n = 0x8 then some .close
  else if n = 0x9 then some .ping
  else if n = 0xA then some .pong
  else none

def isControl : Opcode → Bool
  | continuation | text | binary => false
  | close | ping | pong => true

end Opcode

structure Frame where
  fin : Bool
  opcode : Opcode
  payload : Bytes
  deriving DecidableEq

def sendArgsValid (opcode : Opcode) (len : Nat) : Bool := !opcode.isControl || len ≤ 125

def closeCodeValid (code : Nat) : Bool :=
  if code < 1000 || code ≥ 5000 || code == 1004 || code == 1005 || code == 1006 || code == 1015 then false
  else code ≤ 1014 || code ≥ 3000

def isTail (c : UInt8) : Bool := c &&& 0xC0 == 0x80

def utf8Valid : Bytes → Bool
  | [] => true
  | c :: rest =>
    if c < 0x80 then utf8Valid rest
    else if 0xC2 ≤ c ∧ c ≤ 0xDF then
      match rest with
      | d :: rest => isTail d && utf8Valid rest
      | _ => false
    else if 0xE0 ≤ c ∧ c ≤ 0xEF then
      match rest with
      | d :: e :: rest =>
        isTail e &&
          (if c = 0xE0 then 0xA0 ≤ d && d ≤ 0xBF else if c = 0xED then 0x80 ≤ d && d ≤ 0x9F else isTail d) && utf8Valid rest
      | _ => false
    else if 0xF0 ≤ c ∧ c ≤ 0xF4 then
      match rest with
      | d :: e :: f :: rest =>
        isTail e && isTail f &&
          (if c = 0xF0 then 0x90 ≤ d && d ≤ 0xBF else if c = 0xF4 then 0x80 ≤ d && d ≤ 0x8F else isTail d) && utf8Valid rest
      | _ => false
    else false

/-! ### Text -/

section Text

open String List UInt8

lemma isTail_eq (c : UInt8) : isTail c = (decide (0x80 ≤ c.toNat) && decide (c.toNat ≤ 0xBF)) := by
  obtain ⟨⟨c⟩⟩ := c
  revert c
  decide +kernel

lemma second_iff {c d : Nat} (first low last high : Nat) (ranges : first < last ∧ 0x80 ≤ low ∧ high ≤ 0xBF) :
    (if c = first then decide (low ≤ d) && decide (d ≤ 0xBF)
      else if c = last then decide (0x80 ≤ d) && decide (d ≤ high) else decide (0x80 ≤ d) && decide (d ≤ 0xBF)) = true ↔
      (0x80 ≤ d ∧ d ≤ 0xBF) ∧ (c = first → low ≤ d) ∧ (c = last → d ≤ high) := by
  split_ifs <;> simp only [Bool.and_eq_true, decide_eq_true_eq] <;> omega

/-- A text of characters in the encoding of RFC 3629 section 3. A `Char` is a Unicode scalar value: no surrogate and
nothing above U+10FFFF. -/
def WellFormed (data : Bytes) : Prop := ∃ text : List Char, data = text.flatMap utf8EncodeChar

lemma utf8Valid_encode (c : Char) {rest : Bytes} (valid : utf8Valid rest) : utf8Valid (utf8EncodeChar c ++ rest) := by
  have scalar : c.val.toNat < 0xD800 ∨ 0xDFFF < c.val.toNat ∧ c.val.toNat < 0x110000 := c.valid
  rw [utf8EncodeChar]
  generalize c.val.toNat = v at scalar
  split_ifs with one two three <;> rw [utf8Valid.eq_def] <;>
    simp only [cons_append, nil_append, lt_iff_toNat_lt, le_iff_toNat_le, ← UInt8.toNat_inj, isTail_eq, toNat_ofNat',
      reduceToNat, valid, Bool.and_true]
  · rw [if_pos (by omega)]
  · rw [if_neg (by omega), if_pos (by omega)]
    simp only [Bool.and_eq_true, decide_eq_true_eq]
    omega
  · rw [if_neg (by omega), if_neg (by omega), if_pos (by omega)]
    simp only [Bool.and_eq_true, second_iff 0xE0 0xA0 0xED 0x9F (by decide), decide_eq_true_eq]
    omega
  · rw [if_neg (by omega), if_neg (by omega), if_neg (by omega), if_pos (by omega)]
    simp only [Bool.and_eq_true, second_iff 0xF0 0x90 0xF4 0x8F (by decide), decide_eq_true_eq]
    omega

/-- One more character, given by its number and its octets. -/
lemma WellFormed.cons {rest data : Bytes} (wf : WellFormed rest) {v : Nat} (scalar : v.isValidChar)
    (same : ∀ c : Char, c.val.toNat = v → (utf8EncodeChar c).map toNat ++ rest.map toNat = data.map toNat) :
    WellFormed data := by
  obtain ⟨text, rfl⟩ := wf
  refine ⟨.ofNatAux v scalar :: text, (map_inj_right fun _ _ => UInt8.toNat_inj.mp).mp ?_⟩
  rw [flatMap_cons, map_append]
  exact (same _ rfl).symm

lemma wellFormed_of_valid {data : Bytes} (valid : utf8Valid data) : WellFormed data := by
  induction size : data.length using Nat.strong_induction_on generalizing data with
  | h n ih =>
  rcases data with _ | ⟨c, rest⟩
  · exact ⟨[], rfl⟩
  have behind {rest' : Bytes} (shorter : rest'.length ≤ rest.length) (valid : utf8Valid rest') : WellFormed rest' :=
    ih _ (by rw [← size, length_cons]; omega) valid rfl
  rw [utf8Valid.eq_def] at valid
  dsimp only at valid
  split at valid
  next low =>
    simp only [lt_iff_toNat_lt, reduceToNat] at low
    refine (behind le_rfl valid).cons (v := c.toNat) (.inl (by omega)) fun char is => ?_
    rw [utf8EncodeChar, is, if_pos (by omega)]
    simp
  split at valid
  next lead =>
    rcases rest with _ | ⟨d, rest⟩
    · cases valid
    simp only [le_iff_toNat_le, isTail_eq, Bool.and_eq_true, decide_eq_true_eq, reduceToNat] at lead valid
    refine (behind (by simp) valid.2).cons (v := (c.toNat - 0xC0) * 64 + (d.toNat - 0x80)) (.inl (by omega)) fun char is => ?_
    rw [utf8EncodeChar, is, if_neg (by omega), if_pos (by omega)]
    simp only [map_cons, map_nil, cons_append, nil_append, cons.injEq, toNat_ofNat', and_true]
    omega
  split at valid
  next lead =>
    rcases rest with _ | ⟨d, _ | ⟨e, rest⟩⟩
    · cases valid
    · cases valid
    simp only [le_iff_toNat_le, isTail_eq, ← UInt8.toNat_inj, reduceToNat, Bool.and_eq_true,
      second_iff 0xE0 0xA0 0xED 0x9F (by decide), decide_eq_true_eq] at lead valid
    refine (behind (by simp; omega) valid.2).cons
      (v := (c.toNat - 0xE0) * 4096 + (d.toNat - 0x80) * 64 + (e.toNat - 0x80)) (by rw [Nat.isValidChar]; omega) fun char is => ?_
    rw [utf8EncodeChar, is, if_neg (by omega), if_neg (by omega), if_pos (by omega)]
    simp only [map_cons, map_nil, cons_append, nil_append, cons.injEq, toNat_ofNat', and_true]
    omega
  split at valid
  next lead =>
    rcases rest with _ | ⟨d, _ | ⟨e, _ | ⟨f, rest⟩⟩⟩
    · cases valid
    · cases valid
    · cases valid
    simp only [le_iff_toNat_le, isTail_eq, ← UInt8.toNat_inj, reduceToNat, Bool.and_eq_true,
      second_iff 0xF0 0x90 0xF4 0x8F (by decide), decide_eq_true_eq] at lead valid
    refine (behind (by simp; omega) valid.2).cons
      (v := (c.toNat - 0xF0) * 262144 + (d.toNat - 0x80) * 4096 + (e.toNat - 0x80) * 64 + (f.toNat - 0x80))
      (by rw [Nat.isValidChar]; omega) fun char is => ?_
    rw [utf8EncodeChar, is, if_neg (by omega), if_neg (by omega), if_neg (by omega)]
    simp only [map_cons, map_nil, cons_append, nil_append, cons.injEq, toNat_ofNat', and_true]
    omega
  cases valid

/-- The validator accepts exactly the texts of RFC 3629: overlong and truncated forms are not encodings of any character. -/
theorem utf8_well_formed_iff (data : Bytes) : utf8Valid data ↔ WellFormed data := by
  refine ⟨wellFormed_of_valid, ?_⟩
  rintro ⟨text, rfl⟩
  induction text with
  | nil => rfl
  | cons c text ih => exact utf8Valid_encode c ih

end Text

def closeError : Bytes → Option Nat
  | [] => none
  | [_] => some 1002
  | a :: b :: reason =>
    if !closeCodeValid (a.toNat * 256 + b.toNat) then some 1002 else if utf8Valid reason then none else some 1007

def closeBody (code : Nat) : Bytes := [UInt8.ofNat (code / 256), UInt8.ofNat code]

def unmask (mask payload : Bytes) : Bytes := payload.mapIdx fun i b => b ^^^ mask.getD (i % 4) 0

inductive Length (ρ : Type) where
  | more
  | short
  | length (len : Nat) (rest : ρ)

inductive Parsed (ρ : Type) where
  | more
  | failed
  | short
  | frame (fin : Bool) (opcode : Opcode) (payload : Bytes) (rest : ρ)

end Cwist.Ws
