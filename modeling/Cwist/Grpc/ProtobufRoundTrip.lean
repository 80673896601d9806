import Cwist.Grpc.Protobuf
import Cwist.Lib.Base128

namespace Cwist.Pb
open List

open Base128 (Terminated value)

lemma toNat_shiftRight_seven (v : UInt64) : (v >>> 7).toNat = v.toNat / 128 := by
  rw [UInt64.toNat_shiftRight, Nat.shiftRight_eq_div_pow]
  rfl

lemma toNat_low_seven (b : UInt8) : (b &&& 0x7f).toNat = b.toNat % 128 := by
  exact Nat.and_two_pow_sub_one_eq_mod b.toNat 7

lemma high_bit_iff (b : UInt8) : b &&& 0x80 = 0 ↔ b.toNat < 128 := by
  have octet : ∀ i : Fin 256, i.val &&& 128 = 0 ↔ i.val < 128 := by decide +kernel
  rw [← UInt8.toNat_inj]
  exact octet ⟨b.toNat, b.toNat_lt⟩

lemma continued_octet (v : UInt64) : (v ||| 0x80).toUInt8 = UInt8.ofNat (v.toNat % 128 + 128) := by
  have octet : ∀ i : Fin 256, i.val ||| 128 = i.val % 128 + 128 := by decide +kernel
  apply UInt8.toNat_inj.mp
  calc (v ||| 0x80).toUInt8.toNat = (v.toNat ||| 128) % 2 ^ 8 := by
        rfl
    _ = v.toNat % 2 ^ 8 ||| 128 := Nat.or_mod_two_pow
    _ = v.toNat % 2 ^ 8 % 128 + 128 := octet ⟨v.toNat % 2 ^ 8, Nat.mod_lt _ (by decide)⟩
    _ = (UInt8.ofNat (v.toNat % 128 + 128)).toNat := by
        rw [UInt8.toNat_ofNat']
        omega

lemma varintOctets_eq (v : UInt64) : varintOctets v = Base128.octets v.toNat := by
  fun_induction varintOctets v with
  | case1 v large ih => rw [Base128.octets, if_neg (by omega), continued_octet, ih, toNat_shiftRight_seven]
  | case2 v small =>
    rw [Base128.octets, if_pos (by omega)]
    simp

variable {k : Nat} {bytes rest : Bytes} {b : UInt8}

lemma accumulated {acc : UInt64} (last : k ≤ 9) (low : acc.toNat < 2 ^ (7 * k)) (fits : k = 9 → b.toNat % 128 ≤ 1) :
    (acc ||| (b &&& 0x7f).toUInt64 <<< UInt64.ofNat (7 * k)).toNat = acc.toNat + 2 ^ (7 * k) * (b.toNat % 128) := by
  have shift : (UInt64.ofNat (7 * k)).toNat % 64 = 7 * k := by
    rw [UInt64.toNat_ofNat']
    omega
  have bound : 2 ^ (7 * k) * (b.toNat % 128) < 2 ^ 64 := by
    rcases lt_or_ge k 9 with short | long
    · calc 2 ^ (7 * k) * (b.toNat % 128) < 2 ^ (7 * k) * 2 ^ 7 :=
            Nat.mul_lt_mul_of_pos_left (Nat.mod_lt _ (by decide)) (Nat.two_pow_pos _)
        _ = 2 ^ (7 * k + 7) := (pow_add _ _ _).symm
        _ ≤ 2 ^ 64 := Nat.pow_le_pow_right (by decide) (by omega)
    · obtain rfl : k = 9 := by omega
      omega
  rw [UInt64.toNat_or, UInt64.toNat_shiftLeft, UInt8.toNat_toUInt64, toNat_low_seven, shift, Nat.shiftLeft_eq,
    mul_comm, Nat.mod_eq_of_lt bound, Nat.or_comm, ← Nat.two_pow_add_eq_or_of_lt low, add_comm]

lemma readVarintLoop_iff {acc v : UInt64} (last : k ≤ 10) (low : acc.toNat < 2 ^ (7 * k)) :
    readVarintLoop acc (7 * k) bytes = (some v, rest) ↔
      ∃ enc, bytes = enc ++ rest ∧ Terminated enc ∧ enc.length ≤ 10 - k ∧ v.toNat = acc.toNat + 2 ^ (7 * k) * value enc := by
  induction bytes generalizing acc k with
  | nil =>
    constructor
    · intro read
      cases read
    · rintro ⟨enc, empty, terminated, -⟩
      exact absurd (append_eq_nil_iff.mp empty.symm).1 terminated.ne_nil
  | cons b bytes ih =>
    rw [readVarintLoop]
    rcases lt_or_ge 9 k with past | within
    · rw [if_pos (by omega)]
      constructor
      · intro read
        cases read
      · rintro ⟨enc, -, terminated, short, -⟩
        have := terminated.length_pos
        omega
    rw [if_neg (by omega), Base128.exists_front_cons]
    have power : 2 ^ (7 * (k + 1)) = 2 ^ (7 * k) * 128 := by rw [Nat.mul_succ, Nat.pow_add]
    by_cases large : 7 * k = 63 ∧ b &&& 0x7f > 1
    · obtain ⟨ninth, large⟩ := large
      have two : 2 ≤ b.toNat % 128 := by
        rw [← toNat_low_seven]
        exact UInt8.lt_iff_toNat_lt.mp large
      rw [if_pos ⟨ninth, large⟩, ninth]
      constructor
      · intro read
        cases read
      have word := v.toNat_lt
      split
      · rintro ⟨-, -, same⟩
        rw [value] at same
        omega
      · rintro ⟨enc, -, -, -, same⟩
        rw [value] at same
        omega
    · rw [if_neg large]
      have fits : k = 9 → b.toNat % 128 ≤ 1 := by
        rintro rfl
        rw [← toNat_low_seven]
        exact UInt8.le_iff_toNat_le.mp (UInt8.not_lt.mp fun more => large ⟨rfl, more⟩)
      have taken := accumulated within low fits
      generalize acc ||| (b &&& 0x7f).toUInt64 <<< UInt64.ofNat (7 * k) = acc' at taken ⊢
      by_cases ends : b.toNat < 128
      · rw [if_pos ((high_bit_iff b).mpr ends), if_pos ends, Prod.mk.injEq, Option.some.injEq, value, value,
          Nat.add_zero, ← UInt64.toNat_inj]
        constructor
        · rintro ⟨same, rfl⟩
          exact ⟨rfl, by simp; omega, by omega⟩
        · rintro ⟨rfl, -, same⟩
          exact ⟨by omega, rfl⟩
      · rw [if_neg (fun high => ends ((high_bit_iff b).mp high)), if_neg ends]
        have bound : acc'.toNat < 2 ^ (7 * (k + 1)) := by
          rw [taken, power]
          have group : b.toNat % 128 + 1 ≤ 128 := Nat.mod_lt _ (by decide)
          calc acc.toNat + 2 ^ (7 * k) * (b.toNat % 128) < 2 ^ (7 * k) * (b.toNat % 128 + 1) := by
                rw [Nat.mul_succ]
                omega
            _ ≤ 2 ^ (7 * k) * 128 := Nat.mul_le_mul_left _ group
        rw [show 7 * k + 7 = 7 * (k + 1) by omega, ih (by omega) bound]
        refine exists_congr fun enc => and_congr_right fun _ => and_congr_right fun _ => and_congr ?_ ?_
        · rw [length_cons]
          omega
        · rw [taken, power, value, mul_add, mul_assoc, add_assoc]

lemma readVarint_iff {v : UInt64} : readVarint bytes = (some v, rest) ↔
      ∃ enc, bytes = enc ++ rest ∧ Terminated enc ∧ enc.length ≤ 10 ∧ value enc = v.toNat := by
  rw [readVarint, readVarintLoop_iff (k := 0) (by decide) (by decide)]
  simp [eq_comm]

lemma readVarint_octets (v : UInt64) (rest : Bytes) : readVarint (varintOctets v ++ rest) = (some v, rest) := by
  have word : v.toNat < 128 ^ 10 := by
    have := v.toNat_lt
    omega
  rw [readVarint_iff, varintOctets_eq]
  exact ⟨_, rfl, Base128.octets_terminated _, Base128.octets_length_le (by decide) word, Base128.value_octets _⟩

lemma shiftLeft_three (number : UInt32) : (number.toUInt64 <<< 3).toNat = 8 * number.toNat := by
  have bound := number.toNat_lt
  change number.toNat <<< 3 % 2 ^ 64 = _
  omega

lemma key_toNat (number : UInt32) (wireType : WireType) :
    (number.toUInt64 <<< 3 ||| wireType.code).toNat = 8 * number.toNat + wireType.code.toNat := by
  have small : wireType.code.toNat < 2 ^ 3 := by cases wireType <;> decide
  rw [UInt64.toNat_or, shiftLeft_three]
  exact (Nat.two_pow_add_eq_or_of_lt small number.toNat).symm

lemma key_number (number : UInt32) (wireType : WireType) :
    (number.toUInt64 <<< 3 ||| wireType.code) >>> 3 = number.toUInt64 := by
  have small : wireType.code.toNat < 8 := by cases wireType <;> decide
  apply UInt64.toNat_inj.mp
  rw [UInt64.toNat_shiftRight, key_toNat, UInt32.toNat_toUInt64]
  change (8 * number.toNat + wireType.code.toNat) >>> 3 = _
  omega

lemma key_wireType (number : UInt32) (wireType : WireType) :
    WireType.ofCode ((number.toUInt64 <<< 3 ||| wireType.code) &&& 0x07) = some wireType := by
  have small : wireType.code.toNat < 8 := by cases wireType <;> decide
  have code : (number.toUInt64 <<< 3 ||| wireType.code) &&& 0x07 = wireType.code := by
    apply UInt64.toNat_inj.mp
    rw [UInt64.toNat_and, key_toNat]
    change (8 * number.toNat + wireType.code.toNat) &&& (2 ^ 3 - 1) = _
    rw [Nat.and_two_pow_sub_one_eq_mod]
    omega
  rw [code]
  cases wireType <;> rfl

def Numbered (number : UInt32) : Prop := number ≠ 0 ∧ number ≤ maxFieldNumber

lemma readField_key {number : UInt32} (numbered : Numbered number) (wireType : WireType) (rest : Bytes) :
    readField (varintOctets (number.toUInt64 <<< 3 ||| wireType.code) ++ rest) = readPayload number rest wireType := by
  have some_ : varintOctets (number.toUInt64 <<< 3 ||| wireType.code) ++ rest ≠ [] := by
    rw [varintOctets_eq]
    simp [(Base128.octets_terminated _).ne_nil]
  have bound := UInt32.le_iff_toNat_le.mp numbered.2
  have valid : ¬(number.toUInt64 = 0 ∨ number.toUInt64 > maxFieldNumber.toUInt64) := by
    rintro (zero | above)
    · exact numbered.1 (UInt32.toNat_inj.mp (by simpa using congrArg UInt64.toNat zero))
    · have := UInt64.lt_iff_toNat_lt.mp above
      rw [UInt32.toNat_toUInt64, UInt32.toNat_toUInt64] at this
      omega
  have narrow : number.toUInt64.toUInt32 = number := by simp
  rw [readField, if_neg some_, readVarint_octets]
  dsimp only
  rw [key_number, if_neg valid, key_wireType, narrow]

lemma or_octet {x : UInt32} (shift : k ≤ 24) (low : x.toNat < 2 ^ k) :
    (x ||| b.toUInt32 <<< UInt32.ofNat k).toNat = x.toNat + b.toNat * 2 ^ k := by
  have amount : (UInt32.ofNat k).toNat % 32 = k := by
    rw [UInt32.toNat_ofNat']
    omega
  have fits := calc b.toNat * 2 ^ k < 2 ^ 8 * 2 ^ k := Nat.mul_lt_mul_of_pos_right b.toNat_lt (Nat.two_pow_pos k)
      _ = 2 ^ (8 + k) := (pow_add _ _ _).symm
      _ ≤ 2 ^ 32 := Nat.pow_le_pow_right (by decide) (by omega)
  rw [UInt32.toNat_or, UInt32.toNat_shiftLeft, UInt8.toNat_toUInt32, amount, Nat.shiftLeft_eq, Nat.mod_eq_of_lt fits,
    mul_comm, Nat.or_comm, ← Nat.two_pow_add_eq_or_of_lt low, add_comm]

lemma load32Le_toNat (a b c d : UInt8) (rest : Bytes) :
    (load32Le (a :: b :: c :: d :: rest)).toNat = a.toNat + b.toNat * 2 ^ 8 + c.toNat * 2 ^ 16 + d.toNat * 2 ^ 24 := by
  have := a.toNat_lt
  have := b.toNat_lt
  have := c.toNat_lt
  have first := UInt8.toNat_toUInt32 a
  have second := or_octet (x := a.toUInt32) (b := b) (k := 8) (by decide) (by omega)
  have third := or_octet (x := a.toUInt32 ||| b.toUInt32 <<< UInt32.ofNat 8) (b := c) (k := 16) (by decide) (by omega)
  have fourth := or_octet (x := a.toUInt32 ||| b.toUInt32 <<< UInt32.ofNat 8 ||| c.toUInt32 <<< UInt32.ofNat 16) (b := d)
    (k := 24) (by decide) (by omega)
  rw [third, second] at fourth
  exact fourth

lemma load64Le_toNat (a b c d e f g h : UInt8) (rest : Bytes) :
    (load64Le (a :: b :: c :: d :: e :: f :: g :: h :: rest)).toNat =
      (load32Le [a, b, c, d]).toNat + (load32Le [e, f, g, h]).toNat * 2 ^ 32 := by
  have low := (load32Le [a, b, c, d]).toNat_lt
  have high := (load32Le [e, f, g, h]).toNat_lt
  change ((load32Le [a, b, c, d]).toUInt64 ||| (load32Le [e, f, g, h]).toUInt64 <<< 32).toNat = _
  rw [UInt64.toNat_or, UInt32.toNat_toUInt64]
  change _ ||| (load32Le [e, f, g, h]).toNat <<< 32 % 2 ^ 64 = _
  rw [Nat.shiftLeft_eq, Nat.mod_eq_of_lt (by omega), mul_comm, Nat.or_comm, ← Nat.two_pow_add_eq_or_of_lt low, add_comm]

lemma shifted_octet_32 (v : UInt32) (shift : k < 32) :
    (v >>> UInt32.ofNat k).toUInt8.toNat = v.toNat / 2 ^ k % 256 := by
  have amount : (UInt32.ofNat k).toNat % 32 = k := by
    rw [UInt32.toNat_ofNat']
    omega
  rw [UInt32.toNat_toUInt8, UInt32.toNat_shiftRight, amount, Nat.shiftRight_eq_div_pow]

lemma load32Le_octets (v : UInt32) :
    load32Le [v.toUInt8, (v >>> 8).toUInt8, (v >>> 16).toUInt8, (v >>> 24).toUInt8] = v := by
  apply UInt32.toNat_inj.mp
  have word := v.toNat_lt
  have second : (v >>> 8).toUInt8.toNat = v.toNat / 2 ^ 8 % 256 := shifted_octet_32 v (by decide)
  have third : (v >>> 16).toUInt8.toNat = v.toNat / 2 ^ 16 % 256 := shifted_octet_32 v (by decide)
  have fourth : (v >>> 24).toUInt8.toNat = v.toNat / 2 ^ 24 % 256 := shifted_octet_32 v (by decide)
  rw [load32Le_toNat, UInt32.toNat_toUInt8]
  omega

lemma shifted_octet_64 (v : UInt64) (shift : k < 64) :
    (v >>> UInt64.ofNat k).toUInt8.toNat = v.toNat / 2 ^ k % 256 := by
  have amount : (UInt64.ofNat k).toNat % 64 = k := by
    rw [UInt64.toNat_ofNat']
    omega
  rw [UInt64.toNat_toUInt8, UInt64.toNat_shiftRight, amount, Nat.shiftRight_eq_div_pow]

lemma load64Le_octets (v : UInt64) :
    load64Le ((List.range 8).map fun i => (v >>> UInt64.ofNat (i * 8)).toUInt8) = v := by
  have word := v.toNat_lt
  have octet (i : Nat) (place : i < 8) : (v >>> UInt64.ofNat (i * 8)).toUInt8.toNat = v.toNat / 2 ^ (i * 8) % 256 :=
    shifted_octet_64 v (by omega)
  apply UInt64.toNat_inj.mp
  change (load64Le [(v >>> UInt64.ofNat (0 * 8)).toUInt8, (v >>> UInt64.ofNat (1 * 8)).toUInt8,
    (v >>> UInt64.ofNat (2 * 8)).toUInt8, (v >>> UInt64.ofNat (3 * 8)).toUInt8, (v >>> UInt64.ofNat (4 * 8)).toUInt8,
    (v >>> UInt64.ofNat (5 * 8)).toUInt8, (v >>> UInt64.ofNat (6 * 8)).toUInt8, (v >>> UInt64.ofNat (7 * 8)).toUInt8]).toNat = _
  rw [load64Le_toNat, load32Le_toNat, load32Le_toNat, octet 0 (by decide), octet 1 (by decide), octet 2 (by decide),
    octet 3 (by decide), octet 4 (by decide), octet 5 (by decide), octet 6 (by decide), octet 7 (by decide)]
  omega

inductive Write where
  | uint64 (number : UInt32) (value : UInt64)
  | int64 (number : UInt32) (value : Int64)
  | bool (number : UInt32) (value : Int32)
  | fixed32 (number : UInt32) (value : UInt32)
  | fixed64 (number : UInt32) (value : UInt64)
  | float (number : UInt32) (bits : UInt32)
  | double (number : UInt32) (bits : UInt64)
  | bytes (number : UInt32) (data : Bytes)
  | string (number : UInt32) (value : CStr)
  deriving DecidableEq

def Writer.write (mem : Nat → Bool) (w : Writer) : Write → Bool × Writer
  | .uint64 number value => w.writeUint64Field mem number value
  | .int64 number value => w.writeInt64Field mem number value
  | .bool number value => w.writeBoolField mem number value
  | .fixed32 number value => w.writeFixed32Field mem number value
  | .fixed64 number value => w.writeFixed64Field mem number value
  | .float number bits => w.writeFloatField mem number bits
  | .double number bits => w.writeDoubleField mem number bits
  | .bytes number data => w.writeBytesField mem number data
  | .string number value => w.writeStringField mem number value

def Writer.writeAll (mem : Nat → Bool) (w : Writer) : List Write → Bool × Writer
  | [] => (true, w)
  | write :: writes => andThen (w.write mem write) (·.writeAll mem writes)

def Field.Holds (field : Field) : Write → Prop
  | .uint64 number value => field.number = number ∧ field.wireType = .varint ∧ field.varint = value
  | .int64 number value => field.number = number ∧ field.wireType = .varint ∧ field.varint.toInt64 = value
  | .bool number value => field.number = number ∧ field.wireType = .varint ∧ (field.varint ≠ 0 ↔ value ≠ 0)
  | .fixed32 number value | .float number value =>
    field.number = number ∧ field.wireType = .bits32 ∧ load32Le field.bytes = value
  | .fixed64 number value | .double number value =>
    field.number = number ∧ field.wireType = .bits64 ∧ load64Le field.bytes = value
  | .bytes number data => field.number = number ∧ field.wireType = .len ∧ field.bytes = data
  | .string number value => field.number = number ∧ field.wireType = .len ∧ field.bytes = value.bytes

inductive Reads : Bytes → List Field → Prop where
  | finished {r : Bytes} (done : readField r = (.finished, r)) : Reads r []
  | field {r r' : Bytes} {field : Field} {fields : List Field} (read : readField r = (.field field, r'))
    (others : Reads r' fields) : Reads r (field :: fields)

namespace Writer

variable {mem : Nat → Bool} {w w' : Writer}

variable {value : UInt64} {number : UInt32} {wireType : WireType}

lemma andThen_eq_true {first : Bool × Writer} {next : Writer → Bool × Writer} :
    andThen first next = (true, w') ↔ ∃ w, first = (true, w) ∧ next w = (true, w') := by
  obtain ⟨ok, w⟩ := first
  cases ok <;> simp [andThen]

lemma reserve_true {extra : Nat} (reserved : w.reserve mem extra = (true, w')) : w'.data = w.data ∧ extra < 2 ^ 64 := by
  unfold reserve at reserved
  split_ifs at reserved with large <;> cases reserved <;> refine ⟨rfl, ?_⟩ <;> unfold sizeMax at large <;> omega

lemma append_true {octets : Bytes} (appended : append octets w = (true, w')) : w'.data = w.data ++ octets := by
  cases appended
  rfl

lemma writeVarint_true (written : w.writeVarint mem value = (true, w')) : w'.data = w.data ++ varintOctets value := by
  obtain ⟨w₁, reserved, appended⟩ := andThen_eq_true.mp written
  rw [append_true appended, (reserve_true reserved).1]

lemma writeKey_true (written : w.writeKey mem number wireType = (true, w')) :
    Numbered number ∧ w'.data = w.data ++ varintOctets (number.toUInt64 <<< 3 ||| wireType.code) := by
  unfold writeKey at written
  split at written
  · cases written
  next numbered =>
    rw [not_or, UInt32.not_lt] at numbered
    exact ⟨numbered, writeVarint_true written⟩

def Appends (w w' : Writer) (holds : Field → Prop) : Prop :=
  ∃ octets, w'.data = w.data ++ octets ∧ ∀ rest, ∃ field, readField (octets ++ rest) = (.field field, rest) ∧ holds field

lemma appends_fixed {holds : Field → Prop} (payload : Bytes)
    (key : Numbered number ∧ w'.data = w.data ++ (varintOctets (number.toUInt64 <<< 3 ||| wireType.code) ++ payload))
    (read : ∀ rest, readPayload number (payload ++ rest) wireType = readBytes number wireType payload.length (payload ++ rest))
    (held : holds ⟨number, wireType, 0, payload⟩) : Appends w w' holds := by
  refine ⟨_, key.2, fun rest => ⟨⟨number, wireType, 0, payload⟩, ?_, held⟩⟩
  rw [append_assoc, readField_key key.1, read, readBytes, if_neg (by simp), take_left, drop_left]

lemma writeUint64Field_appends (written : w.writeUint64Field mem number value = (true, w')) :
    Appends w w' fun field => field.number = number ∧ field.wireType = .varint ∧ field.varint = value := by
  obtain ⟨w₁, keyed, written⟩ := andThen_eq_true.mp written
  obtain ⟨numbered, key⟩ := writeKey_true keyed
  refine ⟨varintOctets (number.toUInt64 <<< 3 ||| WireType.varint.code) ++ varintOctets value, ?_, fun rest => ?_⟩
  · rw [writeVarint_true written, key, append_assoc]
  · refine ⟨⟨number, .varint, value, []⟩, ?_, rfl, rfl, rfl⟩
    rw [append_assoc, readField_key numbered, readPayload, readVarint_octets]

lemma writeFixed32Field_appends {value : UInt32} (written : w.writeFixed32Field mem number value = (true, w')) :
    Appends w w' fun field => field.number = number ∧ field.wireType = .bits32 ∧ load32Le field.bytes = value := by
  obtain ⟨w₁, keyed, written⟩ := andThen_eq_true.mp written
  obtain ⟨w₂, reserved, appended⟩ := andThen_eq_true.mp written
  obtain ⟨numbered, key⟩ := writeKey_true keyed
  refine appends_fixed [value.toUInt8, (value >>> 8).toUInt8, (value >>> 16).toUInt8, (value >>> 24).toUInt8]
    ⟨numbered, ?_⟩ (fun rest => rfl) ⟨rfl, rfl, load32Le_octets value⟩
  rw [append_true appended, (reserve_true reserved).1, key, append_assoc]

lemma writeFixed64Field_appends (written : w.writeFixed64Field mem number value = (true, w')) :
    Appends w w' fun field => field.number = number ∧ field.wireType = .bits64 ∧ load64Le field.bytes = value := by
  obtain ⟨w₁, keyed, written⟩ := andThen_eq_true.mp written
  obtain ⟨w₂, reserved, appended⟩ := andThen_eq_true.mp written
  obtain ⟨numbered, key⟩ := writeKey_true keyed
  refine appends_fixed ((List.range 8).map fun i => (value >>> UInt64.ofNat (i * 8)).toUInt8) ⟨numbered, ?_⟩
    (fun rest => rfl) ⟨rfl, rfl, load64Le_octets value⟩
  rw [append_true appended, (reserve_true reserved).1, key, append_assoc]

lemma writeBytesField_appends {data : Bytes} (written : w.writeBytesField mem number data = (true, w')) :
    Appends w w' fun field => field.number = number ∧ field.wireType = .len ∧ field.bytes = data := by
  obtain ⟨w₁, keyed, written⟩ := andThen_eq_true.mp written
  obtain ⟨w₂, counted, written⟩ := andThen_eq_true.mp written
  obtain ⟨w₃, reserved, appended⟩ := andThen_eq_true.mp written
  obtain ⟨numbered, key⟩ := writeKey_true keyed
  obtain ⟨same, short⟩ := reserve_true reserved
  have length := UInt64.toNat_ofNat_of_lt' short
  refine ⟨varintOctets (number.toUInt64 <<< 3 ||| WireType.len.code) ++ (varintOctets (UInt64.ofNat data.length) ++ data),
    ?_, fun rest => ⟨⟨number, .len, 0, data⟩, ?_, rfl, rfl, rfl⟩⟩
  · rw [append_true appended, same, writeVarint_true counted, key, append_assoc, append_assoc]
  · rw [append_assoc, readField_key numbered, readPayload, append_assoc, readVarint_octets]
    dsimp only
    rw [length, readBytes, if_neg (by simp), take_left, drop_left]

lemma Appends.mono {P Q : Field → Prop} (appends : Appends w w' P) (imp : ∀ field, P field → Q field) : Appends w w' Q := by
  obtain ⟨octets, same, read⟩ := appends
  refine ⟨octets, same, fun rest => ?_⟩
  obtain ⟨field, taken, holds⟩ := read rest
  exact ⟨field, taken, imp field holds⟩

lemma write_appends {write : Write} (written : w.write mem write = (true, w')) : Appends w w' (·.Holds write) := by
  cases write with
  | uint64 number value => exact writeUint64Field_appends written
  | int64 number value =>
    refine (writeUint64Field_appends written).mono fun field holds => ⟨holds.1, holds.2.1, ?_⟩
    rw [holds.2.2, Int64.toInt64_toUInt64]
  | bool number value =>
    refine (writeUint64Field_appends written).mono fun field holds => ⟨holds.1, holds.2.1, ?_⟩
    rw [holds.2.2]
    split <;> simp_all
  | fixed32 number value | float number value => exact writeFixed32Field_appends written
  | fixed64 number value | double number value => exact writeFixed64Field_appends written
  | bytes number data => exact writeBytesField_appends written
  | string number value => exact writeBytesField_appends written

lemma writeAll_reads {writes : List Write} (written : w.writeAll mem writes = (true, w')) :
    ∃ octets fields, w'.data = w.data ++ octets ∧ Reads octets fields ∧ List.Forall₂ Field.Holds fields writes := by
  induction writes generalizing w with
  | nil =>
    cases written
    exact ⟨[], [], (append_nil _).symm, .finished rfl, .nil⟩
  | cons write writes ih =>
    obtain ⟨w₁, first, others⟩ := andThen_eq_true.mp written
    obtain ⟨front, same, read⟩ := write_appends first
    obtain ⟨octets, fields, same', reads, hold⟩ := ih others
    obtain ⟨field, taken, holds⟩ := read octets
    refine ⟨front ++ octets, field :: fields, ?_, .field taken reads, .cons holds hold⟩
    rw [same', same, append_assoc]

end Writer

/-- The fields that a writer has taken without an error are read back in their order with their numbers, wire types and
values, and then there is nothing left; and a varint is read exactly when it ends within ten octets and its value fits into
64 bits. -/
theorem fields_round_trip {mem : Nat → Bool} {writes : List Write} {w : Writer}
    (written : Writer.init.writeAll mem writes = (true, w)) :
    (∃ fields, Reads w.data fields ∧ List.Forall₂ Field.Holds fields writes) ∧
      ∀ (bytes rest : Bytes) (v : UInt64), readVarint bytes = (some v, rest) ↔
        ∃ enc, bytes = enc ++ rest ∧ Terminated enc ∧ enc.length ≤ 10 ∧ value enc = v.toNat := by
  obtain ⟨octets, fields, same, reads, hold⟩ := Writer.writeAll_reads written
  exact ⟨⟨fields, same ▸ reads, hold⟩, fun _ _ _ => readVarint_iff⟩

theorem fields_round_trip_sample :
    ∃ w fields, Writer.init.writeAll (fun _ => true) [.int64 1 (-1), .string 536870911 (.ofBytes (ascii "hi"))] = (true, w) ∧
      Reads w.data fields ∧ List.Forall₂ Field.Holds fields [.int64 1 (-1), .string 536870911 (.ofBytes (ascii "hi"))] :=
  have written : Writer.init.writeAll (fun _ => true) [.int64 1 (-1), .string 536870911 (.ofBytes (ascii "hi"))] =
      (true, (Writer.init.writeAll (fun _ => true) [.int64 1 (-1), .string 536870911 (.ofBytes (ascii "hi"))]).2) :=
    Prod.ext (by decide +kernel) rfl
  (fields_round_trip written).1.elim fun fields read => ⟨_, fields, written, read⟩

/-! ### Failed writes -/

inductive WriteCall where
  | varint (value : UInt64)
  | key (number : UInt32) (wireType : WireType)
  | raw32 (value : UInt32)
  | raw64 (value : UInt64)
  | field (write : Write)

def Writer.call (mem : Nat → Bool) (w : Writer) : WriteCall → Bool × Writer
  | .varint value => w.writeVarint mem value
  | .key number wireType => w.writeKey mem number wireType
  | .raw32 value => w.writeRaw32 mem value
  | .raw64 value => w.writeRaw64 mem value
  | .field write => w.write mem write

def Write.number : Write → UInt32
  | .uint64 number _ | .int64 number _ | .bool number _ | .fixed32 number _ | .fixed64 number _ | .float number _
  | .double number _ | .bytes number _ | .string number _ => number

def keyOctets (number : UInt32) (wireType : WireType) : Bytes :=
  varintOctets (number.toUInt64 <<< 3 ||| wireType.code)

def raw32Octets (value : UInt32) : Bytes :=
  [value.toUInt8, (value >>> 8).toUInt8, (value >>> 16).toUInt8, (value >>> 24).toUInt8]

def raw64Octets (value : UInt64) : Bytes := (List.range 8).map fun i => (value >>> UInt64.ofNat (i * 8)).toUInt8

/-- The appends behind the key of a field, each with the room that it asks for. -/
def Write.payload : Write → List (Nat × Bytes)
  | .uint64 _ value => [(10, varintOctets value)]
  | .int64 _ value => [(10, varintOctets value.toUInt64)]
  | .bool _ value => [(10, varintOctets (if value = 0 then 0 else 1))]
  | .fixed32 _ value | .float _ value => [(4, raw32Octets value)]
  | .fixed64 _ value | .double _ value => [(8, raw64Octets value)]
  | .bytes _ data => [(10, varintOctets (UInt64.ofNat data.length)), (data.length, data)]
  | .string _ value => [(10, varintOctets (UInt64.ofNat value.bytes.length)), (value.bytes.length, value.bytes)]

def Write.wireType : Write → WireType
  | .uint64 _ _ | .int64 _ _ | .bool _ _ => .varint
  | .fixed32 _ _ | .float _ _ => .bits32
  | .fixed64 _ _ | .double _ _ => .bits64
  | .bytes _ _ | .string _ _ => .len

namespace WriteCall

/-- A key is written for the field numbers of the format alone. -/
def Numbered : WriteCall → Prop
  | .key number _ => Pb.Numbered number
  | .field write => Pb.Numbered write.number
  | _ => True

def first : WriteCall → Nat × Bytes
  | .varint value => (10, varintOctets value)
  | .key number wireType => (10, keyOctets number wireType)
  | .raw32 value => (4, raw32Octets value)
  | .raw64 value => (8, raw64Octets value)
  | .field write => (10, keyOctets write.number write.wireType)

def later : WriteCall → List (Nat × Bytes)
  | .field write => write.payload
  | _ => []

end WriteCall

namespace Writer

def Room (mem : Nat → Bool) (w : Writer) (extra : Nat) : Prop :=
  extra ≤ sizeMax - w.data.length ∧ (w.data.length + extra ≤ w.cap ∨ mem w.reallocs = true)

def appendOne (mem : Nat → Bool) (w : Writer) (piece : Nat × Bytes) : Bool × Writer :=
  andThen (w.reserve mem piece.1) (append piece.2)

def appendAll (mem : Nat → Bool) (w : Writer) : List (Nat × Bytes) → Bool × Writer
  | [] => (true, w)
  | piece :: pieces => andThen (w.appendOne mem piece) (·.appendAll mem pieces)

/-- Each append finds room in the writer that the appends before it leave. -/
def Fits (mem : Nat → Bool) (w : Writer) : List (Nat × Bytes) → Prop
  | [] => True
  | piece :: pieces => w.Room mem piece.1 ∧ (w.appendOne mem piece).2.Fits mem pieces

variable (mem : Nat → Bool) (w : Writer)

lemma appendOne_cases (piece : Nat × Bytes) :
    (w.Room mem piece.1 ∧ (w.appendOne mem piece).1 = true ∧ (w.appendOne mem piece).2.data = w.data ++ piece.2) ∨
      ¬w.Room mem piece.1 ∧ (w.appendOne mem piece).1 = false ∧ (w.appendOne mem piece).2.data = w.data := by
  unfold Room appendOne reserve
  split
  · exact .inr ⟨by omega, rfl, rfl⟩
  split
  next large short => exact .inl ⟨⟨by omega, .inl short⟩, rfl, rfl⟩
  split
  next large _ granted => exact .inl ⟨⟨by omega, .inr granted⟩, rfl, rfl⟩
  next large short refused => exact .inr ⟨by simp [short, refused], rfl, rfl⟩

lemma andThen_eq {r : Bool × Writer} {next : Writer → Bool × Writer} : andThen r next = if r.1 then next r.2 else (false, r.2) := by
  obtain ⟨ok, w⟩ := r
  cases ok <;> rfl

lemma appendAll_extends (pieces : List (Nat × Bytes)) : ((w.appendAll mem pieces).1 = true ↔ w.Fits mem pieces) ∧
    ∃ more, (w.appendAll mem pieces).2.data = w.data ++ more := by
  induction pieces generalizing w with
  | nil => exact ⟨iff_of_true rfl trivial, [], (append_nil _).symm⟩
  | cons piece pieces ih =>
    rw [appendAll, Fits, andThen_eq]
    rcases appendOne_cases mem w piece with ⟨room, ok, same⟩ | ⟨full, failed, same⟩
    · obtain ⟨goesOn, more, later⟩ := ih (w.appendOne mem piece).2
      rw [if_pos ok]
      exact ⟨goesOn.trans (and_iff_right room).symm, piece.2 ++ more, by rw [later, same, append_assoc]⟩
    · rw [if_neg (by simp [failed])]
      exact ⟨iff_of_false nofun fun fits => full fits.1, [], by rw [append_nil]; exact same⟩

lemma writeKey_eq (number : UInt32) (wireType : WireType) : (Pb.Numbered number ∧
      w.writeKey mem number wireType = w.appendOne mem (10, keyOctets number wireType)) ∨
    ¬Pb.Numbered number ∧ w.writeKey mem number wireType = (false, w) := by
  unfold writeKey
  split
  next refused => exact .inr ⟨fun numbered => refused.elim numbered.1 (UInt32.not_lt.mpr numbered.2), rfl⟩
  next numbered =>
    rw [not_or, UInt32.not_lt] at numbered
    exact .inl ⟨numbered, rfl⟩

lemma appendAll_singleton (piece : Nat × Bytes) : w.appendAll mem [piece] = w.appendOne mem piece := by
  simp only [appendAll, andThen_eq]
  rcases appendOne_cases mem w piece with ⟨-, ok, -⟩ | ⟨-, failed, -⟩
  · rw [if_pos ok, ← ok]
  · rw [if_neg (by simp [failed]), ← failed]

/-- A field is its key and then its payload. -/
lemma write_eq (write : Write) :
    w.write mem write = andThen (w.writeKey mem write.number write.wireType) (·.appendAll mem write.payload) := by
  have one (r : Bool × Writer) (piece : Nat × Bytes) :
      andThen r (·.appendOne mem piece) = andThen r (·.appendAll mem [piece]) := by
    simp only [appendAll_singleton]
  have two (r : Bool × Writer) (piece last : Nat × Bytes) :
      andThen r (fun w => andThen (w.appendOne mem piece) (·.appendOne mem last)) = andThen r (·.appendAll mem [piece, last]) := by
    simp only [one]
    rfl
  cases write with
  | uint64 _ _ | int64 _ _ | bool _ _ | fixed32 _ _ | float _ _ | fixed64 _ _ | double _ _ =>
    simp only [Write.payload, ← one]
    rfl
  | bytes _ _ | string _ _ =>
    simp only [Write.payload, ← two]
    rfl

lemma call_eq (c : WriteCall) : (c.Numbered ∧ w.call mem c = w.appendAll mem (c.first :: c.later)) ∨
    ¬c.Numbered ∧ w.call mem c = (false, w) := by
  cases c with
  | varint _ | raw32 _ | raw64 _ =>
    refine .inl ⟨trivial, ?_⟩
    simp only [WriteCall.later, appendAll_singleton]
    rfl
  | key number wireType =>
    refine (writeKey_eq mem w number wireType).imp_left fun wrote => ⟨wrote.1, ?_⟩
    simp only [WriteCall.later, appendAll_singleton]
    exact wrote.2
  | field write =>
    have same := write_eq mem w write
    rcases writeKey_eq mem w write.number write.wireType with ⟨numbered, key⟩ | ⟨refused, key⟩
    · exact .inl ⟨numbered, by rw [key] at same; exact same⟩
    · exact .inr ⟨refused, by rw [key] at same; exact same⟩

end Writer

lemma varintOctets_ne_nil (value : UInt64) : varintOctets value ≠ [] := by
  rw [varintOctets]
  split <;> exact cons_ne_nil _ _

lemma WriteCall.first_ne_nil (c : WriteCall) : c.first.2 ≠ [] := by
  cases c with
  | varint _ | key _ _ | field _ => exact varintOctets_ne_nil _
  | raw32 _ | raw64 _ => exact cons_ne_nil _ _

/-- A failing call leaves the contents as they were exactly when its first append is refused (the field number, or no
room), when it has no other append, or when every append has room, so that it does not fail. -/
theorem failed_write_unchanged_iff (mem : Nat → Bool) (w : Writer) (c : WriteCall) :
    ((w.call mem c).1 = false → (w.call mem c).2.data = w.data) ↔
      ¬(c.Numbered ∧ w.Room mem c.first.1) ∨ c.later = [] ∨ w.Fits mem (c.first :: c.later) := by
  rcases w.call_eq mem c with ⟨numbered, call⟩ | ⟨refused, call⟩
  swap
  · rw [call]
    exact iff_of_true (fun _ => rfl) (.inl fun starts => refused starts.1)
  obtain ⟨goesOn, -⟩ := Writer.appendAll_extends mem w (c.first :: c.later)
  rw [call]
  rcases Writer.appendOne_cases mem w c.first with ⟨room, ok, same⟩ | ⟨full, failed, same⟩
  · -- the first octets are there, so only a call that does not fail is within the claim
    obtain ⟨-, more, later⟩ := Writer.appendAll_extends mem (w.appendOne mem c.first).2 c.later
    have changed : (w.appendAll mem (c.first :: c.later)).2.data ≠ w.data := by
      rw [Writer.appendAll, Writer.andThen_eq, if_pos ok, later, same, append_assoc]
      exact fun none_ => c.first_ne_nil (append_eq_nil_iff.mp (self_eq_append_right.mp none_.symm)).1
    constructor
    · intro kept
      exact .inr (.inr (goesOn.mp (Bool.eq_true_of_not_eq_false fun fails => changed (kept fails))))
    · rintro (refused | single | fits) fails
      · exact absurd ⟨numbered, room⟩ refused
      · refine absurd (goesOn.mpr ⟨room, ?_⟩) (by simp [fails])
        rw [single]
        trivial
      · exact absurd (goesOn.mpr fits) (by simp [fails])
  · refine iff_of_true (fun _ => ?_) (.inl fun starts => full starts.2)
    rw [Writer.appendAll, Writer.andThen_eq, if_neg (by simp [failed])]
    exact same

/-- The key and the length are written, and then there is no memory for the octets behind them. -/
theorem failed_write_leaves_key : (Writer.init.call (· == 0) (.field (.bytes 1 (List.replicate 64 0)))).1 = false ∧
      (Writer.init.call (· == 0) (.field (.bytes 1 (List.replicate 64 0)))).2.data = [0x0a, 64] := by
  decide +kernel

end Cwist.Pb
