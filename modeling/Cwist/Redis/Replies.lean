import Cwist.Redis.Resp

namespace Cwist.Redis
open List Option

def crlf : Bytes := [0x0d, 0x0a]

def intValue : Bytes → Option Int
  | 0x2d :: digits => if digits ≠ [] ∧ digits.all isDigit then some (-digitsValue digits) else none
  | 0x2b :: digits => if digits ≠ [] ∧ digits.all isDigit then some (digitsValue digits) else none
  | digits => if digits ≠ [] ∧ digits.all isDigit then some (digitsValue digits) else none

inductive Wire where
  | simple (s : Bytes)
  | error (s : Bytes)
  | integer (text : Bytes)
  | bulk (lenText s : Bytes)
  | nullBulk
  | array (countText : Bytes) (elements : List Wire)
  | nullArray

mutual

def Wire.octets : Wire → Bytes
  | .simple s => 0x2b :: s ++ crlf
  | .error s => 0x2d :: s ++ crlf
  | .integer text => 0x3a :: text ++ crlf
  | .bulk lenText s => 0x24 :: lenText ++ crlf ++ (s ++ crlf)
  | .nullBulk => 0x24 :: ascii "-1" ++ crlf
  | .array countText elements => 0x2a :: countText ++ crlf ++ octetsAll elements
  | .nullArray => 0x2a :: ascii "-1" ++ crlf

def octetsAll : List Wire → Bytes
  | [] => []
  | w :: ws => w.octets ++ octetsAll ws

end

mutual

def Wire.WellFormed : Wire → Prop
  | .simple s | .error s => 0x0d ∉ s ∧ 0x0a ∉ s
  | .integer text => ∃ n, intValue text = some n ∧ -2 ^ 63 ≤ n ∧ n < 2 ^ 63
  | .bulk lenText s => IsNumber lenText ∧ digitsValue lenText = s.length
  | .array countText elements => IsNumber countText ∧ digitsValue countText = elements.length ∧ WellFormedAll elements
  | .nullBulk | .nullArray => True

def WellFormedAll : List Wire → Prop
  | [] => True
  | w :: ws => w.WellFormed ∧ WellFormedAll ws

end

mutual

def Wire.reply : Wire → Reply
  | .simple s => .simple s
  | .error s => .error s
  | .integer text => .integer ((intValue text).getD 0)
  | .bulk _ s => .bulk s
  | .nullBulk => .nullBulk
  | .array _ elements => .array (replyAll elements)
  | .nullArray => .nullArray

def replyAll : List Wire → List Reply
  | [] => []
  | w :: ws => w.reply :: replyAll ws

end

def LineFits (text : Bytes) : Prop := text.length + 3 < lineMax

mutual

def Wire.Fits : Nat → Wire → Prop
  | _, .simple s | _, .error s => LineFits s ∧ 0x00 ∉ s
  | _, .integer text => LineFits text
  | _, .bulk lenText s => LineFits lenText ∧ s.length ≤ maxBulkBytes
  | _, .nullBulk => True
  | 0, .array _ _ => False
  | levels + 1, .array countText elements =>
    LineFits countText ∧ elements.length ≤ maxReplyElements ∧ FitsAll levels elements
  | _, .nullArray => False

def FitsAll : Nat → List Wire → Prop
  | _, [] => True
  | levels, w :: ws => w.Fits levels ∧ FitsAll levels ws

end

mutual

def Wire.asks : Wire → Nat
  | .nullBulk | .nullArray => 1
  | .array _ [] => 1
  | .array _ (w :: ws) => 2 + (w.asks + asksAll ws)
  | _ => 2

def asksAll : List Wire → Nat
  | [] => 0
  | w :: ws => w.asks + asksAll ws

end

/-! ### Numbers -/

variable {text : Bytes}

lemma cString_eq_self_iff : cString text = text ↔ 0x00 ∉ text := by
  rw [cString, takeWhile_eq_self_iff]
  simp only [bne_iff_ne, ne_eq]
  exact ⟨fun all inside => all _ inside rfl, fun outside c inside zero => outside (zero ▸ inside)⟩

namespace IsNumber
variable {digits : Bytes}

section
variable (number : IsNumber digits)
include number

lemma strtoll : strtoll digits = some (clamp (digitsValue digits), []) := by
  obtain ⟨skip, minus, plus⟩ := number.head
  simp [Redis.strtoll, skip, minus, plus, number.takeWhile, number.dropWhile, number.1]

lemma strtoll_minus : Redis.strtoll (0x2d :: digits) = some (clamp (-digitsValue digits), []) := by
  have space : isSpace 0x2d = false := by decide
  simp [Redis.strtoll, space, number.takeWhile, number.dropWhile, number.1]

lemma strtoll_plus : Redis.strtoll (0x2b :: digits) = some (clamp (digitsValue digits), []) := by
  have space : isSpace 0x2b = false := by decide
  simp [Redis.strtoll, space, number.takeWhile, number.dropWhile, number.1]

lemma number_eq : Redis.number digits = some (clamp (digitsValue digits)) := by
  rw [Redis.number, cString_eq_self_iff.mpr number.nulFree, strtoll number]

end

end IsNumber

variable {n : Int} {room : Nat → Bool} {asked : Nat} {reply : Reply} {able able' : Prop} {front : Bytes} {out : Outcome}

lemma clamp_of_range (low : -2 ^ 63 ≤ n) (high : n < 2 ^ 63) : clamp n = n := by
  unfold clamp
  omega

lemma number_of_intValue (value : intValue text = some n) (low : -2 ^ 63 ≤ n)
    (high : n < 2 ^ 63) : number text = some n := by
  unfold intValue at value
  split at value
  next digits =>
    obtain ⟨isNumber, same⟩ := ite_none_right_eq_some.mp value
    obtain rfl := some.inj same
    have nul : 0x00 ∉ 0x2d :: digits := by simpa using IsNumber.nulFree isNumber
    rw [number, cString_eq_self_iff.mpr nul, IsNumber.strtoll_minus isNumber, clamp_of_range low high]
  next digits =>
    obtain ⟨isNumber, same⟩ := ite_none_right_eq_some.mp value
    obtain rfl := some.inj same
    have nul : 0x00 ∉ 0x2b :: digits := by simpa using IsNumber.nulFree isNumber
    rw [number, cString_eq_self_iff.mpr nul, IsNumber.strtoll_plus isNumber, clamp_of_range low high]
  · obtain ⟨isNumber, same⟩ := ite_none_right_eq_some.mp value
    obtain rfl := some.inj same
    rw [IsNumber.number_eq isNumber, clamp_of_range low high]

lemma intValue_plain (value : intValue text = some n) : 0x0a ∉ text := by
  have plain {digits : Bytes} (isNumber : IsNumber digits) : 0x0a ∉ digits := fun inside =>
    absurd (all_eq_true.mp isNumber.2 _ inside) (by decide)
  unfold intValue at value
  split at value
  all_goals
    obtain ⟨isNumber, -⟩ := ite_none_right_eq_some.mp value
    simpa using plain isNumber

/-! ### Lines -/

def sent (octets : Bytes) : List Arrival := octets.map .octet

@[simp] lemma sent_append (a b : Bytes) : sent (a ++ b) = sent a ++ sent b := map_append

@[simp] lemma sent_cons (c : UInt8) (a : Bytes) : sent (c :: a) = .octet c :: sent a := rfl

lemma recvLineLoop_fits {room : Nat} (line : Bytes) (rest : List Arrival) (plain : 0x0a ∉ front)
    (fits : front.length < room) :
    recvLineLoop room line (sent front ++ .octet 0x0a :: rest) = (some (stripCr (line ++ front)), rest) := by
  induction front generalizing room line with
  | nil =>
    obtain ⟨room, rfl⟩ := Nat.exists_eq_succ_of_ne_zero (ne_of_gt fits)
    simp [sent, recvLineLoop]
  | cons c front ih =>
    obtain ⟨room, rfl⟩ := Nat.exists_eq_succ_of_ne_zero (ne_of_gt (Nat.zero_lt_of_lt fits))
    obtain ⟨other, plain⟩ := not_or.mp (mem_cons.not.mp plain)
    have more := ih (line ++ [c]) plain (Nat.lt_of_succ_lt_succ fits)
    rw [sent_cons, cons_append, recvLineLoop, if_neg (Ne.symm other), more, append_assoc]
    rfl

lemma recvLineLoop_long {room : Nat} (line : Bytes) (rest : List Arrival) (plain : 0x0a ∉ front)
    (long : room ≤ front.length) : (recvLineLoop room line (sent front ++ rest)).1 = none := by
  induction front generalizing room line with
  | nil =>
    obtain rfl := Nat.le_zero.mp long
    simp [recvLineLoop]
  | cons c front ih =>
    cases room with
    | zero => simp [recvLineLoop]
    | succ room =>
      obtain ⟨other, plain⟩ := not_or.mp (mem_cons.not.mp plain)
      rw [sent_cons, cons_append, recvLineLoop, if_neg (Ne.symm other)]
      exact ih (line ++ [c]) plain (Nat.le_of_succ_le_succ long)

lemma stripCr_append (line : Bytes) : stripCr (line ++ [0x0d]) = line := by
  simp [stripCr]

lemma recvBytes_sent (s : Bytes) (rest : List Arrival) : recvBytes s.length (sent s ++ rest) = (some s, rest) := by
  induction s with
  | nil => rfl
  | cons c s ih =>
    rw [sent_cons, cons_append, length_cons, recvBytes, ih]
    rfl

/-! ### One reply -/

def Granted (room : Nat → Bool) (asked n : Nat) : Prop := ∀ k < n, room (asked + k) = true

lemma granted_add {m n : Nat} : Granted room asked (m + n) ↔ Granted room asked m ∧ Granted room (asked + m) n := by
  constructor
  · intro all
    refine ⟨fun k less => all k (by omega), fun k less => ?_⟩
    rw [Nat.add_assoc]
    exact all (m + k) (by omega)
  · rintro ⟨first, second⟩ k less
    by_cases early : k < m
    · exact first k early
    · have late := second (k - m) (by omega)
      rwa [show asked + m + (k - m) = asked + k by omega] at late

lemma granted_zero (room : Nat → Bool) (asked : Nat) : Granted room asked 0 := fun _ less => absurd less (Nat.not_lt_zero _)

lemma granted_one : Granted room asked 1 ↔ room asked = true := by
  constructor
  · intro all
    exact all 0 Nat.zero_lt_one
  · intro first k less
    obtain rfl : k = 0 := by omega
    exact first

lemma granted_two : Granted room asked 2 ↔ room asked = true ∧ room (asked + 1) = true := by
  have both : Granted room asked (1 + 1) ↔ _ := granted_add
  rwa [granted_one, granted_one] at both

/-- The outcome is this reply and this connection when the reader is able to read it, and not this reply otherwise. -/
structure Yields (out : Outcome) (reply : Reply) (conn : Conn) (able : Prop) : Prop where
  tree : out.tree.bind Tree.meaning = some reply ↔ able
  conn : able → out.conn = conn

lemma Yields.failed {conn : Conn} (none_ : out.tree = none) (unable : ¬able) : Yields out reply conn able where
  tree := by simp [none_, unable]
  conn := fun there => absurd there unable

lemma Yields.congr {conn : Conn} (same : able ↔ able')
    (yields : Yields out reply conn able) : Yields out reply conn able' := propext same ▸ yields

variable {array : Bytes → Conn → Outcome} {rest : List Arrival}

section One
variable {type : UInt8}

lemma readNode_line (plain : 0x0a ∉ type :: text) {conn : Conn} (line : Yields (readLine room array ⟨rest, asked + 1⟩ (type :: text)) reply conn able) :
    Yields (readNode room array ⟨sent (type :: text ++ crlf) ++ rest, asked⟩) reply conn
      (room asked = true ∧ LineFits text ∧ able) := by
  have arrivals : sent (type :: text ++ crlf) ++ rest = sent (type :: text ++ [0x0d]) ++ .octet 0x0a :: rest := by
    simp [crlf, sent]
  have plain' : 0x0a ∉ type :: text ++ [0x0d] := by
    rw [mem_append, not_or]
    exact ⟨plain, by decide⟩
  have length : (type :: text ++ [0x0d]).length = text.length + 2 := by simp
  rw [arrivals]
  unfold readNode Conn.alloc
  dsimp only
  cases memory : room asked with
  | false => exact .failed rfl (by simp)
  | true =>
    by_cases fits : LineFits text
    · have line' : recvLine (sent (type :: text ++ [0x0d]) ++ .octet 0x0a :: rest) = (some (type :: text), rest) := by
        have short : (type :: text ++ [0x0d]).length < lineMax - 1 := by
          unfold LineFits at fits
          omega
        rw [recvLine, recvLineLoop_fits [] rest plain' short, nil_append, stripCr_append]
      simp only [line', fits, Bool.not_true, if_false, true_and, Bool.false_eq_true]
      exact line
    · have line' : (recvLine (sent (type :: text ++ [0x0d]) ++ .octet 0x0a :: rest)).1 = none := by
        refine recvLineLoop_long [] _ plain' ?_
        unfold LineFits at fits
        omega
      generalize recvLine (sent (type :: text ++ [0x0d]) ++ .octet 0x0a :: rest) = received at line' ⊢
      obtain ⟨line', arrivals'⟩ := received
      subst line'
      exact .failed rfl (by simp [fits])

lemma readText_yields {error : Error} (same : (Tree.node type (some (cString text)) n []).meaning = some reply ↔ able) :
    Yields (readText room error type n text ⟨rest, asked + 1⟩) reply ⟨rest, asked + 2⟩
      (room (asked + 1) = true ∧ able) := by
  unfold readText Conn.alloc
  cases memory : room (asked + 1) with
  | false => exact .failed rfl (by simp)
  | true => exact ⟨by simpa using same, fun _ => rfl⟩

lemma text_yields (tag : UInt8) (reply : Reply) {s : Bytes} (plain : 0x0a ∉ tag :: s)
    (line : Yields (readLine room array ⟨rest, asked + 1⟩ (tag :: s)) reply ⟨rest, asked + 2⟩
      (room (asked + 1) = true ∧ 0x00 ∉ s)) :
    Yields (readNode room array ⟨sent (tag :: s ++ crlf) ++ rest, asked⟩) reply ⟨rest, asked + 2⟩
      ((LineFits s ∧ 0x00 ∉ s) ∧ Granted room asked 2) := by
  refine (readNode_line plain line).congr ?_
  rw [granted_two]
  tauto

lemma integer_yields (value : intValue text = some n) (low : -2 ^ 63 ≤ n) (high : n < 2 ^ 63) :
    Yields (readNode room array ⟨sent (0x3a :: text ++ crlf) ++ rest, asked⟩) (.integer n) ⟨rest, asked + 2⟩
      (LineFits text ∧ Granted room asked 2) := by
  have line : Yields (readLine room array ⟨rest, asked + 1⟩ (0x3a :: text)) (.integer n) ⟨rest, asked + 2⟩
      (room (asked + 1) = true ∧ True) := by
    have read : readLine room array ⟨rest, asked + 1⟩ (0x3a :: text) = readText room ⟨0⟩ 0x3a n text ⟨rest, asked + 1⟩ := by
      simp [readLine, number_of_intValue value low high]
    rw [read]
    exact readText_yields (by simp [Tree.meaning])
  refine (readNode_line (by simpa using intValue_plain value) line).congr ?_
  rw [granted_two]
  tauto

lemma nullBulk_yields :
    Yields (readNode room array ⟨sent (0x24 :: ascii "-1" ++ crlf) ++ rest, asked⟩) .nullBulk ⟨rest, asked + 1⟩
      (Granted room asked 1) := by
  have minus : number (ascii "-1") = some (-1) := by decide
  have line : Yields (readLine room array ⟨rest, asked + 1⟩ (0x24 :: ascii "-1")) .nullBulk ⟨rest, asked + 1⟩ True := by
    have read : readLine room array ⟨rest, asked + 1⟩ (0x24 :: ascii "-1") =
        ⟨⟨0⟩, some (.node 0x24 none 0 []), ⟨rest, asked + 1⟩⟩ := by
      simp [readLine, minus]
    rw [read]
    exact ⟨by simp [Tree.meaning], fun _ => rfl⟩
  refine (readNode_line (by decide) line).congr ?_
  have fits : LineFits (ascii "-1") := by unfold LineFits; decide
  rw [granted_one]
  tauto

lemma clamp_limit (n : Nat) {limit : Nat} (small : limit < 2 ^ 63 - 1) :
    (n ≤ limit → clamp n = n) ∧ (limit < n → (limit : Int) < clamp n) := by
  unfold clamp
  omega

lemma clamp_nonneg (n : Nat) : 0 ≤ clamp n := by
  unfold clamp
  omega

lemma IsNumber.plain {digits : Bytes} (isNumber : IsNumber digits) : 0x0a ∉ digits := fun inside =>
  absurd (all_eq_true.mp isNumber.2 _ inside) (by decide)

lemma bulk_yields {lenText s : Bytes} (isNumber : IsNumber lenText) (length : digitsValue lenText = s.length) :
    Yields (readNode room array ⟨sent (0x24 :: lenText ++ crlf ++ (s ++ crlf)) ++ rest, asked⟩) (.bulk s)
      ⟨rest, asked + 2⟩ ((LineFits lenText ∧ s.length ≤ maxBulkBytes) ∧ Granted room asked 2) := by
  have line : Yields (readLine room array ⟨sent (s ++ crlf) ++ rest, asked + 1⟩ (0x24 :: lenText)) (.bulk s)
      ⟨rest, asked + 2⟩ (s.length ≤ maxBulkBytes ∧ room (asked + 1) = true) := by
    have limit := clamp_limit s.length (show maxBulkBytes < 2 ^ 63 - 1 by decide)
    have nonneg := clamp_nonneg s.length
    have read : readLine room array ⟨sent (s ++ crlf) ++ rest, asked + 1⟩ (0x24 :: lenText) =
        readBulk room (clamp s.length).toNat ⟨sent (s ++ crlf) ++ rest, asked + 1⟩ := by
      simp [readLine, (IsNumber.number_eq isNumber), length, Int.not_lt.mpr nonneg]
    rw [read]
    unfold readBulk Conn.alloc
    by_cases small : s.length ≤ maxBulkBytes
    · have same : (clamp s.length).toNat = s.length := by rw [limit.1 small]; rfl
      have body : recvBytes s.length (sent (s ++ crlf) ++ rest) = (some s, sent crlf ++ rest) := by
        rw [sent_append, append_assoc, recvBytes_sent]
      have ending : recvBytes 2 (sent crlf ++ rest) = (some crlf, rest) := recvBytes_sent crlf rest
      rw [same, if_neg (not_lt.mpr small)]
      cases memory : room (asked + 1) with
      | false => exact .failed rfl (by simp)
      | true =>
        simp only [body, ending, Bool.not_true, Bool.false_eq_true, if_false]
        exact ⟨by simp [Tree.meaning, small], fun _ => rfl⟩
    · have large : (clamp s.length).toNat > maxBulkBytes := by
        omega
      rw [if_pos large]
      exact .failed rfl (by simp [small])
  have arrivals : sent (0x24 :: lenText ++ crlf ++ (s ++ crlf)) ++ rest =
      sent (0x24 :: lenText ++ crlf) ++ (sent (s ++ crlf) ++ rest) := by
    rw [sent_append _ (s ++ crlf), append_assoc]
  rw [arrivals]
  refine (readNode_line (by simpa using (IsNumber.plain isNumber)) line).congr ?_
  rw [granted_two]
  tauto

end One

/-! ### Arrays -/

section Codes

lemma readText_code {error : Error} (zero : error.errI16 = 0) (type : UInt8) (n : Int) (text : Bytes) (conn : Conn) :
    (readText room error type n text conn).error.errI16 = 0 := by
  unfold readText
  dsimp only
  split
  · exact zero
  · rfl

lemma readBulk_code (blen : Nat) (conn : Conn) : (readBulk room blen conn).error.errI16 = 0 := by
  unfold readBulk
  repeat' split
  all_goals rfl

lemma readArray_code (read : Conn → Outcome) (text : Bytes) (conn : Conn) :
    (readArray room read text conn).error.errI16 = 0 := by
  unfold readArray
  repeat' split
  all_goals rfl

section
variable (zero : ∀ text conn, (array text conn).error.errI16 = 0) (conn : Conn)
include zero conn

lemma readLine_code (line : Bytes) : (readLine room array conn line).error.errI16 = 0 := by
  unfold readLine
  split
  · rfl
  split
  · exact readText_code rfl _ _ _ _
  split
  · exact readText_code rfl _ _ _ _
  split
  · split
    · rfl
    · exact readText_code rfl _ _ _ _
  split
  · split
    · rfl
    split
    · rfl
    · exact readBulk_code _ _
  split
  · exact zero _ _
  · rfl

lemma readNode_code : (readNode room array conn).error.errI16 = 0 := by
  unfold readNode
  dsimp only
  split
  · rfl
  split
  · rfl
  · exact readLine_code zero _ _

end

lemma readResp_code (levels : Nat) (conn : Conn) : (readResp room levels conn).error.errI16 = 0 := by
  cases levels with
  | zero => exact readNode_code (fun _ _ => rfl) conn
  | succ levels => exact readNode_code (readArray_code _) conn

end Codes

/-- As `Yields`, for the elements of an array. -/
structure YieldsAll (out : Option (List (Option Tree)) × Conn) (replies : List Reply) (conn : Conn) (able : Prop) :
    Prop where
  elements : out.1.bind meaningAll = some replies ↔ able
  conn : able → out.2 = conn

lemma meaningAll_cons (tree : Option Tree) (trees : Option (List (Option Tree))) (reply : Reply) (replies : List Reply) :
    (trees.map (tree :: ·)).bind meaningAll = some (reply :: replies) ↔
      tree.bind Tree.meaning = some reply ∧ trees.bind meaningAll = some replies := by
  cases trees with
  | none => simp
  | some trees =>
    cases tree with
    | none => simp [meaningAll]
    | some tree =>
      simp only [map_some, bind_some, meaningAll]
      cases tree.meaning <;> cases meaningAll trees <;> simp

lemma YieldsAll.cons {read : Conn → Outcome} (zero : ∀ conn, (read conn).error.errI16 = 0) {conn conn₁ conn₂ : Conn} {replies : List Reply} {count : Nat} (first : Yields (read conn) reply conn₁ able)
    (others : YieldsAll (readElements read count conn₁) replies conn₂ able') :
    YieldsAll (readElements read (count + 1) conn) (reply :: replies) conn₂ (able ∧ able') := by
  rw [readElements, if_neg (not_not.mpr (zero conn))]
  constructor
  · rw [meaningAll_cons, first.tree]
    refine and_congr_right fun there => ?_
    rw [first.conn there]
    exact others.elements
  · rintro ⟨there, there'⟩
    rw [first.conn there]
    exact others.conn there'

variable {countText : Bytes}

section Array
variable {read : Conn → Outcome} {count : Nat}

lemma array_nil_yields (isNumber : IsNumber countText) (none_ : digitsValue countText = 0) :
    Yields (readNode room (readArray room read) ⟨sent (0x2a :: countText ++ crlf) ++ rest, asked⟩) (.array [])
      ⟨rest, asked + 1⟩ (LineFits countText ∧ Granted room asked 1) := by
  have line : Yields (readLine room (readArray room read) ⟨rest, asked + 1⟩ (0x2a :: countText)) (.array [])
      ⟨rest, asked + 1⟩ True := by
    have zero : clamp 0 = 0 := by decide
    have read' : readLine room (readArray room read) ⟨rest, asked + 1⟩ (0x2a :: countText) =
        ⟨⟨0⟩, some (.node 0x2a none 0 []), ⟨rest, asked + 1⟩⟩ := by
      simp [readLine, readArray, (IsNumber.number_eq isNumber), none_, zero, maxReplyElements]
    rw [read']
    exact ⟨by simp [Tree.meaning, meaningAll], fun _ => rfl⟩
  refine (readNode_line (by simpa using (IsNumber.plain isNumber)) line).congr ?_
  rw [granted_one]
  tauto

lemma readArray_beyond {count : Int} (conn : Conn) (value : number text = some count)
    (beyond : (maxReplyElements : Int) < count) : readArray room read text conn = fail conn := by
  unfold readArray
  rw [value]
  exact if_pos (.inr beyond)

lemma readArray_within (conn : Conn) (value : number text = some (count : Int))
    (positive : 0 < count) (within : count ≤ maxReplyElements) :
    readArray room read text conn =
      if !room conn.asked then fail { conn with asked := conn.asked + 1 }
      else
        match readElements read count { conn with asked := conn.asked + 1 } with
        | (none, conn) => fail conn
        | (some element, conn) => ⟨⟨0⟩, some (.node 0x2a none 0 element), conn⟩ := by
  unfold readArray
  rw [value]
  have small : ¬((count : Int) < 0 ∨ (count : Int) > maxReplyElements) := by omega
  have some_ : ¬(count : Int) = 0 := by omega
  simp only [small, some_, if_false, Int.toNat_natCast]
  rfl

lemma array_yields (isNumber : IsNumber countText) (length : digitsValue countText = count)
    (positive : 0 < count) {replies : List Reply} {conn : Conn}
    (elements : YieldsAll (readElements read count ⟨rest, asked + 2⟩) replies conn able) :
    Yields (readNode room (readArray room read) ⟨sent (0x2a :: countText ++ crlf) ++ rest, asked⟩) (.array replies) conn
      (LineFits countText ∧ count ≤ maxReplyElements ∧ Granted room asked 2 ∧ able) := by
  have line : Yields (readLine room (readArray room read) ⟨rest, asked + 1⟩ (0x2a :: countText)) (.array replies) conn
      (count ≤ maxReplyElements ∧ room (asked + 1) = true ∧ able) := by
    obtain ⟨within, beyond⟩ := clamp_limit count (show maxReplyElements < 2 ^ 63 - 1 by decide)
    have value := (IsNumber.number_eq isNumber)
    rw [length] at value
    have read' : readLine room (readArray room read) ⟨rest, asked + 1⟩ (0x2a :: countText) =
        readArray room read countText ⟨rest, asked + 1⟩ := by
      simp [readLine]
    rw [read']
    by_cases small : count ≤ maxReplyElements
    · rw [within small] at value
      rw [readArray_within _ value positive small]
      cases memory : room (asked + 1) with
      | false => exact .failed rfl (by simp)
      | true =>
        obtain ⟨meaning, after⟩ := elements
        cases result : readElements read count ⟨rest, asked + 2⟩ with
        | mk elements conn' =>
          rw [result] at meaning after
          cases elements with
          | none => exact .failed rfl (by simpa [small] using meaning)
          | some element =>
            refine ⟨?_, fun able => after able.2.2⟩
            simpa [Tree.meaning, small] using meaning
    · rw [readArray_beyond _ value (beyond (not_le.mp small))]
      exact .failed rfl (by simp [small])
  refine (readNode_line (by simpa using (IsNumber.plain isNumber)) line).congr ?_
  rw [granted_two]
  constructor
  · rintro ⟨memory, fits, small, memory', there⟩
    exact ⟨fits, small, ⟨memory, memory'⟩, there⟩
  · rintro ⟨fits, small, ⟨memory, memory'⟩, there⟩
    exact ⟨memory, fits, small, memory', there⟩

lemma readNode_refused (plain : 0x0a ∉ text) (refused : (array text ⟨rest, asked + 1⟩).tree = none) {conn : Conn} :
    Yields (readNode room array ⟨sent (0x2a :: text ++ crlf) ++ rest, asked⟩) reply conn False := by
  have line : Yields (readLine room array ⟨rest, asked + 1⟩ (0x2a :: text)) reply conn False :=
    .failed (by simpa [readLine] using refused) id
  refine (readNode_line (by simpa using plain) line).congr ?_
  simp

end Array

/-! ### Every reply -/

def Wire.Able (room : Nat → Bool) (levels asked : Nat) (w : Wire) : Prop :=
  w.Fits levels ∧ Granted room asked w.asks

def AbleAll (room : Nat → Bool) (levels asked : Nat) (ws : List Wire) : Prop :=
  FitsAll levels ws ∧ Granted room asked (asksAll ws)

lemma ableAll_cons {levels : Nat} {w : Wire} {ws : List Wire} :
    AbleAll room levels asked (w :: ws) ↔ w.Able room levels asked ∧ AbleAll room levels (asked + w.asks) ws := by
  unfold AbleAll Wire.Able
  rw [FitsAll, asksAll, granted_add]
  tauto

section All

lemma sent_array (countText : Bytes) (ws : List Wire) (rest : List Arrival) :
    sent (Wire.array countText ws).octets ++ rest = sent (0x2a :: countText ++ crlf) ++ (sent (octetsAll ws) ++ rest) := by
  rw [Wire.octets, sent_append _ (octetsAll ws), append_assoc]

lemma array_wire_yields {levels : Nat} (ws : List Wire)
    (isNumber : IsNumber countText) (length : digitsValue countText = ws.length)
    (elements : ∀ asked, YieldsAll (readElements (readResp room levels) ws.length ⟨sent (octetsAll ws) ++ rest, asked⟩)
      (replyAll ws) ⟨rest, asked + asksAll ws⟩ (AbleAll room levels asked ws)) :
    Yields (readResp room (levels + 1) ⟨sent (Wire.array countText ws).octets ++ rest, asked⟩)
      (Wire.array countText ws).reply ⟨rest, asked + (Wire.array countText ws).asks⟩
      ((Wire.array countText ws).Able room (levels + 1) asked) := by
  rw [sent_array]
  cases ws with
  | nil =>
    refine (array_nil_yields isNumber length).congr ?_
    simp [Wire.Able, Wire.Fits, FitsAll, Wire.asks]
  | cons w ws =>
    have positive : 0 < (w :: ws).length := Nat.succ_pos _
    have all := elements (asked + 2)
    have count : asked + 2 + asksAll (w :: ws) = asked + (Wire.array countText (w :: ws)).asks := by
      rw [asksAll, Wire.asks, Nat.add_assoc]
    rw [count] at all
    refine (array_yields isNumber length positive all).congr ?_
    unfold AbleAll Wire.Able
    rw [Wire.Fits, show (Wire.array countText (w :: ws)).asks = 2 + asksAll (w :: ws) by rw [asksAll, Wire.asks],
      granted_add]
    tauto

lemma readResp_node (room : Nat → Bool) (levels : Nat) : ∃ array, readResp room levels = readNode room array := by
  cases levels with
  | zero => exact ⟨_, rfl⟩
  | succ levels => exact ⟨_, rfl⟩

lemma array_zero_yields (ws : List Wire) (isNumber : IsNumber countText) :
    Yields (readResp room 0 ⟨sent (Wire.array countText ws).octets ++ rest, asked⟩) (Wire.array countText ws).reply
      ⟨rest, asked + (Wire.array countText ws).asks⟩ ((Wire.array countText ws).Able room 0 asked) := by
  rw [sent_array]
  refine (readNode_refused (IsNumber.plain isNumber) rfl).congr ?_
  simp [Wire.Able, Wire.Fits]

lemma nullArray_yields {levels : Nat} :
    Yields (readResp room levels ⟨sent Wire.nullArray.octets ++ rest, asked⟩) Wire.nullArray.reply
      ⟨rest, asked + Wire.nullArray.asks⟩ (Wire.nullArray.Able room levels asked) := by
  have minus : number (ascii "-1") = some (-1) := by decide
  have unable : False ↔ Wire.nullArray.Able room levels asked := by simp [Wire.Able, Wire.Fits]
  cases levels with
  | zero => exact (readNode_refused (by decide) rfl).congr unable
  | succ levels =>
    refine (readNode_refused (by decide) ?_).congr unable
    simp [readArray, minus, fail]

mutual

lemma wire_yields (levels asked : Nat) (rest : List Arrival) :
    ∀ w : Wire, w.WellFormed →
      Yields (readResp room levels ⟨sent w.octets ++ rest, asked⟩) w.reply ⟨rest, asked + w.asks⟩ (w.Able room levels asked)
  | .array countText ws, wellFormed => by
    rw [Wire.WellFormed] at wellFormed
    obtain ⟨isNumber, length, all⟩ := wellFormed
    cases levels with
    | zero => exact array_zero_yields ws isNumber
    | succ levels => exact array_wire_yields ws isNumber length fun asked => wires_yields levels asked rest ws all
  | .simple s, wellFormed => by
    rw [Wire.WellFormed] at wellFormed
    obtain ⟨array, node⟩ := readResp_node room levels
    rw [node]
    refine (text_yields 0x2b (.simple s) (by simpa using wellFormed.2) ?_).congr ?_
    · exact readText_yields (by simp [Tree.meaning, cString_eq_self_iff])
    rw [Wire.Able, Wire.Fits, Wire.asks]
    all_goals nofun
  | .error s, wellFormed => by
    rw [Wire.WellFormed] at wellFormed
    obtain ⟨array, node⟩ := readResp_node room levels
    rw [node]
    refine (text_yields 0x2d (.error s) (by simpa using wellFormed.2) ?_).congr ?_
    · exact readText_yields (by simp [Tree.meaning, cString_eq_self_iff])
    rw [Wire.Able, Wire.Fits, Wire.asks]
    all_goals nofun
  | .integer text, wellFormed => by
    rw [Wire.WellFormed] at wellFormed
    obtain ⟨n, value, low, high⟩ := wellFormed
    obtain ⟨array, node⟩ := readResp_node room levels
    rw [node, Wire.reply, value, getD_some]
    refine (integer_yields value low high).congr ?_
    rw [Wire.Able, Wire.Fits, Wire.asks]
    all_goals nofun
  | .bulk lenText s, wellFormed => by
    rw [Wire.WellFormed] at wellFormed
    obtain ⟨isNumber, length⟩ := wellFormed
    obtain ⟨array, node⟩ := readResp_node room levels
    rw [node]
    refine (bulk_yields isNumber length).congr ?_
    rw [Wire.Able, Wire.Fits, Wire.asks]
    all_goals nofun
  | .nullBulk, _ => by
    obtain ⟨array, node⟩ := readResp_node room levels
    rw [node]
    refine nullBulk_yields.congr ?_
    simp [Wire.Able, Wire.Fits, Wire.asks]
  | .nullArray, _ => nullArray_yields

lemma wires_yields (levels asked : Nat) (rest : List Arrival) :
    ∀ ws : List Wire, WellFormedAll ws →
      YieldsAll (readElements (readResp room levels) ws.length ⟨sent (octetsAll ws) ++ rest, asked⟩) (replyAll ws)
        ⟨rest, asked + asksAll ws⟩ (AbleAll room levels asked ws)
  | [], _ => by
    constructor
    · simp [readElements, meaningAll, replyAll, AbleAll, FitsAll, asksAll, granted_zero]
    · intro _
      rfl
  | w :: ws, wellFormed => by
    rw [WellFormedAll] at wellFormed
    have first := wire_yields levels asked (sent (octetsAll ws) ++ rest) w wellFormed.1
    have others := wires_yields levels (asked + w.asks) rest ws wellFormed.2
    have both := YieldsAll.cons (readResp_code levels) first others
    rw [octetsAll, sent_append, append_assoc, replyAll, asksAll, ← Nat.add_assoc, propext ableAll_cons]
    exact both

end

end All

end Cwist.Redis
