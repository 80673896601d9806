import Cwist.Http.Response
import Cwist.Redis.Replies

/-!
# Request frames

`redis_frame_size` and `redis_frame_fill`.
-/

namespace Cwist.Redis
open List Http

/-- An argument: whether its pointer is given, and the octets that it points to. -/
structure Arg where
  given : Bool
  bytes : Bytes

def timedMaxArgc : Nat := 2 ^ 20

def timedMaxFrame : Nat := 512 * 1024 * 1024

def digits (v : Nat) : Nat := if 10 ≤ v then digits (v / 10) + 1 else 1

def frameSizeLoop : Nat → List Arg → Option Nat
  | total, [] => some total
  | total, arg :: argv =>
    let len := arg.bytes.length
    let part := 1 + digits len + 2 + len + 2
    if !arg.given ∧ len ≠ 0 ∨ len > timedMaxFrame ∨ part > timedMaxFrame - total then none
    else frameSizeLoop (total + part) argv

def frameSize (argv : List Arg) : Option Nat :=
  if argv.length > timedMaxArgc then none else frameSizeLoop (1 + digits argv.length + 2) argv

def frameFillLoop (cap : Nat) : Bytes → List Arg → Option Bytes
  | frame, [] => some frame
  | frame, arg :: argv =>
    let len := arg.bytes.length
    let head := 0x24 :: decimal len ++ crlf
    let remaining := cap - (frame.length + head.length)
    if head.length ≥ cap - frame.length ∨ remaining < 3 ∨ len > remaining - 3 ∨ len ≠ 0 ∧ !arg.given then none
    else frameFillLoop cap (frame ++ (head ++ (arg.bytes ++ crlf))) argv

def frameFill (cap : Nat) (argv : List Arg) : Option Bytes :=
  let head := 0x2a :: decimal argv.length ++ crlf
  if cap = 0 ∨ argv = [] ∨ head.length ≥ cap then none
  else (frameFillLoop cap head argv).bind fun frame => if frame.length ≠ cap - 1 then none else some (frame ++ [0x00])

def Arg.wire (arg : Arg) : Wire := .bulk (decimal arg.bytes.length) arg.bytes

/-! ### Decimal numbers -/

lemma decimal_split (n : Nat) : decimal n = if 10 ≤ n then decimal (n / 10) ++ [(48 + n % 10).toUInt8] else [(48 + n).toUInt8] := by
  have digit : ∀ d < 10, (Nat.digitChar d).toNat.toUInt8 = (48 + d).toUInt8 := by decide
  unfold decimal
  split
  next large =>
    rw [Nat.toDigits_of_base_le (by decide) large, map_append, map_singleton, digit _ (Nat.mod_lt _ (by decide))]
  next small => rw [Nat.toDigits_of_lt_base (Nat.not_le.mp small), map_singleton, digit _ (Nat.not_le.mp small)]

lemma digits_eq (n : Nat) : digits n = (decimal n).length := by
  fun_induction digits n with
  | case1 n large ih => rw [decimal_split, if_pos large, length_append, ih, length_singleton]
  | case2 n small => rw [decimal_split, if_neg small, length_singleton]

lemma digitsValue_decimal (n : Nat) : digitsValue (decimal n) = n := by
  fun_induction digits n with
  | case1 n large ih =>
    rw [decimal_split, if_pos large, digitsValue, foldl_append, ← digitsValue, ih]
    simp only [foldl_cons, foldl_nil, Nat.toUInt8, UInt8.toNat_ofNat']
    omega
  | case2 n small =>
    rw [decimal_split, if_neg small]
    simp only [digitsValue, foldl_cons, foldl_nil, Nat.toUInt8, UInt8.toNat_ofNat']
    omega

lemma isNumber_decimal (n : Nat) : IsNumber (decimal n) := by
  refine ⟨fun none_ => ?_, all_eq_true.mpr fun c inside => ?_⟩
  · have empty := decimal_split n
    rw [none_] at empty
    split at empty <;> simp at empty
  · have range := mem_decimal inside
    simp [isDigit, UInt8.le_iff_toNat_le, range]

lemma lineFits_decimal {n : Nat} (small : n ≤ timedMaxFrame) : LineFits (decimal n) := by
  have short : (decimal n).length ≤ 9 := by
    rw [decimal, length_map, Nat.length_toDigits_le_iff (by decide) (by decide)]
    exact lt_of_le_of_lt small (by decide)
  unfold LineFits lineMax
  omega

/-! ### Frames -/

variable {size cap : Nat} {argv : List Arg}

lemma line_length (tag : UInt8) (n : Nat) : (tag :: decimal n ++ crlf).length = 1 + digits n + 2 := by
  simp [crlf, digits_eq]
  omega

lemma wires_read (short : ∀ arg ∈ argv, arg.bytes.length ≤ timedMaxFrame) :
    WellFormedAll (argv.map Arg.wire) ∧ FitsAll 15 (argv.map Arg.wire) ∧
      replyAll (argv.map Arg.wire) = argv.map (.bulk ·.bytes) := by
  induction argv with
  | nil => simp [WellFormedAll, FitsAll, replyAll]
  | cons arg argv ih =>
    obtain ⟨first, others⟩ := forall_mem_cons.mp short
    obtain ⟨formed, fits, replies⟩ := ih others
    refine ⟨⟨⟨isNumber_decimal _, digitsValue_decimal _⟩, formed⟩, ⟨⟨lineFits_decimal first, first⟩, fits⟩, ?_⟩
    rw [map_cons, replyAll, replies]
    rfl

lemma frameFillLoop_eq (frame : Bytes) (sized : frameSizeLoop frame.length argv = some size) (room : size < cap) :
    frameFillLoop cap frame argv = some (frame ++ octetsAll (argv.map Arg.wire)) ∧
      (frame ++ octetsAll (argv.map Arg.wire)).length = size ∧ ∀ arg ∈ argv, arg.bytes.length ≤ timedMaxFrame := by
  induction argv generalizing frame with
  | nil => simpa [frameSizeLoop, frameFillLoop, octetsAll] using sized
  | cons arg argv ih =>
    simp only [frameSizeLoop] at sized
    split at sized
    · cases sized
    rename_i taken
    simp only [not_or] at taken
    have octets : arg.wire.octets = 0x24 :: decimal arg.bytes.length ++ crlf ++ (arg.bytes ++ crlf) := by
      simp [Arg.wire, Wire.octets]
    have part : arg.wire.octets.length = 1 + digits arg.bytes.length + 2 + arg.bytes.length + 2 := by
      rw [octets, length_append, line_length, length_append]
      rfl
    rw [← part, ← length_append] at sized
    obtain ⟨filled, length, short⟩ := ih _ sized
    have fits : frame.length + arg.wire.octets.length ≤ size := by
      rw [← length, length_append, length_append]
      omega
    refine ⟨?_, by simpa [octetsAll] using length, forall_mem_cons.mpr ⟨by omega, short⟩⟩
    rw [map_cons, octetsAll, ← append_assoc, ← filled, octets]
    simp only [frameFillLoop]
    rw [if_neg, append_assoc]
    rw [line_length]
    rintro (full | full | full | ⟨long, null⟩)
    · omega
    · omega
    · omega
    · exact taken.1 ⟨null, long⟩

/-- The frame of one argument or more is filled as it was sized, and read back as its arguments alone. -/
theorem frame_read_back (argv : List Arg) (size asked : Nat) (rest : List Arrival) (some_ : argv ≠ [])
    (sized : frameSize argv = some size) :
    ∃ frame, frameFill (size + 1) argv = some (frame ++ [0x00]) ∧ frame.length = size ∧
      let out := readResp (fun _ => true) maxReplyDepth ⟨sent frame ++ rest, asked⟩
      out.tree.bind Tree.meaning = some (.array (argv.map (.bulk ·.bytes))) ∧ out.conn.arrivals = rest := by
  unfold frameSize at sized
  split at sized
  · cases sized
  rename_i few
  let head := 0x2a :: decimal argv.length ++ crlf
  rw [← line_length 0x2a] at sized
  obtain ⟨filled, total, short⟩ := frameFillLoop_eq head sized (Nat.lt_succ_self size)
  refine ⟨head ++ octetsAll (argv.map Arg.wire), ?_, total, ?_⟩
  · have begun : ¬(size + 1 = 0 ∨ argv = [] ∨ head.length ≥ size + 1) := by
      rw [length_append] at total
      simp only [some_, false_or, not_or]
      omega
    rw [frameFill, if_neg begun, filled, Option.bind_some, Nat.add_sub_cancel, if_neg (not_not_intro total)]
  obtain ⟨formed, fits, replies⟩ := wires_read short
  have yields := @wire_yields (fun _ => true) maxReplyDepth asked rest (.array (decimal argv.length) (argv.map Arg.wire))
    ⟨isNumber_decimal _, by rw [digitsValue_decimal, length_map], formed⟩
  have able : (Wire.array (decimal argv.length) (argv.map Arg.wire)).Able (fun _ => true) maxReplyDepth asked := by
    refine ⟨⟨lineFits_decimal (by unfold timedMaxArgc at few; unfold timedMaxFrame; omega), ?_, fits⟩, fun _ _ => rfl⟩
    rw [length_map]
    exact not_lt.mp few
  rw [Wire.octets, Wire.reply, replies] at yields
  exact ⟨yields.tree.mpr able, by rw [yields.conn able]⟩

/-- The second argument is a NUL, which the frame carries like any octet. -/
theorem ping_read_back :
    ∃ frame, frameFill 22 [⟨true, ascii "PING"⟩, ⟨true, [0x00]⟩] = some (frame ++ [0x00]) ∧ frame.length = 21 := by
  have sized : frameSize [⟨true, ascii "PING"⟩, ⟨true, [0x00]⟩] = some 21 := by
    simp [frameSize, frameSizeLoop, digits, timedMaxArgc, timedMaxFrame, ascii]
  obtain ⟨frame, filled, length, -⟩ := frame_read_back _ 21 0 [] (by simp) sized
  exact ⟨frame, filled, length⟩

/-- No arguments have a size, and are not filled. -/
theorem empty_frame_refused : frameSize [] = some 4 ∧ frameFill 5 [] = none := by
  simp [frameSize, frameSizeLoop, digits, frameFill]

end Cwist.Redis
