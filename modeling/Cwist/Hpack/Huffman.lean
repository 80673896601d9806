import Cwist.Basic
import Cwist.Lib.PrefixCode

namespace Cwist.H2

open PrefixCode List Trie

abbrev Symbol := Fin 257

def eos : Symbol := 256

def huffmanTable : List (Nat × Nat) := [
  (0x00001ff8, 13), (0x007fffd8, 23), (0x0fffffe2, 28), (0x0fffffe3, 28), (0x0fffffe4, 28), (0x0fffffe5, 28),
  (0x0fffffe6, 28), (0x0fffffe7, 28), (0x0fffffe8, 28), (0x00ffffea, 24), (0x3ffffffc, 30), (0x0fffffe9, 28),
  (0x0fffffea, 28), (0x3ffffffd, 30), (0x0fffffeb, 28), (0x0fffffec, 28), (0x0fffffed, 28), (0x0fffffee, 28),
  (0x0fffffef, 28), (0x0ffffff0, 28), (0x0ffffff1, 28), (0x0ffffff2, 28), (0x3ffffffe, 30), (0x0ffffff3, 28),
  (0x0ffffff4, 28), (0x0ffffff5, 28), (0x0ffffff6, 28), (0x0ffffff7, 28), (0x0ffffff8, 28), (0x0ffffff9, 28),
  (0x0ffffffa, 28), (0x0ffffffb, 28), (0x00000014, 6), (0x000003f8, 10), (0x000003f9, 10), (0x00000ffa, 12),
  (0x00001ff9, 13), (0x00000015, 6), (0x000000f8, 8), (0x000007fa, 11), (0x000003fa, 10), (0x000003fb, 10),
  (0x000000f9, 8), (0x000007fb, 11), (0x000000fa, 8), (0x00000016, 6), (0x00000017, 6), (0x00000018, 6),
  (0x00000000, 5), (0x00000001, 5), (0x00000002, 5), (0x00000019, 6), (0x0000001a, 6), (0x0000001b, 6),
  (0x0000001c, 6), (0x0000001d, 6), (0x0000001e, 6), (0x0000001f, 6), (0x0000005c, 7), (0x000000fb, 8),
  (0x00007ffc, 15), (0x00000020, 6), (0x00000ffb, 12), (0x000003fc, 10), (0x00001ffa, 13), (0x00000021, 6),
  (0x0000005d, 7), (0x0000005e, 7), (0x0000005f, 7), (0x00000060, 7), (0x00000061, 7), (0x00000062, 7),
  (0x00000063, 7), (0x00000064, 7), (0x00000065, 7), (0x00000066, 7), (0x00000067, 7), (0x00000068, 7),
  (0x00000069, 7), (0x0000006a, 7), (0x0000006b, 7), (0x0000006c, 7), (0x0000006d, 7), (0x0000006e, 7),
  (0x0000006f, 7), (0x00000070, 7), (0x00000071, 7), (0x00000072, 7), (0x000000fc, 8), (0x00000073, 7),
  (0x000000fd, 8), (0x00001ffb, 13), (0x0007fff0, 19), (0x00001ffc, 13), (0x00003ffc, 14), (0x00000022, 6),
  (0x00007ffd, 15), (0x00000003, 5), (0x00000023, 6), (0x00000004, 5), (0x00000024, 6), (0x00000005, 5),
  (0x00000025, 6), (0x00000026, 6), (0x00000027, 6), (0x00000006, 5), (0x00000074, 7), (0x00000075, 7),
  (0x00000028, 6), (0x00000029, 6), (0x0000002a, 6), (0x00000007, 5), (0x0000002b, 6), (0x00000076, 7),
  (0x0000002c, 6), (0x00000008, 5), (0x00000009, 5), (0x0000002d, 6), (0x00000077, 7), (0x00000078, 7),
  (0x00000079, 7), (0x0000007a, 7), (0x0000007b, 7), (0x00007ffe, 15), (0x000007fc, 11), (0x00003ffd, 14),
  (0x00001ffd, 13), (0x0ffffffc, 28), (0x000fffe6, 20), (0x003fffd2, 22), (0x000fffe7, 20), (0x000fffe8, 20),
  (0x003fffd3, 22), (0x003fffd4, 22), (0x003fffd5, 22), (0x007fffd9, 23), (0x003fffd6, 22), (0x007fffda, 23),
  (0x007fffdb, 23), (0x007fffdc, 23), (0x007fffdd, 23), (0x007fffde, 23), (0x00ffffeb, 24), (0x007fffdf, 23),
  (0x00ffffec, 24), (0x00ffffed, 24), (0x003fffd7, 22), (0x007fffe0, 23), (0x00ffffee, 24), (0x007fffe1, 23),
  (0x007fffe2, 23), (0x007fffe3, 23), (0x007fffe4, 23), (0x001fffdc, 21), (0x003fffd8, 22), (0x007fffe5, 23),
  (0x003fffd9, 22), (0x007fffe6, 23), (0x007fffe7, 23), (0x00ffffef, 24), (0x003fffda, 22), (0x001fffdd, 21),
  (0x000fffe9, 20), (0x003fffdb, 22), (0x003fffdc, 22), (0x007fffe8, 23), (0x007fffe9, 23), (0x001fffde, 21),
  (0x007fffea, 23), (0x003fffdd, 22), (0x003fffde, 22), (0x00fffff0, 24), (0x001fffdf, 21), (0x003fffdf, 22),
  (0x007fffeb, 23), (0x007fffec, 23), (0x001fffe0, 21), (0x001fffe1, 21), (0x003fffe0, 22), (0x001fffe2, 21),
  (0x007fffed, 23), (0x003fffe1, 22), (0x007fffee, 23), (0x007fffef, 23), (0x000fffea, 20), (0x003fffe2, 22),
  (0x003fffe3, 22), (0x003fffe4, 22), (0x007ffff0, 23), (0x003fffe5, 22), (0x003fffe6, 22), (0x007ffff1, 23),
  (0x03ffffe0, 26), (0x03ffffe1, 26), (0x000fffeb, 20), (0x0007fff1, 19), (0x003fffe7, 22), (0x007ffff2, 23),
  (0x003fffe8, 22), (0x01ffffec, 25), (0x03ffffe2, 26), (0x03ffffe3, 26), (0x03ffffe4, 26), (0x07ffffde, 27),
  (0x07ffffdf, 27), (0x03ffffe5, 26), (0x00fffff1, 24), (0x01ffffed, 25), (0x0007fff2, 19), (0x001fffe3, 21),
  (0x03ffffe6, 26), (0x07ffffe0, 27), (0x07ffffe1, 27), (0x03ffffe7, 26), (0x07ffffe2, 27), (0x00fffff2, 24),
  (0x001fffe4, 21), (0x001fffe5, 21), (0x03ffffe8, 26), (0x03ffffe9, 26), (0x0ffffffd, 28), (0x07ffffe3, 27),
  (0x07ffffe4, 27), (0x07ffffe5, 27), (0x000fffec, 20), (0x00fffff3, 24), (0x000fffed, 20), (0x001fffe6, 21),
  (0x003fffe9, 22), (0x001fffe7, 21), (0x001fffe8, 21), (0x007ffff3, 23), (0x003fffea, 22), (0x003fffeb, 22),
  (0x01ffffee, 25), (0x01ffffef, 25), (0x00fffff4, 24), (0x00fffff5, 24), (0x03ffffea, 26), (0x007ffff4, 23),
  (0x03ffffeb, 26), (0x07ffffe6, 27), (0x03ffffec, 26), (0x03ffffed, 26), (0x07ffffe7, 27), (0x07ffffe8, 27),
  (0x07ffffe9, 27), (0x07ffffea, 27), (0x07ffffeb, 27), (0x0ffffffe, 28), (0x07ffffec, 27), (0x07ffffed, 27),
  (0x07ffffee, 27), (0x07ffffef, 27), (0x07fffff0, 27), (0x03ffffee, 26), (0x3fffffff, 30)]

def codeword (table : List (Nat × Nat)) (sym : Symbol) : List Bool :=
  let (code, bits) := table.getD sym (0, 0)
  PrefixCode.bits bits code

def huffmanCode : Symbol → List Bool := codeword huffmanTable

def appendixB : List (Nat × List Nat) := [
  (5, [48, 49, 50, 97, 99, 101, 105, 111, 115, 116]),
  (6, [32, 37, 45, 46, 47, 51, 52, 53, 54, 55, 56, 57, 61, 65, 95, 98, 100, 102, 103, 104, 108, 109, 110, 112,
    114, 117]),
  (7, [58, 66, 67, 68, 69, 70, 71, 72, 73, 74, 75, 76, 77, 78, 79, 80, 81, 82, 83, 84, 85, 86, 87, 89, 106,
    107, 113, 118, 119, 120, 121, 122]),
  (8, [38, 42, 44, 59, 88, 90]),
  (10, [33, 34, 40, 41, 63]),
  (11, [39, 43, 124]),
  (12, [35, 62]),
  (13, [0, 36, 64, 91, 93, 126]),
  (14, [94, 125]),
  (15, [60, 96, 123]),
  (19, [92, 195, 208]),
  (20, [128, 130, 131, 162, 184, 194, 224, 226]),
  (21, [153, 161, 167, 172, 176, 177, 179, 209, 216, 217, 227, 229, 230]),
  (22, [129, 132, 133, 134, 136, 146, 154, 156, 160, 163, 164, 169, 170, 173, 178, 181, 185, 186, 187, 189,
    190, 196, 198, 228, 232, 233]),
  (23, [1, 135, 137, 138, 139, 140, 141, 143, 147, 149, 150, 151, 152, 155, 157, 158, 165, 166, 168, 174, 175,
    180, 182, 183, 188, 191, 197, 231, 239]),
  (24, [9, 142, 144, 145, 148, 159, 171, 206, 215, 225, 236, 237]),
  (25, [199, 207, 234, 235]),
  (26, [192, 193, 200, 201, 202, 205, 210, 213, 218, 219, 238, 240, 242, 243, 255]),
  (27, [203, 204, 211, 212, 214, 221, 222, 223, 241, 244, 245, 246, 247, 248, 250, 251, 252, 253, 254]),
  (28, [2, 3, 4, 5, 6, 7, 8, 11, 12, 14, 15, 16, 17, 18, 19, 20, 21, 23, 24, 25, 26, 27, 28, 29, 30, 31, 127,
    220, 249]),
  (30, [10, 13, 22, 256])]

def canonical (next width : Nat) : List (Nat × List Nat) → List (Nat × Nat × Nat)
  | [] => []
  | (wider, syms) :: longer =>
    let start := next <<< (wider - width)
    syms.zipIdx.map (fun (sym, i) => (sym, start + i, wider)) ++ canonical (start + syms.length) wider longer

def appendixBTable : List (Nat × Nat) :=
  (canonical 0 0 appendixB).foldl (fun table (sym, entry) => table.set sym entry) (replicate 257 (0, 0))

def appendixBCode : Symbol → List Bool := codeword appendixBTable

lemma huffmanTable_eq_appendixB : huffmanTable = appendixBTable := by
  decide +kernel

def huffmanPoolSize : Nat := 4096

@[irreducible] def huffmanTree : Trie Symbol := Trie.build ((finRange 257).map fun sym => (huffmanCode sym, sym))

def huffmanRoot : Option (Trie Symbol) := if huffmanTree.nodes ≤ huffmanPoolSize then some huffmanTree else none

def lutWalk (n : Trie Symbol) (consumed : Nat) : List Bool → Option Symbol × Nat
  | [] => (none, 0)
  | b :: rest =>
    match n.child b with
    | .nil => (none, 0)
    | .node _ _ (some sym) => (some sym, consumed + 1)
    | next => lutWalk next (consumed + 1) rest

def huffmanRootLut (root : Trie Symbol) (index : Nat) : Option Symbol × Nat := lutWalk root 0 (bits 8 index)

structure HuffmanState where
  bitBuf : Nat
  bitCnt : Nat
  src : Bytes
  node : List Bool
  out : Bytes

def refill (bitBuf bitCnt : Nat) : Bytes → Nat × Nat × Bytes
  | [] => (bitBuf, bitCnt, [])
  | byte :: src =>
    if bitCnt ≤ 24 then refill (((bitBuf <<< 8) ||| byte.toNat) % 2 ^ 32) (bitCnt + 8) src
    else (bitBuf, bitCnt, byte :: src)

def Symbol.toByte (sym : Symbol) : UInt8 := sym.val.toUInt8

def huffmanWalk (root : Trie Symbol) (s : HuffmanState) : Option HuffmanState :=
  let node := s.node ++ [s.bitBuf.testBit (s.bitCnt - 1)]
  match root.find node with
  | .nil => none
  | .node _ _ (some sym) =>
    if sym = eos then none else some { s with bitCnt := s.bitCnt - 1, node := [], out := s.out ++ [sym.toByte] }
  | .node _ _ none => some { s with bitCnt := s.bitCnt - 1, node := node }

def huffmanStep (root : Trie Symbol) (s : HuffmanState) : Option HuffmanState :=
  if s.node = [] ∧ 8 ≤ s.bitCnt then
    match huffmanRootLut root ((s.bitBuf >>> (s.bitCnt - 8)) % 256) with
    | (some sym, used) =>
      if sym = eos then none else some { s with bitCnt := s.bitCnt - used, out := s.out ++ [sym.toByte] }
    | (none, _) => huffmanWalk root s
  else huffmanWalk root s

def huffmanLoop (root : Trie Symbol) : Nat → HuffmanState → Option HuffmanState
  | 0, _ => none
  | turns + 1, s =>
    let (bitBuf, bitCnt, src) := refill s.bitBuf s.bitCnt s.src
    if bitCnt = 0 then some s
    else (huffmanStep root { s with bitBuf, bitCnt, src }).bind (huffmanLoop root turns)

def onesWalk : Trie Symbol → Bool
  | .nil => false
  | .node _ _ (some sym) => sym = eos
  | .node _ one none => onesWalk one

def huffmanDecode (src : Bytes) : Option Bytes := do
  let root ← huffmanRoot
  let s ← huffmanLoop root (8 * src.length + 1) ⟨0, 0, src, [], []⟩
  if s.node ≠ [] then
    if onesWalk (root.find s.node) then some s.out else none
  else some s.out

-- one evaluation of the tree serves both facts
lemma huffmanTree_complete :
    huffmanTree.nodes ≤ huffmanPoolSize ∧ ∀ sym, huffmanTree.walk (huffmanCode sym) = some sym := by
  decide +kernel

lemma huffmanRoot_eq : huffmanRoot = some huffmanTree := by
  rw [huffmanRoot, if_pos huffmanTree_complete.1]

lemma huffmanCode_prefixFree : PrefixFree huffmanCode := prefixFree_of_walk huffmanTree_complete.2

lemma huffmanCode_nonempty (sym : Symbol) : huffmanCode sym ≠ [] := by
  obtain ⟨-, nonempty, -⟩ := walk_spec (huffmanTree_complete.2 sym)
  exact nonempty

lemma huffmanTree_holds : huffmanTree.Holds huffmanCode := by
  have injective : Function.Injective huffmanCode := by
    intro a b same
    apply huffmanCode_prefixFree a b
    exact same ▸ prefix_rfl
  unfold huffmanTree
  exact holds_build injective mem_finRange

lemma huffmanCode_eos : huffmanCode eos = replicate 30 true := by
  decide

def octetBits (src : Bytes) : List Bool := src.flatMap fun byte => bits 8 byte.toNat

def HuffmanState.unread (s : HuffmanState) : List Bool := bits s.bitCnt s.bitBuf ++ octetBits s.src

lemma bits_push (bitBuf bitCnt : Nat) (byte : UInt8) (room : bitCnt ≤ 24) :
    bits (bitCnt + 8) (((bitBuf <<< 8) ||| byte.toNat) % 2 ^ 32) = bits bitCnt bitBuf ++ bits 8 byte.toNat := by
  rw [bits_mod _ _ (by omega), bits_add]
  congr 1
  · apply bits_congr
    intro i _
    have high : byte.toNat.testBit (8 + i) = false :=
      Nat.testBit_lt_two_pow (lt_of_lt_of_le byte.toNat_lt (Nat.pow_le_pow_right (by omega) (by omega)))
    simp [Nat.testBit_shiftRight, high]
  · apply bits_congr
    intro i below
    simp [below]

lemma refill_unread (bitBuf bitCnt : Nat) (src : Bytes) {bitBuf' bitCnt' : Nat} {src' : Bytes}
    (filled : refill bitBuf bitCnt src = (bitBuf', bitCnt', src')) :
    bits bitCnt' bitBuf' ++ octetBits src' = bits bitCnt bitBuf ++ octetBits src ∧ (bitCnt' = 0 → src' = []) := by
  induction src generalizing bitBuf bitCnt with
  | nil =>
    cases filled
    exact ⟨rfl, fun _ => rfl⟩
  | cons byte src ih =>
    rw [refill] at filled
    split at filled
    next room =>
      obtain ⟨same, empty⟩ := ih _ _ filled
      refine ⟨?_, empty⟩
      rw [same, bits_push _ _ _ room]
      simp [octetBits]
    · cases filled
      exact ⟨rfl, by omega⟩

lemma bits_read (bitBuf : Nat) {bitCnt : Nat} (bitsLeft : 0 < bitCnt) :
    bits bitCnt bitBuf = bitBuf.testBit (bitCnt - 1) :: bits (bitCnt - 1) bitBuf := by
  obtain ⟨n, rfl⟩ := Nat.exists_eq_add_of_lt bitsLeft
  simp [bits]

lemma octetBits_length (src : Bytes) : (octetBits src).length = 8 * src.length := by
  induction src with
  | nil => rfl
  | cons byte src ih =>
    rw [octetBits, flatMap_cons, length_append, bits_length, ← octetBits, length_cons]
    omega

def huffmanScan (s : HuffmanState) (syms : List Symbol) : Option (List Bool × List Symbol) :=
  huffmanTree.scan (· = eos) s.node s.unread syms

lemma lutWalk_scan {p path : List Bool} {consumed used : Nat} {sym : Symbol} (out : List Symbol)
    (found : lutWalk (huffmanTree.find p) consumed path = (some sym, used)) :
    ∃ n, used = consumed + n ∧ 0 < n ∧ n ≤ path.length ∧ ∀ rest,
      huffmanTree.scan (· = eos) p (path ++ rest) out =
        if sym = eos then none else huffmanTree.scan (· = eos) [] ((path ++ rest).drop n) (out ++ [sym]) := by
  induction path generalizing p consumed with
  | nil => cases found
  | cons b path ih =>
    have reached : (huffmanTree.find p).child b = huffmanTree.find (p ++ [b]) := (find_snoc _ _ _).symm
    rw [lutWalk, reached] at found
    cases next : huffmanTree.find (p ++ [b]) with
    | nil => rw [next] at found; cases found
    | node zero one s =>
      rw [next] at found
      cases s with
      | some c =>
        cases found
        refine ⟨1, rfl, by omega, by simp, fun rest => ?_⟩
        rw [cons_append, scan_symbol (a := sym) (by rw [next]; rfl)]
        simp
      | none =>
        obtain ⟨n, rfl, positive, short, same⟩ := ih (p := p ++ [b]) (by rw [next]; exact found)
        refine ⟨n + 1, by omega, by omega, by simp; omega, fun rest => ?_⟩
        rw [cons_append, scan_pending (by rw [next]; rfl) (by rw [next]; rfl), same]
        rfl

lemma bits_drop (bitBuf : Nat) {bitCnt n : Nat} (short : n ≤ bitCnt) :
    (bits bitCnt bitBuf).drop n = bits (bitCnt - n) bitBuf := by
  conv_lhs => rw [show bitCnt = n + (bitCnt - n) by omega, bits_add]
  rw [drop_left' (by simp)]

def CarriesOn (s : HuffmanState) (syms : List Symbol) : Option HuffmanState → Prop
  | none => huffmanScan s syms = none
  | some s' => ∃ syms', s'.out = syms'.map Symbol.toByte ∧ s'.unread.length < s.unread.length ∧
      huffmanScan s syms = huffmanScan s' syms'

section Turn
variable {s : HuffmanState} {syms : List Symbol}

lemma unread_read (bitsLeft : 0 < s.bitCnt) :
    s.unread = s.bitBuf.testBit (s.bitCnt - 1) :: { s with bitCnt := s.bitCnt - 1 }.unread := by
  rw [HuffmanState.unread, bits_read _ bitsLeft]
  rfl

lemma unread_drop {n : Nat} (short : n ≤ s.bitCnt) : { s with bitCnt := s.bitCnt - n }.unread = s.unread.drop n := by
  rw [HuffmanState.unread, HuffmanState.unread, drop_append_of_le_length (by simpa using short), bits_drop _ short]

lemma huffmanWalk_scan (bitsLeft : 0 < s.bitCnt) (out : s.out = syms.map Symbol.toByte) :
    CarriesOn s syms (huffmanWalk huffmanTree s) := by
  have read := unread_read bitsLeft
  rw [huffmanWalk]
  cases next : huffmanTree.find (s.node ++ [s.bitBuf.testBit (s.bitCnt - 1)]) with
  | nil => rw [CarriesOn, huffmanScan, read, scan_missing (by rw [next]; rfl)]
  | node zero one symbol =>
    cases symbol with
    | none =>
      refine ⟨syms, out, by rw [read]; exact Nat.lt_succ_self _, ?_⟩
      rw [huffmanScan, read, scan_pending (by rw [next]; rfl) (by rw [next]; rfl)]
      rfl
    | some sym =>
      have scanned : huffmanScan s syms = if sym = eos then none
          else huffmanTree.scan (· = eos) [] { s with bitCnt := s.bitCnt - 1 }.unread (syms ++ [sym]) := by
        rw [huffmanScan, read, scan_symbol (a := sym) (by rw [next]; rfl)]
        simp only [decide_eq_true_eq]
      by_cases last : sym = eos
      · simp only [if_pos last]
        rw [CarriesOn, scanned, if_pos last]
      simp only [if_neg last]
      refine ⟨syms ++ [sym], by simp [out], by rw [read]; exact Nat.lt_succ_self _, ?_⟩
      rw [scanned, if_neg last]
      rfl

lemma huffmanStep_scan (bitsLeft : 0 < s.bitCnt) (out : s.out = syms.map Symbol.toByte) :
    CarriesOn s syms (huffmanStep huffmanTree s) := by
  rw [huffmanStep]
  split
  next atRoot =>
    obtain ⟨root, eight⟩ := atRoot
    have front : s.unread = bits 8 ((s.bitBuf >>> (s.bitCnt - 8)) % 256) ++ s.unread.drop 8 := by
      rw [show 256 = 2 ^ 8 from rfl, bits_mod 8 _ (le_refl 8), ← unread_drop eight, HuffmanState.unread, HuffmanState.unread, ← append_assoc, ← bits_add,
        Nat.add_sub_cancel' eight]
    cases entry : huffmanRootLut huffmanTree ((s.bitBuf >>> (s.bitCnt - 8)) % 256) with
    | mk symbol used =>
      cases symbol with
      | none => exact huffmanWalk_scan bitsLeft out
      | some sym =>
        obtain ⟨n, rfl, positive, short, same⟩ := lutWalk_scan (p := []) syms entry
        specialize same (s.unread.drop 8)
        rw [← front] at same
        rw [bits_length] at short
        rw [zero_add]
        by_cases last : sym = eos
        · simp only [if_pos last]
          rw [CarriesOn, huffmanScan, root, same, if_pos last]
        simp only [if_neg last]
        have rest : { s with bitCnt := s.bitCnt - n }.unread = s.unread.drop n := unread_drop (by omega)
        refine ⟨syms ++ [sym], by simp [out], ?_, ?_⟩
        · change { s with bitCnt := s.bitCnt - n }.unread.length < _
          rw [rest, length_drop]
          have : 0 < s.unread.length := by rw [unread_read bitsLeft]; simp
          omega
        · change _ = huffmanTree.scan _ s.node { s with bitCnt := s.bitCnt - n }.unread _
          rw [rest, huffmanScan, root, same, if_neg last]
  · exact huffmanWalk_scan bitsLeft out

lemma huffmanLoop_scan {turns : Nat} (enough : s.unread.length < turns) (out : s.out = syms.map Symbol.toByte) :
    (huffmanLoop huffmanTree turns s).map (fun s' => (s'.node, s'.out)) =
      (huffmanScan s syms).map fun (p, xs) => (p, xs.map Symbol.toByte) := by
  induction turns generalizing s syms with
  | zero => omega
  | succ turns ih =>
    rw [huffmanLoop]
    rcases filled : refill s.bitBuf s.bitCnt s.src with ⟨bitBuf, bitCnt, src⟩
    obtain ⟨unread, drained⟩ := refill_unread _ _ _ filled
    change HuffmanState.unread { s with bitBuf, bitCnt, src } = s.unread at unread
    have scan : huffmanScan { s with bitBuf, bitCnt, src } syms = huffmanScan s syms := by
      rw [huffmanScan, huffmanScan, unread]
    dsimp only
    split
    next empty =>
      subst empty
      have nothing : s.unread = [] := by rw [← unread, drained rfl]; rfl
      rw [huffmanScan, nothing]
      simp [Trie.scan, out]
    rename_i bitsLeft
    have turn := huffmanStep_scan (s := { s with bitBuf, bitCnt, src }) (Nat.pos_of_ne_zero bitsLeft) out
    rw [CarriesOn.eq_def, scan, unread] at turn
    cases step : huffmanStep huffmanTree { s with bitBuf, bitCnt, src } with rw [step] at turn
    | none =>
      rw [turn]
      rfl
    | some s' =>
      obtain ⟨syms', out', fewer, same⟩ := turn
      rw [same]
      exact ih (by omega) out'

end Turn

variable {p : List Bool}

lemma onesWalk_reaches {t : Trie Symbol} (here : huffmanTree.find p = t) (ones : onesWalk t = true) :
    ∃ j, p ++ replicate j true = huffmanCode eos := by
  induction t generalizing p with
  | nil => cases ones
  | node zero one symbol _ ih =>
    cases symbol with
    | some sym =>
      obtain rfl : sym = eos := by simpa [onesWalk] using ones
      exact ⟨0, by simpa using (huffmanTree_holds.symbol_iff p eos).mp (by rw [here]; rfl)⟩
    | none =>
      obtain ⟨j, same⟩ := ih (p := p ++ [true]) (by rw [find_snoc, here]; rfl) ones
      exact ⟨j + 1, by rw [← same]; simp [replicate_succ]⟩

lemma onesWalk_of_reaches {j : Nat} (same : p ++ replicate j true = huffmanCode eos) :
    onesWalk (huffmanTree.find p) = true := by
  induction j generalizing p with
  | zero =>
    have last := (huffmanTree_holds.symbol_iff p eos).mpr (by simpa using same)
    cases here : huffmanTree.find p with
    | nil => rw [here] at last; cases last
    | node zero one symbol =>
      rw [here] at last
      obtain rfl : symbol = some eos := last
      simp [onesWalk]
  | succ j ih =>
    have short : p <+: huffmanCode eos := ⟨_, same⟩
    have there := (huffmanTree_holds.present_iff p).mpr (Or.inr ⟨eos, short⟩)
    have next := ih (p := p ++ [true]) (by rw [← same]; simp [replicate_succ])
    rw [find_snoc] at next
    cases here : huffmanTree.find p with
    | nil => rw [here] at there; cases there
    | node zero one symbol =>
      rw [here] at next
      cases symbol with
      | none => exact next
      | some sym =>
        -- a codeword here would be a proper initial part of EOS
        have word := (huffmanTree_holds.symbol_iff p sym).mp (by rw [here]; rfl)
        obtain rfl := huffmanCode_prefixFree sym eos (word ▸ short)
        have := congrArg length same
        rw [word] at this
        simp at this

lemma unfinished_ones {k : Nat} (short : k < 30) : Unfinished huffmanCode (replicate k true) := by
  have part : replicate k true <+: huffmanCode eos := by
    rw [huffmanCode_eos]
    exact ⟨replicate (30 - k) true, by rw [replicate_append_replicate]; congr 1; omega⟩
  refine ⟨Or.inr ⟨eos, part⟩, fun sym before => ?_⟩
  obtain rfl := huffmanCode_prefixFree sym eos (before.trans part)
  have := before.length_le
  rw [huffmanCode_eos] at this
  simp at this
  omega

lemma onesWalk_iff (unfinished : Unfinished huffmanCode p) :
    onesWalk (huffmanTree.find p) = true ↔ ∃ k < 30, p = replicate k true := by
  constructor
  · intro ones
    obtain ⟨j, same⟩ := onesWalk_reaches rfl ones
    rw [huffmanCode_eos, append_eq_replicate_iff] at same
    obtain ⟨total, all, -⟩ := same
    refine ⟨p.length, ?_, all⟩
    by_contra long
    have whole : huffmanCode eos = p := by rw [huffmanCode_eos, all, show p.length = 30 by omega]
    exact unfinished.open_ eos (whole ▸ prefix_rfl)
  · rintro ⟨k, short, rfl⟩
    refine onesWalk_of_reaches (j := 30 - k) ?_
    rw [huffmanCode_eos, replicate_append_replicate]
    congr 1
    omega

lemma huffmanDecode_scan (src out : Bytes) :
    huffmanDecode src = some out ↔ ∃ p xs, huffmanTree.scan (· = eos) [] (octetBits src) [] = some (p, xs) ∧
      xs.map Symbol.toByte = out ∧ (p = [] ∨ onesWalk (huffmanTree.find p) = true) := by
  have unread : (HuffmanState.mk 0 0 src [] []).unread = octetBits src := rfl
  have loop : (huffmanLoop huffmanTree (8 * src.length + 1) ⟨0, 0, src, [], []⟩).map _ = _ :=
    huffmanLoop_scan (by rw [unread, octetBits_length]; omega) (map_nil (f := Symbol.toByte)).symm
  rw [huffmanScan, unread] at loop
  rw [huffmanDecode, huffmanRoot_eq]
  cases scanned : huffmanTree.scan (· = eos) [] (octetBits src) [] with
  | none =>
    rw [scanned, Option.map_none, Option.map_eq_none_iff] at loop
    simp [loop]
  | some result =>
    obtain ⟨p, xs⟩ := result
    rw [scanned, Option.map_some, Option.map_eq_some_iff] at loop
    obtain ⟨s, done, same⟩ := loop
    simp only [Prod.mk.injEq] at same
    obtain ⟨rfl, same⟩ := same
    simp only [Option.bind_eq_bind, Option.bind_some, done, same]
    by_cases root : s.node = []
    · simp [root]
    · simp [root, and_comm]

def toSymbol (byte : UInt8) : Symbol := ⟨byte.toNat, Nat.lt_trans byte.toNat_lt (by decide)⟩

/-- The string is the Appendix B encoding of `out` followed by `k` one bits. -/
def Padded (src out : Bytes) (k : Nat) : Prop :=
  octetBits src = encode (fun byte => appendixBCode (toSymbol byte)) out ++ replicate k true

lemma toByte_toSymbol (byte : UInt8) : (toSymbol byte).toByte = byte := by
  simp [toSymbol, Symbol.toByte]

lemma toSymbol_ne_eos (byte : UInt8) : toSymbol byte ≠ eos := by
  intro same
  have value : byte.toNat = 256 := congrArg Fin.val same
  have := byte.toNat_lt
  omega

lemma toSymbol_toByte {sym : Symbol} (octet : sym ≠ eos) : toSymbol sym.toByte = sym := by
  have below : sym.val < 256 := by
    have : sym.val ≠ 256 := fun same => octet (Fin.ext same)
    omega
  simp [toSymbol, Symbol.toByte, Nat.mod_eq_of_lt below]

lemma encode_map (out : Bytes) :
    encode huffmanCode (out.map toSymbol) = encode (fun byte => appendixBCode (toSymbol byte)) out := by
  rw [encode, flatMap_map, huffmanCode, huffmanTable_eq_appendixB]
  rfl

lemma huffmanDecode_eq_some_iff (src out : Bytes) : huffmanDecode src = some out ↔ ∃ k < 30, Padded src out k := by
  rw [huffmanDecode_scan]
  simp only [scan_eq_some_iff huffmanTree_holds huffmanCode_prefixFree huffmanCode_nonempty
    (unfinished_nil huffmanCode_nonempty), nil_append, decide_eq_false_iff_not]
  constructor
  · rintro ⟨p, ys, ⟨_, rfl, ⟨same, unfinished⟩, octets⟩, rfl, ones⟩
    have back : (ys.map Symbol.toByte).map toSymbol = ys := by
      rw [map_map]
      exact (map_congr_left fun y member => toSymbol_toByte (octets y member)).trans (map_id ys)
    have all : ∃ k < 30, p = replicate k true := by
      rcases ones with rfl | ones
      · exact ⟨0, by omega, rfl⟩
      · exact (onesWalk_iff unfinished).mp ones
    obtain ⟨k, short, rfl⟩ := all
    exact ⟨k, short, by rw [Padded, same, ← encode_map, back]⟩
  · rintro ⟨k, short, same⟩
    have unfinished := unfinished_ones short
    refine ⟨replicate k true, out.map toSymbol, ⟨_, rfl, ⟨?_, unfinished⟩, ?_⟩, ?_, ?_⟩
    · rw [encode_map]
      exact same
    · intro y member
      obtain ⟨byte, -, rfl⟩ := mem_map.mp member
      exact toSymbol_ne_eos byte
    · rw [map_map]
      exact (map_congr_left fun byte _ => toByte_toSymbol byte).trans (map_id out)
    · exact Or.inr ((onesWalk_iff unfinished).mpr ⟨k, short, rfl⟩)

/-- The decoder is the one of RFC 7541 section 5.2 on a string exactly when that string is no encoding
with eight or more bits of padding. -/
theorem huffmanDecode_exact_iff (src : Bytes) : (∀ out, huffmanDecode src = some out ↔ ∃ k < 8, Padded src out k) ↔
      ¬∃ out k, 8 ≤ k ∧ k < 30 ∧ Padded src out k := by
  simp only [huffmanDecode_eq_some_iff]
  constructor
  · rintro precise ⟨out, k, long, short, padded⟩
    obtain ⟨k', few, padded'⟩ := (precise out).mp ⟨k, short, padded⟩
    -- the same octets leave the same number of bits over
    have lengths := congrArg length (padded.symm.trans padded')
    simp at lengths
    omega
  · intro few out
    constructor <;> rintro ⟨k, short, padded⟩
    · refine ⟨k, ?_, padded⟩
      by_contra long
      exact few ⟨out, k, by omega, short, padded⟩
    · exact ⟨k, by omega, padded⟩

/-- One octet of ones is padding only, and too much of it. -/
theorem huffmanDecode_ones : huffmanDecode [0xff] = some [] ∧ ¬∃ out, ∃ k < 8, Padded [0xff] out k := by
  have padded : Padded [0xff] [] 8 := rfl
  have accepted := (huffmanDecode_eq_some_iff [0xff] []).mpr ⟨8, by omega, padded⟩
  refine ⟨accepted, ?_⟩
  rintro ⟨out, k, short, other⟩
  have same := accepted.symm.trans ((huffmanDecode_eq_some_iff [0xff] out).mpr ⟨k, by omega, other⟩)
  cases same
  have lengths := congrArg length (padded.symm.trans other)
  simp at lengths
  omega

end Cwist.H2
