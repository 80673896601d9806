import Cwist.App.StaticPath

namespace Cwist.Rfc3986

open Http (hexDigit)

def pchar (c : UInt8) : Bool :=
  (0x61 ≤ c && c ≤ 0x7a) || (0x41 ≤ c && c ≤ 0x5a) || (0x30 ≤ c && c ≤ 0x39) || (ascii "-._~!$&'()*+,;=:@").contains c

inductive PercentEncodes : Bytes → Bytes → Prop where
  | nil : PercentEncodes [] []
  | slash {path encoded : Bytes} : PercentEncodes path encoded → PercentEncodes (0x2f :: path) (0x2f :: encoded)
  | literal {path encoded : Bytes} {c : UInt8} : pchar c = true → PercentEncodes path encoded →
      PercentEncodes (c :: path) (c :: encoded)
  | triplet {path encoded : Bytes} {h l : UInt8} {high low : Nat} : hexDigit h = some high → hexDigit l = some low →
      PercentEncodes path encoded → PercentEncodes ((16 * high + low).toUInt8 :: path) (0x25 :: h :: l :: encoded)

end Cwist.Rfc3986

namespace Cwist.App
open List

open Http (Method hexDigit)
open Rfc3986 (pchar PercentEncodes)

/-- The buffer holds `n` octets of the path, and what it cuts off changes nothing: a last `%25` reads as `%` also when only its
first octet is left, and a last `%2` as the file's own `%2`. -/
def CutHarmlessly (n : Nat) (encoded : Bytes) : Prop :=
  ∃ front, front.length + 1 = n ∧ encoded = front ++ ascii "%25" ∨
    front.length + 2 = n ∧ (encoded = front ++ ascii "%252" ∨ encoded = front ++ ascii "%25%32")

variable {c h l prev : UInt8} {n a b room : Nat} {dir encoded path rest name : Bytes} {file request : CStr}
  {entry : StaticDir} {relative : Option Bytes} {fs : FileSystem} {dirs : List StaticDir} {method : Method}
  {high low : Nat} {s : Bytes}

lemma plain_of_pchar (allowed : pchar c = true) : c ≠ 0x25 ∧ c ≠ 0 := by
  constructor <;> rintro rfl
  · exact absurd allowed (by decide)
  · exact absurd allowed (by decide)

lemma hexDigit_cases (digit : hexDigit c = some n) :
    0x30 ≤ c.toNat ∧ c.toNat ≤ 0x39 ∧ n = c.toNat - 0x30 ∨ 0x41 ≤ c.toNat ∧ 10 ≤ n ∧ n < 16 := by
  unfold hexDigit at digit
  split at digit
  case isTrue range =>
    cases digit
    exact .inl ⟨range.1, range.2, rfl⟩
  split at digit
  case isTrue range =>
    cases digit
    have low : 0x61 ≤ c.toNat := range.1
    have high : c.toNat ≤ 0x66 := range.2
    omega
  split at digit
  case isTrue range =>
    cases digit
    have low : 0x41 ≤ c.toNat := range.1
    have high : c.toNat ≤ 0x46 := range.2
    omega
  case isFalse => cases digit

lemma hexDigit_plain (digit : hexDigit c = some n) : c ≠ 0x25 ∧ c ≠ 0x2b ∧ c ≠ 0 ∧ n < 16 := by
  have cases := hexDigit_cases digit
  refine ⟨?_, ?_, ?_, by omega⟩
  all_goals
    rintro rfl
    revert cases
    simp

lemma digits_iff (first : hexDigit h = some high) (second : hexDigit l = some low) (aSmall : a < 10) (bSmall : b < 10) :
    (16 * high + low).toUInt8 = (16 * a + b).toUInt8 ↔ h = (0x30 + a).toUInt8 ∧ l = (0x30 + b).toUInt8 := by
  have firstCases := hexDigit_cases first
  have secondCases := hexDigit_cases second
  simp only [← UInt8.toNat_inj, Nat.toUInt8, UInt8.toNat_ofNat']
  omega

@[simp]
lemma staticDecode_zero (s : Bytes) : staticDecode s 0 = [] := by
  cases s <;> rfl

lemma staticDecode_plain (rest : Bytes) (room : Nat) (notPercent : c ≠ 0x25) (notPlus : c ≠ 0x2b) :
    staticDecode (c :: rest) (room + 1) = c :: staticDecode rest room := by
  rw [staticDecode.eq_def]
  simp [notPercent, notPlus]

lemma staticDecode_triplet (first : hexDigit h = some high) (second : hexDigit l = some low)
    (rest : Bytes) (room : Nat) :
    staticDecode (0x25 :: h :: l :: rest) (room + 1) = (16 * high + low).toUInt8 :: staticDecode rest room := by
  rw [staticDecode.eq_def]
  simp [first, second]

lemma not_cutHarmlessly_zero (encoded : Bytes) : ¬ CutHarmlessly 0 encoded := by
  rintro ⟨front, ⟨length, -⟩ | ⟨length, -⟩⟩
  all_goals cases length

lemma cutHarmlessly_cons (notPercent : c ≠ 0x25) : CutHarmlessly (n + 1) (c :: encoded) ↔ CutHarmlessly n encoded := by
  constructor <;> rintro ⟨front, cut⟩
  · cases front with
    | nil =>
      rcases cut with ⟨-, same⟩ | ⟨-, same | same⟩
      all_goals exact absurd (cons.inj same).1 notPercent
    | cons first front =>
      refine ⟨front, ?_⟩
      simp only [length_cons, cons_append, cons.injEq] at cut
      rcases cut with ⟨length, -, same⟩ | ⟨length, ⟨-, same⟩ | ⟨-, same⟩⟩
      · exact .inl ⟨by omega, same⟩
      · exact .inr ⟨by omega, .inl same⟩
      · exact .inr ⟨by omega, .inr same⟩
  · refine ⟨c :: front, ?_⟩
    rcases cut with ⟨length, rfl⟩ | ⟨length, rfl | rfl⟩
    · exact .inl ⟨by simp [length], rfl⟩
    · exact .inr ⟨by simp [← length], .inl rfl⟩
    · exact .inr ⟨by simp [← length], .inr rfl⟩

lemma cutHarmlessly_triplet (first : h ≠ 0x25) (second : l ≠ 0x25) :
    CutHarmlessly (n + 3) (0x25 :: h :: l :: encoded) ↔ CutHarmlessly n encoded := by
  constructor <;> rintro ⟨front, cut⟩
  · match front with
    | [] => 
      simp only [length_nil] at cut
      omega
    | a :: [] =>
      rcases cut with ⟨length, -⟩ | ⟨-, same | same⟩
      · simp at length
      · simp [ascii, first] at same
      · simp [ascii, first] at same
    | a :: b :: [] =>
      rcases cut with ⟨-, same⟩ | ⟨-, same | same⟩
      all_goals simp [ascii, second] at same
    | a :: b :: c :: front =>
      refine ⟨front, ?_⟩
      simp only [length_cons, cons_append, cons.injEq] at cut
      rcases cut with ⟨length, -, -, -, same⟩ | ⟨length, ⟨-, -, -, same⟩ | ⟨-, -, -, same⟩⟩
      · exact .inl ⟨by omega, same⟩
      · exact .inr ⟨by omega, .inl same⟩
      · exact .inr ⟨by omega, .inr same⟩
  · refine ⟨0x25 :: h :: l :: front, ?_⟩
    rcases cut with ⟨length, rfl⟩ | ⟨length, rfl | rfl⟩
    · exact .inl ⟨by simp [← length], rfl⟩
    · exact .inr ⟨by simp [← length], .inl rfl⟩
    · exact .inr ⟨by simp [← length], .inr rfl⟩

lemma encodes_nil_iff (encodes : PercentEncodes path encoded) : path = [] ↔ encoded = [] := by
  cases encodes <;> simp

lemma encodes_two_iff (encodes : PercentEncodes path encoded) :
    path = [0x32] ↔ encoded = [0x32] ∨ encoded = [0x25, 0x33, 0x32] := by
  cases encodes with
  | nil => simp
  | slash rest => simp
  | @literal path encoded c allowed rest =>
    have same := encodes_nil_iff rest
    simp [same, (plain_of_pchar allowed).1]
  | @triplet path encoded h l high low first second rest =>
    have same := encodes_nil_iff rest
    have octet : (16 * high + low).toUInt8 = 0x32 ↔ h = 0x33 ∧ l = 0x32 :=
      digits_iff first second (a := 3) (b := 2) (by omega) (by omega)
    rw [cons.injEq, octet, same]
    simp [and_assoc]

lemma cutHarmlessly_one_iff : CutHarmlessly 1 encoded ↔ encoded = ascii "%25" := by
  constructor
  · rintro ⟨front, ⟨length, rfl⟩ | ⟨length, -⟩⟩
    · rw [eq_nil_of_length_eq_zero (Nat.succ.inj length), nil_append]
    · omega
  · rintro rfl
    exact ⟨[], .inl ⟨rfl, rfl⟩⟩

lemma cutHarmlessly_two_iff (digit : h ≠ 0x25) : CutHarmlessly 2 (0x25 :: h :: rest) ↔
      (0x25 :: h :: rest) = ascii "%252" ∨ (0x25 :: h :: rest) = ascii "%25%32" := by
  constructor
  · rintro ⟨front, ⟨length, same⟩ | ⟨length, same⟩⟩
    · obtain ⟨first, rfl⟩ := length_eq_one_iff.mp (Nat.succ.inj length)
      simp [ascii, digit] at same
    · rw [eq_nil_of_length_eq_zero (by omega : front.length = 0)] at same
      exact same
  · intro same
    exact ⟨[], .inr ⟨rfl, same⟩⟩

lemma staticDecode_take_iff (encodes : PercentEncodes path encoded) (fits : n ≤ room) :
    staticDecode (encoded.take n) room = path ↔ 0x2b ∉ encoded ∧ (encoded.length ≤ n ∨ CutHarmlessly n encoded) := by
  have plain {path encoded : Bytes} {c : UInt8} (notPercent : c ≠ 0x25) (notPlus : c ≠ 0x2b)
      (ih : ∀ {n room : Nat}, n ≤ room → (staticDecode (encoded.take n) room = path ↔
        0x2b ∉ encoded ∧ (encoded.length ≤ n ∨ CutHarmlessly n encoded))) {n room : Nat} (fits : n ≤ room) :
      staticDecode ((c :: encoded).take n) room = c :: path ↔
        0x2b ∉ c :: encoded ∧ ((c :: encoded).length ≤ n ∨ CutHarmlessly n (c :: encoded)) := by
    cases n with
    | zero => simp [staticDecode, not_cutHarmlessly_zero]
    | succ n =>
      obtain ⟨room, rfl⟩ := Nat.exists_eq_add_one_of_ne_zero (by omega : room ≠ 0)
      rw [take_succ_cons, staticDecode_plain _ _ notPercent notPlus, cutHarmlessly_cons notPercent]
      simp only [cons.injEq, true_and, mem_cons, Ne.symm notPlus, false_or, length_cons,
        Nat.add_le_add_iff_right]
      exact ih (by omega)
  induction encodes generalizing n room with
  | nil => simp [staticDecode]
  | slash _ ih => exact plain (by decide) (by decide) (fun fits => ih fits) fits
  | @literal path encoded c allowed _ ih =>
    by_cases plus : c = 0x2b
    · subst plus
      cases n with
      | zero => simp [staticDecode]
      | succ n =>
        obtain ⟨room, rfl⟩ := Nat.exists_eq_add_one_of_ne_zero (by omega : room ≠ 0)
        rw [staticDecode.eq_def]
        simp
    · exact plain (plain_of_pchar allowed).1 plus (fun fits => ih fits) fits
  | @triplet path encoded h l high low first second encodes ih =>
    obtain ⟨hPercent, hPlus, -, -⟩ := hexDigit_plain first
    obtain ⟨lPercent, lPlus, -, -⟩ := hexDigit_plain second
    have octet : (16 * high + low).toUInt8 = 0x25 ↔ h = 0x32 ∧ l = 0x35 :=
      digits_iff first second (a := 2) (b := 5) (by omega) (by omega)
    match n with
    | 0 => simp [staticDecode, not_cutHarmlessly_zero]
    | 1 =>
      obtain ⟨room, rfl⟩ := Nat.exists_eq_add_one_of_ne_zero (by omega : room ≠ 0)
      have cut : staticDecode [0x25] (room + 1) = [0x25] := by simp [staticDecode]
      rw [take_succ_cons, take_zero, cut, cutHarmlessly_one_iff]
      constructor
      · intro same
        obtain ⟨percent, nothing⟩ := cons.inj same
        obtain ⟨rfl, rfl⟩ := octet.mp percent.symm
        obtain rfl := (encodes_nil_iff encodes).mp nothing.symm
        exact ⟨by decide, .inr rfl⟩
      · rintro ⟨-, long | same⟩
        · simp at long
        injection same with _ same
        injection same with hSame same
        injection same with lSame nothing
        rw [octet.mpr ⟨hSame, lSame⟩, (encodes_nil_iff encodes).mpr nothing]
    | 2 =>
      obtain ⟨room, rfl⟩ := Nat.exists_eq_add_of_le' fits
      have cut : staticDecode [0x25, h] (room + 2) = [0x25, h] := by
        simp [hPercent, hPlus, staticDecode]
      rw [take_succ_cons, take_succ_cons, take_zero, cut, cutHarmlessly_two_iff hPercent]
      constructor
      · intro same
        obtain ⟨percent, digit⟩ := cons.inj same
        obtain ⟨rfl, rfl⟩ := octet.mp percent.symm
        rcases (encodes_two_iff encodes).mp digit.symm with rfl | rfl
        · exact ⟨by decide, .inr (.inl rfl)⟩
        · exact ⟨by decide, .inr (.inr rfl)⟩
      rintro ⟨-, long | same⟩
      · simp at long
      have two : h = 0x32 ∧ l = 0x35 ∧ (encoded = [0x32] ∨ encoded = [0x25, 0x33, 0x32]) := by
        rcases same with same | same
        all_goals
          injection same with _ same
          injection same with hSame same
          injection same with lSame same
        · exact ⟨hSame, lSame, .inl same⟩
        · exact ⟨hSame, lSame, .inr same⟩
      obtain ⟨rfl, rfl, rest⟩ := two
      rw [octet.mpr ⟨rfl, rfl⟩, (encodes_two_iff encodes).mpr rest]
    | n + 3 =>
      obtain ⟨room, rfl⟩ := Nat.exists_eq_add_one_of_ne_zero (by omega : room ≠ 0)
      rw [take_succ_cons, take_succ_cons, take_succ_cons, staticDecode_triplet first second,
        cutHarmlessly_triplet hPercent lPercent]
      simp only [cons.injEq, true_and, mem_cons, Ne.symm hPlus, Ne.symm lPlus, false_or, length_cons,
        Nat.add_le_add_iff_right, show ((0x2b : UInt8) = 0x25) = False by decide]
      exact ih (by omega)

lemma staticDecode_nul_cons (notPercent : c ≠ 0x25) (notNul : c ≠ 0)
    (rest : ∀ n room, (0 : UInt8) ∉ staticDecode (encoded.take n) room) (n room : Nat) :
    (0 : UInt8) ∉ staticDecode ((c :: encoded).take n) room := by
  match n, room with
  | 0, _ => simp [staticDecode]
  | _ + 1, 0 => simp
  | n + 1, room + 1 =>
    rw [take_succ_cons, staticDecode.eq_def]
    simp only [notPercent, if_false]
    split
    · simpa using rest n room
    · simpa [Ne.symm notNul] using rest n room

lemma staticDecode_nul (encodes : PercentEncodes path encoded) (nul : (0 : UInt8) ∉ path)
    (n room : Nat) : (0 : UInt8) ∉ staticDecode (encoded.take n) room := by
  induction encodes generalizing n room with
  | nil => simp [staticDecode]
  | @slash path encoded _ ih =>
    have rest (n room : Nat) := ih (not_mem_of_not_mem_cons nul) n room
    exact staticDecode_nul_cons (by decide) (by decide) rest n room
  | @literal path encoded c allowed _ ih =>
    have rest (n room : Nat) := ih (not_mem_of_not_mem_cons nul) n room
    obtain ⟨notPercent, notNul⟩ := plain_of_pchar allowed
    exact staticDecode_nul_cons notPercent notNul rest n room
  | @triplet path encoded h l high low first second encodes ih =>
    obtain ⟨hPercent, hPlus, hNul, -⟩ := hexDigit_plain first
    match n, room with
    | 0, _ => simp [staticDecode]
    | _, 0 => simp
    | 1, room + 1 => simp [staticDecode]
    | 2, room + 1 =>
      rw [staticDecode.eq_def]
      have empty : ∀ n room, (0 : UInt8) ∉ staticDecode (([] : Bytes).take n) room := fun n room => by simp [staticDecode]
      have digit := staticDecode_nul_cons hPercent hNul empty 1 room
      simpa using digit
    | n + 3, room + 1 =>
      rw [take_succ_cons, take_succ_cons, take_succ_cons, staticDecode_triplet first second]
      intro member
      rcases mem_cons.mp member with zero | member
      · exact nul (zero ▸ mem_cons_self)
      · exact ih (not_mem_of_not_mem_cons nul) _ _ member

def below (dir path : Bytes) : Bytes := if dir = [0x2f] then 0x2f :: path else dir ++ 0x2f :: path

lemma parentRefFrom_split (found : parentRefFrom prev s = true) :
    ∃ front back, s = front ++ ascii ".." ++ back ∧ (front = [] ∧ prev = 0x2f ∨ ∃ dir, front = dir ++ [0x2f]) ∧
      (back = [] ∨ ∃ name, back = 0x2f :: name) := by
  induction s generalizing prev with
  | nil => cases found
  | cons c rest ih =>
    unfold parentRefFrom at found
    rw [Bool.or_eq_true] at found
    rcases found with here | later
    · cases rest with
      | nil => simp at here
      | cons next nextNext =>
        simp only [Bool.and_eq_true, Bool.or_eq_true, beq_iff_eq] at here
        obtain ⟨⟨rfl, rfl⟩, rfl, ends⟩ := here
        refine ⟨[], nextNext, rfl, .inl ⟨rfl, rfl⟩, ?_⟩
        rcases ends with slash | nothing
        · obtain ⟨name, rfl⟩ := head?_eq_some_iff.mp slash
          exact .inr ⟨name, rfl⟩
        · exact .inl nothing
    · obtain ⟨front, back, rfl, starts, ends⟩ := ih later
      refine ⟨c :: front, back, rfl, .inr ?_, ends⟩
      rcases starts with ⟨rfl, rfl⟩ | ⟨dir, rfl⟩
      · exact ⟨[], rfl⟩
      · exact ⟨c :: dir, rfl⟩

lemma splitOn_slash (front back : Bytes) :
    (front ++ 0x2f :: back).splitOn 0x2f = front.splitOn 0x2f ++ back.splitOn 0x2f :=
  splitOnP_append_cons front back rfl

lemma parent_mem_splitOn (found : parentRefFrom 0x2f s = true) : ascii ".." ∈ s.splitOn 0x2f := by
  obtain ⟨front, back, rfl, starts, ends⟩ := parentRefFrom_split found
  have name : ascii ".." ∈ (ascii ".." ++ back).splitOn 0x2f := by
    rcases ends with rfl | ⟨name, rfl⟩
    · decide
    · rw [splitOn_slash]
      exact mem_append_left _ (by decide)
  rcases starts with ⟨rfl, -⟩ | ⟨dir, rfl⟩
  · exact name
  · rw [append_assoc, append_assoc, singleton_append, splitOn_slash]
    exact mem_append_right _ name

lemma mem_splitOn_below (whole : below dir path = 0x2f :: rest)
    (member : name ∈ path.splitOn 0x2f) : name ∈ rest.splitOn 0x2f := by
  unfold below at whole
  split at whole
  · rwa [(cons.inj whole).2] at member
  cases dir with
  | nil => rwa [(cons.inj whole).2] at member
  | cons first dir =>
    rw [cons_append, cons.injEq] at whole
    rw [← whole.2, splitOn_slash]
    exact mem_append_right _ member

lemma noParentRef (isFile : file.bytes = below dir path)
    (canonical : Canonical file.bytes) : parentRefFrom 0x2f path = false := by
  by_contra found
  have parent := parent_mem_splitOn (by simpa using found)
  rcases canonical with root | ⟨rest, whole, names⟩
  · rw [root] at isFile
    have inside := mem_splitOn_below isFile.symm parent
    revert inside
    decide
  · exact (names _ (mem_splitOn_below (isFile.symm.trans whole) parent)).2.2 rfl

lemma matchEntry_below {path : CStr} {relative : Bytes} (request : path.bytes = below entry.urlPrefix.bytes relative)
    (notEmpty : relative ≠ []) : matchEntry entry path = some (some relative) := by
  obtain ⟨rest, normal, -⟩ := entry.normal
  have named : entry.urlPrefix.length ≠ 0 := by simp [CStr.length, normal]
  unfold matchEntry
  rw [if_neg named]
  by_cases root : entry.urlPrefix.bytes = [0x2f] <;> rw [below] at request
  · simp [root, request]
  · simp [root, request, CStr.length]

/-- Absolute paths that lie in a directory, the directory itself included. -/
def Under (root path : Bytes) : Prop := path = root ∨ ∃ relative, path = below root relative

lemma resolveStatic_ok_iff :
    resolveStatic fs entry relative = .ok file ↔
      let decoded := CStr.ofBytes (staticDecode (relativeBuf relative) (pathMax - 1))
      hasParentRef decoded = false ∧ (entry.fsRoot.bytes ++ 0x2f :: decoded.bytes).length < pathMax ∧
        fs.realpath (.ofBytes (entry.fsRoot.bytes ++ 0x2f :: decoded.bytes)) = some file ∧
          file.bytes.take entry.fsRoot.length = entry.fsRoot.bytes ∧
            (file.bytes[entry.fsRoot.length]? = some 0x2f ∨ file.bytes[entry.fsRoot.length]? = none) := by
  simp only [resolveStatic]
  generalize CStr.ofBytes (staticDecode (relativeBuf relative) (pathMax - 1)) = decoded
  cases parent : hasParentRef decoded with
  | true => simp
  | false =>
  by_cases long : (entry.fsRoot.bytes ++ 0x2f :: decoded.bytes).length ≥ pathMax
  · rw [if_pos long]
    constructor
    · intro impossible
      cases impossible
    · rintro ⟨-, short, -⟩
      exact absurd short (not_lt.mpr long)
  rw [if_neg (by simp), if_neg long]
  simp only [not_le.mp long, true_and]
  cases found : fs.realpath (.ofBytes (entry.fsRoot.bytes ++ 0x2f :: decoded.bytes)) with
  | none => simp
  | some canonical =>
    simp only [Option.some.injEq]
    split
    case isTrue outside =>
      constructor
      · intro impossible
        cases impossible
      rintro ⟨rfl, inside, next⟩
      rcases outside with outside | ⟨notSlash, notEnd⟩
      · exact absurd inside outside
      · exact (next.elim notSlash notEnd).elim
    case isFalse inside =>
      simp only [not_or, not_not, not_and] at inside
      simp only [Except.ok.injEq]
      constructor
      · rintro rfl
        refine ⟨rfl, inside.1, ?_⟩
        by_cases slash : canonical.bytes[entry.fsRoot.length]? = some 0x2f
        · exact .inl slash
        · exact .inr (inside.2 slash)
      · exact And.left

lemma under_of_ok (ok : resolveStatic fs entry relative = .ok file) : Under entry.fsRoot.bytes file.bytes := by
  obtain ⟨-, -, -, inside, next⟩ := resolveStatic_ok_iff.mp ok
  have whole := take_append_drop entry.fsRoot.length file.bytes
  rw [inside] at whole
  cases behind : file.bytes.drop entry.fsRoot.length with
  | nil =>
    rw [behind, append_nil] at whole
    exact .inl whole.symm
  | cons c rest =>
    have first : file.bytes[entry.fsRoot.length]? = some c := by
      rw [← head?_drop, behind]
      rfl
    have slash : c = 0x2f := by simpa [first] using next
    subst slash
    rw [behind] at whole
    by_cases root : entry.fsRoot.bytes = [0x2f]
    · exact .inr ⟨0x2f :: rest, by rw [← whole, root]; rfl⟩
    · exact .inr ⟨rest, by rw [below, if_neg root, whole]⟩

def FileSystem.only (file : CStr) (canonical : Canonical file.bytes) (short : file.length < pathMax) : FileSystem where
  realpath path := if path = file then some file else none
  canonical := by
    intro path resolved found
    split at found
    · cases found
      exact ⟨canonical, short⟩
    · cases found
  settled := by
    intro path resolved found
    split at found
    · cases found
      exact if_pos rfl
    · cases found

lemma only_realpath {path resolved : CStr} {canonical : Canonical file.bytes} {short : file.length < pathMax}
    (found : (FileSystem.only file canonical short).realpath path = some resolved) : path = file := by
  simp only [FileSystem.only] at found
  split at found
  case isTrue same => exact same
  case isFalse => cases found

lemma nul_join (dirNul : (0 : UInt8) ∉ dir) (pathNul : (0 : UInt8) ∉ path) : (0 : UInt8) ∉ dir ++ 0x2f :: path := by
  simp [dirNul, pathNul]

lemma not_canonical_double_slash : ¬ Canonical (0x2f :: 0x2f :: rest) := by
  rintro (root | ⟨names, whole, plain⟩)
  · cases root
  rw [← (cons.inj whole).2] at plain
  have empty : ([] : Bytes) ∈ (0x2f :: rest).splitOn 0x2f := by
    rw [show (0x2f :: rest) = [] ++ 0x2f :: rest from rfl, splitOn_slash]
    exact mem_append_left _ (by decide)
  exact (plain [] empty).1 rfl

lemma resolves_iff (notEmpty : path ≠ [])
    (encodes : PercentEncodes path encoded) (isFile : file.bytes = below entry.fsRoot.bytes path)
    (canonical : Canonical file.bytes) (short : file.length < pathMax) :
    (∀ fs : FileSystem, fs.realpath file = some file → resolveStatic fs entry (some encoded) = .ok file) ↔
      entry.fsRoot.bytes ≠ [0x2f] ∧ 0x2b ∉ encoded ∧
        (encoded.length ≤ pathMax - 1 ∨ CutHarmlessly (pathMax - 1) encoded) := by
  have nul : (0 : UInt8) ∉ path := by
    intro member
    apply file.nul
    rw [isFile, below]
    split <;> simp [member]
  have encodedNotEmpty : encoded ≠ [] := fun nothing => notEmpty ((encodes_nil_iff encodes).mpr nothing)
  have buffer : relativeBuf (some encoded) = encoded.take (pathMax - 1) := by
    obtain ⟨c, rest, rfl⟩ := exists_cons_of_ne_nil encodedNotEmpty
    rfl
  have bytes := CStr.ofBytes_bytes (staticDecode_nul encodes nul (pathMax - 1) (pathMax - 1))
  rw [← staticDecode_take_iff encodes (le_refl (pathMax - 1))]
  constructor
  · intro resolves
    have ok := resolves (.only file canonical short) (if_pos rfl)
    rw [resolveStatic_ok_iff, buffer] at ok
    obtain ⟨-, -, found, -, next⟩ := ok
    have joined : (entry.fsRoot.bytes ++ 0x2f :: staticDecode (encoded.take (pathMax - 1)) (pathMax - 1)) = file.bytes := by
      have same := only_realpath found
      rw [← same, CStr.ofBytes_bytes, bytes]
      rw [bytes]
      exact nul_join entry.fsRoot.nul (staticDecode_nul encodes nul _ _)
    have notRoot : entry.fsRoot.bytes ≠ [0x2f] := by
      intro root
      rw [below, if_pos root] at isFile
      have second : file.bytes[entry.fsRoot.length]? = path.head? := by
        rw [isFile, CStr.length, root]
        cases path <;> rfl
      rw [second] at next
      obtain ⟨rest, rfl⟩ : ∃ rest, path = 0x2f :: rest := by
        rcases next with slash | nothing
        · obtain ⟨rest, same⟩ := head?_eq_some_iff.mp slash
          exact ⟨rest, same⟩
        · exact absurd (head?_eq_none_iff.mp nothing) notEmpty
      exact not_canonical_double_slash (isFile ▸ canonical)
    refine ⟨notRoot, ?_⟩
    rw [isFile, below, if_neg notRoot] at joined
    exact (cons.inj (append_cancel_left joined)).2
  · rintro ⟨notRoot, decoded⟩ fs found
    have noParent := noParentRef isFile canonical
    rw [decoded] at bytes
    rw [below, if_neg notRoot] at isFile
    rw [resolveStatic_ok_iff, buffer, decoded]
    simp only [bytes, ← isFile, CStr.ofBytes_self, hasParentRef]
    refine ⟨noParent, short, found, ?_, .inl ?_⟩
    · rw [isFile, take_left']
      rfl
    · rw [isFile, CStr.length]
      simp

structure AsksFor (dirs : List StaticDir) (method : Method) (request : CStr) (entry : StaticDir) (encoded : Bytes) (file : CStr) :
    Prop where
  method : method = .get ∨ method = .head
  matched : (firstMatch request dirs).map Prod.fst = some entry
  request : request.bytes = below entry.urlPrefix.bytes encoded
  file : ∃ path, path ≠ [] ∧ PercentEncodes path encoded ∧ file.bytes = below entry.fsRoot.bytes path

structure MapsExactly (dirs : List StaticDir) (method : Method) (request : CStr) : Prop where
  sound : ∀ fs file, servedFile fs dirs method request = some (.ok file) →
    ∃ entry, (firstMatch request dirs).map Prod.fst = some entry ∧ Under entry.fsRoot.bytes file.bytes
  complete : ∀ entry encoded file, AsksFor dirs method request entry encoded file →
    ∀ fs : FileSystem, fs.realpath file = some file → servedFile fs dirs method request = some (.ok file)

def Mappable (dirs : List StaticDir) (method : Method) (request : CStr) : Prop :=
  ∀ entry encoded file, AsksFor dirs method request entry encoded file → Canonical file.bytes → file.length < pathMax →
    entry.fsRoot.bytes ≠ [0x2f] ∧ 0x2b ∉ encoded ∧ (encoded.length ≤ pathMax - 1 ∨ CutHarmlessly (pathMax - 1) encoded)

lemma firstMatch_some
    (found : firstMatch request dirs = some (entry, relative)) : matchEntry entry request = some relative := by
  induction dirs with
  | nil => cases found
  | cons first rest ih =>
    simp only [firstMatch] at found
    split at found
    case h_1 matched =>
      cases found
      exact matched
    case h_2 => exact ih found

lemma AsksFor.served (asks : AsksFor dirs method request entry encoded file) (fs : FileSystem) :
    servedFile fs dirs method request = some (resolveStatic fs entry (some encoded)) := by
  obtain ⟨path, notEmpty, encodes, -⟩ := asks.file
  obtain ⟨⟨entry', relative⟩, found, same⟩ := Option.map_eq_some_iff.mp asks.matched
  subst same
  have filled : encoded ≠ [] := fun nothing => notEmpty ((encodes_nil_iff encodes).mpr nothing)
  have here := firstMatch_some found
  rw [matchEntry_below asks.request filled] at here
  cases here
  rw [servedFile, prepareStatic, if_pos asks.method, found, Option.map_some]

lemma sound_of_served (served : servedFile fs dirs method request = some (.ok file)) :
    ∃ entry, (firstMatch request dirs).map Prod.fst = some entry ∧ Under entry.fsRoot.bytes file.bytes := by
  obtain ⟨⟨entry, relative⟩, found, ok⟩ := Option.map_eq_some_iff.mp served
  unfold prepareStatic at found
  split at found
  case isTrue => exact ⟨entry, by rw [found]; rfl, under_of_ok ok⟩
  case isFalse => cases found

lemma MapsExactly.mappable (exact : MapsExactly dirs method request) : Mappable dirs method request := by
  intro entry encoded file asks canonical short
  obtain ⟨path, notEmpty, encodes, isFile⟩ := asks.file
  apply (resolves_iff notEmpty encodes isFile canonical short).mp
  intro fs found
  have served := exact.complete entry encoded file asks fs found
  rw [asks.served] at served
  exact Option.some.inj served

lemma Mappable.mapsExactly (mappable : Mappable dirs method request) : MapsExactly dirs method request := by
  refine ⟨fun fs file served => sound_of_served served, ?_⟩
  intro entry encoded file asks fs found
  obtain ⟨canonical, short⟩ := fs.canonical file file found
  obtain ⟨path, notEmpty, encodes, isFile⟩ := asks.file
  have resolves := (resolves_iff notEmpty encodes isFile canonical short).mpr (mappable entry encoded file asks canonical short)
  rw [asks.served, resolves fs found]

/-- A request is mapped as it should be unless it asks for a file under `/` itself, writes a `+`, or is cut where that
matters. -/
theorem mapsExactly_iff_mappable (dirs : List StaticDir) (method : Method) (request : CStr) :
    MapsExactly dirs method request ↔ Mappable dirs method request :=
  ⟨MapsExactly.mappable, Mappable.mapsExactly⟩

def filesAt (fsRoot : String) : StaticDir := ⟨.ofBytes (ascii "/files"), .ofBytes (ascii fsRoot), ascii "files", by decide, by decide⟩

/-- `/` as the root, and a file with a `+` in its name. -/
theorem root_and_plus_not_mapped : ¬ MapsExactly [filesAt "/"] .get (.ofBytes (ascii "/files/a")) ∧
      ¬ MapsExactly [filesAt "/srv"] .get (.ofBytes (ascii "/files/a+b")) := by
  constructor <;> intro exact
  · have asks : AsksFor [filesAt "/"] .get (.ofBytes (ascii "/files/a")) (filesAt "/") (ascii "a") (.ofBytes (ascii "/a")) :=
      ⟨.inl rfl, rfl, by decide, ascii "a", by decide, .literal (by decide) .nil, by decide⟩
    exact (exact.mappable _ _ _ asks (.inr ⟨ascii "a", by decide⟩) (by decide)).1 (by decide)
  · have asks : AsksFor [filesAt "/srv"] .get (.ofBytes (ascii "/files/a+b")) (filesAt "/srv") (ascii "a+b")
        (.ofBytes (ascii "/srv/a+b")) :=
      ⟨.inl rfl, rfl, by decide, ascii "a+b", by decide,
        .literal (by decide) (.literal (by decide) (.literal (by decide) .nil)), by decide⟩
    exact (exact.mappable _ _ _ asks (.inr ⟨ascii "srv/a+b", by decide⟩) (by decide)).2.1 (by decide)

end Cwist.App
