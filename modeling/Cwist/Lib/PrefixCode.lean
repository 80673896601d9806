import Mathlib

/-!
# Prefix codes and their tries

A code assigns a bit string to each symbol.
-/

namespace PrefixCode
open List

def bits : Nat → Nat → List Bool
  | 0, _ => []
  | width + 1, n => n.testBit width :: bits width n

@[simp] lemma bits_length (width n : Nat) : (bits width n).length = width := by
  induction width with
  | zero => rfl
  | succ width ih => simp [bits, ih]

lemma bits_congr {width n m : Nat} (same : ∀ i < width, n.testBit i = m.testBit i) : bits width n = bits width m := by
  induction width with
  | zero => rfl
  | succ width ih => rw [bits, bits, same width (by omega), ih fun i below => same i (by omega)]

lemma bits_add (a b n : Nat) : bits (a + b) n = bits a (n >>> b) ++ bits b n := by
  induction a with
  | zero => simp [bits]
  | succ a ih =>
    rw [show a + 1 + b = (a + b) + 1 by omega, bits, bits, ih, Nat.testBit_shiftRight, add_comm b a]
    rfl

lemma bits_mod (width n : Nat) {limit : Nat} (fits : width ≤ limit) : bits width (n % 2 ^ limit) = bits width n :=
  bits_congr fun i below => by simp [Nat.testBit_mod_two_pow, show i < limit by omega]

variable {α : Type*} {input pending : List Bool} {b : Bool}

section Code
variable (code : α → List Bool)

def PrefixFree : Prop := ∀ a b, code a <+: code b → a = b

def encode (xs : List α) : List Bool := xs.flatMap code

variable {p : List Bool} {ys : List α}

@[simp] lemma encode_nil : encode code [] = [] := rfl

@[simp] lemma encode_cons (a : α) (xs : List α) : encode code (a :: xs) = code a ++ encode code xs := rfl

structure Unfinished (p : List Bool) : Prop where
  begun : p = [] ∨ ∃ a, p <+: code a
  open_ : ∀ a, ¬code a <+: p

/-- The input is the codewords of `ys` and then an unfinished one. -/
def Splits (input : List Bool) (ys : List α) (p : List Bool) : Prop :=
  input = encode code ys ++ p ∧ Unfinished code p

variable {code}

lemma unfinished_nil (nonempty : ∀ a, code a ≠ []) : Unfinished code [] :=
  ⟨.inl rfl, fun a short => nonempty a (prefix_nil.mp short)⟩

lemma eq_of_prefix_snoc {a : α} (pending : Unfinished code p) (short : code a <+: p ++ [b]) : code a = p ++ [b] := by
  rcases prefix_concat_iff.mp short with same | before
  · exact same
  · exact absurd before (pending.open_ a)

lemma first_word {y : α}
    (unfinished : Unfinished code pending) (same : pending ++ b :: input = encode code (y :: ys) ++ p) :
    code y = pending ++ [b] ∨ pending ++ [b] <+: code y := by
  have read : pending ++ [b] <+: pending ++ b :: input := ⟨input, by simp⟩
  have word : code y <+: pending ++ b :: input := ⟨encode code ys ++ p, by simp [same]⟩
  rcases prefix_or_prefix_of_prefix word read with short | long
  · exact .inl (eq_of_prefix_snoc unfinished short)
  · exact .inr long

lemma splits_unfinished (unfinished : Unfinished code pending) : Splits code pending ys p ↔ ys = [] ∧ p = pending := by
  constructor
  · rintro ⟨same, -⟩
    cases ys with
    | nil => exact ⟨rfl, same.symm⟩
    | cons y ys => exact absurd ⟨encode code ys ++ p, by simp [same]⟩ (unfinished.open_ y)
  · rintro ⟨rfl, rfl⟩
    exact ⟨rfl, unfinished⟩

lemma splits_missing (unfinished : Unfinished code pending)
    (missing : ∀ a, ¬pending ++ [b] <+: code a) : ¬Splits code (pending ++ b :: input) ys p := by
  rintro ⟨same, last⟩
  cases ys with
  | nil =>
    have long : pending ++ [b] <+: p := ⟨input, by simpa using same⟩
    rcases last.begun with rfl | ⟨a, short⟩
    · simp at long
    · exact missing a (long.trans short)
  | cons y ys =>
    rcases first_word unfinished same with here | long
    · exact missing y (here ▸ prefix_rfl)
    · exact missing y long

lemma splits_word (free : PrefixFree code) {a : α}
    (unfinished : Unfinished code pending) (word : pending ++ [b] = code a) :
    Splits code (pending ++ b :: input) ys p ↔ ∃ zs, ys = a :: zs ∧ Splits code input zs p := by
  have regroup : pending ++ b :: input = code a ++ input := by simp [← word]
  constructor
  · rintro ⟨same, last⟩
    cases ys with
    | nil => exact absurd ⟨input, by simpa [regroup] using same⟩ (last.open_ a)
    | cons y ys =>
      have first : y = a := by
        rcases first_word unfinished same with here | long
        · exact free _ _ ((here.trans word) ▸ prefix_rfl)
        · exact (free _ _ (by rw [← word]; exact long)).symm
      subst first
      refine ⟨ys, rfl, ?_, last⟩
      simpa [regroup] using same
  · rintro ⟨zs, rfl, same, last⟩
    exact ⟨by rw [regroup, same]; simp, last⟩

end Code

inductive Trie (α : Type*) where
  | nil
  | node (zero one : Trie α) (symbol : Option α)
  deriving DecidableEq

namespace Trie
variable {code : α → List Bool}

def child : Trie α → Bool → Trie α
  | nil, _ => nil
  | node zero one _, b => if b then one else zero

def symbol : Trie α → Option α
  | nil => none
  | node _ _ s => s

def present : Trie α → Bool
  | nil => false
  | node .. => true

def find (t : Trie α) : List Bool → Trie α
  | [] => t
  | b :: path => (t.child b).find path

def insert (t : Trie α) (path : List Bool) (a : α) : Trie α :=
  match path with
  | [] => node (t.child false) (t.child true) (some a)
  | b :: path =>
    let below := (t.child b).insert path a
    if b then node (t.child false) below t.symbol else node below (t.child true) t.symbol

def nodes : Trie α → Nat
  | nil => 0
  | node zero one _ => zero.nodes + one.nodes + 1

@[simp] lemma nil_child (b : Bool) : (nil : Trie α).child b = nil := rfl

section
variable (t : Trie α)
include t

@[simp] lemma find_nil : t.find [] = t := rfl

lemma find_append (p q : List Bool) : t.find (p ++ q) = (t.find p).find q := by
  induction p generalizing t with
  | nil => rfl
  | cons b p ih => exact ih (t.child b)

lemma find_snoc (p : List Bool) (b : Bool) : t.find (p ++ [b]) = (t.find p).child b :=
  find_append t p [b]

@[simp] lemma insert_child_same (b : Bool) (path : List Bool) (a : α) :
    (t.insert (b :: path) a).child b = (t.child b).insert path a := by
  cases b <;> rfl

lemma insert_child_other {c : Bool} (path : List Bool) (a : α) (different : c ≠ b) :
    (t.insert (b :: path) a).child c = t.child c := by
  cases b <;> cases c <;> first | rfl | exact absurd rfl different

@[simp] lemma insert_symbol_cons (b : Bool) (path : List Bool) (a : α) :
    (t.insert (b :: path) a).symbol = t.symbol := by
  cases b <;> rfl

@[simp] lemma insert_present (path : List Bool) (a : α) : (t.insert path a).present = true := by
  cases path with
  | nil => rfl
  | cons b path => cases b <;> rfl

lemma insert_find_symbol (path q : List Bool) (a : α) :
    ((t.insert path a).find q).symbol = if q = path then some a else (t.find q).symbol := by
  induction q generalizing t path with
  | nil =>
    cases path with
    | nil => rfl
    | cons b path => simp
  | cons c q ih =>
    cases path with
    | nil => cases c <;> simp [insert, find, child]
    | cons b path =>
      rw [find, find]
      by_cases same : c = b
      · subst same
        rw [insert_child_same, ih]
        simp
      · rw [insert_child_other _ _ _ same, if_neg (by simp [same])]

lemma insert_find_present (path q : List Bool) (a : α) :
    ((t.insert path a).find q).present = (decide (q <+: path) || (t.find q).present) := by
  induction q generalizing t path with
  | nil => simp
  | cons c q ih =>
    cases path with
    | nil => cases c <;> simp [insert, find, child]
    | cons b path =>
      rw [find, find]
      by_cases same : c = b
      · subst same
        rw [insert_child_same, ih]
        simp [cons_prefix_cons]
      · rw [insert_child_other _ _ _ same]
        simp [cons_prefix_cons, same]

end

def build (words : List (List Bool × α)) : Trie α :=
  words.foldl (fun t w => t.insert w.1 w.2) (node nil nil none)

def walk : Trie α → List Bool → Option α
  | _, [] => none
  | t, b :: path =>
    match (t.child b).symbol with
    | some a => if path = [] then some a else none
    | none => (t.child b).walk path

lemma walk_spec {t : Trie α} {path : List Bool} {a : α} (reached : t.walk path = some a) :
    (t.find path).symbol = some a ∧ path ≠ [] ∧ ∀ q, q <+: path → q ≠ [] → q ≠ path → (t.find q).symbol = none := by
  induction path generalizing t with
  | nil => simp [walk] at reached
  | cons b path ih =>
    rw [walk] at reached
    cases stop : (t.child b).symbol with simp only [stop] at reached
    | some c =>
      split at reached
      next last =>
        subst last
        refine ⟨stop.trans reached, by simp, ?_⟩
        intro q short nonempty proper
        rcases prefix_cons_iff.mp short with rfl | ⟨rest, rfl, below⟩
        · exact absurd rfl nonempty
        · exact absurd (by rw [prefix_nil.mp below]) proper
      · cases reached
    | none =>
      obtain ⟨last, _, before⟩ := ih reached
      refine ⟨last, by simp, ?_⟩
      intro q short nonempty proper
      rcases prefix_cons_iff.mp short with rfl | ⟨rest, rfl, below⟩
      · exact absurd rfl nonempty
      by_cases here : rest = []
      · subst here
        exact stop
      · exact before rest below here (fun same => proper (by rw [same]))

lemma prefixFree_of_walk {t : Trie α} (reached : ∀ a, t.walk (code a) = some a) : PrefixFree code := by
  intro a b short
  have ⟨stopA, nonempty, _⟩ := walk_spec (reached a)
  have ⟨stopB, _, before⟩ := walk_spec (reached b)
  by_cases same : code a = code b
  · rw [same] at stopA
    exact Option.some.inj (stopA.symm.trans stopB)
  · rw [before _ short nonempty same] at stopA
    cases stopA

/-- A trie holds a code when its symbols are the codewords' and its paths their initial parts. -/
structure Holds (t : Trie α) (code : α → List Bool) : Prop where
  symbol_iff : ∀ q a, (t.find q).symbol = some a ↔ q = code a
  present_iff : ∀ q, (t.find q).present = true ↔ q = [] ∨ ∃ a, q <+: code a

lemma build_snoc (words : List (List Bool × α)) (w : List Bool × α) :
    build (words ++ [w]) = (build words).insert w.1 w.2 := by
  simp [build]

lemma build_symbol (code : α → List Bool) (injective : Function.Injective code) (xs : List α) (q : List Bool)
    (a : α) : ((build (xs.map fun x => (code x, x))).find q).symbol = some a ↔ a ∈ xs ∧ q = code a := by
  induction xs using List.reverseRecOn with
  | nil =>
    cases q with
    | nil => simp [build, symbol]
    | cons b q =>
      have gone : ∀ q, ((nil : Trie α).find q).symbol = none := by
        intro q
        induction q with
        | nil => rfl
        | cons b q ih => exact ih
      cases b <;> simp [build, find, child, gone]
  | append_singleton xs x ih =>
    rw [map_append, map_singleton, build_snoc, insert_find_symbol, mem_append, mem_singleton]
    split
    next here =>
      constructor
      · intro same
        obtain rfl := Option.some.inj same
        exact ⟨.inr rfl, here⟩
      · rintro ⟨-, there⟩
        rw [injective (here.symm.trans there)]
    next elsewhere =>
      rw [ih]
      constructor
      · rintro ⟨member, same⟩
        exact ⟨.inl member, same⟩
      · rintro ⟨member | rfl, same⟩
        · exact ⟨member, same⟩
        · exact absurd same elsewhere

lemma build_present (code : α → List Bool) (xs : List α) (q : List Bool) :
    ((build (xs.map fun x => (code x, x))).find q).present = true ↔ q = [] ∨ ∃ a ∈ xs, q <+: code a := by
  induction xs using List.reverseRecOn with
  | nil =>
    cases q with
    | nil => simp [build, present]
    | cons b q =>
      have gone : ∀ q, ((nil : Trie α).find q).present = false := by
        intro q
        induction q with
        | nil => rfl
        | cons b q ih => exact ih
      cases b <;> simp [build, find, child, gone]
  | append_singleton xs x ih =>
    rw [map_append, map_singleton, build_snoc, insert_find_present, Bool.or_eq_true, ih, decide_eq_true_iff]
    constructor
    · rintro (here | empty | ⟨a, member, short⟩)
      · exact .inr ⟨x, by simp, here⟩
      · exact .inl empty
      · exact .inr ⟨a, by simp [member], short⟩
    · rintro (empty | ⟨a, member, short⟩)
      · exact .inr (.inl empty)
      rcases mem_append.mp member with old | new
      · exact .inr (.inr ⟨a, old, short⟩)
      · obtain rfl := mem_singleton.mp new
        exact .inl short

lemma holds_build (injective : Function.Injective code) {xs : List α}
    (all : ∀ a, a ∈ xs) : (build (xs.map fun x => (code x, x))).Holds code where
  symbol_iff q a := by rw [build_symbol code injective, and_iff_right (all a)]
  present_iff q := by simp [build_present, all]

def scan (t : Trie α) (stop : α → Bool) : List Bool → List Bool → List α → Option (List Bool × List α)
  | pending, [], out => some (pending, out)
  | pending, b :: input, out =>
    match t.find (pending ++ [b]) with
    | nil => none
    | node _ _ (some a) => if stop a then none else scan t stop [] input (out ++ [a])
    | node _ _ none => scan t stop (pending ++ [b]) input out

section Scan
variable {t : Trie α} {stop : α → Bool}

variable {out : List α}

lemma scan_missing
    (missing : (t.find (pending ++ [b])).present = false) : t.scan stop pending (b :: input) out = none := by
  rw [scan]
  cases reached : t.find (pending ++ [b]) with
  | nil => rfl
  | node => rw [reached] at missing; cases missing

lemma scan_symbol {a : α} (finished : (t.find (pending ++ [b])).symbol = some a) :
    t.scan stop pending (b :: input) out = if stop a then none else t.scan stop [] input (out ++ [a]) := by
  rw [scan]
  cases reached : t.find (pending ++ [b]) with
  | nil => rw [reached] at finished; cases finished
  | node zero one s =>
    rw [reached] at finished
    obtain rfl : s = some a := finished
    rfl

lemma scan_pending
    (there : (t.find (pending ++ [b])).present = true) (unfinished : (t.find (pending ++ [b])).symbol = none) :
    t.scan stop pending (b :: input) out = t.scan stop (pending ++ [b]) input out := by
  rw [scan]
  cases reached : t.find (pending ++ [b]) with
  | nil => rw [reached] at there; cases there
  | node zero one s =>
    rw [reached] at unfinished
    obtain rfl : s = none := unfinished
    rfl

lemma scan_eq_some_iff (holds : t.Holds code) (free : PrefixFree code) (nonempty : ∀ a, code a ≠ [])
    {p : List Bool} {xs : List α} (unfinished : Unfinished code pending) :
    t.scan stop pending input out = some (p, xs) ↔
      ∃ ys, xs = out ++ ys ∧ Splits code (pending ++ input) ys p ∧ ∀ y ∈ ys, stop y = false := by
  induction input generalizing pending out with
  | nil =>
    rw [append_nil, scan]
    simp only [splits_unfinished unfinished, Option.some.injEq, Prod.mk.injEq]
    constructor
    · rintro ⟨rfl, rfl⟩
      exact ⟨[], by simp, ⟨rfl, rfl⟩, by simp⟩
    · rintro ⟨ys, rfl, ⟨rfl, rfl⟩, -⟩
      simp
  | cons b input ih =>
    cases there : (t.find (pending ++ [b])).present with
    | false =>
      have missing : ∀ a, ¬pending ++ [b] <+: code a := by
        intro a short
        rw [(holds.present_iff _).mpr (.inr ⟨a, short⟩)] at there
        cases there
      rw [scan_missing there]
      refine iff_of_false (by simp) ?_
      rintro ⟨ys, -, splits, -⟩
      exact splits_missing unfinished missing splits
    | true =>
      cases finished : (t.find (pending ++ [b])).symbol with
      | some a =>
        have word := (holds.symbol_iff _ _).mp finished
        rw [scan_symbol finished]
        simp only [splits_word free unfinished word]
        by_cases refused : stop a = true
        · rw [if_pos refused]
          refine iff_of_false (by simp) ?_
          rintro ⟨ys, -, ⟨zs, rfl, -⟩, allowed⟩
          rw [allowed a (by simp)] at refused
          cases refused
        · rw [if_neg refused, ih (unfinished_nil nonempty)]
          constructor
          · rintro ⟨zs, rfl, splits, allowed⟩
            exact ⟨a :: zs, by simp, ⟨zs, rfl, splits⟩, by simpa [refused] using allowed⟩
          · rintro ⟨ys, rfl, ⟨zs, rfl, splits⟩, allowed⟩
            exact ⟨zs, by simp, splits, fun z member => allowed z (by simp [member])⟩
      | none =>
        have begun : Unfinished code (pending ++ [b]) := by
          refine ⟨(holds.present_iff _).mp there, fun a short => ?_⟩
          rw [(holds.symbol_iff _ a).mpr (eq_of_prefix_snoc unfinished short).symm] at finished
          cases finished
        rw [scan_pending there finished, ih begun]
        simp

end Scan

end Trie

end PrefixCode
