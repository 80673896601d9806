import Mathlib

/-!
# Chained hash tables

A table is a list of chains, and each entry is in the chain that its key selects.
-/

namespace Buckets
open List

variable {κ ν : Type*} {place : κ → Nat} {table : List (List (κ × ν))} {key : κ} {val : ν} {e : κ × ν} {i : Nat} {n : Nat}
  {chain : List (κ × ν)}

def Placed (place : κ → Nat) (table : List (List (κ × ν))) : Prop :=
  ∀ (i : Nat) (chain : List (κ × ν)), table[i]? = some chain → ∀ e ∈ chain, place e.1 = i

lemma placed_replicate (place : κ → Nat) (n : Nat) : Placed place (replicate n ([] : List (κ × ν))) := by
  intro i chain found e member
  rw [getElem?_replicate] at found
  split at found <;> cases found
  cases member

lemma Placed.mem_iff (placed : Placed place table) :
    e ∈ table.flatten ↔ ∃ chain, table[place e.1]? = some chain ∧ e ∈ chain := by
  rw [mem_flatten]
  constructor
  · rintro ⟨chain, member, inside⟩
    obtain ⟨i, found⟩ := getElem?_of_mem member
    have same := placed i chain found e inside
    exact ⟨chain, same ▸ found, inside⟩
  · rintro ⟨chain, found, inside⟩
    exact ⟨chain, mem_of_getElem? found, inside⟩

lemma sublist_flatten (found : table[i]? = some chain) : chain.Sublist table.flatten :=
  sublist_flatten_of_mem (mem_of_getElem? found)

lemma exists_around (found : table[i]? = some chain) (chain' : List (κ × ν)) :
    ∃ front back, table = front ++ chain :: back ∧ table.set i chain' = front ++ chain' :: back := by
  obtain ⟨bound, same⟩ := List.getElem?_eq_some_iff.mp found
  refine ⟨table.take i, table.drop (i + 1), ?_, List.set_eq_take_append_cons_drop.trans (if_pos bound)⟩
  rw [← same, cons_getElem_drop_succ, take_append_drop]

section Search
variable [DecidableEq κ] {chain chain' : List (κ × ν)}

lemma lookup_eq_some_iff (placed : Placed place table) (unique : (table.flatten.map Prod.fst).Nodup) :
    (table[place key]?.getD []).lookup key = some val ↔ (key, val) ∈ table.flatten := by
  rw [placed.mem_iff]
  cases found : table[place key]? with
  | none => simp
  | some chain =>
    have distinct := ((sublist_flatten found).map Prod.fst).nodup unique
    simp only [Option.getD_some, Option.some.injEq, exists_eq_left']
    constructor
    · intro looked
      obtain ⟨front, back, rfl, -⟩ := List.lookup_eq_some_iff.mp looked
      simp
    intro member
    obtain ⟨front, back, rfl⟩ := append_of_mem member
    refine List.lookup_eq_some_iff.mpr ⟨front, back, rfl, fun e earlier => ?_⟩
    rw [bne_iff_ne]
    rintro rfl
    rw [map_append, nodup_append] at distinct
    exact distinct.2.2 e.1 (mem_map_of_mem earlier) e.1 (by simp) rfl

def assign (key : κ) (val : ν) : List (κ × ν) → Option (List (κ × ν))
  | [] => none
  | e :: rest => if e.1 = key then some ((e.1, val) :: rest) else (assign key val rest).map (e :: ·)

lemma assign_eq_none_iff : assign key val chain = none ↔ key ∉ chain.map Prod.fst := by
  induction chain with
  | nil => simp [assign]
  | cons e rest ih =>
    rw [assign]
    split
    next same => simp [same]
    next other => simp [ih, Ne.symm other]

lemma assign_keys (assigned : assign key val chain = some chain') : chain'.map Prod.fst = chain.map Prod.fst := by
  induction chain generalizing chain' with
  | nil => cases assigned
  | cons e rest ih =>
    rw [assign] at assigned
    split at assigned
    · cases assigned
      rfl
    · obtain ⟨rest', replaced, rfl⟩ := Option.map_eq_some_iff.mp assigned
      rw [map_cons, ih replaced, map_cons]

lemma mem_assign (unique : (chain.map Prod.fst).Nodup) (assigned : assign key val chain = some chain') (e : κ × ν) :
    e ∈ chain' ↔ if e.1 = key then e.2 = val else e ∈ chain := by
  induction chain generalizing chain' with
  | nil => cases assigned
  | cons d rest ih =>
    obtain ⟨fresh, distinct⟩ := nodup_cons.mp unique
    rw [assign] at assigned
    split at assigned
    next same =>
      cases assigned
      split
      next same' =>
        have absent : e ∉ rest := fun member => fresh (same.trans same'.symm ▸ mem_map_of_mem member)
        simp [absent, Prod.ext_iff, same, same']
      next other =>
        have differs : e ≠ d := fun eq => other (eq ▸ same)
        have differs' : e ≠ (d.1, val) := fun eq => other (by rw [eq]; exact same)
        simp [differs, differs']
    next other =>
      obtain ⟨rest', replaced, rfl⟩ := Option.map_eq_some_iff.mp assigned
      rw [mem_cons, ih distinct replaced]
      split
      next same' =>
        have differs : e ≠ d := fun eq => other (eq ▸ same')
        simp [differs]
      · rw [mem_cons]

section Assign
variable (found : table[place key]? = some chain) (assigned : assign key val chain = some chain')
include found assigned

lemma keys_set_assign : ((table.set (place key) chain').flatten.map Prod.fst) = table.flatten.map Prod.fst := by
  obtain ⟨front, back, split, replaced⟩ := exists_around found chain'
  rw [replaced, split]
  simp [assign_keys assigned]

lemma placed_set_assign (placed : Placed place table) : Placed place (table.set (place key) chain') := by
  intro i other found' e member
  rw [getElem?_set] at found'
  split at found'
  next here =>
    subst here
    split at found' <;> cases found'
    have kept : e.1 ∈ chain.map Prod.fst := assign_keys assigned ▸ mem_map_of_mem member
    obtain ⟨d, inside, same⟩ := mem_map.mp kept
    exact same ▸ placed _ chain found d inside
  · exact placed i other found' e member

lemma mem_set_assign (placed : Placed place table) (unique : (table.flatten.map Prod.fst).Nodup) (e : κ × ν) :
    e ∈ (table.set (place key) chain').flatten ↔ if e.1 = key then e.2 = val else e ∈ table.flatten := by
  have distinct := ((sublist_flatten found).map Prod.fst).nodup unique
  have bound := (List.getElem?_eq_some_iff.mp found).1
  rw [(placed_set_assign found assigned placed).mem_iff, placed.mem_iff, List.getElem?_set]
  by_cases here : place key = place e.1
  · rw [if_pos here, if_pos (here ▸ bound), ← here, found]
    simp [mem_assign distinct assigned]
  · have other : e.1 ≠ key := fun same => here (by rw [same])
    rw [if_neg here, if_neg other]

end Assign

end Search

def insert (place : κ → Nat) (table : List (List (κ × ν))) (e : κ × ν) : List (List (κ × ν)) :=
  table.modify (place e.1) (e :: ·)

lemma insert_length (place : κ → Nat) (table : List (List (κ × ν))) (e : κ × ν) :
    (insert place table e).length = table.length := length_modify _ _ _

lemma insert_perm (bound : place e.1 < table.length) : (insert place table e).flatten.Perm (e :: table.flatten) := by
  obtain ⟨chain, found⟩ : ∃ chain, table[place e.1]? = some chain := ⟨_, getElem?_eq_getElem bound⟩
  obtain ⟨front, back, split, replaced⟩ := exists_around found (e :: chain)
  have modified : insert place table e = front ++ (e :: chain) :: back := by
    rw [insert, modify_eq_set_getElem?, found]
    exact replaced
  rw [modified, split]
  simp

lemma placed_insert (placed : Placed place table) (e : κ × ν) : Placed place (insert place table e) := by
  intro i chain found d member
  rw [insert, getElem?_modify] at found
  obtain ⟨chain₀, found₀, rfl⟩ := Option.map_eq_some_iff.mp found
  split at member
  next here =>
    rcases mem_cons.mp member with rfl | inside
    · exact here
    · exact placed i chain₀ found₀ d inside
  · exact placed i chain₀ found₀ d member

def rehash (place : κ → Nat) (n : Nat) (entries : List (κ × ν)) : List (List (κ × ν)) :=
  entries.foldl (insert place) (replicate n [])

lemma foldl_insert (bound : ∀ k, place k < n) (entries : List (κ × ν)) (length : table.length = n)
    (placed : Placed place table) :
    (entries.foldl (insert place) table).length = n ∧ Placed place (entries.foldl (insert place) table) ∧
      (entries.foldl (insert place) table).flatten.Perm (entries ++ table.flatten) := by
  induction entries generalizing table with
  | nil => exact ⟨length, placed, .refl _⟩
  | cons e entries ih =>
    obtain ⟨length', placed', perm⟩ := ih ((insert_length place table e).trans length) (placed_insert placed e)
    refine ⟨length', placed', perm.trans ?_⟩
    have moved := (insert_perm (length.symm ▸ bound e.1)).append_left entries
    exact moved.trans perm_middle

lemma rehash_spec (bound : ∀ k, place k < n) (entries : List (κ × ν)) :
    (rehash place n entries).length = n ∧ Placed place (rehash place n entries) ∧
      (rehash place n entries).flatten.Perm entries := by
  have spec := foldl_insert bound entries (length_replicate (n := n) (a := [])) (placed_replicate place n)
  simpa [rehash] using spec

end Buckets
