import Cwist.Http.Query

namespace Cwist.Http
open List CStr Buckets QueryMap

variable {hash : CStr → UInt64} {room : Nat → Bool} {map : QueryMap}

namespace QueryMap

def entries (map : QueryMap) : List (CStr × CStr) := map.buckets.flatten

/-- The invariant of the representation: entries are in the buckets of their keys, no key is there twice, and they are
counted. -/
structure Wf (hash : CStr → UInt64) (map : QueryMap) : Prop where
  positive : 0 < map.size
  placed : Buckets.Placed (index hash map.size) map.buckets
  unique : (map.entries.map Prod.fst).Nodup
  counted : map.count = map.entries.length

lemma Wf.create (hash : CStr → UInt64) : Wf hash .create where
  positive := by decide
  placed := placed_replicate _ _
  unique := by decide
  counted := rfl

lemma entries_clear (map : QueryMap) : map.clear.entries = [] := by
  rw [entries, flatten_eq_nil_iff]
  intro chain member
  obtain ⟨-, -, rfl⟩ := mem_map.mp member
  rfl

lemma Wf.clear (wf : Wf hash map) : Wf hash map.clear where
  positive := by rw [size, QueryMap.clear, length_map]; exact wf.positive
  placed := by
    intro i chain found e member
    rw [QueryMap.clear, getElem?_map] at found
    obtain ⟨-, -, rfl⟩ := Option.map_eq_some_iff.mp found
    cases member
  unique := by rw [entries_clear]; exact nodup_nil
  counted := by rw [entries_clear]; rfl

lemma index_lt (hash : CStr → UInt64) {n : Nat} (positive : 0 < n) (key : CStr) : index hash n key < n :=
  Nat.mod_lt _ positive

section
variable (wf : Wf hash map)
include wf

lemma Wf.get_iff {key value : CStr} : map.get hash key = some value ↔ (key, value) ∈ map.entries := by
  rw [get, if_neg (ne_of_gt wf.positive)]
  exact lookup_eq_some_iff wf.placed wf.unique

lemma Wf.get_of_entries (none_ : map.entries = []) (key : CStr) : map.get hash key = none := by
  rw [Option.eq_none_iff_forall_not_mem]
  intro value found
  have member := wf.get_iff.mp found
  rw [none_] at member
  cases member

lemma Wf.get_isSome_iff {key : CStr} : (map.get hash key).isSome ↔ key ∈ map.entries.map Prod.fst := by
  rw [Option.isSome_iff_exists, mem_map]
  simp only [wf.get_iff, Prod.exists]
  exact ⟨fun ⟨value, member⟩ => ⟨key, value, member, rfl⟩, by rintro ⟨_, value, member, rfl⟩; exact ⟨value, member⟩⟩

lemma Wf.grow : Wf hash (map.grow hash room) ∧ (map.grow hash room).entries.Perm map.entries := by
  unfold QueryMap.grow
  split
  · exact ⟨wf, .refl _⟩
  dsimp only
  generalize (if map.size ≠ 0 then map.size * 2 else queryMapDefaultSize) = newSize
  split
  · exact ⟨wf, .refl _⟩
  split
  · exact ⟨wf, .refl _⟩
  rename_i larger _
  rw [not_or, not_le] at larger
  have positive := Nat.zero_lt_of_lt larger.1
  obtain ⟨length, placed, perm⟩ := rehash_spec (index_lt hash positive) map.buckets.flatten
  generalize Buckets.rehash (index hash newSize) newSize map.buckets.flatten = table at length placed perm ⊢
  subst length
  exact ⟨⟨positive, placed, (perm.map Prod.fst).nodup_iff.mpr wf.unique, wf.counted.trans perm.length_eq.symm⟩, perm⟩

lemma set_of_wf (key value : CStr) : ∃ chain, map.buckets[index hash map.size key]? = some chain ∧
      map.set hash room key value = map.setIn hash room key value chain := by
  have bound := index_lt hash wf.positive key
  refine ⟨map.buckets[index hash map.size key], getElem?_eq_getElem bound, ?_⟩
  unfold set
  dsimp only
  rw [if_neg (ne_of_gt wf.positive), getElem?_eq_getElem bound]

lemma Wf.addNode {key : CStr} (value : CStr) (absent : key ∉ map.entries.map Prod.fst) :
    Wf hash (map.addNode hash key value) ∧ (map.addNode hash key value).entries.Perm ((key, value) :: map.entries) := by
  have perm : (map.addNode hash key value).entries.Perm ((key, value) :: map.entries) :=
    insert_perm (index_lt hash wf.positive key)
  have length : (map.addNode hash key value).size = map.size := insert_length _ _ _
  refine ⟨⟨length ▸ wf.positive, length ▸ placed_insert wf.placed _, ?_, ?_⟩, perm⟩
  · rw [(perm.map Prod.fst).nodup_iff, map_cons, nodup_cons]
    exact ⟨absent, wf.unique⟩
  · rw [perm.length_eq, length_cons, ← wf.counted]
    rfl

end

lemma Wf.set (room : Nat → Bool) (wf : Wf hash map) (key value : CStr) : Wf hash (map.set hash room key value) ∧
      ∀ e, e ∈ (map.set hash room key value).entries ↔ if e.1 = key then e.2 = value else e ∈ map.entries := by
  obtain ⟨chain, found, equal⟩ := set_of_wf wf key value
  rw [equal, setIn]
  split
  next chain' assigned =>
    have keys := keys_set_assign found assigned
    refine ⟨⟨?_, ?_, ?_, ?_⟩, mem_set_assign found assigned wf.placed wf.unique⟩
    · rw [size, length_set]
      exact wf.positive
    · rw [size, length_set]
      exact placed_set_assign found assigned wf.placed
    · rw [entries, keys]
      exact wf.unique
    · have length := congrArg List.length keys
      rw [length_map, length_map] at length
      exact wf.counted.trans length.symm
  next unassigned =>
    -- The key is in no chain, because it is not in its own.
    have absent : key ∉ map.entries.map Prod.fst := by
      rintro member
      obtain ⟨e, inside, rfl⟩ := mem_map.mp member
      obtain ⟨chain', found', there⟩ := wf.placed.mem_iff.mp inside
      obtain rfl := Option.some.inj (found.symm.trans found')
      exact assign_eq_none_iff.mp unassigned (mem_map_of_mem there)
    obtain ⟨wf', perm⟩ : Wf hash (if map.count + 1 > map.size - map.size / 4 then map.grow hash room else map) ∧
        (if map.count + 1 > map.size - map.size / 4 then map.grow hash room else map).entries.Perm map.entries := by
      split
      · exact wf.grow
      · exact ⟨wf, .refl _⟩
    obtain ⟨wf'', perm'⟩ := wf'.addNode value fun member => absent ((perm.map Prod.fst).mem_iff.mp member)
    refine ⟨wf'', fun e => ?_⟩
    rw [perm'.mem_iff, mem_cons, perm.mem_iff]
    split
    next same =>
      have outside : e ∉ map.entries := fun member => absent (same ▸ mem_map_of_mem member)
      simp [outside, Prod.ext_iff, same]
    next other =>
      have differs : e ≠ (key, value) := fun eq => other (by rw [eq])
      simp [differs]

end QueryMap

abbrev Contents := CStr → Option CStr

namespace Contents

def empty : Contents := fun _ => none

def set (f : Contents) (key value : CStr) : Contents := Function.update f key (some value)

def add (f : Contents) (pair : CStr × CStr) : Contents := if (f pair.1).isNone then f.set pair.1 pair.2 else f

lemma foldl_add (f : Contents) (pairs : List (CStr × CStr)) (key : CStr) :
    pairs.foldl add f key = (f key <|> pairs.lookup key) := by
  induction pairs generalizing f with
  | nil => simp
  | cons pair pairs ih =>
    rw [foldl_cons, ih, lookup_cons, add]
    by_cases same : key = pair.1
    · subst same
      cases there : f pair.1 <;> simp [set, there]
    · have other : (key == pair.1) = false := by simpa using same
      rw [other]
      split <;> simp [set, Function.update_of_ne same]

end Contents

def keptPairs (raw : Bytes) : List (CStr × CStr) :=
  ((raw.splitOn 0x26).filterMap splitPair).map fun pair => (.ofBytes (urlDecode pair.1), .ofBytes (urlDecode pair.2))

inductive QueryOp where
  | set (key value : CStr)
  | get (key : CStr)
  | clear
  | parse (rawQuery : CStr)

def Contents.step (f : Contents) : QueryOp → Contents
  | .set key value => f.set key value
  | .get _ => f
  | .clear => .empty
  | .parse rawQuery => (keptPairs rawQuery.bytes).foldl .add f

namespace QueryMap

variable {f : Contents}

def step (hash : CStr → UInt64) (room : Nat → Bool) (map : QueryMap) : QueryOp → QueryMap
  | .set key value => map.set hash room key value
  | .get _ => map
  | .clear => map.clear
  | .parse rawQuery => map.parse hash room rawQuery

structure Represents (hash : CStr → UInt64) (map : QueryMap) (f : Contents) : Prop where
  wf : Wf hash map
  same : ∀ key, map.get hash key = f key

lemma Represents.create (hash : CStr → UInt64) : Represents hash .create .empty where
  wf := .create hash
  same key := (Wf.create hash).get_of_entries rfl key

lemma Represents.clear (represents : Represents hash map f) : Represents hash map.clear .empty where
  wf := represents.wf.clear
  same key := represents.wf.clear.get_of_entries (entries_clear map) key

lemma Represents.set (room : Nat → Bool) (represents : Represents hash map f) (key value : CStr) :
    Represents hash (map.set hash room key value) (f.set key value) := by
  obtain ⟨wf, member⟩ := represents.wf.set room key value
  refine ⟨wf, fun key' => Option.ext fun value' => ?_⟩
  rw [wf.get_iff, member, Contents.set]
  by_cases same : key' = key
  · subst same
    simp [eq_comm]
  · rw [if_neg same, Function.update_of_ne same, ← represents.same, represents.wf.get_iff]

lemma Represents.setAll (room : Nat → Bool) (represents : Represents hash map f) (pairs : List (CStr × CStr)) :
    Represents hash (pairs.foldl (fun map pair => map.set hash room pair.1 pair.2) map)
      (pairs.foldl (fun f pair => f.set pair.1 pair.2) f) := by
  induction pairs generalizing map f with
  | nil => exact represents
  | cons pair pairs ih => exact ih (represents.set room pair.1 pair.2)

lemma Represents.parseToken (room : Nat → Bool) (represents : Represents hash map f) (token : Bytes) :
    Represents hash (map.parseToken hash room token)
      (((splitPair token).map fun pair => (ofBytes (urlDecode pair.1), ofBytes (urlDecode pair.2))).toList.foldl
        .add f) := by
  unfold QueryMap.parseToken
  cases splitPair token with
  | none => exact represents
  | some pair =>
    dsimp only [Option.map_some, Option.toList_some, foldl_cons, foldl_nil, Contents.add]
    rw [represents.same]
    split
    · exact represents.set room _ _
    · exact represents

lemma parseLoop_eq (map : QueryMap) (seg : Bytes) :
    map.parseLoop hash room seg = (seg.splitOn 0x26).foldl (parseToken hash room) map := by
  fun_induction parseLoop hash room map seg with
  | case1 map => rfl
  | case2 map seg _ rest =>
    have plain : ∀ c ∈ seg, (c == 0x26) = false := by
      intro c member
      simpa using dropWhile_eq_nil_iff.mp rest c member
    rw [List.splitOn, splitOnP_eq_singleton plain]
    rfl
  | case3 map seg _ c rest found ih =>
    have plain : ∀ c ∈ seg.takeWhile (· != 0x26), (c == 0x26) = false := by
      intro c member
      simpa using mem_takeWhile_imp member
    have sep : (c == 0x26) = true := by
      have first := head?_dropWhile_not (· != 0x26) seg
      rw [found] at first
      simpa using first
    have split : seg = seg.takeWhile (· != 0x26) ++ c :: rest := by rw [← found, takeWhile_append_dropWhile]
    rw [ih]
    nth_rewrite 2 [split]
    rw [List.splitOn, List.splitOn, splitOnP_append_cons_of_forall_mem plain _ sep, foldl_cons]

lemma Represents.tokens (room : Nat → Bool) (represents : Represents hash map f) (tokens : List Bytes) :
    Represents hash (tokens.foldl (QueryMap.parseToken hash room) map) (((tokens.filterMap splitPair).map fun pair =>
        (ofBytes (urlDecode pair.1), ofBytes (urlDecode pair.2))).foldl .add f) := by
  induction tokens generalizing map f with
  | nil => exact represents
  | cons token tokens ih =>
    have first := represents.parseToken room token
    cases pair : splitPair token with rw [pair] at first
    | none =>
      rw [filterMap_cons_none pair]
      exact ih first
    | some pair' =>
      rw [filterMap_cons_some pair]
      exact ih first

lemma Represents.step (room : Nat → Bool) (represents : Represents hash map f) (op : QueryOp) :
    Represents hash (map.step hash room op) (f.step op) := by
  cases op with
  | set key value => exact represents.set room key value
  | get key => exact represents
  | clear => exact represents.clear
  | parse rawQuery =>
    rw [QueryMap.step, QueryMap.parse, parseLoop_eq]
    exact represents.tokens room _

lemma Represents.run (room : Nat → Bool) (represents : Represents hash map f) (ops : List QueryOp) :
    Represents hash (ops.foldl (QueryMap.step hash room) map) (ops.foldl .step f) := by
  induction ops generalizing map f with
  | nil => exact represents
  | cons op ops ih => exact ih (represents.step room op)

end QueryMap

def decodedPairs (raw : Bytes) : List (Bytes × Bytes) :=
  ((raw.splitOn 0x26).filterMap splitPair).map fun pair => (urlDecode pair.1, urlDecode pair.2)

/-- A new map gives the decoded value of the first occurrence of each key, and counts the keys. -/
def ParsesAs (hash : CStr → UInt64) (room : Nat → Bool) (rawQuery : CStr) : Prop :=
  (∀ key : CStr, ((create.parse hash room rawQuery).get hash key).map CStr.bytes =
    (decodedPairs rawQuery.bytes).lookup key.bytes) ∧
  (create.parse hash room rawQuery).count = ((decodedPairs rawQuery.bytes).map Prod.fst).dedup.length

/-- No decoded key has a NUL, and no decoded value that is the first for its key. -/
def NulFree (pairs : List (Bytes × Bytes)) : Prop :=
  (∀ pair ∈ pairs, (0 : UInt8) ∉ pair.1) ∧ ∀ key value, pairs.lookup key = some value → (0 : UInt8) ∉ value

lemma keptPairs_eq (raw : Bytes) :
    keptPairs raw = (decodedPairs raw).map fun pair => (ofBytes pair.1, ofBytes pair.2) := by
  rw [decodedPairs, map_map]
  rfl

lemma lookup_isSome_iff_mem {α β : Type} [BEq α] [LawfulBEq α] {pairs : List (α × β)} {key : α} :
    (pairs.lookup key).isSome ↔ key ∈ pairs.map Prod.fst := by
  rw [lookup_isSome_iff, mem_map]
  refine exists_congr fun pair => and_congr_right fun _ => ?_
  rw [beq_iff_eq]
  exact eq_comm

section Parse
variable {rawQuery : CStr}

lemma parse_represents (hash : CStr → UInt64) (room : Nat → Bool) (rawQuery : CStr) :
    QueryMap.Represents hash (create.parse hash room rawQuery) fun key => (keptPairs rawQuery.bytes).lookup key := by
  have parsed := (QueryMap.Represents.create hash).step room (.parse rawQuery)
  refine ⟨parsed.wf, fun key => (parsed.same key).trans ?_⟩
  rw [Contents.step, Contents.foldl_add]
  rfl

lemma parse_count (hash : CStr → UInt64) (room : Nat → Bool) (rawQuery : CStr) :
    (create.parse hash room rawQuery).count = ((keptPairs rawQuery.bytes).map Prod.fst).dedup.length := by
  have parsed := parse_represents hash room rawQuery
  have keys : ((create.parse hash room rawQuery).entries.map Prod.fst).Perm
      ((keptPairs rawQuery.bytes).map Prod.fst).dedup := by
    rw [perm_ext_iff_of_nodup parsed.wf.unique (nodup_dedup _)]
    intro key
    rw [← parsed.wf.get_isSome_iff, parsed.same, mem_dedup, lookup_isSome_iff_mem]
  rw [parsed.wf.counted, ← keys.length_eq, length_map]

lemma lookup_kept {pairs : List (Bytes × Bytes)} (keys : ∀ pair ∈ pairs, (0 : UInt8) ∉ pair.1) (key : CStr) :
    (pairs.map fun pair => (ofBytes pair.1, ofBytes pair.2)).lookup key = (pairs.lookup key.bytes).map ofBytes := by
  induction pairs with
  | nil => rfl
  | cons pair pairs ih =>
    obtain ⟨first, others⟩ := forall_mem_cons.mp keys
    have same : (key == ofBytes pair.1) = (key.bytes == pair.1) := by
      rw [Bool.eq_iff_iff, beq_iff_eq, beq_iff_eq]
      constructor
      · rintro rfl
        exact ofBytes_bytes first
      · intro equal
        rw [← equal, ofBytes_self]
    rw [map_cons, lookup_cons, lookup_cons, ih others, same]
    split <;> rfl

lemma count_kept {keys : List Bytes} :
    (keys.map ofBytes).dedup.length = keys.dedup.length ↔ Set.InjOn ofBytes {key | key ∈ keys} := by
  have image : (keys.map ofBytes).toFinset = keys.toFinset.image ofBytes := by
    ext key
    simp
  have coe : ((keys.toFinset : Finset Bytes) : Set Bytes) = {key | key ∈ keys} := by
    simp
  rw [← card_toFinset, ← card_toFinset, image, Finset.card_image_iff, coe]

lemma nulFree_of_parsesAs (parses : ParsesAs hash room rawQuery) : NulFree (decodedPairs rawQuery.bytes) := by
  obtain ⟨finds, counts⟩ := parses
  rw [parse_count, keptPairs_eq, map_map] at counts
  have injective : Set.InjOn ofBytes {key | key ∈ (decodedPairs rawQuery.bytes).map Prod.fst} := by
    rw [← count_kept, map_map]
    exact counts
  have keys : ∀ pair ∈ decodedPairs rawQuery.bytes, (0 : UInt8) ∉ pair.1 := by
    intro pair member
    -- The map finds the key as a string, so that string is one of the keys, and no other key is cut to it.
    have kept : ((keptPairs rawQuery.bytes).lookup (.ofBytes pair.1)).isSome := by
      rw [lookup_isSome_iff_mem, keptPairs_eq, map_map]
      exact mem_map.mpr ⟨pair, member, rfl⟩
    have found : ((decodedPairs rawQuery.bytes).lookup (ofBytes pair.1).bytes).isSome := by
      rw [← finds, (parse_represents hash room rawQuery).same, Option.isSome_map]
      exact kept
    have same := injective (lookup_isSome_iff_mem.mp found) (mem_map_of_mem member) (ofBytes_self _)
    rw [← same]
    exact (ofBytes pair.1).nul
  refine ⟨keys, fun key value found => ?_⟩
  have inside : key ∈ (decodedPairs rawQuery.bytes).map Prod.fst := by
    rw [← lookup_isSome_iff_mem, found]
    rfl
  obtain ⟨pair, member, rfl⟩ := mem_map.mp inside
  have kept := finds (.ofBytes pair.1)
  rw [ofBytes_bytes (keys pair member), found, Option.map_eq_some_iff] at kept
  obtain ⟨string, -, rfl⟩ := kept
  exact string.nul

lemma parsesAs_of_nulFree (nul : NulFree (decodedPairs rawQuery.bytes)) : ParsesAs hash room rawQuery := by
  obtain ⟨keys, values⟩ := nul
  refine ⟨fun key => ?_, ?_⟩
  · rw [(parse_represents hash room rawQuery).same, keptPairs_eq, lookup_kept keys]
    cases found : (decodedPairs rawQuery.bytes).lookup key.bytes with
    | none => rfl
    | some value => exact congrArg some (ofBytes_bytes (values _ _ found))
  · have injective : Set.InjOn ofBytes {key | key ∈ (decodedPairs rawQuery.bytes).map Prod.fst} := by
      intro key member key' member' equal
      obtain ⟨pair, inside, rfl⟩ := mem_map.mp member
      obtain ⟨pair', inside', rfl⟩ := mem_map.mp member'
      rw [← ofBytes_bytes (keys pair inside), equal, ofBytes_bytes (keys pair' inside')]
    rw [parse_count, keptPairs_eq, map_map, ← count_kept.mpr injective, map_map]
    rfl

end Parse

/-- After every sequence of operations a query map is the finite map that the operations define, with unique keys that are
counted and in the buckets of their hashes; and a query string is parsed as it reads exactly when no key and no first value
in it has a NUL. -/
theorem queryMap_iff (hash : CStr → UInt64) (room : Nat → Bool) (ops : List QueryOp) (rawQuery : CStr) :
    (((∀ key, (ops.foldl (step hash room) .create).get hash key = ops.foldl Contents.step .empty key) ∧
        QueryMap.Wf hash (ops.foldl (step hash room) .create)) ∧ ParsesAs hash room rawQuery) ↔
      NulFree (decodedPairs rawQuery.bytes) := by
  have represents := (QueryMap.Represents.create hash).run room ops
  exact ⟨fun both => nulFree_of_parsesAs both.2, fun nul =>
    ⟨⟨represents.same, represents.wf⟩, parsesAs_of_nulFree nul⟩⟩

/-- The value of `a=x%00y` has three octets, and the map gives one of them. -/
theorem value_cut_at_nul : ((create.parse (fun _ => 0) (fun _ => true) (.ofBytes (ascii "a=x%00y"))).get (fun _ => 0)
      (.ofBytes (ascii "a"))).map CStr.bytes = some [0x78] ∧
    (decodedPairs (ascii "a=x%00y")).lookup (ascii "a") = some [0x78, 0x00, 0x79] := by
  decide +kernel

end Cwist.Http
