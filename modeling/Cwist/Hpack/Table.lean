import Cwist.Basic
import Cwist.Lib.Fifo

namespace Cwist
open List Fifo

namespace Rfc7541

abbrev Field := Bytes × Bytes

def fieldSize (f : Field) : Nat := f.1.length + f.2.length + 32

@[ext] structure Table where
  entries : List Field
  maxSize : Nat
  deriving DecidableEq

def Table.resize (t : Table) (maxSize : Nat) : Table := ⟨keep fieldSize maxSize t.entries, maxSize⟩

def Table.insert (t : Table) (f : Field) : Table where
  entries := if fieldSize f ≤ t.maxSize then f :: keep fieldSize (t.maxSize - fieldSize f) t.entries else []
  maxSize := t.maxSize

end Rfc7541

namespace H2

def headerTableSize : Nat := 4096

structure HpackEntry where
  name : CStr
  value : CStr
  size : Nat
  sized : size = name.length + value.length + 32
  deriving DecidableEq

@[ext] structure HpackTable where
  head : List HpackEntry
  size : Nat
  capacity : Nat
  deriving DecidableEq

def staticEntries : List (CStr × CStr) := ([
  (":authority", ""), (":method", "GET"), (":method", "POST"), (":path", "/"), (":path", "/index.html"),
  (":scheme", "http"), (":scheme", "https"), (":status", "200"), (":status", "204"), (":status", "206"),
  (":status", "304"), (":status", "400"), (":status", "404"), (":status", "500"), ("accept-charset", ""),
  ("accept-encoding", "gzip, deflate"), ("accept-language", ""), ("accept-ranges", ""), ("accept", ""),
  ("access-control-allow-origin", ""), ("age", ""), ("allow", ""), ("authorization", ""),
  ("cache-control", ""), ("content-disposition", ""), ("content-encoding", ""), ("content-language", ""),
  ("content-length", ""), ("content-location", ""), ("content-range", ""), ("content-type", ""),
  ("cookie", ""), ("date", ""), ("etag", ""), ("expect", ""), ("expires", ""), ("from", ""), ("host", ""),
  ("if-match", ""), ("if-modified-since", ""), ("if-none-match", ""), ("if-range", ""),
  ("if-unmodified-since", ""), ("last-modified", ""), ("link", ""), ("location", ""), ("max-forwards", ""),
  ("proxy-authenticate", ""), ("proxy-authorization", ""), ("range", ""), ("referer", ""), ("refresh", ""),
  ("retry-after", ""), ("server", ""), ("set-cookie", ""), ("strict-transport-security", ""),
  ("transfer-encoding", ""), ("user-agent", ""), ("vary", ""), ("via", ""), ("www-authenticate", "")] : List (String × String)).map fun (name, value) => (.ofBytes (ascii name), .ofBytes (ascii value))

def staticTable : List (Option (CStr × CStr)) := none :: staticEntries.map some

def staticHeader (index : Nat) : Option (CStr × CStr) :=
  if index = 0 ∨ staticTable.length ≤ index then none else staticTable[index]?.join

namespace HpackTable

def init : HpackTable := ⟨[], 0, headerTableSize⟩

def evictLoop (limit : Nat) : Nat → HpackTable → HpackTable
  | 0, t => t
  | turns + 1, t =>
    if limit < t.size then
      match t.head.getLast? with
      | none => t
      | some old =>
        evictLoop limit turns
          { t with head := t.head.dropLast, size := (t.size + (2 ^ 32 - old.size % 2 ^ 32)) % 2 ^ 32 }
    else t

def evictTo (t : HpackTable) (limit : Nat) : HpackTable := evictLoop limit t.head.length t

def insert (t : HpackTable) (name value : CStr) : HpackTable :=
  let entrySize := name.length + value.length + 32
  if t.capacity < entrySize then t.evictTo 0
  else
    let t := t.evictTo (t.capacity - entrySize)
    { t with head := ⟨name, value, entrySize, rfl⟩ :: t.head, size := (t.size + entrySize) % 2 ^ 32 }

def setCapacity (t : HpackTable) (newSize : Nat) : Option HpackTable :=
  if headerTableSize < newSize then none else some ({ t with capacity := newSize }.evictTo newSize)

def walk : List HpackEntry → Nat → Option HpackEntry
  | [], _ => none
  | e :: rest, pos => if pos - 1 = 0 then some e else walk rest (pos - 1)

def dynamicGet (t : HpackTable) (index : Nat) : Option HpackEntry :=
  if index < staticTable.length then none else walk t.head (index - staticTable.length + 1)

/-- The size accounting: `hpack_size` is the sum of the entries' sizes and within the capacity. -/
structure Valid (t : HpackTable) : Prop where
  size_eq : t.size = total HpackEntry.size t.head
  size_le : t.size ≤ t.capacity
  capacity_le : t.capacity ≤ headerTableSize

lemma valid_init : init.Valid := ⟨rfl, Nat.zero_le _, Nat.le_refl _⟩

def toRfc (t : HpackTable) : Rfc7541.Table := ⟨t.head.map fun e => (e.name.bytes, e.value.bytes), t.capacity⟩

variable {t t' : HpackTable}

lemma evictLoop_eq {limit turns : Nat} (sized : t.size = total HpackEntry.size t.head)
    (small : t.size < 2 ^ 32) (enough : t.head.length ≤ turns) : evictLoop limit turns t =
      ⟨keep HpackEntry.size limit t.head, total HpackEntry.size (keep HpackEntry.size limit t.head), t.capacity⟩ := by
  induction turns generalizing t with
  | zero =>
    have empty : t.head = [] := length_eq_zero_iff.mp (by omega)
    rw [evictLoop]
    ext1
    · simp [empty, keep]
    · simp [sized, empty, keep]
    · rfl
  | succ turns ih =>
    rw [evictLoop]
    split
    next heavy =>
      rcases eq_nil_or_concat t.head with empty | ⟨rest, old, split⟩
      · rw [empty] at sized
        simp [sized] at heavy
      simp only [split, concat_eq_append, getLast?_append, getLast?_singleton, Option.some_or,
        dropLast_concat]
      rw [split, concat_eq_append] at sized
      have heavy' := heavy
      rw [sized] at heavy'
      rw [total_snoc] at sized
      have left : (t.size + (2 ^ 32 - old.size % 2 ^ 32)) % 2 ^ 32 = total HpackEntry.size rest := by
        omega
      rw [ih left (by simp only [left]; omega) (by simp [split] at enough ⊢; omega), keep_snoc _ heavy']
    · have fits : total HpackEntry.size t.head ≤ limit := by omega
      ext1
      · rw [keep_of_fits _ fits]
      · rw [keep_of_fits _ fits, sized]
      · rfl

lemma evictTo_eq (valid : t.Valid) (limit : Nat) : t.evictTo limit =
      ⟨keep HpackEntry.size limit t.head, total HpackEntry.size (keep HpackEntry.size limit t.head), t.capacity⟩ := by
  have := valid.size_le
  have := valid.capacity_le
  exact evictLoop_eq valid.size_eq (by unfold headerTableSize at *; omega) (le_rfl)

lemma keep_toRfc (limit : Nat) (head : List HpackEntry) :
    (keep HpackEntry.size limit head).map (fun e => (e.name.bytes, e.value.bytes)) =
      keep Rfc7541.fieldSize limit (head.map fun e => (e.name.bytes, e.value.bytes)) := by
  have sizes : (fun e : HpackEntry => Rfc7541.fieldSize (e.name.bytes, e.value.bytes)) = HpackEntry.size := by
    funext e
    exact e.sized.symm
  rw [keep_map, sizes]

lemma insert_spec (valid : t.Valid) (name value : CStr) :
    (t.insert name value).Valid ∧ (t.insert name value).toRfc = t.toRfc.insert (name.bytes, value.bytes) := by
  have capacity := valid.capacity_le
  unfold headerTableSize at capacity
  rw [insert]
  split
  next large =>
    have none_ : keep HpackEntry.size 0 t.head = [] := by
      cases h : t.head with
      | nil => rfl
      | cons e rest => rw [keep, if_neg (by rw [e.sized]; omega)]
    rw [evictTo_eq valid, none_]
    refine ⟨⟨rfl, Nat.zero_le _, valid.capacity_le⟩, ?_⟩
    have large' : ¬Rfc7541.fieldSize (name.bytes, value.bytes) ≤ t.toRfc.maxSize := Nat.not_le_of_lt large
    rw [Rfc7541.Table.insert, if_neg large']
    rfl
  next fits =>
    have kept := total_keep_le HpackEntry.size (t.capacity - (name.length + value.length + 32)) t.head
    rw [evictTo_eq valid]
    refine ⟨⟨?_, ?_, valid.capacity_le⟩, ?_⟩
    · simp only [total_cons]
      omega
    · dsimp only
      omega
    have fits' : Rfc7541.fieldSize (name.bytes, value.bytes) ≤ t.toRfc.maxSize := Nat.le_of_not_lt fits
    rw [Rfc7541.Table.insert, if_pos fits']
    simp only [toRfc, map_cons, keep_toRfc]
    rfl

lemma setCapacity_spec {newSize : Nat} (valid : t.Valid)
    (changed : t.setCapacity newSize = some t') : t'.Valid ∧ t'.toRfc = t.toRfc.resize newSize := by
  rw [setCapacity] at changed
  split at changed
  · cases changed
  rename_i allowed
  obtain rfl := Option.some.inj changed
  have small : t.size < 2 ^ 32 := by
    have := valid.size_le
    have := valid.capacity_le
    unfold headerTableSize at *
    omega
  have resized : ({ t with capacity := newSize } : HpackTable).size = total HpackEntry.size t.head := valid.size_eq
  rw [evictTo, evictLoop_eq resized small (le_rfl)]
  refine ⟨⟨rfl, total_keep_le _ _ _, Nat.le_of_not_lt allowed⟩, ?_⟩
  simp only [toRfc, Rfc7541.Table.resize, keep_toRfc]

def resolve (t : HpackTable) (index : Nat) : Option (CStr × CStr) :=
  match staticHeader index with
  | some entry => some entry
  | none => (t.dynamicGet index).map fun e => (e.name, e.value)

lemma walk_eq (head : List HpackEntry) (pos : Nat) : walk head (pos + 1) = head[pos]? := by
  induction head generalizing pos with
  | nil => rfl
  | cons e rest ih =>
    cases pos with
    | zero => rfl
    | succ pos => simpa [walk] using ih pos

end HpackTable

end H2

def Rfc7541.Table.lookup (t : Table) (index : Nat) : Option Field :=
  if index = 0 then none
  else (H2.staticEntries.map (fun (name, value) => (name.bytes, value.bytes)) ++ t.entries)[index - 1]?

lemma H2.HpackTable.resolve_toRfc (t : HpackTable) (index : Nat) :
    t.toRfc.lookup index = (t.resolve index).map fun (name, value) => (name.bytes, value.bytes) := by
  have count : staticTable.length = 62 := rfl
  have named : staticEntries.length = 61 := rfl
  rw [resolve, staticHeader, dynamicGet, count, Rfc7541.Table.lookup]
  rcases Nat.eq_zero_or_pos index with rfl | positive
  · rfl
  obtain ⟨i, rfl⟩ : ∃ i, index = i + 1 := ⟨index - 1, by omega⟩
  rw [if_neg (by omega)]
  by_cases static : i + 1 < 62
  · rw [if_neg (by omega), getElem?_append_left (by simp [named]; omega)]
    have bound : i < staticEntries.length := by omega
    simp [staticTable, getElem?_eq_getElem bound]
  · rw [if_pos (by omega), if_neg static, getElem?_append_right (by simp [named]; omega),
      walk_eq]
    simp [toRfc, named, Function.comp_def]

end Cwist
