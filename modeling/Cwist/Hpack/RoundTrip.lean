import Cwist.Hpack.Parts
import Cwist.Hpack.Rfc7541

namespace Cwist.Rfc7541
open List

def Advances (block : Bytes) (s s' : Nat × List Field × Table) : Prop :=
  ∃ rep emitted, readRep block s.1 = some (rep, s'.1) ∧ s.2.2.step rep = some (emitted, s'.2.2) ∧ s'.2.1 = s.2.1 ++ emitted

variable {block : Bytes} {t t₁ t₂ : Table} {pos pos' : Nat} {fields fields' : List Field}

lemma advances_unique {s s₁ s₂ : Nat × List Field × Table} (first : Advances block s s₁) (second : Advances block s s₂) :
    s₁ = s₂ := by
  obtain ⟨rep, emitted, read, stepped, added⟩ := first
  obtain ⟨rep', emitted', read', stepped', added'⟩ := second
  obtain ⟨rfl, next⟩ := Prod.mk.inj (Option.some.inj (read.symm.trans read'))
  obtain ⟨rfl, table⟩ := Prod.mk.inj (Option.some.inj (stepped.symm.trans stepped'))
  exact Prod.ext next (Prod.ext (added.trans added'.symm) table)

lemma Reads.advances (reads : Reads block t pos fields t₁) :
    Relation.ReflTransGen (Advances block) (0, [], t) (pos, fields, t₁) := by
  induction reads with
  | start => exact .refl
  | next _ read stepped ih => exact ih.tail ⟨_, _, read, stepped, rfl⟩

lemma not_advances_of_end {s s' : Nat × List Field × Table} (done : block.length ≤ s.1) : ¬Advances block s s' := by
  rintro ⟨rep, emitted, read, -⟩
  have absent := getElem?_eq_none done
  simp [readRep, absent] at read

lemma Decodes.unique (first : Decodes block t fields t₁) (second : Decodes block t fields' t₂) : fields = fields' := by
  obtain ⟨pos, reads, done⟩ := first
  obtain ⟨pos', reads', done'⟩ := second
  have stops {s s' : Nat × List Field × Table} (path : Relation.ReflTransGen (Advances block) s s')
      (atEnd : block.length ≤ s.1) : s = s' := by
    rcases path.cases_head with same | ⟨next, step, -⟩
    · exact same
    · exact absurd step (not_advances_of_end atEnd)
  have unique : Relator.RightUnique (Advances block) := fun _ _ _ => advances_unique
  rcases Relation.ReflTransGen.total_of_right_unique unique reads.advances reads'.advances with path | path
  · exact congrArg (·.2.1) (stops path done)
  · exact (congrArg (·.2.1) (stops path done')).symm

/-- These octets stand for this field, wherever they are and whatever the table holds. -/
def Spells (octets : Bytes) (field : Field) : Prop :=
  ∀ (before after : Bytes) (t : Table), ∃ rep,
    readRep (before ++ (octets ++ after)) before.length = some (rep, before.length + octets.length) ∧
      t.step rep = some ([field], t)

lemma reads_spelled (spelled : List (Bytes × Field)) (spells : ∀ p ∈ spelled, Spells p.1 p.2) (after : Bytes) (t : Table) :
    Reads ((spelled.flatMap Prod.fst) ++ after) t (spelled.flatMap Prod.fst).length (spelled.map Prod.snd) t := by
  induction spelled using reverseRecOn generalizing after with
  | nil => exact .start
  | append_singleton rest last ih =>
    have reads := ih (fun p member => spells p (by simp [member])) (last.1 ++ after)
    obtain ⟨rep, read, step⟩ := spells last (by simp) (rest.flatMap Prod.fst) after t
    have split : (rest ++ [last]).flatMap Prod.fst ++ after = rest.flatMap Prod.fst ++ (last.1 ++ after) := by simp
    have len : ((rest ++ [last]).flatMap Prod.fst).length = (rest.flatMap Prod.fst).length + last.1.length := by simp
    rw [split, len, map_append]
    exact reads.next read step

lemma decodes_spelled (spelled : List (Bytes × Field)) (spells : ∀ p ∈ spelled, Spells p.1 p.2) (t : Table) :
    Decodes (spelled.flatMap Prod.fst) t (spelled.map Prod.snd) t := by
  have reads := reads_spelled spelled spells [] t
  rw [append_nil] at reads
  exact ⟨_, reads, le_rfl⟩

end Cwist.Rfc7541

namespace Cwist.H2
open List

open Http (Response decimal toLower caseEq)
open Rfc7541 (Rep NameRef readRep readLiteral readName Spells Decodes Field)

variable {name value : Bytes} {str : Bytes} {b : UInt8}

lemma integerOctets_decode (before after : Bytes) {v k : Nat} (positive : 1 ≤ k) (width : k ≤ 8) (fits : v < 2 ^ 32) :
    decodeInteger (before ++ (integerOctets v k ++ after)) before.length k =
      some (v, before.length + (integerOctets v k).length) := by
  have read := decodeInteger_encodeInteger before after 0 6 v k positive width fits (le_refl 6)
  rw [(encodeInteger_value 0 6 v k after width fits (le_refl 6)).2.1] at read
  exact read

lemma integerOctets_head (v k : Nat) :
    ∃ b rest, integerOctets v k = b :: rest ∧ b.toNat < 2 ^ k := by
  have positive := Nat.two_pow_pos k
  have octet (x : Nat) (small : x < 2 ^ k) : ((0 : UInt8) &&& ~~~(UInt8.ofNat (2 ^ k - 1)) ||| UInt8.ofNat x).toNat < 2 ^ k := by
    rw [UInt8.zero_and, UInt8.zero_or, UInt8.toNat_ofNat']
    omega
  unfold integerOctets encodeInteger
  by_cases short : v < 2 ^ k - 1
  · simp only [short, if_true]
    exact ⟨_, [], rfl, octet v (by omega)⟩
  · simp only [short, if_false]
    exact ⟨_, _, rfl, octet (2 ^ k - 1) (by omega)⟩

lemma getElem?_here (before octets after : Bytes) {rest : Bytes} (head : octets = b :: rest) :
    (before ++ (octets ++ after))[before.length]? = some b := by
  simp [head]

lemma stringOctets_decode (before after : Bytes) (fits : str.length < 2 ^ 32) :
    decodeStringCounted (before ++ (stringOctets str ++ after)) before.length =
      some (str, before.length + (stringOctets str).length) := by
  obtain ⟨b, rest, head, low⟩ := integerOctets_head str.length 7
  have split : stringOctets str ++ after = integerOctets str.length 7 ++ (str ++ after) := by
    rw [stringOctets, Nat.mod_eq_of_lt fits, append_assoc]
  have len : (stringOctets str).length = (integerOctets str.length 7).length + str.length := by
    rw [stringOctets, Nat.mod_eq_of_lt fits, length_append]
  have plain := not_not.mpr ((and_128_eq_zero_iff b).mpr low)
  have text : ((before ++ (integerOctets str.length 7 ++ (str ++ after))).drop
      (before.length + (integerOctets str.length 7).length)).take str.length = str := by
    rw [← append_assoc, ← length_append, drop_left, take_left]
  rw [split, len, decodeStringCounted, getElem?_here before _ _ head, integerOctets_decode before (str ++ after) (by decide) (by decide) fits]
  simp only [Option.bind_eq_bind, Option.bind_some]
  rw [if_neg, if_neg plain, text, add_assoc]
  simp only [length_append]
  omega

lemma staticEntries_lower : ∀ e ∈ staticEntries, e.1.bytes.map toLower = e.1.bytes := by decide +kernel

lemma staticTableFindName_lookup (lower : name.map toLower = name) (found : staticTableFindName name ≠ 0)
    (t : Rfc7541.Table) : (t.lookup (staticTableFindName name)).map Prod.fst = some name := by
  unfold staticTableFindName at found ⊢
  split at found
  next i known =>
    obtain ⟨inside, same, -⟩ := findIdx?_eq_some_iff_getElem.mp known
    have entry : staticEntries[i].1.bytes = name := by
      have folded : staticEntries[i].1.bytes.map toLower = name.map toLower := by simpa [caseEq] using same
      rw [staticEntries_lower _ (getElem_mem inside), lower] at folded
      exact folded
    simp [Rfc7541.Table.lookup, getElem?_append_left, inside, entry]
  · exact absurd rfl found

lemma readRep_literal {block : Bytes} {pos : Nat} (here : block[pos]? = some b) (low : b.toNat < 2 ^ 4) :
    readRep block pos = readLiteral block pos 4 false := by
  simp [readRep, here, show ¬128 ≤ b.toNat by omega, show ¬64 ≤ b.toNat by omega, show ¬32 ≤ b.toNat by omega]

lemma readLiteral_eq {block : Bytes} {pos i afterIndex afterName next : Nat} {name : NameRef}
    (integer : decodeInteger block pos 4 = some (i, afterIndex)) (named : readName block i afterIndex = some (name, afterName))
    (valued : decodeStringCounted block afterName = some (value, next)) :
    readLiteral block pos 4 false = some (.literal false name value, next) := by
  simp [readLiteral, integer, named, valued]

lemma literalText_spells (nameFits : name.length < 2 ^ 32) (valueFits : value.length < 2 ^ 32) :
    Spells (integerOctets 0 4 ++ (stringOctets name ++ stringOctets value)) (name, value) := by
  intro before after t
  obtain ⟨b, rest, head, low⟩ := integerOctets_head 0 4
  have integer := integerOctets_decode before (stringOctets name ++ (stringOctets value ++ after)) (k := 4)
    (by decide) (by decide) (show 0 < 2 ^ 32 by decide)
  generalize integerOctets 0 4 = index at head integer ⊢
  have named := stringOctets_decode (before ++ index) (stringOctets value ++ after) nameFits
  have valued := stringOctets_decode (before ++ index ++ stringOctets name) after valueFits
  refine ⟨.literal false (.text name) value, ?_, rfl⟩
  simp only [append_assoc, length_append, ← add_assoc] at integer named valued ⊢
  rw [readRep_literal (getElem?_here before index _ head) low]
  exact readLiteral_eq integer (by rw [readName, named]; rfl) valued

lemma literalIndex_spells (lower : name.map toLower = name) (known : staticTableFindName name ≠ 0)
    (valueFits : value.length < 2 ^ 32) :
    Spells (integerOctets (staticTableFindName name) 4 ++ stringOctets value) (name, value) := by
  intro before after t
  obtain ⟨b, rest, head, low⟩ := integerOctets_head (staticTableFindName name) 4
  have integer := integerOctets_decode before (stringOctets value ++ after) (k := 4) (by decide) (by decide)
    ((staticTableFindName_lt name).trans (show 62 < 2 ^ 32 by decide))
  generalize integerOctets (staticTableFindName name) 4 = index at head integer ⊢
  have valued := stringOctets_decode (before ++ index) after valueFits
  refine ⟨.literal false (.index (staticTableFindName name)) value, ?_, ?_⟩
  · simp only [append_assoc, length_append, ← add_assoc] at integer valued ⊢
    rw [readRep_literal (getElem?_here before index _ head) low]
    exact readLiteral_eq integer (by rw [readName, if_neg known]) valued
  · obtain ⟨field, found, same⟩ := Option.map_eq_some_iff.mp (staticTableFindName_lookup lower known t)
    simp [Rfc7541.Table.step, Rfc7541.Table.name, found, same]

lemma pairParts_spells (lower : name.map toLower = name) (nameFits : name.length < 2 ^ 32)
    (valueFits : value.length < 2 ^ 32) : Spells (blockOctets (pairParts name value)) (name, value) := by
  by_cases new : staticTableFindName name = 0
  · have octets : blockOctets (pairParts name value) = integerOctets 0 4 ++ (stringOctets name ++ stringOctets value) := by
      simp [blockOctets, pairParts, new, Part.wire]
    exact octets ▸ literalText_spells nameFits valueFits
  · have octets : blockOctets (pairParts name value) = integerOctets (staticTableFindName name) 4 ++ stringOctets value := by
      simp [blockOctets, pairParts, new, Part.wire]
    exact octets ▸ literalIndex_spells lower new valueFits

lemma indexed_spells (b : UInt8) (i : Nat) (name value : CStr) (index : b.toNat = 128 + (i + 1)) (small : i + 1 < 127)
    (entry : staticEntries[i]? = some (name, value)) : Spells [b] (name.bytes, value.bytes) := by
  intro before after t
  obtain ⟨inside, here⟩ := List.getElem?_eq_some_iff.mp entry
  refine ⟨.indexed (i + 1), ?_, ?_⟩
  · have read : decodeInteger (before ++ (b :: after)) before.length 7 = some (i + 1, before.length + 1) := by
      have field : b.toNat &&& 127 = i + 1 := by
        rw [and_127]
        omega
      simp [decodeInteger, field, small]
    simp [readRep, read, show 128 ≤ b.toNat by omega]
  · simp [Rfc7541.Table.step, Rfc7541.Table.lookup, getElem?_append_left, inside, here]

lemma statusParts_spells (statusCode : Nat)
    (fits : .text (decimal statusCode) ∈ statusParts statusCode → (decimal statusCode).length < 2 ^ 32) :
    Spells (blockOctets (statusParts statusCode)) (ascii ":status", decimal statusCode) := by
  have status (b : UInt8) (i : Nat) (code : String) :=
    indexed_spells b i (.ofBytes (ascii ":status")) (.ofBytes (ascii code))
  revert fits
  fun_cases statusParts statusCode with
  | case1 => exact fun _ => status 0x88 7 "200" rfl (by decide) rfl
  | case2 => exact fun _ => status 0x89 8 "204" rfl (by decide) rfl
  | case3 => exact fun _ => status 0x8a 9 "206" rfl (by decide) rfl
  | case4 => exact fun _ => status 0x8b 10 "304" rfl (by decide) rfl
  | case5 => exact fun _ => status 0x8c 11 "400" rfl (by decide) rfl
  | case6 => exact fun _ => status 0x8d 12 "404" rfl (by decide) rfl
  | case7 => exact fun _ => status 0x8e 13 "500" rfl (by decide) rfl
  | case8 other =>
    intro fits
    have octets : blockOctets [.index 0, .text (ascii ":status"), .text (decimal statusCode)] =
        integerOctets 0 4 ++ (stringOctets (ascii ":status") ++ stringOctets (decimal statusCode)) := by
      simp [blockOctets, Part.wire]
    exact octets ▸ literalText_spells (by decide) (fits (by simp))

lemma toLower_toLower (c : UInt8) : toLower (toLower c) = toLower c := by
  have all : ∀ i : Fin 256, toLower (toLower (UInt8.ofNat i)) = toLower (UInt8.ofNat i) := by decide +kernel
  simpa using all ⟨c.toNat, c.toNat_lt⟩

lemma lowerName_lower (name : Bytes) : (lowerName name).map toLower = lowerName name := by
  rw [lowerName, map_map]
  exact map_congr_left fun c _ => toLower_toLower c

lemma lowerName_eq_iff (name : Bytes) : lowerName name = name.map toLower ↔ name.length ≤ 255 := by
  constructor
  · intro same
    have len := congrArg length same
    simp only [lowerName, length_map, length_take] at len
    omega
  · intro fits
    rw [lowerName, take_of_length_le fits]

lemma text_length_le {parts : List Part} (member : .text str ∈ parts) : str.length ≤ (blockOctets parts).length := by
  obtain ⟨before, after, rfl⟩ := append_of_mem member
  simp only [blockOctets, flatMap_append, flatMap_cons, Part.wire, stringOctets, length_append]
  omega

lemma value_mem_pairParts (name value : Bytes) : .text value ∈ pairParts name value := by
  unfold pairParts
  split <;> simp

lemma lowerName_length (name : Bytes) : (lowerName name).length < 2 ^ 32 := by
  simp only [lowerName, length_map, length_take]
  omega

variable {cap : Nat} {block : Bytes} {grpcMode : Bool} {res : Response}

lemma encodeHeaderPairs_decodes {pairs : List (CStr × CStr)} (small : cap < 2 ^ 32)
    (accepted : encodeHeaderPairs cap pairs = .ok block) (t : Rfc7541.Table) :
    Decodes block t (pairs.map fun (name, value) => (lowerName name.bytes, value.bytes)) t := by
  rw [encodeHeaderPairs_eq] at accepted
  obtain ⟨rfl, fits⟩ := emitParts_ok_iff.mp accepted
  let spelled := pairs.map fun (name, value) =>
    (blockOctets (pairParts (lowerName name.bytes) value.bytes), (lowerName name.bytes, value.bytes))
  have octets : blockOctets (headerParts pairs) = spelled.flatMap Prod.fst := by
    simp [spelled, blockOctets, headerParts, flatMap_assoc, flatMap_map]
  have decodes := Rfc7541.decodes_spelled spelled ?_ t
  · rw [octets]
    simpa [spelled, Function.comp_def] using decodes
  intro p member
  obtain ⟨⟨name, value⟩, listed, rfl⟩ := mem_map.mp member
  refine pairParts_spells (lowerName_lower _) (lowerName_length _) ?_
  have part : .text value.bytes ∈ headerParts pairs :=
    mem_flatMap.mpr ⟨(name, value), listed, value_mem_pairParts _ _⟩
  exact ((text_length_le part).trans fits).trans_lt small

def responseFields (nameOf : Bytes → Bytes) (res : Response) (grpcMode : Bool) : List Field :=
  (ascii ":status", decimal res.statusCode) ::
    ((if grpcMode || statusForbidsBody res.statusCode then [] else [(ascii "content-length", decimal res.bodyLen)]) ++
      (sentHeaders res grpcMode).map fun (name, value) => (nameOf name.bytes, value))

lemma sentHeaders_value {name : CStr}
    (sent : (name, value) ∈ sentHeaders res grpcMode) : (CStr.ofBytes value).bytes = value := by
  have kept := (mem_filter.mp sent).2
  simp only [skipsHeader, Bool.not_eq_true', Bool.or_eq_false_iff, bne_eq_false_iff_eq] at kept
  exact CStr.ofBytes_bytes ((CStr.ofBytes_length_iff value).mp kept.2)

lemma encodeResponseHeaders_decodes (small : cap < 2 ^ 32)
    (accepted : encodeResponseHeaders res cap grpcMode = .ok block) (t : Rfc7541.Table) :
    Decodes block t (responseFields lowerName res grpcMode) t := by
  rw [encodeResponseHeaders_eq] at accepted
  obtain ⟨rfl, fits⟩ := emitParts_ok_iff.mp accepted
  have short {str : Bytes} (part : .text str ∈ responseParts res grpcMode) : str.length < 2 ^ 32 :=
    ((text_length_le part).trans fits).trans_lt small
  let length : List (Bytes × Field) := if grpcMode || statusForbidsBody res.statusCode then []
    else [(blockOctets (pairParts (ascii "content-length") (decimal res.bodyLen)),
      (ascii "content-length", decimal res.bodyLen))]
  let spelled : List (Bytes × Field) :=
    (blockOctets (statusParts res.statusCode), (ascii ":status", decimal res.statusCode)) ::
      (length ++ (sentHeaders res grpcMode).map fun (name, value) =>
        (blockOctets (pairParts (lowerName name.bytes) (CStr.ofBytes value).bytes), (lowerName name.bytes, value)))
  have octets : blockOctets (responseParts res grpcMode) = spelled.flatMap Prod.fst := by
    simp only [responseParts, spelled, length, blockOctets_append, flatMap_cons, flatMap_append]
    congr 2
    · split <;> simp [blockOctets]
    · simp [blockOctets, flatMap_assoc, flatMap_map]
  have fields : spelled.map Prod.snd = responseFields lowerName res grpcMode := by
    simp only [spelled, length, responseFields, map_cons, map_append]
    congr 2
    · split <;> rfl
    · simp
  rw [octets, ← fields]
  refine Rfc7541.decodes_spelled spelled (fun p member => ?_) t
  rcases mem_cons.mp member with rfl | member
  · exact statusParts_spells res.statusCode fun part => short (mem_append_left _ part)
  rcases mem_append.mp member with member | member
  · simp only [length] at member
    split at member <;> rename_i bodyless
    · cases member
    obtain rfl := mem_singleton.mp member
    have part : .text (decimal res.bodyLen) ∈ responseParts res grpcMode := by
      rw [responseParts, if_neg bodyless]
      exact mem_append_right _ (mem_append_left _ (value_mem_pairParts _ _))
    exact pairParts_spells (by decide) (by decide) (short part)
  · obtain ⟨⟨name, value⟩, listed, rfl⟩ := mem_map.mp member
    have part : .text (CStr.ofBytes value).bytes ∈ responseParts res grpcMode :=
      mem_append_right _ (mem_append_right _
        (mem_flatMap.mpr ⟨(name, value), listed, value_mem_pairParts _ _⟩))
    have bounded := short part
    show Spells (blockOctets (pairParts (lowerName name.bytes) (CStr.ofBytes value).bytes)) (lowerName name.bytes, value)
    rw [sentHeaders_value listed] at bounded ⊢
    exact pairParts_spells (lowerName_lower _) (lowerName_length _) bounded

/-- A block that a buffer of less than 4 GiB takes is read back by an RFC 7541 decoder with any table, and leaves the
table as it is. It is read back as the fields given, with names in lower case, exactly when no name has more than 255
octets. -/
theorem encoder_roundTrip_iff (cap : Nat) (small : cap < 2 ^ 32) (t : Rfc7541.Table) :
    (∀ pairs block, encodeHeaderPairs cap pairs = .ok block →
        (Decodes block t (pairs.map fun (name, value) => (name.bytes.map toLower, value.bytes)) t ↔
          ∀ p ∈ pairs, p.1.length ≤ 255)) ∧ ∀ res grpcMode block, encodeResponseHeaders res cap grpcMode = .ok block →
        (Decodes block t (responseFields (map toLower) res grpcMode) t ↔
          ∀ p ∈ sentHeaders res grpcMode, p.1.length ≤ 255) := by
  constructor
  · intro pairs block accepted
    have decodes := encodeHeaderPairs_decodes small accepted t
    constructor
    · intro whole p member
      have same := map_inj_left.mp (decodes.unique whole) p member
      exact (lowerName_eq_iff _).mp (congrArg Prod.fst same)
    · intro fits
      refine (map_congr_left fun p member => ?_) ▸ decodes
      exact Prod.ext ((lowerName_eq_iff _).mpr (fits p member)) rfl
  · intro res grpcMode block accepted
    have decodes := encodeResponseHeaders_decodes small accepted t
    constructor
    · intro whole p member
      have same := decodes.unique whole
      simp only [responseFields, cons.injEq, true_and, append_cancel_left_eq] at same
      have same := map_inj_left.mp same p member
      exact (lowerName_eq_iff _).mp (congrArg Prod.fst same)
    · intro fits
      have same : responseFields lowerName res grpcMode = responseFields (map toLower) res grpcMode := by
        unfold responseFields
        congr 2
        refine map_congr_left fun p member => ?_
        exact Prod.ext ((lowerName_eq_iff _).mpr (fits p member)) rfl
      exact same ▸ decodes

/-- A gRPC status as a trailer, and a name that is in the static table but for its case. -/
theorem encoder_roundTrip_status :
    Decodes (0x00 :: 0x0b :: ascii "grpc-status" ++ 0x01 :: ascii "0" ++ 0x0f :: 0x27 :: 0x01 :: ascii "b") ⟨[], 4096⟩
      [(ascii "grpc-status", ascii "0"), (ascii "server", ascii "b")] ⟨[], 4096⟩ := by
  have accepted : encodeHeaderPairs 1024
      [(.ofBytes (ascii "grpc-status"), .ofBytes (ascii "0")), (.ofBytes (ascii "Server"), .ofBytes (ascii "b"))] =
      .ok (0x00 :: 0x0b :: ascii "grpc-status" ++ 0x01 :: ascii "0" ++ 0x0f :: 0x27 :: 0x01 :: ascii "b") := by decide
  exact ((encoder_roundTrip_iff 1024 (by decide) ⟨[], 4096⟩).1 _ _ accepted).mpr (by decide)

/-- A name of 256 octets loses its last one. -/
theorem encodeHeaderPairs_truncates :
    let name : CStr := .ofBytes (replicate 256 0x61)
    ∃ block, encodeHeaderPairs 1024 [(name, .ofBytes (ascii "b"))] = .ok block ∧
      Decodes block ⟨[], 4096⟩ [(replicate 255 0x61, ascii "b")] ⟨[], 4096⟩ ∧
      ¬Decodes block ⟨[], 4096⟩ [(name.bytes.map toLower, ascii "b")] ⟨[], 4096⟩ := by
  intro name
  have accepted : ∃ block, encodeHeaderPairs 1024 [(name, .ofBytes (ascii "b"))] = .ok block := by
    rw [encodeHeaderPairs_eq]
    exact ⟨_, emitParts_ok_iff.mpr ⟨rfl, by decide +kernel⟩⟩
  obtain ⟨block, accepted⟩ := accepted
  have truncated : lowerName name.bytes = replicate 255 0x61 := by decide +kernel
  have decodes := encodeHeaderPairs_decodes (by decide) accepted ⟨[], 4096⟩
  simp only [map_singleton, truncated] at decodes
  refine ⟨block, accepted, decodes, fun whole => ?_⟩
  exact absurd (decodes.unique whole) (by decide +kernel)

end Cwist.H2
