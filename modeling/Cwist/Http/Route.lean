import Cwist.Http.QueryRefine

namespace Cwist.Http
open List

def matchLoop (hash : CStr → UInt64) (room : Nat → Bool) (t p : Bytes) (params : Option QueryMap) :
    Option (Bytes × Bytes × Option QueryMap) :=
  match t, p with
  | [], p => some ([], p, params)
  | c :: t, [] => some (c :: t, [], params)
  | c :: t, d :: p =>
    if c = 0x3a then
      let name := t.takeWhile (· != 0x2f)
      let value := (d :: p).takeWhile (· != 0x2f)
      if name.length ≥ 256 ∨ value.length ≥ 256 then none
      else
        let params := (params.getD .create).set hash room (.ofBytes name) (.ofBytes value)
        matchLoop hash room (t.dropWhile (· != 0x2f)) ((d :: p).dropWhile (· != 0x2f)) (some params)
    else if c = d then matchLoop hash room t p params
    else none
termination_by t.length
decreasing_by
  · have := (dropWhile_suffix (l := t) (· != 0x2f)).length_le
    simp only [length_cons]
    omega
  · simp

def skipSlash (s : Bytes) : Bytes := if s = [0x2f] then [] else s

def matchEnd : Option (Bytes × Bytes × Option QueryMap) → Option (Option QueryMap)
  | none => none
  | some (t, p, params) => if skipSlash t = [] ∧ skipSlash p = [] then some params else none

def matchParametricRoute (hash : CStr → UInt64) (room : Nat → Bool) (routeTmpl reqPath : CStr) : Option (Option QueryMap) :=
  matchEnd (matchLoop hash room routeTmpl.bytes reqPath.bytes none)

inductive SegmentMatch (goesOn : Bool) : Bytes → Bytes → List (Bytes × Bytes) → Prop where
  | literal {seg : Bytes} (plain : 0x3a ∉ seg) : SegmentMatch goesOn seg seg []
  | param {lit name value : Bytes} (plain : 0x3a ∉ lit) (given : value ≠ [] ∨ goesOn) (short : name.length < 256)
    (short' : value.length < 256) : SegmentMatch goesOn (lit ++ 0x3a :: name) (lit ++ value) [(name, value)]

inductive Aligned : List Bytes → List Bytes → List (Bytes × Bytes) → Prop where
  | last {t p : Bytes} {bound : List (Bytes × Bytes)} (seg : SegmentMatch false t p bound) : Aligned [t] [p] bound
  | pathSlash {t p : Bytes} {bound : List (Bytes × Bytes)} (seg : SegmentMatch true t p bound) : Aligned [t] [p, []] bound
  | patternSlash {t p : Bytes} {bound : List (Bytes × Bytes)} (seg : SegmentMatch false t p bound) :
    Aligned [t, []] [p] bound
  | next {t p : Bytes} {ts ps : List Bytes} {bound bounds : List (Bytes × Bytes)} (seg : SegmentMatch true t p bound)
    (others : Aligned ts ps bounds) : Aligned (t :: ts) (p :: ps) (bound ++ bounds)

def segments (s : Bytes) : List Bytes := s.splitOn 0x2f

lemma segments_nil : segments [] = [[]] := rfl

lemma segments_slash (s : Bytes) : segments (0x2f :: s) = [] :: segments s := by
  rfl

lemma behind_segment (s : Bytes) : s.dropWhile (· != 0x2f) = [] ∨ ∃ rest, s.dropWhile (· != 0x2f) = 0x2f :: rest := by
  have first := head?_dropWhile_not (· != 0x2f) s
  revert first
  cases s.dropWhile (· != 0x2f) with
  | nil => simp
  | cons c rest =>
    intro slash
    exact .inr ⟨rest, by simpa using slash⟩

lemma plain_segment (s : Bytes) : 0x2f ∉ s.takeWhile (· != 0x2f) :=
  fun member => by simpa using mem_takeWhile_imp member

lemma segments_front {seg : Bytes} (s : Bytes) (plain : 0x2f ∉ seg) :
    segments (seg ++ s.dropWhile (· != 0x2f)) = seg :: (segments (s.dropWhile (· != 0x2f))).tail := by
  have front : ∀ c ∈ seg, (c == (0x2f : UInt8)) = false := by
    intro c member
    rw [beq_eq_false_iff_ne]
    rintro rfl
    exact plain member
  rcases behind_segment s with none_ | ⟨rest, slash⟩
  · rw [none_, append_nil, segments, splitOn, splitOnP_eq_singleton front]
    rfl
  · rw [slash, segments, splitOn, splitOnP_append_cons_of_forall_mem front _ rfl]
    rfl

lemma segments_eq (s : Bytes) : segments s = s.takeWhile (· != 0x2f) :: (segments (s.dropWhile (· != 0x2f))).tail := by
  have front := segments_front s (plain_segment s)
  rwa [takeWhile_append_dropWhile] at front

lemma segments_cons_eq {c : UInt8} (other : c ≠ 0x2f) (s : Bytes) :
    segments (c :: s) = (c :: s.takeWhile (· != 0x2f)) :: (segments (s.dropWhile (· != 0x2f))).tail := by
  have plain : 0x2f ∉ c :: s.takeWhile (· != 0x2f) := by simp [plain_segment, Ne.symm other]
  have front := segments_front s plain
  rwa [cons_append, takeWhile_append_dropWhile] at front

lemma segments_cons {c : UInt8} (other : c ≠ 0x2f) (s : Bytes) :
    ∃ seg rest, segments s = seg :: rest ∧ segments (c :: s) = (c :: seg) :: rest :=
  ⟨_, _, segments_eq s, segments_cons_eq other s⟩

variable {c d : UInt8} {bound : List (Bytes × Bytes)}

section Segment
variable {goesOn : Bool} {a b : Bytes}

lemma segmentMatch_nil : SegmentMatch goesOn [] b bound ↔ b = [] ∧ bound = [] := by
  constructor
  · intro seg
    generalize same : ([] : Bytes) = pattern at seg
    cases seg with
    | literal plain => exact ⟨rfl, rfl⟩
    | param => simp at same
  · rintro ⟨rfl, rfl⟩
    exact .literal (by simp)

lemma segmentMatch_cons (other : c ≠ 0x3a) :
    SegmentMatch goesOn (c :: a) b bound ↔ ∃ b', b = c :: b' ∧ SegmentMatch goesOn a b' bound := by
  constructor
  · intro seg
    generalize same : c :: a = pattern at seg
    cases seg with
    | literal plain =>
      subst same
      exact ⟨a, rfl, .literal fun member => plain (mem_cons_of_mem _ member)⟩
    | @param lit name value plain given short short' =>
      cases lit with
      | nil => exact absurd (cons.inj same).1 other
      | cons e lit =>
        obtain ⟨rfl, rfl⟩ := cons.inj same
        exact ⟨lit ++ value, rfl, .param (fun member => plain (mem_cons_of_mem _ member)) given short short'⟩
  · rintro ⟨b', rfl, seg⟩
    cases seg with
    | literal plain => exact .literal (by simp [plain, Ne.symm other])
    | @param lit name value plain given short short' =>
      have plain' : 0x3a ∉ c :: lit := by simp [plain, Ne.symm other]
      exact .param plain' given short short'

lemma segmentMatch_colon : SegmentMatch goesOn (0x3a :: a) b bound ↔
      (b ≠ [] ∨ goesOn) ∧ a.length < 256 ∧ b.length < 256 ∧ bound = [(a, b)] := by
  constructor
  · intro seg
    generalize same : 0x3a :: a = pattern at seg
    cases seg with
    | literal plain =>
      subst same
      exact absurd mem_cons_self plain
    | @param lit name value plain given short short' =>
      cases lit with
      | nil =>
        obtain ⟨-, rfl⟩ := cons.inj same
        exact ⟨given, short, short', rfl⟩
      | cons e lit =>
        obtain ⟨rfl, -⟩ := cons.inj same
        exact absurd mem_cons_self plain
  · rintro ⟨given, short, short', rfl⟩
    have plain : (0x3a : UInt8) ∉ [] := not_mem_nil
    exact .param plain given short short'

end Segment

variable {t p : Bytes}

section Align
variable {ts ps : List Bytes}

lemma aligned_cons_iff : Aligned (t :: ts) (p :: ps) bound ↔
      (ts = [] ∧ ps = [] ∧ SegmentMatch false t p bound) ∨ (ts = [] ∧ ps = [[]] ∧ SegmentMatch true t p bound) ∨
        (ts = [[]] ∧ ps = [] ∧ SegmentMatch false t p bound) ∨
        ∃ first others, bound = first ++ others ∧ SegmentMatch true t p first ∧ Aligned ts ps others := by
  constructor
  · intro aligned
    cases aligned with
    | last seg => exact .inl ⟨rfl, rfl, seg⟩
    | pathSlash seg => exact .inr (.inl ⟨rfl, rfl, seg⟩)
    | patternSlash seg => exact .inr (.inr (.inl ⟨rfl, rfl, seg⟩))
    | next seg others => exact .inr (.inr (.inr ⟨_, _, rfl, seg, others⟩))
  · rintro (⟨rfl, rfl, seg⟩ | ⟨rfl, rfl, seg⟩ | ⟨rfl, rfl, seg⟩ | ⟨first, others, rfl, seg, rest⟩)
    · exact .last seg
    · exact .pathSlash seg
    · exact .patternSlash seg
    · exact .next seg rest

lemma not_aligned_nil_left : ¬Aligned [] ps bound := nofun

lemma not_aligned_nil_right : ¬Aligned ts [] bound := nofun

lemma aligned_congr {t' p' : Bytes}
    (same : ∀ goesOn first, SegmentMatch goesOn t p first ↔ SegmentMatch goesOn t' p' first) :
    Aligned (t :: ts) (p :: ps) bound ↔ Aligned (t' :: ts) (p' :: ps) bound := by
  simp only [aligned_cons_iff, same]

lemma not_aligned (none_ : ∀ goesOn first, ¬SegmentMatch goesOn t p first) : ¬Aligned (t :: ts) (p :: ps) bound := by
  simp [aligned_cons_iff, none_]

end Align

def Matches (t p : Bytes) (bound : List (Bytes × Bytes)) : Prop := Aligned (segments t) (segments p) bound

section Matches

lemma segments_eq_singleton_nil : segments t = [[]] ↔ t = [] := by
  constructor
  · intro single
    cases t with
    | nil => rfl
    | cons c t =>
      by_cases slash : c = 0x2f
      · subst slash
        exact absurd (cons.inj single).2 (splitOnP_ne_nil _ _)
      · obtain ⟨seg, rest, -, same⟩ := segments_cons slash t
        rw [same] at single
        cases single
  · rintro rfl
    rfl

lemma exists_segments (t : Bytes) : ∃ seg rest, segments t = seg :: rest :=
  exists_cons_of_ne_nil (splitOnP_ne_nil _ _)

lemma matches_nil_left : Matches [] p bound ↔ (p = [] ∨ p = [0x2f]) ∧ bound = [] := by
  rw [Matches, segments_nil]
  cases p with
  | nil =>
    rw [segments_nil, aligned_cons_iff]
    simp [segmentMatch_nil, not_aligned_nil_left]
  | cons d p =>
    by_cases slash : d = 0x2f
    · subst slash
      have some_ : segments p ≠ [] := splitOnP_ne_nil _ _
      rw [segments_slash, aligned_cons_iff]
      simp [segmentMatch_nil, not_aligned_nil_left, segments_eq_singleton_nil, some_]
    · obtain ⟨seg, rest, -, split⟩ := segments_cons slash p
      rw [split, aligned_cons_iff]
      simp [segmentMatch_nil, slash]

lemma matches_slash_nil : Matches (0x2f :: t) [] bound ↔ t = [] ∧ bound = [] := by
  rw [Matches, segments_slash, segments_nil, aligned_cons_iff]
  simp only [segmentMatch_nil, not_aligned_nil_right, segments_eq_singleton_nil]
  have some_ : segments t ≠ [] := splitOnP_ne_nil _ _
  grind

lemma matches_slash_slash : Matches (0x2f :: t) (0x2f :: p) bound ↔ Matches t p bound := by
  have some_ : segments t ≠ [] := splitOnP_ne_nil _ _
  have some' : segments p ≠ [] := splitOnP_ne_nil _ _
  rw [Matches, segments_slash, segments_slash, aligned_cons_iff, Matches]
  simp only [segmentMatch_nil, some_, some']
  simp

lemma not_matches_slash (other : d ≠ 0x2f) : ¬Matches (0x2f :: t) (d :: p) bound := by
  obtain ⟨seg, rest, -, split⟩ := segments_cons other p
  rw [Matches, split]
  exact not_aligned fun goesOn first seg => by simp [segmentMatch_nil] at seg

lemma not_matches_nil_right (other : c ≠ 0x2f) : ¬Matches (c :: t) [] bound := by
  obtain ⟨seg, rest, -, split⟩ := segments_cons other t
  rw [Matches, split, segments_nil, aligned_cons_iff]
  by_cases colon : c = 0x3a
  · subst colon
    simp [segmentMatch_colon, not_aligned_nil_right]
  · simp [segmentMatch_cons colon]

lemma matches_cons (slash : c ≠ 0x2f) (colon : c ≠ 0x3a) :
    Matches (c :: t) (d :: p) bound ↔ c = d ∧ Matches t p bound := by
  obtain ⟨seg, rest, split, split'⟩ := segments_cons slash t
  by_cases same : c = d
  · subst same
    obtain ⟨seg', rest', found, found'⟩ := segments_cons slash p
    rw [Matches, Matches, split, split', found, found']
    simp only [true_and]
    exact aligned_congr fun goesOn first => by simp [segmentMatch_cons colon]
  obtain ⟨seg', rest', found⟩ := exists_segments (d :: p)
  have head : seg' = [] ∨ ∃ others, seg' = d :: others := by
    by_cases slash' : d = 0x2f
    · subst slash'
      exact .inl (cons.inj found).1.symm
    · obtain ⟨others, _, -, found'⟩ := segments_cons slash' p
      rw [found'] at found
      exact .inr ⟨others, (cons.inj found).1.symm⟩
  simp only [same, false_and, iff_false]
  rw [Matches, split', found]
  refine not_aligned fun goesOn first matched => ?_
  rw [segmentMatch_cons colon] at matched
  obtain ⟨others, equal, -⟩ := matched
  rcases head with rfl | ⟨others', rfl⟩
  · cases equal
  · exact same (cons.inj equal).1.symm

lemma matches_colon : Matches (0x3a :: t) (d :: p) bound ↔
      (t.takeWhile (· != 0x2f)).length < 256 ∧ ((d :: p).takeWhile (· != 0x2f)).length < 256 ∧
        ∃ others, bound = (t.takeWhile (· != 0x2f), (d :: p).takeWhile (· != 0x2f)) :: others ∧
          Matches (t.dropWhile (· != 0x2f)) ((d :: p).dropWhile (· != 0x2f)) others := by
  rw [Matches, segments_cons_eq (by decide), segments_eq (d :: p), aligned_cons_iff]
  simp only [segmentMatch_colon]
  have whole : (d :: p).dropWhile (· != 0x2f) = [] → (d :: p).takeWhile (· != 0x2f) ≠ [] := by
    intro none_ empty
    have both := takeWhile_append_dropWhile (p := (· != 0x2f)) (l := d :: p)
    rw [none_, empty] at both
    cases both
  generalize t.takeWhile (· != 0x2f) = name
  generalize (d :: p).takeWhile (· != 0x2f) = value at whole ⊢
  rcases behind_segment t with none_ | ⟨t', slash⟩ <;> rcases behind_segment (d :: p) with none' | ⟨p', slash'⟩
  · simp [none_, none', segments_nil, matches_nil_left, not_aligned_nil_left, whole none']
  · have some_ : segments p' ≠ [] := splitOnP_ne_nil _ _
    simp [none_, slash', segments_nil, segments_slash, matches_nil_left, not_aligned_nil_left,
      segments_eq_singleton_nil, some_]
    tauto
  · have some_ : segments t' ≠ [] := splitOnP_ne_nil _ _
    simp [slash, none', segments_nil, segments_slash, matches_slash_nil, not_aligned_nil_right,
      segments_eq_singleton_nil, some_, whole none']
    tauto
  have some_ : segments t' ≠ [] := splitOnP_ne_nil _ _
  have some' : segments p' ≠ [] := splitOnP_ne_nil _ _
  have rest (others : List (Bytes × Bytes)) : Aligned (segments t') (segments p') others ↔ Matches t' p' others := Iff.rfl
  simp only [slash, slash', segments_slash, tail_cons, matches_slash_slash, some_, some', rest, false_and,
    and_false, false_or]
  constructor
  · rintro ⟨first, others, rfl, ⟨-, short, short', rfl⟩, aligned⟩
    exact ⟨short, short', others, rfl, aligned⟩
  · rintro ⟨short, short', others, rfl, aligned⟩
    exact ⟨[(name, value)], others, rfl, ⟨.inr trivial, short, short', rfl⟩, aligned⟩

end Matches

def bindAll (hash : CStr → UInt64) (room : Nat → Bool) (params : Option QueryMap) (bound : List (Bytes × Bytes)) :
    Option QueryMap :=
  bound.foldl (fun params pair => some ((params.getD .create).set hash room (.ofBytes pair.1) (.ofBytes pair.2))) params

section Matcher
variable {hash : CStr → UInt64} {room : Nat → Bool} {params result : Option QueryMap}

lemma skipSlash_nil_iff {s : Bytes} : skipSlash s = [] ↔ s = [] ∨ s = [0x2f] := by
  unfold skipSlash
  split <;> simp_all

lemma matchEnd_some_iff : matchEnd (some (t, p, params)) = some result ↔
      (t = [] ∨ t = [0x2f]) ∧ (p = [] ∨ p = [0x2f]) ∧ result = params := by
  rw [matchEnd, ← skipSlash_nil_iff, ← skipSlash_nil_iff, ← and_assoc]
  split
  next ends => simp [ends, eq_comm]
  next ends => simp [ends]

lemma matchEnd_loop_iff : matchEnd (matchLoop hash room t p params) = some result ↔
      ∃ bound, Matches t p bound ∧ result = bindAll hash room params bound := by
  fun_induction matchLoop hash room t p params with
  | case1 params p =>
    rw [matchEnd_some_iff]
    simp [matches_nil_left, bindAll]
  | case2 params c t =>
    rw [matchEnd_some_iff]
    by_cases slash : c = 0x2f
    · subst slash
      simp [matches_slash_nil, bindAll]
    · simp [not_matches_nil_right slash, slash]
  | case3 params t d p name value long =>
    constructor
    · intro matched
      cases matched
    rintro ⟨bound, matched, -⟩
    obtain ⟨short, short', -⟩ := matches_colon.mp matched
    rcases long with long | long
    · exact absurd short (not_lt.mpr long)
    · exact absurd short' (not_lt.mpr long)
  | case4 params t d p name value short params' ih =>
    rw [ih]
    rw [not_or, not_le, not_le] at short
    constructor <;> rintro ⟨bound, matched, rfl⟩
    · exact ⟨(name, value) :: bound, matches_colon.mpr ⟨short.1, short.2, bound, rfl, matched⟩, rfl⟩
    · obtain ⟨-, -, others, rfl, rest⟩ := matches_colon.mp matched
      exact ⟨others, rest, rfl⟩
  | case5 params t c p colon ih =>
    rw [ih]
    by_cases slash : c = 0x2f
    · subst slash
      simp only [matches_slash_slash]
    · simp only [matches_cons slash colon, true_and]
  | case6 params c t d p colon other =>
    constructor
    · intro matched
      cases matched
    rintro ⟨bound, matched, -⟩
    by_cases slash : c = 0x2f
    · subst slash
      exact absurd matched (not_matches_slash (Ne.symm other))
    · exact absurd ((matches_cons slash colon).mp matched).1 other

lemma bindAll_eq_none_iff (bound : List (Bytes × Bytes)) :
    bindAll hash room params bound = none ↔ params = none ∧ bound = [] := by
  induction bound generalizing params with
  | nil => simp [bindAll]
  | cons pair bound ih =>
    rw [bindAll, foldl_cons, ← bindAll, ih]
    simp

lemma represents_bindAll (room : Nat → Bool) (params : Option QueryMap) {f : Contents} (bound : List (Bytes × Bytes))
    (represents : QueryMap.Represents hash (params.getD .create) f) :
    QueryMap.Represents hash ((bindAll hash room params bound).getD .create)
      ((bound.map fun pair => (CStr.ofBytes pair.1, CStr.ofBytes pair.2)).foldl (fun f pair => f.set pair.1 pair.2) f) := by
  induction bound generalizing params f with
  | nil => exact represents
  | cons pair bound ih => exact ih _ (represents.set room _ _)

end Matcher

lemma Contents.foldl_set (f : Contents) (pairs : List (CStr × CStr)) (key : CStr) :
    pairs.foldl (fun f pair => f.set pair.1 pair.2) f key = (pairs.reverse.lookup key).or (f key) := by
  induction pairs generalizing f with
  | nil => simp
  | cons pair pairs ih =>
    obtain ⟨key', value⟩ := pair
    have last : f.set key' value key = ([(key', value)].lookup key).or (f key) := by
      by_cases same : key = key'
      · subst same
        simp [set, lookup]
      · have other : (key == key') = false := by simpa using same
        simp [set, Function.update_of_ne same, lookup, other]
    rw [foldl_cons, ih, reverse_cons, lookup_append, last, Option.or_assoc]

lemma subset_of_mem_segments {seg s : Bytes} (member : seg ∈ segments s) : seg ⊆ s := by
  induction s generalizing seg with
  | nil =>
    obtain rfl := mem_singleton.mp member
    exact List.Subset.refl _
  | cons c s ih =>
    by_cases slash : c = 0x2f
    · subst slash
      rcases mem_cons.mp member with rfl | later
      · exact nil_subset _
      · exact subset_cons_of_subset _ (ih later)
    · obtain ⟨first, rest, split, split'⟩ := segments_cons slash s
      rw [split] at ih
      rw [split'] at member
      rcases mem_cons.mp member with rfl | later
      · exact cons_subset_cons _ (ih mem_cons_self)
      · exact subset_cons_of_subset _ (ih (mem_cons_of_mem _ later))

lemma SegmentMatch.subset {goesOn : Bool}
    (seg : SegmentMatch goesOn t p bound) : ∀ pair ∈ bound, pair.1 ⊆ t ∧ pair.2 ⊆ p := by
  cases seg with
  | literal => nofun
  | @param lit name value =>
    intro pair member
    obtain rfl := mem_singleton.mp member
    exact ⟨fun c inside => by simp [inside], fun c inside => by simp [inside]⟩

lemma Aligned.subset {ts ps : List Bytes} (aligned : Aligned ts ps bound) :
    ∀ pair ∈ bound, (∃ t ∈ ts, pair.1 ⊆ t) ∧ ∃ p ∈ ps, pair.2 ⊆ p := by
  induction aligned with intro pair member
  | last seg | pathSlash seg | patternSlash seg =>
    obtain ⟨name, value⟩ := seg.subset pair member
    exact ⟨⟨_, mem_cons_self, name⟩, _, mem_cons_self, value⟩
  | next seg others ih =>
    rcases mem_append.mp member with here | later
    · obtain ⟨name, value⟩ := seg.subset pair here
      exact ⟨⟨_, mem_cons_self, name⟩, _, mem_cons_self, value⟩
    · obtain ⟨⟨t, inside, name⟩, p, inside', value⟩ := ih pair later
      exact ⟨⟨t, mem_cons_of_mem _ inside, name⟩, p, mem_cons_of_mem _ inside', value⟩

lemma Matches.nulFree {routeTmpl reqPath : CStr} (matched : Matches routeTmpl.bytes reqPath.bytes bound) :
    ∀ pair ∈ bound, (0 : UInt8) ∉ pair.1 ∧ (0 : UInt8) ∉ pair.2 := by
  intro pair member
  obtain ⟨⟨t, inside, name⟩, p, inside', value⟩ := Aligned.subset matched pair member
  exact ⟨fun nul => routeTmpl.nul (subset_of_mem_segments inside (name nul)),
    fun nul => reqPath.nul (subset_of_mem_segments inside' (value nul))⟩

/-- The parameters are these pairs: there is a map only if there are pairs, and it gives the last value of each name. -/
def BoundTo (hash : CStr → UInt64) (params : Option QueryMap) (bound : List (Bytes × Bytes)) : Prop :=
  (params = none ↔ bound = []) ∧
    ∀ name : CStr, ((params.getD .create).get hash name).map CStr.bytes = bound.reverse.lookup name.bytes

lemma boundTo_bindAll (hash : CStr → UInt64) (room : Nat → Bool)
    (nul : ∀ pair ∈ bound, (0 : UInt8) ∉ pair.1 ∧ (0 : UInt8) ∉ pair.2) :
    BoundTo hash (bindAll hash room none bound) bound := by
  constructor
  · rw [bindAll_eq_none_iff]
    simp
  intro name
  have represents := represents_bindAll room none bound (.create hash)
  rw [represents.same, Contents.foldl_set, ← map_reverse, lookup_kept fun pair member => (nul pair (mem_reverse.mp member)).1]
  cases found : bound.reverse.lookup name.bytes with
  | none => rfl
  | some value =>
    obtain ⟨front, back, split, -⟩ := lookup_eq_some_iff.mp found
    have member : (name.bytes, value) ∈ bound := by
      rw [← mem_reverse, split]
      simp
    simp [CStr.ofBytes_bytes (nul _ member).2]

/-- `match_parametric_route` compares segment by segment, and gives the segments of the path that stand for names. -/
theorem matchParametricRoute_iff_segments (hash : CStr → UInt64) (room : Nat → Bool) (routeTmpl reqPath : CStr) :
    ((matchParametricRoute hash room routeTmpl reqPath).isSome ↔ ∃ bound, Matches routeTmpl.bytes reqPath.bytes bound) ∧
      ∀ bound, Matches routeTmpl.bytes reqPath.bytes bound →
        ∃ params, matchParametricRoute hash room routeTmpl reqPath = some params ∧ BoundTo hash params bound := by
  constructor
  · rw [Option.isSome_iff_exists]
    simp only [matchParametricRoute, matchEnd_loop_iff]
    constructor
    · rintro ⟨-, bound, matched, -⟩
      exact ⟨bound, matched⟩
    · rintro ⟨bound, matched⟩
      exact ⟨_, bound, matched, rfl⟩
  · intro bound matched
    exact ⟨_, matchEnd_loop_iff.mpr ⟨bound, matched, rfl⟩, boundTo_bindAll hash room matched.nulFree⟩

theorem matchParametricRoute_user :
    ∃ params, matchParametricRoute (fun _ => 0) (fun _ => true) (.ofBytes (ascii "/u/:id")) (.ofBytes (ascii "/u/7/")) =
      some params ∧ BoundTo (fun _ => 0) params [(ascii "id", ascii "7")] := by
  refine (matchParametricRoute_iff_segments _ _ _ _).2 _ ?_
  have pattern : segments (CStr.ofBytes (ascii "/u/:id")).bytes = [[], ascii "u", 0x3a :: ascii "id"] := by decide
  have path : segments (CStr.ofBytes (ascii "/u/7/")).bytes = [[], ascii "u", ascii "7", []] := by decide
  rw [Matches, pattern, path]
  have last : SegmentMatch true (0x3a :: ascii "id") (ascii "7") [(ascii "id", ascii "7")] :=
    segmentMatch_colon.mpr (by decide)
  exact .next (.literal (by decide)) (.next (.literal (by decide)) (.pathSlash last))

/-- A path with one segment more, which is empty, is matched; and so is an empty segment, which a name then stands for. -/
theorem route_extra_and_empty_segment :
    (matchParametricRoute (fun _ => 0) (fun _ => true) (.ofBytes (ascii "/u/:id")) (.ofBytes (ascii "/u/7/"))).isSome ∧
    (segments (ascii "/u/:id")).length = 3 ∧ (segments (ascii "/u/7/")).length = 4 ∧
    ((matchParametricRoute (fun _ => 0) (fun _ => true) (.ofBytes (ascii "/u/:id/x")) (.ofBytes (ascii "/u//x"))).map
      fun params => ((params.getD .create).get (fun _ => 0) (.ofBytes (ascii "id"))).map CStr.bytes) =
        some (some []) := by
  decide +kernel

end Cwist.Http
