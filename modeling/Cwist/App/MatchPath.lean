import Cwist.Http.Route

namespace Cwist.App
open List

open Http (QueryMap Contents segments segments_slash segments_eq plain_segment behind_segment)

def skipSlashes (s : Bytes) : Bytes := s.dropWhile (· == 0x2f)

variable {c : UInt8}

lemma head_skipSlashes {s rest : Bytes} (skipped : skipSlashes s = c :: rest) : c ≠ 0x2f := by
  have head := head?_dropWhile_not (· == 0x2f) s
  rw [show s.dropWhile (· == 0x2f) = c :: rest from skipped] at head
  simpa using head

def segment (s : Bytes) : Bytes := s.takeWhile (· != 0x2f)

def afterSegment (s : Bytes) : Bytes := s.dropWhile (· != 0x2f)

def capture (s : Bytes) : CStr := .ofBytes (s.take 255)

lemma afterSegment_shorter {s rest : Bytes} (skipped : skipSlashes s = c :: rest) :
    (afterSegment (c :: rest)).length < s.length := by
  have fewer := (dropWhile_suffix (l := s) (· == 0x2f)).length_le
  have shorter := (dropWhile_suffix (l := rest) (· != 0x2f)).length_le
  rw [show s.dropWhile (· == 0x2f) = c :: rest from skipped, length_cons] at fewer
  rw [afterSegment, dropWhile_cons_of_pos (by simpa using head_skipSlashes skipped)]
  omega

section Model
variable (hash : CStr → UInt64) (room : Nat → Bool)

def matchPathLoop (pattern actual : Bytes) (params : Option QueryMap) : Bool × Option QueryMap :=
  match _walk : skipSlashes pattern, skipSlashes actual with
  | [], [] => (true, params)
  | [], _ :: _ => (false, params)
  | _ :: _, [] => (false, params)
  | c :: p, d :: a =>
    if c = 0x3a then
      let params := params.map fun map =>
        map.set hash room (capture (segment (c :: p)).tail) (capture (segment (d :: a)))
      matchPathLoop (afterSegment (c :: p)) (afterSegment (d :: a)) params
    else if segment (c :: p) ≠ segment (d :: a) then (false, params)
    else matchPathLoop (afterSegment (c :: p)) (afterSegment (d :: a)) params
termination_by pattern.length
decreasing_by all_goals exact afterSegment_shorter _walk

def matchPath (pattern actual : CStr) (params : Option QueryMap) : Bool × Option QueryMap :=
  matchPathLoop hash room pattern.bytes actual.bytes (params.map .clear)

end Model

def segs (s : Bytes) : List Bytes := (segments s).filter (· ≠ [])

lemma segs_slash (s : Bytes) : segs (0x2f :: s) = segs s := by
  rfl

lemma segs_skipSlashes (s : Bytes) : segs (skipSlashes s) = segs s := by
  induction s with
  | nil => rfl
  | cons c s ih =>
    by_cases slash : c = 0x2f
    · subst slash
      rw [segs_slash, ← ih]
      rfl
    · rw [skipSlashes, dropWhile_cons_of_neg (by simpa using slash)]

lemma segs_cons (s : Bytes) (other : c ≠ 0x2f) : segs (c :: s) = segment (c :: s) :: segs (afterSegment (c :: s)) := by
  have nonempty : segment (c :: s) ≠ [] := by
    rw [segment, takeWhile_cons_of_pos (by simpa using other)]
    exact cons_ne_nil _ _
  rw [segs, segments_eq]
  refine (filter_cons_of_pos (p := fun x : Bytes => decide (x ≠ [])) (decide_eq_true nonempty)).trans
    (congrArg (segment (c :: s) :: ·) ?_)
  rcases behind_segment (c :: s) with end_ | ⟨rest, slash⟩
  · rw [afterSegment, end_]
    rfl
  · rw [afterSegment, slash]
    rfl

def SegmentFits (p a : Bytes) : Prop := p.head? = some 0x3a ∨ p = a

instance (p a : Bytes) : Decidable (SegmentFits p a) := inferInstanceAs (Decidable (_ ∨ _))

def Fits (pattern actual : Bytes) : Prop := List.Forall₂ SegmentFits (segs pattern) (segs actual)

instance (pattern actual : Bytes) : Decidable (Fits pattern actual) :=
  inferInstanceAs (Decidable (List.Forall₂ SegmentFits _ _))

def bindings : List Bytes → List Bytes → List (Bytes × Bytes)
  | p :: ps, a :: as => if p.head? = some 0x3a then (p.tail, a) :: bindings ps as else bindings ps as
  | _, _ => []

lemma matchPathLoop_step (hash : CStr → UInt64) (room : Nat → Bool) (pattern actual : Bytes) (params : Option QueryMap) :
    segs pattern = [] ∧ segs actual = [] ∧ matchPathLoop hash room pattern actual params = (true, params) ∨
    (segs pattern = [] ∧ segs actual ≠ [] ∨ segs pattern ≠ [] ∧ segs actual = []) ∧
      matchPathLoop hash room pattern actual params = (false, params) ∨
    ∃ p a pattern' actual', segs pattern = p :: segs pattern' ∧ segs actual = a :: segs actual' ∧
      pattern'.length < pattern.length ∧
      matchPathLoop hash room pattern actual params =
        if p.head? = some 0x3a then
          matchPathLoop hash room pattern' actual'
            (params.map fun map => map.set hash room (capture p.tail) (capture a))
        else if p ≠ a then (false, params)
        else matchPathLoop hash room pattern' actual' params := by
  rw [matchPathLoop]
  rw [← segs_skipSlashes pattern, ← segs_skipSlashes actual]
  split
  next walk walk' => exact .inl ⟨by rw [walk]; rfl, by rw [walk']; rfl, rfl⟩
  next d a walk walk' =>
    refine .inr (.inl ⟨.inl ⟨by rw [walk]; rfl, ?_⟩, rfl⟩)
    rw [walk', segs_cons a (head_skipSlashes walk')]
    exact cons_ne_nil _ _
  next c p walk walk' =>
    refine .inr (.inl ⟨.inr ⟨?_, by rw [walk']; rfl⟩, rfl⟩)
    rw [walk, segs_cons p (head_skipSlashes walk)]
    exact cons_ne_nil _ _
  rename_i c p d a walk walk'
  have other := head_skipSlashes walk
  have here : segment (c :: p) = c :: segment p := takeWhile_cons_of_pos (by simpa using other)
  refine .inr (.inr ⟨segment (c :: p), segment (d :: a), afterSegment (c :: p), afterSegment (d :: a), ?_, ?_,
    afterSegment_shorter walk, ?_⟩)
  · rw [walk, segs_cons p other]
  · rw [walk', segs_cons a (head_skipSlashes walk')]
  · rw [show (segment (c :: p)).head? = some c by rw [here]; rfl]
    simp only [Option.some.injEq]

variable {hash : CStr → UInt64} {room : Nat → Bool}

section Spec
variable {pattern actual : CStr}

def captured (bound : List (Bytes × Bytes)) : List (CStr × CStr) := bound.map fun pair => (capture pair.1, capture pair.2)

def bindAll (hash : CStr → UInt64) (room : Nat → Bool) (map : QueryMap) (bound : List (Bytes × Bytes)) : QueryMap :=
  (captured bound).foldl (fun map pair => map.set hash room pair.1 pair.2) map

lemma matchPathLoop_spec (pattern actual : Bytes) (params : Option QueryMap) :
    ((matchPathLoop hash room pattern actual params).1 = true ↔ Fits pattern actual) ∧
      (Fits pattern actual → (matchPathLoop hash room pattern actual params).2 =
        params.map (bindAll hash room · (bindings (segs pattern) (segs actual)))) := by
  rcases matchPathLoop_step hash room pattern actual params with
    ⟨none_, none_', result⟩ | ⟨uneven, result⟩ | ⟨p, a, pattern', actual', here, here', shorter, result⟩
  · rw [result, Fits, none_, none_']
    refine ⟨iff_of_true rfl .nil, fun _ => ?_⟩
    cases params <;> rfl
  · have unfit : ¬Fits pattern actual := by
      rintro fits
      have lengths := fits.length_eq
      rcases uneven with ⟨none_, some_⟩ | ⟨some_, none_⟩ <;> rw [none_] at lengths
      · exact some_ (length_eq_zero_iff.mp lengths.symm)
      · exact some_ (length_eq_zero_iff.mp lengths)
    rw [result]
    exact ⟨iff_of_false Bool.false_ne_true unfit, fun fits => absurd fits unfit⟩
  · have ih := matchPathLoop_spec pattern' actual'
    have fits_iff : Fits pattern actual ↔ SegmentFits p a ∧ Fits pattern' actual' := by
      rw [Fits, here, here', forall₂_cons]
      exact Iff.rfl
    rw [result, fits_iff, here, here', bindings]
    by_cases param : p.head? = some 0x3a
    · rw [if_pos param, if_pos param]
      obtain ⟨matched, filled⟩ := ih (params.map fun map => map.set hash room (capture p.tail) (capture a))
      refine ⟨matched.trans ⟨fun fits => ⟨.inl param, fits⟩, fun both => both.2⟩, fun both => (filled both.2).trans ?_⟩
      cases params <;> rfl
    rw [if_neg param, if_neg param]
    by_cases same : p = a
    · rw [if_neg (not_not_intro same)]
      obtain ⟨matched, filled⟩ := ih params
      exact ⟨matched.trans ⟨fun fits => ⟨.inr same, fits⟩, fun both => both.2⟩, fun both => filled both.2⟩
    · have unfit : ¬(SegmentFits p a ∧ Fits pattern' actual') := fun both => both.1.elim param same
      rw [if_pos same]
      exact ⟨iff_of_false Bool.false_ne_true unfit, fun fits => absurd fits unfit⟩
termination_by pattern.length

lemma matchPath_iff {params : Option QueryMap} :
    (matchPath hash room pattern actual params).1 = true ↔ Fits pattern.bytes actual.bytes :=
  (matchPathLoop_spec pattern.bytes actual.bytes (params.map .clear)).1

lemma matchPath_captures {map : QueryMap} (fits : Fits pattern.bytes actual.bytes) :
    (matchPath hash room pattern actual (some map)).2 =
      some (bindAll hash room map.clear (bindings (segs pattern.bytes) (segs actual.bytes))) :=
  (matchPathLoop_spec pattern.bytes actual.bytes (some map.clear)).2 fits

end Spec

section Bound
variable {map : QueryMap} {bound : List (Bytes × Bytes)} {pairs : List (CStr × CStr)} {key value : CStr}

lemma bindAll_get (wf : map.Wf hash) (key : CStr) :
    (bindAll hash room map.clear bound).get hash key = (captured bound).reverse.lookup key := by
  have represents : map.Represents hash (map.get hash) := ⟨wf, fun _ => rfl⟩
  rw [bindAll, (represents.clear.setAll room _).same, Contents.foldl_set]
  simp [Contents.empty]

def BindsExactly (hash : CStr → UInt64) (map : QueryMap) (bound : List (Bytes × Bytes)) : Prop :=
  ∀ key value : CStr, map.get hash key = some value ↔ (key.bytes, value.bytes) ∈ bound

/-- Names and segments fit into the buffers, and no name is given two segments. -/
def Bindable (bound : List (Bytes × Bytes)) : Prop :=
  ∀ pair ∈ bound, pair.1.length ≤ 255 ∧ pair.2.length ≤ 255 ∧ ∀ other ∈ bound, other.1 = pair.1 → other.2 = pair.2

lemma capture_length (s : Bytes) : (capture s).bytes.length ≤ 255 :=
  (List.takeWhile_prefix _).length_le.trans (length_take_le 255 s)

lemma capture_bytes {s : Bytes} (nul : (0 : UInt8) ∉ s) (short : s.length ≤ 255) : (capture s).bytes = s := by
  rw [capture, take_of_length_le short, CStr.ofBytes_bytes nul]

lemma mem_of_lookup (found : pairs.lookup key = some value) : (key, value) ∈ pairs := by
  obtain ⟨front, back, rfl, -⟩ := lookup_eq_some_iff.mp found
  simp

lemma lookup_of_mem (member : (key, value) ∈ pairs)
    (single : ∀ other, (key, other) ∈ pairs → other = value) : pairs.lookup key = some value := by
  cases found : pairs.lookup key with
  | none =>
    have absent := lookup_eq_none_iff.mp found _ member
    simp at absent
  | some other => rw [single other (mem_of_lookup found)]

lemma mem_captured_iff (nul : ∀ pair ∈ bound, (0 : UInt8) ∉ pair.1 ∧ (0 : UInt8) ∉ pair.2) (bindable : Bindable bound)
    (key value : CStr) : (key, value) ∈ captured bound ↔ (key.bytes, value.bytes) ∈ bound := by
  constructor
  · intro member
    obtain ⟨pair, inside, same⟩ := mem_map.mp member
    obtain ⟨nulName, nulValue⟩ := nul pair inside
    obtain ⟨shortName, shortValue, -⟩ := bindable pair inside
    cases same
    rw [capture_bytes nulName shortName, capture_bytes nulValue shortValue]
    exact inside
  · intro inside
    obtain ⟨shortName, shortValue, -⟩ := bindable _ inside
    refine mem_map.mpr ⟨_, inside, ?_⟩
    have name : capture key.bytes = key := by rw [capture, take_of_length_le shortName, CStr.ofBytes_self]
    have whole : capture value.bytes = value := by rw [capture, take_of_length_le shortValue, CStr.ofBytes_self]
    rw [name, whole]

lemma bindsExactly_iff (wf : map.Wf hash) (nul : ∀ pair ∈ bound, (0 : UInt8) ∉ pair.1 ∧ (0 : UInt8) ∉ pair.2) :
    BindsExactly hash (bindAll hash room map.clear bound) bound ↔ Bindable bound := by
  constructor
  · intro exact_ pair inside
    obtain ⟨nulName, nulValue⟩ := nul pair inside
    have found := (exact_ ⟨pair.1, nulName⟩ ⟨pair.2, nulValue⟩).mpr inside
    have kept := found
    rw [bindAll_get wf] at kept
    obtain ⟨source, -, same⟩ := mem_map.mp (mem_reverse.mp (mem_of_lookup kept))
    have names : (capture source.1).bytes = pair.1 := congrArg (fun p : CStr × CStr => p.1.bytes) same
    have values : (capture source.2).bytes = pair.2 := congrArg (fun p : CStr × CStr => p.2.bytes) same
    refine ⟨names ▸ capture_length _, values ▸ capture_length _, fun other inside' twice => ?_⟩
    obtain ⟨-, nulOther⟩ := nul other inside'
    have moved : (pair.1, other.2) ∈ bound := by
      rw [← twice]
      exact inside'
    have found' := (exact_ ⟨pair.1, nulName⟩ ⟨other.2, nulOther⟩).mpr moved
    rw [found] at found'
    exact (congrArg CStr.bytes (Option.some.inj found')).symm
  · intro bindable key value
    rw [bindAll_get wf, ← mem_captured_iff nul bindable]
    constructor
    · intro found
      exact mem_reverse.mp (mem_of_lookup found)
    intro member
    refine lookup_of_mem (mem_reverse.mpr member) fun other member' => ?_
    have inside := (mem_captured_iff nul bindable _ _).mp member
    have inside' := (mem_captured_iff nul bindable _ _).mp (mem_reverse.mp member')
    have same := (bindable _ inside).2.2 _ inside' rfl
    exact CStr.mk.injEq .. |>.mpr same

lemma subset_of_mem_segs {s seg : Bytes} (member : seg ∈ segs s) : seg ⊆ s := by
  match s with
  | [] => cases member
  | c :: s =>
    by_cases slash : c = 0x2f
    · subst slash
      exact subset_cons_of_subset _ (subset_of_mem_segs member)
    have shorter := (dropWhile_suffix (l := s) (· != 0x2f)).length_le
    have same : afterSegment (c :: s) = afterSegment s := dropWhile_cons_of_pos (by simpa using slash)
    rw [segs_cons s slash, mem_cons] at member
    rcases member with rfl | later
    · exact (List.takeWhile_prefix _).subset
    · exact List.Subset.trans (subset_of_mem_segs later) (dropWhile_suffix _).subset
termination_by s.length
decreasing_by
  · simp
  · rw [same]
    exact Nat.lt_succ_of_le shorter

lemma mem_bindings {ps as : List Bytes} {pair : Bytes × Bytes} (member : pair ∈ bindings ps as) :
    (∃ p ∈ ps, pair.1 = p.tail) ∧ pair.2 ∈ as := by
  fun_induction bindings ps as with
  | case1 p ps a as param ih =>
    rcases mem_cons.mp member with rfl | later
    · exact ⟨⟨p, mem_cons_self, rfl⟩, mem_cons_self⟩
    · obtain ⟨⟨q, inside, same⟩, behind⟩ := ih later
      exact ⟨⟨q, mem_cons_of_mem _ inside, same⟩, mem_cons_of_mem _ behind⟩
  | case2 p ps a as literal ih =>
    obtain ⟨⟨q, inside, same⟩, behind⟩ := ih member
    exact ⟨⟨q, mem_cons_of_mem _ inside, same⟩, mem_cons_of_mem _ behind⟩
  | case3 => cases member

lemma bindings_nul {pattern actual : CStr} :
    ∀ pair ∈ bindings (segs pattern.bytes) (segs actual.bytes), (0 : UInt8) ∉ pair.1 ∧ (0 : UInt8) ∉ pair.2 := by
  intro pair member
  obtain ⟨⟨p, inside, same⟩, behind⟩ := mem_bindings member
  refine ⟨fun zero => pattern.nul (subset_of_mem_segs inside (mem_of_mem_tail (same ▸ zero))), fun zero => ?_⟩
  exact actual.nul (subset_of_mem_segs behind zero)

/-- `match_path` tells what fits, with a map as without one, and binds each name of the pattern to its segment. -/
def MatchesExactly (hash : CStr → UInt64) (room : Nat → Bool) (pattern actual : CStr) (map : QueryMap) : Prop :=
  ((matchPath hash room pattern actual none).1 = true ↔ Fits pattern.bytes actual.bytes) ∧
    (matchPath hash room pattern actual (some map)).1 = (matchPath hash room pattern actual none).1 ∧
    (Fits pattern.bytes actual.bytes → ∃ map', (matchPath hash room pattern actual (some map)).2 = some map' ∧
      BindsExactly hash map' (bindings (segs pattern.bytes) (segs actual.bytes)))

/-- Matching itself is always right. What is bound is right exactly when every name and every segment that it stands for has at
most 255 octets and a name that occurs twice stands for the same segment both times. -/
theorem matchPath_exact_iff (room : Nat → Bool) (pattern actual : CStr) (wf : map.Wf hash) :
    MatchesExactly hash room pattern actual map ↔
      (Fits pattern.bytes actual.bytes → Bindable (bindings (segs pattern.bytes) (segs actual.bytes))) := by
  have agree : (matchPath hash room pattern actual (some map)).1 = (matchPath hash room pattern actual none).1 := by
    rw [Bool.eq_iff_iff, matchPath_iff, matchPath_iff]
  constructor
  · rintro ⟨-, -, binds⟩ fits
    obtain ⟨map', filled, exact_⟩ := binds fits
    rw [matchPath_captures fits] at filled
    cases filled
    exact (bindsExactly_iff wf bindings_nul).mp exact_
  · intro bindable
    refine ⟨matchPath_iff, agree, fun fits => ⟨_, matchPath_captures fits, ?_⟩⟩
    exact (bindsExactly_iff wf bindings_nul).mpr (bindable fits)

end Bound

theorem matchPath_exact_user :
    MatchesExactly (fun _ => 0) (fun _ => true) (.ofBytes (ascii "/u/:id")) (.ofBytes (ascii "//u/7")) .create := by
  refine (matchPath_exact_iff _ _ _ (.create _)).mpr fun _ => ?_
  have bound : bindings (segs (CStr.ofBytes (ascii "/u/:id")).bytes) (segs (CStr.ofBytes (ascii "//u/7")).bytes) =
      [(ascii "id", ascii "7")] := by decide
  rw [bound]
  simp +decide [Bindable]

/-- Of a segment with 256 octets the name gets 255. -/
theorem long_segment_cut :
    ¬MatchesExactly (fun _ => 0) (fun _ => true) (.ofBytes (ascii "/:id")) (.ofBytes (0x2f :: replicate 256 0x61))
      .create := by
  rintro ⟨fits, -, binds⟩
  obtain ⟨map, filled, exact_⟩ := binds (fits.mp (by decide +kernel))
  have bound : (ascii "id", replicate 256 0x61) ∈
      bindings (segs (CStr.ofBytes (ascii "/:id")).bytes) (segs (CStr.ofBytes (0x2f :: replicate 256 0x61)).bytes) := by
    decide +kernel
  have found := (exact_ ⟨ascii "id", by decide⟩ ⟨replicate 256 0x61, by decide⟩).mpr bound
  have whole := congrArg (Option.map fun map => (map.get (fun _ => 0) ⟨ascii "id", by decide⟩).map CStr.length) filled
  rw [Option.map_some, found] at whole
  revert whole
  decide +kernel

end Cwist.App
