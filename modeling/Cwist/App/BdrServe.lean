import Cwist.App.Bdr
import Cwist.Lib.Machine

namespace Cwist.App
open List Buckets Bdr

variable {bdr bdr' : Bdr} {entry : BdrEntry}

namespace Bdr

variable {reqH : UInt64} {e : UInt64 × BdrEntry} {α : Type}

def entries (bdr : Bdr) : List (UInt64 × BdrEntry) := bdr.buckets.flatten

structure Table (bdr : Bdr) : Prop where
  size : bdr.buckets.length = bdrBuckets
  placed : Buckets.Placed place bdr.buckets
  unique : (bdr.entries.map Prod.fst).Nodup

lemma place_lt (reqH : UInt64) : place reqH < bdrBuckets := Nat.mod_lt _ (by decide)

lemma Table.chain_eq (table : Table bdr) (reqH : UInt64) : bdr.buckets[place reqH]? = some (bdr.chain reqH) := by
  rw [chain, List.getElem?_eq_getElem (table.size ▸ place_lt reqH), Option.getD_some]

lemma Table.find_iff (table : Table bdr) : bdr.find reqH = some entry ↔ (reqH, entry) ∈ bdr.entries :=
  lookup_eq_some_iff table.placed table.unique

lemma Table.create (maxBytes : Nat) (maxEntryAgeSec : Int) (revalidateHits : UInt64) :
    Table (create maxBytes maxEntryAgeSec revalidateHits) where
  size := length_replicate
  placed := placed_replicate place bdrBuckets
  unique := by simp [entries, Bdr.create]

section
variable (table : Table bdr) {old : BdrEntry}
include table

lemma Table.absent (missing : bdr.find reqH = none) : reqH ∉ bdr.entries.map Prod.fst := by
  intro member
  obtain ⟨e, inside, rfl⟩ := mem_map.mp member
  rw [table.find_iff.mpr inside] at missing
  cases missing

/-! ### Writing an entry -/

lemma Table.setEntry (found : (reqH, old) ∈ bdr.entries) (entry : BdrEntry) : Table (bdr.setEntry reqH entry) ∧
      ∀ e, e ∈ (bdr.setEntry reqH entry).entries ↔ if e.1 = reqH then e.2 = entry else e ∈ bdr.entries := by
  have here := table.chain_eq reqH
  unfold Bdr.setEntry
  cases assigned : Buckets.assign reqH entry (bdr.chain reqH) with
  | none =>
    have missing := assign_eq_none_iff.mp assigned
    obtain ⟨chain, here', inside⟩ := table.placed.mem_iff.mp found
    rw [here] at here'
    cases here'
    exact absurd (mem_map_of_mem inside) missing
  | some chain' =>
    refine ⟨⟨length_set.trans table.size, placed_set_assign here assigned table.placed, ?_⟩, ?_⟩
    · exact (keys_set_assign here assigned).symm ▸ table.unique
    · exact mem_set_assign here assigned table.placed table.unique

lemma Table.publish (found : (reqH, old) ∈ bdr.entries) (entry : BdrEntry) : Table (bdr.publish reqH old entry) ∧
      ∀ e, e ∈ (bdr.publish reqH old entry).entries ↔ if e.1 = reqH then e.2 = entry else e ∈ bdr.entries := by
  obtain ⟨table', members⟩ := table.setEntry found entry
  exact ⟨⟨table'.size, table'.placed, table'.unique⟩, members⟩

lemma Table.findOrInsert (env : BdrEnv) (reqH : UInt64) :
    bdr.findOrInsert env reqH = (bdr, none) ∧ reqH ∉ bdr.entries.map Prod.fst ∨
    (∃ entry, bdr.findOrInsert env reqH = (bdr, some entry) ∧ (reqH, entry) ∈ bdr.entries) ∨
    ∃ bdr', bdr.findOrInsert env reqH = (bdr', some ⟨0, false, none, 0, env.now⟩) ∧ Table bdr' ∧
      bdr'.entries.Perm ((reqH, ⟨0, false, none, 0, env.now⟩) :: bdr.entries) := by
  unfold Bdr.findOrInsert
  cases found : bdr.find reqH with
  | some entry => exact .inr (.inl ⟨entry, rfl, table.find_iff.mp found⟩)
  | none =>
    cases room : env.entryRoom with
    | false => exact .inl ⟨rfl, table.absent found⟩
    | true =>
      have perm : (Buckets.insert place bdr.buckets (reqH, ⟨0, false, none, 0, env.now⟩)).flatten.Perm
          ((reqH, ⟨0, false, none, 0, env.now⟩) :: bdr.buckets.flatten) := insert_perm (table.size ▸ place_lt reqH)
      refine .inr (.inr ⟨_, rfl, ⟨(insert_length _ _ _).trans table.size,
        placed_insert table.placed _, ?_⟩, perm⟩)
      exact (perm.map Prod.fst).nodup_iff.mpr (nodup_cons.mpr ⟨table.absent found, table.unique⟩)

end

/-! ### The janitor only takes away -/

def Thinner (bdr' bdr : Bdr) : Prop := List.Forall₂ List.Sublist bdr'.buckets bdr.buckets

lemma Thinner.refl (bdr : Bdr) : Thinner bdr bdr := forall₂_same.mpr fun _ _ => .refl _

lemma forall₂_sublist_trans {table'' table' table : List (List α)}
    (second : List.Forall₂ List.Sublist table'' table') (first : List.Forall₂ List.Sublist table' table) :
    List.Forall₂ List.Sublist table'' table := by
  induction second generalizing table with
  | nil =>
    cases first
    exact .nil
  | cons less _ ih =>
    cases first with
    | cons less' rest => exact .cons (less.trans less') (ih rest)

lemma Thinner.trans {bdr'' : Bdr} (second : Thinner bdr'' bdr') (first : Thinner bdr' bdr) : Thinner bdr'' bdr :=
  forall₂_sublist_trans second first

lemma flatten_sublist {table' table : List (List α)} (thinner : List.Forall₂ List.Sublist table' table) :
    table'.flatten.Sublist table.flatten := by
  induction thinner with
  | nil => exact .slnil
  | cons first _ ih => exact first.append ih

lemma Thinner.table (thinner : Thinner bdr' bdr) (table : Table bdr) : Table bdr' where
  size := thinner.length_eq.trans table.size
  placed := by
    intro i chain found e member
    obtain ⟨bound, same⟩ := List.getElem?_eq_some_iff.mp found
    have bound' : i < bdr.buckets.length := thinner.length_eq ▸ bound
    have kept : chain.Sublist bdr.buckets[i] := same ▸ thinner.get bound bound'
    exact table.placed i _ (List.getElem?_eq_getElem bound') e (kept.subset member)
  unique := ((flatten_sublist thinner).map Prod.fst).nodup table.unique

lemma Thinner.subset (thinner : Thinner bdr' bdr) : bdr'.entries ⊆ bdr.entries :=
  (flatten_sublist thinner).subset

lemma forall₂_modify (table : List (List α)) (i : Nat) {f : List α → List α} (less : ∀ chain, (f chain).Sublist chain) :
    List.Forall₂ List.Sublist (table.modify i f) table := by
  induction table generalizing i with
  | nil => simp
  | cons chain table ih =>
    cases i with
    | zero => exact .cons (less chain) (forall₂_same.mpr fun _ _ => .refl _)
    | succ i => exact .cons (.refl _) (ih i)

lemma thinner_thin (bdr : Bdr) (idx : Nat) (retired : UInt64 × BdrEntry → Bool) : Thinner (bdr.thin idx retired) bdr :=
  forall₂_modify bdr.buckets idx fun _ => filter_sublist

lemma thinner_sweep (bdr : Bdr) (now : Int) (steps : Nat) : Thinner (bdr.sweep now steps) bdr := by
  induction steps generalizing bdr with
  | zero => exact .refl bdr
  | succ steps ih => exact (ih _).trans (thinner_thin _ _ _)

lemma thinner_trim (bdr : Bdr) (turns : Nat) : Thinner (bdr.trim turns) bdr := by
  induction turns generalizing bdr with
  | zero => exact .refl bdr
  | succ turns ih =>
    unfold trim
    split
    · split
      · exact .refl bdr
      · exact (ih _).trans (thinner_thin _ _ _)
    · exact .refl bdr

lemma thinner_checkRam (bdr : Bdr) (env : BdrEnv) : Thinner (bdr.checkRam env) bdr := by
  unfold checkRam
  split
  · exact forall₂_map_left_iff.mpr (forall₂_same.mpr fun chain _ => nil_sublist chain)
  · exact .refl bdr

def DiskEmpty (bdr : Bdr) : Prop := bdr.isDiskMode = true → bdr.entries = []

lemma DiskEmpty.thinner (empty : DiskEmpty bdr) (mode : bdr'.isDiskMode = bdr.isDiskMode)
    (thinner : Thinner bdr' bdr) : DiskEmpty bdr' :=
  fun disk => subset_nil.mp (empty (mode ▸ disk) ▸ thinner.subset)

lemma sweep_mode (bdr : Bdr) (now : Int) (steps : Nat) : (bdr.sweep now steps).isDiskMode = bdr.isDiskMode := by
  induction steps generalizing bdr with
  | zero => rfl
  | succ steps ih => exact ih _

lemma trim_mode (bdr : Bdr) (turns : Nat) : (bdr.trim turns).isDiskMode = bdr.isDiskMode := by
  induction turns generalizing bdr with
  | zero => rfl
  | succ turns ih =>
    unfold trim
    split
    · split
      · rfl
      · exact ih _
    · rfl

lemma DiskEmpty.checkRam (empty : DiskEmpty bdr) (env : BdrEnv) : DiskEmpty (bdr.checkRam env) := by
  unfold Bdr.checkRam
  split
  · intro _
    simp [entries]
  · exact empty

lemma DiskEmpty.janitorTick (empty : DiskEmpty bdr) (env : BdrEnv) : DiskEmpty (bdr.janitorTick env) := by
  unfold Bdr.janitorTick
  dsimp only
  split
  · exact empty
  have checked := (show DiskEmpty { bdr with putCount := bdr.putCount + 1 } from empty).checkRam env
  have swept := checked.thinner (sweep_mode _ env.now 8) (thinner_sweep _ env.now 8)
  split
  · exact swept.thinner (trim_mode _ _) (thinner_trim _ _)
  · exact swept

lemma thinner_janitorTick (bdr : Bdr) (env : BdrEnv) : Thinner (bdr.janitorTick env) bdr := by
  unfold janitorTick
  dsimp only
  split
  · exact .refl bdr
  have swept : Thinner ((checkRam { bdr with putCount := bdr.putCount + 1 } env).sweep env.now 8) bdr :=
    (thinner_sweep _ _ _).trans (thinner_checkRam { bdr with putCount := bdr.putCount + 1 } env)
  split
  · exact (thinner_trim _ _).trans swept
  · exact swept

end Bdr

/-! ### Runs -/

inductive BdrOp where
  | put (env : BdrEnv) (method path : CStr) (data : Bytes)
  | putFixed (env : BdrEnv) (method path : CStr) (data : Bytes)
  | get (method path : CStr)

inductive BdrEvent where
  | put (path : CStr) (data : Bytes)
  | putFixed (path : CStr) (data : Bytes)
  | served (path : CStr) (data : Bytes)
  deriving DecidableEq

structure BdrRun where
  bdr : Bdr
  history : List BdrEvent

namespace BdrRun

def isGet (method : CStr) : Bool := method.bytes == ascii "GET"

def step (run : BdrRun) : BdrOp → BdrRun
  | .put env method path data =>
    ⟨run.bdr.put env method path data,
      if isGet method ∧ data ≠ [] then run.history ++ [.put path data] else run.history⟩
  | .putFixed env method path data =>
    ⟨run.bdr.putFixed env method path data,
      if isGet method ∧ data ≠ [] then run.history ++ [.putFixed path data] else run.history⟩
  | .get method path =>
    let (bdr, answer) := run.bdr.get method path
    ⟨bdr, match answer with
      | some data => run.history ++ [.served path data]
      | none => run.history⟩

def start (maxBytes : Nat) (maxEntryAgeSec : Int) (revalidateHits : UInt64) : BdrRun :=
  ⟨.create maxBytes maxEntryAgeSec revalidateHits, []⟩

end BdrRun

def bodiesPut (path : CStr) (history : List BdrEvent) : List Bytes :=
  history.filterMap fun
    | .put path' data => if path' = path then some data else none
    | _ => none

section

variable (history : List BdrEvent)

def putPaths : List CStr :=
  history.filterMap fun
    | .put path _ => some path
    | .putFixed path _ => some path
    | .served _ _ => none

def ReplyLearned (path : CStr) (data : Bytes) : Prop :=
  .putFixed path data ∈ history ∨ [data, data] <:+: bodiesPut path history

def ServedAsLearned : Prop :=
  ∀ before path data after, history = before ++ .served path data :: after → ReplyLearned before path data

def PathApart (path : CStr) : Prop :=
  ∀ path' ∈ putPaths history, bdrHash path' = bdrHash path → path' = path

/-- The body's hash is neither zero nor that of another body observed for the path. -/
def BodyApart (path : CStr) (data : Bytes) : Prop :=
  bdrHashData data ≠ 0 ∧ ∀ data' ∈ bodiesPut path history, bdrHashData data' = bdrHashData data → data' = data

end

def HashesApart (run : BdrRun) : BdrOp → Prop
  | .put _ method path data => BdrRun.isGet method → PathApart run.history path ∧ BodyApart run.history path data
  | .putFixed _ method path _ => BdrRun.isGet method → PathApart run.history path
  | .get method path => BdrRun.isGet method → PathApart run.history path

instance (history : List BdrEvent) (path : CStr) : Decidable (PathApart history path) :=
  inferInstanceAs (Decidable (∀ path' ∈ putPaths history, _))

instance (history : List BdrEvent) (path : CStr) (data : Bytes) : Decidable (BodyApart history path data) :=
  inferInstanceAs (Decidable (_ ∧ ∀ data' ∈ bodiesPut path history, _))

instance (run : BdrRun) (op : BdrOp) : Decidable (HashesApart run op) :=
  match op with
  | .put .. => inferInstanceAs (Decidable (_ → _))
  | .putFixed .. => inferInstanceAs (Decidable (_ → _))
  | .get .. => inferInstanceAs (Decidable (_ → _))

/-! ### What an entry stands for -/

/-- A stable entry holds what was learned, and another one the hash of the last observation. -/
def EntryStands (history : List BdrEvent) (path : CStr) (entry : BdrEntry) : Prop :=
  if entry.isStable then ∀ data, entry.blob = some data → ReplyLearned history path data
  else entry.responseHash = 0 ∨ ∃ data, (bodiesPut path history).getLast? = some data ∧
    entry.responseHash = bdrHashData data

structure CacheSound (run : BdrRun) : Prop where
  table : run.bdr.Table
  disk : run.bdr.DiskEmpty
  stands : ∀ e ∈ run.bdr.entries, ∃ path ∈ putPaths run.history, bdrHash path = e.1 ∧ EntryStands run.history path e.2
  served : ServedAsLearned run.history

variable {history : List BdrEvent} {path : CStr} {data : Bytes} {event : BdrEvent}

section Events

lemma ReplyLearned.mono (learned : ReplyLearned history path data) (event : BdrEvent) : ReplyLearned (history ++ [event]) path data := by
  rcases learned with fixed | twice
  · exact .inl (mem_append_left _ fixed)
  · refine .inr (twice.trans ?_)
    rw [bodiesPut, bodiesPut, filterMap_append]
    exact (prefix_append _ _).isInfix

lemma putPaths_mono {path' : CStr} (member : path' ∈ putPaths history) (event : BdrEvent) :
    path' ∈ putPaths (history ++ [event]) := by
  rw [putPaths, filterMap_append]
  exact mem_append_left _ member

lemma ServedAsLearned.snoc (served : ServedAsLearned history)
    (last : ∀ path data, event = .served path data → ReplyLearned history path data) : ServedAsLearned (history ++ [event]) := by
  intro before path data after split
  rcases eq_nil_or_concat after with rfl | ⟨after, event', rfl⟩
  · obtain ⟨rfl, same⟩ := append_inj' split rfl
    exact last path data (List.cons.inj same).1
  · rw [concat_eq_append, ← cons_append, ← append_assoc] at split
    obtain ⟨same, -⟩ := append_inj' split rfl
    exact served before path data after same

lemma bodiesPut_put_self : bodiesPut path (history ++ [.put path data]) = bodiesPut path history ++ [data] := by
  simp [bodiesPut, filterMap_append]

lemma EntryStands.mono (stands : EntryStands history path entry)
    (other : bodiesPut path (history ++ [event]) = bodiesPut path history) : EntryStands (history ++ [event]) path entry := by
  unfold EntryStands at stands ⊢
  split at stands
  next stable =>
    rw [if_pos stable]
    exact fun data held => (stands data held).mono event
  next unstable =>
    rw [if_neg unstable, other]
    exact stands

end Events

/-! ### Every step keeps the invariant -/

section Steps
variable {run : BdrRun}

/-- The entry of the path stands for it after the event, and the others are the old ones. -/
def Renewed (history : List BdrEvent) (path : CStr) (bdr bdr' : Bdr) : Prop :=
  ∀ e ∈ bdr'.entries, e.1 = bdrHash path ∧ EntryStands history path e.2 ∨ e.1 ≠ bdrHash path ∧ e ∈ bdr.entries

lemma Renewed.unchanged (table : bdr.Table)
    (found : (bdrHash path, entry) ∈ bdr.entries) (stands : EntryStands history path entry) : Renewed history path bdr bdr := by
  intro e member
  by_cases same : e.1 = bdrHash path
  · obtain rfl : e = (bdrHash path, entry) := inj_on_of_nodup_map table.unique member found same
    exact .inl ⟨rfl, stands⟩
  · exact .inr ⟨same, member⟩

lemma Renewed.written (stands : EntryStands history path entry)
    (members : ∀ e, e ∈ bdr'.entries ↔ if e.1 = bdrHash path then e.2 = entry else e ∈ bdr.entries) :
    Renewed history path bdr bdr' := by
  intro e member
  have which := (members e).mp member
  split at which
  next same => exact .inl ⟨same, which ▸ stands⟩
  next other => exact .inr ⟨other, which⟩

lemma CacheSound.stands_after (inv : CacheSound run) (about : event = .put path data ∨ event = .putFixed path data)
    (renewed : Renewed (run.history ++ [event]) path run.bdr bdr) :
    ∀ e ∈ bdr.entries, ∃ path' ∈ putPaths (run.history ++ [event]), bdrHash path' = e.1 ∧
      EntryStands (run.history ++ [event]) path' e.2 := by
  intro e member
  rcases renewed e member with ⟨same, stands⟩ | ⟨other, old⟩
  · refine ⟨path, ?_, same.symm, stands⟩
    rw [putPaths]
    rcases about with rfl | rfl <;> simp
  obtain ⟨path', put, hashed, stands⟩ := inv.stands e old
  refine ⟨path', putPaths_mono put event, hashed, stands.mono ?_⟩
  have differs : path ≠ path' := by
    rintro rfl
    exact other hashed.symm
  rcases about with rfl | rfl <;> simp [differs, bodiesPut]

lemma CacheSound.findOrInsert (inv : CacheSound run) (env : BdrEnv) (apart : PathApart run.history path) :
    (run.bdr.findOrInsert env (bdrHash path) = (run.bdr, none) ∧ ∀ e ∈ run.bdr.entries, e.1 ≠ bdrHash path) ∨
    ∃ bdr entry, run.bdr.findOrInsert env (bdrHash path) = (bdr, some entry) ∧ bdr.Table ∧
      (bdrHash path, entry) ∈ bdr.entries ∧ EntryStands run.history path entry ∧ bdr.isDiskMode = run.bdr.isDiskMode ∧
      ∀ e ∈ bdr.entries, e.1 ≠ bdrHash path → e ∈ run.bdr.entries := by
  rcases inv.table.findOrInsert env (bdrHash path) with ⟨result, absent⟩ | ⟨entry, result, found⟩ | ⟨bdr, result, table, perm⟩
  · exact .inl ⟨result, fun e member same => absent (same ▸ mem_map_of_mem member)⟩
  · obtain ⟨path', put, hashed, stands⟩ := inv.stands _ found
    obtain rfl := apart path' put hashed
    exact .inr ⟨_, entry, result, inv.table, found, stands, rfl, fun e member _ => member⟩
  refine .inr ⟨bdr, _, result, table, perm.mem_iff.mpr mem_cons_self, .inl rfl, ?_, ?_⟩
  · unfold Bdr.findOrInsert at result
    split at result
    · cases result
      rfl
    · split at result <;> cases result
      rfl
  · intro e member other
    rcases mem_cons.mp (perm.mem_iff.mp member) with rfl | old
    · exact absurd rfl other
    · exact old

lemma setEntry_mode (bdr : Bdr) (reqH : UInt64) (entry : BdrEntry) :
    (bdr.setEntry reqH entry).isDiskMode = bdr.isDiskMode := by
  unfold setEntry
  split <;> rfl

lemma learned_of_repeat (stands : EntryStands run.history path entry) (unstable : ¬entry.isStable = true)
    (apart : BodyApart run.history path data) (same : entry.responseHash = bdrHashData data) :
    ReplyLearned (run.history ++ [.put path data]) path data := by
  rw [EntryStands, if_neg unstable] at stands
  rcases stands with zero | ⟨data', last, hashed⟩
  · exact absurd (same.symm.trans zero) apart.1
  obtain ⟨front, earlier⟩ := getLast?_eq_some_iff.mp last
  obtain rfl := apart.2 data' (earlier ▸ by simp) (hashed.symm.trans same)
  refine .inr ⟨front, [], ?_⟩
  rw [bodiesPut_put_self, earlier]
  simp

lemma learn_renews (run : BdrRun) (env : BdrEnv) (table : bdr.Table)
    (found : (bdrHash path, entry) ∈ bdr.entries) (stands : EntryStands run.history path entry)
    (apart : BodyApart run.history path data) : (bdr.learn env (bdrHash path) entry data).Table ∧
      (bdr.learn env (bdrHash path) entry data).isDiskMode = bdr.isDiskMode ∧
      Renewed (run.history ++ [.put path data]) path bdr (bdr.learn env (bdrHash path) entry data) := by
  have last : (bodiesPut path (run.history ++ [.put path data])).getLast? = some data := by
    rw [bodiesPut_put_self, getLast?_append_of_ne_nil _ (cons_ne_nil _ _)]
    rfl
  unfold Bdr.learn
  by_cases stable : entry.isStable = true
  · rw [if_pos stable]
    split
    · obtain ⟨table', members⟩ := table.publish found ⟨bdrHashData data, false, none, 0, env.now⟩
      refine ⟨table', setEntry_mode _ _ _, .written ?_ members⟩
      exact .inr ⟨data, last, rfl⟩
    · refine ⟨table, rfl, .unchanged table found ?_⟩
      rw [EntryStands, if_pos stable] at stands ⊢
      exact fun data' held => (stands data' held).mono _
  rw [if_neg stable]
  split
  next same =>
    have learned := learned_of_repeat stands stable apart same
    split
    · obtain ⟨table', members⟩ := table.publish found ⟨bdrHashData data, true, some data, 0, env.now⟩
      refine ⟨table', setEntry_mode _ _ _, .written ?_ members⟩
      rintro data' held
      cases held
      exact learned
    · refine ⟨table, rfl, .unchanged table found ?_⟩
      rw [EntryStands, if_neg stable]
      exact .inr ⟨data, last, same⟩
  · obtain ⟨table', members⟩ := table.setEntry found { entry with responseHash := bdrHashData data }
    refine ⟨table', setEntry_mode _ _ _, .written ?_ members⟩
    rw [EntryStands, if_neg stable]
    exact .inr ⟨data, last, rfl⟩

lemma Renewed.through (renewed : Renewed history path bdr bdr')
    (old : ∀ e ∈ bdr.entries, e.1 ≠ bdrHash path → e ∈ run.bdr.entries) (env : BdrEnv) :
    Renewed history path run.bdr (bdr'.janitorTick env) := by
  intro e member
  rcases renewed e ((thinner_janitorTick bdr' env).subset member) with here | ⟨other, inside⟩
  · exact .inl here
  · exact .inr ⟨other, old e inside other⟩

lemma not_served_put (served : ServedAsLearned history) :
    ServedAsLearned (history ++ [.put path data]) ∧ ServedAsLearned (history ++ [.putFixed path data]) :=
  ⟨served.snoc fun _ _ same => (nomatch same), served.snoc fun _ _ same => (nomatch same)⟩

section
variable (inv : CacheSound run)
include inv

lemma CacheSound.ignored (about : event = .put path data ∨ event = .putFixed path data)
    (none_ : ∀ e ∈ run.bdr.entries, e.1 ≠ bdrHash path) : CacheSound ⟨run.bdr, run.history ++ [event]⟩ where
  table := inv.table
  disk := inv.disk
  stands := inv.stands_after about fun e member => .inr ⟨none_ e member, member⟩
  served := by
    rcases about with rfl | rfl
    · exact (not_served_put inv.served).1
    · exact (not_served_put inv.served).2

lemma CacheSound.put (env : BdrEnv) (method : CStr)
    (apart : BdrRun.isGet method → PathApart run.history path ∧ BodyApart run.history path data) :
    CacheSound (run.step (.put env method path data)) := by
  unfold BdrRun.step
  dsimp only
  by_cases effective : BdrRun.isGet method = true ∧ data ≠ []
  · obtain ⟨get, given⟩ := effective
    obtain ⟨pathApart, bodyApart⟩ := apart get
    rw [if_pos ⟨get, given⟩]
    unfold Bdr.put
    by_cases disk : run.bdr.isDiskMode = true
    · rw [if_pos (.inr (.inr disk))]
      exact inv.ignored (.inl rfl) (by simp [inv.disk disk])
    have sameMethod : method.bytes = ascii "GET" := by simpa [BdrRun.isGet] using get
    rw [if_neg (by simp [given, sameMethod, disk])]
    dsimp only
    rcases inv.findOrInsert env pathApart with ⟨result, none_⟩ | ⟨bdr, entry, result, table, found, stands, mode, old⟩
    · rw [result]
      exact inv.ignored (.inl rfl) none_
    rw [result]
    obtain ⟨table', mode', renewed⟩ := learn_renews run env table found stands bodyApart
    have notDisk : (bdr.learn env (bdrHash path) entry data).DiskEmpty := by
      intro disk'
      rw [mode', mode] at disk'
      exact absurd disk' disk
    exact ⟨(thinner_janitorTick _ env).table table', notDisk.janitorTick env,
      inv.stands_after (.inl rfl) (renewed.through old env), (not_served_put inv.served).1⟩
  · have ignored : run.bdr.put env method path data = run.bdr := by
      unfold Bdr.put
      rw [if_pos]
      by_contra all
      simp only [not_or, not_not] at all
      exact effective ⟨by simp [BdrRun.isGet, all.2.1], all.1⟩
    rw [if_neg effective, ignored]
    exact inv

lemma CacheSound.putFixed (env : BdrEnv) (method : CStr)
    (apart : BdrRun.isGet method → PathApart run.history path) : CacheSound (run.step (.putFixed env method path data)) := by
  unfold BdrRun.step
  dsimp only
  by_cases effective : BdrRun.isGet method = true ∧ data ≠ []
  · obtain ⟨get, given⟩ := effective
    rw [if_pos ⟨get, given⟩]
    unfold Bdr.putFixed
    by_cases disk : run.bdr.isDiskMode = true
    · rw [if_pos (.inr (.inr disk))]
      exact inv.ignored (.inr rfl) (by simp [inv.disk disk])
    have sameMethod : method.bytes = ascii "GET" := by simpa [BdrRun.isGet] using get
    rw [if_neg (by simp [given, sameMethod, disk])]
    dsimp only
    have other : bodiesPut path (run.history ++ [.putFixed path data]) = bodiesPut path run.history := by
      simp [bodiesPut, filterMap_append]
    rcases inv.findOrInsert env (apart get) with ⟨result, none_⟩ | ⟨bdr, entry, result, table, found, stands, mode, old⟩
    · rw [result]
      exact inv.ignored (.inr rfl) none_
    rw [result]
    dsimp only
    split
    · obtain ⟨table', members⟩ := table.publish found ⟨bdrHashData data, true, some data, 0, env.now⟩
      have fixed : EntryStands (run.history ++ [.putFixed path data]) path ⟨bdrHashData data, true, some data, 0, env.now⟩ := by
        rintro data' held
        cases held
        exact .inl (mem_append_right _ mem_cons_self)
      have notDisk : (bdr.publish (bdrHash path) entry ⟨bdrHashData data, true, some data, 0, env.now⟩).DiskEmpty := by
        intro disk'
        rw [Bdr.publish, setEntry_mode, mode] at disk'
        exact absurd disk' disk
      exact ⟨(thinner_janitorTick _ env).table table', notDisk.janitorTick env,
        inv.stands_after (.inr rfl) ((Renewed.written fixed members).through old env), (not_served_put inv.served).2⟩
    · refine ⟨table, fun disk' => absurd (mode ▸ disk') disk, inv.stands_after (.inr rfl) ?_, (not_served_put inv.served).2⟩
      intro e member
      rcases Renewed.unchanged table found (stands.mono other) e member with here | ⟨differs, inside⟩
      · exact .inl here
      · exact .inr ⟨differs, old e inside differs⟩
  · have ignored : run.bdr.putFixed env method path data = run.bdr := by
      unfold Bdr.putFixed
      rw [if_pos]
      by_contra all
      simp only [not_or, not_not] at all
      exact effective ⟨by simp [BdrRun.isGet, all.2.1], all.1⟩
    rw [if_neg effective, ignored]
    exact inv

lemma CacheSound.get (method : CStr) (apart : BdrRun.isGet method → PathApart run.history path) :
    CacheSound (run.step (.get method path)) := by
  rw [BdrRun.step]
  unfold Bdr.get
  by_cases ignored : method.bytes ≠ ascii "GET" ∨ run.bdr.isDiskMode = true
  · rw [if_pos ignored]
    exact inv
  rw [if_neg ignored]
  simp only [not_or, not_not] at ignored
  obtain ⟨sameMethod, notDisk⟩ := ignored
  cases found : run.bdr.find (bdrHash path) with
  | none => exact inv
  | some entry =>
    have here := inv.table.find_iff.mp found
    obtain ⟨path', put, hashed, stands⟩ := inv.stands _ here
    obtain rfl := apart (by simp [BdrRun.isGet, sameMethod]) path' put hashed
    obtain ⟨table', members⟩ := inv.table.setEntry here { entry with hits := entry.hits + 1 }
    have disk' : (run.bdr.setEntry (bdrHash path') { entry with hits := entry.hits + 1 }).DiskEmpty := by
      intro disk
      rw [setEntry_mode] at disk
      exact absurd disk notDisk
    have kept : ∀ e ∈ (run.bdr.setEntry (bdrHash path') { entry with hits := entry.hits + 1 }).entries,
        ∃ path ∈ putPaths run.history, bdrHash path = e.1 ∧ EntryStands run.history path e.2 := by
      intro e member
      have which := (members e).mp member
      split at which
      next same => exact ⟨path', put, same.symm, which ▸ stands⟩
      · exact inv.stands e which
    dsimp only
    cases answer : (if entry.isStable then entry.blob else none) with
    | none => exact ⟨table', disk', kept, inv.served⟩
    | some data =>
      have learned : ReplyLearned run.history path' data := by
        split at answer
        next stable =>
          rw [EntryStands, if_pos stable] at stands
          exact stands data answer
        · cases answer
      refine ⟨table', disk', ?_, inv.served.snoc ?_⟩
      · intro e member
        obtain ⟨path, put, hashed, stands⟩ := kept e member
        refine ⟨path, putPaths_mono put _, hashed, stands.mono ?_⟩
        simp [bodiesPut, filterMap_append]
      · rintro path data' same
        cases same
        exact learned

lemma CacheSound.step (op : BdrOp) (apart : HashesApart run op) : CacheSound (run.step op) := by
  cases op with
  | put env method path data => exact inv.put env method apart
  | putFixed env method path data => exact inv.putFixed env method apart
  | get method path => exact inv.get method apart

end

end Steps

lemma CacheSound.start (maxBytes : Nat) (maxEntryAgeSec : Int) (revalidateHits : UInt64) :
    CacheSound (.start maxBytes maxEntryAgeSec revalidateHits) where
  table := .create ..
  disk := fun disk => nomatch disk
  stands := by simp [BdrRun.start, Bdr.entries, Bdr.create]
  served := by
    intro before path data after split
    simp [BdrRun.start] at split

/-- In every run in which no hash is met a second time, every reply that is served for a path was put for that path, as fixed
or in two bodiesPut in a row. -/
theorem served_as_learned (maxBytes : Nat) (maxEntryAgeSec : Int) (revalidateHits : UInt64) (ops : List BdrOp)
    (apart : Machine.Meets BdrRun.step HashesApart (.start maxBytes maxEntryAgeSec revalidateHits) ops) :
    ServedAsLearned (ops.foldl BdrRun.step (.start maxBytes maxEntryAgeSec revalidateHits)).history :=
  (@Machine.Meets.invariant _ _ _ _ CacheSound (fun _ op inv apart => inv.step op apart) _ _ apart (.start ..)).served

theorem served_after_two_observations :
    let put : BdrOp := .put ⟨1, true, true, false⟩ (.ofBytes (ascii "GET")) (.ofBytes (ascii "/a")) (ascii "x")
    let ops := [put, put, .get (.ofBytes (ascii "GET")) (.ofBytes (ascii "/a"))]
    ServedAsLearned (ops.foldl BdrRun.step (.start 1000 300 100000)).history ∧
      BdrEvent.served (.ofBytes (ascii "/a")) (ascii "x") ∈ (ops.foldl BdrRun.step (.start 1000 300 100000)).history := by
  refine ⟨served_as_learned _ _ _ _ ?_, by decide +kernel⟩
  decide +kernel

/-- Two paths with one hash: what was put for the one is served for the other. -/
theorem colliding_path_served :
    let ops : List BdrOp := [.putFixed ⟨1, true, true, false⟩ (.ofBytes (ascii "GET")) (.ofBytes (ascii "/hDqJDyvmChB"))
      (ascii "private"), .get (.ofBytes (ascii "GET")) (.ofBytes (ascii "/nrIeTe99XBM"))]
    ¬ServedAsLearned (ops.foldl BdrRun.step (.start 33554432 300 100000)).history := by
  intro ops served
  have history : (ops.foldl BdrRun.step (.start 33554432 300 100000)).history =
      [.putFixed (.ofBytes (ascii "/hDqJDyvmChB")) (ascii "private"),
        .served (.ofBytes (ascii "/nrIeTe99XBM")) (ascii "private")] := by
    decide +kernel
  have learned := served [_] _ _ [] history
  revert learned
  simp +decide [ReplyLearned]

/-! ### Ageing -/

def BdrOp.stamped (now : Int) : BdrOp → BdrOp
  | .put env method path data => .put { env with now } method path data
  | .putFixed env method path data => .putFixed { env with now } method path data
  | .get method path => .get method path

/-- What the operations on one hash say about the age of its reply: the last body, when it was first put after another
one (or put as a fixed reply), and the gets since then. -/
structure BdrAccount where
  body : UInt64
  renewed : Int
  gets : Nat

namespace BdrAccount

def step (reqH : UInt64) (account : Option BdrAccount) : Int × BdrOp → Option BdrAccount
  | (now, .put _ method path data) =>
    if data = [] ∨ BdrRun.isGet method = false ∨ bdrHash path ≠ reqH then account
    else if account.any (·.body == bdrHashData data) then account
    else some ⟨bdrHashData data, now, 0⟩
  | (now, .putFixed env method path data) =>
    if data = [] ∨ BdrRun.isGet method = false ∨ bdrHash path ≠ reqH ∨ env.blobRoom = false then account
    else some ⟨bdrHashData data, now, 0⟩
  | (_, .get method path) =>
    if BdrRun.isGet method = false ∨ bdrHash path ≠ reqH then account
    else account.map fun a => { a with gets := a.gets + 1 }

def of (reqH : UInt64) (inputs : List (Int × BdrOp)) : Option BdrAccount := inputs.foldl (step reqH) none

/-- The reply was renewed no longer than the age limit ago and has been asked for less often than the hit limit. -/
def Recent (maxEntryAgeSec : Int) (revalidateHits : UInt64) (now : Int) (a : BdrAccount) : Prop :=
  (maxEntryAgeSec > 0 → now - a.renewed ≤ maxEntryAgeSec) ∧ (revalidateHits > 0 → a.gets < revalidateHits.toNat)

instance (maxEntryAgeSec : Int) (revalidateHits : UInt64) (now : Int) (a : BdrAccount) :
    Decidable (a.Recent maxEntryAgeSec revalidateHits now) :=
  inferInstanceAs (Decidable (_ ∧ _))

/-- A get after the operations `before` comes in time for the reply that they have renewed. -/
def InTime (maxEntryAgeSec : Int) (revalidateHits : UInt64) (before : List (Int × BdrOp)) : Int × BdrOp → Prop
  | (now, .get method path) =>
    BdrRun.isGet method = true → ∀ a ∈ of (bdrHash path) before, a.Recent maxEntryAgeSec revalidateHits now
  | _ => True

instance (maxEntryAgeSec : Int) (revalidateHits : UInt64) (before : List (Int × BdrOp)) (input : Int × BdrOp) :
    Decidable (InTime maxEntryAgeSec revalidateHits before input) :=
  match input with
  | (_, .get ..) => inferInstanceAs (Decidable (_ → ∀ _ ∈ _, _))
  | (_, .put ..) | (_, .putFixed ..) => .isTrue trivial

/-- The entry is no older and has no more hits than the account says. -/
structure Covers (account : Option BdrAccount) (entry : BdrEntry) : Prop where
  known : ∃ a ∈ account, entry.responseHash = a.body ∧ a.renewed ≤ entry.createdAt ∧ entry.hits.toNat ≤ a.gets

end BdrAccount

/-- When the sweep moves on, the buckets that it has passed hold nothing that should decay: a get for such a path is a miss,
and its next put learns the reply anew. -/
def Bdr.CleanIn (bdr bdr' : Bdr) (now : Int) : Prop :=
  bdr'.gcCursor ≠ bdr.gcCursor → ∀ i < 8, ∀ e ∈ bdr'.buckets[(bdr.gcCursor + i) % bdrBuckets]?.getD [],
    bdr'.shouldDecay e.2 now = false

namespace BdrRun

def timedStep (run : BdrRun) (input : Int × BdrOp) : BdrRun := run.step (input.2.stamped input.1)

def ServesFresh (run : BdrRun) : Int × BdrOp → Prop
  | (now, .get method path) =>
    ∀ entry ∈ run.bdr.find (bdrHash path), run.bdr.shouldDecay entry now = true → (run.bdr.get method path).2 = none
  | _ => True

instance (run : BdrRun) (input : Int × BdrOp) : Decidable (run.ServesFresh input) :=
  match input with
  | (_, .get ..) => inferInstanceAs (Decidable (∀ _ ∈ _, _ → _))
  | (_, .put ..) | (_, .putFixed ..) => .isTrue trivial

def SweepsClean (run : BdrRun) (input : Int × BdrOp) : Prop := run.bdr.CleanIn (run.timedStep input).bdr input.1

end BdrRun

namespace Bdr

def limits (bdr : Bdr) : Int × UInt64 := (bdr.maxEntryAgeSec, bdr.revalidateHits)

/-- What no operation on the entries touches. -/
def fixed (bdr : Bdr) : (Int × UInt64) × Nat := (bdr.limits, bdr.gcCursor)

lemma setEntry_fixed (bdr : Bdr) (reqH : UInt64) (entry : BdrEntry) : (bdr.setEntry reqH entry).fixed = bdr.fixed := by
  unfold setEntry
  split <;> rfl

lemma findOrInsert_fixed (bdr : Bdr) (env : BdrEnv) (reqH : UInt64) : (bdr.findOrInsert env reqH).1.fixed = bdr.fixed ∧
    (bdr.findOrInsert env reqH).1.isDiskMode = bdr.isDiskMode := by
  unfold findOrInsert
  split
  · exact ⟨rfl, rfl⟩
  · split <;> exact ⟨rfl, rfl⟩

lemma trim_fixed (bdr : Bdr) (turns : Nat) : (bdr.trim turns).fixed = bdr.fixed := by
  induction turns generalizing bdr with
  | zero => rfl
  | succ turns ih =>
    unfold trim
    split
    · split
      · rfl
      · exact ih _
    · rfl

lemma sweep_limits (bdr : Bdr) (now : Int) (steps : Nat) : (bdr.sweep now steps).limits = bdr.limits := by
  induction steps generalizing bdr with
  | zero => rfl
  | succ steps ih => exact ih _

lemma checkRam_fixed (bdr : Bdr) (env : BdrEnv) : (bdr.checkRam env).fixed = bdr.fixed := by
  unfold checkRam
  split <;> rfl

lemma shouldDecay_congr (same : bdr'.limits = bdr.limits) (entry : BdrEntry) (now : Int) :
    bdr'.shouldDecay entry now = bdr.shouldDecay entry now := by
  obtain ⟨age, hits⟩ := Prod.mk.inj same
  rw [shouldDecay, shouldDecay, age, hits]

lemma Thinner.bucket (thinner : Thinner bdr' bdr) (k : Nat) :
    bdr'.buckets[k]?.getD [] ⊆ bdr.buckets[k]?.getD [] := by
  intro e member
  cases found : bdr'.buckets[k]? with
  | none => simp [found] at member
  | some chain =>
    obtain ⟨bound, rfl⟩ := List.getElem?_eq_some_iff.mp found
    have bound' : k < bdr.buckets.length := thinner.length_eq ▸ bound
    rw [found] at member
    rw [List.getElem?_eq_getElem bound']
    exact (thinner.get bound bound').subset member

lemma sweep_clean (bdr : Bdr) (now : Int) (steps : Nat) : ∀ i < steps,
    ∀ e ∈ (bdr.sweep now steps).buckets[(bdr.gcCursor + i) % bdrBuckets]?.getD [], bdr.shouldDecay e.2 now = false := by
  induction steps generalizing bdr with
  | zero => exact fun i none_ => absurd none_ (Nat.not_lt_zero i)
  | succ steps ih =>
    intro i inside e member
    let moved : Bdr := { bdr with gcCursor := (bdr.gcCursor + 1) % bdrBuckets }
    let first := moved.thin (bdr.gcCursor % bdrBuckets) fun e => moved.shouldDecay e.2 now
    have later : (bdr.sweep now (steps + 1)) = first.sweep now steps := rfl
    rw [later] at member
    cases i with
    | zero =>
      -- the first bucket is filtered, and the later steps only take away
      have kept := (thinner_sweep first now steps).bucket _ member
      rw [add_zero, show first.buckets = bdr.buckets.modify (bdr.gcCursor % bdrBuckets)
        (·.filter fun e => !moved.shouldDecay e.2 now) from rfl, List.getElem?_modify] at kept
      cases found : bdr.buckets[bdr.gcCursor % bdrBuckets]? with
      | none => simp [found] at kept
      | some chain =>
        simp only [found, if_true, Option.map_eq_map, Option.map_some, Option.getD_some, mem_filter] at kept
        exact show moved.shouldDecay e.2 now = false by simpa using kept.2
    | succ i =>
      have place : (bdr.gcCursor + (i + 1)) % bdrBuckets = (first.gcCursor + i) % bdrBuckets := by
        show _ = ((bdr.gcCursor + 1) % bdrBuckets + i) % bdrBuckets
        rw [Nat.mod_add_mod]
        congr 1
        omega
      rw [place] at member
      exact ih first i (by omega) e member

lemma janitorTick_spec (bdr : Bdr) (env : BdrEnv) : (bdr.janitorTick env).limits = bdr.limits ∧
    ((bdr.janitorTick env).gcCursor ≠ bdr.gcCursor → ∀ i < 8,
      ∀ e ∈ (bdr.janitorTick env).buckets[(bdr.gcCursor + i) % bdrBuckets]?.getD [], bdr.shouldDecay e.2 env.now = false) := by
  unfold janitorTick
  dsimp only
  split
  · exact ⟨rfl, fun moved => absurd rfl moved⟩
  let checked := checkRam { bdr with putCount := bdr.putCount + 1 } env
  have same : checked.fixed = bdr.fixed := checkRam_fixed { bdr with putCount := bdr.putCount + 1 } env
  obtain ⟨sameLimits, cursor⟩ := Prod.mk.inj same
  have clean (i : Nat) (inside : i < 8) (e : UInt64 × BdrEntry)
      (member : e ∈ (checked.sweep env.now 8).buckets[(bdr.gcCursor + i) % bdrBuckets]?.getD []) :
      bdr.shouldDecay e.2 env.now = false := by
    rw [← shouldDecay_congr sameLimits]
    rw [show bdr.gcCursor = checked.gcCursor from cursor.symm] at member
    exact sweep_clean checked env.now 8 i inside e member
  have swept : (checked.sweep env.now 8).limits = bdr.limits := (sweep_limits _ _ _).trans sameLimits
  split
  · refine ⟨(congrArg Prod.fst (trim_fixed _ _)).trans swept, fun _ i inside e member => ?_⟩
    exact clean i inside e ((thinner_trim _ _).bucket _ member)
  · exact ⟨swept, fun _ => clean⟩

lemma learn_fixed (bdr : Bdr) (env : BdrEnv) (reqH : UInt64) (entry : BdrEntry) (data : Bytes) :
    (bdr.learn env reqH entry data).fixed = bdr.fixed := by
  unfold learn
  dsimp only
  split
  · split
    · exact setEntry_fixed _ _ _
    · rfl
  split
  · split
    · exact setEntry_fixed _ _ _
    · rfl
  · exact setEntry_fixed _ _ _

/-- What a put writes for its hash: a stable entry is the one that was there, with this body, or new. -/
lemma learn_spec (env : BdrEnv) {reqH : UInt64} (data : Bytes) (table : bdr.Table) (found : (reqH, entry) ∈ bdr.entries) :
    (bdr.learn env reqH entry data).Table ∧ (bdr.learn env reqH entry data).isDiskMode = bdr.isDiskMode ∧
      ∃ new,
      (∀ e ∈ (bdr.learn env reqH entry data).entries, if e.1 = reqH then e.2 = new else e ∈ bdr.entries) ∧
      (new.isStable = true → new = entry ∧ entry.responseHash = bdrHashData data ∨
        new = ⟨bdrHashData data, true, some data, 0, env.now⟩) := by
  have kept : ∀ e ∈ bdr.entries, if e.1 = reqH then e.2 = entry else e ∈ bdr.entries := by
    intro e member
    split
    next same => exact congrArg Prod.snd (inj_on_of_nodup_map table.unique member found same)
    · exact member
  unfold learn
  by_cases stable : entry.isStable = true
  · rw [if_pos stable]
    split
    · obtain ⟨table', members⟩ := table.publish found ⟨bdrHashData data, false, none, 0, env.now⟩
      exact ⟨table', setEntry_mode _ _ _, _, fun e => (members e).mp, fun new => (nomatch new)⟩
    next same => exact ⟨table, rfl, entry, kept, fun _ => .inl ⟨rfl, not_not.mp same⟩⟩
  rw [if_neg stable]
  split
  · split
    · obtain ⟨table', members⟩ := table.publish found ⟨bdrHashData data, true, some data, 0, env.now⟩
      exact ⟨table', setEntry_mode _ _ _, _, fun e => (members e).mp, fun _ => .inr rfl⟩
    · exact ⟨table, rfl, entry, kept, fun new => absurd new stable⟩
  · obtain ⟨table', members⟩ := table.setEntry found { entry with responseHash := bdrHashData data }
    exact ⟨table', setEntry_mode _ _ _, _, fun e => (members e).mp, fun new => absurd new stable⟩

end Bdr

/-- After the operations `before`, each stable entry is covered by the account of its hash. -/
structure BdrRun.Accounted (limits : Int × UInt64) (before : List (Int × BdrOp)) (run : BdrRun) : Prop where
  table : run.bdr.Table
  disk : run.bdr.DiskEmpty
  limits : run.bdr.limits = limits
  covers : ∀ e ∈ run.bdr.entries, e.2.isStable = true → BdrAccount.Covers (BdrAccount.of e.1 before) e.2

namespace BdrAccount

variable {before : List (Int × BdrOp)} {now : Int} {reqH : UInt64} {a : BdrAccount}

lemma of_snoc (input : Int × BdrOp) : of reqH (before ++ [input]) = step reqH (of reqH before) input := by
  simp only [of, foldl_append, foldl_cons, foldl_nil]

lemma renewed_le (ordered : ∀ input ∈ before, input.1 ≤ now) (known : a ∈ of reqH before) : a.renewed ≤ now := by
  induction before using List.reverseRecOn generalizing a with
  | nil => cases known
  | append_singleton before input ih =>
    have last : input.1 ≤ now := ordered input (mem_append_right _ mem_cons_self)
    have earlier (a : BdrAccount) : a ∈ of reqH before → a.renewed ≤ now :=
      ih fun input member => ordered input (mem_append_left _ member)
    rw [of_snoc] at known
    obtain ⟨time, op⟩ := input
    cases op with
    | put env method path data =>
      simp only [step] at known
      split at known
      · exact earlier a known
      split at known
      · exact earlier a known
      · cases known
        exact last
    | putFixed env method path data =>
      simp only [step] at known
      split at known
      · exact earlier a known
      · cases known
        exact last
    | get method path =>
      simp only [step] at known
      split at known
      · exact earlier a known
      · obtain ⟨a', there, rfl⟩ := Option.map_eq_some_iff.mp known
        exact earlier a' there

lemma Covers.fresh (ordered : ∀ input ∈ before, input.1 ≤ now) (body : UInt64) (blob : Option Bytes)
    (known : (of reqH before).any (·.body == body) = true) : Covers (of reqH before) ⟨body, true, blob, 0, now⟩ := by
  cases there : of reqH before with
  | none => simp [there] at known
  | some a =>
    rw [there, Option.any_some] at known
    exact ⟨a, rfl, (eq_of_beq known).symm, renewed_le ordered there, Nat.zero_le _⟩

lemma Covers.self (body : UInt64) (blob : Option Bytes) : Covers (some ⟨body, now, 0⟩) ⟨body, true, blob, 0, now⟩ :=
  ⟨_, rfl, rfl, le_rfl, le_rfl⟩

end BdrAccount

namespace BdrRun

variable {limits : Int × UInt64} {before : List (Int × BdrOp)} {run : BdrRun} {now : Int}

section
variable (accounted : run.Accounted limits before)
include accounted

/-- An operation that leaves the entries alone, and the accounts of all of them. -/
lemma Accounted.idle {input : Int × BdrOp}
    (same : ∀ e ∈ run.bdr.entries, BdrAccount.step e.1 (BdrAccount.of e.1 before) input = BdrAccount.of e.1 before) (history : List BdrEvent) :
    Accounted limits (before ++ [input]) ⟨run.bdr, history⟩ where
  table := accounted.table
  disk := accounted.disk
  limits := accounted.limits
  covers e member stable := by
    rw [BdrAccount.of_snoc, same e member]
    exact accounted.covers e member stable

/-- A put that writes the entry of its hash, and then the janitor. -/
lemma Accounted.written {bdr : Bdr} {input : Int × BdrOp} {env : BdrEnv} (reqH : UInt64) (table : bdr.Table)
    (disk : bdr.DiskEmpty) (same : bdr.limits = limits)
    (others : ∀ e ∈ bdr.entries, e.1 ≠ reqH →
      e ∈ run.bdr.entries ∧ BdrAccount.step e.1 (BdrAccount.of e.1 before) input = BdrAccount.of e.1 before)
    (mine : ∀ e ∈ bdr.entries, e.1 = reqH → e.2.isStable = true →
      BdrAccount.Covers (BdrAccount.step reqH (BdrAccount.of reqH before) input) e.2)
    (history : List BdrEvent) : Accounted limits (before ++ [input]) ⟨bdr.janitorTick env, history⟩ where
  table := (Bdr.thinner_janitorTick bdr env).table table
  disk := disk.janitorTick env
  limits := (bdr.janitorTick_spec env).1.trans same
  covers e member stable := by
    have there := (Bdr.thinner_janitorTick bdr env).subset member
    rw [BdrAccount.of_snoc]
    by_cases here : e.1 = reqH
    · rw [here]
      exact mine e there here stable
    · obtain ⟨old, kept⟩ := others e there here
      rw [kept]
      exact accounted.covers e old stable

lemma Accounted.found {reqH : UInt64} (env : BdrEnv) :
    (run.bdr.findOrInsert env reqH = (run.bdr, none) ∧ ∀ e ∈ run.bdr.entries, e.1 ≠ reqH) ∨
    ∃ bdr entry, run.bdr.findOrInsert env reqH = (bdr, some entry) ∧ bdr.Table ∧ (reqH, entry) ∈ bdr.entries ∧
      bdr.isDiskMode = run.bdr.isDiskMode ∧ bdr.limits = limits ∧ (∀ e ∈ bdr.entries, e.1 ≠ reqH → e ∈ run.bdr.entries) ∧
      (entry.isStable = true → BdrAccount.Covers (BdrAccount.of reqH before) entry) := by
  obtain ⟨fixed, mode⟩ := run.bdr.findOrInsert_fixed env reqH
  have same := (congrArg Prod.fst fixed).trans accounted.limits
  rcases accounted.table.findOrInsert env reqH with ⟨result, absent⟩ | ⟨entry, result, found⟩ | ⟨bdr, result, table, perm⟩
  · exact .inl ⟨result, fun e member here => absent (here ▸ mem_map_of_mem member)⟩
  · exact .inr ⟨_, entry, result, accounted.table, found, rfl, accounted.limits, fun e member _ => member,
      accounted.covers _ found⟩
  · rw [result] at same mode
    refine .inr ⟨bdr, _, result, table, perm.mem_iff.mpr mem_cons_self, mode, same, fun e member other => ?_,
      fun new => (nomatch new)⟩
    rcases mem_cons.mp (perm.mem_iff.mp member) with rfl | old
    · exact absurd rfl other
    · exact old

lemma Accounted.put (ordered : ∀ input ∈ before, input.1 ≤ now) (env : BdrEnv) (method path : CStr) (data : Bytes) :
    Accounted limits (before ++ [(now, .put env method path data)]) (run.timedStep (now, .put env method path data)) := by
  show Accounted _ _ ⟨run.bdr.put { env with now } method path data, _⟩
  generalize (if isGet method ∧ data ≠ [] then _ else _ : List BdrEvent) = history
  have other (reqH : UInt64) (ne : reqH ≠ bdrHash path) :
      BdrAccount.step reqH (BdrAccount.of reqH before) (now, .put env method path data) = BdrAccount.of reqH before := by
    simp only [BdrAccount.step]
    rw [if_pos (.inr (.inr ne.symm))]
  unfold Bdr.put
  split
  next ignored =>
    refine accounted.idle (fun e member => ?_) history
    rcases ignored with empty | foreign | disk
    · simp only [BdrAccount.step]
      rw [if_pos (.inl empty)]
    · simp only [BdrAccount.step]
      rw [if_pos (.inr (.inl (by simpa [isGet] using foreign)))]
    · simp [accounted.disk disk] at member
  next effective =>
    simp only [not_or, not_not] at effective
    dsimp only
    rcases accounted.found { env with now } with ⟨result, none_⟩ | ⟨bdr, entry, result, table, found, mode, same, old, covered⟩
    · rw [result]
      exact accounted.idle (fun e member => other e.1 (none_ e member)) history
    rw [result]
    dsimp only
    obtain ⟨table', mode', new, members, written⟩ := Bdr.learn_spec { env with now } data table found
    have fixed := Bdr.learn_fixed bdr { env with now } (bdrHash path) entry data
    refine accounted.written (bdrHash path) table' (fun disk => ?_) ((congrArg Prod.fst fixed).trans same) (fun e member ne => ?_)
      (fun e member here stable => ?_) history
    · exact absurd (mode.symm.trans (mode'.symm.trans disk)) effective.2.2
    · have there := members e member
      rw [if_neg ne] at there
      exact ⟨old e there ne, other e.1 ne⟩
    · have there := members e member
      rw [if_pos here] at there
      rw [there] at stable ⊢
      have asked : isGet method = true := by simp [isGet, effective.2.1]
      simp only [BdrAccount.step]
      rw [if_neg (by simp [effective.1, asked])]
      -- a stable entry is the one that was there, which the account knows, or has just been written
      rcases written stable with ⟨rfl, body⟩ | rfl
      · have known := covered stable
        obtain ⟨a, there, same, -⟩ := known.known
        rw [if_pos]
        · exact known
        · rw [Option.mem_def.mp there, Option.any_some, beq_iff_eq, ← same, body]
      · split
        next known => exact .fresh ordered _ _ known
        · exact .self _ _

lemma Accounted.putFixed (env : BdrEnv) (method path : CStr) (data : Bytes) :
    Accounted limits (before ++ [(now, .putFixed env method path data)])
      (run.timedStep (now, .putFixed env method path data)) := by
  show Accounted _ _ ⟨run.bdr.putFixed { env with now } method path data, _⟩
  generalize (if isGet method ∧ data ≠ [] then _ else _ : List BdrEvent) = history
  have other (reqH : UInt64) (ne : reqH ≠ bdrHash path) :
      BdrAccount.step reqH (BdrAccount.of reqH before) (now, .putFixed env method path data) = BdrAccount.of reqH before := by
    simp only [BdrAccount.step]
    rw [if_pos (.inr (.inr (.inl ne.symm)))]
  unfold Bdr.putFixed
  split
  next ignored =>
    refine accounted.idle (fun e member => ?_) history
    rcases ignored with empty | foreign | disk
    · simp only [BdrAccount.step]
      rw [if_pos (.inl empty)]
    · simp only [BdrAccount.step]
      rw [if_pos (.inr (.inl (by simpa [isGet] using foreign)))]
    · simp [accounted.disk disk] at member
  next effective =>
    simp only [not_or, not_not] at effective
    dsimp only
    rcases accounted.found { env with now } with ⟨result, none_⟩ | ⟨bdr, entry, result, table, found, mode, same, old, covered⟩
    · rw [result]
      exact accounted.idle (fun e member => other e.1 (none_ e member)) history
    rw [result]
    dsimp only
    split
    next room =>
      obtain ⟨table', members⟩ := table.publish found ⟨bdrHashData data, true, some data, 0, now⟩
      have fixed : (bdr.publish (bdrHash path) entry ⟨bdrHashData data, true, some data, 0, now⟩).limits = bdr.limits :=
        congrArg Prod.fst (Bdr.setEntry_fixed bdr (bdrHash path) _)
      have modes := setEntry_mode bdr (bdrHash path) ⟨bdrHashData data, true, some data, 0, now⟩
      refine accounted.written (bdrHash path) table' (fun disk => ?_) (fixed.trans same) (fun e member ne => ?_)
        (fun e member here _ => ?_) history
      · exact absurd (mode.symm.trans (modes.symm.trans disk)) effective.2.2
      · have there := (members e).mp member
        rw [if_neg ne] at there
        exact ⟨old e there ne, other e.1 ne⟩
      · have there := (members e).mp member
        rw [if_pos here] at there
        rw [there]
        have asked : isGet method = true := by simp [isGet, effective.2.1]
        simp only [BdrAccount.step]
        rw [if_neg (by simp [effective.1, asked, room])]
        exact .self _ _
    next full =>
      -- a new entry is blank, and one that was there stays
      refine ⟨table, fun disk => absurd (mode.symm.trans disk) effective.2.2, same, fun e member stable => ?_⟩
      have kept (reqH : UInt64) : BdrAccount.of reqH (before ++ [(now, .putFixed env method path data)]) =
          BdrAccount.of reqH before := by
        rw [BdrAccount.of_snoc]
        simp only [BdrAccount.step]
        rw [if_pos (.inr (.inr (.inr (by simpa using full))))]
      rw [kept]
      by_cases here : e.1 = bdrHash path
      · have entry_ : e.2 = entry := congrArg Prod.snd (inj_on_of_nodup_map table.unique member found here)
        rw [here, entry_]
        exact covered (entry_ ▸ stable)
      · exact accounted.covers e (old e member here) stable

lemma Accounted.get (method path : CStr) :
    Accounted limits (before ++ [(now, .get method path)]) (run.timedStep (now, .get method path)) := by
  suffices after : ∀ history, Accounted limits (before ++ [(now, .get method path)]) ⟨(run.bdr.get method path).1, history⟩ from
    after _
  intro history
  unfold Bdr.get
  split
  next ignored =>
    refine accounted.idle (fun e member => ?_) history
    rcases ignored with foreign | disk
    · simp only [BdrAccount.step]
      rw [if_pos (.inl (by simpa [isGet] using foreign))]
    · simp [accounted.disk disk] at member
  next effective =>
    simp only [not_or, not_not] at effective
    have other (reqH : UInt64) (ne : reqH ≠ bdrHash path) :
        BdrAccount.step reqH (BdrAccount.of reqH before) (now, .get method path) = BdrAccount.of reqH before := by
      simp only [BdrAccount.step]
      rw [if_pos (.inr ne.symm)]
    split
    next missing =>
      refine accounted.idle (fun e member => other e.1 fun here => ?_) history
      exact accounted.table.absent missing (here ▸ mem_map_of_mem member)
    next entry found =>
      have inside := accounted.table.find_iff.mp found
      obtain ⟨table', members⟩ := accounted.table.setEntry inside { entry with hits := entry.hits + 1 }
      refine ⟨table', fun disk => absurd ((setEntry_mode _ _ _).symm.trans disk) effective.2,
        (congrArg Prod.fst (Bdr.setEntry_fixed _ _ _)).trans accounted.limits, fun e member stable => ?_⟩
      have there := (members e).mp member
      rw [BdrAccount.of_snoc]
      split at there
      next here =>
        rw [there] at stable ⊢
        have asked : isGet method = true := by simp [isGet, effective.1]
        obtain ⟨a, known, body, renewed, hits⟩ := (accounted.covers _ inside stable).known
        rw [here]
        simp only [BdrAccount.step]
        rw [if_neg (by simp [asked]), Option.mem_def.mp known]
        refine ⟨_, rfl, body, renewed, ?_⟩
        -- the counter may wrap
        have wrapped : (entry.hits + 1).toNat ≤ entry.hits.toNat + 1 := by
          rw [UInt64.toNat_add]
          exact Nat.mod_le _ _
        exact wrapped.trans (Nat.succ_le_succ hits)
      next ne =>
        rw [other e.1 ne]
        exact accounted.covers e there stable

lemma Accounted.step (ordered : ∀ input ∈ before, input.1 ≤ now) (op : BdrOp) :
    Accounted limits (before ++ [(now, op)]) (run.timedStep (now, op)) := by
  cases op with
  | put env method path data => exact accounted.put ordered env method path data
  | putFixed env method path data => exact accounted.putFixed env method path data
  | get method path => exact accounted.get method path

lemma Accounted.servesFresh (method path : CStr)
    (recent : isGet method = true → ∀ a ∈ BdrAccount.of (bdrHash path) before, a.Recent limits.1 limits.2 now) :
    run.ServesFresh (now, .get method path) := by
  intro entry found decays
  unfold Bdr.get
  split
  · rfl
  next effective =>
    simp only [not_or, not_not] at effective
    rw [Option.mem_def.mp found]
    dsimp only
    split
    next stable =>
      have inside := accounted.table.find_iff.mp found
      obtain ⟨a, known, -, renewed, hits⟩ := (accounted.covers (bdrHash path, entry) inside stable).known
      dsimp only at renewed hits
      obtain ⟨young, few⟩ := recent (by simp [isGet, effective.1]) a known
      obtain ⟨age, limit⟩ := Prod.mk.inj accounted.limits
      simp only [Bdr.shouldDecay, age, limit, Bool.or_eq_true, Bool.and_eq_true, decide_eq_true_eq] at decays
      rcases decays with ⟨⟨aged, -⟩, old⟩ | ⟨⟨-, counted⟩, many⟩
      · have := young aged
        omega
      · have := few counted
        have : limits.2.toNat ≤ entry.hits.toNat := UInt64.le_iff_toNat_le.mp many
        omega
    · rfl

end

lemma timedStep_sweepsClean (run : BdrRun) (input : Int × BdrOp) : run.SweepsClean input := by
  have still {bdr : Bdr} (now : Int) (fixed : bdr.fixed = run.bdr.fixed) : run.bdr.CleanIn bdr now :=
    fun moved => absurd (congrArg Prod.snd fixed) moved
  have ticked {bdr : Bdr} (env : BdrEnv) (fixed : bdr.fixed = run.bdr.fixed) :
      run.bdr.CleanIn (bdr.janitorTick env) env.now := by
    obtain ⟨same, clean⟩ := bdr.janitorTick_spec env
    have cursor : bdr.gcCursor = run.bdr.gcCursor := congrArg Prod.snd fixed
    intro moved i inside e member
    rw [← cursor] at moved member
    rw [Bdr.shouldDecay_congr same]
    exact clean moved i inside e member
  obtain ⟨now, op⟩ := input
  cases op with
  | put env method path data =>
    obtain ⟨fixed, -⟩ := run.bdr.findOrInsert_fixed { env with now } (bdrHash path)
    show run.bdr.CleanIn (run.bdr.put { env with now } method path data) now
    unfold Bdr.put
    split
    · exact still now rfl
    dsimp only
    split <;> rename_i result <;> rw [result] at fixed
    · exact still now fixed
    · exact ticked { env with now } ((Bdr.learn_fixed _ _ _ _ _).trans fixed)
  | putFixed env method path data =>
    obtain ⟨fixed, -⟩ := run.bdr.findOrInsert_fixed { env with now } (bdrHash path)
    show run.bdr.CleanIn (run.bdr.putFixed { env with now } method path data) now
    unfold Bdr.putFixed
    split
    · exact still now rfl
    dsimp only
    split <;> rename_i result <;> rw [result] at fixed
    · exact still now fixed
    split
    · exact ticked { env with now } ((Bdr.setEntry_fixed _ _ _).trans fixed)
    · exact still now fixed
  | get method path =>
    show run.bdr.CleanIn (run.bdr.get method path).1 now
    unfold Bdr.get
    split
    · exact still now rfl
    split
    · exact still now rfl
    · exact still now (Bdr.setEntry_fixed _ _ _)

lemma Accounted.meets {inputs : List (Int × BdrOp)} (accounted : run.Accounted limits before)
    (ordered : (before ++ inputs).Pairwise fun a b => a.1 ≤ b.1)
    (inTime : Machine.Meets (fun before input => before ++ [input]) (BdrAccount.InTime limits.1 limits.2) before inputs) :
    Machine.Meets timedStep ServesFresh run inputs ∧ Machine.Meets timedStep SweepsClean run inputs := by
  induction inputs generalizing run before with
  | nil => exact ⟨trivial, trivial⟩
  | cons input inputs ih =>
    obtain ⟨now, op⟩ := input
    have earlier : ∀ input ∈ before, input.1 ≤ now := fun input member =>
      (pairwise_append.mp ordered).2.2 input member _ mem_cons_self
    obtain ⟨fresh, clean⟩ := ih (accounted.step earlier op) (by simpa using ordered) inTime.2
    refine ⟨⟨?_, fresh⟩, timedStep_sweepsClean run _, clean⟩
    cases op with
    | get method path => exact accounted.servesFresh method path inTime.1
    | put => trivial
    | putFixed => trivial

end BdrRun

end Cwist.App
