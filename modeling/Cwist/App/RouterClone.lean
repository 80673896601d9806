import Cwist.App.Router

namespace Cwist.App.RouteTable
open List Buckets RouteTable

open Http (Method QueryMap)

variable {table src dst : RouteTable} {key : Key} {e e' : RouteEntry} {method : Method} {path curr : CStr}

def entries (table : RouteTable) : List RouteEntry := table.buckets.flatten

def place : Key → Nat := routeHash routeBuckets

lemma place_lt (key : Key) : place key < routeBuckets := Nat.mod_lt _ (by decide)

/-- Exact routes are in the chains of their keys, one for each key; the others are in the list. -/
structure Wf (table : RouteTable) : Prop where
  size : table.buckets.length = routeBuckets
  placed : Buckets.Placed place table.buckets
  unique : (table.entries.map Prod.fst).Nodup
  exact_ : ∀ e ∈ table.entries, routeHasParams e.1.2 = false
  userData : ∀ e ∈ table.entries, e.2.wsAsyncOnMessage = none → e.2.wsAsyncUserData = none
  params : ∀ e ∈ table.paramRoutes, routeHasParams e.1.2 = true
  noAsync : ∀ e ∈ table.paramRoutes, e.2.wsAsyncOnMessage = none ∧ e.2.wsAsyncUserData = none

lemma Wf.create : Wf create where
  size := length_replicate
  placed := placed_replicate place routeBuckets
  unique := by simp [entries, RouteTable.create]
  exact_ := by simp [entries, RouteTable.create]
  userData := by simp [entries, RouteTable.create]
  params := by simp [RouteTable.create]
  noAsync := by simp [RouteTable.create]

lemma samePath_iff : samePath curr path = true ↔ curr = path := by
  have bytes_eq : curr.bytes = path.bytes → curr = path := by
    intro same
    exact CStr.mk.injEq .. |>.mpr same
  unfold samePath
  split <;> simp only [Bool.and_eq_true, beq_iff_eq]
  · constructor
    · rintro ⟨lengths, words⟩
      apply bytes_eq
      refine map_injective_iff.mpr (fun _ _ => UInt8.toNat_inj.mp) ?_
      refine Nat.ofDigits_inj_of_len_eq (b := 256) (by decide) ?_ ?_ ?_ words
      · simpa [CStr.length] using lengths
      · intro digit member
        obtain ⟨c, -, rfl⟩ := mem_map.mp member
        exact c.toNat_lt
      · intro digit member
        obtain ⟨c, -, rfl⟩ := mem_map.mp member
        exact c.toNat_lt
    · rintro rfl
      exact ⟨rfl, rfl⟩
  · exact ⟨fun both => bytes_eq both.2, fun same => same ▸ ⟨rfl, rfl⟩⟩

lemma same_key_iff : (e.1.1 == method && samePath e.1.2 path) = true ↔ e.1 = (method, path) := by
  rw [Bool.and_eq_true, beq_iff_eq, samePath_iff, Prod.ext_iff]

lemma Wf.mem_iff (wf : Wf table) :
    e ∈ table.entries ↔ ∃ chain, table.buckets[place e.1]? = some chain ∧ e ∈ chain := wf.placed.mem_iff

lemma Wf.eq_of_key (wf : Wf table) (member : e ∈ table.entries) (member' : e' ∈ table.entries)
    (same : e.1 = e'.1) : e = e' := inj_on_of_nodup_map wf.unique member member' same

lemma Wf.lookup_eq_some_iff (wf : Wf table) :
    table.lookup method path = some e ↔ e ∈ table.entries ∧ e.1 = (method, path) := by
  rw [lookup, wf.size]
  change ((table.buckets[place (method, path)]?).getD []).find? _ = some e ↔ _
  constructor
  · intro found
    have holds := find?_some found
    have same := same_key_iff.mp holds
    have inside := mem_of_find?_eq_some found
    cases chain : table.buckets[place (method, path)]? with rw [chain] at inside
    | none => cases inside
    | some chain' => exact ⟨wf.mem_iff.mpr ⟨chain', same ▸ chain, inside⟩, same⟩
  · rintro ⟨member, same⟩
    obtain ⟨chain, here, inside⟩ := wf.mem_iff.mp member
    rw [same] at here
    rw [here, Option.getD_some]
    cases found : chain.find? fun curr => curr.1.1 == method && samePath curr.1.2 path with
    | none => exact absurd (same_key_iff.mpr same) (find?_eq_none.mp found e inside)
    | some e' =>
      have holds := find?_some found
      have same' := same_key_iff.mp holds
      have member' := wf.mem_iff.mpr ⟨chain, same' ▸ here, mem_of_find?_eq_some found⟩
      rw [wf.eq_of_key member' member (same'.trans same.symm)]

section Insert
variable {name : Option CStr} {target : Target} {opts : UInt32} {chain chain' : List RouteEntry}

lemma retarget_eq (key : Key) (target : Target) (opts : UInt32) (chain : List RouteEntry) :
    retarget key target opts chain =
      (chain.lookup key).bind fun old => assign key (setTarget old target opts) chain := by
  induction chain with
  | nil => rfl
  | cons curr rest ih =>
    rw [retarget, lookup_cons]
    by_cases same : curr.1 = key
    · simp [same, assign]
    · have other : (key == curr.1) = false := by simpa using Ne.symm same
      rw [ih, other]
      cases rest.lookup key <;> simp [assign, same]

lemma setAsync_eq (key : Key) (onMessage userData : Ptr) (chain : List RouteEntry) :
    setAsync key onMessage userData chain = ((chain.lookup key).bind fun old =>
        assign key { old with wsAsyncOnMessage := onMessage, wsAsyncUserData := userData } chain).getD chain := by
  induction chain with
  | nil => rfl
  | cons curr rest ih =>
    rw [setAsync, lookup_cons]
    by_cases same : curr.1 = key
    · rw [if_pos (same_key_iff.mpr same)]
      simp [same, assign]
    have other : (key == curr.1) = false := by simpa using Ne.symm same
    rw [if_neg (mt same_key_iff.mp same), ih, other]
    cases rest.lookup key with
    | none => rfl
    | some old =>
      simp only [Option.bind_some, assign, if_neg same]
      cases assign key _ rest <;> rfl

lemma absent_of_lookup (none_ : chain.lookup key = none) : key ∉ chain.map Prod.fst := by
  intro member
  obtain ⟨e, inside, same⟩ := mem_map.mp member
  have differs := lookup_eq_none_iff.mp none_ e inside
  simp [same] at differs

lemma assign_isSome {old : Route} (found : chain.lookup key = some old) (val : Route) :
    ∃ chain', assign key val chain = some chain' := by
  cases assigned : assign key val chain with
  | some chain' => exact ⟨chain', rfl⟩
  | none =>
    obtain ⟨front, back, rfl, -⟩ := List.lookup_eq_some_iff.mp found
    have absent := assign_eq_none_iff.mp assigned
    simp at absent

lemma Wf.insert_cases (wf : Wf table) (path : CStr) (name : Option CStr) (method : Method) (target : Target) (opts : UInt32) :
    (routeHasParams path = true ∧ table.insert path name method target opts =
      { table with paramRoutes := ((method, path), entryCreate name target opts) :: table.paramRoutes }) ∨
    (routeHasParams path = false ∧ ∃ old chain chain', table.buckets[place (method, path)]? = some chain ∧
      assign (method, path) (setTarget old target opts) chain = some chain' ∧
      table.insert path name method target opts =
        { table with buckets := table.buckets.set (place (method, path)) chain' }) ∨
    (routeHasParams path = false ∧ (method, path) ∉ table.entries.map Prod.fst ∧
      table.insert path name method target opts =
        { table with buckets := Buckets.insert place table.buckets ((method, path), entryCreate name target opts) }) := by
  unfold insert
  cases has : routeHasParams path with
  | true => exact .inl ⟨rfl, rfl⟩
  | false =>
    obtain ⟨chain, here⟩ : ∃ chain, table.buckets[place (method, path)]? = some chain :=
      ⟨_, getElem?_eq_getElem (wf.size ▸ place_lt (method, path))⟩
    have index : routeHash table.buckets.length (method, path) = place (method, path) := by rw [wf.size]; rfl
    simp only [Bool.false_eq_true, if_false, index, here, Option.getD_some, retarget_eq]
    cases found : chain.lookup (method, path) with
    | some old =>
      obtain ⟨chain', assigned⟩ := assign_isSome found (setTarget old target opts)
      refine .inr (.inl ⟨trivial, old, chain, chain', rfl, assigned, ?_⟩)
      rw [Option.bind_some, assigned]
    | none =>
      refine .inr (.inr ⟨trivial, fun member => ?_, ?_⟩)
      · obtain ⟨e, inside, same⟩ := mem_map.mp member
        obtain ⟨chain', here', inside'⟩ := wf.mem_iff.mp inside
        rw [same, here] at here'
        cases here'
        exact absent_of_lookup found (same ▸ mem_map_of_mem inside')
      · rw [wf.size]
        rfl

lemma Wf.assign (wf : Wf table) {val : Route}
    (here : table.buckets[place key]? = some chain) (assigned : assign key val chain = some chain')
    (data : val.wsAsyncOnMessage = none → val.wsAsyncUserData = none) :
    Wf { table with buckets := table.buckets.set (place key) chain' } := by
  have keys := keys_set_assign here assigned
  have members := mem_set_assign here assigned wf.placed wf.unique
  refine ⟨(length_set).trans wf.size, placed_set_assign here assigned wf.placed, keys ▸ wf.unique, ?_, ?_,
    wf.params, wf.noAsync⟩
  · intro e member
    have kept : e.1 ∈ table.entries.map Prod.fst := by
      rw [entries, ← keys]
      exact mem_map_of_mem member
    obtain ⟨old, inside, same⟩ := mem_map.mp kept
    exact same ▸ wf.exact_ old inside
  · intro e member none_
    have split_ := (members e).mp member
    split at split_
    · rw [split_] at none_ ⊢
      exact data none_
    · exact wf.userData e split_ none_

lemma Wf.insert (wf : Wf table) (path : CStr) (name : Option CStr) (method : Method) (target : Target) (opts : UInt32) :
    Wf (table.insert path name method target opts) := by
  rcases wf.insert_cases path name method target opts with
    ⟨has, result⟩ | ⟨-, old, chain, chain', here, assigned, result⟩ | ⟨plain, absent, result⟩
  · rw [result]
    refine ⟨wf.size, wf.placed, wf.unique, wf.exact_, wf.userData, ?_, ?_⟩ <;> intro e member
    · rcases mem_cons.mp member with rfl | later
      · exact has
      · exact wf.params e later
    · rcases mem_cons.mp member with rfl | later
      · exact ⟨rfl, rfl⟩
      · exact wf.noAsync e later
  · rw [result]
    exact wf.assign here assigned fun _ => rfl
  rw [result]
  have perm : (Buckets.insert place table.buckets ((method, path), entryCreate name target opts)).flatten.Perm
      (((method, path), entryCreate name target opts) :: table.buckets.flatten) :=
    insert_perm (wf.size ▸ place_lt _)
  refine ⟨(insert_length _ _ _).trans wf.size, placed_insert wf.placed _, ?_, ?_, ?_, wf.params, wf.noAsync⟩
  · exact (perm.map Prod.fst).nodup_iff.mpr (nodup_cons.mpr ⟨absent, wf.unique⟩)
  · intro e member
    rcases mem_cons.mp (perm.mem_iff.mp member) with rfl | inside
    · exact plain
    · exact wf.exact_ e inside
  · intro e member none_
    rcases mem_cons.mp (perm.mem_iff.mp member) with rfl | inside
    · rfl
    · exact wf.userData e inside none_

lemma Wf.register (wf : Wf table) (reg : Registration) : Wf (table.register reg) := by
  cases reg with
  | named path name method handler opts => exact wf.insert _ _ _ _ _
  | ex path method handler userCtx destroy =>
    rw [RouteTable.register]
    split
    · exact wf
    · exact wf.insert _ _ _ _ _
  | ws path handler opts => exact wf.insert _ _ _ _ _
  | wsAsync path onMessage userData =>
    rw [RouteTable.register]
    split
    · exact wf
    rename_i given
    have wf' := wf.insert path none .get {} endpointDefault
    revert wf'
    generalize table.insert path none .get {} endpointDefault = table'
    intro wf'
    obtain ⟨chain, here⟩ : ∃ chain, table'.buckets[place (.get, path)]? = some chain :=
      ⟨_, getElem?_eq_getElem (wf'.size ▸ place_lt (.get, path))⟩
    have index : routeHash table'.buckets.length (.get, path) = place (.get, path) := by rw [wf'.size]; rfl
    have modified (f : List RouteEntry → List RouteEntry) :
        table'.buckets.modify (place (.get, path)) f = table'.buckets.set (place (.get, path)) (f chain) := by
      rw [modify_eq_set_getElem?, here]
      rfl
    simp only [index, modified, setAsync_eq]
    cases found : chain.lookup (.get, path) with
    | none =>
      obtain ⟨bound, same⟩ := List.getElem?_eq_some_iff.mp here
      rw [Option.bind_none, Option.getD_none, ← same, List.set_getElem_self]
      exact wf'
    | some old =>
      obtain ⟨chain', assigned⟩ :=
        assign_isSome found { old with wsAsyncOnMessage := onMessage, wsAsyncUserData := userData }
      rw [Option.bind_some, assigned]
      refine wf'.assign here assigned fun none_ => ?_
      rw [show onMessage = none from none_] at given
      exact absurd rfl given

lemma Wf.build (regs : List Registration) : Wf (build regs) := by
  have run : ∀ table, Wf table → Wf (regs.foldl RouteTable.register table) := by
    induction regs with
    | nil => exact fun _ wf => wf
    | cons reg regs ih => exact fun table wf => ih _ (wf.register reg)
  exact run _ .create

end Insert

def cloneOf (e : RouteEntry) : RouteEntry := (e.1, entryCreate e.2.name (cloneTarget e) e.2.opts)

lemma Wf.cloneEntry_exact (wf : Wf dst) (plain : routeHasParams e.1.2 = false) (absent : e.1 ∉ dst.entries.map Prod.fst) :
    cloneEntry dst e = { dst with buckets := Buckets.insert place dst.buckets (cloneOf e) } := by
  rcases wf.insert_cases e.1.2 e.2.name e.1.1 (cloneTarget e) e.2.opts with
    ⟨has, -⟩ | ⟨-, old, chain, chain', here, assigned, -⟩ | ⟨-, -, result⟩
  · rw [plain] at has
    cases has
  · have present : e.1 ∈ chain.map Prod.fst := by
      by_contra missing
      rw [assign_eq_none_iff.mpr missing] at assigned
      cases assigned
    exact absurd ((sublist_flatten here).map Prod.fst |>.subset present) absent
  · exact result

lemma Wf.clone_exact (wf : Wf dst) (routes : List RouteEntry) (plain : ∀ e ∈ routes, routeHasParams e.1.2 = false)
    (unique : (routes.map Prod.fst).Nodup) (fresh : ∀ e ∈ routes, e.1 ∉ dst.entries.map Prod.fst) :
    Wf (routes.foldl cloneEntry dst) ∧ (routes.foldl cloneEntry dst).paramRoutes = dst.paramRoutes ∧
      (routes.foldl cloneEntry dst).entries.Perm (routes.map cloneOf ++ dst.entries) := by
  induction routes generalizing dst with
  | nil => exact ⟨wf, rfl, .refl _⟩
  | cons e routes ih =>
    obtain ⟨first, others⟩ := nodup_cons.mp unique
    have result := wf.cloneEntry_exact (plain e mem_cons_self) (fresh e mem_cons_self)
    have perm : (cloneEntry dst e).entries.Perm (cloneOf e :: dst.entries) := by
      rw [result]
      exact insert_perm (wf.size ▸ place_lt _)
    have fresh' : ∀ e' ∈ routes, e'.1 ∉ (cloneEntry dst e).entries.map Prod.fst := by
      intro e' member inside
      rcases mem_cons.mp ((perm.map Prod.fst).mem_iff.mp inside) with same | inside
      · exact first (same ▸ mem_map_of_mem member)
      · exact fresh e' (mem_cons_of_mem _ member) inside
    obtain ⟨wf', params, perm'⟩ := ih (show Wf (cloneEntry dst e) from wf.insert _ _ _ _ _)
      (fun e' member => plain e' (mem_cons_of_mem _ member)) others fresh'
    refine ⟨wf', params.trans (by rw [result]), perm'.trans ?_⟩
    exact (perm.append_left _).trans perm_middle

lemma clone_params (routes : List RouteEntry) (has : ∀ e ∈ routes, routeHasParams e.1.2 = true) (dst : RouteTable) :
    routes.foldl cloneEntry dst = { dst with paramRoutes := (routes.map cloneOf).reverse ++ dst.paramRoutes } := by
  induction routes generalizing dst with
  | nil => rfl
  | cons e routes ih =>
    have result : cloneEntry dst e = { dst with paramRoutes := cloneOf e :: dst.paramRoutes } := by
      rw [cloneEntry, insert, if_pos (has e mem_cons_self)]
      rfl
    rw [foldl_cons, ih (fun e' member => has e' (mem_cons_of_mem _ member)), result]
    simp

lemma Wf.clone_spec (wf : Wf src) : Wf src.clone ∧ src.clone.entries.Perm (src.entries.map cloneOf) ∧
      src.clone.paramRoutes = (src.paramRoutes.map cloneOf).reverse := by
  have none_ : RouteTable.create.entries = [] := by simp [entries, RouteTable.create]
  obtain ⟨wf', params, perm⟩ := Wf.create.clone_exact src.entries wf.exact_ wf.unique (by simp [none_])
  have result := clone_params src.paramRoutes wf.params (src.entries.foldl cloneEntry RouteTable.create)
  change src.clone = _ at result
  rw [params] at result
  refine ⟨?_, ?_, ?_⟩ <;> rw [result]
  · refine ⟨wf'.size, wf'.placed, wf'.unique, wf'.exact_, wf'.userData, ?_, ?_⟩ <;> intro e member
    · simp only [mem_append, mem_reverse, mem_map] at member
      rcases member with ⟨e', inside, rfl⟩ | impossible
      · exact wf.params e' inside
      · cases impossible
    · simp only [mem_append, mem_reverse, mem_map] at member
      rcases member with ⟨e', -, rfl⟩ | impossible
      · exact ⟨rfl, rfl⟩
      · cases impossible
  · rw [none_, append_nil] at perm
    exact perm
  · exact append_nil _

lemma Wf.clone_lookup (wf : Wf src) (method : Method) (path : CStr) :
    src.clone.lookup method path = (src.lookup method path).map cloneOf := by
  obtain ⟨wf', perm, -⟩ := wf.clone_spec
  refine Option.ext fun e => ?_
  rw [wf'.lookup_eq_some_iff, perm.mem_iff, Option.map_eq_some_iff]
  constructor
  · rintro ⟨member, same⟩
    obtain ⟨e', inside, rfl⟩ := mem_map.mp member
    exact ⟨e', wf.lookup_eq_some_iff.mpr ⟨inside, same⟩, rfl⟩
  · rintro ⟨e', found, rfl⟩
    obtain ⟨inside, same⟩ := wf.lookup_eq_some_iff.mp found
    exact ⟨mem_map_of_mem inside, same⟩

section Select
variable {hash : CStr → UInt64} {room : Nat → Bool}

def serves (method : Method) (path : CStr) (e : RouteEntry) : Bool :=
  e.1.1 = method ∧ Fits e.1.2.bytes path.bytes

def candidates (table : RouteTable) (method : Method) (path : CStr) : List RouteEntry :=
  table.paramRoutes.filter (serves method path)

lemma matchParamsLoop_fst (routes : List RouteEntry) (pathParams : Option QueryMap) :
    (matchParamsLoop hash room method path routes pathParams).1 = routes.find? (serves method path) := by
  induction routes generalizing pathParams with
  | nil => rfl
  | cons curr rest ih =>
    unfold matchParamsLoop
    rw [find?_cons]
    by_cases same : curr.1.1 = method
    · rw [if_pos same]
      have serves_iff (params : Option QueryMap) :
          (matchPath hash room curr.1.2 path params).1 = serves method path curr := by
        rw [Bool.eq_iff_iff, matchPath_iff, serves, decide_eq_true_iff]
        exact ⟨fun fits => ⟨same, fits⟩, fun both => both.2⟩
      cases pathParams with simp only [serves_iff]
      | none =>
        cases serves method path curr with
        | true => rfl
        | false => exact ih none
      | some map =>
        cases serves method path curr with
        | true => rfl
        | false => exact ih _
    · have other : serves method path curr = false := decide_eq_false fun both => same both.1
      rw [if_neg same, other]
      exact ih pathParams

lemma select_eq (table : RouteTable) (pathParams : Option QueryMap) : table.select hash room method path pathParams =
      (table.lookup method path).or (table.candidates method path).head? := by
  rw [select, matchParams, matchParamsLoop_fst, candidates, head?_filter]
  cases table.lookup method path <;> rfl

lemma Wf.clone_candidates (wf : Wf src) :
    src.clone.candidates method path = ((src.candidates method path).map cloneOf).reverse := by
  obtain ⟨-, -, params⟩ := wf.clone_spec
  rw [candidates, params, filter_reverse, filter_map]
  rfl

def visible (e : RouteEntry) : CStr × Target × Ptr × Ptr × UInt32 :=
  (e.1.2, { e.2.target with ctxDestroy := none }, e.2.wsAsyncOnMessage, e.2.wsAsyncUserData, e.2.opts)

lemma visible_cloneOf_iff : visible (cloneOf e) = visible e ↔ e.2.wsAsyncOnMessage = none ∧ e.2.wsAsyncUserData = none := by
  simp [visible, cloneOf, entryCreate, cloneTarget, eq_comm]

def ClonesFaithfully (hash : CStr → UInt64) (room : Nat → Bool) (table : RouteTable) : Prop :=
  ∀ method path pathParams, (table.clone.select hash room method path pathParams).map visible =
    (table.select hash room method path pathParams).map visible

def AsyncFree (table : RouteTable) : Prop := ∀ e ∈ table.entries, e.2.wsAsyncOnMessage = none

/-- Wherever patterns overlap, and no exact route decides, the earliest registered one answers like the latest. -/
def OrderFree (table : RouteTable) : Prop :=
  ∀ method path, table.lookup method path = none →
    (table.candidates method path).getLast?.map visible = (table.candidates method path).head?.map visible

lemma Wf.clone_select_none (wf : Wf src) (none_ : src.lookup method path = none) (pathParams : Option QueryMap) :
    (src.clone.select hash room method path pathParams).map visible =
      (src.candidates method path).getLast?.map visible := by
  rw [select_eq, wf.clone_lookup, none_, wf.clone_candidates, head?_reverse, getLast?_map]
  cases last : (src.candidates method path).getLast? with
  | none => rfl
  | some e =>
    have member := (mem_filter.mp (mem_of_getLast? last)).1
    exact congrArg some (visible_cloneOf_iff.mpr (wf.noAsync e member))

/-- Of the tables that registrations build, those are copied faithfully that have no asynchronous WebSocket route and whose
overlapping patterns do not depend on their order. -/
theorem clone_faithful_iff (hash : CStr → UInt64) (room : Nat → Bool) (regs : List Registration) :
    ClonesFaithfully hash room (build regs) ↔ AsyncFree (build regs) ∧ OrderFree (build regs) := by
  have wf := Wf.build regs
  revert wf
  generalize build regs = table
  intro wf
  constructor
  · intro faithful
    refine ⟨fun e member => ?_, fun method path none_ => ?_⟩
    · have found := wf.lookup_eq_some_iff.mpr ⟨member, rfl⟩
      have same := faithful e.1.1 e.1.2 none
      rw [select_eq, select_eq, wf.clone_lookup, found] at same
      exact (visible_cloneOf_iff.mp (Option.some.inj same)).1
    · have same := faithful method path none
      rw [wf.clone_select_none none_, select_eq, none_] at same
      exact same
  · rintro ⟨asyncFree, orderFree⟩ method path pathParams
    cases found : table.lookup method path with
    | none => rw [wf.clone_select_none found, select_eq, found, Option.none_or, orderFree method path found]
    | some e =>
      have member := (wf.lookup_eq_some_iff.mp found).1
      have none_ := asyncFree e member
      rw [select_eq, select_eq, wf.clone_lookup, found]
      exact congrArg some (visible_cloneOf_iff.mpr ⟨none_, wf.userData e member none_⟩)

/-- With two patterns for one path the copy takes the one that was registered first, and an asynchronous WebSocket route loses
its callback. -/
theorem clone_reverses_and_forgets : ¬ClonesFaithfully (fun _ => 0) (fun _ => true)
      (build [.named (.ofBytes (ascii "/:a")) none .get (some 1) 0, .named (.ofBytes (ascii "/:b")) none .get (some 2) 0]) ∧
    ¬ClonesFaithfully (fun _ => 0) (fun _ => true) (build [.wsAsync (.ofBytes (ascii "/ws")) (some 3) (some 4)]) := by
  constructor <;> intro faithful
  · have same := faithful .get (.ofBytes (ascii "/x")) none
    revert same
    decide +kernel
  · have same := faithful .get (.ofBytes (ascii "/ws")) none
    revert same
    decide +kernel

end Select

end Cwist.App.RouteTable
