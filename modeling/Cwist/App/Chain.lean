import Cwist.Basic

/-!
# The middleware chain

`mw_next_wrapper` and `execute_chain` of `app.c`.
-/

namespace Cwist.App
open List

inductive MwAct (ρ : Type) where
  | next
  | write (f : ρ → ρ)

abbrev Middleware (ρ : Type) := List (MwAct ρ)

def MwAct.isNext {ρ : Type} : MwAct ρ → Bool
  | .next => true
  | .write _ => false

def Middleware.calls {ρ : Type} (mw : Middleware ρ) : Nat := mw.countP MwAct.isNext

abbrev Caller := Option Nat

inductive ChainEvent where
  | enter (mw : Nat) (caller : Caller)
  | handler (caller : Caller)
  deriving DecidableEq

structure ExecutorCtx (ρ : Type) where
  currentMwNode : Nat
  response : ρ
  log : List ChainEvent

namespace Chain

variable {ρ : Type} (mws : List (Middleware ρ)) (finalHandler : Option (ρ → ρ))

def act (callNext : ExecutorCtx ρ → ExecutorCtx ρ) (ctx : ExecutorCtx ρ) : MwAct ρ → ExecutorCtx ρ
  | .next => callNext ctx
  | .write f => { ctx with response := f ctx.response }

def finish (caller : Caller) (ctx : ExecutorCtx ρ) : ExecutorCtx ρ :=
  match finalHandler with
  | some handler => { ctx with response := handler ctx.response, log := ctx.log ++ [.handler caller] }
  | none => ctx

def advance (caller : Caller) (ctx : ExecutorCtx ρ) : ExecutorCtx ρ :=
  { ctx with currentMwNode := ctx.currentMwNode + 1, log := ctx.log ++ [.enter ctx.currentMwNode caller] }

def nextWrapper : Nat → Caller → ExecutorCtx ρ → ExecutorCtx ρ
  | depth, caller, ctx =>
    match mws[ctx.currentMwNode]? with
    | none => finish finalHandler caller ctx
    | some mw =>
      match depth with
      | 0 => ctx
      | depth + 1 => mw.foldl (act (nextWrapper depth (some ctx.currentMwNode))) (advance caller ctx)

def mwNextWrapper (caller : Caller) (ctx : ExecutorCtx ρ) : ExecutorCtx ρ :=
  nextWrapper mws finalHandler (mws.length - ctx.currentMwNode) caller ctx

def executeChain (response : ρ) : ExecutorCtx ρ :=
  if mws.isEmpty then finish finalHandler none ⟨0, response, []⟩
  else mwNextWrapper mws finalHandler none ⟨0, response, []⟩

variable {mws : List (Middleware ρ)} {finalHandler : Option (ρ → ρ)} {ctx : ExecutorCtx ρ} {caller : Caller}

section Depth

variable {P : ExecutorCtx ρ → Prop}

lemma foldl_act_invariant {call : ExecutorCtx ρ → ExecutorCtx ρ} (calls : ∀ ctx, P ctx → P (call ctx))
    (writes : ∀ (ctx : ExecutorCtx ρ) (f : ρ → ρ), P ctx → P { ctx with response := f ctx.response })
    (mw : Middleware ρ) (start : P ctx) : P (mw.foldl (act call) ctx) := by
  induction mw generalizing ctx with
  | nil => exact start
  | cons a mw ih =>
    cases a with
    | next => exact ih (calls ctx start)
    | write f => exact ih (writes ctx f start)

lemma foldl_act_congr {call call' : ExecutorCtx ρ → ExecutorCtx ρ}
    (same : ∀ ctx, P ctx → call ctx = call' ctx) (calls : ∀ ctx, P ctx → P (call ctx))
    (writes : ∀ (ctx : ExecutorCtx ρ) (f : ρ → ρ), P ctx → P { ctx with response := f ctx.response })
    (mw : Middleware ρ) (start : P ctx) : mw.foldl (act call) ctx = mw.foldl (act call') ctx := by
  induction mw generalizing ctx with
  | nil => rfl
  | cons a mw ih =>
    cases a with
    | next =>
      rw [foldl_cons, foldl_cons, act, act, ← same ctx start]
      exact ih (calls ctx start)
    | write f => exact ih (writes ctx f start)

lemma finish_current (caller : Caller) (ctx : ExecutorCtx ρ) :
    (finish finalHandler caller ctx).currentMwNode = ctx.currentMwNode := by
  cases finalHandler <;> rfl

lemma nextWrapper_current (depth : Nat) (caller : Caller) (ctx : ExecutorCtx ρ) :
    ctx.currentMwNode ≤ (nextWrapper mws finalHandler depth caller ctx).currentMwNode := by
  induction depth generalizing caller ctx with unfold nextWrapper
  | zero =>
    split
    · exact (finish_current caller ctx).ge
    · exact le_rfl
  | succ depth ih =>
    split
    · exact (finish_current caller ctx).ge
    rename_i mw here
    refine foldl_act_invariant (P := fun after => ctx.currentMwNode ≤ after.currentMwNode) ?_ ?_ mw (Nat.le_succ _)
    · exact fun after start => start.trans (ih _ after)
    · exact fun after f start => start

lemma nextWrapper_depth {depth depth' : Nat}
    (enough : mws.length - ctx.currentMwNode ≤ depth) (enough' : mws.length - ctx.currentMwNode ≤ depth') :
    nextWrapper mws finalHandler depth caller ctx = nextWrapper mws finalHandler depth' caller ctx := by
  induction depth generalizing depth' caller ctx with
  | zero =>
    have outside : mws[ctx.currentMwNode]? = none := getElem?_eq_none (by omega)
    unfold nextWrapper
    rw [outside]
  | succ depth ih =>
    cases here : mws[ctx.currentMwNode]? with
    | none =>
      unfold nextWrapper
      rw [here]
    | some mw =>
      have inside := (List.getElem?_eq_some_iff.mp here).1
      obtain ⟨depth', rfl⟩ : ∃ d, depth' = d + 1 := ⟨depth' - 1, by omega⟩
      unfold nextWrapper
      rw [here]
      refine foldl_act_congr (P := fun after => ctx.currentMwNode + 1 ≤ after.currentMwNode) ?_ ?_ ?_ mw le_rfl
      · exact fun after moved => ih (by omega) (by omega)
      · exact fun after moved => moved.trans (nextWrapper_current _ _ after)
      · exact fun after f moved => moved

lemma mwNextWrapper_none (outside : mws[ctx.currentMwNode]? = none) :
    mwNextWrapper mws finalHandler caller ctx = finish finalHandler caller ctx := by
  unfold mwNextWrapper nextWrapper
  rw [outside]

lemma mwNextWrapper_some {mw : Middleware ρ} (here : mws[ctx.currentMwNode]? = some mw) :
    mwNextWrapper mws finalHandler caller ctx =
      mw.foldl (act (mwNextWrapper mws finalHandler (some ctx.currentMwNode))) (advance caller ctx) := by
  have inside := (List.getElem?_eq_some_iff.mp here).1
  obtain ⟨depth, deep⟩ : ∃ d, mws.length - ctx.currentMwNode = d + 1 := ⟨mws.length - ctx.currentMwNode - 1, by omega⟩
  rw [mwNextWrapper, deep]
  unfold nextWrapper
  rw [here]
  refine foldl_act_congr (P := fun after => ctx.currentMwNode + 1 ≤ after.currentMwNode) ?_ ?_ ?_ mw le_rfl
  · exact fun after moved => nextWrapper_depth (by omega) le_rfl
  · exact fun after moved => moved.trans (nextWrapper_current _ _ after)
  · exact fun after f moved => moved

end Depth

def entered (log : List ChainEvent) : List Nat :=
  log.filterMap fun
    | .enter mw _ => some mw
    | .handler _ => none

/-- The cursor and the log are those of `ctx`. -/
def Same (after ctx : ExecutorCtx ρ) : Prop := after.currentMwNode = ctx.currentMwNode ∧ after.log = ctx.log

/-- From `ctx` to `after` the middlewares between the two cursors have been entered, one after another, and the handler only if
none is left. -/
def Leads (n : Nat) (ctx after : ExecutorCtx ρ) : Prop :=
  ∃ new, after.log = ctx.log ++ new ∧ ctx.currentMwNode ≤ after.currentMwNode ∧
    entered new = range' ctx.currentMwNode (after.currentMwNode - ctx.currentMwNode) ∧
    (∀ caller, ChainEvent.handler caller ∈ new → n ≤ after.currentMwNode) ∧
    (ctx.currentMwNode ≤ n → after.currentMwNode ≤ n)

section Entered
variable {n : Nat} {after last : ExecutorCtx ρ} {mw : Middleware ρ} {new : List ChainEvent} {i : Nat} {k : Nat}

lemma Leads.of_same (same : Same after ctx) : Leads n ctx after := by
  refine ⟨[], by rw [same.2, append_nil], same.1.ge, ?_, ?_, fun bound => same.1.le.trans bound⟩
  · rw [same.1, Nat.sub_self]
    rfl
  · intro caller member
    cases member

lemma Leads.trans (first : Leads n ctx after) (second : Leads n after last) : Leads n ctx last := by
  obtain ⟨new, log, moved, consecutive, handled, bound⟩ := first
  obtain ⟨new', log', moved', consecutive', handled', bound'⟩ := second
  refine ⟨new ++ new', ?_, moved.trans moved', ?_, ?_, fun start => bound' (bound start)⟩
  · rw [log', log, append_assoc]
  · rw [entered, filterMap_append]
    change entered new ++ entered new' = _
    have middle : after.currentMwNode = ctx.currentMwNode + (after.currentMwNode - ctx.currentMwNode) := by omega
    have total : last.currentMwNode - ctx.currentMwNode =
        (after.currentMwNode - ctx.currentMwNode) + (last.currentMwNode - after.currentMwNode) := by omega
    rw [consecutive, consecutive', total, ← range'_append_1, ← middle]
  · intro caller member
    rcases mem_append.mp member with early | late
    · exact (handled caller early).trans moved'
    · exact handled' caller late

lemma leads_advance (inside : ctx.currentMwNode < n) : Leads n ctx (advance caller ctx) := by
  refine ⟨[.enter ctx.currentMwNode caller], rfl, Nat.le_succ _, ?_, ?_, fun _ => inside⟩
  · rw [advance, Nat.add_sub_cancel_left]
    rfl
  · intro caller' member
    rw [mem_singleton] at member
    cases member

lemma leads_finish (outside : n ≤ ctx.currentMwNode) : Leads n ctx (finish finalHandler caller ctx) := by
  cases finalHandler with
  | none => exact .of_same ⟨rfl, rfl⟩
  | some handler =>
    refine ⟨[.handler caller], rfl, le_rfl, ?_, fun _ _ => outside, id⟩
    rw [finish, Nat.sub_self]
    rfl

lemma mwNextWrapper_induction {P : Caller → ExecutorCtx ρ → ExecutorCtx ρ → Prop}
    (end_ : ∀ caller ctx, mws.length ≤ ctx.currentMwNode → P caller ctx (finish finalHandler caller ctx))
    (enter : ∀ caller ctx mw, mws[ctx.currentMwNode]? = some mw →
      (∀ caller' after, ctx.currentMwNode < after.currentMwNode →
        P caller' after (mwNextWrapper mws finalHandler caller' after)) →
      P caller ctx (mw.foldl (act (mwNextWrapper mws finalHandler (some ctx.currentMwNode))) (advance caller ctx)))
    (caller : Caller) (ctx : ExecutorCtx ρ) : P caller ctx (mwNextWrapper mws finalHandler caller ctx) := by
  induction left : mws.length - ctx.currentMwNode using Nat.strong_induction_on generalizing caller ctx with
  | _ left ih =>
    cases here : mws[ctx.currentMwNode]? with
    | none =>
      rw [mwNextWrapper_none here]
      exact end_ caller ctx (getElem?_eq_none_iff.mp here)
    | some mw =>
      have inside := (List.getElem?_eq_some_iff.mp here).1
      rw [mwNextWrapper_some here]
      exact enter caller ctx mw here fun caller' after moved => ih _ (by omega) caller' after rfl

lemma mwNextWrapper_leads (mws : List (Middleware ρ)) (finalHandler : Option (ρ → ρ)) (caller : Caller) (ctx : ExecutorCtx ρ) :
    Leads mws.length ctx (mwNextWrapper mws finalHandler caller ctx) := by
  induction caller, ctx using mwNextWrapper_induction with
  | end_ caller ctx outside => exact leads_finish outside
  | enter caller ctx mw here ih =>
    have inside := (List.getElem?_eq_some_iff.mp here).1
    refine (foldl_act_invariant
      (P := fun after => ctx.currentMwNode < after.currentMwNode ∧ Leads mws.length ctx after) ?_ ?_ mw
      ⟨Nat.lt_succ_self _, leads_advance inside⟩).2
    · rintro after ⟨moved, leads⟩
      have further := ih (some ctx.currentMwNode) after moved
      have moved' := further.choose_spec.2.1
      exact ⟨moved.trans_le moved', leads.trans further⟩
    · rintro after f ⟨moved, leads⟩
      exact ⟨moved, leads.trans (.of_same ⟨rfl, rfl⟩)⟩

lemma foldl_act_cases (call : ExecutorCtx ρ → ExecutorCtx ρ) (mw : Middleware ρ) (ctx : ExecutorCtx ρ) :
    mw.calls = 0 ∧ Same (mw.foldl (act call) ctx) ctx ∨
      ∃ before mw', Same before ctx ∧ mw.calls = Middleware.calls mw' + 1 ∧
        mw.foldl (act call) ctx = mw'.foldl (act call) (call before) := by
  induction mw generalizing ctx with
  | nil => exact .inl ⟨rfl, rfl, rfl⟩
  | cons a mw ih =>
    cases a with
    | next => exact .inr ⟨ctx, mw, ⟨rfl, rfl⟩, countP_cons_of_pos rfl, rfl⟩
    | write f => exact ih { ctx with response := f ctx.response }

def callsAt (mws : List (Middleware ρ)) (i : Nat) : Nat := (mws[i]?.getD []).calls

lemma callsAt_eq (here : mws[i]? = some mw) : callsAt mws i = mw.calls := by
  rw [callsAt, here]
  rfl

/-- Whatever the rest of a middleware does, the log keeps what it has. -/
lemma mem_log_foldl {e : ChainEvent} (member : e ∈ ctx.log) :
    e ∈ (mw.foldl (act (mwNextWrapper mws finalHandler caller)) ctx).log := by
  refine foldl_act_invariant (P := fun after => e ∈ after.log) ?_ (fun _ _ member' => member') mw member
  intro after member'
  obtain ⟨new, extended, -⟩ := mwNextWrapper_leads mws finalHandler caller after
  rw [extended]
  exact mem_append_left _ member'

lemma mwNextWrapper_stops (finalHandler : Option (ρ → ρ)) (caller : Caller) (ctx : ExecutorCtx ρ)
    (inside : ctx.currentMwNode < mws.length) :
    let after := mwNextWrapper mws finalHandler caller ctx
    ctx.currentMwNode < after.currentMwNode ∧
      (after.currentMwNode < mws.length → callsAt mws (after.currentMwNode - 1) = 0) := by
  induction caller, ctx using mwNextWrapper_induction with
  | end_ caller ctx outside => omega
  | enter caller ctx mw here ih =>
    have own := callsAt_eq here
    rcases foldl_act_cases (mwNextWrapper mws finalHandler (some ctx.currentMwNode)) mw (advance caller ctx) with
      ⟨none_, same⟩ | ⟨before, mw', same, -, folded⟩
    · have moved : (advance caller ctx).currentMwNode = ctx.currentMwNode + 1 := rfl
      simp only [same.1, moved]
      exact ⟨Nat.lt_succ_self _, fun _ => own.trans none_⟩
    simp only [folded]
    have start : before.currentMwNode = ctx.currentMwNode + 1 := same.1
    refine foldl_act_invariant
      (P := fun after => ctx.currentMwNode < after.currentMwNode ∧
        (after.currentMwNode < mws.length → callsAt mws (after.currentMwNode - 1) = 0)) ?_ ?_ mw' ?_
    · rintro after ⟨moved, stopped⟩
      by_cases more : after.currentMwNode < mws.length
      · obtain ⟨moved', stopped'⟩ := ih (some ctx.currentMwNode) after moved more
        exact ⟨moved.trans moved', stopped'⟩
      · obtain ⟨-, -, moved', -⟩ := mwNextWrapper_leads mws finalHandler
          (some ctx.currentMwNode) after
        exact ⟨moved.trans_le moved', fun less => by omega⟩
    · exact fun after f kept => kept
    by_cases more : before.currentMwNode < mws.length
    · obtain ⟨moved', stopped'⟩ := ih (some ctx.currentMwNode) before (by omega) more
      exact ⟨by omega, stopped'⟩
    · obtain ⟨-, -, moved', -⟩ := mwNextWrapper_leads mws finalHandler
        (some ctx.currentMwNode) before
      exact ⟨by omega, fun less => by omega⟩

/-- From the place `k` on, a middleware before the last that is reached calls at most once. -/
def OnceFrom (mws : List (Middleware ρ)) (k : Nat) : Prop :=
  ∀ i, k ≤ i → i + 1 < mws.length → (∀ j, k ≤ j → j < i → 1 ≤ callsAt mws j) → callsAt mws i ≤ 1

lemma OnceFrom.succ (once : OnceFrom mws k) (called : 1 ≤ callsAt mws k) : OnceFrom mws (k + 1) := by
  intro i low high reached
  refine once i (by omega) high fun j low' high' => ?_
  by_cases here : j = k
  · exact here ▸ called
  · exact reached j (by omega) high'

/-- What may happen from the place `k` on. -/
def KeptFrom (mws : List (Middleware ρ)) (k : Nat) (caller : Caller) (new : List ChainEvent) : Prop :=
  (∀ caller', .handler caller' ∈ new → caller' = if k = mws.length then caller else some (mws.length - 1)) ∧
    ∀ i, k ≤ i → i < mws.length → callsAt mws i = 0 →
      (∀ j caller', .enter j caller' ∈ new → j ≤ i) ∧ ∀ caller', .handler caller' ∉ new

lemma keptFrom_enter : KeptFrom mws k caller [.enter k caller] := by
  constructor
  · intro caller' member
    simp at member
  intro i low _ _
  refine ⟨fun j caller' member => ?_, fun caller' member => by simp at member⟩
  simp only [mem_singleton, ChainEvent.enter.injEq] at member
  omega

lemma mwNextWrapper_last (here : mws[ctx.currentMwNode]? = some mw) (last : ctx.currentMwNode + 1 = mws.length)
    (log : (mwNextWrapper mws finalHandler caller ctx).log = ctx.log ++ new) :
    KeptFrom mws ctx.currentMwNode caller new := by
  rw [mwNextWrapper_some here] at log
  have inside : ctx.currentMwNode < mws.length := by omega
  rcases foldl_act_cases (mwNextWrapper mws finalHandler (some ctx.currentMwNode)) mw (advance caller ctx) with
    ⟨-, same⟩ | ⟨_, _, -, called, -⟩
  · rw [same.2] at log
    rw [← append_cancel_left log]
    exact keptFrom_enter
  have own := callsAt_eq here
  let AtEnd (after : ExecutorCtx ρ) : Prop := after.currentMwNode = mws.length ∧
    ∃ handlers, after.log = (advance caller ctx).log ++ handlers ∧
      ∀ e ∈ handlers, e = .handler (some ctx.currentMwNode)
  have calls : ∀ after : ExecutorCtx ρ, AtEnd after →
      AtEnd (mwNextWrapper mws finalHandler (some ctx.currentMwNode) after) := by
    rintro after ⟨atEnd, handlers, extended, all⟩
    rw [mwNextWrapper_none (getElem?_eq_none atEnd.ge)]
    cases finalHandler with
    | none => exact ⟨atEnd, handlers, extended, all⟩
    | some handler =>
      refine ⟨atEnd, handlers ++ [.handler (some ctx.currentMwNode)], ?_, ?_⟩
      · rw [finish, extended, append_assoc]
      intro e member
      rcases mem_append.mp member with early | here
      · exact all e early
      · exact mem_singleton.mp here
  have start : AtEnd (advance caller ctx) := ⟨last, [], by simp, by simp⟩
  obtain ⟨-, handlers, extended, all⟩ := foldl_act_invariant calls (fun after f kept => kept) mw start
  rw [extended, advance, append_assoc] at log
  rw [← append_cancel_left log]
  constructor
  · intro caller' member
    rcases mem_append.mp member with first | later
    · simp at first
    cases all _ later
    rw [if_neg (by omega)]
    congr 1
    omega
  · intro i low high none_
    have same : i = ctx.currentMwNode := by omega
    rw [same, own, called] at none_
    cases none_

lemma mwNextWrapper_kept (caller : Caller) (ctx : ExecutorCtx ρ)
    (bound : ctx.currentMwNode ≤ mws.length) (once : OnceFrom mws ctx.currentMwNode)
    (log : (mwNextWrapper mws finalHandler caller ctx).log = ctx.log ++ new) :
    KeptFrom mws ctx.currentMwNode caller new := by
  induction left : mws.length - ctx.currentMwNode generalizing caller ctx new with
  | zero =>
    have atEnd : ctx.currentMwNode = mws.length := by omega
    rw [mwNextWrapper_none (getElem?_eq_none atEnd.ge)] at log
    refine ⟨fun caller' member => ?_, fun i low high => by omega⟩
    rw [if_pos atEnd]
    cases finalHandler with
    | none =>
      rw [← append_cancel_left ((append_nil _).trans log)] at member
      cases member
    | some handler =>
      rw [← append_cancel_left log, mem_singleton] at member
      cases member
      rfl
  | succ left ih =>
    have inside : ctx.currentMwNode < mws.length := by omega
    obtain ⟨mw, here⟩ : ∃ mw, mws[ctx.currentMwNode]? = some mw := ⟨_, getElem?_eq_getElem inside⟩
    by_cases last : ctx.currentMwNode + 1 = mws.length
    · exact mwNextWrapper_last here last log
    have own := callsAt_eq here
    have few := once ctx.currentMwNode le_rfl (by omega) (fun j low high => by omega)
    rw [mwNextWrapper_some here] at log
    rcases foldl_act_cases (mwNextWrapper mws finalHandler (some ctx.currentMwNode)) mw (advance caller ctx) with
      ⟨-, same⟩ | ⟨before, mw', same, called, folded⟩
    · rw [same.2] at log
      rw [← append_cancel_left log]
      exact keptFrom_enter
    -- The one call: what follows it in the middleware enters nothing.
    · have place : before.currentMwNode = ctx.currentMwNode + 1 := same.1
      obtain ⟨-, same'⟩ | ⟨_, _, -, more, -⟩ := foldl_act_cases (mwNextWrapper mws finalHandler (some ctx.currentMwNode)) mw'
        (mwNextWrapper mws finalHandler (some ctx.currentMwNode) before)
      · obtain ⟨new', nested, -⟩ := mwNextWrapper_leads mws finalHandler
          (some ctx.currentMwNode) before
        have kept := ih (some ctx.currentMwNode) before (by omega) (place ▸ once.succ (by omega)) nested (by omega)
        rw [folded, same'.2, nested, same.2, advance, append_assoc] at log
        rw [← append_cancel_left log]
        rw [place] at kept
        refine ⟨fun caller' member => ?_, fun i low high none_ => ?_⟩
        · rcases mem_append.mp member with first | later
          · simp at first
          · rw [kept.1 caller' later, if_neg last, if_neg (by omega)]
        have later : ctx.currentMwNode ≠ i := by
          rintro rfl
          omega
        obtain ⟨behind, none_'⟩ := kept.2 i (by omega) high none_
        refine ⟨fun j caller' member => ?_, fun caller' member => ?_⟩
        · rcases mem_append.mp member with first | nested'
          · simp only [mem_singleton, ChainEvent.enter.injEq] at first
            omega
          · exact behind j caller' nested'
        · rcases mem_append.mp member with first | nested'
          · simp at first
          · exact none_' caller' nested'
      · omega

lemma mwNextWrapper_passes (handler : ρ → ρ) (caller : Caller) (ctx : ExecutorCtx ρ)
    (low : ctx.currentMwNode ≤ i) (high : i + 1 < mws.length) (twice : 2 ≤ callsAt mws i)
    (once : ∀ j, ctx.currentMwNode ≤ j → j < i → callsAt mws j = 1) :
    ∃ e ∈ (mwNextWrapper mws (some handler) caller ctx).log, e = .handler (some i) ∨
      ∃ j, e = .enter j (some i) ∧ i + 1 < j ∧ j < mws.length ∧ callsAt mws (j - 1) = 0 := by
  induction left : i - ctx.currentMwNode generalizing caller ctx with
  | zero =>
    obtain rfl : ctx.currentMwNode = i := by omega
    obtain ⟨mw, here⟩ : ∃ mw, mws[ctx.currentMwNode]? = some mw := ⟨_, getElem?_eq_getElem (by omega)⟩
    have own := callsAt_eq here
    rw [mwNextWrapper_some here]
    obtain ⟨none_, -⟩ | ⟨before, mw', same, called, folded⟩ :=
      foldl_act_cases (mwNextWrapper mws (some handler) (some ctx.currentMwNode)) mw (advance caller ctx)
    · omega
    obtain ⟨none_, -⟩ | ⟨between, mw'', same', called', folded'⟩ :=
      foldl_act_cases (mwNextWrapper mws (some handler) (some ctx.currentMwNode)) mw'
        (mwNextWrapper mws (some handler) (some ctx.currentMwNode) before)
    · omega
    have place : before.currentMwNode = ctx.currentMwNode + 1 := same.1
    obtain ⟨moved, stopped⟩ := mwNextWrapper_stops (some handler) (some ctx.currentMwNode) before
      (by omega : before.currentMwNode < mws.length)
    rw [← same'.1] at moved stopped
    have kept : ∀ e ∈ (mwNextWrapper mws (some handler) (some ctx.currentMwNode) between).log,
        e ∈ (mw.foldl (act (mwNextWrapper mws (some handler) (some ctx.currentMwNode))) (advance caller ctx)).log := by
      intro e member
      rw [folded, folded']
      exact mem_log_foldl member
    by_cases more : between.currentMwNode < mws.length
    · obtain ⟨mw₂, here₂⟩ : ∃ mw, mws[between.currentMwNode]? = some mw := ⟨_, getElem?_eq_getElem more⟩
      refine ⟨.enter between.currentMwNode (some ctx.currentMwNode), kept _ ?_, .inr ⟨_, rfl, by omega, more, stopped more⟩⟩
      rw [mwNextWrapper_some here₂]
      exact mem_log_foldl (by simp [advance])
    · refine ⟨.handler (some ctx.currentMwNode), kept _ ?_, .inl rfl⟩
      rw [mwNextWrapper_none (getElem?_eq_none (by omega))]
      simp [finish]
  | succ left ih =>
    obtain ⟨mw, here⟩ : ∃ mw, mws[ctx.currentMwNode]? = some mw := ⟨_, getElem?_eq_getElem (by omega)⟩
    have own := callsAt_eq here
    have called₁ := once ctx.currentMwNode le_rfl (by omega)
    rw [mwNextWrapper_some here]
    obtain ⟨none_, -⟩ | ⟨before, mw', same, called, folded⟩ :=
      foldl_act_cases (mwNextWrapper mws (some handler) (some ctx.currentMwNode)) mw (advance caller ctx)
    · omega
    obtain ⟨-, same'⟩ | ⟨_, _, -, called', -⟩ :=
      foldl_act_cases (mwNextWrapper mws (some handler) (some ctx.currentMwNode)) mw'
        (mwNextWrapper mws (some handler) (some ctx.currentMwNode) before)
    · have place : before.currentMwNode = ctx.currentMwNode + 1 := same.1
      rw [folded, same'.2]
      exact ih (some ctx.currentMwNode) before (by omega) (fun j low' high' => once j (by omega) high') (by omega)
    · omega

end Entered

def lastOf (mws : List (Middleware ρ)) : Caller := if mws.isEmpty then none else some (mws.length - 1)

/-- Middlewares are entered in the order of the list, the handler through the last one, and nothing behind one that does not
call `next`. -/
structure Guarded (mws : List (Middleware ρ)) (log : List ChainEvent) : Prop where
  order : ∃ k ≤ mws.length, entered log = range k
  handler : ∀ caller, .handler caller ∈ log → caller = lastOf mws
  stops : ∀ i, i < mws.length → callsAt mws i = 0 →
    (∀ j caller, .enter j caller ∈ log → j ≤ i) ∧ ∀ caller, .handler caller ∉ log

lemma executeChain_eq (mws : List (Middleware ρ)) (finalHandler : Option (ρ → ρ)) (response : ρ) :
    executeChain mws finalHandler response = mwNextWrapper mws finalHandler none ⟨0, response, []⟩ := by
  cases mws with
  | nil => rfl
  | cons mw mws => rfl

/-- The chain is a guard exactly when no middleware but the last, of those that are reached, calls `next` twice. -/
theorem chain_guarded_iff (mws : List (Middleware ρ)) (handler : ρ → ρ) (response : ρ) :
    Guarded mws (executeChain mws (some handler) response).log ↔
      ∀ i, i + 1 < mws.length → (∀ j < i, 1 ≤ callsAt mws j) → callsAt mws i ≤ 1 := by
  rw [executeChain_eq]
  constructor
  · rintro ⟨-, onlyLast, stops⟩ i
    induction i using Nat.strong_induction_on with
    | _ i ih =>
      intro high reached
      by_contra many
      have once : ∀ j, 0 ≤ j → j < i → callsAt mws j = 1 := by
        intro j _ less
        have few := ih j less (by omega) fun k less' => reached k (by omega)
        have some_ := reached j less
        omega
      obtain ⟨e, member, rfl | ⟨j, rfl, past, inside, quiet⟩⟩ :=
        mwNextWrapper_passes handler none ⟨0, response, []⟩ (Nat.zero_le i) high (by omega) once
      · have last := onlyLast _ member
        rw [lastOf, if_neg (by cases mws <;> simp at high ⊢)] at last
        cases last
        omega
      · have behind := (stops (j - 1) (by omega) quiet).1 _ _ member
        omega
  · intro condition
    obtain ⟨new, log, -, consecutive, -, bound⟩ := mwNextWrapper_leads mws (some handler) none
      ⟨0, response, []⟩
    have once : OnceFrom mws 0 := fun i _ high reached => condition i high fun j less => reached j (Nat.zero_le j) less
    obtain ⟨onlyLast, stops⟩ := mwNextWrapper_kept none ⟨0, response, []⟩ (Nat.zero_le _) once log
    rw [log]
    refine ⟨⟨_, bound (Nat.zero_le _), ?_⟩, fun caller member => ?_, fun i high quiet => stops i (Nat.zero_le i) high quiet⟩
    · rw [range_eq_range']
      exact consecutive
    · rw [onlyLast caller member]
      cases mws <;> rfl

/-- A guard that does not call `next` is passed when the middleware before it calls twice. -/
theorem twice_called_guard_passed : ¬Guarded (ρ := Unit) [[.next, .next], []] (executeChain [[.next, .next], []] (some id) ()).log := by
  intro guarded
  have blocked := (guarded.stops 1 (by decide) rfl).2 (some 0)
  revert blocked
  decide

end Chain

end Cwist.App
