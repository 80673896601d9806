import Cwist.Basic

/-!
# GraphQL subscriptions

The operations and the queue of one connection in `graphql_ws.c`: a step is what one thread does under the broker's lock.
-/

namespace Cwist.Graphql
open List

local instance lawfulBytes : LawfulBEq Bytes := inferInstance

/-- A `next` message, with the number of the publication for its payload. -/
structure Next where
  id : Bytes
  field : Bytes
  event : Nat

structure Op where
  id : Bytes
  field : Bytes
  topics : List Bytes

/-- `owing` threads are about to call `gql_ws_post_flush`, `flagged` ones have set the flag there and are about to post;
`posted` nodes wait in the reactor. -/
structure Subscriber where
  ops : List Op := []
  pending : List Next := []
  pendingBytes : Nat := 0
  attached : Bool := false
  dead : Bool := false
  closed : Bool := false
  flushPending : Bool := false
  owing : Nat := 0
  flagged : Nat := 0
  posted : Nat := 0
  events : Nat := 0
  counted : List Next := []
  sent : List Next := []

/-- `resolved` is what the query and the resolver give for a subscribe message, `accepted` how many messages of a flush
the socket takes before a send fails. -/
inductive BrokerStep where
  | publish (topic : Bytes)
  | subscribe (id : Bytes) (resolved : Option (Bytes × List Bytes))
  | complete (id : Bytes)
  | mark
  | post
  | flush (accepted : Nat)
  | attach
  | close
  | dispose

def maxPendingBytes : Nat := 1024 * 1024

namespace Subscriber

section Steps

variable (size : Next → Nat)

def pendingPush (c : Subscriber) (msg : Next) : Subscriber :=
  if size msg > maxPendingBytes ∨ c.pendingBytes > maxPendingBytes - size msg then c
  else { c with pending := c.pending ++ [msg], pendingBytes := c.pendingBytes + size msg, counted := c.counted ++ [msg] }

def pushAll (topic : Bytes) (event : Nat) : List Op → Subscriber → Subscriber
  | [], c => c
  | op :: ops, c => pushAll topic event ops (if topic ∈ op.topics then c.pendingPush size ⟨op.id, op.field, event⟩ else c)

section

variable (c : Subscriber)

def publish (topic : Bytes) : Subscriber :=
  if topic = [] then c
  else
    let after := pushAll size topic c.events c.ops { c with events := c.events + 1 }
    if c.counted.length < after.counted.length then { after with owing := after.owing + 1 } else after

def handleSubscribe (id : Bytes) (resolved : Option (Bytes × List Bytes)) : Subscriber :=
  if id ∈ c.ops.map Op.id then { c with closed := true }
  else
    match resolved with
    | none => c
    | some (field, topics) => { c with ops := ⟨id, field, topics⟩ :: c.ops }

def complete (id : Bytes) : Subscriber :=
  { c with ops := c.ops.eraseP (·.id == id) }

-- The sends come after the lock, but on the thread that the client's messages and closes are on.
def flushCb (accepted : Nat) : Subscriber :=
  if !c.dead && c.attached then
    { c with
      pending := [], pendingBytes := 0, flushPending := false
      closed := c.closed || decide (accepted < c.pending.length)
      sent := c.sent ++ if c.closed then [] else c.pending.take accepted }
  else { c with flushPending := false }

def step : BrokerStep → Subscriber
  | .publish topic => c.publish size topic
  | .subscribe id resolved => c.handleSubscribe id resolved
  | .complete id => c.complete id
  | .mark =>
    if c.owing = 0 then c
    else if c.flushPending then { c with owing := c.owing - 1 }
    else { c with owing := c.owing - 1, flushPending := true, flagged := c.flagged + 1 }
  | .post => if c.flagged = 0 then c else { c with flagged := c.flagged - 1, posted := c.posted + 1 }
  | .flush accepted => if c.posted = 0 then c else { c with posted := c.posted - 1 }.flushCb accepted
  | .attach => { c with attached := true, owing := c.owing + 1 }
  | .close => { c with closed := true }
  | .dispose => { c with dead := true, attached := false, ops := [], pending := [], pendingBytes := 0 }

end

def run (steps : List BrokerStep) : Subscriber := steps.foldl (step size) {}

end Steps

variable {size : Next → Nat} {c : Subscriber}

/-- What a publication adds to the queue it also counts. -/
lemma pushAll_eq (size : Next → Nat) (topic : Bytes) (event : Nat) (ops : List Op) (c : Subscriber) :
    ∃ new pendingBytes, pushAll size topic event ops c =
      { c with pending := c.pending ++ new, pendingBytes, counted := c.counted ++ new } := by
  induction ops generalizing c with
  | nil => exact ⟨[], c.pendingBytes, by simp [pushAll]⟩
  | cons op ops ih =>
    unfold pushAll pendingPush
    split
    · split
      · exact ih c
      · obtain ⟨new, bytes, same⟩ := ih { c with
          pending := c.pending ++ [⟨op.id, op.field, event⟩]
          pendingBytes := c.pendingBytes + size ⟨op.id, op.field, event⟩
          counted := c.counted ++ [⟨op.id, op.field, event⟩] }
        exact ⟨⟨op.id, op.field, event⟩ :: new, bytes, by simp [same]⟩
    · exact ih c

/-- The flag is up while one flush is on its way, and what is queued will be looked at. -/
structure Delivers (c : Subscriber) : Prop where
  sent : (c.sent ++ c.pending).Sublist c.counted
  whole : c.closed = false → c.dead = false → c.sent ++ c.pending = c.counted
  single : c.flagged + c.posted = if c.flushPending then 1 else 0
  woken : c.attached = true → c.dead = false → c.pending ≠ [] → c.flushPending = true ∨ 0 < c.owing

lemma Delivers.publish (inv : c.Delivers) (topic : Bytes) : (c.publish size topic).Delivers := by
  unfold Subscriber.publish
  split
  · exact inv
  obtain ⟨new, bytes, same⟩ := pushAll_eq size topic c.events c.ops { c with events := c.events + 1 }
  have sent : (c.sent ++ (c.pending ++ new)).Sublist (c.counted ++ new) := by
    rw [← append_assoc]
    exact inv.sent.append_right new
  have whole (open_ : c.closed = false) (alive : c.dead = false) : c.sent ++ (c.pending ++ new) = c.counted ++ new := by
    rw [← append_assoc, inv.whole open_ alive]
  dsimp only
  rw [same]
  split
  · exact ⟨sent, whole, inv.single, fun _ _ _ => .inr (Nat.succ_pos _)⟩
  next nothing =>
    have empty : new = [] := by simpa using nothing
    subst empty
    exact ⟨sent, whole, inv.single, fun here alive some => inv.woken here alive (by simpa using some)⟩

lemma Delivers.flush (inv : c.Delivers) (here : c.posted ≠ 0) (accepted : Nat) :
    ({ c with posted := c.posted - 1 }.flushCb accepted).Delivers := by
  have single := inv.single
  have flag : c.flushPending = true := by
    by_contra down
    rw [if_neg down] at single
    omega
  have none_ : c.flagged + (c.posted - 1) = 0 := by
    rw [if_pos flag] at single
    omega
  unfold flushCb
  dsimp only
  split
  next live =>
    have taken : (if c.closed then [] else c.pending.take accepted).Sublist c.pending := by
      split
      · exact nil_sublist _
      · exact take_sublist _ _
    refine ⟨?_, fun open_ alive => ?_, none_, fun _ _ some => absurd rfl some⟩
    · rw [append_nil]
      exact (taken.append_left c.sent).trans inv.sent
    · simp only [Bool.or_eq_false_iff, decide_eq_false_iff_not, not_lt] at open_
      rw [append_nil, if_neg (by simp [open_.1]), take_of_length_le open_.2]
      exact inv.whole open_.1 alive
  next idle =>
    refine ⟨inv.sent, inv.whole, none_, fun (attached : c.attached = true) (alive : c.dead = false) => ?_⟩
    simp [attached, alive] at idle

lemma Delivers.step (inv : c.Delivers) (s : BrokerStep) : (c.step size s).Delivers := by
  cases s with
  | publish topic => exact inv.publish topic
  | subscribe id resolved =>
    simp only [Subscriber.step, handleSubscribe]
    split
    · exact { inv with whole := nofun }
    · split <;> exact { inv with }
  | complete id => exact { inv with }
  | mark =>
    have single := inv.single
    simp only [Subscriber.step]
    split
    · exact inv
    split
    next flag => exact { inv with woken := fun _ _ _ => .inl flag }
    next down =>
      rw [if_neg down] at single
      exact { inv with single := by simp; omega, woken := fun _ _ _ => .inl rfl }
  | post =>
    have single := inv.single
    simp only [Subscriber.step]
    split
    · exact inv
    · exact { inv with single := by dsimp only; omega }
  | flush accepted =>
    simp only [Subscriber.step]
    split
    · exact inv
    next here => exact inv.flush here accepted
  | attach => exact { inv with woken := fun _ _ _ => .inr (Nat.succ_pos _) }
  | close => exact { inv with whole := nofun }
  | dispose =>
    refine { inv with sent := ?_, whole := nofun, woken := nofun }
    exact ((nil_sublist c.pending).append_left c.sent).trans inv.sent

lemma run_delivers (size : Next → Nat) (steps : List BrokerStep) : (run size steps).Delivers := by
  refine foldlRecOn steps (step size) (motive := Delivers) ?_ fun c inv s _ => inv.step s
  exact ⟨Sublist.refl _, fun _ _ => rfl, rfl, nofun⟩

/-- The three steps of a flush empty a queue that is not given up. -/
lemma Delivers.drained (inv : c.Delivers) (here : c.attached = true) (alive : c.dead = false) (open_ : c.closed = false)
    {accepted : Nat} (room : c.pending.length ≤ accepted) :
    ([.mark, .post, .flush accepted].foldl (Subscriber.step size) c).sent = c.counted := by
  have whole := inv.whole open_ alive
  have single := inv.single
  have woken := inv.woken here alive
  have taken := take_of_length_le room
  by_cases flag : c.flushPending = true
  · rw [if_pos flag] at single
    have one : c.flagged = 0 ∧ c.posted = 1 ∨ c.flagged = 1 ∧ c.posted = 0 := by omega
    rcases one with ⟨down, up⟩ | ⟨up, down⟩ <;> by_cases owes : c.owing = 0 <;>
      simp [Subscriber.step, flushCb, flag, up, down, owes, here, alive, open_, taken, whole]
  · rw [if_neg flag] at single
    obtain ⟨none_, idle⟩ : c.flagged = 0 ∧ c.posted = 0 := by omega
    by_cases owes : c.owing = 0
    · have empty : c.pending = [] := by
        by_contra some
        simpa [flag, owes] using woken some
      simpa [Subscriber.step, none_, idle, owes, empty] using whole
    · simp [Subscriber.step, flushCb, flag, none_, idle, owes, here, alive, open_, taken, whole]

/-- Over all interleavings: what is sent is counted, once and in order; while the connection is open nothing counted is
lost, and what waits there is sent by the flush that is on its way. -/
theorem counted_events_delivered (size : Next → Nat) (steps : List BrokerStep) :
    let c := run size steps
    c.sent.Sublist c.counted ∧
      (c.attached = true → c.dead = false → c.pending ≠ [] → 0 < c.posted ∨ 0 < c.flagged ∨ 0 < c.owing) ∧
      (c.closed = false → c.dead = false → c.sent ++ c.pending = c.counted ∧
        (c.attached = true → ∀ accepted, c.pending.length ≤ accepted →
          ([.mark, .post, .flush accepted].foldl (step size) c).sent = c.counted)) := by
  have inv := run_delivers size steps
  refine ⟨(sublist_append_left _ _).trans inv.sent, fun here alive waits => ?_, fun open_ alive =>
    ⟨inv.whole open_ alive, fun here _ room => inv.drained here alive open_ room⟩⟩
  have single := inv.single
  rcases inv.woken here alive waits with flag | owes
  · rw [if_pos flag] at single
    omega
  · exact .inr (.inr owes)

end Subscriber

end Cwist.Graphql
