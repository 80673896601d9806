import Cwist.Ws.Frame

/-!
# Parked writes

The write side of `websocket_async.c`: a frame is linked behind the frames that wait, and the socket takes what it takes.
-/

namespace Cwist.Ws
open List

def Opcode.toNibble : Opcode → UInt8
  | continuation => 0x0
  | text => 0x1
  | binary => 0x2
  | close => 0x8
  | ping => 0x9
  | pong => 0xA

def serializeFrame (opcode : Opcode) (data : Bytes) : Bytes :=
  let len := data.length
  let size :=
    if len < 126 then [UInt8.ofNat len]
    else if len < 65536 then [126, UInt8.ofNat (len / 2 ^ 8), UInt8.ofNat len]
    else 127 :: (List.range 8).map fun i => UInt8.ofNat (len / 2 ^ ((7 - i) * 8))
  (0x80 ||| opcode.toNibble) :: size ++ data

/-- What `send` answers. A count is cut to what there is to write. -/
inductive Answer where
  | wrote (n : Nat)
  | interrupted
  | wouldBlock
  | failed
  deriving DecidableEq

structure ParkNode where
  buf : Bytes
  off : Nat
  deriving DecidableEq

def ParkNode.unsent (node : ParkNode) : Bytes := node.buf.drop node.off

/-- The write side of a connection. `wire` is what the socket has taken, `queued` are the frames that were linked and
`accepted` those of the calls that returned 0. -/
structure Writer where
  nodes : List ParkNode := []
  parkedBytes : Nat := 0
  writeArmed : Bool := false
  closing : Bool := false
  gone : Bool := false
  wire : Bytes := []
  queued : List Bytes := []
  accepted : List Bytes := []
  deriving DecidableEq

inductive Drained where
  | empty | blocked | failed
  deriving DecidableEq

inductive Queued where
  | ok | full | error
  deriving DecidableEq

namespace Writer

def unsent (w : Writer) : Bytes := (w.nodes.map ParkNode.unsent).flatten

def took (w : Writer) (node : ParkNode) (rest : List ParkNode) (n : Nat) : Writer :=
  { w with
    nodes := if node.off + n = node.buf.length then rest else { node with off := node.off + n } :: rest
    parkedBytes := w.parkedBytes - n
    wire := w.wire ++ node.unsent.take n }

/-- `ws_async_park_drain`, with the answers of the socket; behind them it would block. -/
def parkDrain : List Answer → Writer → Drained × Writer
  | [], w => (if w.nodes = [] then .empty else .blocked, w)
  | answer :: answers, w =>
    match w.nodes with
    | [] => (.empty, w)
    | node :: rest =>
      match answer with
      | .wrote n =>
        let n := min n (node.buf.length - node.off)
        if n = 0 then (.failed, w) else parkDrain answers (w.took node rest n)
      | .interrupted => parkDrain answers w
      | .wouldBlock => (.blocked, w)
      | .failed => (.failed, w)

def link (w : Writer) (frame : Bytes) : Writer :=
  { w with nodes := w.nodes ++ [⟨frame, 0⟩], parkedBytes := w.parkedBytes + frame.length, queued := w.queued ++ [frame] }

/-- `ws_async_queue_frame`; `armed` says whether the reactor takes a write slot. -/
def queueFrame (limit : Nat) (answers : List Answer) (armed : Bool) (opcode : Opcode) (data : Bytes) (w : Writer) :
    Queued × Writer :=
  if !sendArgsValid opcode data.length then (.error, w)
  else
    let frame := serializeFrame opcode data
    if frame.length > limit ∨ w.parkedBytes > limit - frame.length then (.full, w)
    else
      match parkDrain answers (w.link frame) with
      | (.failed, w) => (.error, w)
      | (.empty, w) => (.ok, w)
      | (.blocked, w) => if w.writeArmed then (.ok, w) else if armed then (.ok, { w with writeArmed := true }) else (.error, w)

def teardown (w : Writer) : Writer := { w with nodes := [], parkedBytes := 0, gone := true }

def terminate (readArmed : Bool) (w : Writer) : Writer :=
  if readArmed ∨ w.nodes ≠ [] then { w with closing := true } else w.teardown

/-- What else `ws_async_write_ready` looks at: idle reaping, the park deadline, the reactor, a pending termination or a
read slot that cannot be armed, and whether a read slot is armed. -/
structure Turn where
  reaped : Bool
  inTime : Bool
  armed : Bool
  ends : Bool
  readArmed : Bool
  deriving DecidableEq

def writeReady (answers : List Answer) (turn : Turn) (w : Writer) : Writer :=
  let w := { w with writeArmed := false }
  if w.closing then w.teardown
  else if turn.reaped then w.terminate turn.readArmed
  else
    match parkDrain answers w with
    | (.blocked, w) => if turn.inTime ∧ turn.armed then { w with writeArmed := true } else w.terminate turn.readArmed
    | (.failed, w) => w.terminate turn.readArmed
    | (.empty, w) => if turn.ends then w.terminate turn.readArmed else w

end Writer

inductive WriteEvent where
  | send (opcode : Opcode) (data : Bytes) (answers : List Answer) (armed : Bool)
  | writeReady (answers : List Answer) (turn : Writer.Turn)

namespace Writer

def step (limit : Nat) (w : Writer) : WriteEvent → Writer
  | .send opcode data answers armed =>
    if w.gone then w
    else
      match w.queueFrame limit answers armed opcode data with
      | (.ok, w) => { w with accepted := w.accepted ++ [serializeFrame opcode data] }
      | (_, w) => w
  | .writeReady answers turn => if w.gone then w else w.writeReady answers turn

def run (limit : Nat) (events : List WriteEvent) : Writer := events.foldl (step limit) {}

end Writer

/-- The socket takes octets or would block, and the reactor takes its slot. -/
def Answer.Short : Answer → Prop
  | .wrote n => 0 < n
  | .interrupted | .wouldBlock => True
  | .failed => False

def WriteEvent.Short : WriteEvent → Prop
  | .send _ _ answers armed => (∀ a ∈ answers, a.Short) ∧ armed = true
  | .writeReady .. => True

namespace Writer

variable {w u v : Writer} {limit n : Nat} {answers : List Answer}

/-- What holds of a connection that is there: nothing is lost, and the counter counts. -/
structure Holds (limit : Nat) (w : Writer) : Prop where
  conserved : w.wire ++ w.unsent = w.queued.flatten
  counted : w.parkedBytes = w.unsent.length
  within : w.parkedBytes ≤ limit
  unfinished : ∀ node ∈ w.nodes, node.off < node.buf.length

lemma took_holds {node : ParkNode} {rest : List ParkNode} (holds : w.Holds limit) (nodes : w.nodes = node :: rest)
    (fits : n ≤ node.buf.length - node.off) : (w.took node rest n).Holds limit := by
  obtain ⟨conserved, counted, within, unfinished⟩ := holds
  have started := unfinished node (by rw [nodes]; exact mem_cons_self)
  have others : ∀ other ∈ rest, other.off < other.buf.length := fun other member =>
    unfinished other (by rw [nodes]; exact mem_cons_of_mem _ member)
  have size : node.unsent.length = node.buf.length - node.off := length_drop
  have left : (w.took node rest n).unsent = node.unsent.drop n ++ (rest.map ParkNode.unsent).flatten := by
    unfold took unsent
    dsimp only
    split
    next finished => rw [drop_of_length_le (by omega), nil_append]
    · rw [map_cons, flatten_cons, ParkNode.unsent, ParkNode.unsent, drop_drop]
  have before : w.unsent = node.unsent ++ (rest.map ParkNode.unsent).flatten := by
    rw [unsent, nodes, map_cons, flatten_cons]
  refine ⟨?_, ?_, (Nat.sub_le _ _).trans within, ?_⟩
  · rw [left]
    show w.wire ++ node.unsent.take n ++ _ = w.queued.flatten
    rw [← conserved, before, append_assoc, ← append_assoc (node.unsent.take n), take_append_drop]
  · rw [left]
    show w.parkedBytes - n = _
    rw [counted, before, length_append, length_append, length_drop]
    omega
  · show ∀ other ∈ (if node.off + n = node.buf.length then rest else _), _
    split
    · exact others
    next more =>
      intro other member
      rcases mem_cons.mp member with rfl | later
      · show node.off + n < node.buf.length
        omega
      · exact others other later

structure Drains (limit : Nat) (w w' : Writer) : Prop where
  holds : w'.Holds limit
  queued : w'.queued = w.queued
  accepted : w'.accepted = w.accepted
  gone : w'.gone = w.gone

lemma parkDrain_drains (holds : w.Holds limit) : Drains limit w (parkDrain answers w).2 := by
  have stays : Drains limit w w := ⟨holds, rfl, rfl, rfl⟩
  induction answers generalizing w with
  | nil => exact stays
  | cons answer answers ih =>
    unfold parkDrain
    split
    · exact stays
    rename_i node rest nodes
    cases answer with
    | wrote n =>
      have took := took_holds holds nodes (min_le_right n _)
      dsimp only
      split
      · exact stays
      · obtain ⟨after, queued, accepted, gone⟩ := ih took ⟨took, rfl, rfl, rfl⟩
        exact ⟨after, queued, accepted, gone⟩
    | interrupted => exact ih holds stays
    | wouldBlock => exact stays
    | failed => exact stays

lemma parkDrain_short (short : ∀ a ∈ answers, a.Short) (holds : w.Holds limit) : (parkDrain answers w).1 ≠ .failed := by
  induction answers generalizing w with
  | nil =>
    unfold parkDrain
    dsimp only
    split <;> nofun
  | cons answer answers ih =>
    have later : ∀ a ∈ answers, a.Short := fun a member => short a (mem_cons_of_mem _ member)
    have now := short answer mem_cons_self
    unfold parkDrain
    split
    · nofun
    rename_i node rest nodes
    cases answer with
    | wrote n =>
      have started := holds.unfinished node (by rw [nodes]; exact mem_cons_self)
      have positive : 0 < n := now
      dsimp only
      rw [if_neg (by omega)]
      exact ih later (took_holds holds nodes (min_le_right n _))
    | interrupted => exact ih later holds
    | wouldBlock => nofun
    | failed => exact now.elim

lemma link_holds {frame : Bytes} (holds : w.Holds limit) (some : frame ≠ [])
    (room : ¬(frame.length > limit ∨ w.parkedBytes > limit - frame.length)) : (w.link frame).Holds limit := by
  have unsent : (w.link frame).unsent = w.unsent ++ frame := by simp [Writer.unsent, link, ParkNode.unsent]
  refine ⟨?_, ?_, ?_, ?_⟩
  · rw [unsent]
    simp [link, ← holds.conserved]
  · rw [unsent, length_append, ← holds.counted]
    rfl
  · show w.parkedBytes + frame.length ≤ limit
    omega
  · intro node member
    rcases mem_append.mp member with old | new
    · exact holds.unfinished node old
    · rw [mem_singleton.mp new]
      exact length_pos_iff.mpr some

/-- A connection that is there, or what is left of one. -/
structure Inv (limit : Nat) (w : Writer) : Prop where
  there : w.gone = false → w.Holds limit
  left : w.gone = true → w.nodes = [] ∧ w.parkedBytes = 0
  sent : w.wire <+: w.queued.flatten

lemma Holds.inv (holds : w.Holds limit) (there : w.gone = false) : w.Inv limit :=
  ⟨fun _ => holds, fun gone => absurd gone (by simp [there]), holds.conserved ▸ prefix_append _ _⟩

lemma Inv.teardown (inv : w.Inv limit) : w.teardown.Inv limit := ⟨nofun, fun _ => ⟨rfl, rfl⟩, inv.sent⟩

/-- What a step keeps when it links no frame. -/
structure Keeps (limit : Nat) (w w' : Writer) : Prop where
  inv : w'.Inv limit
  queued : w'.queued = w.queued
  accepted : w'.accepted = w.accepted

lemma Inv.terminate (inv : w.Inv limit) (readArmed : Bool) : Keeps limit w (w.terminate readArmed) := by
  unfold Writer.terminate
  split
  · exact ⟨⟨fun there => { inv.there there with }, inv.left, inv.sent⟩, rfl, rfl⟩
  · exact ⟨inv.teardown, rfl, rfl⟩

lemma Inv.armed (inv : w.Inv limit) (writeArmed : Bool) : Keeps limit w { w with writeArmed } :=
  ⟨⟨fun there => { inv.there there with }, inv.left, inv.sent⟩, rfl, rfl⟩

lemma Keeps.trans (first : Keeps limit w u) (second : Keeps limit u v) : Keeps limit w v :=
  ⟨second.inv, second.queued.trans first.queued, second.accepted.trans first.accepted⟩

lemma Inv.writeReady (inv : w.Inv limit) (there : w.gone = false) (answers : List Answer) (turn : Turn) :
    Keeps limit w (w.writeReady answers turn) := by
  have idle := inv.armed false
  obtain ⟨holds, queued, accepted, gone⟩ := parkDrain_drains (idle.inv.there there)
  have drained : Keeps limit w (parkDrain answers { w with writeArmed := false }).2 :=
    ⟨holds.inv (gone.trans there), queued, accepted⟩
  unfold Writer.writeReady
  dsimp only
  split
  · exact ⟨idle.inv.teardown, rfl, rfl⟩
  split
  · exact idle.trans (idle.inv.terminate _)
  split <;> rename_i call <;> rw [call] at drained
  · split
    · exact drained.trans (drained.inv.armed true)
    · exact drained.trans (drained.inv.terminate _)
  · exact drained.trans (drained.inv.terminate _)
  · split
    · exact drained.trans (drained.inv.terminate _)
    · exact drained

lemma serializeFrame_ne_nil (opcode : Opcode) (data : Bytes) : serializeFrame opcode data ≠ [] := cons_ne_nil _ _

/-- A call of `ws_async_queue_frame` that returns 0 has linked the frame; with short writes alone no other has. -/
structure Queues (limit : Nat) (w : Writer) (frame : Bytes) (short : Prop) (result : Queued × Writer) : Prop where
  inv : result.2.Inv limit
  accepted : result.2.accepted = w.accepted
  linked : result.1 = .ok → result.2.queued = w.queued ++ [frame]
  refused : short → result.1 ≠ .ok → result.2.queued = w.queued

lemma queueFrame_queues (inv : w.Inv limit) (there : w.gone = false) (answers : List Answer) (armed : Bool) (opcode : Opcode) (data : Bytes) :
    Queues limit w (serializeFrame opcode data) (WriteEvent.send opcode data answers armed).Short
      (w.queueFrame limit answers armed opcode data) := by
  unfold queueFrame
  split
  · exact ⟨inv, rfl, nofun, fun _ _ => rfl⟩
  dsimp only
  split
  · exact ⟨inv, rfl, nofun, fun _ _ => rfl⟩
  rename_i room
  have linked := link_holds (inv.there there) (serializeFrame_ne_nil opcode data) room
  obtain ⟨holds, queued, accepted, gone⟩ := parkDrain_drains linked
  have drained := holds.inv (gone.trans there)
  have unfailing (short : ∀ a ∈ answers, a.Short) := parkDrain_short short linked
  split <;> rename_i call <;> rw [call] at drained queued accepted unfailing
  · exact ⟨drained, accepted, nofun, fun short _ => absurd rfl (unfailing short.1)⟩
  · exact ⟨drained, accepted, fun _ => queued, fun _ other => absurd rfl other⟩
  · split
    · exact ⟨drained, accepted, fun _ => queued, fun _ other => absurd rfl other⟩
    split
    · exact ⟨(drained.armed true).inv, accepted, fun _ => queued, fun _ other => absurd rfl other⟩
    next unarmed => exact ⟨drained, accepted, nofun, fun short _ => absurd short.2 unarmed⟩

lemma step_inv (inv : w.Inv limit) (event : WriteEvent) :
    (w.step limit event).Inv limit ∧ (event.Short → w.accepted = w.queued →
      (w.step limit event).accepted = (w.step limit event).queued) := by
  cases event with simp only [step]
  | send opcode data answers armed =>
    split
    · exact ⟨inv, fun _ same => same⟩
    rename_i there
    have call := queueFrame_queues inv (Bool.eq_false_of_not_eq_true there) answers armed opcode data
    split <;> rename_i result <;> rw [result] at call
    · refine ⟨⟨fun there => { call.inv.there there with }, call.inv.left, call.inv.sent⟩, fun _ same => ?_⟩
      dsimp only
      rw [call.linked rfl, call.accepted, same]
    next refused =>
      refine ⟨call.inv, fun short same => ?_⟩
      rw [call.refused short refused, call.accepted, same]
  | writeReady answers turn =>
    split
    · exact ⟨inv, fun _ same => same⟩
    rename_i there
    have kept := inv.writeReady (Bool.eq_false_of_not_eq_true there) answers turn
    exact ⟨kept.inv, fun _ same => by rw [kept.accepted, kept.queued, same]⟩

lemma steps_inv (inv : w.Inv limit) (events : List WriteEvent) :
    (events.foldl (step limit) w).Inv limit ∧ ((∀ e ∈ events, e.Short) → w.accepted = w.queued →
      (events.foldl (step limit) w).accepted = (events.foldl (step limit) w).queued) := by
  induction events generalizing w with
  | nil => exact ⟨inv, fun _ same => same⟩
  | cons event events ih =>
    obtain ⟨once, returned⟩ := step_inv inv event
    obtain ⟨later, rest⟩ := ih once
    refine ⟨later, fun short same => rest (fun e member => short e (mem_cons_of_mem _ member)) ?_⟩
    exact returned (short event mem_cons_self) same

lemma run_inv (limit : Nat) (events : List WriteEvent) :
    (run limit events).Inv limit ∧ ((∀ e ∈ events, e.Short) → (run limit events).accepted = (run limit events).queued) := by
  obtain ⟨inv, returned⟩ := steps_inv (w := {}) (Holds.inv ⟨rfl, rfl, Nat.zero_le limit, nofun⟩ rfl) events
  exact ⟨inv, fun short => returned short rfl⟩

lemma Inv.counts (inv : w.Inv limit) : w.parkedBytes = w.unsent.length ∧ w.parkedBytes ≤ limit := by
  cases there : w.gone with
  | false => exact ⟨(inv.there there).counted, (inv.there there).within⟩
  | true =>
    obtain ⟨nodes, none⟩ := inv.left there
    rw [none, unsent, nodes]
    exact ⟨rfl, Nat.zero_le _⟩

/-- Over any run of sends and writable events the wire carries the linked frames in order, the queue's counter is what
is unsent, and it stays within the limit. The linked frames are the accepted ones while every arming succeeds and no
send fails. -/
theorem parked_writes_in_order (limit : Nat) (events : List WriteEvent) :
    (run limit events).wire <+: (run limit events).queued.flatten ∧
      ((∀ e ∈ events, e.Short) → (run limit events).wire <+: (run limit events).accepted.flatten) ∧
      (run limit events).parkedBytes = (run limit events).unsent.length ∧ (run limit events).parkedBytes ≤ limit := by
  obtain ⟨inv, returned⟩ := run_inv limit events
  refine ⟨inv.sent, fun short => ?_, inv.counts⟩
  rw [returned short]
  exact inv.sent

/-- Two frames over a socket that takes three octets, blocks, and takes the rest. -/
theorem parked_writes_short :
    (run 20 [.send .text [104, 105] [.wrote 3, .wouldBlock] true, .send .ping [] [.wouldBlock] true,
      .writeReady [.wrote 1, .interrupted, .wrote 1] ⟨false, true, true, false, true⟩]).wire = [0x81, 2, 104, 105, 0x89] ∧
    (run 20 [.send .text [104, 105] [.wrote 3, .wouldBlock] true, .send .ping [] [.wouldBlock] true,
      .writeReady [.wrote 1, .interrupted, .wrote 1] ⟨false, true, true, false, true⟩]).wire <+:
    (run 20 [.send .text [104, 105] [.wrote 3, .wouldBlock] true, .send .ping [] [.wouldBlock] true,
      .writeReady [.wrote 1, .interrupted, .wrote 1] ⟨false, true, true, false, true⟩]).accepted.flatten :=
  ⟨by decide, (parked_writes_in_order 20 _).2.1 (by
    intro e member
    simp only [mem_cons, not_mem_nil, or_false] at member
    rcases member with rfl | rfl | rfl <;> simp [WriteEvent.Short, Answer.Short])⟩

/-- A send whose arming fails returns -1 and leaves its frame linked; the next send writes both. -/
theorem refused_frame_written :
    let w := run 20 [.send .text [104, 105] [.wouldBlock] false, .send .ping [] [.wrote 4, .wrote 2] true]
    w.accepted = [[0x89, 0]] ∧ w.wire = [0x81, 2, 104, 105, 0x89, 0] ∧ ¬w.wire <+: w.accepted.flatten := by
  decide

end Writer

end Cwist.Ws
