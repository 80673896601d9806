import Cwist.Redis.Replies

namespace Cwist.Redis
open List

variable {room : Nat → Bool}

/-- A success is reported for a complete reply only: the tree is what the octets that were read mean, with every element. -/
def Reported (before : Conn) (out : Outcome) : Prop :=
  out.error.errI16 = 0 →
    ∃ (w : Wire) (rest : List Arrival), w.WellFormed ∧ before.arrivals = sent w.octets ++ rest ∧ out.conn.arrivals = rest ∧
      out.tree.bind Tree.meaning = some w.reply

lemma commandFrameTree_code (sent : Bool) (conn : Conn) : (commandFrameTree room sent conn).error.errI16 = 0 := by
  unfold commandFrameTree
  split
  · exact readResp_code _ _
  · rfl

/-- `redis_command_frame_tree` reports rightly exactly when there was nothing to report: the frame was sent, a complete reply
within the limits follows, and there is memory for it. -/
theorem command_reported_iff (room : Nat → Bool) (ok : Bool) (conn : Conn) :
    Reported conn (commandFrameTree room ok conn) ↔
      ok = true ∧ ∃ (w : Wire) (rest : List Arrival), w.WellFormed ∧ conn.arrivals = sent w.octets ++ rest ∧
        w.Fits maxReplyDepth ∧ Granted room conn.asked w.asks := by
  obtain ⟨arrivals, asked⟩ := conn
  constructor
  · intro reported
    obtain ⟨w, rest, wellFormed, rfl, -, meaning⟩ := reported (commandFrameTree_code ok _)
    cases ok with
    | false => cases meaning
    | true =>
      have able := (wire_yields maxReplyDepth asked rest w wellFormed).tree.mp meaning
      exact ⟨rfl, w, rest, wellFormed, rfl, able⟩
  · rintro ⟨rfl, w, rest, wellFormed, rfl, able⟩ -
    have yields : Yields (readResp room _ _) _ _ _ := wire_yields maxReplyDepth asked rest w wellFormed
    exact ⟨w, rest, wellFormed, rfl, congrArg Conn.arrivals (yields.conn able), yields.tree.mpr able⟩

/-- After `*1` and the end of the connection the command succeeds, with an array whose element is missing. So it does when the
server sends an empty line, and when nothing was sent. -/
theorem truncated_reply_succeeds :
    ¬Reported ⟨sent (ascii "*1" ++ crlf), 0⟩ (commandFrameTree (fun _ => true) true ⟨sent (ascii "*1" ++ crlf), 0⟩) ∧
    (commandFrameTree (fun _ => true) true ⟨sent (ascii "*1" ++ crlf), 0⟩).error = ⟨0⟩ ∧
    (commandFrameTree (fun _ => true) true ⟨sent (ascii "*1" ++ crlf), 0⟩).tree = some (.node 0x2a none 0 [none]) ∧
    (commandFrameTree (fun _ => true) true ⟨sent crlf, 0⟩).error = ⟨0⟩ ∧
    (commandFrameTree (fun _ => true) false ⟨[], 0⟩).error = ⟨0⟩ := by
  have tree : (commandFrameTree (fun _ => true) true ⟨sent (ascii "*1" ++ crlf), 0⟩).tree =
      some (.node 0x2a none 0 [none]) := by
    rfl
  refine ⟨fun reported => ?_, rfl, tree, rfl, rfl⟩
  obtain ⟨w, rest, -, -, -, meaning⟩ := reported rfl
  rw [tree] at meaning
  simp [Tree.meaning, meaningAll] at meaning

structure Command where
  sent : Bool
  reply : List Arrival

def run (room : Nat → Bool) : List Command → Conn → List Outcome
  | [], _ => []
  | command :: commands, conn =>
    let out := commandFrameTree room command.sent { conn with arrivals := conn.arrivals ++ command.reply }
    out :: run room commands out.conn

def octetsOf (arrivals : List Arrival) : Bytes :=
  arrivals.filterMap fun arrival => match arrival with
    | .octet c => some c
    | .fault => none

def Paired (command : Command) (out : Outcome) : Prop :=
  out.error.errI16 = 0 →
    ∃ w : Wire, w.WellFormed ∧ octetsOf command.reply = w.octets ∧ out.tree.bind Tree.meaning = some w.reply

/-- The frame is sent, and the reply comes whole, is one of the protocol and within the limits. -/
def Answered (command : Command) : Prop :=
  command.sent = true ∧ ∃ w : Wire, w.WellFormed ∧ command.reply = sent w.octets ∧ w.Fits maxReplyDepth

lemma octetsOf_sent (octets : Bytes) : octetsOf (sent octets) = octets := by
  rw [octetsOf, sent, filterMap_map]
  exact filterMap_some

lemma Answered.step {command : Command} (answered : Answered command) (memory : ∀ k, room k = true) (asked : Nat) :
    Paired command (commandFrameTree room command.sent ⟨command.reply, asked⟩) ∧
      (commandFrameTree room command.sent ⟨command.reply, asked⟩).conn.arrivals = [] := by
  obtain ⟨ok, w, wellFormed, reply, fits⟩ := answered
  have able : w.Able room maxReplyDepth asked := ⟨fits, fun k _ => memory _⟩
  have yields : Yields (readResp room _ _) _ _ _ := wire_yields maxReplyDepth asked [] w wellFormed
  rw [append_nil, ← reply] at yields
  rw [ok]
  refine ⟨fun _ => ⟨w, wellFormed, ?_, yields.tree.mpr able⟩, congrArg Conn.arrivals (yields.conn able)⟩
  rw [reply, octetsOf_sent]

/-- On a connection with nothing left over, as long as every command is answered, every command gets its own reply. -/
theorem commands_paired (memory : ∀ k, room k = true) (commands : List Command) (answered : ∀ c ∈ commands, Answered c)
    (asked : Nat) : List.Forall₂ Paired commands (run room commands ⟨[], asked⟩) := by
  induction commands generalizing asked with
  | nil => exact .nil
  | cons command commands ih =>
    obtain ⟨first, others⟩ := forall_mem_cons.mp answered
    obtain ⟨paired, none_⟩ := first.step memory asked
    refine .cons paired ?_
    have again := ih others (commandFrameTree room command.sent ⟨command.reply, asked⟩).conn.asked
    rw [← none_] at again
    exact again

theorem ping_get_paired : List.Forall₂ Paired
      [⟨true, sent (Wire.simple (ascii "PONG")).octets⟩, ⟨true, sent (Wire.bulk (ascii "1") (ascii "v")).octets⟩]
      (run (fun _ => true)
        [⟨true, sent (Wire.simple (ascii "PONG")).octets⟩, ⟨true, sent (Wire.bulk (ascii "1") (ascii "v")).octets⟩]
        ⟨[], 0⟩) := by
  refine commands_paired (fun _ => rfl) _ ?_ 0
  intro command member
  rcases mem_pair.mp member with rfl | rfl
  · refine ⟨rfl, _, ?_, rfl, ?_⟩
    · simp [Wire.WellFormed, ascii]
    · simp [Wire.Fits, LineFits, lineMax, ascii]
  · refine ⟨rfl, _, ?_, rfl, ?_⟩
    · simp [Wire.WellFormed, IsNumber, ascii]
      decide
    · simp [Wire.Fits, LineFits, lineMax, maxBulkBytes, ascii]

def Outcome.seen (out : Outcome) : Int × Bool × Option Bytes :=
  (out.error.errI16, (out.tree.bind Tree.meaning).isSome, out.tree.bind fun | .node _ str _ _ => str)

/-- Seventeen arrays around one string: the first command fails in the innermost array, and reports a success; the second one
is given the string as its reply. -/
theorem later_command_gets_rest :
    let first : Command := ⟨true, sent ((replicate 17 (ascii "*1" ++ crlf)).flatten ++ ascii "+x" ++ crlf)⟩
    let second : Command := ⟨true, sent (ascii "+b" ++ crlf)⟩
    (run (fun _ => true) [first, second] ⟨[], 0⟩).map Outcome.seen = [(0, false, none), (0, true, some (ascii "x"))] ∧
    ¬List.Forall₂ Paired [first, second] (run (fun _ => true) [first, second] ⟨[], 0⟩) := by
  intro first second
  have outcomes : (run (fun _ => true) [first, second] ⟨[], 0⟩).map Outcome.seen =
      [(0, false, none), (0, true, some (ascii "x"))] := by
    decide +kernel
  refine ⟨outcomes, ?_⟩
  generalize run (fun _ => true) [first, second] ⟨[], 0⟩ = outs at outcomes ⊢
  intro all
  obtain _ | ⟨paired, -⟩ := all
  obtain ⟨code, rest⟩ := Prod.mk.inj (cons.inj outcomes).1
  obtain ⟨w, -, -, same⟩ := paired code
  rw [same] at rest
  cases (Prod.mk.inj rest).1

end Cwist.Redis
