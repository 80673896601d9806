import Cwist.Grpc.HpackRfc
import Cwist.Grpc.Leads
import Cwist.Hpack.RoundTrip

namespace Cwist.Grpc
open Session

open H2 (Frame putU32 putU31)
open Rfc7541 (Decodes)

def frameOctets (f : Frame) : Bytes :=
  (putU32 f.payload.length).drop 1 ++ [f.type, f.flags] ++ putU31 f.streamId ++ f.payload

def serverPreface : List Frame := [⟨Frame.settings, 0, 0, []⟩, ⟨Frame.settings, Frame.ackFlag, 0, []⟩]

def Env.server (frames : List Frame) : Env where
  clock t := t
  reads _ := none
  writes _ := none
  dial _ := some (frames.flatMap frameOctets)
  jitter _ := 1

def host : CStr := .ofBytes (ascii "a")

def path : CStr := .ofBytes (ascii "/s/m")

def Env.client (env : Env) : Client :=
  match Client.connect env false host 0 with
  | .ok c => c
  | .error tick => .fresh false host tick []

variable {env : Env} {tls : Bool} {authority : CStr} {tick : Nat} {c : Client}

section Runs

end Runs

inductive Encodes : List Bytes → Rfc7541.Table → Prop where
  | nothing : Encodes [] ⟨[], headerTable⟩
  | block {blocks : List Bytes} {block : Bytes} {fields : List Rfc7541.Field} {t t' : Rfc7541.Table} :
      Encodes blocks t → Decodes block t fields t' → NulFree fields → Encodes (blocks ++ [block]) t'

lemma Encodes.table {blocks : List Bytes} {t : Rfc7541.Table} (encodes : Encodes blocks t) :
    (Wire.table ⟨blocks, none⟩).toTable.toRfc = t ∧ (Wire.table ⟨blocks, none⟩).toTable.Valid := by
  induction encodes with
  | nothing => exact ⟨rfl, H2.HpackTable.valid_init⟩
  | @block blocks block fields t t' before decodes clean ih =>
    obtain ⟨rfl, valid⟩ := ih
    have after := Hpack.decode_of_decodes valid decodes clean
    have last : Wire.table ⟨blocks ++ [block], none⟩ = ((Wire.table ⟨blocks, none⟩).decode block).2.table := by
      simp only [Wire.table, List.foldl_append, List.foldl_cons, List.foldl_nil]
    rw [last]
    exact after.2.2

section Runs

end Runs

/-- Trailers that the server encodes reach the client's callback, names in lower case and cut at 255 octets, whatever its
table is. -/
theorem trailers_arrive {cap : Nat} {pairs : List (CStr × CStr)} {block : Bytes} {t : Hpack} (small : cap < 2 ^ 32)
    (encoded : H2.encodeHeaderPairs cap pairs = .ok block) (valid : t.toTable.Valid) :
    (t.decode block).1 = true ∧ (t.decode block).2.table.toTable.toRfc = t.toTable.toRfc ∧
      (t.decode block).2.fields.map fieldBytes = pairs.map fun p => (H2.lowerName p.1.bytes, p.2.bytes) := by
  have lower (c : UInt8) : Http.toLower c = 0 → c = 0 := by
    obtain ⟨⟨c⟩⟩ := c
    revert c
    decide +kernel
  have decoded := Hpack.decode_of_decodes valid (H2.encodeHeaderPairs_decodes small encoded _) fun field member => ?_
  · exact ⟨decoded.1, decoded.2.2.1, decoded.2.1⟩
  obtain ⟨p, -, rfl⟩ := List.mem_map.mp member
  refine ⟨fun nul => ?_, p.2.nul⟩
  obtain ⟨c, inside, zero⟩ := List.mem_map.mp nul
  exact p.1.nul (lower c zero ▸ List.mem_of_mem_take inside)

/-- A name in capitals, and one without a value. -/
theorem trailers_arrive_one : (Hpack.init.decode [0, 2, 0x61, 0x62, 1, 0x42, 0, 1, 0x63, 0]).2.fields.map fieldBytes =
      [([0x61, 0x62], [0x42]), ([0x63], [])] :=
  (@trailers_arrive 1024 [(.ofBytes [0x41, 0x42], .ofBytes [0x42]), (.ofBytes [0x63], .ofBytes [])] _ .init (by decide)
    (by decide) H2.HpackTable.valid_init).2.2

end Cwist.Grpc
