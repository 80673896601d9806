import Cwist.Basic

namespace Cwist.Http

def toLower (c : UInt8) : UInt8 := if 0x41 ≤ c ∧ c ≤ 0x5a then c + 0x20 else c

def caseEq (a b : Bytes) : Bool := a.map toLower == b.map toLower

structure FileBody where
  offset : Nat
  len : Nat
  contents : Bytes
  deriving DecidableEq

structure Response where
  statusCode : Nat
  headers : List (CStr × Bytes)
  body : Bytes
  ptrBody : Option Bytes
  fileStream : Option FileBody
  deriving DecidableEq

def Response.ofBody (body : Bytes) : Response := ⟨200, [], body, none, none⟩

def headerGet (headers : List (CStr × Bytes)) (key : Bytes) : Option CStr :=
  (headers.find? fun (name, _) => caseEq name.bytes key).map fun (_, value) => .ofBytes value

def decimal (n : Nat) : Bytes := (Nat.toDigits 10 n).map fun c => c.toNat.toUInt8

lemma mem_decimal {n : Nat} {c : UInt8} (member : c ∈ decimal n) : 0x30 ≤ c.toNat ∧ c.toNat ≤ 0x39 := by
  obtain ⟨digit, inside, rfl⟩ := List.mem_map.mp member
  have isDigit := Nat.isDigit_of_mem_toDigits (by omega) (by omega) inside
  simp only [Char.isDigit, Bool.and_eq_true, decide_eq_true_eq, ge_iff_le, UInt32.le_iff_toNat_le] at isDigit
  have low : 48 ≤ digit.toNat := isDigit.1
  have high : digit.toNat ≤ 57 := isDigit.2
  simp only [Nat.toUInt8, UInt8.toNat_ofNat']
  omega

def Response.bodyLen (res : Response) : Nat :=
  match res.fileStream, res.ptrBody with
  | some file, _ => file.len
  | none, some ptr => ptr.length
  | none, none => res.body.length

def Response.injectAltSvc (port : Option Nat) (res : Response) : Response :=
  match port, headerGet res.headers (ascii "Alt-Svc") with
  | some port, none =>
    let value := ascii "h3=\":" ++ decimal port ++ ascii "\"; ma=86400"
    { res with headers := (.ofBytes (ascii "Alt-Svc"), value) :: res.headers }
  | _, _ => res

end Cwist.Http
