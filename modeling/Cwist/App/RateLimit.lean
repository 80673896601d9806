import Cwist.Basic
import Cwist.Lib.Machine
import Cwist.Lib.TokenBucket

namespace Cwist.App.RateLimit

structure ClientIp where
  text : CStr
  short : text.length ≤ 45

structure IpBucket where
  ip : CStr
  bucket : TokenBucket ℚ

def maxIpBuckets : Nat := 1024

def maxCfgs : Nat := 8

def effectiveRpm (rpm : Int) : Int := if rpm ≤ 0 then 60 else rpm

inductive Reply where
  | next
  | tooManyRequests (retryAfter : Int)
  deriving DecidableEq

def retryAfter (rpm : Int) : Int := if 60 / rpm > 0 then 60 / rpm else 1

def consumeFound (ip : CStr) (now : ℚ) : List IpBucket → Option (Bool × List IpBucket)
  | [] => none
  | found :: rest =>
    if found.ip = ip then
      let (allowed, bucket) := found.bucket.consume now 1
      some (allowed, { found with bucket } :: rest)
    else (consumeFound ip now rest).map fun (allowed, rest) => (allowed, found :: rest)

def newBucket (ip : CStr) (now : ℚ) (rpm : Int) : IpBucket :=
  ⟨.ofBytes (ip.bytes.take 45), .init (rpm / 60) rpm now⟩

def allow (buckets : List IpBucket) (ip : CStr) (now : ℚ) (rpm : Int) : Bool × List IpBucket :=
  match consumeFound ip now buckets with
  | some result => result
  | none =>
    if buckets.length < maxIpBuckets then
      let entry := newBucket ip now rpm
      let (allowed, bucket) := entry.bucket.consume now 1
      (allowed, buckets ++ [{ entry with bucket }])
    else (true, buckets)

def rateLimitIpHandler (buckets : List IpBucket) (ip : Option ClientIp) (now : ℚ) (rpm : Int) : Reply × List IpBucket :=
  let rpm := effectiveRpm rpm
  match ip with
  | none => (.next, buckets)
  | some ip =>
    let (allowed, buckets) := allow buckets ip.text now rpm
    if allowed then (.next, buckets) else (.tooManyRequests (retryAfter rpm), buckets)

structure Request where
  now : ℚ
  middleware : Nat
  ip : Option ClientIp

def wrap (cfgs : List Int) (buckets : List IpBucket) (r : Request) : Reply × List IpBucket :=
  rateLimitIpHandler buckets r.ip r.now (cfgs[r.middleware]?.getD 0)

def serve (cfgs : List Int) : List IpBucket → List Request → List (Request × Reply)
  | _, [] => []
  | buckets, r :: rest => (r, (wrap cfgs buckets r).1) :: serve cfgs (wrap cfgs buckets r).2 rest

def rateLimitIp (cfgs : List Int) (requestsPerMinute : Int) : List Int × Nat :=
  let rpm := effectiveRpm requestsPerMinute
  match cfgs.findIdx? (· == rpm) with
  | some slot => (cfgs, slot)
  | none => if cfgs.length ≥ maxCfgs then (cfgs, 0) else (cfgs ++ [rpm], cfgs.length)

def createAll : List Int → List Int → List Int × List Nat
  | cfgs, [] => (cfgs, [])
  | cfgs, rate :: rest =>
    let (cfgs, slot) := rateLimitIp cfgs rate
    let (cfgs, slots) := createAll cfgs rest
    (cfgs, slot :: slots)

def passedBetween (middleware : Nat) (ip : CStr) (start finish : ℚ) (entry : Request × Reply) : Bool :=
  entry.1.middleware == middleware && entry.1.ip.any (·.text == ip) && entry.2 == .next &&
    decide (start ≤ entry.1.now) && decide (entry.1.now ≤ finish)

/-- Requests through middlewares that were created, one after another in time, while the table has room. -/
structure Traffic (cfgs : List Int) (slots : List Nat) (requests : List Request) : Prop where
  created : ∀ r ∈ requests, r.middleware ∈ slots
  inTime : requests.Pairwise fun earlier later => earlier.now ≤ later.now
  room : Machine.Meets (fun buckets r => (wrap cfgs buckets r).2) (fun buckets _ => buckets.length < maxIpBuckets) [] requests

/-- Every middleware keeps to the rate it was created for. -/
def Bounded (rates : List Int) : Prop :=
  ∀ requests, Traffic (createAll [] rates).1 (createAll [] rates).2 requests →
    ∀ (i : Nat) (rate : Int) (middleware : Nat), rates[i]? = some rate → (createAll [] rates).2[i]? = some middleware →
      ∀ (ip : CStr) (start duration : ℚ), 0 ≤ duration →
        (((serve (createAll [] rates).1 [] requests).countP (passedBetween middleware ip start (start + duration)) : ℕ) : ℚ) ≤
          effectiveRpm rate + effectiveRpm rate * duration / 60

end Cwist.App.RateLimit
