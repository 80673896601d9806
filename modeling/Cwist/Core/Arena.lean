import Cwist.Lib.Machine

/-!
# Bump arenas

The request arena of `cwist_arena_alloc` and the session arena of `session_arena_alloc`.
-/

namespace Cwist.Core

structure Arena where
  hasBuffer : Bool
  capacity : UInt64
  used : UInt64

inductive ArenaKind where
  | request | session

def ArenaKind.pad : ArenaKind → UInt32
  | request => 15
  | session => 7

section

variable (kind : ArenaKind) (arena : Arena) (size : UInt64)

/-- What both allocators share. The complement of the pad is an `unsigned`, so the mask has 32 bits. -/
def Arena.bump : Option UInt64 × Arena :=
  if 0xFFFFFFFFFFFFFFFF - kind.pad.toUInt64 < size then (none, arena)
  else
    let size := (size + kind.pad.toUInt64) &&& (~~~kind.pad).toUInt64
    if arena.capacity - arena.used < size then (none, arena)
    else (some arena.used, { arena with used := arena.used + size })

def Arena.alloc : Option UInt64 × Arena :=
  if arena.hasBuffer = false then (none, arena)
  else
    match kind with
    | .request => if size = 0 then (none, arena) else arena.bump kind size
    | .session => arena.bump kind size

end

inductive ArenaOp where
  | alloc (size : UInt64)
  | reset

/-- An arena and the ranges handed out since the last reset, the newest first. -/
structure ArenaRun where
  arena : Arena
  live : List (Nat × Nat)

namespace ArenaRun

def start (hasBuffer : Bool) (capacity : UInt64) : ArenaRun := ⟨⟨hasBuffer, capacity, 0⟩, []⟩

def step (kind : ArenaKind) (run : ArenaRun) : ArenaOp → ArenaRun
  | .alloc size =>
    let (offset, arena) := run.arena.alloc kind size
    ⟨arena, offset.elim run.live fun offset => (offset.toNat, size.toNat) :: run.live⟩
  | .reset => ⟨{ run.arena with used := 0 }, []⟩

/-- The ranges lie in the used part of the buffer, each behind the older ones. -/
structure Sound (run : ArenaRun) : Prop where
  fits : run.arena.used ≤ run.arena.capacity
  inside : ∀ range ∈ run.live, range.1 + range.2 ≤ run.arena.used.toNat
  apart : run.live.Pairwise fun a b => b.1 + b.2 ≤ a.1

/-- The padded size is below four gigabytes, or so large that the guard against wrapping refuses it. -/
def Narrow (kind : ArenaKind) : ArenaOp → Prop
  | .alloc size => size.toNat + kind.pad.toNat < 2 ^ 32 ∨ 0xFFFFFFFFFFFFFFFF - kind.pad.toUInt64 < size
  | .reset => True

end ArenaRun

open ArenaRun UInt64

section

variable {kind : ArenaKind} {arena : Arena} {size : UInt64}

lemma le_masked (x pad : BitVec 32) : x.toNat ≤ (x &&& ~~~pad).toNat + pad.toNat := by
  have apart : (x &&& ~~~pad) + (x &&& pad) = x := by
    rw [BitVec.add_eq_or_of_and_eq_zero] <;> ext i <;> simp <;> grind
  calc x.toNat = ((x &&& ~~~pad).toNat + (x &&& pad).toNat) % 2 ^ 32 := by rw [← BitVec.toNat_add, apart]
    _ ≤ (x &&& ~~~pad).toNat + (x &&& pad).toNat := Nat.mod_le _ _
    _ ≤ (x &&& ~~~pad).toNat + pad.toNat := Nat.add_le_add_left Nat.and_le_right _

/-- Below four gigabytes the masked size covers the request. -/
lemma size_le_masked (narrow : size.toNat + kind.pad.toNat < 2 ^ 32) :
    size.toNat ≤ ((size + kind.pad.toUInt64) &&& (~~~kind.pad).toUInt64).toNat := by
  have covered := le_masked (.ofNat 32 (size.toNat + kind.pad.toNat)) kind.pad.toBitVec
  have sum : (size.toNat + kind.pad.toNat) % 2 ^ 64 = size.toNat + kind.pad.toNat := Nat.mod_eq_of_lt (by omega)
  simp only [BitVec.toNat_and, BitVec.toNat_ofNat, Nat.mod_eq_of_lt narrow, UInt32.toNat_toBitVec] at covered
  rw [UInt64.toNat_and, UInt64.toNat_add, UInt32.toNat_toUInt64, UInt32.toNat_toUInt64, sum]
  exact Nat.le_of_add_le_add_right covered

lemma Arena.alloc_cases (fits : arena.used ≤ arena.capacity) (narrow : Narrow kind (.alloc size)) :
    arena.alloc kind size = (none, arena) ∨ ∃ used, arena.alloc kind size = (some arena.used, { arena with used }) ∧
      used ≤ arena.capacity ∧ arena.used.toNat + size.toNat ≤ used.toNat := by
  rcases narrow with narrow | wrapping
  swap
  · have refused : arena.bump kind size = (none, arena) := if_pos wrapping
    unfold alloc
    rw [refused]
    repeat' split
    all_goals exact .inl rfl
  have covered := size_le_masked narrow
  unfold alloc bump
  generalize (size + kind.pad.toUInt64) &&& (~~~kind.pad).toUInt64 = rounded at *
  dsimp only
  repeat' split
  any_goals exact .inl rfl
  -- Either allocator moves `used` past what it hands out.
  all_goals next room =>
    rw [UInt64.not_lt, le_iff_toNat_le, UInt64.toNat_sub_of_le _ _ fits] at room
    rw [le_iff_toNat_le] at fits
    have bound := arena.capacity.toNat_lt
    have sum : (arena.used + rounded).toNat = arena.used.toNat + rounded.toNat := by
      rw [UInt64.toNat_add, Nat.mod_eq_of_lt (by omega)]
    exact .inr ⟨_, rfl, le_iff_toNat_le.mpr (by omega), by omega⟩

lemma ArenaRun.Sound.step {run : ArenaRun} {op : ArenaOp} (sound : run.Sound) (narrow : Narrow kind op) :
    (run.step kind op).Sound := by
  cases op with
  | reset => exact ⟨UInt64.zero_le, nofun, .nil⟩
  | alloc size =>
    obtain same | ⟨used, same, fits, above⟩ := Arena.alloc_cases sound.fits narrow <;> rw [ArenaRun.step, same]
    · exact sound
    · refine ⟨fits, List.forall_mem_cons.mpr ⟨above, fun range member => ?_⟩, sound.apart.cons sound.inside⟩
      exact (sound.inside range member).trans ((Nat.le_add_right ..).trans above)

end

/-- Both arenas keep their law in every run of requests that are refused as too large, or have padded sizes below four
gigabytes. -/
theorem narrow_allocations_sound (kind : ArenaKind) (hasBuffer : Bool) (capacity : UInt64) (ops : List ArenaOp)
    (narrow : Machine.Meets (step kind) (fun _ => Narrow kind) (start hasBuffer capacity) ops) :
    let run := ops.foldl (step kind) (start hasBuffer capacity)
    run.Sound ∧ ∀ size, Narrow kind (.alloc size) → run.arena.capacity - run.arena.used < size →
      (run.arena.alloc kind size).1 = none := by
  intro run
  have sound : run.Sound := narrow.invariant (fun _ _ => Sound.step) ⟨UInt64.zero_le, nofun, .nil⟩
  refine ⟨sound, fun size narrow large => ?_⟩
  obtain same | ⟨used, same, fits, above⟩ := Arena.alloc_cases sound.fits narrow <;> rw [same]
  rw [lt_iff_toNat_lt, UInt64.toNat_sub_of_le _ _ sound.fits] at large
  rw [le_iff_toNat_le] at fits
  omega

/-- Two requests that are granted, one that does not fit and one that would wrap. -/
theorem small_request_sound :
    ([.alloc 10, .alloc 3, .alloc 60, .alloc 0xFFFFFFFFFFFFFFFF].foldl (step .session) (start true 64)).Sound := by
  exact (narrow_allocations_sound .session true 64 [.alloc 10, .alloc 3, .alloc 60, .alloc 0xFFFFFFFFFFFFFFFF]
    (by simp [Machine.Meets, Narrow, ArenaKind.pad])).1

/-- A request of four gigabytes and one byte is granted in an arena of 16. -/
lemma wide_request_unsound (kind : ArenaKind) : ¬((start true 16).step kind (.alloc 0x100000001)).Sound := by
  intro sound
  have live : ((start true 16).step kind (.alloc 0x100000001)).live = [(0, 0x100000001)] := by
    cases kind <;> decide +kernel
  have capacity : ((start true 16).step kind (.alloc 0x100000001)).arena.capacity.toNat = 16 := by
    cases kind <;> decide +kernel
  have inside := sound.inside (0, 0x100000001) (live ▸ List.mem_singleton_self _)
  have fits := UInt64.le_iff_toNat_le.mp sound.fits
  omega

theorem wide_request_granted : ¬((start true 16).step .request (.alloc 0x100000001)).Sound ∧
      ¬((start true 16).step .session (.alloc 0x100000001)).Sound :=
  ⟨wide_request_unsound .request, wide_request_unsound .session⟩

end Cwist.Core
