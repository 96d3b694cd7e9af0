import AsyncMqtt.ForStd.IntervalPool
import AsyncMqtt.Native.Types

/-!
# Value allocator and packet identifier manager

`value_allocator.hpp` and `packet_id_manager.hpp`. The allocator keeps the
vacant values as an ordered set of disjoint intervals.

The value type is unsigned and has two or four bytes. Two bytes are promoted to
`int` before arithmetic, four bytes are not: `value + 1` wraps around for the
largest four-byte value.
-/

namespace AsyncMqtt

/-- `value + 1` for a value of the unsigned type with that many bytes. -/
def plusOne : PacketIdBytes → Nat → Nat
  | .two, v => v + 1
  | .four, v => (v + 1) % 2 ^ 32

/-- `value_allocator<T>` -/
structure ValueAllocator (pb : PacketIdBytes) where
  pool : IntervalPool
  lowest : Nat
  highest : Nat
  inRange : lowest ≤ highest
  deriving DecidableEq

namespace ValueAllocator

variable {pb : PacketIdBytes}

/-- `value_allocator(lowest, highest)` -/
def make (pb : PacketIdBytes) (lowest highest : Nat) (h : lowest ≤ highest) : ValueAllocator pb :=
  ⟨.singleton lowest highest h, lowest, highest, h⟩

/-- `allocate` -/
def allocate (va : ValueAllocator pb) : Option Nat × ValueAllocator pb :=
  match va.pool.first with
  | none => (none, va)
  | some iv =>
    if plusOne pb iv.1 ≤ iv.2 then
      (some iv.1, { va with pool := va.pool.replace iv (plusOne pb iv.1) iv.2 })
    else (some iv.1, { va with pool := va.pool.erase iv })

/-- `first_vacant` -/
def firstVacant (va : ValueAllocator pb) : Option Nat := va.pool.first.map Prod.fst

/-- `deallocate` -/
def deallocate (va : ValueAllocator pb) (value : Nat) : ValueAllocator pb :=
  let pool := va.pool
  let pool' :=
    match pool.left value, pool.right value with
    | none, none => pool.emplace value value
    | some itl, none =>
      if plusOne pb itl.2 = value then pool.replace itl itl.1 value
      else pool.emplace value value
    | none, some itr =>
      if plusOne pb value = itr.1 then pool.replace itr value itr.2
      else pool.emplace value value
    | some itl, some itr =>
      if plusOne pb itl.2 = value then
        if plusOne pb value = itr.1 then (pool.erase itr).replace itl itl.1 itr.2
        else pool.replace itl itl.1 value
      else
        if plusOne pb value = itr.1 then pool.replace itr value itr.2
        else pool.emplace value value
  { va with pool := pool' }

/-- `use` -/
def use (va : ValueAllocator pb) (value : Nat) : Bool × ValueAllocator pb :=
  match va.pool.find value with
  | none => (false, va)
  | some iv =>
    let pool := va.pool.erase iv
    let pool := if iv.1 < value then pool.emplace iv.1 (value - 1) else pool
    let pool := if plusOne pb value ≤ iv.2 then pool.emplace (plusOne pb value) iv.2 else pool
    (true, { va with pool := pool })

/-- `is_used` -/
def isUsed (va : ValueAllocator pb) (value : Nat) : Bool := (va.pool.find value).isNone

/-- `clear` -/
def clear (va : ValueAllocator pb) : ValueAllocator pb :=
  { va with pool := .singleton va.lowest va.highest va.inRange }

/-! ### The changes of the pool

Each function again as the calls of `pool_` that it makes, with the intervals that it makes for
them, and its assertions. -/

/-- A call of `pool_` -/
inductive PoolChange where
  | emplace (low high : Nat)
  | erase (iv : Nat × Nat)
  | modify (iv : Nat × Nat) (low high : Nat)
  | clear

namespace PoolChange

/-- The pool after the call -/
def apply (pool : IntervalPool) : PoolChange → IntervalPool
  | emplace low high => pool.emplace low high
  | erase iv => pool.erase iv
  | modify iv low high => pool.replace iv low high
  | clear => .empty

/-- The interval that is made for the call -/
def made : PoolChange → Option (Nat × Nat)
  | emplace low high | modify _ low high => some (low, high)
  | erase _ | clear => none

end PoolChange

/-- The changes of `allocate` -/
def allocateChanges (va : ValueAllocator pb) : List PoolChange :=
  match va.pool.first with
  | none => []
  | some iv => if plusOne pb iv.1 ≤ iv.2 then [.modify iv (plusOne pb iv.1) iv.2] else [.erase iv]

/-- The assertion of `allocate`, in the function that it gives to `modify` -/
def AllocateAsserts (va : ValueAllocator pb) : Prop :=
  ∀ iv ∈ va.pool.first, plusOne pb iv.1 ≤ iv.2 → iv.1 < va.highest

/-- The changes of `deallocate` -/
def deallocateChanges (va : ValueAllocator pb) (value : Nat) : List PoolChange :=
  match va.pool.left value, va.pool.right value with
  | none, none => [.emplace value value]
  | some itl, none =>
    if plusOne pb itl.2 = value then [.modify itl itl.1 value] else [.emplace value value]
  | none, some itr =>
    if plusOne pb value = itr.1 then [.modify itr value itr.2] else [.emplace value value]
  | some itl, some itr =>
    if plusOne pb itl.2 = value then
      if plusOne pb value = itr.1 then [.erase itr, .modify itl itl.1 itr.2]
      else [.modify itl itl.1 value]
    else
      if plusOne pb value = itr.1 then [.modify itr value itr.2] else [.emplace value value]

/-- The assertion of `deallocate` -/
def DeallocateAsserts (va : ValueAllocator pb) (value : Nat) : Prop :=
  va.lowest ≤ value ∧ value ≤ va.highest

/-- The changes of `use` -/
def useChanges (va : ValueAllocator pb) (value : Nat) : List PoolChange :=
  match va.pool.find value with
  | none => []
  | some iv =>
    .erase iv :: (if iv.1 < value then [.emplace iv.1 (value - 1)] else []) ++
      if plusOne pb value ≤ iv.2 then [.emplace (plusOne pb value) iv.2] else []

/-- The changes of `clear` -/
def clearChanges (va : ValueAllocator pb) : List PoolChange :=
  [.clear, .emplace va.lowest va.highest]

theorem pool_allocate (va : ValueAllocator pb) :
    va.allocate.2.pool = va.allocateChanges.foldl PoolChange.apply va.pool := by
  unfold allocate allocateChanges
  cases va.pool.first with
  | none => rfl
  | some iv =>
    dsimp only
    split <;> rfl

theorem pool_deallocate (va : ValueAllocator pb) (value : Nat) :
    (va.deallocate value).pool =
      (va.deallocateChanges value).foldl PoolChange.apply va.pool := by
  unfold deallocate deallocateChanges
  dsimp only
  split
  · rfl
  · split <;> rfl
  · split <;> rfl
  · split
    · split <;> rfl
    · split <;> rfl

theorem pool_use (va : ValueAllocator pb) (value : Nat) :
    (va.use value).2.pool = (va.useChanges value).foldl PoolChange.apply va.pool := by
  unfold use useChanges
  cases va.pool.find value with
  | none => rfl
  | some iv =>
    dsimp only
    split
    · split <;> rfl
    · split <;> rfl

theorem pool_clear (va : ValueAllocator pb) :
    va.clear.pool = va.clearChanges.foldl PoolChange.apply va.pool := by
  simp [clear, clearChanges, PoolChange.apply, IntervalPool.emplace, IntervalPool.emplaceList,
    IntervalPool.empty, IntervalPool.singleton, va.inRange]

end ValueAllocator

/-- `packet_id_manager<PacketId>`: the identifiers from 1 on -/
abbrev PacketIdManager := ValueAllocator

namespace PacketIdManager

variable {pb : PacketIdBytes}

def make (pb : PacketIdBytes) : PacketIdManager pb :=
  ValueAllocator.make pb 1 (pb.limit - 1) (by cases pb <;> decide)

/-- `acquire_unique_id` -/
def acquireUniqueId (m : PacketIdManager pb) : Option Nat × PacketIdManager pb := m.allocate

/-- `register_id` -/
def registerId (m : PacketIdManager pb) (packetId : Nat) : Bool × PacketIdManager pb :=
  m.use packetId

/-- `is_used_id` -/
def isUsedId (m : PacketIdManager pb) (packetId : Nat) : Bool := m.isUsed packetId

/-- `release_id` -/
def releaseId (m : PacketIdManager pb) (packetId : Nat) : PacketIdManager pb :=
  m.deallocate packetId

end PacketIdManager

end AsyncMqtt
