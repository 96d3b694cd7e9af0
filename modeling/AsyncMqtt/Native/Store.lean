import AsyncMqtt.Native.PacketVariant

/-!
# Stored packets

`store.hpp`: the PUBLISH and PUBREL packets that wait for a response, in the
order in which they were stored. No two of them wait for the same response with
the same packet identifier.
-/

namespace AsyncMqtt

/-- `store<PacketIdBytes>` -/
structure Store (pb : PacketIdBytes) where
  elems : List (StorePacketVariant pb)
  unique : elems.Pairwise fun a b =>
    ¬ (a.responsePacketType = b.responsePacketType ∧ a.packetId = b.packetId)
  deriving DecidableEq

namespace Store

variable {pb : PacketIdBytes}

/-- The store of a new connection, and `clear` -/
def empty : Store pb := ⟨[], List.Pairwise.nil⟩

/-- There is an element that waits for this response. -/
def Waits (s : Store pb) (r : ResponsePacket) (packetId : Nat) : Prop :=
  ∃ e ∈ s.elems, e.responsePacketType = r ∧ e.packetId = packetId

instance (s : Store pb) (r : ResponsePacket) (packetId : Nat) : Decidable (s.Waits r packetId) :=
  inferInstanceAs (Decidable (∃ e ∈ s.elems, _))

/-- `elems_.emplace_back`, which does nothing if the key is taken -/
def emplaceBack (s : Store pb) (e : StorePacketVariant pb) : Store pb :=
  if h : s.Waits e.responsePacketType e.packetId then s
  else ⟨s.elems ++ [e], List.pairwise_append.mpr ⟨s.unique, List.pairwise_singleton _ _,
    fun a ha b hb => by
      obtain rfl := List.mem_singleton.mp hb
      exact fun hab => h ⟨a, ha, hab⟩⟩⟩

/-- `add`; a PUBLISH is stored if it has QoS 1 or 2 -/
def add (s : Store pb) (p : StorePacket pb) : Store pb :=
  match StorePacketVariant.ofPacket? p with
  | some e => s.emplaceBack e
  | none => s

/-- The elements that satisfy `keep`. -/
def filter (s : Store pb) (keep : StorePacketVariant pb → Bool) : Store pb :=
  ⟨s.elems.filter keep, s.unique.filter _⟩

/-- `erase` -/
def erase (s : Store pb) (r : ResponsePacket) (packetId : Nat) : Store pb :=
  s.filter fun e => ¬ (e.responsePacketType = r ∧ e.packetId = packetId)

theorem mem_erase {s : Store pb} {r : ResponsePacket} {packetId : Nat}
    {e : StorePacketVariant pb} :
    e ∈ (s.erase r packetId).elems ↔
      e ∈ s.elems ∧ ¬ (e.responsePacketType = r ∧ e.packetId = packetId) := by
  rw [erase, filter, List.mem_filter, decide_eq_true_iff]

/-- What is in the store after an element was offered. -/
theorem mem_emplaceBack {s : Store pb} {e a : StorePacketVariant pb} :
    a ∈ (s.emplaceBack e).elems ↔
      a ∈ s.elems ∨ (a = e ∧ ¬ s.Waits e.responsePacketType e.packetId) := by
  unfold emplaceBack
  split
  · next h => simp [h]
  · next h => simp [h]

end Store

end AsyncMqtt
