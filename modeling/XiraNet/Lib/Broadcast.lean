import Mathlib.Data.List.Basic
import Mathlib.Logic.Function.Basic

/-!
# Broadcast messages

Messages on the way to the nodes of a network. A message is sent to every node and received by
each of them once, in any order.
-/

universe u v

/-- The messages on the way to each node. -/
abbrev Broadcast (ι : Type u) (E : Type v) := ι → List E

namespace Broadcast

variable {ι : Type u} {E : Type v}

/-- A message, if there is one, is sent to every node. -/
def send (b : Broadcast ι E) (e : Option E) : Broadcast ι E := fun node => e.toList ++ b node

/-- What is on the way after a message was sent. -/
@[simp]
theorem mem_send {b : Broadcast ι E} {e : Option E} {node : ι} {e' : E} :
    e' ∈ b.send e node ↔ e = some e' ∨ e' ∈ b node := by
  simp [send]

variable [DecidableEq ι] [DecidableEq E]

/-- A node receives a message. -/
def receive (b : Broadcast ι E) (node : ι) (e : E) : Broadcast ι E :=
  Function.update b node ((b node).erase e)

/-- What is still on the way was so before. -/
theorem mem_of_mem_receive {b : Broadcast ι E} {node node' : ι} {e e' : E}
    (h : e' ∈ b.receive node e node') : e' ∈ b node' := by
  unfold receive at h
  by_cases hnode : node' = node
  · subst hnode
    rw [Function.update_self] at h
    exact List.mem_of_mem_erase h
  · rwa [Function.update_of_ne hnode] at h

/-- Messages to other nodes and other messages stay on the way. -/
theorem mem_receive_of_ne {b : Broadcast ι E} {node node' : ι} {e e' : E}
    (hne : node' = node → e' ≠ e) (h : e' ∈ b node') : e' ∈ b.receive node e node' := by
  unfold receive
  by_cases hnode : node' = node
  · subst hnode
    rw [Function.update_self]
    exact (List.mem_erase_of_ne (hne rfl)).mpr h
  · rwa [Function.update_of_ne hnode]

end Broadcast
