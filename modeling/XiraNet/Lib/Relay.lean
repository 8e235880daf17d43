import Mathlib.Data.List.Basic
import XiraNet.Lib.Runs

/-!
# Relays

A loop that takes messages from a source one after the other, makes at most one message for a sink
of each and waits until the sink has taken it. It ends when the source does, when the sink refuses a
message, after a message that closes the relay, or when it is aborted from outside, which may be
while a message is with the sink.

* `Relay.Faithful`: what the sink has taken is what the messages of the source amount to, in order,
  but for the last one at most.
* `Relay.faithful_step`: every step of the loop keeps this.
-/

universe u v

/-- What a loop makes of a message. -/
inductive Forward (β : Type v)
  | skip
  | send (message : β)
  /-- Send the message, and stop whatever the sink says. -/
  | close (message : β)

namespace Forward

variable {β : Type v}

/-- The message for the sink. -/
def message : Forward β → Option β
  | .skip => none
  | .send b | .close b => some b

/-- Whether the loop stops. -/
def closes : Forward β → Bool
  | .skip | .send _ => false
  | .close _ => true

end Forward

/-- A loop, with what it has taken and what the sink has taken from it. -/
structure Relay (α : Type u) (β : Type v) where
  taken : List α
  sent : List β
  /-- The message that is with the sink, and whether it closes the relay. -/
  sending : Option (β × Bool)
  running : Bool

/-- A step of a loop. -/
inductive RelayAction (α : Type u)
  /-- The source has a message. -/
  | take (message : α)
  /-- The source has ended or failed. -/
  | finish
  /-- The sink has taken the message. -/
  | accepted
  /-- The sink has refused the message. -/
  | refused
  /-- The loop is aborted. -/
  | abort
  deriving DecidableEq, Repr

namespace Relay

variable {α : Type u} {β : Type v} (forward : α → Forward β)

/-- A loop that has just started. -/
def init : Relay α β := ⟨[], [], none, true⟩

/-- One step. -/
def step (r : Relay α β) : RelayAction α → Option (Relay α β)
  | .take a =>
      match r.running, r.sending with
      | true, none =>
          some { r with
            taken := r.taken ++ [a]
            sending := (forward a).message.map fun b => (b, (forward a).closes) }
      | _, _ => none
  | .finish =>
      match r.running, r.sending with
      | true, none => some { r with running := false }
      | _, _ => none
  | .accepted =>
      r.sending.map fun (b, last) =>
        { r with sent := r.sent ++ [b], sending := none, running := !last }
  | .refused => r.sending.map fun _ => { r with sending := none, running := false }
  | .abort => if r.running then some { r with sending := none, running := false } else none

/-- What the messages that were taken amount to. -/
def due (r : Relay α β) : List β := r.taken.filterMap fun a => (forward a).message

/-- The sink has taken what is due, in order and nothing twice; only what was with it when the loop
ended may be missing. -/
structure Faithful (r : Relay α β) : Prop where
  /-- A message is with the sink only while the loop runs. -/
  sending : r.running = false → r.sending = none
  running : r.running = true → r.due forward = r.sent ++ (r.sending.map Prod.fst).toList
  ended : ∃ lost : List β, r.due forward = r.sent ++ lost ∧ lost.length ≤ 1
  /-- Nothing is taken after a message that closes the relay. -/
  closes : ∀ before a after, r.taken = before ++ a :: after → (forward a).closes = true →
    after = [] ∧ (r.running = true → r.sending = (forward a).message.map fun b => (b, true))

variable {forward}

/-- A loop that has just started is faithful. -/
theorem faithful_init : Faithful forward (init : Relay α β) where
  sending := fun h => by cases h
  running := fun _ => rfl
  ended := ⟨[], rfl, Nat.zero_le _⟩
  closes := fun before a after h => by simp [init] at h

/-- The end of a loop loses no more than what is with the sink. -/
theorem Faithful.stop {r : Relay α β} (h : r.Faithful forward) :
    Faithful forward { r with sending := none, running := false } where
  sending := fun _ => rfl
  running := fun h => by cases h
  ended := h.ended
  closes before a after htaken hcloses :=
    ⟨(h.closes before a after htaken hcloses).1, fun h => by cases h⟩

/-- A message that was taken. -/
theorem Faithful.take {r : Relay α β} (h : r.Faithful forward) (hrunning : r.running = true)
    (hsending : r.sending = none) (a : α) :
    Faithful forward { r with
      taken := r.taken ++ [a]
      sending := (forward a).message.map fun b => (b, (forward a).closes) } := by
  have hdue : r.due forward = r.sent := by simpa [hsending] using h.running hrunning
  have hsent : (r.taken ++ [a]).filterMap (fun a => (forward a).message) =
      r.sent ++ (forward a).message.toList := by
    rw [List.filterMap_append]
    show r.due forward ++ _ = _
    rw [hdue]
    cases hmessage : (forward a).message <;> simp [hmessage]
  refine ⟨fun hstopped => ?_, fun _ => ?_, ⟨(forward a).message.toList, hsent, ?_⟩, ?_⟩
  · rw [hrunning] at hstopped
    cases hstopped
  · show (r.taken ++ [a]).filterMap (fun a => (forward a).message) = _
    rw [hsent]
    cases (forward a).message <;> rfl
  · cases (forward a).message <;> simp
  · intro before b after htaken hcloses
    rcases List.eq_nil_or_concat after with rfl | ⟨after', c, rfl⟩
    · obtain ⟨rfl, hb⟩ := List.append_inj' htaken rfl
      cases hb
      exact ⟨rfl, fun _ => by rw [hcloses]⟩
    -- A message that closes the relay stays with the sink until the loop stops.
    · have hold : r.taken = before ++ b :: after' := by
        have hcut := congrArg List.dropLast htaken
        simpa [List.dropLast_append_of_ne_nil, List.dropLast_cons_of_ne_nil] using hcut
      have hclosed := (h.closes before b after' hold hcloses).2 hrunning
      rw [hsending] at hclosed
      cases hforward : forward b with
      | skip =>
          rw [hforward] at hcloses
          cases hcloses
      | send m =>
          rw [hforward] at hcloses
          cases hcloses
      | close m =>
          rw [hforward] at hclosed
          cases hclosed

/-- The sink has taken the message that was with it. -/
theorem Faithful.accepted {r : Relay α β} (h : r.Faithful forward) {b : β} {last : Bool}
    (hsending : r.sending = some (b, last)) :
    Faithful forward { r with sent := r.sent ++ [b], sending := none, running := !last } := by
  have hrunning : r.running = true := by
    by_contra hstopped
    rw [h.sending (Bool.not_eq_true _ ▸ hstopped)] at hsending
    cases hsending
  have hdue : r.due forward = r.sent ++ [b] := by simpa [hsending] using h.running hrunning
  refine ⟨fun _ => rfl, fun _ => ?_, ⟨[], ?_, Nat.zero_le _⟩,
    fun before a after htaken hcloses => ?_⟩
  · show r.due forward = _
    simpa using hdue
  · show r.due forward = _
    simpa using hdue
  · obtain ⟨hafter, hclosed⟩ := h.closes before a after htaken hcloses
    refine ⟨hafter, fun hgoes => ?_⟩
    have hclosed := hclosed hrunning
    rw [hsending] at hclosed
    obtain ⟨m, -, heq⟩ := Option.map_eq_some_iff.mp hclosed.symm
    cases heq
    cases hgoes

/-- Every step keeps a loop faithful. -/
theorem faithful_step {r r' : Relay α β} {a : RelayAction α} (h : r.Faithful forward)
    (hstep : r.step forward a = some r') : r'.Faithful forward := by
  cases a with
  | take a =>
      simp only [step] at hstep
      split at hstep
      next hrunning hsending =>
        cases hstep
        exact h.take hrunning hsending a
      next => cases hstep
  | finish =>
      simp only [step] at hstep
      split at hstep
      next hrunning hsending =>
        cases hstep
        simpa [hsending] using h.stop
      next => cases hstep
  | accepted =>
      obtain ⟨⟨b, last⟩, hsending, rfl⟩ := Option.map_eq_some_iff.mp hstep
      exact h.accepted hsending
  | refused =>
      obtain ⟨_, -, rfl⟩ := Option.map_eq_some_iff.mp hstep
      exact h.stop
  | abort =>
      simp only [step] at hstep
      split at hstep
      next =>
        cases hstep
        exact h.stop
      next => cases hstep

end Relay
