import Mathlib.Algebra.Order.Ring.Rat
import XiraNet.Base
import XiraNet.Lib.Runs

/-!
# Analytics buffer

`record_event` and `flush_buffer` of `datapipeline/pipeline.rs`. The lock of the buffer is held
from the push to the end of the request, so the calls come one after the other.

* `PipelineState.kept_iff`: no event is lost exactly if every payload is answered with a success
  status.
* `PipelineState.kept_fails`: the events of a payload that the sink refuses are gone.
-/

namespace XiraNet

/-- `AnalyticsEvent`. -/
structure AnalyticsEvent where
  timestamp : ℕ
  eventType : String
  path : String
  method : String
  status : ℕ
  durationMs : ℚ
  ip : String
  userAgent : String
  bodySize : ℕ
  deriving DecidableEq

/-- What is posted to the sink. -/
structure AnalyticsPayload where
  source : String
  eventCount : ℕ
  events : List AnalyticsEvent
  flushedAt : ℕ
  deriving DecidableEq

/-- `DataPipeline`, the part that deals with analytics. -/
structure DataPipeline where
  analyticsBuffer : List AnalyticsEvent
  bufferSize : ℕ
  sinkUrl : Option String
  deriving DecidableEq

/-- How a request to the sink ends: the status of the response, or an error of the client. -/
abbrev SinkOutcome := Except String ℕ

/-- `is_success` of the status. -/
def SinkOutcome.isSuccess : SinkOutcome → Bool
  | .ok status => 200 ≤ status && status < 300
  | .error _ => false

namespace DataPipeline

/-- `DataPipeline::new`. -/
def new (bufferSize : ℕ) (sinkUrl : Option String) : DataPipeline := ⟨[], bufferSize, sinkUrl⟩

/-- `flush_buffer`, with the request that it makes. How the request ends is logged and has no other
effect. -/
def flushBuffer (p : DataPipeline) (now : ℕ) : DataPipeline × Option (String × AnalyticsPayload) :=
  -- The buffer is emptied before the request is made.
  ({ p with analyticsBuffer := [] },
    p.sinkUrl.map fun url =>
      (url, ⟨"xiranet", p.analyticsBuffer.length, p.analyticsBuffer, now⟩))

/-- `record_event`, with the request that it makes. -/
def recordEvent (p : DataPipeline) (event : AnalyticsEvent) (now : ℕ) :
    DataPipeline × Option (String × AnalyticsPayload) :=
  let p := { p with analyticsBuffer := p.analyticsBuffer ++ [event] }
  if p.bufferSize ≤ p.analyticsBuffer.length then p.flushBuffer now else (p, none)

end DataPipeline

/-- A call of `record_event`, with the clock and the end of the request, if one is made. -/
structure RecordCall where
  event : AnalyticsEvent
  now : ℕ
  outcome : SinkOutcome

/-- The pipeline with the payloads that the sink answered with a success status, and the events
that were recorded, both in order. -/
structure PipelineState where
  pipeline : DataPipeline
  accepted : List AnalyticsPayload
  recorded : List AnalyticsEvent
  deriving DecidableEq

namespace PipelineState

/-- A pipeline at the start. -/
def initial (bufferSize : ℕ) (sinkUrl : Option String) : PipelineState :=
  ⟨.new bufferSize sinkUrl, [], []⟩

/-- The payloads that the sink has accepted after a call. -/
def acceptedAfter (s : PipelineState) (call : RecordCall) : List AnalyticsPayload :=
  match (s.pipeline.recordEvent call.event call.now).2 with
  | some (_, payload) =>
      if call.outcome.isSuccess then s.accepted ++ [payload] else s.accepted
  | none => s.accepted

/-- One call. -/
def step (s : PipelineState) (call : RecordCall) : PipelineState where
  pipeline := (s.pipeline.recordEvent call.event call.now).1
  accepted := s.acceptedAfter call
  recorded := s.recorded ++ [call.event]

/-- The calls of `record_event`. -/
def machine : Machine PipelineState RecordCall := ⟨fun s call => some (s.step call)⟩

/-- The events of the accepted payloads. -/
def delivered (s : PipelineState) : List AnalyticsEvent :=
  s.accepted.flatMap AnalyticsPayload.events

/-- Every recorded event was accepted by the sink or is still in the buffer, in order and once. -/
def Kept (s : PipelineState) : Prop := s.delivered ++ s.pipeline.analyticsBuffer = s.recorded

/-- Whether the event of the next call fills the buffer. -/
def fills (s : PipelineState) : Prop :=
  s.pipeline.bufferSize ≤ s.pipeline.analyticsBuffer.length + 1

instance (s : PipelineState) : Decidable s.fills := inferInstanceAs (Decidable (_ ≤ _))

/-- Where a call fills the buffer, the sink answers with a success status. -/
def Answered (s : PipelineState) (call : RecordCall) : Prop :=
  s.fills → call.outcome.isSuccess = true

instance (s : PipelineState) (call : RecordCall) : Decidable (s.Answered call) :=
  inferInstanceAs (Decidable (_ → _))

variable {s : PipelineState} {call : RecordCall}

/-- A call that does not fill the buffer adds its event to it. -/
theorem step_of_not_fills (call : RecordCall) (h : ¬s.fills) :
    (s.step call).pipeline =
        { s.pipeline with analyticsBuffer := s.pipeline.analyticsBuffer ++ [call.event] } ∧
      (s.step call).delivered = s.delivered := by
  have hrecord : s.pipeline.recordEvent call.event call.now =
      ({ s.pipeline with analyticsBuffer := s.pipeline.analyticsBuffer ++ [call.event] },
        none) := by
    refine if_neg ?_
    rw [List.length_append, List.length_singleton]
    exact h
  simp only [step, delivered, acceptedAfter, hrecord, and_self]

/-- A call that fills the buffer empties it, and the sink has the events if it answers with a
success status. -/
theorem step_of_fills {url : String} (call : RecordCall) (hurl : s.pipeline.sinkUrl = some url)
    (h : s.fills) :
    (s.step call).pipeline = { s.pipeline with analyticsBuffer := [] } ∧
      (s.step call).delivered = s.delivered ++
        if call.outcome.isSuccess then s.pipeline.analyticsBuffer ++ [call.event] else [] := by
  have hrecord : s.pipeline.recordEvent call.event call.now =
      ({ s.pipeline with analyticsBuffer := [] }, some (url, ⟨"xiranet",
        (s.pipeline.analyticsBuffer ++ [call.event]).length,
        s.pipeline.analyticsBuffer ++ [call.event], call.now⟩)) := by
    unfold DataPipeline.recordEvent DataPipeline.flushBuffer
    rw [if_pos (by simpa [fills] using h)]
    simp only [hurl, Option.map_some]
  simp only [step, delivered, acceptedAfter, hrecord, true_and]
  split
  · rw [List.flatMap_append, List.flatMap_singleton]
  · rw [List.append_nil]

/-- What is kept stays kept exactly if the call is answered. -/
theorem kept_step_iff {url : String} (hurl : s.pipeline.sinkUrl = some url) (hs : s.Kept) :
    (s.step call).Kept ↔ s.Answered call := by
  have hrecorded : (s.step call).recorded =
      s.delivered ++ (s.pipeline.analyticsBuffer ++ [call.event]) := by
    rw [step, ← List.append_assoc, hs]
  unfold Kept
  rw [hrecorded]
  by_cases hfills : s.fills
  · obtain ⟨hpipeline, hdelivered⟩ := step_of_fills call hurl hfills
    rw [hpipeline, hdelivered, List.append_nil, List.append_right_inj]
    cases hsuccess : call.outcome.isSuccess with
    | true => exact iff_of_true rfl fun _ => hsuccess
    | false => exact iff_of_false (by simp) fun h => by simpa [hsuccess] using h hfills
  · obtain ⟨hpipeline, hdelivered⟩ := step_of_not_fills call hfills
    rw [hpipeline, hdelivered]
    exact iff_of_true rfl fun h => absurd h hfills

/-- A call keeps the sink. -/
theorem sinkUrl_step (s : PipelineState) (call : RecordCall) :
    (s.step call).pipeline.sinkUrl = s.pipeline.sinkUrl := by
  simp only [step, DataPipeline.recordEvent, DataPipeline.flushBuffer]
  split <;> rfl

/-- Throughout a run of a pipeline with a sink, no event is lost exactly if the sink answers every
payload with a success status. -/
theorem kept_iff (bufferSize : ℕ) (url : String) {calls : List RecordCall}
    (hrun : machine.Runs Machine.unrestricted (initial bufferSize (some url)) calls s) :
    machine.Throughout Kept (initial bufferSize (some url)) calls ↔
      machine.Runs Answered (initial bufferSize (some url)) calls s := by
  refine hrun.throughout_iff (I := fun s => s.Kept ∧ s.pipeline.sinkUrl = some url)
    (fun _ hs => hs.1) ?_ ?_ ⟨rfl, rfl⟩
  · rintro s call _ ⟨hkept, hurl⟩ hok ⟨⟩
    exact ⟨(kept_step_iff hurl hkept).mpr hok, (sinkUrl_step s call).trans hurl⟩
  · rintro s call _ ⟨hkept, hurl⟩ hbad ⟨⟩
    exact fun h => hbad ((kept_step_iff hurl hkept).mp h)

/-- An event, and a call that records it. -/
def sampleCall (timestamp : ℕ) (outcome : SinkOutcome) : RecordCall :=
  ⟨⟨timestamp, "request", "/api", "GET", 200, 1, "203.0.113.7", "curl", 0⟩, timestamp, outcome⟩

/-- Two events that are accepted, and one that stays in the buffer. -/
theorem kept_sampleCalls :
    machine.Throughout Kept (initial 2 (some "http://sink"))
      [sampleCall 1 (.error "timeout"), sampleCall 2 (.ok 204), sampleCall 3 (.ok 500)] := by
  have hanswered : machine.Runs Answered (initial 2 (some "http://sink"))
      [sampleCall 1 (.error "timeout"), sampleCall 2 (.ok 204), sampleCall 3 (.ok 500)] _ :=
    Machine.runs_of_exec rfl
  exact (kept_iff 2 "http://sink" (hanswered.mono fun _ _ _ => trivial)).mpr hanswered

/-- An event whose payload the sink answers with status 503 is neither accepted nor in the
buffer. -/
theorem kept_fails :
    ¬∀ (bufferSize : ℕ) (url : String) (calls : List RecordCall) (s : PipelineState),
      machine.Runs Machine.unrestricted (initial bufferSize (some url)) calls s → s.Kept := by
  intro hall
  have hrun : machine.Runs Machine.unrestricted (initial 1 (some "http://sink"))
      [sampleCall 1 (.ok 503)] _ := Machine.runs_of_exec rfl
  exact List.cons_ne_nil _ _ (hall _ _ _ _ hrun).symm

end PipelineState

end XiraNet
