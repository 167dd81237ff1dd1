import Conduit.Base.TSys
import Conduit.Orchestrator.OutboundStream

/-!
# Forwarding a stream to its client

`OutboundForwardingStream::run` as a transition system. The loop turns once
for each item of the provider, unless the client goes away or the deadline
comes first; then the stream is closed, which makes calls of the recorder one
after the other, and one last item is sent. An action says which of the things
that may come next has come; one that does not apply leaves the state alone.

Not modelled are the observers, which only look on, and the times that are
handed to the recorder.
-/

namespace Conduit.Orchestrator.Forwarding

open Base Transformers OutboundStream

/-! ## Items -/

/-- A `StreamEvent`: the buffer keeps it without its binary payload. -/
structure ProviderEvent extends WireEvent where
  binary : Option (List UInt8) := none

inductive UpstreamItem
  | event (event : ProviderEvent)
  | error (message : String)

/-- Why a stream was not closed. -/
inductive CloseError
  | aggregationFailed
  | recorderFailed (message : String)
  | cleanupDeadline

inductive ClientError
  | notCompleted (message : String)
  | notClosed (error : CloseError)

inductive ClientItem
  | event (event : ProviderEvent)
  | error (error : ClientError)

def UpstreamItem.event? : UpstreamItem → Option ProviderEvent
  | event e => some e
  | error _ => none

def ClientItem.event? : ClientItem → Option ProviderEvent
  | event e => some e
  | error _ => none

/-- What becomes of an item that is sent. -/
inductive Delivery
  | delivered
  | closed
  | timedOut
deriving DecidableEq

/-! ## Recorder calls -/

inductive Call
  | success
  | failure
  | cancellation
  | requestChunks
  | streamFinal
deriving DecidableEq

/-- The calls that decide the status of the request. -/
def Call.verdict : Call → Bool
  | success | failure | cancellation => true
  | requestChunks | streamFinal => false

/-- The final status of a `StreamFinalPlan`. -/
inductive Plan
  | completed
  | canceled
  | failed
deriving DecidableEq

/-- The plan of a decision and the calls that carry it out; with an execution
row there are more of them. -/
def callsOf (hasExecution : Bool) : CloseDecision → Option (Plan × Call × List Call)
  | .recordSuccess _ =>
      some (.completed, .success, if hasExecution then [.requestChunks, .streamFinal] else [])
  | .recordFailure _ => some (.failed, .failure, if hasExecution then [.streamFinal] else [])
  | .recordCancellation _ =>
      some (.canceled, .cancellation, if hasExecution then [.streamFinal] else [])
  | .aggregationFailed => none

/-! ## The stream -/

inductive Phase
  | forwarding
  | calling (call : Call) (calls : List Call) (plan : Plan)
  | sending (result : Except CloseError Plan)
  | ended (result : Except CloseError Plan) (delivery : Delivery)

structure ForwardingStream where
  upstream : List UpstreamItem
  channel : List ClientItem := []
  buffer : StreamChunkBuffer := {}
  observed : ObservedStreamState := {}
  terminal : Option ProviderEvent := none
  upstreamCanceled : Bool := false
  attempted : List Call := []
  accepted : List Call := []
  phase : Phase := .forwarding

inductive Action
  | clientClosed
  | deadline
  | received (delivery : Delivery)
  | answered (answer : Except String Unit)
  | cleanupDeadline
  | lastSend (delivery : Delivery)

namespace ForwardingStream

def disconnect (s : ForwardingStream) : ForwardingStream :=
  { s with
    upstreamCanceled := true
    observed := { s.observed with clientDisconnected := true } }

def fail (message : String) (s : ForwardingStream) : ForwardingStream :=
  { s with
    upstreamCanceled := true
    observed := { s.observed with streamError := some message } }

/-- The next call, or the end of them. -/
def call (plan : Plan) (calls : List Call) (s : ForwardingStream) : ForwardingStream :=
  match calls with
  | [] => { s with phase := .sending (.ok plan) }
  | call :: calls =>
      { s with
        attempted := s.attempted ++ [call]
        phase := .calling call calls plan }

section Run

variable (aggregate : List WireEvent → Option Aggregated) (size : ProviderEvent → Nat)
  (hasExecution : Bool)

/-- `close` up to its first call. -/
def startClosing (s : ForwardingStream) : ForwardingStream :=
  match callsOf hasExecution (OutboundStream.close aggregate s.buffer s.observed) with
  | none => { s with phase := .sending (.error .aggregationFailed) }
  | some (plan, first, calls) => s.call plan (first :: calls)

/-- A terminal event is kept back; any other is sent on. -/
def receive (event : ProviderEvent) (delivery : Delivery) (s : ForwardingStream) :
    ForwardingStream :=
  let s := { s with buffer := s.buffer.push (fun _ => size event) event.toWireEvent }
  if s.buffer.budgetExceeded then
    startClosing aggregate hasExecution (s.fail "stream history budget exceeded")
  else if isTerminalStreamEvent event.toWireEvent then
    startClosing aggregate hasExecution { s with terminal := some event }
  else
    match delivery with
    | .delivered => { s with channel := s.channel ++ [.event event] }
    | .closed => startClosing aggregate hasExecution s.disconnect
    | .timedOut =>
        startClosing aggregate hasExecution
          (s.fail "request deadline exceeded during stream backpressure")

/-- The item that is sent after closing. -/
def lastItems (s : ForwardingStream) : Except CloseError Plan → List ClientItem
  | .ok .completed => s.terminal.toList.map .event
  | .ok _ =>
      if s.observed.clientDisconnected then []
      else
        [.error (.notCompleted (s.observed.streamError.getD "stream did not complete"))]
  | .error error => [.error (.notClosed error)]

def step (s : ForwardingStream) (action : Action) : ForwardingStream :=
  match s.phase, action with
  | .forwarding, .clientClosed => startClosing aggregate hasExecution s.disconnect
  | .forwarding, .deadline =>
      startClosing aggregate hasExecution (s.fail "request deadline exceeded during stream")
  | .forwarding, .received delivery =>
      match s.upstream with
      | [] => startClosing aggregate hasExecution s
      | .error message :: upstream =>
          startClosing aggregate hasExecution ({ s with upstream := upstream }.fail message)
      | .event event :: upstream =>
          receive aggregate size hasExecution event delivery { s with upstream := upstream }
  | .calling current calls plan, .answered (.ok ()) =>
      { s with accepted := s.accepted ++ [current] }.call plan calls
  | .calling _ _ _, .answered (.error message) =>
      { s with phase := .sending (.error (.recorderFailed message)) }
  | .calling _ _ _, .cleanupDeadline => { s with phase := .sending (.error .cleanupDeadline) }
  | .sending result, .lastSend delivery =>
      { s with
        channel := s.channel ++ if delivery = .delivered then s.lastItems result else []
        phase := .ended result delivery }
  | _, _ => s

/-- The runs over the items of a provider. -/
def system (upstream : List UpstreamItem) : TSys ForwardingStream Action where
  init := { upstream := upstream }
  step := step aggregate size hasExecution

/-! ## The invariant -/

/-- The result of closing, once there is one. -/
def result? (s : ForwardingStream) : Option (Except CloseError Plan) :=
  match s.phase with
  | .sending result => some result
  | .ended result _ => some result
  | _ => none

/-- What was sent after closing. -/
def finalItems (s : ForwardingStream) : List ClientItem :=
  match s.phase with
  | .ended result .delivered => s.lastItems result
  | _ => []

/-- How the loop was left, with the items from the first that was not sent on. -/
inductive Stopped (s : ForwardingStream) : List UpstreamItem → Prop
  | terminal (event : ProviderEvent) (rest : List UpstreamItem)
      (hterminal : s.terminal = some event)
      (hevent : isTerminalStreamEvent event.toWireEvent = true) (hobserved : s.observed = {})
      (hcanceled : s.upstreamCanceled = false) : Stopped s (.event event :: rest)
  | natural (hterminal : s.terminal = none) (hobserved : s.observed = {})
      (hcanceled : s.upstreamCanceled = false) : Stopped s []
  | disconnected (rest : List UpstreamItem) (hterminal : s.terminal = none)
      (hobserved : s.observed = { clientDisconnected := true })
      (hcanceled : s.upstreamCanceled = true) : Stopped s rest
  | failed (rest : List UpstreamItem) (message : String) (hterminal : s.terminal = none)
      (hobserved : s.observed = { streamError := some message })
      (hcanceled : s.upstreamCanceled = true) : Stopped s rest

/-- Closing does not change how the loop was left. -/
theorem Stopped.congr {s s' : ForwardingStream} {rest : List UpstreamItem} (h : Stopped s rest)
    (hterminal : s'.terminal = s.terminal) (hobserved : s'.observed = s.observed)
    (hcanceled : s'.upstreamCanceled = s.upstreamCanceled) : Stopped s' rest := by
  cases h with
  | terminal event rest ht hevent ho hc =>
      exact .terminal event rest (hterminal.trans ht) hevent (hobserved.trans ho)
        (hcanceled.trans hc)
  | natural ht ho hc =>
      exact .natural (hterminal.trans ht) (hobserved.trans ho) (hcanceled.trans hc)
  | disconnected rest ht ho hc =>
      exact .disconnected rest (hterminal.trans ht) (hobserved.trans ho) (hcanceled.trans hc)
  | failed rest message ht ho hc =>
      exact .failed rest message (hterminal.trans ht) (hobserved.trans ho) (hcanceled.trans hc)

/-- The decision and what carries it out. -/
def decidedCalls (s : ForwardingStream) : Option (Plan × Call × List Call) :=
  callsOf hasExecution (OutboundStream.close aggregate s.buffer s.observed)

/-- How far the calls of the decision are. -/
inductive Recorded (s : ForwardingStream) : Prop
  | unmade (hresult : s.result? = some (.error .aggregationFailed))
      (hcalls : decidedCalls aggregate hasExecution s = none)
      (hattempted : s.attempted = []) (haccepted : s.accepted = [])
  | calling (plan : Plan) (first : Call) (tail : List Call) (current : Call) (calls : List Call)
      (hphase : s.phase = .calling current calls plan)
      (hcalls : decidedCalls aggregate hasExecution s = some (plan, first, tail))
      (hattempted : s.attempted = s.accepted ++ [current])
      (htail : first :: tail = s.accepted ++ current :: calls)
  | made (plan : Plan) (first : Call) (tail : List Call) (hresult : s.result? = some (.ok plan))
      (hcalls : decidedCalls aggregate hasExecution s = some (plan, first, tail))
      (hattempted : s.attempted = first :: tail) (haccepted : s.accepted = first :: tail)
  | broken (error : CloseError) (plan : Plan) (first : Call) (tail : List Call)
      (hresult : s.result? = some (.error error))
      (hcalls : decidedCalls aggregate hasExecution s = some (plan, first, tail))
      (hattempted : s.attempted <+: first :: tail) (hfirst : s.attempted ≠ [])

/-- The loop is still running, or it was left in one of the four ways. -/
inductive Sound (upstream : List UpstreamItem) (s : ForwardingStream) : Prop
  | forwarding (events : List ProviderEvent) (hphase : s.phase = .forwarding)
      (hsplit : upstream = events.map .event ++ s.upstream)
      (hplain : ∀ event ∈ events, isTerminalStreamEvent event.toWireEvent = false)
      (hchannel : s.channel = events.map .event) (hcompleted : s.buffer.streamCompleted = false)
      (hbudget : s.buffer.budgetExceeded = false) (hterminal : s.terminal = none)
      (hobserved : s.observed = {}) (hcanceled : s.upstreamCanceled = false)
      (hattempted : s.attempted = []) (haccepted : s.accepted = [])
  | stopped (events : List ProviderEvent) (rest : List UpstreamItem)
      (hsplit : upstream = events.map .event ++ rest)
      (hplain : ∀ event ∈ events, isTerminalStreamEvent event.toWireEvent = false)
      (hchannel : s.channel = events.map .event ++ s.finalItems)
      (hcompleted : s.buffer.streamCompleted = s.terminal.isSome) (hstopped : Stopped s rest)
      (hrecorded : Recorded aggregate hasExecution s)

variable {aggregate} {size} {hasExecution} {upstream rest : List UpstreamItem}
  {s : ForwardingStream} {events : List ProviderEvent}

/-- Leaving the loop makes the first call of the decision. -/
theorem startClosing_sound (hattempted : s.attempted = []) (haccepted : s.accepted = [])
    (hsplit : upstream = events.map .event ++ rest)
    (hplain : ∀ event ∈ events, isTerminalStreamEvent event.toWireEvent = false)
    (hchannel : s.channel = events.map .event)
    (hcompleted : s.buffer.streamCompleted = s.terminal.isSome) (hstopped : Stopped s rest) :
    Sound aggregate hasExecution upstream (startClosing aggregate hasExecution s) := by
  unfold startClosing
  cases hcalls : callsOf hasExecution (OutboundStream.close aggregate s.buffer s.observed) with
  | none =>
      refine .stopped events rest hsplit hplain ?_ hcompleted (hstopped.congr rfl rfl rfl) ?_
      · simpa [finalItems] using hchannel
      · exact .unmade rfl hcalls hattempted haccepted
  | some calls =>
      obtain ⟨plan, first, tail⟩ := calls
      refine .stopped events rest hsplit hplain ?_ hcompleted (hstopped.congr rfl rfl rfl) ?_
      · simpa [finalItems, call] using hchannel
      · refine .calling plan first tail first tail rfl hcalls ?_ ?_
        · simp [call, hattempted, haccepted]
        · simp [call, haccepted]

theorem fail_observed (message : String) (h : s.observed = {}) :
    (s.fail message).observed = { streamError := some message } := by
  simp [fail, h]

theorem disconnect_observed (h : s.observed = {}) :
    s.disconnect.observed = { clientDisconnected := true } := by
  simp [disconnect, h]

/-- An event is refused, or kept and noted if it is terminal. -/
theorem push_cases (size : ProviderEvent → Nat) (buffer : StreamChunkBuffer)
    (event : ProviderEvent) :
    let pushed := buffer.push (fun _ => size event) event.toWireEvent
    pushed.budgetExceeded = true ∧ pushed.streamCompleted = buffer.streamCompleted ∨
      pushed.budgetExceeded = buffer.budgetExceeded ∧ pushed.streamCompleted =
        (buffer.streamCompleted || isTerminalStreamEvent event.toWireEvent) := by
  intro pushed
  simp only [pushed, StreamChunkBuffer.push]
  split
  · exact .inl ⟨rfl, rfl⟩
  · exact .inr ⟨rfl, rfl⟩

/-- The event is sent on, or it is the first that is not. -/
theorem receive_sound {event : ProviderEvent} {delivery : Delivery} (hphase : s.phase = .forwarding)
    (hsplit : upstream = events.map .event ++ .event event :: s.upstream)
    (hplain : ∀ event ∈ events, isTerminalStreamEvent event.toWireEvent = false)
    (hchannel : s.channel = events.map .event) (hcompleted : s.buffer.streamCompleted = false)
    (hbudget : s.buffer.budgetExceeded = false) (hterminal : s.terminal = none)
    (hobserved : s.observed = {}) (hcanceled : s.upstreamCanceled = false)
    (hattempted : s.attempted = []) (haccepted : s.accepted = []) :
    Sound aggregate hasExecution upstream
      (receive aggregate size hasExecution event delivery s) := by
  have hpush := push_cases size s.buffer event
  simp only [hcompleted, hbudget, Bool.false_or] at hpush
  unfold receive
  dsimp only
  split
  · next hexceeded =>
      refine startClosing_sound hattempted haccepted hsplit hplain hchannel ?_
        (.failed _ _ hterminal (fail_observed _ hobserved) rfl)
      rcases hpush with ⟨-, hkept⟩ | ⟨hnot, -⟩
      · exact hkept.trans (congrArg Option.isSome hterminal).symm
      · simp [hnot] at hexceeded
  · next hexceeded =>
      obtain ⟨hkeptBudget, hnoted⟩ := hpush.resolve_left fun h => hexceeded h.1
      split
      · next hevent =>
          refine startClosing_sound hattempted haccepted hsplit hplain hchannel ?_
            (.terminal event _ rfl hevent hobserved hcanceled)
          simpa [hevent] using hnoted
      · next hevent =>
          have hevent : isTerminalStreamEvent event.toWireEvent = false := by simpa using hevent
          rw [hevent] at hnoted
          cases delivery with
          | delivered =>
              refine .forwarding (events ++ [event]) hphase ?_ ?_ ?_ hnoted hkeptBudget hterminal
                hobserved hcanceled hattempted haccepted
              · simp [hsplit]
              · intro other hmem
                rcases List.mem_append.mp hmem with h | h
                · exact hplain other h
                · rw [List.mem_singleton.mp h]
                  exact hevent
              · simp [hchannel]
          | closed =>
              refine startClosing_sound hattempted haccepted hsplit hplain hchannel ?_
                (.disconnected _ hterminal (disconnect_observed hobserved) rfl)
              exact hnoted.trans (congrArg Option.isSome hterminal).symm
          | timedOut =>
              refine startClosing_sound hattempted haccepted hsplit hplain hchannel ?_
                (.failed _ _ hterminal (fail_observed _ hobserved) rfl)
              exact hnoted.trans (congrArg Option.isSome hterminal).symm

@[simp] theorem call_channel (plan : Plan) (calls : List Call) :
    (s.call plan calls).channel = s.channel := by cases calls <;> rfl

@[simp] theorem call_buffer (plan : Plan) (calls : List Call) :
    (s.call plan calls).buffer = s.buffer := by cases calls <;> rfl

@[simp] theorem call_observed (plan : Plan) (calls : List Call) :
    (s.call plan calls).observed = s.observed := by cases calls <;> rfl

@[simp] theorem call_terminal (plan : Plan) (calls : List Call) :
    (s.call plan calls).terminal = s.terminal := by cases calls <;> rfl

@[simp] theorem call_upstreamCanceled (plan : Plan) (calls : List Call) :
    (s.call plan calls).upstreamCanceled = s.upstreamCanceled := by cases calls <;> rfl

@[simp] theorem call_finalItems (plan : Plan) (calls : List Call) :
    (s.call plan calls).finalItems = [] := by cases calls <;> rfl

/-- What a call leaves of the calls to make. -/
theorem call_recorded {plan : Plan} {first : Call} {tail calls : List Call}
    (hcalls : decidedCalls aggregate hasExecution s = some (plan, first, tail))
    (hattempted : s.attempted = s.accepted) (htail : first :: tail = s.accepted ++ calls) :
    Recorded aggregate hasExecution (s.call plan calls) := by
  cases calls with
  | nil =>
      rw [List.append_nil] at htail
      exact .made plan first tail rfl hcalls (hattempted.trans htail.symm) htail.symm
  | cons current calls =>
      exact .calling plan first tail current calls rfl hcalls (by simp [call, hattempted]) htail

theorem step_sound (action : Action) (h : Sound aggregate hasExecution upstream s) :
    Sound aggregate hasExecution upstream (step aggregate size hasExecution s action) := by
  cases h with
  | forwarding events hphase hsplit hplain hchannel hcompleted hbudget hterminal hobserved hcanceled
      hattempted haccepted =>
      have hnotCompleted : s.buffer.streamCompleted = s.terminal.isSome := by
        simp [hcompleted, hterminal]
      cases action with
      | clientClosed =>
          simp only [step, hphase]
          exact startClosing_sound hattempted haccepted hsplit hplain hchannel hnotCompleted
            (.disconnected _ hterminal (disconnect_observed hobserved) rfl)
      | deadline =>
          simp only [step, hphase]
          exact startClosing_sound hattempted haccepted hsplit hplain hchannel hnotCompleted
            (.failed _ _ hterminal (fail_observed _ hobserved) rfl)
      | received delivery =>
          cases hupstream : s.upstream with
          | nil =>
              simp only [step, hphase, hupstream]
              rw [hupstream] at hsplit
              exact startClosing_sound hattempted haccepted hsplit hplain hchannel hnotCompleted
                (.natural hterminal hobserved hcanceled)
          | cons item upstream =>
              rw [hupstream] at hsplit
              cases item with
              | error message =>
                  simp only [step, hphase, hupstream]
                  exact startClosing_sound hattempted haccepted hsplit hplain hchannel hnotCompleted
                    (.failed _ _ hterminal (fail_observed _ hobserved) rfl)
              | event event =>
                  have hstep : step aggregate size hasExecution s (.received delivery) =
                      receive aggregate size hasExecution event delivery
                        { s with upstream := upstream } := by
                    simp only [step, hphase, hupstream]
                  rw [hstep]
                  exact receive_sound hphase hsplit hplain hchannel hcompleted hbudget hterminal
                    hobserved hcanceled hattempted haccepted
      | answered answer =>
          simp only [step, hphase]
          exact .forwarding events hphase hsplit hplain hchannel hcompleted hbudget hterminal
            hobserved hcanceled hattempted haccepted
      | cleanupDeadline =>
          simp only [step, hphase]
          exact .forwarding events hphase hsplit hplain hchannel hcompleted hbudget hterminal
            hobserved hcanceled hattempted haccepted
      | lastSend delivery =>
          simp only [step, hphase]
          exact .forwarding events hphase hsplit hplain hchannel hcompleted hbudget hterminal
            hobserved hcanceled hattempted haccepted
  | stopped events rest hsplit hplain hchannel hcompleted hstopped hrecorded =>
      have hidle : Sound aggregate hasExecution upstream s :=
        .stopped events rest hsplit hplain hchannel hcompleted hstopped hrecorded
      cases hphase : s.phase with
      | forwarding =>
          cases hrecorded with
          | calling plan first tail current calls hcalling => simp [hphase] at hcalling
          | _ => simp_all [result?]
      | calling current calls plan =>
          have hsent : s.channel = events.map .event := by simpa [finalItems, hphase] using hchannel
          cases hrecorded with
          | calling plan' first tail current' calls' hcalling hcalls hattempted htail =>
              obtain ⟨rfl, rfl, rfl⟩ : current = current' ∧ calls = calls' ∧ plan = plan' := by
                simpa [hphase] using hcalling
              have hmade : s.attempted <+: first :: tail := by
                rw [hattempted, htail]
                exact ⟨calls, by simp⟩
              cases action with
              | answered answer =>
                  cases answer with
                  | ok answer =>
                      simp only [step, hphase]
                      refine .stopped events rest hsplit hplain (by simpa using hsent)
                        (by simpa using hcompleted)
                        (hstopped.congr (by simp) (by simp) (by simp)) ?_
                      exact call_recorded hcalls hattempted (by simp [htail])
                  | error message =>
                      simp only [step, hphase]
                      refine .stopped events rest hsplit hplain (by simpa [finalItems] using hsent)
                        hcompleted (hstopped.congr rfl rfl rfl) ?_
                      exact .broken _ plan first tail rfl hcalls hmade (by simp [hattempted])
              | cleanupDeadline =>
                  simp only [step, hphase]
                  refine .stopped events rest hsplit hplain (by simpa [finalItems] using hsent)
                    hcompleted (hstopped.congr rfl rfl rfl) ?_
                  exact .broken _ plan first tail rfl hcalls hmade (by simp [hattempted])
              | clientClosed => simpa only [step, hphase] using hidle
              | deadline => simpa only [step, hphase] using hidle
              | received delivery => simpa only [step, hphase] using hidle
              | lastSend delivery => simpa only [step, hphase] using hidle
          | _ => simp_all [result?]
      | sending result =>
          have hsent : s.channel = events.map .event := by simpa [finalItems, hphase] using hchannel
          cases action with
          | lastSend delivery =>
              simp only [step, hphase]
              refine .stopped events rest hsplit hplain ?_ hcompleted
                (hstopped.congr rfl rfl rfl) ?_
              · cases delivery <;> simp [finalItems, hsent, lastItems]
              · cases hrecorded with
                | unmade hresult hcalls hattempted haccepted =>
                    exact .unmade (by simpa [result?, hphase] using hresult) hcalls hattempted
                      haccepted
                | calling plan first tail current calls hcalling => simp [hphase] at hcalling
                | made plan first tail hresult hcalls hattempted haccepted =>
                    exact .made plan first tail (by simpa [result?, hphase] using hresult) hcalls
                      hattempted haccepted
                | broken error plan first tail hresult hcalls hattempted hfirst =>
                    exact .broken error plan first tail (by simpa [result?, hphase] using hresult)
                      hcalls hattempted hfirst
          | clientClosed => simpa only [step, hphase] using hidle
          | deadline => simpa only [step, hphase] using hidle
          | received delivery => simpa only [step, hphase] using hidle
          | answered answer => simpa only [step, hphase] using hidle
          | cleanupDeadline => simpa only [step, hphase] using hidle
      | ended result delivery =>
          have hstep : step aggregate size hasExecution s action = s := by
            cases action <;> simp only [step, hphase]
          rw [hstep]
          exact hidle

variable (aggregate size hasExecution upstream)

theorem sound : (system aggregate size hasExecution upstream).Inductive
    (Sound aggregate hasExecution upstream) where
  init := .forwarding [] rfl rfl (by simp) rfl rfl rfl rfl rfl rfl rfl rfl
  step _ action h := step_sound action h

variable {aggregate size hasExecution upstream}

/-! ## What the client sees -/

theorem filterMap_items (events : List ProviderEvent) :
    (events.map ClientItem.event).filterMap ClientItem.event? = events := by
  induction events with
  | nil => rfl
  | cons event events ih => simpa [ClientItem.event?] using ih

theorem filterMap_upstream (events : List ProviderEvent) :
    (events.map UpstreamItem.event).filterMap UpstreamItem.event? = events := by
  induction events with
  | nil => rfl
  | cons event events ih => simpa [UpstreamItem.event?] using ih

/-- After closing, nothing, the terminal event or one error is sent. -/
theorem finalItems_cases (s : ForwardingStream) :
    s.finalItems = [] ∨
      (∃ event, s.terminal = some event ∧ s.result? = some (.ok .completed) ∧
        s.finalItems = [.event event]) ∨
      ∃ error, s.finalItems = [.error error] := by
  unfold finalItems result?
  split
  · next result hphase =>
      rw [hphase]
      cases result with
      | error error => exact .inr (.inr ⟨_, rfl⟩)
      | ok plan =>
          cases plan with
          | completed =>
              cases hterminal : s.terminal with
              | none => exact .inl (by simp [lastItems, hterminal])
              | some event => exact .inr (.inl ⟨event, rfl, rfl, by simp [lastItems, hterminal]⟩)
          | canceled =>
              cases hclient : s.observed.clientDisconnected <;> simp [lastItems, hclient]
          | failed => cases hclient : s.observed.clientDisconnected <;> simp [lastItems, hclient]
  · exact .inl rfl

/-- A completed plan has called for a success. -/
theorem callsOf_completed {decision : CloseDecision} {plan : Plan} {first : Call}
    {tail : List Call} (h : callsOf hasExecution decision = some (plan, first, tail)) :
    (plan = .completed ↔ first = .success) ∧ first.verdict = true ∧
      (∀ call ∈ tail, call.verdict = false) ∧
        (first = .success → ∃ response, decision = .recordSuccess response) := by
  cases decision with
  | recordSuccess response =>
      obtain ⟨rfl, rfl, rfl⟩ : Plan.completed = plan ∧ Call.success = first ∧ _ = tail := by
        simpa [callsOf] using h
      cases hasExecution <;> simp [Call.verdict]
  | recordFailure message =>
      obtain ⟨rfl, rfl, rfl⟩ : Plan.failed = plan ∧ Call.failure = first ∧ _ = tail := by
        simpa [callsOf] using h
      cases hasExecution <;> simp [Call.verdict]
  | recordCancellation message =>
      obtain ⟨rfl, rfl, rfl⟩ : Plan.canceled = plan ∧ Call.cancellation = first ∧ _ = tail := by
        simpa [callsOf] using h
      cases hasExecution <;> simp [Call.verdict]
  | aggregationFailed => simp [callsOf] at h

/-- The success was accepted where the result is a completed plan. -/
theorem Recorded.accepted (h : Recorded aggregate hasExecution s)
    (hresult : s.result? = some (.ok .completed)) : Call.success ∈ s.accepted := by
  cases h with
  | unmade hother => simp [hresult] at hother
  | calling plan first tail current calls hphase => simp [result?, hphase] at hresult
  | made plan first tail hother hcalls hattempted haccepted =>
      obtain rfl : Plan.completed = plan := by simpa [hresult] using hother
      rw [haccepted, (callsOf_completed hcalls).1.mp rfl]
      exact List.mem_cons_self
  | broken error plan first tail hother => simp [hresult] at hother

/-- The channel: the events sent on, then at most one item. -/
theorem Sound.sent (h : Sound aggregate hasExecution upstream s) :
    ∃ (events : List ProviderEvent) (rest : List UpstreamItem) (final : List ClientItem),
      upstream = events.map .event ++ rest ∧
      (∀ event ∈ events, isTerminalStreamEvent event.toWireEvent = false) ∧
      s.channel = events.map .event ++ final ∧
      (final = [] ∨
        (∃ event later, rest = .event event :: later ∧ final = [.event event] ∧
          Call.success ∈ s.accepted) ∨
        ∃ error, final = [.error error]) := by
  cases h with
  | forwarding events hphase hsplit hplain hchannel =>
      exact ⟨events, s.upstream, [], hsplit, hplain, by simp [hchannel], .inl rfl⟩
  | stopped events rest hsplit hplain hchannel hcompleted hstopped hrecorded =>
      refine ⟨events, rest, s.finalItems, hsplit, hplain, hchannel, ?_⟩
      rcases finalItems_cases s with hnone | ⟨event, hterminal, hresult, hfinal⟩ | herror
      · exact .inl hnone
      · refine .inr (.inl ?_)
        cases hstopped with
        | terminal event' later hevent =>
            obtain rfl : event' = event := by simpa [hterminal] using hevent.symm
            exact ⟨event', later, rfl, hfinal, hrecorded.accepted hresult⟩
        | natural hother => simp [hterminal] at hother
        | disconnected rest hother => simp [hterminal] at hother
        | failed rest message hother => simp [hterminal] at hother
      · exact .inr (.inr herror)

theorem dropLast_prefix_dropLast {α : Type} {as bs : List α} (h : as <+: bs) :
    as.dropLast <+: bs.dropLast := by
  have hlength := h.length_le
  rw [List.dropLast_eq_take, List.dropLast_eq_take, List.prefix_iff_eq_take.mp h, List.take_take]
  refine List.take_prefix_take_left ?_
  simp
  omega

variable (aggregate size hasExecution upstream)

/-- In every reachable state, what the client has received are the first of the
provider's events, in their order, with an error only at the end; a terminal
event is among them only after the recorder has accepted the success. -/
theorem client_receives_prefix :
    (system aggregate size hasExecution upstream).Invariant fun s =>
      ∀ received, received <+: s.channel →
        received.filterMap ClientItem.event? <+: upstream.filterMap UpstreamItem.event? ∧
        (∀ item ∈ received.dropLast, item.event?.isSome = true) ∧
        ∀ event, .event event ∈ received → isTerminalStreamEvent event.toWireEvent = true →
          Call.success ∈ s.accepted := by
  refine (sound aggregate size hasExecution upstream).invariant.mono ?_
  intro s h received hreceived
  obtain ⟨events, rest, final, hsplit, hplain, hchannel, hfinal⟩ := h.sent
  rw [hchannel] at hreceived
  have hwhole : (events.map ClientItem.event ++ final).filterMap ClientItem.event? <+:
      upstream.filterMap UpstreamItem.event? := by
    rw [hsplit, List.filterMap_append, List.filterMap_append, filterMap_items, filterMap_upstream]
    rcases hfinal with rfl | ⟨event, later, rfl, rfl, -⟩ | ⟨error, rfl⟩
    · simp
    · simp [ClientItem.event?, UpstreamItem.event?]
    · exact (List.prefix_append_right_inj _).mpr List.nil_prefix
  refine ⟨(hreceived.filterMap ClientItem.event?).trans hwhole, ?_, ?_⟩
  · -- only the last item of the channel may be an error
    intro item hitem
    have hdrop := (dropLast_prefix_dropLast hreceived).subset hitem
    have hevent : item ∈ events.map ClientItem.event := by
      rcases hfinal with rfl | ⟨event, later, -, rfl, -⟩ | ⟨error, rfl⟩
      · rw [List.append_nil] at hdrop
        exact List.mem_of_mem_dropLast hdrop
      · simpa using hdrop
      · simpa using hdrop
    obtain ⟨event, -, rfl⟩ := List.mem_map.mp hevent
    rfl
  · intro event hevent hterminal
    rcases List.mem_append.mp (hreceived.subset hevent) with hmem | hmem
    · obtain ⟨other, hother, heq⟩ := List.mem_map.mp hmem
      cases heq
      simp [hplain event hother] at hterminal
    · rcases hfinal with rfl | ⟨other, later, -, -, haccepted⟩ | ⟨error, rfl⟩
      · simp at hmem
      · exact haccepted
      · simp at hmem

variable {aggregate size hasExecution upstream}

/-! ## What is recorded -/

theorem verdicts_of_prefix {attempted tail : List Call} {first : Call}
    (hfirst : first.verdict = true) (htail : ∀ call ∈ tail, call.verdict = false)
    (hattempted : attempted <+: first :: tail) (hne : attempted ≠ []) :
    attempted.filter Call.verdict = [first] := by
  cases attempted with
  | nil => exact absurd rfl hne
  | cons call calls =>
      obtain ⟨rfl, hcalls⟩ := List.cons_prefix_cons.mp hattempted
      have hnone : calls.filter Call.verdict = [] := by
        rw [List.filter_eq_nil_iff]
        intro other hmem
        simp [htail other (hcalls.subset hmem)]
      rw [List.filter_cons_of_pos hfirst, hnone]

/-- A success is decided on a terminal event without an error, or on an
aggregate that says it is complete, if the provider did not fail. -/
theorem close_recordSuccess {buffer : StreamChunkBuffer} {observed : ObservedStreamState}
    {response : Option Aggregated}
    (h : OutboundStream.close aggregate buffer observed = .recordSuccess response) :
    buffer.streamCompleted = true ∧ observed.streamError = none ∨
      (observed.streamError = none ∨ observed.clientDisconnected = true) ∧
        ∃ aggregated, aggregate buffer.chunks = some aggregated ∧
          isCompletedAggregated aggregated = true := by
  have hfinal : ∀ (completed : Bool) (aggregated : Option Aggregated),
      finalPlan completed observed aggregated = .recordSuccess response → completed = true := by
    intro completed aggregated hplan
    cases completed with
    | true => rfl
    | false => cases hclient : observed.clientDisconnected <;> simp [finalPlan, hclient] at hplan
  unfold OutboundStream.close at h
  split at h
  · next hseen =>
      refine .inl ?_
      simpa using hseen
  · split at h
    · exact absurd (hfinal false none h) (by simp)
    · next hhard =>
        split at h
        · exact absurd (hfinal false none h) (by simp)
        · next aggregated haggregate =>
            refine .inr ⟨?_, aggregated, haggregate, hfinal _ _ h⟩
            cases herror : observed.streamError <;> simp_all

/-- Only a terminal event whose stream cannot be aggregated is not closed. -/
theorem close_aggregationFailed {buffer : StreamChunkBuffer} {observed : ObservedStreamState}
    (h : OutboundStream.close aggregate buffer observed = .aggregationFailed) :
    buffer.streamCompleted = true ∧ aggregate buffer.chunks = none := by
  have hfinal : ∀ (completed : Bool) (aggregated : Option Aggregated),
      finalPlan completed observed aggregated ≠ .aggregationFailed := by
    intro completed aggregated
    cases completed <;> cases hclient : observed.clientDisconnected <;> simp [finalPlan, hclient]
  unfold OutboundStream.close at h
  split at h
  · next hseen =>
      split at h
      · exact absurd h (hfinal _ _)
      · split at h
        · next haggregate =>
            refine ⟨?_, haggregate⟩
            simp only [Bool.and_eq_true] at hseen
            exact hseen.1
        · exact absurd h (hfinal _ _)
  · split at h
    · exact absurd h (hfinal _ _)
    · split at h
      · exact absurd h (hfinal _ _)
      · exact absurd h (hfinal _ _)

theorem callsOf_none {decision : CloseDecision} (h : callsOf hasExecution decision = none) :
    decision = .aggregationFailed := by
  cases decision with
  | aggregationFailed => rfl
  | _ => simp [callsOf] at h

/-- No call was asked for, or the first ones of the decision. -/
theorem Recorded.attempted (h : Recorded aggregate hasExecution s) :
    (decidedCalls aggregate hasExecution s = none ∧ s.attempted = []) ∨
      ∃ plan first tail, decidedCalls aggregate hasExecution s = some (plan, first, tail) ∧
        s.attempted <+: first :: tail ∧ s.attempted ≠ [] := by
  cases h with
  | unmade hresult hcalls hattempted => exact .inl ⟨hcalls, hattempted⟩
  | calling plan first tail current calls hphase hcalls hattempted htail =>
      refine .inr ⟨plan, first, tail, hcalls, ?_, by simp [hattempted]⟩
      rw [hattempted, htail]
      exact ⟨calls, by simp⟩
  | made plan first tail hresult hcalls hattempted =>
      exact .inr ⟨plan, first, tail, hcalls, by simp [hattempted], by simp [hattempted]⟩
  | broken error plan first tail hresult hcalls hattempted hfirst =>
      exact .inr ⟨plan, first, tail, hcalls, hattempted, hfirst⟩

/-- A completed plan stems from the decision for a success. -/
theorem Recorded.decision (h : Recorded aggregate hasExecution s)
    (hresult : s.result? = some (.ok .completed)) :
    ∃ response, OutboundStream.close aggregate s.buffer s.observed = .recordSuccess response := by
  cases h with
  | unmade hother => simp [hresult] at hother
  | calling plan first tail current calls hphase => simp [result?, hphase] at hresult
  | made plan first tail hother hcalls =>
      obtain rfl : Plan.completed = plan := by simpa [hresult] using hother
      obtain ⟨hfirst, -, -, hsuccess⟩ := callsOf_completed hcalls
      exact hsuccess (hfirst.mp rfl)
  | broken error plan first tail hother => simp [hresult] at hother

variable (aggregate size hasExecution upstream)

/-- At most one verdict is asked for, and exactly one once the loop is left,
unless a terminal event came whose stream cannot be aggregated. A success is
asked for only after a terminal event without an error, or for an aggregate
that is complete where the provider did not fail. -/
theorem one_verdict :
    (system aggregate size hasExecution upstream).Invariant fun s =>
      (s.attempted.filter Call.verdict).length ≤ 1 ∧
      (s.phase ≠ .forwarding → (s.attempted.filter Call.verdict).length = 1 ∨
        s.terminal.isSome = true ∧ aggregate s.buffer.chunks = none) ∧
      (Call.success ∈ s.attempted →
        s.terminal.isSome = true ∧ s.observed.streamError = none ∨
          (s.observed.streamError = none ∨ s.observed.clientDisconnected = true) ∧
            ∃ aggregated, aggregate s.buffer.chunks = some aggregated ∧
              isCompletedAggregated aggregated = true) := by
  refine (sound aggregate size hasExecution upstream).invariant.mono ?_
  intro s h
  cases h with
  | forwarding events hphase hsplit hplain hchannel hcompleted hbudget hterminal hobserved hcanceled
      hattempted =>
      simp [hattempted, hphase]
  | stopped events rest hsplit hplain hchannel hcompleted hstopped hrecorded =>
      rcases hrecorded.attempted with ⟨hnone, hattempted⟩ | ⟨plan, first, tail, hcalls, hmade, hne⟩
      · -- nothing was asked for
        have hfailed := close_aggregationFailed (callsOf_none hnone)
        refine ⟨by simp [hattempted], fun _ => .inr ?_, by simp [hattempted]⟩
        exact ⟨by rw [← hcompleted]; exact hfailed.1, hfailed.2⟩
      · obtain ⟨-, hverdict, htail, hsuccess⟩ := callsOf_completed hcalls
        have hfilter := verdicts_of_prefix hverdict htail hmade hne
        refine ⟨by simp [hfilter], fun _ => .inl (by simp [hfilter]), fun hmem => ?_⟩
        have hfirst : Call.success ∈ s.attempted.filter Call.verdict :=
          List.mem_filter.mpr ⟨hmem, rfl⟩
        rw [hfilter, List.mem_singleton] at hfirst
        obtain ⟨response, hdecision⟩ := hsuccess hfirst.symm
        rw [← hcompleted]
        exact close_recordSuccess hdecision

/-- The provider is cut off exactly where the client has gone or the stream has failed. -/
theorem upstream_canceled_iff :
    (system aggregate size hasExecution upstream).Invariant fun s =>
      s.upstreamCanceled = true ↔
        s.observed.clientDisconnected = true ∨ s.observed.streamError.isSome = true := by
  refine (sound aggregate size hasExecution upstream).invariant.mono ?_
  intro s h
  cases h with
  | forwarding events hphase hsplit hplain hchannel hcompleted hbudget hterminal hobserved
      hcanceled => simp [hobserved, hcanceled]
  | stopped events rest hsplit hplain hchannel hcompleted hstopped hrecorded =>
      cases hstopped with
      | terminal event rest hterminal hevent hobserved hcanceled => simp [hobserved, hcanceled]
      | natural hterminal hobserved hcanceled => simp [hobserved, hcanceled]
      | disconnected rest hterminal hobserved hcanceled => simp [hobserved, hcanceled]
      | failed rest message hterminal hobserved hcanceled => simp [hobserved, hcanceled]

/-- A client that stayed, and took the last item, got the provider's events up to
some point, and then the terminal event, the provider's end, or exactly one
error; the provider was cut off only where it had failed. -/
theorem connected_stream_ends :
    (system aggregate size hasExecution upstream).Invariant fun s =>
      ∀ result, s.phase = .ended result .delivered → s.observed.clientDisconnected = false →
        (s.upstreamCanceled = true ↔ s.observed.streamError.isSome = true) ∧
        ∃ events : List ProviderEvent,
          events.map .event <+: upstream ∧
          (∀ event ∈ events, isTerminalStreamEvent event.toWireEvent = false) ∧
          ((∃ terminal rest, upstream = events.map .event ++ .event terminal :: rest ∧
              isTerminalStreamEvent terminal.toWireEvent = true ∧
                s.channel = events.map .event ++ [.event terminal] ∧ Call.success ∈ s.accepted) ∨
            (upstream = events.map .event ∧ s.channel = events.map .event ∧
              Call.success ∈ s.accepted) ∨
            ∃ error, s.channel = events.map .event ++ [.error error]) := by
  intro s hreach result hphase hclient
  have hcutOff := upstream_canceled_iff aggregate size hasExecution upstream s hreach
  refine ⟨by simpa [hclient] using hcutOff, ?_⟩
  cases (sound aggregate size hasExecution upstream).invariant s hreach with
  | forwarding events hother => simp [hphase] at hother
  | stopped events rest hsplit hplain hchannel hcompleted hstopped hrecorded =>
      refine ⟨events, ⟨rest, hsplit.symm⟩, hplain, ?_⟩
      have hresult : s.result? = some result := by simp [result?, hphase]
      have hfinal : s.finalItems = s.lastItems result := by simp [finalItems, hphase]
      rw [hfinal] at hchannel
      cases result with
      | error error => exact .inr (.inr ⟨_, hchannel⟩)
      | ok plan =>
          cases plan with
          | canceled => exact .inr (.inr ⟨_, by simpa [lastItems, hclient] using hchannel⟩)
          | failed => exact .inr (.inr ⟨_, by simpa [lastItems, hclient] using hchannel⟩)
          | completed =>
              have haccepted := hrecorded.accepted hresult
              cases hstopped with
              | terminal event rest hterminal hevent hobserved hcanceled =>
                  refine .inl ⟨event, rest, hsplit, hevent, ?_, haccepted⟩
                  simpa [lastItems, hterminal] using hchannel
              | natural hterminal hobserved hcanceled =>
                  refine .inr (.inl ⟨by simpa using hsplit, ?_, haccepted⟩)
                  simpa [lastItems, hterminal] using hchannel
              | disconnected rest hterminal hobserved => simp [hobserved] at hclient
              | failed rest message hterminal hobserved hcanceled =>
                  -- a stream that failed is not closed as completed
                  obtain ⟨response, hdecision⟩ := hrecorded.decision hresult
                  rcases close_recordSuccess hdecision with ⟨-, hnone⟩ | ⟨hnone | hgone, -⟩
                  · simp [hobserved] at hnone
                  · simp [hobserved] at hnone
                  · simp [hclient] at hgone

end Run

end ForwardingStream

end Conduit.Orchestrator.Forwarding
