import Conduit.Base.JsonText
import Conduit.Pipeline.Stream
import Mathlib

/-!
# A Gemini stream as a JSON array

Without `alt=sse` a Gemini stream is one JSON array. The buffered writer joins
the data of the events, the live one writes a chunk for each event. Both leave
out the `[DONE]` marker; the live one also a `done` event without data, which
the buffered one writes as an empty element. Any other event that ends the
stream is written by both.
-/

namespace Conduit.Http.GeminiArray

open Base Base.Text Base.JsonText Pipeline

/-! ## The buffered writer -/

/-- The event of the HTTP layer. -/
structure HttpStreamEvent where
  event : String
  data : String
deriving DecidableEq, Repr

/-- How `map_http_response_to_output` builds it. -/
def httpEvent (event : StreamEvent) : HttpStreamEvent :=
  ⟨event.eventType.getD "", event.data.getD ""⟩

/-- `write_gemini_json_stream_response`: its body, or the error of the response. -/
def writeGeminiJsonStreamResponse (events : List (Except ConduitError HttpStreamEvent)) :
    Except ConduitError String := do
  let events ← events.mapM id
  return "[" ++ joinWith ',' ((events.filter fun event => event.data ≠ "[DONE]").map (·.data)) ++ "]"

/-! ## The live writer -/

/-- What the channel answers to a poll, until it is closed. -/
inductive Receipt
  | event (event : StreamEvent)
  | error (err : ConduitError)
  | pending

structure LiveGeminiJson where
  rx : List Receipt
  started : Bool
  emittedItem : Bool
  closed : Bool

inductive Polled
  | item (chunk : Except ConduitError String)
  | finished
  | pending

namespace LiveGeminiJson

/-- The loop over the channel. -/
def receive (this : LiveGeminiJson) : List Receipt → Polled × LiveGeminiJson
  | [] => (.item (.ok "]"), { this with rx := [], closed := true })
  | .event event :: rx =>
      let data := event.data.getD ""
      if data = "[DONE]" ∨ (data = "" ∧ event.done = true) then this.receive rx
      else
        let separator := if this.emittedItem then "," else ""
        (.item (.ok (separator ++ data)), { this with rx := rx, emittedItem := true })
  | .error err :: rx => (.item (.error err), { this with rx := rx, closed := true })
  | .pending :: rx => (.pending, { this with rx := rx })

def pollNext (this : LiveGeminiJson) : Polled × LiveGeminiJson :=
  if !this.started then (.item (.ok "["), { this with started := true })
  else if this.closed then (.finished, this)
  else this.receive this.rx

/-- The chunks of the first polls, up to the end of the body. -/
def chunks : Nat → LiveGeminiJson → List (Except ConduitError String)
  | 0, _ => []
  | polls + 1, this =>
      match this.pollNext with
      | (.item chunk, this) => chunk :: chunks polls this
      | (.finished, _) => []
      | (.pending, this) => chunks polls this

def new (rx : List Receipt) : LiveGeminiJson := ⟨rx, false, false, false⟩

end LiveGeminiJson

/-! ## The array the client is due -/

def payload (event : StreamEvent) : String := event.data.getD ""

/-- The payloads of the events that do not end the stream. -/
def payloads (events : List StreamEvent) : List String :=
  (events.filter fun event => !isClientStreamTerminal event).map payload

/-- The text is an array of these elements, and of no other ones. -/
def DecodesTo (text : String) (elements : List String) : Prop :=
  IsArrayOf text.toList (elements.map String.toList) ∧
    ∀ other : List (List Char), IsArrayOf text.toList other → other = elements.map String.toList

/-- The channel delivers the events, with any pauses between them and no error. -/
inductive Delivers : List Receipt → List StreamEvent → Prop
  | closed : Delivers [] []
  | event {rx : List Receipt} {events : List StreamEvent} (event : StreamEvent) :
      Delivers rx events → Delivers (.event event :: rx) (event :: events)
  | pending {rx : List Receipt} {events : List StreamEvent} :
      Delivers rx events → Delivers (.pending :: rx) events

/-- Both bodies are the array of the payloads; the live one is whole after as many polls as
there are answers of the channel, and three more. -/
def WritesPayloads (events : List StreamEvent) : Prop :=
  (∃ body : String, writeGeminiJsonStreamResponse ((events.map httpEvent).map .ok) = .ok body ∧
      DecodesTo body (payloads events)) ∧
    ∀ rx : List Receipt, Delivers rx events → ∀ polls : Nat, rx.length + 3 ≤ polls →
      ∃ chunks : List String, (LiveGeminiJson.new rx).chunks polls = chunks.map .ok ∧
        DecodesTo (String.join chunks) (payloads events)

/-- Every event that ends the stream is the marker. -/
def MarkedOnly (events : List StreamEvent) : Prop :=
  ∀ event ∈ events, isClientStreamTerminal event = true → payload event = "[DONE]"

/-- Every event ends the stream, and the only one that is not the marker is blank. -/
def OneBlank (events : List StreamEvent) : Prop :=
  (∀ event ∈ events, isClientStreamTerminal event = true) ∧
    ∃ blank : StreamEvent, events.filter (fun event => payload event ≠ "[DONE]") = [blank] ∧
      IsSpace (payload blank).toList

/-! ## What the writers write -/

/-- A list of texts in brackets. -/
def bracketed (items : List String) : String := "[" ++ joinWith ',' items ++ "]"

theorem toList_bracketed (items : List String) :
    (bracketed items).toList = '[' :: (commaList (items.map String.toList) ++ [']']) := by
  unfold bracketed joinWith commaList
  rw [String.toList_append, String.toList_append, String.toList_intercalate]
  simp

theorem writeGemini_eq (events : List StreamEvent) :
    writeGeminiJsonStreamResponse ((events.map httpEvent).map .ok) =
      .ok (bracketed ((events.filter fun event => payload event ≠ "[DONE]").map payload)) := by
  have hok : ∀ events : List HttpStreamEvent,
      (events.map (Except.ok (ε := ConduitError))).mapM id = .ok events := by
    intro events
    induction events with
    | nil => rfl
    | cons event events ih =>
        rw [List.map_cons, List.mapM_cons, ih]
        rfl
  have hdata : ((events.map httpEvent).filter fun event => event.data ≠ "[DONE]").map (·.data) =
      (events.filter fun event => payload event ≠ "[DONE]").map payload := by
    rw [List.filter_map, List.map_map]
    rfl
  unfold writeGeminiJsonStreamResponse
  rw [hok]
  show Except.ok _ = _
  rw [hdata]
  rfl

/-- The events the live writer writes. -/
def Written (event : StreamEvent) : Prop :=
  payload event ≠ "[DONE]" ∧ ¬ (payload event = "" ∧ event.done = true)

instance : DecidablePred Written := fun _ =>
  inferInstanceAs (Decidable (_ ∧ _))

/-- A chunk for each event, after a comma unless it is the first one. -/
def itemChunks : Bool → List StreamEvent → List String
  | _, [] => ["]"]
  | emitted, event :: events =>
      if Written event then
        ((if emitted then "," else "") ++ payload event) :: itemChunks true events
      else itemChunks emitted events

namespace LiveGeminiJson

/-- The loop writes what is left of the channel over. -/
theorem receive_rx (rx rx' : List Receipt) (emitted : Bool) (left : List Receipt) :
    receive ⟨rx, true, emitted, false⟩ left = receive ⟨rx', true, emitted, false⟩ left := by
  induction left with
  | nil => rfl
  | cons receipt left ih =>
      cases receipt with
      | event event =>
          unfold receive
          dsimp only
          rw [ih]
      | error err => rfl
      | pending => rfl

theorem receive_written {event : StreamEvent} (h : Written event) (this : LiveGeminiJson)
    (rx : List Receipt) :
    this.receive (.event event :: rx) =
      (.item (.ok ((if this.emittedItem then "," else "") ++ payload event)),
        { this with rx := rx, emittedItem := true }) :=
  if_neg (not_or.mpr h)

theorem receive_skipped {event : StreamEvent} (h : ¬ Written event) (this : LiveGeminiJson)
    (rx : List Receipt) : this.receive (.event event :: rx) = this.receive rx := by
  refine if_pos ?_
  unfold Written at h
  by_contra hnot
  exact h (not_or.mp hnot)

/-- The polls after the opening bracket. A skipped event costs no poll. -/
theorem chunks_delivered {rx : List Receipt} {events : List StreamEvent}
    (h : Delivers rx events) (emitted : Bool) {polls : Nat} (hpolls : rx.length + 2 ≤ polls) :
    chunks polls ⟨rx, true, emitted, false⟩ = (itemChunks emitted events).map .ok := by
  induction h generalizing emitted polls with
  | closed =>
      obtain ⟨polls, rfl⟩ := Nat.exists_eq_add_of_le' hpolls
      rfl
  | @event rx events event _ ih =>
      rw [List.length_cons] at hpolls
      obtain ⟨polls, rfl⟩ : ∃ n : Nat, polls = n + 1 := ⟨polls - 1, by omega⟩
      by_cases hwritten : Written event
      · have hpoll : pollNext ⟨.event event :: rx, true, emitted, false⟩ =
            (.item (.ok ((if emitted then "," else "") ++ payload event)),
              ⟨rx, true, true, false⟩) := receive_written hwritten _ rx
        rw [chunks, hpoll]
        dsimp only
        rw [ih true (by omega), itemChunks, if_pos hwritten, List.map_cons]
      · have hpoll : pollNext ⟨.event event :: rx, true, emitted, false⟩ =
            pollNext ⟨rx, true, emitted, false⟩ :=
          (receive_skipped hwritten _ rx).trans (receive_rx _ _ emitted rx)
        have hrest : chunks (polls + 1) ⟨rx, true, emitted, false⟩ = _ := ih emitted (by omega)
        rw [chunks] at hrest ⊢
        rw [hpoll, hrest, itemChunks, if_neg hwritten]
  | @pending rx events _ ih =>
      rw [List.length_cons] at hpolls
      obtain ⟨polls, rfl⟩ : ∃ n : Nat, polls = n + 1 := ⟨polls - 1, by omega⟩
      have hpoll : pollNext ⟨.pending :: rx, true, emitted, false⟩ =
          (.pending, ⟨rx, true, emitted, false⟩) := rfl
      rw [chunks, hpoll]
      exact ih emitted (by omega)

theorem chunks_new {rx : List Receipt} {events : List StreamEvent} (h : Delivers rx events)
    {polls : Nat} (hpolls : rx.length + 3 ≤ polls) :
    (new rx).chunks polls = ("[" :: itemChunks false events).map .ok := by
  obtain ⟨polls, rfl⟩ : ∃ n : Nat, polls = n + 1 := ⟨polls - 1, by omega⟩
  have hpoll : (new rx).pollNext = (.item (.ok "["), ⟨rx, true, false, false⟩) := rfl
  rw [chunks, hpoll]
  dsimp only
  rw [chunks_delivered h false (by omega)]
  rfl

end LiveGeminiJson

/-- The chunks joined are the items in brackets. -/
theorem join_itemChunks (events : List StreamEvent) :
    String.join ("[" :: itemChunks false events) =
      bracketed ((events.filter fun event => Written event).map payload) := by
  have hseparated : ∀ events : List StreamEvent, (String.join (itemChunks true events)).toList =
      ((events.filter fun event => Written event).map payload).flatMap (fun item =>
        ',' :: item.toList) ++ [']'] := by
    intro events
    induction events with
    | nil => rfl
    | cons event events ih =>
        unfold itemChunks
        by_cases hwritten : Written event
        · simp [hwritten, ih]
        · simp [hwritten, ih]
  have hitems : ∀ events : List StreamEvent, (String.join (itemChunks false events)).toList =
      commaList (((events.filter fun event => Written event).map payload).map String.toList) ++
        [']'] := by
    intro events
    induction events with
    | nil => rfl
    | cons event events ih =>
        unfold itemChunks
        by_cases hwritten : Written event
        · simp [hwritten, hseparated, commaList_cons, List.flatMap_map]
        · simp [hwritten, ih]
  rw [← String.toList_inj, toList_bracketed, String.join_cons, String.toList_append, hitems]
  rfl

/-! ## When it is the array of the payloads -/

/-- Of the events in the body, those that do not end the stream are its payloads. -/
theorem decodesTo_bracketed_iff {events : List StreamEvent} (kept : StreamEvent → Bool)
    (hkept : ∀ event ∈ events, isClientStreamTerminal event = false → kept event = true)
    (hjson : ∀ event ∈ events, isClientStreamTerminal event = false →
      IsJson (payload event).toList) :
    DecodesTo (bracketed ((events.filter kept).map payload)) (payloads events) ↔
      (∀ event ∈ events, kept event = true → isClientStreamTerminal event = false) ∨
        (∀ event ∈ events, isClientStreamTerminal event = true) ∧
          ∃ blank : StreamEvent, events.filter kept = [blank] ∧ IsSpace (payload blank).toList := by
  have hfilter : (events.filter fun event => !isClientStreamTerminal event).Sublist
      (events.filter kept) := by
    have hboth : (events.filter kept).filter (fun event => !isClientStreamTerminal event) =
        events.filter fun event => !isClientStreamTerminal event := by
      rw [List.filter_filter]
      refine List.filter_congr fun event hevent => ?_
      cases hterminal : isClientStreamTerminal event
      · simp [hkept event hevent hterminal]
      · simp
    exact hboth ▸ List.filter_sublist
  have hsub : ((payloads events).map String.toList).Sublist
      (((events.filter kept).map payload).map String.toList) := (hfilter.map _).map _
  have hvalues : ∀ e ∈ (payloads events).map String.toList, IsJson e := by
    intro e he
    unfold payloads at he
    simp only [List.mem_map, List.mem_filter, Bool.not_eq_true', exists_exists_and_eq_and] at he
    obtain ⟨event, ⟨hevent, hterminal⟩, rfl⟩ := he
    exact hjson event hevent hterminal
  have harray := isArrayOf_iff_of_sublist hsub hvalues
  rw [← toList_bracketed] at harray
  have hdecodes : DecodesTo (bracketed ((events.filter kept).map payload)) (payloads events) ↔
      IsArrayOf (bracketed ((events.filter kept).map payload)).toList
        ((payloads events).map String.toList) :=
    and_iff_left_of_imp fun h _ hother => hother.unique h
  rw [hdecodes, harray]
  refine or_congr ?_ ?_
  · constructor
    · intro heq event hevent hkeep
      have hlength := congrArg List.length heq
      simp only [payloads, List.length_map] at hlength
      have hmem : event ∈ events.filter fun event => !isClientStreamTerminal event := by
        rw [hfilter.eq_of_length hlength]
        exact List.mem_filter.mpr ⟨hevent, hkeep⟩
      simpa using (List.mem_filter.mp hmem).2
    · intro h
      refine congrArg (fun es => (es.map payload).map String.toList)
        (List.filter_congr fun event hevent => ?_)
      cases hterminal : isClientStreamTerminal event
      · simp [hkept event hevent hterminal]
      · cases hkeep : kept event
        · rfl
        · rw [h event hevent hkeep] at hterminal
          exact absurd hterminal (by decide)
  · refine and_congr ?_ ?_
    · simp [payloads, List.filter_eq_nil_iff]
    · constructor
      · rintro ⟨text, hone, hblank⟩
        rw [List.map_map] at hone
        obtain ⟨blank, hfiltered, rfl⟩ := List.map_eq_singleton_iff.mp hone
        exact ⟨blank, hfiltered, hblank⟩
      · rintro ⟨blank, hfiltered, hblank⟩
        exact ⟨_, by rw [hfiltered]; rfl, hblank⟩

/-- An event that does not end the stream is written by both writers. -/
theorem not_marker {event : StreamEvent} (h : isClientStreamTerminal event = false) :
    payload event ≠ "[DONE]" ∧ event.done = false := by
  unfold isClientStreamTerminal at h
  simp only [Bool.or_eq_false_iff] at h
  refine ⟨fun hmarker => ?_, h.1.1⟩
  cases hdata : event.data with
  | none =>
      rw [payload, hdata] at hmarker
      exact absurd hmarker (by decide)
  | some data =>
      rw [payload, hdata] at hmarker
      have hnot := h.1.2
      rw [hdata, show data = "[DONE]" from hmarker] at hnot
      exact absurd hnot (by decide)

section Bodies

variable {events : List StreamEvent}
  (hjson : ∀ event ∈ events, isClientStreamTerminal event = false → IsJson (payload event).toList)

include hjson

theorem buffered_iff :
    (∃ body : String, writeGeminiJsonStreamResponse ((events.map httpEvent).map .ok) = .ok body ∧
      DecodesTo body (payloads events)) ↔ MarkedOnly events ∨ OneBlank events := by
  have hbody := decodesTo_bracketed_iff (fun event => payload event ≠ "[DONE]")
    (fun event _ h => decide_eq_true (not_marker h).1) hjson
  have hmarked : (∀ event ∈ events, decide (payload event ≠ "[DONE]") = true →
      isClientStreamTerminal event = false) ↔ MarkedOnly events := by
    refine forall₂_congr fun event _ => ?_
    rw [decide_eq_true_iff, ← not_imp_not, not_not, Bool.not_eq_false]
  rw [hmarked] at hbody
  rw [writeGemini_eq, ← show _ ↔ MarkedOnly events ∨ OneBlank events from hbody]
  constructor
  · rintro ⟨body, hok, hdecodes⟩
    obtain rfl := Except.ok.inj hok
    exact hdecodes
  · exact fun h => ⟨_, rfl, h⟩

/-- What the live writer leaves out besides is an empty event that ends the stream. -/
theorem live_of_buffered (h : MarkedOnly events ∨ OneBlank events) :
    DecodesTo (bracketed ((events.filter fun event => Written event).map payload))
      (payloads events) := by
  refine (decodesTo_bracketed_iff (fun event => Written event) (fun event _ h => ?_) hjson).mpr ?_
  · obtain ⟨hmarker, hdone⟩ := not_marker h
    exact decide_eq_true ⟨hmarker, fun hend => absurd (hdone.symm.trans hend.2) (by decide)⟩
  rcases h with hmarker | ⟨hterminal, blank, hfilter, hblank⟩
  · refine .inl fun event hevent hwritten => ?_
    by_contra hterminal
    exact (of_decide_eq_true hwritten).1
      (hmarker event hevent (by simpa using hterminal))
  have hwritten : events.filter (fun event => Written event) =
      [blank].filter fun event => Written event := by
    rw [← hfilter, List.filter_filter]
    refine List.filter_congr fun event _ => ?_
    by_cases h : Written event
    · simp [h, h.1]
    · simp [h]
  by_cases h : Written blank
  · refine .inr ⟨hterminal, blank, ?_, hblank⟩
    rw [hwritten]
    simp [h]
  · refine .inl fun event hevent hkeep => ?_
    have hmem : event ∈ events.filter fun event => Written event :=
      List.mem_filter.mpr ⟨hevent, hkeep⟩
    rw [hwritten] at hmem
    simp [h] at hmem

end Bodies

theorem gemini_array_iff (events : List StreamEvent)
    (hjson : ∀ event ∈ events, isClientStreamTerminal event = false →
      IsJson (payload event).toList) :
    WritesPayloads events ↔ MarkedOnly events ∨ OneBlank events := by
  constructor
  · rintro ⟨hbuffered, -⟩
    exact (buffered_iff hjson).mp hbuffered
  · intro h
    refine ⟨(buffered_iff hjson).mpr h, fun rx hrx polls hpolls => ?_⟩
    refine ⟨_, LiveGeminiJson.chunks_new hrx hpolls, ?_⟩
    rw [join_itemChunks]
    exact live_of_buffered hjson h

/-- An event with these data. -/
def dataEvent (data : String) (done : Bool) : StreamEvent := ⟨none, none, some data, none, done⟩

theorem isJson_digit : IsJson "1".toList := by
  have hdigits : IsDigits ['1'] := ⟨by simp, by simp⟩
  exact .number ⟨[], ['1'], [], [], by simp, by simp, hdigits, by simp, .inl rfl, .inl rfl⟩

theorem gemini_array_sample :
    (∀ event ∈ [dataEvent "1" false, dataEvent "[DONE]" true],
        isClientStreamTerminal event = false → IsJson (payload event).toList) ∧
      (WritesPayloads [dataEvent "1" false, dataEvent "[DONE]" true] ↔
        MarkedOnly [dataEvent "1" false, dataEvent "[DONE]" true] ∨
          OneBlank [dataEvent "1" false, dataEvent "[DONE]" true]) :=
  have hjson : ∀ event ∈ [dataEvent "1" false, dataEvent "[DONE]" true],
      isClientStreamTerminal event = false → IsJson (payload event).toList := by
    intro event hevent hterminal
    rcases List.mem_cons.mp hevent with rfl | hevent
    · exact isJson_digit
    · rw [List.mem_singleton.mp hevent] at hterminal
      exact absurd hterminal (by decide)
  ⟨hjson, gemini_array_iff _ hjson⟩

theorem empty_terminal_written :
    (∀ event ∈ [dataEvent "1" false, dataEvent "" true],
        isClientStreamTerminal event = false → IsJson (payload event).toList) ∧
      ¬ WritesPayloads [dataEvent "1" false, dataEvent "" true] := by
  have hjson : ∀ event ∈ [dataEvent "1" false, dataEvent "" true],
      isClientStreamTerminal event = false → IsJson (payload event).toList := by
    intro event hevent hterminal
    rcases List.mem_cons.mp hevent with rfl | hevent
    · exact isJson_digit
    · rw [List.mem_singleton.mp hevent] at hterminal
      exact absurd hterminal (by decide)
  refine ⟨hjson, fun h => ?_⟩
  rcases (buffered_iff hjson).mp h.1 with hmarker | ⟨hterminal, -⟩
  · exact absurd (hmarker (dataEvent "" true) (by simp) (by decide)) (by decide)
  · exact absurd (hterminal (dataEvent "1" false) (by simp)) (by decide)

end Conduit.Http.GeminiArray
