import Conduit.Base.ParseInt
import Conduit.Pipeline.Attempts
import Conduit.Pipeline.Stream

/-!
# Server-sent events

`parse_sse_frames` splits a buffer into frames and keeps what comes after the
last blank line. The live loop parses the kept tail and the next chunk of the
body again and again; the one-shot executor parses the whole body once. The
client of the live loop keeps reading and does not cancel.
-/

namespace Conduit.Http.Sse

open Base Base.Text Pipeline

/-! ## Lines -/

/-- A line and what follows it: it ends with a line feed, a carriage return or
both. Without an end there is no line yet. -/
def readSseLine : List UInt8 → Option (List UInt8 × List UInt8)
  | [] => none
  | b :: input =>
      if b = 10 then some ([], input)
      else if b = 13 then
        match input with
        | 10 :: rest => some ([], rest)
        | rest => some ([], rest)
      else (readSseLine input).map fun (line, next) => (b :: line, next)

theorem readSseLine_length {input line next : List UInt8} (h : readSseLine input = some (line, next)) :
    next.length < input.length := by
  induction input generalizing line with
  | nil => exact absurd h (by simp [readSseLine])
  | cons b input ih =>
      unfold readSseLine at h
      split_ifs at h with hfeed hreturn
      · cases h
        exact Nat.lt_succ_self _
      · split at h <;> cases h <;> simp
      · obtain ⟨⟨tail, next'⟩, hread, heq⟩ := Option.map_eq_some_iff.mp h
        cases heq
        exact (ih hread).trans (Nat.lt_succ_self _)

def splitSseField (line : List UInt8) : List UInt8 × List UInt8 :=
  match line.dropWhile (· != 58) with
  | [] => (line, [])
  | _ :: value =>
      (line.takeWhile (· != 58), match value with
        | 32 :: value => value
        | value => value)

/-! ## Frames -/

structure SseFrame where
  lastEventId : Option String
  eventType : Option String
  data : String
  retry : Option Nat
deriving DecidableEq, Repr

structure PendingSseFrame where
  lastEventId : Option String
  eventType : Option String
  dataLines : List String
  retry : Option Nat
deriving DecidableEq, Repr

namespace PendingSseFrame

def empty : PendingSseFrame := ⟨none, none, [], none⟩

def applyLine (pending : PendingSseFrame) (line : List UInt8) : PendingSseFrame :=
  let (field, value) := splitSseField line
  if field = asBytes "data" then
    { pending with dataLines := pending.dataLines ++ [fromUtf8Lossy value] }
  else if field = asBytes "event" then { pending with eventType := some (fromUtf8Lossy value) }
  else if field = asBytes "id" then
    if value.contains 0 then pending else { pending with lastEventId := some (fromUtf8Lossy value) }
  else if field = asBytes "retry" then
    match ParseInt.parseUnsigned UInt64.size (fromUtf8Lossy value) with
    | some retry => { pending with retry := some retry }
    | none => pending
  else pending

def takeFrame (pending : PendingSseFrame) : Option SseFrame × PendingSseFrame :=
  if pending.dataLines.isEmpty && pending.lastEventId.isNone && pending.eventType.isNone &&
      pending.retry.isNone then
    (none, pending)
  else
    (some ⟨pending.lastEventId, pending.eventType, "\n".intercalate pending.dataLines, pending.retry⟩,
      empty)

/-- Nothing is pending after a frame was taken. -/
theorem takeFrame_pending (pending : PendingSseFrame) : pending.takeFrame.2 = empty := by
  unfold takeFrame
  split_ifs with hempty
  · obtain ⟨lastEventId, eventType, dataLines, retry⟩ := pending
    simp only [Bool.and_eq_true, List.isEmpty_iff, Option.isNone_iff_eq_none] at hempty
    obtain ⟨⟨⟨hdata, hid⟩, htype⟩, hretry⟩ := hempty
    dsimp only at hdata hid htype hretry ⊢
    rw [hdata, hid, htype, hretry]
    rfl
  · rfl

end PendingSseFrame

/-! ## Buffers -/

/-- `HttpDecodeError::SseEventTooLarge`. -/
structure SseEventTooLarge where
  max : Nat
deriving DecidableEq, Repr

structure SseParseResult where
  frames : List SseFrame
  incomplete : List UInt8
deriving DecidableEq, Repr

def maxSseEventSize : Nat := 32 * 1024 * 1024

/-- The loop over the lines: `event` is the input from the start of the current
event to the cursor, `cursor` the rest of the input. -/
def parseLines (maxEventSize : Nat) (event cursor : List UInt8) (pending : PendingSseFrame) :
    Except SseEventTooLarge SseParseResult :=
  match _hline : readSseLine cursor with
  | none =>
      if maxEventSize < (event ++ cursor).length then .error ⟨maxEventSize⟩
      else .ok ⟨[], event ++ cursor⟩
  | some (line, next) =>
      let event := event ++ cursor.take (cursor.length - next.length)
      if maxEventSize < event.length then .error ⟨maxEventSize⟩
      else if line = [] then
        (parseLines maxEventSize [] next pending.takeFrame.2).map fun parsed =>
          ⟨pending.takeFrame.1.toList ++ parsed.frames, parsed.incomplete⟩
      -- a comment
      else if line.head? = some 58 then parseLines maxEventSize event next pending
      else parseLines maxEventSize event next (pending.applyLine line)
termination_by cursor.length
decreasing_by all_goals exact readSseLine_length _hline

def parseSseFramesWithMaxEventSize (input : List UInt8) (maxEventSize : Nat) :
    Except SseEventTooLarge SseParseResult :=
  parseLines maxEventSize [] input .empty

def parseSseFrames (input : List UInt8) : Except SseEventTooLarge SseParseResult :=
  parseSseFramesWithMaxEventSize input maxSseEventSize

/-! ## Streams -/

/-- `StreamEvent::from`. The event's `size` is the length of its data. -/
def SseFrame.toStreamEvent (frame : SseFrame) : StreamEvent where
  lastEventId := frame.lastEventId
  eventType := frame.eventType
  data := some frame.data
  binary := none
  done := false

def maxChunkBytes : Nat := 64 * 1024 * 1024

def budgetExceeded : ConduitError := upstreamError "upstream SSE frame budget exceeded"

def parseFailed (err : SseEventTooLarge) : ConduitError :=
  upstreamError s!"failed to parse upstream stream: SSE event exceeded maximum size of {err.max} bytes"

def readFailed (message : String) : ConduitError :=
  upstreamError s!"upstream stream read failed: {message}"

/-- The loop of `execute_stream_live` over what `response.chunk()` returns. At
the end of the body the incomplete tail is dropped. -/
def liveLoop (buffer : List UInt8) : List (Except String (List UInt8)) →
    List (Except ConduitError StreamEvent)
  | [] => []
  | .error message :: _ => [.error (readFailed message)]
  | .ok bytes :: chunks =>
      if maxChunkBytes < buffer.length + bytes.length then [.error budgetExceeded]
      else
        match parseSseFrames (buffer ++ bytes) with
        | .error err => [.error (parseFailed err)]
        | .ok parsed =>
            parsed.frames.map (fun frame => .ok frame.toStreamEvent) ++
              liveLoop parsed.incomplete chunks

/-- `execute_stream` over the whole body. -/
def oneShot (body : List UInt8) : Except ConduitError (List StreamEvent) :=
  match parseSseFrames body with
  | .ok parsed => .ok (parsed.frames.map SseFrame.toStreamEvent)
  | .error _ => .error (upstreamError "failed to decode upstream text/event-stream body")

end Conduit.Http.Sse
