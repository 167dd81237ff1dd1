import Conduit.Transformers.Request

/-!
# Forcing the usage of a stream

`EnsureUsageMiddleware` sets `stream_options.include_usage` on a streaming
request. The options live on the chat payload: of a chat only the flag changes,
and a payload of another kind is replaced by a default chat.
-/

namespace Conduit.Middlewares

open Base Base.Json Transformers

def streamOptionsIncludeUsageKey : String := "include_usage"

inductive EnsureUsageOutcome
  | forcedIncludeUsage (created : Bool)
  | notStreaming
deriving DecidableEq, Repr

def streamOptionsWithIncludeUsage : Json := .object [(streamOptionsIncludeUsageKey, .bool true)]

/-- `force_include_usage_on_chat_payload`: whether the object is a fresh one. -/
def forceIncludeUsageOnChatPayload (chat : ChatRequest) : ChatRequest × Bool :=
  match chat.streamOptions with
  | some (.object fields) =>
      ({ chat with
          streamOptions := some (.object (insert streamOptionsIncludeUsageKey (.bool true) fields)) },
        false)
  | some _ => ({ chat with streamOptions := some streamOptionsWithIncludeUsage }, true)
  | none => ({ chat with streamOptions := some streamOptionsWithIncludeUsage }, true)

/-- `chat_payload_or_default_mut_inline`. -/
def chatPayloadOrDefault : LlmRequestPayload → ChatRequest
  | .chat chat => chat
  | _ => {}

def ensureUsage (request : LlmRequest) : LlmRequest × EnsureUsageOutcome :=
  if request.stream then
    let (chat, created) := forceIncludeUsageOnChatPayload (chatPayloadOrDefault request.payload)
    ({ request with payload := .chat chat }, .forcedIncludeUsage created)
  else (request, .notStreaming)

/-- `EnsureUsageMiddleware::on_inbound_llm_request`. -/
def ensureUsageMiddleware (request : LlmRequest) : LlmRequest := (ensureUsage request).1

/-! ## The flag and the frame -/

/-- A key of the stream options. -/
def streamOption (chat : ChatRequest) (name : String) : Option Json :=
  chat.streamOptions.bind fun options => options.get name

/-- The chat with the flag set, and everything else as it was. -/
structure ForcesUsage (chat chat' : ChatRequest) : Prop where
  flag : streamOption chat' streamOptionsIncludeUsageKey = some (.bool true)
  other : ∀ name : String, name ≠ streamOptionsIncludeUsageKey →
    streamOption chat' name = streamOption chat name
  frame : { chat' with streamOptions := chat.streamOptions } = chat

theorem forcesUsage_forceInclude (chat : ChatRequest) :
    ForcesUsage chat (forceIncludeUsageOnChatPayload chat).1 := by
  unfold forceIncludeUsageOnChatPayload
  split
  next fields h =>
    refine ⟨?_, fun name hname => ?_, rfl⟩
    · simp [streamOption, field_insert]
    · simp [streamOption, h, field_insert, hname]
  next value hobject h =>
    refine ⟨by simp [streamOption, streamOptionsWithIncludeUsage], fun name hname => ?_, rfl⟩
    have hget : value.get name = none := by
      cases value with
      | object fields => exact (hobject fields rfl).elim
      | _ => rfl
    simp [streamOption, h, hget, streamOptionsWithIncludeUsage, hname]
  next h =>
    refine ⟨by simp [streamOption, streamOptionsWithIncludeUsage], fun name hname => ?_, rfl⟩
    simp [streamOption, h, streamOptionsWithIncludeUsage, hname]

/-- Options with the flag are an object already. -/
theorem forceInclude_idem (chat : ChatRequest) :
    (forceIncludeUsageOnChatPayload (forceIncludeUsageOnChatPayload chat).1).1 =
      (forceIncludeUsageOnChatPayload chat).1 := by
  obtain ⟨fields, hoptions⟩ : ∃ fields : List (String × Json),
      (forceIncludeUsageOnChatPayload chat).1.streamOptions = some (.object fields) := by
    unfold forceIncludeUsageOnChatPayload
    split
    · exact ⟨_, rfl⟩
    · exact ⟨_, rfl⟩
    · exact ⟨_, rfl⟩
  have hflag := (forcesUsage_forceInclude chat).flag
  generalize (forceIncludeUsageOnChatPayload chat).1 = forced at hoptions hflag
  have hfield : field fields streamOptionsIncludeUsageKey = some (.bool true) := by
    simpa [streamOption, hoptions] using hflag
  have hforced : (forceIncludeUsageOnChatPayload forced).1 =
      { forced with
        streamOptions := some (.object (insert streamOptionsIncludeUsageKey (.bool true) fields)) } := by
    unfold forceIncludeUsageOnChatPayload
    rw [hoptions]
  rw [hforced, insert_of_field hfield, ← hoptions]

theorem ensureUsageMiddleware_streaming {request : LlmRequest} (h : request.stream = true) :
    ensureUsageMiddleware request =
      { request with
        payload := .chat (forceIncludeUsageOnChatPayload (chatPayloadOrDefault request.payload)).1 } := by
  unfold ensureUsageMiddleware ensureUsage
  rw [if_pos h]

/-! ## What the middleware leaves alone -/

/-- `request'` is `request` with the usage flag: on its own chat, or on a default one in
place of a payload of another kind. -/
structure AddsUsageFlag (request request' : LlmRequest) : Prop where
  frame : { request' with payload := request.payload } = request
  chat : ∀ chat : ChatRequest, request.payload = .chat chat →
    ∃ chat' : ChatRequest, request'.payload = .chat chat' ∧ ForcesUsage chat chat'
  otherKind : (∀ chat : ChatRequest, request.payload ≠ .chat chat) →
    ∃ chat' : ChatRequest, request'.payload = .chat chat' ∧ ForcesUsage {} chat'

theorem addsUsageFlag {request : LlmRequest} (h : request.stream = true) :
    AddsUsageFlag request (ensureUsageMiddleware request) := by
  rw [ensureUsageMiddleware_streaming h]
  refine ⟨rfl, fun chat hchat => ⟨_, rfl, ?_⟩, fun hother => ⟨_, rfl, ?_⟩⟩
  · rw [hchat]
    exact forcesUsage_forceInclude chat
  · have hdefault : chatPayloadOrDefault request.payload = {} := by
      unfold chatPayloadOrDefault
      split
      next chat hchat => exact absurd hchat (hother chat)
      next => rfl
    rw [hdefault]
    exact forcesUsage_forceInclude {}

theorem ensureUsageMiddleware_idem (request : LlmRequest) :
    ensureUsageMiddleware (ensureUsageMiddleware request) = ensureUsageMiddleware request := by
  by_cases h : request.stream = true
  · rw [ensureUsageMiddleware_streaming h]
    refine (ensureUsageMiddleware_streaming (by exact h)).trans ?_
    exact congrArg (fun chat => { request with payload := .chat chat }) (forceInclude_idem _)
  · unfold ensureUsageMiddleware ensureUsage
    rw [if_neg h, if_neg h]

/-- A request with the stream options of its chat taken out. -/
def withoutStreamOptions (request : LlmRequest) : LlmRequest :=
  match request.payload with
  | .chat chat => { request with payload := .chat { chat with streamOptions := none } }
  | _ => request

/-- The middleware changes the stream options and nothing else, of a chat's options the
flag and nothing else, and a second run changes nothing. -/
structure OnlyAddsUsageFlag (request : LlmRequest) : Prop where
  frame : withoutStreamOptions (ensureUsageMiddleware request) = withoutStreamOptions request
  options : ∀ chat : ChatRequest, request.payload = .chat chat →
    ∃ chat' : ChatRequest, (ensureUsageMiddleware request).payload = .chat chat' ∧
      ForcesUsage chat chat'
  idem : ensureUsageMiddleware (ensureUsageMiddleware request) = ensureUsageMiddleware request

theorem withoutStreamOptions_of_chat {request : LlmRequest} {chat : ChatRequest}
    (h : request.payload = .chat chat) :
    withoutStreamOptions request =
      { request with payload := .chat { chat with streamOptions := none } } := by
  unfold withoutStreamOptions
  rw [h]

theorem withoutStreamOptions_of_otherKind {request : LlmRequest}
    (h : ∀ chat : ChatRequest, request.payload ≠ .chat chat) :
    withoutStreamOptions request = request := by
  unfold withoutStreamOptions
  split
  next chat hchat => exact absurd hchat (h chat)
  next => rfl

/-- The stream options of a chat are all that its flag is in. -/
theorem withoutStreamOptions_forced {request request' : LlmRequest} {chat chat' : ChatRequest}
    (hframe : { request' with payload := request.payload } = request)
    (hchat : request.payload = .chat chat) (hchat' : request'.payload = .chat chat')
    (hforced : ForcesUsage chat chat') :
    withoutStreamOptions request' = withoutStreamOptions request := by
  have hsame : { chat' with streamOptions := none } = { chat with streamOptions := none } :=
    congrArg (fun chat : ChatRequest => { chat with streamOptions := none }) hforced.frame
  rw [withoutStreamOptions_of_chat hchat, withoutStreamOptions_of_chat hchat', hsame]
  exact congrArg (fun request : LlmRequest =>
    { request with payload := .chat { chat with streamOptions := none } }) hframe

theorem onlyAddsUsageFlag_iff (request : LlmRequest) (h : request.stream = true) :
    OnlyAddsUsageFlag request ↔ ∃ chat : ChatRequest, request.payload = .chat chat := by
  have hadds := addsUsageFlag h
  constructor
  · intro honly
    by_contra hnone
    have hother : ∀ chat : ChatRequest, request.payload ≠ .chat chat :=
      fun chat hchat => hnone ⟨chat, hchat⟩
    -- the default chat is in place of the payload
    obtain ⟨chat', hchat', -⟩ := hadds.otherKind hother
    have hframe := honly.frame
    rw [withoutStreamOptions_of_chat hchat', withoutStreamOptions_of_otherKind hother] at hframe
    exact hother _ (congrArg LlmRequest.payload hframe).symm
  · rintro ⟨chat, hchat⟩
    obtain ⟨chat', hchat', hforced⟩ := hadds.chat chat hchat
    exact ⟨withoutStreamOptions_forced hadds.frame hchat hchat' hforced, hadds.chat,
      ensureUsageMiddleware_idem request⟩

/-- A streaming chat with an option of its own. -/
def streamedChat : LlmRequest :=
  { requestType := .chat
    apiFormat := .openAiChatCompletions
    model := some "gpt-4o"
    stream := true
    payload := .chat
      { messages := [{ role := "user", content := some (.text "hi") }]
        streamOptions := some (.object [("include_obfuscation", .bool false)]) } }

theorem onlyAddsUsageFlag_streamedChat : OnlyAddsUsageFlag streamedChat :=
  (onlyAddsUsageFlag_iff streamedChat rfl).mpr ⟨_, rfl⟩

/-- What the Responses transformer reads from a streaming request with the input "hi". -/
def streamedResponses : LlmRequest :=
  { requestType := .chat
    apiFormat := .openAiResponses
    model := some "gpt-4o"
    stream := true
    payload := .responses
      (.object [("input", .string "hi"), ("tools", .array []), ("compact", .bool false)])
    metadata := [("openai_responses_messages",
      .array [.object [("role", .string "user"), ("content", .string "hi")]])] }

/-- Its payload becomes a chat without messages. -/
theorem responses_payload_replaced :
    ensureUsageMiddleware streamedResponses =
        { streamedResponses with payload := .chat { streamOptions := some streamOptionsWithIncludeUsage } } ∧
      ¬ OnlyAddsUsageFlag streamedResponses := by
  refine ⟨rfl, fun honly => ?_⟩
  have hpayload := congrArg LlmRequest.payload honly.frame
  exact nomatch hpayload

end Conduit.Middlewares
