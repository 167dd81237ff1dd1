import Conduit.Middlewares.PromptProtection
import Conduit.Orchestrator.SentBody

/-!
# Masked text on its way to the provider

Prompt protection masks the messages of the unified request, from which the
transformer makes the body for the provider. Pass-through puts the client's own
body back after it, so that protection does not take effect there.

Two requests that the rules mask alike are kept alike rule by rule: each rule
that is done leaves a pair alike for the rules that are still to come, and a
pair that is alike for no rules is equal.
-/

namespace Conduit.Orchestrator.MaskedText

open Base Base.Text Pipeline Transformers Middlewares.PromptProtection SentBody

/-! ## The chain -/

section Chain

variable (engine : TextEngine) (serde : Serde)

/-- The executor prefers the bytes of a request to its JSON body. -/
def sentBytes (request : Outbound) : Option (List UInt8) :=
  request.body.or (request.jsonBody.map serde.toVec)

/-- What a provider receives for a request: protection, the transformer of the
channel, overrides, pass-through, and the executor. -/
def upstreamBody (rules : Except String (List PromptProtectionRuleRow))
    (transformRequest : Transformers.LlmRequest → Except ConduitError Outbound)
    (overrides : ChannelOverrides)
    (passThrough : PassThrough) (path : Path) (request : Transformers.LlmRequest) :
    Except ConduitError (Option (List UInt8)) := do
  let request ← onInboundLlmRequest engine rules request
  let outbound ← transformRequest request
  return sentBytes serde (stampStream path
    (passThroughRequestBody serde passThrough (overrideRequest serde overrides outbound)))

end Chain

/-! ## Requests masked alike -/

section Alike

variable (engine : TextEngine)

def IsMask (rule : PromptRule) : Prop := rule.settings.action = promptProtectionActionMask

/-- A text after one rule. -/
def maskText (role : String) (text : String) (rule : PromptRule) : String :=
  if inScope rule.settings.scopes role = true ∧
      matchProtectionPattern engine rule.pattern text = true then
    replaceProtectionPattern engine rule.pattern text
      (rule.settings.replacement.getD "[REDACTED]")
  else text

/-- A text after all rules. -/
def masked (rules : List PromptRule) (role text : String) : String :=
  rules.foldl (maskText engine role) text

inductive PartAlike (rules : List PromptRule) (role : String) : ContentPart → ContentPart → Prop
  | same (part : ContentPart) : PartAlike rules role part part
  | text (part : ContentPart) (text text' : String)
      (hpart : eqIgnoreAsciiCase part.partType "text" = true)
      (hmasked : masked engine rules role text = masked engine rules role text') :
      PartAlike rules role { part with text := some text } { part with text := some text' }

inductive ContentAlike (rules : List PromptRule) (role : String) :
    Option MessageContent → Option MessageContent → Prop
  | same (content : Option MessageContent) : ContentAlike rules role content content
  | text (text text' : String)
      (hmasked : masked engine rules role text = masked engine rules role text') :
      ContentAlike rules role (some (.text text)) (some (.text text'))
  | parts (parts parts' : List ContentPart)
      (hparts : List.Forall₂ (PartAlike engine rules role) parts parts') :
      ContentAlike rules role (some (.parts parts)) (some (.parts parts'))

/-- Two messages that differ only in texts that the rules mask alike. -/
inductive MessageAlike (rules : List PromptRule) : ChatMessage → ChatMessage → Prop
  | mk (msg : ChatMessage) (content content' : Option MessageContent)
      (hcontent : ContentAlike engine rules msg.role content content') :
      MessageAlike rules { msg with content := content } { msg with content := content' }

/-- Two requests that differ only in such messages. The system prompt of an
Anthropic client is no message but a field of `extra`, which no rule scans. -/
inductive RequestAlike (rules : List PromptRule) :
    Transformers.LlmRequest → Transformers.LlmRequest → Prop
  | same (request : Transformers.LlmRequest) : RequestAlike rules request request
  | chat (request : Transformers.LlmRequest) (chat : ChatRequest)
      (messages messages' : List ChatMessage)
      (hmessages : List.Forall₂ (MessageAlike engine rules) messages messages') :
      RequestAlike rules
        { request with payload := .chat { chat with messages := messages } }
        { request with payload := .chat { chat with messages := messages' } }

end Alike

/-! ## One rule -/

section OneRule

variable (engine : TextEngine)

def maskPart (rule : PromptRule) (role : String) (part : ContentPart) : ContentPart :=
  if eqIgnoreAsciiCase part.partType "text" then
    { part with text := part.text.map fun text => maskText engine role text rule }
  else part

def maskContent (rule : PromptRule) (role : String) (content : MessageContent) : MessageContent :=
  match content with
  | .text text => .text (maskText engine role text rule)
  | .parts parts => .parts (parts.map (maskPart engine rule role))
  | content => content

def maskMessage (rule : PromptRule) (msg : ChatMessage) : ChatMessage :=
  { msg with content := msg.content.map (maskContent engine rule msg.role) }

variable {engine} {rule : PromptRule}

theorem enforcedVerdict_mask (hmask : IsMask rule) (role text : String) :
    enforcedVerdict engine rule role text = some (maskText engine role text rule) := by
  have hreject : rule.settings.action ≠ promptProtectionActionReject := by
    rw [hmask]
    decide
  unfold enforcedVerdict maskText
  by_cases hmatch : inScope rule.settings.scopes role = true ∧
      matchProtectionPattern engine rule.pattern text = true
  · rw [if_pos hmatch, if_pos hmatch, if_neg hreject]
    exact if_pos hmask
  · rw [if_neg hmatch, if_neg hmatch]

theorem onPart_mask (hmask : IsMask rule) (role : String) (part : ContentPart) :
    onPart (enforcedVerdict engine rule) role part = some (maskPart engine rule role part) := by
  unfold onPart maskPart
  by_cases htext : eqIgnoreAsciiCase part.partType "text" = true
  · rw [if_pos htext, if_pos htext]
    rcases part with ⟨partType, _ | text⟩
    · rfl
    · dsimp only
      rw [enforcedVerdict_mask hmask]
      rfl
  · rw [if_neg htext, if_neg htext]

theorem onMessage_mask (hmask : IsMask rule) (msg : ChatMessage) :
    onMessage (enforcedVerdict engine rule) msg = some (maskMessage engine rule msg) := by
  rcases msg with ⟨role, name, content, toolCalls, toolCallId, extra⟩
  unfold onMessage maskMessage
  rcases content with _ | content
  · rfl
  cases content with
  | text text =>
      dsimp only
      rw [enforcedVerdict_mask hmask]
      rfl
  | parts parts =>
      dsimp only
      rw [funext (onPart_mask hmask role)]
      show Option.map _ (parts.mapM fun part => pure (maskPart engine rule role part)) = _
      rw [List.mapM_pure]
      rfl
  | _ => rfl

/-- A mask rule rejects nothing. -/
theorem protectWith_mask (hmask : IsMask rule) (messages : List ChatMessage) :
    protectWith engine messages rule.row = .ok (messages.map (maskMessage engine rule)) := by
  have hoption := protectWith_toOption engine messages rule
  rw [funext (onMessage_mask hmask)] at hoption
  have hmap : (messages.mapM fun msg => some (maskMessage engine rule msg)) =
      some (messages.map (maskMessage engine rule)) :=
    List.mapM_pure
  rw [hmap] at hoption
  cases hprotect : protectWith engine messages rule.row with
  | error err =>
      rw [hprotect] at hoption
      cases hoption
  | ok protectedMessages =>
      rw [hprotect] at hoption
      rw [Option.some.inj hoption]

/-! A rule that is done leaves a pair alike for the rules that are still to come. -/

variable {rules : List PromptRule}

theorem PartAlike.step {role : String} {part part' : ContentPart}
    (h : PartAlike engine (rule :: rules) role part part') :
    PartAlike engine rules role (maskPart engine rule role part)
      (maskPart engine rule role part') := by
  cases h with
  | same => exact .same _
  | text part text text' hpart hmasked =>
      unfold maskPart
      rw [if_pos hpart, if_pos hpart]
      exact .text part _ _ hpart hmasked

theorem ContentAlike.step {role : String} {content content' : Option MessageContent}
    (h : ContentAlike engine (rule :: rules) role content content') :
    ContentAlike engine rules role (content.map (maskContent engine rule role))
      (content'.map (maskContent engine rule role)) := by
  cases h with
  | same => exact .same _
  | text text text' hmasked => exact .text _ _ hmasked
  | parts parts parts' hparts =>
      refine .parts _ _ ?_
      rw [List.forall₂_map_left_iff, List.forall₂_map_right_iff]
      exact hparts.imp fun _ _ hpart => hpart.step

theorem MessageAlike.step {msg msg' : ChatMessage}
    (h : MessageAlike engine (rule :: rules) msg msg') :
    MessageAlike engine rules (maskMessage engine rule msg) (maskMessage engine rule msg') := by
  cases h with
  | mk msg content content' hcontent => exact .mk msg _ _ hcontent.step

end OneRule

/-! ## All rules -/

section AllRules

variable {engine : TextEngine}

theorem PartAlike.eq_of_nil {role : String} {part part' : ContentPart}
    (h : PartAlike engine [] role part part') : part = part' := by
  cases h with
  | same => rfl
  | text part text text' _ hmasked =>
      have htext : text = text' := hmasked
      rw [htext]

theorem MessageAlike.eq_of_nil {msg msg' : ChatMessage} (h : MessageAlike engine [] msg msg') :
    msg = msg' := by
  rcases h with ⟨msg, content, content', hcontent⟩
  have heq : content = content' := by
    cases hcontent with
    | same => rfl
    | text text text' hmasked =>
        have htext : text = text' := hmasked
        rw [htext]
    | parts parts parts' hparts =>
        have hforall : List.Forall₂ (· = ·) parts parts' := hparts.imp fun _ _ h => h.eq_of_nil
        rw [List.forall₂_eq_eq_eq] at hforall
        rw [hforall]
  rw [heq]

/-- Requests masked alike leave protection as one and the same. -/
theorem protected_eq {rules : List PromptRule} (hrules : ∀ rule ∈ rules, IsMask rule)
    {messages messages' : List ChatMessage}
    (h : List.Forall₂ (MessageAlike engine rules) messages messages') :
    (rules.map PromptRule.row).foldlM (protectWith engine) messages =
      (rules.map PromptRule.row).foldlM (protectWith engine) messages' := by
  induction rules generalizing messages messages' with
  | nil =>
      have hforall : List.Forall₂ (· = ·) messages messages' := h.imp fun _ _ h => h.eq_of_nil
      rw [List.forall₂_eq_eq_eq] at hforall
      rw [hforall]
  | cons rule rules ih =>
      have hmask := hrules rule List.mem_cons_self
      rw [List.map_cons, List.foldlM_cons, List.foldlM_cons, protectWith_mask hmask,
        protectWith_mask hmask]
      refine ih (fun r hr => hrules r (List.mem_cons_of_mem _ hr)) ?_
      rw [List.forall₂_map_left_iff, List.forall₂_map_right_iff]
      exact h.imp fun _ _ hmessage => hmessage.step

theorem onInboundLlmRequest_eq {rules : List PromptRule} (hrules : ∀ rule ∈ rules, IsMask rule)
    {request request' : Transformers.LlmRequest} (h : RequestAlike engine rules request request') :
    onInboundLlmRequest engine (.ok (rules.map PromptRule.row)) request =
      onInboundLlmRequest engine (.ok (rules.map PromptRule.row)) request' := by
  cases h with
  | same => rfl
  | chat request chat messages messages' hmessages =>
      unfold onInboundLlmRequest
      dsimp only
      rw [protected_eq hrules hmessages]

/-- Protection touches the messages of a chat and nothing else, `extra` included. -/
theorem onInboundLlmRequest_frame {rules : Except String (List PromptProtectionRuleRow)}
    {request request' : Transformers.LlmRequest}
    (h : onInboundLlmRequest engine rules request = .ok request') :
    request' = request ∨ ∃ (chat : ChatRequest) (messages : List ChatMessage),
      request.payload = .chat chat ∧
        request' = { request with payload := .chat { chat with messages := messages } } := by
  unfold onInboundLlmRequest at h
  cases rules with
  | error err => exact .inl (Except.ok.inj h).symm
  | ok rules =>
      dsimp only at h
      split at h
      · next chat hchat =>
          cases hfold : rules.foldlM (protectWith engine) chat.messages with
          | error err =>
              rw [hfold] at h
              cases h
          | ok messages =>
              rw [hfold] at h
              exact .inr ⟨chat, messages, hchat, (Except.ok.inj h).symm⟩
      · exact .inl (Except.ok.inj h).symm

end AllRules

/-! ## Without pass-through -/

section Upstream

/-- Pass-through is on, and the client speaks the format of the provider. -/
def PassesThrough (passThrough : PassThrough) : Prop :=
  passThrough.enabled = true ∧ passThrough.clientFormat ≠ none ∧
    passThrough.clientFormat = passThrough.upstreamFormat

theorem passedThrough_none (serde : Serde) {passThrough : PassThrough}
    (h : ¬ PassesThrough passThrough) (raw : Option String) :
    passedThrough serde { passThrough with rawInboundBody := raw } = none := by
  unfold passedThrough
  by_cases henabled : passThrough.enabled = false
  · exact if_pos henabled
  · rw [if_neg henabled]
    refine if_pos ?_
    by_contra hformats
    rw [not_or, not_not] at hformats
    exact h ⟨by simpa using henabled, hformats⟩

/-- Where pass-through is in effect, the provider gets the client's body,
whatever protection made of the messages. -/
theorem upstreamBody_passed (engine : TextEngine) (serde : Serde)
    (rules : Except String (List PromptProtectionRuleRow))
    (transformRequest : Transformers.LlmRequest → Except ConduitError Outbound)
    (overrides : ChannelOverrides)
    {passThrough : PassThrough} (path : Path) {request sentRequest : Transformers.LlmRequest}
    {outbound : Outbound} {bytes : List UInt8}
    (hprotect : onInboundLlmRequest engine rules request = .ok sentRequest)
    (htransform : transformRequest sentRequest = .ok outbound)
    (hpassed : passedThrough serde passThrough = some bytes) :
    upstreamBody engine serde rules transformRequest overrides passThrough path request =
      .ok (some bytes) := by
  unfold upstreamBody passThroughRequestBody
  rw [hprotect, hpassed]
  show (transformRequest sentRequest >>= _) = _
  rw [htransform]
  cases path <;> rfl

/-- **Masked text does not reach a provider** unless the client's body is passed
through: what is sent is the same for requests that the rules mask alike,
whatever bodies the clients sent. -/
theorem masked_text_never_sent (engine : TextEngine) (serde : Serde) {rules : List PromptRule}
    (hrules : ∀ rule ∈ rules, IsMask rule)
    (transformRequest : Transformers.LlmRequest → Except ConduitError Outbound)
    (overrides : ChannelOverrides)
    {passThrough : PassThrough} (hpass : ¬ PassesThrough passThrough) (path : Path)
    {request request' : Transformers.LlmRequest} (h : RequestAlike engine rules request request')
    (raw raw' : Option String) :
    upstreamBody engine serde (.ok (rules.map PromptRule.row)) transformRequest overrides
        { passThrough with rawInboundBody := raw } path request =
      upstreamBody engine serde (.ok (rules.map PromptRule.row)) transformRequest overrides
        { passThrough with rawInboundBody := raw' } path request' := by
  unfold upstreamBody passThroughRequestBody
  rw [passedThrough_none serde hpass, passedThrough_none serde hpass,
    onInboundLlmRequest_eq hrules h]

end Upstream

/-! ## Two secrets -/

/-- Both are masked to the default replacement. -/
def sampleRules : List PromptRule :=
  [⟨"1", "secrets", "secret", ⟨promptProtectionActionMask, none, []⟩⟩,
    ⟨"2", "tokens", "token", ⟨promptProtectionActionMask, none, []⟩⟩]

def askWith (text : String) : Transformers.LlmRequest := chatRequest [textMessage "user" text]

/-- The body that a client sent. -/
def bodyText (text : String) : String :=
  "\x7b\"messages\":[\x7b\"content\":\"" ++ text ++ "\"\x7d],\"model\":\"gpt\"\x7d"

def bodyOf (text : String) : Json :=
  .object [("messages", .array [.object [("content", .string text)]]), ("model", .string "gpt")]

/-- Reads and writes the two bodies. -/
def bodySerde : Serde where
  fromStr text :=
    if text = bodyText "secret" then some (bodyOf "secret")
    else if text = bodyText "token" then some (bodyOf "token") else none
  fromSlice _ := none
  toVec json :=
    asBytes (bodyText ((((json.get "messages").bind Json.asArray).bind List.head?).bind
      (·.get "content") |>.bind Json.asStr |>.getD ""))

/-- A transformer that copies the texts of a chat. -/
def sampleTransform (request : Transformers.LlmRequest) : Except ConduitError Outbound :=
  match request.payload with
  | .chat chat =>
      .ok { jsonBody := some (.object [("messages", .array (chat.messages.map fun msg =>
        match msg.content with
        | some (.text text) => .object [("content", .string text)]
        | _ => .null)), ("model", .string "gpt")]) }
  | _ => .ok {}

def samplePassThrough (enabled : Bool) : PassThrough :=
  ⟨enabled, some "openai/chat_completions", some "openai/chat_completions", none, "gpt"⟩

theorem sampleRules_mask : ∀ rule ∈ sampleRules, IsMask rule := by
  intro rule hrule
  rcases List.mem_cons.mp hrule with rfl | hrule
  · rfl
  · rw [List.mem_singleton.mp hrule]
    rfl

theorem secrets_alike : RequestAlike sampleEngine sampleRules (askWith "secret")
    (askWith "token") :=
  .chat (askWith "") {} _ _ (.cons (.mk (textMessage "user" "") _ _ (.text _ _ (by decide))) .nil)

theorem masked_text_never_sent_sample :
    upstreamBody sampleEngine bodySerde (.ok (sampleRules.map PromptRule.row)) sampleTransform {}
        { samplePassThrough false with rawInboundBody := some (bodyText "secret") } .live
        (askWith "secret") =
      upstreamBody sampleEngine bodySerde (.ok (sampleRules.map PromptRule.row)) sampleTransform {}
        { samplePassThrough false with rawInboundBody := some (bodyText "token") } .live
        (askWith "token") :=
  masked_text_never_sent sampleEngine bodySerde sampleRules_mask sampleTransform {}
    (fun h => Bool.false_ne_true h.1) .live secrets_alike _ _

/-- With pass-through the provider reads the secret. -/
theorem passed_through_unmasked :
    ¬ ∀ (engine : TextEngine) (serde : Serde) (rules : List PromptRule),
      (∀ rule ∈ rules, IsMask rule) →
      ∀ (transformRequest : Transformers.LlmRequest → Except ConduitError Outbound)
        (overrides : ChannelOverrides) (passThrough : PassThrough) (path : Path)
        (request request' : Transformers.LlmRequest), RequestAlike engine rules request request' →
      ∀ raw raw' : Option String,
        upstreamBody engine serde (.ok (rules.map PromptRule.row)) transformRequest overrides
            { passThrough with rawInboundBody := raw } path request =
          upstreamBody engine serde (.ok (rules.map PromptRule.row)) transformRequest overrides
            { passThrough with rawInboundBody := raw' } path request' := by
  intro h
  have hsame := h sampleEngine bodySerde sampleRules sampleRules_mask sampleTransform {}
    (samplePassThrough true) .buffered _ _ secrets_alike (some (bodyText "secret"))
    (some (bodyText "token"))
  have hsent : ∀ text ∈ ["secret", "token"],
      upstreamBody sampleEngine bodySerde (.ok (sampleRules.map PromptRule.row)) sampleTransform {}
        { samplePassThrough true with rawInboundBody := some (bodyText text) } .buffered
        (askWith text) = .ok (some (asBytes (bodyText text))) := by
    intro text htext
    have hpassed : passedThrough bodySerde
        { samplePassThrough true with rawInboundBody := some (bodyText text) } =
          some (asBytes (bodyText text)) := by
      revert text
      decide
    have hprotect : onInboundLlmRequest sampleEngine (.ok (sampleRules.map PromptRule.row))
        (askWith text) = .ok (askWith "[REDACTED]") := by
      rcases List.mem_cons.mp htext with rfl | htext
      · rfl
      · rw [List.mem_singleton.mp htext]
        rfl
    exact upstreamBody_passed sampleEngine bodySerde _ sampleTransform {} .buffered hprotect rfl
      hpassed
  have hbytes := (hsent "secret" (by simp)).symm.trans (hsame.trans (hsent "token" (by simp)))
  exact absurd (Option.some.inj (Except.ok.inj hbytes)) (by decide)

end Conduit.Orchestrator.MaskedText
