import Conduit.Transformers.Request
import Mathlib

/-!
# Prompt protection and its preview

`PromptProtectionMiddleware` enforces the rules on the messages of a chat;
`preview_protection` shows what they would do. Both go over the rules, the
messages and the parts and let a rule change or reject each text, so each is
determined by what it makes of one text. There they differ in the default
replacement, in the comparison of a scope with a role, and on the empty text.
-/

namespace Conduit.Middlewares.PromptProtection

open Base Base.Text Pipeline Transformers

/-! ## Rules -/

/-- The regular expressions and the case folding both implementations use. -/
structure TextEngine where
  Regex : Type
  /-- `Regex::new`, none for a pattern that does not compile. -/
  compile : String → Option Regex
  isMatch : Regex → String → Bool
  replaceAll : Regex → String → String → String
  /-- `str::to_lowercase`. -/
  toLowercase : String → String

def promptProtectionActionMask : String := "mask"

def promptProtectionActionReject : String := "reject"

structure PromptProtectionSettings where
  action : String
  replacement : Option String
  scopes : List String
deriving DecidableEq, Repr

/-- A rule with its settings. -/
structure PromptRule where
  id : String
  name : String
  pattern : String
  settings : PromptProtectionSettings
deriving DecidableEq, Repr

variable (engine : TextEngine)

def validProtectionScopes : List String := ["system", "developer", "user", "assistant", "tool"]

/-- What a rule must pass to be stored. -/
def validateProtectionSettings (pattern : String) (settings : PromptProtectionSettings) :
    Except String Unit :=
  if (engine.compile pattern).isNone then .error ("invalid regex pattern: " ++ pattern)
  else if settings.action ≠ promptProtectionActionMask ∧
      settings.action ≠ promptProtectionActionReject then
    .error ("invalid action: " ++ settings.action)
  else if settings.action = promptProtectionActionMask ∧ settings.replacement.all (· = "") then
    .error "replacement is required for mask action"
  else
    match settings.scopes.find? fun scope => scope ∉ validProtectionScopes with
    | some scope => .error ("invalid scope: " ++ scope)
    | none => .ok ()

/-! ## The preview -/

def matchProtectionPattern (pattern content : String) : Bool :=
  match engine.compile pattern with
  | some re => engine.isMatch re content
  | none => false

def replaceProtectionPattern (pattern content replacement : String) : String :=
  match engine.compile pattern with
  | some re => engine.replaceAll re content replacement
  | none => content

/-- The new text, and whether the pattern matched. -/
def applyRuleToText (text pattern : String) (settings : PromptProtectionSettings) : String × Bool :=
  if text = "" ∨ matchProtectionPattern engine pattern text = false then (text, false)
  else
    (if settings.action = promptProtectionActionMask then
        replaceProtectionPattern engine pattern text (settings.replacement.getD "")
      else text, true)

def ruleAppliesToRole (scopes : List String) (role : String) : Bool :=
  scopes.isEmpty || scopes.contains (engine.toLowercase role)

structure ProtectionRuleHit where
  messageIndex : Nat
  role : String
  location : String
  before : String
  after : String
deriving DecidableEq, Repr

structure ProtectionRuleMatch where
  ruleId : String
  ruleName : String
  pattern : String
  action : String
  hits : List ProtectionRuleHit
  matched : Bool
deriving DecidableEq, Repr

structure ProtectionPreview where
  messages : Option (List ChatMessage)
  rejected : Bool
  rules : List ProtectionRuleMatch

/-- What a loop has seen so far: its hits, its value, and whether a rule rejected. -/
structure Seen (α : Type) where
  hits : List ProtectionRuleHit
  value : α
  rejected : Bool

def Seen.map {α β : Type} (f : α → β) (seen : Seen α) : Seen β :=
  ⟨seen.hits, f seen.value, seen.rejected⟩

/-- A loop over numbered elements that returns at the first rejection. -/
def previewEach {α : Type} (check : Nat → α → Seen α) : Nat → List α → Seen (List α)
  | _, [] => ⟨[], [], false⟩
  | i, a :: as =>
      let seen := check i a
      if seen.rejected then ⟨seen.hits, a :: as, true⟩
      else
        let rest := previewEach check (i + 1) as
        ⟨seen.hits ++ rest.hits, seen.value :: rest.value, rest.rejected⟩

/-- One text of a message in scope. -/
def previewText (rule : PromptRule) (messageIndex : Nat) (role location text : String) :
    Seen String :=
  if text = "" then ⟨[], text, false⟩
  else
    let (newText, didMatch) := applyRuleToText engine text rule.pattern rule.settings
    if didMatch then
      let after := if rule.settings.action = promptProtectionActionReject then
        promptProtectionActionReject else newText
      ⟨[⟨messageIndex, role, location, text, after⟩],
        if rule.settings.action = promptProtectionActionMask then newText else text,
        rule.settings.action = promptProtectionActionReject⟩
    else ⟨[], text, false⟩

def previewPart (rule : PromptRule) (messageIndex : Nat) (role : String) (partIndex : Nat)
    (part : ContentPart) : Seen ContentPart :=
  if eqIgnoreAsciiCase part.partType "text" then
    match part.text with
    | none => ⟨[], part, false⟩
    | some text =>
        (previewText engine rule messageIndex role ("parts[" ++ toString partIndex ++ "]") text).map
          fun text => { part with text := some text }
  else ⟨[], part, false⟩

def previewMessage (rule : PromptRule) (messageIndex : Nat) (msg : ChatMessage) :
    Seen ChatMessage :=
  if ruleAppliesToRole engine rule.settings.scopes msg.role then
    match msg.content with
    | some (.text text) =>
        (previewText engine rule messageIndex msg.role "content" text).map fun text =>
          { msg with content := some (.text text) }
    | some (.parts parts) =>
        (previewEach (previewPart engine rule messageIndex msg.role) 0 parts).map fun parts =>
          { msg with content := some (.parts parts) }
    | _ => ⟨[], msg, false⟩
  else ⟨[], msg, false⟩

/-- The loop over the rules. -/
def previewRules : List PromptRule → List ChatMessage → ProtectionPreview
  | [], working => ⟨some working, false, []⟩
  | rule :: rules, working =>
      let seen := previewEach (previewMessage engine rule) 0 working
      let report : ProtectionRuleMatch :=
        ⟨rule.id, rule.name, rule.pattern, rule.settings.action, seen.hits, !seen.hits.isEmpty⟩
      if seen.rejected then ⟨none, true, [report]⟩
      else
        let rest := previewRules rules seen.value
        { rest with rules := report :: rest.rules }

def previewProtection (messages : List ChatMessage) (rules : List PromptRule) : ProtectionPreview :=
  if messages.isEmpty || rules.isEmpty then ⟨some messages, false, []⟩
  else previewRules engine rules messages

/-! ## The middleware -/

/-- A stored rule: none for settings that do not decode. -/
structure PromptProtectionRuleRow where
  pattern : String
  settings : Option PromptProtectionSettings

def PromptRule.row (rule : PromptRule) : PromptProtectionRuleRow := ⟨rule.pattern, some rule.settings⟩

def blocked : ConduitError := .new .invalidRequest "request blocked by prompt protection policy"

def protectText (re : engine.Regex) (settings : PromptProtectionSettings) (text : String) :
    Except ConduitError String :=
  if engine.isMatch re text then
    if settings.action = promptProtectionActionReject then .error blocked
    else if settings.action = promptProtectionActionMask then
      .ok (engine.replaceAll re text (settings.replacement.getD "[REDACTED]"))
    else .ok text
  else .ok text

def protectPart (re : engine.Regex) (settings : PromptProtectionSettings) (part : ContentPart) :
    Except ConduitError ContentPart :=
  if eqIgnoreAsciiCase part.partType "text" then
    match part.text with
    | none => .ok part
    | some text => (protectText engine re settings text).map fun text =>
        { part with text := some text }
  else .ok part

/-- The scope check of the middleware. -/
def inScope (scopes : List String) (role : String) : Bool :=
  scopes.isEmpty || scopes.any fun scope => eqIgnoreAsciiCase scope role

def protectMessage (re : engine.Regex) (settings : PromptProtectionSettings) (msg : ChatMessage) :
    Except ConduitError ChatMessage :=
  if inScope settings.scopes msg.role then
    match msg.content with
    | some (.text text) => (protectText engine re settings text).map fun text =>
        { msg with content := some (.text text) }
    | some (.parts parts) => (parts.mapM (protectPart engine re settings)).map fun parts =>
        { msg with content := some (.parts parts) }
    | _ => .ok msg
  else .ok msg

def protectWith (messages : List ChatMessage) (rule : PromptProtectionRuleRow) :
    Except ConduitError (List ChatMessage) :=
  match rule.settings, engine.compile rule.pattern with
  | some settings, some re => messages.mapM (protectMessage engine re settings)
  | _, _ => .ok messages

/-- `PromptProtectionMiddleware::on_inbound_llm_request`, for what loading the rules gave. -/
def onInboundLlmRequest (rules : Except String (List PromptProtectionRuleRow))
    (request : LlmRequest) : Except ConduitError LlmRequest :=
  match rules with
  | .error _ => .ok request
  | .ok rules =>
      match request.payload with
      | .chat chat => (rules.foldlM (protectWith engine) chat.messages).map fun messages =>
          { request with payload := .chat { chat with messages := messages } }
      | _ => .ok request

/-! ## Rules on texts -/

/-- What is made of the text of a message with that role; none rejects the request. -/
abbrev Verdict := String → String → Option String

section Verdicts

variable (verdict : Verdict)

def onPart (role : String) (part : ContentPart) : Option ContentPart :=
  if eqIgnoreAsciiCase part.partType "text" then
    match part.text with
    | none => some part
    | some text => (verdict role text).map fun text => { part with text := some text }
  else some part

def onMessage (msg : ChatMessage) : Option ChatMessage :=
  match msg.content with
  | some (.text text) => (verdict msg.role text).map fun text =>
      { msg with content := some (.text text) }
  | some (.parts parts) => (parts.mapM (onPart verdict msg.role)).map fun parts =>
      { msg with content := some (.parts parts) }
  | _ => some msg

end Verdicts

/-- The verdicts in order, each on every message. -/
def onMessages (verdicts : List Verdict) (messages : List ChatMessage) :
    Option (List ChatMessage) :=
  verdicts.foldlM (fun messages verdict => messages.mapM (onMessage verdict)) messages

def previewVerdict (rule : PromptRule) : Verdict := fun role text =>
  if ruleAppliesToRole engine rule.settings.scopes role = true ∧ text ≠ "" ∧
      matchProtectionPattern engine rule.pattern text = true then
    if rule.settings.action = promptProtectionActionReject then none
    else if rule.settings.action = promptProtectionActionMask then
      some (replaceProtectionPattern engine rule.pattern text (rule.settings.replacement.getD ""))
    else some text
  else some text

def enforcedVerdict (rule : PromptRule) : Verdict := fun role text =>
  if inScope rule.settings.scopes role = true ∧
      matchProtectionPattern engine rule.pattern text = true then
    if rule.settings.action = promptProtectionActionReject then none
    else if rule.settings.action = promptProtectionActionMask then
      some (replaceProtectionPattern engine rule.pattern text
        (rule.settings.replacement.getD "[REDACTED]"))
    else some text
  else some text

/-! ## Both loops follow the verdicts -/

/-- A verdict that keeps every text of a role keeps its messages. -/
theorem onMessage_keep {verdict : Verdict} {msg : ChatMessage}
    (h : ∀ text : String, verdict msg.role text = some text) : onMessage verdict msg = some msg := by
  have hpart : ∀ part : ContentPart, onPart verdict msg.role part = some part := by
    intro part
    unfold onPart
    split
    · split
      next => rfl
      next text htext =>
        rw [h]
        show some { part with text := some text } = some part
        rw [← htext]
    · rfl
  have hparts : ∀ parts : List ContentPart,
      parts.mapM (onPart verdict msg.role) = some parts := by
    intro parts
    induction parts with
    | nil => rfl
    | cons part parts ih =>
        rw [List.mapM_cons, hpart, ih]
        rfl
  unfold onMessage
  split
  next text hcontent =>
    rw [h]
    show some { msg with content := some (.text text) } = some msg
    rw [← hcontent]
  next parts hcontent =>
    rw [hparts]
    show some { msg with content := some (.parts parts) } = some msg
    rw [← hcontent]
  next => rfl

theorem onMessages_empty (verdicts : List Verdict) : onMessages verdicts [] = some [] := by
  induction verdicts with
  | nil => rfl
  | cons verdict verdicts ih => exact ih

/-- The value of a loop that was not left by a rejection. -/
def Seen.outcome {α : Type} (seen : Seen α) : Option α :=
  if seen.rejected then none else some seen.value

theorem Seen.outcome_map {α β : Type} (seen : Seen α) (f : α → β) :
    (seen.map f).outcome = seen.outcome.map f := by
  unfold Seen.outcome Seen.map
  cases seen.rejected <;> rfl

theorem previewEach_outcome {α : Type} {check : Nat → α → Seen α} {g : α → Option α}
    (h : ∀ (i : Nat) (a : α), (check i a).outcome = g a) (i : Nat) (as : List α) :
    (previewEach check i as).outcome = as.mapM g := by
  induction as generalizing i with
  | nil => rfl
  | cons a as ih =>
      rw [List.mapM_cons, ← h i a, ← ih (i + 1), previewEach]
      generalize previewEach check (i + 1) as = rest
      obtain ⟨hits, value, rejected⟩ := check i a
      obtain ⟨restHits, restValue, restRejected⟩ := rest
      cases rejected with
      | true => rfl
      | false => cases restRejected <;> rfl

theorem previewText_outcome {rule : PromptRule} {role : String}
    (hscope : ruleAppliesToRole engine rule.settings.scopes role = true) (messageIndex : Nat)
    (location text : String) :
    (previewText engine rule messageIndex role location text).outcome =
      previewVerdict engine rule role text := by
  unfold previewText previewVerdict
  by_cases hempty : text = ""
  · rw [if_pos hempty, if_neg fun h => h.2.1 hempty]
    rfl
  rw [if_neg hempty]
  by_cases hmatch : matchProtectionPattern engine rule.pattern text = true
  · have happly : applyRuleToText engine text rule.pattern rule.settings = _ :=
      if_neg (by simp [hempty, hmatch])
    have hmask : promptProtectionActionMask ≠ promptProtectionActionReject := by decide
    rw [happly, if_pos (show _ ∧ _ ∧ _ from ⟨hscope, hempty, hmatch⟩)]
    unfold Seen.outcome
    by_cases hreject : rule.settings.action = promptProtectionActionReject
    · simp [hreject]
    · by_cases haction : rule.settings.action = promptProtectionActionMask
      · simp [haction, hmask]
      · simp [hreject, haction]
  · have happly : applyRuleToText engine text rule.pattern rule.settings = (text, false) :=
      if_pos (by simp [hmatch])
    rw [happly, if_neg fun h => hmatch h.2.2]
    rfl

theorem previewMessage_outcome (rule : PromptRule) (messageIndex : Nat) (msg : ChatMessage) :
    (previewMessage engine rule messageIndex msg).outcome =
      onMessage (previewVerdict engine rule) msg := by
  unfold previewMessage
  by_cases hscope : ruleAppliesToRole engine rule.settings.scopes msg.role = true
  · have hpart : ∀ (partIndex : Nat) (part : ContentPart),
        (previewPart engine rule messageIndex msg.role partIndex part).outcome =
          onPart (previewVerdict engine rule) msg.role part := by
      intro partIndex part
      unfold previewPart onPart
      split
      · split
        next => rfl
        next text _ =>
          rw [← previewText_outcome engine hscope messageIndex
            ("parts[" ++ toString partIndex ++ "]") text]
          exact (previewText engine rule messageIndex msg.role _ text).outcome_map _
      · rfl
    rw [if_pos hscope]
    unfold onMessage
    split
    next text _ =>
      rw [← previewText_outcome engine hscope messageIndex "content" text]
      exact (previewText engine rule messageIndex msg.role _ text).outcome_map _
    next parts _ =>
      rw [← previewEach_outcome hpart 0 parts]
      exact (previewEach (previewPart engine rule messageIndex msg.role) 0 parts).outcome_map _
    next => rfl
  · rw [if_neg hscope, onMessage_keep]
    · rfl
    · intro text
      exact if_neg fun h => hscope h.1

theorem previewProtection_eq (messages : List ChatMessage) (rules : List PromptRule) :
    (previewProtection engine messages rules).messages =
        onMessages (rules.map (previewVerdict engine)) messages ∧
      ((previewProtection engine messages rules).rejected = true ↔
        onMessages (rules.map (previewVerdict engine)) messages = none) := by
  have hrules : ∀ (rules : List PromptRule) (working : List ChatMessage),
      (previewRules engine rules working).messages =
          onMessages (rules.map (previewVerdict engine)) working ∧
        ((previewRules engine rules working).rejected = true ↔
          onMessages (rules.map (previewVerdict engine)) working = none) := by
    intro rules
    induction rules with
    | nil => exact fun working => ⟨rfl, by simp [previewRules, onMessages]⟩
    | cons rule rules ih =>
        intro working
        have hone := previewEach_outcome (previewMessage_outcome engine rule) 0 working
        have hmore : onMessages ((rule :: rules).map (previewVerdict engine)) working =
            (working.mapM (onMessage (previewVerdict engine rule))).bind
              (onMessages (rules.map (previewVerdict engine))) := rfl
        rw [hmore, ← hone, previewRules]
        obtain ⟨hits, value, rejected⟩ := previewEach (previewMessage engine rule) 0 working
        cases rejected with
        | true => exact ⟨rfl, iff_of_true rfl rfl⟩
        | false => exact ih value
  unfold previewProtection
  by_cases hempty : (messages.isEmpty || rules.isEmpty) = true
  · rw [if_pos hempty]
    rcases Bool.or_eq_true_iff.mp hempty with h | h
    · rw [List.isEmpty_iff.mp h, onMessages_empty]
      simp
    · rw [List.isEmpty_iff.mp h]
      simp [onMessages]
  · rw [if_neg hempty]
    exact hrules rules messages

/-! ## The middleware does too -/

theorem toOption_mapM {ε α β : Type} (f : α → Except ε β) (as : List α) :
    (as.mapM f).toOption = as.mapM fun a => (f a).toOption := by
  induction as with
  | nil => rfl
  | cons a as ih =>
      rw [List.mapM_cons, List.mapM_cons, ← ih]
      cases f a with
      | error err => rfl
      | ok b => cases as.mapM f <;> rfl

theorem toOption_map {ε α β : Type} (f : α → β) (result : Except ε α) :
    (result.map f).toOption = result.toOption.map f := by
  cases result <;> rfl

theorem protectText_toOption {rule : PromptRule} {re : engine.Regex} {role : String}
    (hcompile : engine.compile rule.pattern = some re)
    (hscope : inScope rule.settings.scopes role = true) (text : String) :
    (protectText engine re rule.settings text).toOption = enforcedVerdict engine rule role text := by
  unfold protectText enforcedVerdict matchProtectionPattern replaceProtectionPattern
  rw [hcompile]
  dsimp only
  by_cases hmatch : engine.isMatch re text = true
  · rw [if_pos hmatch, if_pos (show _ ∧ _ from ⟨hscope, hmatch⟩)]
    by_cases hreject : rule.settings.action = promptProtectionActionReject
    · rw [if_pos hreject, if_pos hreject]
      rfl
    rw [if_neg hreject, if_neg hreject]
    split <;> rfl
  · rw [if_neg hmatch, if_neg fun h => hmatch h.2]
    rfl

theorem protectMessage_toOption {rule : PromptRule} {re : engine.Regex}
    (hcompile : engine.compile rule.pattern = some re) (msg : ChatMessage) :
    (protectMessage engine re rule.settings msg).toOption =
      onMessage (enforcedVerdict engine rule) msg := by
  unfold protectMessage
  by_cases hscope : inScope rule.settings.scopes msg.role = true
  · have htext := protectText_toOption engine hcompile hscope
    have hpart : ∀ part : ContentPart, (protectPart engine re rule.settings part).toOption =
        onPart (enforcedVerdict engine rule) msg.role part := by
      intro part
      unfold protectPart onPart
      split
      · split
        next => rfl
        next text _ => rw [toOption_map, htext]
      · rfl
    rw [if_pos hscope]
    unfold onMessage
    split
    next text _ => rw [toOption_map, htext]
    next parts _ => rw [toOption_map, toOption_mapM, funext hpart]
    next => rfl
  · rw [if_neg hscope, onMessage_keep]
    · rfl
    · intro text
      exact if_neg fun h => hscope h.1

theorem protectWith_toOption (messages : List ChatMessage) (rule : PromptRule) :
    (protectWith engine messages rule.row).toOption =
      messages.mapM (onMessage (enforcedVerdict engine rule)) := by
  unfold protectWith PromptRule.row
  dsimp only
  cases hcompile : engine.compile rule.pattern with
  | some re =>
      dsimp only
      rw [toOption_mapM, funext (protectMessage_toOption engine hcompile)]
  | none =>
      have hkeep : ∀ msg : ChatMessage, onMessage (enforcedVerdict engine rule) msg = some msg := by
        intro msg
        refine onMessage_keep fun text => if_neg fun h => ?_
        unfold matchProtectionPattern at h
        rw [hcompile] at h
        exact Bool.false_ne_true h.2
      rw [funext hkeep]
      show some messages = messages.mapM fun msg => pure (id msg)
      rw [List.mapM_pure, List.map_id]
      rfl

theorem foldlM_toOption (rules : List PromptRule) (messages : List ChatMessage) :
    ((rules.map PromptRule.row).foldlM (protectWith engine) messages).toOption =
      onMessages (rules.map (enforcedVerdict engine)) messages := by
  induction rules generalizing messages with
  | nil => rfl
  | cons rule rules ih =>
      have hmore : onMessages ((rule :: rules).map (enforcedVerdict engine)) messages =
          (messages.mapM (onMessage (enforcedVerdict engine rule))).bind
            (onMessages (rules.map (enforcedVerdict engine))) := rfl
      rw [hmore, ← protectWith_toOption, List.map_cons, List.foldlM_cons]
      cases protectWith engine messages rule.row with
      | error err => rfl
      | ok messages => exact ih messages

/-! ## Agreement -/

/-- The preview of the messages of a chat reports what the middleware does with the request. -/
def Agrees (request : LlmRequest) (chat : ChatRequest) (rules : List PromptRule) : Prop :=
  ((previewProtection engine chat.messages rules).rejected = true ↔
      ∃ err : ConduitError,
        onInboundLlmRequest engine (.ok (rules.map PromptRule.row)) request = .error err) ∧
    ((previewProtection engine chat.messages rules).rejected = false →
      ∃ messages : List ChatMessage,
        (previewProtection engine chat.messages rules).messages = some messages ∧
        onInboundLlmRequest engine (.ok (rules.map PromptRule.row)) request =
          .ok { request with payload := .chat { chat with messages := messages } })

/-- On each text the pattern matches, the rule means the same to both. -/
def Aligned (rule : PromptRule) : Prop :=
  ∀ re : engine.Regex, engine.compile rule.pattern = some re →
    ∀ role text : String, engine.isMatch re text = true →
      (rule.settings.action = promptProtectionActionReject →
        ((text ≠ "" ∧ ruleAppliesToRole engine rule.settings.scopes role = true) ↔
          inScope rule.settings.scopes role = true)) ∧
      (rule.settings.action = promptProtectionActionMask →
        (if text ≠ "" ∧ ruleAppliesToRole engine rule.settings.scopes role = true then
            engine.replaceAll re text (rule.settings.replacement.getD "") else text) =
          if inScope rule.settings.scopes role = true then
            engine.replaceAll re text (rule.settings.replacement.getD "[REDACTED]") else text)

theorem agrees_iff {request : LlmRequest} {chat : ChatRequest} (hchat : request.payload = .chat chat)
    (rules : List PromptRule) :
    Agrees engine request chat rules ↔
      onMessages (rules.map (previewVerdict engine)) chat.messages =
        onMessages (rules.map (enforcedVerdict engine)) chat.messages := by
  obtain ⟨hmessages, hrejected⟩ := previewProtection_eq engine chat.messages rules
  have henforced : onInboundLlmRequest engine (.ok (rules.map PromptRule.row)) request =
      ((rules.map PromptRule.row).foldlM (protectWith engine) chat.messages).map fun messages =>
        { request with payload := .chat { chat with messages := messages } } := by
    unfold onInboundLlmRequest
    rw [hchat]
  have hfold := foldlM_toOption engine rules chat.messages
  unfold Agrees
  rw [hmessages, hrejected, ← Bool.not_eq_true, hrejected, henforced, ← hfold]
  generalize onMessages (rules.map (previewVerdict engine)) chat.messages = previewed
  cases (rules.map PromptRule.row).foldlM (protectWith engine) chat.messages with
  | error err =>
      show (previewed = none ↔ ∃ err' : ConduitError, Except.error err = Except.error err') ∧ _ ↔
        previewed = none
      constructor
      · exact fun h => h.1.mpr ⟨err, rfl⟩
      · exact fun h => ⟨iff_of_true h ⟨err, rfl⟩, fun hnot => absurd h hnot⟩
  | ok messages =>
      show _ ↔ previewed = some messages
      constructor
      · rintro ⟨hreject, hsame⟩
        have hnot : ¬ previewed = none := fun h => nomatch (hreject.mp h)
        obtain ⟨messages', hpreviewed, hequal⟩ := hsame hnot
        have hchats := congrArg LlmRequest.payload (Except.ok.inj hequal)
        have hmessages := congrArg ChatRequest.messages (LlmRequestPayload.chat.inj hchats)
        rw [hpreviewed]
        exact congrArg some hmessages.symm
      · intro h
        refine ⟨iff_of_false (by rw [h]; exact nofun) (fun hfail => nomatch hfail), fun _ => ?_⟩
        exact ⟨messages, h, rfl⟩

/-- Aligned is to have the same verdicts. -/
theorem aligned_iff (rule : PromptRule) :
    Aligned engine rule ↔ previewVerdict engine rule = enforcedVerdict engine rule := by
  have hmask : promptProtectionActionMask ≠ promptProtectionActionReject := by decide
  have hone : ∀ (re : engine.Regex) (role text : String), engine.compile rule.pattern = some re →
      engine.isMatch re text = true →
      (previewVerdict engine rule role text = enforcedVerdict engine rule role text ↔
        (rule.settings.action = promptProtectionActionReject →
          ((text ≠ "" ∧ ruleAppliesToRole engine rule.settings.scopes role = true) ↔
            inScope rule.settings.scopes role = true)) ∧
        (rule.settings.action = promptProtectionActionMask →
          (if text ≠ "" ∧ ruleAppliesToRole engine rule.settings.scopes role = true then
              engine.replaceAll re text (rule.settings.replacement.getD "") else text) =
            if inScope rule.settings.scopes role = true then
              engine.replaceAll re text (rule.settings.replacement.getD "[REDACTED]") else text)) := by
    intro re role text hcompile hmatch
    unfold previewVerdict enforcedVerdict matchProtectionPattern replaceProtectionPattern
    rw [hcompile]
    simp only [hmatch]
    by_cases hreject : rule.settings.action = promptProtectionActionReject
    · by_cases hempty : text = "" <;>
        cases ruleAppliesToRole engine rule.settings.scopes role <;>
        cases inScope rule.settings.scopes role <;> simp [hreject, hempty, hmask.symm]
    · by_cases haction : rule.settings.action = promptProtectionActionMask
      · by_cases hempty : text = "" <;>
          cases ruleAppliesToRole engine rule.settings.scopes role <;>
          cases inScope rule.settings.scopes role <;> simp [haction, hempty, hmask]
      · simp [hreject, haction]
  constructor
  · intro h
    funext role text
    cases hcompile : engine.compile rule.pattern with
    | none =>
        unfold previewVerdict enforcedVerdict matchProtectionPattern
        rw [hcompile]
        simp
    | some re =>
        by_cases hmatch : engine.isMatch re text = true
        · exact (hone re role text hcompile hmatch).mpr (h re hcompile role text hmatch)
        · unfold previewVerdict enforcedVerdict matchProtectionPattern
          rw [hcompile]
          simp [hmatch]
  · intro h re hcompile role text hmatch
    exact (hone re role text hcompile hmatch).mp (by rw [h])

/-- Settings that leave nothing open mean the same to both. -/
theorem aligned_of_plain {rule : PromptRule}
    (hreplacement : rule.settings.action = promptProtectionActionMask →
      rule.settings.replacement.isSome = true)
    (hscopes : ∀ role : String,
      ruleAppliesToRole engine rule.settings.scopes role = inScope rule.settings.scopes role)
    (hempty : matchProtectionPattern engine rule.pattern "" = false) : Aligned engine rule := by
  intro re hcompile role text hmatch
  have htext : text ≠ "" := by
    rintro rfl
    unfold matchProtectionPattern at hempty
    rw [hcompile] at hempty
    exact Bool.false_ne_true (hempty.symm.trans hmatch)
  rw [hscopes role]
  refine ⟨fun _ => and_iff_right htext, fun hmask => ?_⟩
  obtain ⟨replacement, hsome⟩ := Option.isSome_iff_exists.mp (hreplacement hmask)
  simp [hsome, htext]

/-- A stored rule that does not match the empty text, its scopes compared alike. -/
theorem aligned_of_valid {rule : PromptRule}
    (hvalid : validateProtectionSettings engine rule.pattern rule.settings = .ok ())
    (hscopes : ∀ role : String,
      ruleAppliesToRole engine rule.settings.scopes role = inScope rule.settings.scopes role)
    (hempty : matchProtectionPattern engine rule.pattern "" = false) : Aligned engine rule := by
  refine aligned_of_plain engine ?_ hscopes hempty
  intro hmask
  unfold validateProtectionSettings at hvalid
  split_ifs at hvalid with hcompile haction hreplacement
  cases hsome : rule.settings.replacement with
  | none => exact absurd ⟨hmask, by simp [hsome]⟩ hreplacement
  | some replacement => rfl

/-- A message that is one text. -/
def textMessage (role text : String) : ChatMessage := { role := role, content := some (.text text) }

def chatRequest (messages : List ChatMessage) : LlmRequest :=
  { requestType := .chat
    apiFormat := .openAiChatCompletions
    payload := .chat { messages := messages } }

theorem preview_agrees_iff (R : PromptRule → Prop) :
    (∀ rules : List PromptRule, (∀ rule ∈ rules, R rule) →
        ∀ (request : LlmRequest) (chat : ChatRequest), request.payload = .chat chat →
          Agrees engine request chat rules) ↔
      ∀ rule : PromptRule, R rule → Aligned engine rule := by
  constructor
  · intro h rule hrule
    rw [aligned_iff]
    funext role text
    have hone := (agrees_iff engine rfl [rule]).mp
      (h [rule] (fun r hr => List.mem_singleton.mp hr ▸ hrule) (chatRequest [textMessage role text])
        { messages := [textMessage role text] } rfl)
    have hmessage : ∀ verdict : Verdict,
        onMessages [verdict] [textMessage role text] =
          (verdict role text).map fun text => [textMessage role text] := by
      intro verdict
      show Option.bind (List.mapM (onMessage verdict) [textMessage role text]) some = _
      rw [List.mapM_cons]
      show Option.bind (Option.bind (Option.map _ (verdict role text)) _) some = _
      cases verdict role text <;> rfl
    rw [List.map_singleton, List.map_singleton, hmessage, hmessage] at hone
    refine Option.map_injective (fun text text' heq => ?_) hone
    have hcontent := congrArg ChatMessage.content (List.cons.inj heq).1
    exact MessageContent.text.inj (Option.some.inj hcontent)
  · intro h rules hrules request chat hchat
    rw [agrees_iff engine hchat]
    have hverdicts : rules.map (previewVerdict engine) = rules.map (enforcedVerdict engine) :=
      List.map_congr_left fun rule hrule => (aligned_iff engine rule).mp (h rule (hrules rule hrule))
    rw [hverdicts]

/-- An engine that knows `.*`, and patterns without special characters on texts
they match as a whole. -/
def sampleEngine : TextEngine where
  Regex := String
  compile pattern := some pattern
  isMatch pattern text := pattern = ".*" || pattern == text
  replaceAll pattern text replacement :=
    if pattern = ".*" ∨ pattern = text then replacement else text
  toLowercase text := text

/-- Whatever a user says is rejected. -/
def rejectAll : PromptRule := ⟨"1", "all", ".*", ⟨promptProtectionActionReject, none, ["user"]⟩⟩

/-- The rule can be stored; the preview passes over an empty message that the
middleware rejects. -/
theorem empty_text_rejected :
    validateProtectionSettings sampleEngine rejectAll.pattern rejectAll.settings = .ok () ∧
      ¬ Agrees sampleEngine (chatRequest [textMessage "user" ""])
        { messages := [textMessage "user" ""] } [rejectAll] := by
  refine ⟨by decide, ?_⟩
  intro h
  have hone := (agrees_iff sampleEngine rfl [rejectAll]).mp h
  have hpreviewed : onMessages ([rejectAll].map (previewVerdict sampleEngine))
      [textMessage "user" ""] = some [textMessage "user" ""] := rfl
  have henforced : onMessages ([rejectAll].map (enforcedVerdict sampleEngine))
      [textMessage "user" ""] = none := rfl
  exact absurd (hpreviewed.symm.trans (hone.trans henforced)) (by simp)

end Conduit.Middlewares.PromptProtection
