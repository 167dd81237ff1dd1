import Conduit.Transformers.ChatTurns
import Conduit.Transformers.Logic.ResponsesGroups
import Mathlib.Data.List.Forall2

/-!
# Encoding and decoding a chat

An assistant message is written as utterances, items that say texts or calls.
Decoded on its own, an item is a message that says its utterance; absorbed into
the message of a reasoning item, its texts replace those before. From this the
decoding of a run of assistant messages, by induction on the run, and from the
runs the whole conversation.
-/

namespace Conduit.Transformers.ChatTurns

open Base Base.Json ResponsesRequest ResponsesInput

/-! ## Texts -/

def textPart (text : String) : ContentPart := { partType := "text", text := some text }

/-- The content that a list of texts comes back as. -/
def textContent (texts : List String) : Option MessageContent := collapse (texts.map textPart)

theorem convertPart_input (text : String) :
    convertContentItemToPart (inputText text) = some (textPart text) := by
  simp [convertContentItemToPart, inputText, typeOf, Json.strField, asStr, contentPartIdExtra,
    optionalField, textPart]

theorem convertPart_output (text : String) :
    convertContentItemToPart (outputText text) = some (textPart text) := by
  simp [convertContentItemToPart, outputText, typeOf, Json.strField, asStr, contentPartIdExtra,
    optionalField, textPart]

theorem collapse_converted {item : String → Json}
    (h : ∀ text, convertContentItemToPart (item text) = some (textPart text))
    (texts : List String) :
    collapse ((texts.map item).filterMap convertContentItemToPart) = textContent texts := by
  unfold textContent
  congr 1
  induction texts with
  | nil => rfl
  | cons text texts ih => rw [List.map_cons, List.filterMap_cons_some (h text), ih, List.map_cons]

theorem partTexts_map (texts : List String) : partTexts (texts.map textPart) = texts := by
  induction texts with
  | nil => rfl
  | cons text texts ih => simpa [partTexts, textPart] using ih

theorem textsOf_textContent (texts : List String) : textsOf (textContent texts) = texts := by
  rcases texts with _ | ⟨text, _ | ⟨text', texts⟩⟩
  · rfl
  · rfl
  · exact partTexts_map (text :: text' :: texts)

theorem textContent_eq_none {texts : List String} : textContent texts = none ↔ texts = [] := by
  unfold textContent
  rw [collapse_eq_none, List.map_eq_nil_iff]

theorem filterMap_inputContentPart {parts : List ContentPart}
    (h : ∀ part ∈ parts, part.partType = "text" ∧ part.text.isSome = true) :
    parts.filterMap inputContentPart = (partTexts parts).map inputText := by
  induction parts with
  | nil => rfl
  | cons part parts ih =>
      obtain ⟨htype, hsome⟩ := h part List.mem_cons_self
      obtain ⟨text, htext⟩ := Option.isSome_iff_exists.mp hsome
      have hconvert : inputContentPart part = some (inputText text) := by
        unfold inputContentPart
        rw [if_pos htype, htext]
        rfl
      have htexts : partTexts (part :: parts) = text :: partTexts parts := by
        simp [partTexts, htype, htext]
      rw [List.filterMap_cons_some hconvert, htexts, List.map_cons,
        ih fun other hother => h other (List.mem_cons_of_mem _ hother)]

theorem inputContentParts_eq {content : Option MessageContent}
    (h : ∀ content' ∈ content, TextContent content') :
    inputContentParts content = (textsOf content).map inputText := by
  rcases content with _ | content
  · rfl
  cases h content rfl with
  | text value => rfl
  | parts parts hparts => exact filterMap_inputContentPart hparts

theorem outputParts_eq {content : Option MessageContent}
    (h : ∀ content' ∈ content, TextContent content') :
    outputParts content = (textsOf content).map outputText := by
  rcases content with _ | content
  · rfl
  cases h content rfl with
  | text value => rfl
  | parts parts => rfl

/-! ## What an item says -/

/-- The texts or the calls of an item, or both of a message. -/
structure Utterance where
  texts : List String
  calls : List SaidCall

def Utterance.turn (utterance : Utterance) : Turn := .assistant utterance.texts utterance.calls

def allTexts (utterances : List Utterance) : List String := utterances.flatMap Utterance.texts

def allCalls (utterances : List Utterance) : List SaidCall := utterances.flatMap Utterance.calls

/-- On its own an item is a message; in the message of a reasoning item its
texts replace the earlier ones, and its calls are added. -/
structure Utters (item : Json) (utterance : Utterance) : Prop where
  merges : mergeable item = true
  converted : ∃ message : InputMessage, convertItemToMessage item = .ok (some message) ∧
    inputTurn message = utterance.turn
  role : ∀ message : InputMessage, (absorb message item).role = message.role
  texts : ∀ message : InputMessage, textsOf (absorb message item).content =
    if utterance.texts = [] then textsOf message.content else utterance.texts
  calls : ∀ message : InputMessage, (absorb message item).toolCalls.map saidCall =
    message.toolCalls.map saidCall ++ utterance.calls

/-- A call after decoding: its custom payload is not where its readers look. -/
def decodedCall : SaidCall → SaidCall
  | .custom id _ _ => .custom id "" ""
  | call => call

theorem decodedCall_eq_iff {call : SaidCall} : decodedCall call = call ↔ Bare call := by
  cases call with
  | function id name arguments => exact iff_of_true rfl trivial
  | custom id name input =>
      show SaidCall.custom id "" "" = .custom id name input ↔ name = "" ∧ input = ""
      rw [SaidCall.custom.injEq]
      exact ⟨fun h => ⟨h.2.1.symm, h.2.2.symm⟩, fun h => ⟨rfl, h.1.symm, h.2.symm⟩⟩

def callItem (toolCall : ToolCall) : Json :=
  if toolCall.callType = "responses_custom_tool" then customToolCallItem toolCall
  else functionCallItem toolCall

/-- An item that becomes a call of an assistant. -/
theorem utters_converted {item : Json} (toolCall : ToolCall) {call : SaidCall}
    (htype : typeOf item = "function_call" ∧ convertFunctionCallToToolCall item = some toolCall ∨
      typeOf item = "custom_tool_call" ∧ convertCustomToolCallToToolCall item = some toolCall)
    (hcall : saidCall toolCall = call) : Utters item ⟨[], [call]⟩ := by
  have habsorb : ∀ message : InputMessage, absorb message item = addCall message (some toolCall) :=
    by
    intro message
    unfold absorb
    rcases htype with ⟨hfunction, hconvert⟩ | ⟨hcustom, hconvert⟩
    · rw [if_pos hfunction, hconvert]
    · rw [if_neg (by rw [hcustom]; decide), if_pos hcustom, hconvert]
  refine ⟨?_, ⟨assistantCall toolCall, ?_, ?_⟩, ?_, ?_, ?_⟩
  · rcases htype with ⟨hfunction, -⟩ | ⟨hcustom, -⟩
    · simp [mergeable, hfunction]
    · simp [mergeable, hcustom]
  · unfold convertItemToMessage
    dsimp only
    rcases htype with ⟨hfunction, hconvert⟩ | ⟨hcustom, hconvert⟩
    · rw [hfunction, if_neg (by decide), if_neg (by decide), if_pos rfl, hconvert]
      rfl
    · rw [hcustom, if_neg (by decide), if_neg (by decide), if_neg (by decide), if_pos rfl, hconvert]
      rfl
  · rw [← hcall]
    rfl
  · intro message
    rw [habsorb]
    rfl
  · intro message
    rw [habsorb]
    rfl
  · intro message
    rw [habsorb, ← hcall]
    exact List.map_append

theorem utters_call {toolCall : ToolCall} (h : UnifiedCall toolCall) :
    Utters (callItem toolCall) ⟨[], [decodedCall (saidCall toolCall)]⟩ := by
  cases h with
  | function id name arguments =>
      refine utters_converted {
        id := some id
        callType := "function"
        function := .object [("name", .string name), ("arguments", .string arguments)] }
        (.inl ⟨?_, ?_⟩) ?_
      · rfl
      · rfl
      · rfl
  | custom id name input =>
      refine utters_converted {
        id := some id
        callType := "responses_custom_tool"
        function := .object []
        extra := [("response_custom_tool_call", .object
          [("call_id", .string id), ("name", .string name), ("input", .string input)])] }
        (.inr ⟨?_, ?_⟩) ?_
      · rfl
      · rfl
      · rfl

/-- The item of the texts of a message. -/
def textsItem (texts : List String) : Json :=
  .object [("type", .string "message"), ("role", .string "assistant"),
    ("status", .string "completed"), ("content", .array (texts.map outputText))]

theorem utters_texts {texts : List String} (h : texts ≠ []) : Utters
    (textsItem texts) ⟨texts, []⟩ := by
  have htype : typeOf (textsItem texts) = "message" := rfl
  have hrole : (textsItem texts).strField "role" = some "assistant" := rfl
  have hid : (textsItem texts).strField "id" = none := rfl
  have hcontent : convertItemContentToMessageContent (textsItem texts) = textContent texts := by
    rw [← collapse_converted convertPart_output]
    rfl
  obtain ⟨content, hsome⟩ : ∃ content, textContent texts = some content :=
    Option.ne_none_iff_exists'.mp fun hnone => h (textContent_eq_none.mp hnone)
  have habsorb : ∀ message : InputMessage,
      absorb message (textsItem texts) = { message with content := some content } := by
    intro message
    unfold absorb
    rw [htype, if_neg (by decide), if_neg (by decide)]
    unfold overlay
    rw [hcontent, hid, hsome, Option.none_or, Option.some_or]
  have htexts : textsOf (some content) = texts := by
    rw [← hsome]
    exact textsOf_textContent texts
  refine ⟨by simp [mergeable, htype, hrole, isMessageType],
    ⟨{ role := some "assistant", content := some content }, ?_, ?_⟩, ?_, ?_, ?_⟩
  · unfold convertItemToMessage
    dsimp only
    rw [htype, if_pos (by decide), hrole, hid, hcontent, hsome]
  · show Turn.assistant (textsOf (some content)) [] = .assistant texts []
    rw [htexts]
  · intro message
    rw [habsorb]
  · intro message
    rw [habsorb, if_neg h]
    exact htexts
  · intro message
    rw [habsorb, List.append_nil]

/-! ## What a message says -/

/-- The texts of an assistant message, then its calls. -/
def utterances (message : ChatMessage) : List Utterance :=
  (if textsOf message.content = [] then [] else [⟨textsOf message.content, []⟩]) ++
    message.toolCalls.map fun toolCall => ⟨[], [decodedCall (saidCall toolCall)]⟩

/-- The items of an assistant message after its reasoning. -/
def speech (message : ChatMessage) : List Json :=
  outputItem message ++ message.toolCalls.map callItem

theorem convertAssistant_eq (message : ChatMessage) :
    convertAssistantMessageToResponses message =
      (reasoningItem message).toList ++ speech message :=
  List.append_assoc _ _ _

theorem utters_speech {message : ChatMessage} (h : WellFormed message) :
    List.Forall₂ Utters (speech message) (utterances message) := by
  refine List.rel_append ?_ ?_
  · unfold outputItem
    rw [outputParts_eq h.content]
    by_cases htexts : textsOf message.content = []
    · rw [if_pos htexts, htexts]
      exact .nil
    · dsimp only
      rw [if_neg htexts, if_neg (by simpa using htexts)]
      exact .cons (utters_texts htexts) .nil
  · rw [List.forall₂_map_left_iff, List.forall₂_map_right_iff, List.forall₂_same]
    exact fun toolCall hcall => utters_call (h.calls toolCall hcall)

theorem utters_speeches {messages : List ChatMessage}
    (h : ∀ message ∈ messages, WellFormed message) :
    List.Forall₂ Utters (messages.flatMap speech) (messages.flatMap utterances) := by
  induction messages with
  | nil => exact .nil
  | cons message messages ih =>
      rw [List.flatMap_cons, List.flatMap_cons]
      exact List.rel_append (utters_speech (h message List.mem_cons_self))
        (ih fun other hother => h other (List.mem_cons_of_mem _ hother))

theorem allTexts_append (us us' : List Utterance) :
    allTexts (us ++ us') = allTexts us ++ allTexts us' := List.flatMap_append

theorem allCalls_append (us us' : List Utterance) :
    allCalls (us ++ us') = allCalls us ++ allCalls us' := List.flatMap_append

theorem allTexts_calls (toolCalls : List ToolCall) :
    allTexts (toolCalls.map fun toolCall => ⟨[], [decodedCall (saidCall toolCall)]⟩) = [] := by
  induction toolCalls with
  | nil => rfl
  | cons toolCall toolCalls ih => exact ih

theorem allTexts_utterances (message : ChatMessage) :
    allTexts (utterances message) = textsOf message.content := by
  unfold utterances
  rw [allTexts_append, allTexts_calls, List.append_nil]
  split
  · next h => rw [h]; rfl
  · exact List.append_nil _

theorem allCalls_utterances (message : ChatMessage) :
    allCalls (utterances message) =
      (message.toolCalls.map saidCall).map decodedCall := by
  have hcalls : allCalls (message.toolCalls.map fun toolCall =>
      ⟨[], [decodedCall (saidCall toolCall)]⟩) =
        (message.toolCalls.map saidCall).map decodedCall := by
    induction message.toolCalls with
    | nil => rfl
    | cons toolCall toolCalls ih => exact congrArg (_ :: ·) ih
  unfold utterances
  rw [allCalls_append, hcalls]
  split <;> rfl

/-! ## Decoding -/

/-- Items that are decoded one by one. -/
theorem decode_utterances {items : List Json} {us : List Utterance}
    (h : List.Forall₂ Utters items us) :
    ∃ decoded : List InputMessage, decoded.map inputTurn = us.map Utterance.turn ∧
      ∀ rest : List Json, convertResponsesInputItems (items ++ rest) =
        (convertResponsesInputItems rest).map (decoded ++ ·) := by
  induction h with
  | nil =>
      refine ⟨[], rfl, fun rest => ?_⟩
      rw [List.nil_append]
      cases convertResponsesInputItems rest <;> rfl
  | cons hitem _ ih =>
      obtain ⟨decoded, hturns, hdecode⟩ := ih
      obtain ⟨message, hmessage, hturn⟩ := hitem.converted
      refine ⟨message :: decoded, ?_, fun rest => ?_⟩
      · rw [List.map_cons, List.map_cons, hturn, hturns]
      · rw [List.cons_append, convertResponsesInputItems,
          if_neg (ne_reasoning_of_mergeable hitem.merges), hmessage, hdecode]
        cases convertResponsesInputItems rest <;> rfl

/-- The last texts stay. -/
def lastTexts (texts : List String) (us : List Utterance) : List String :=
  us.foldl (fun texts utterance => if utterance.texts = [] then texts else utterance.texts) texts

/-- Items that the message of a reasoning item takes in. -/
theorem absorb_utterances {items : List Json} {us : List Utterance}
    (h : List.Forall₂ Utters items us) (message : InputMessage) :
    (items.foldl absorb message).role = message.role ∧
      textsOf (items.foldl absorb message).content = lastTexts (textsOf message.content) us ∧
      (items.foldl absorb message).toolCalls.map saidCall =
        message.toolCalls.map saidCall ++ allCalls us := by
  induction h generalizing message with
  | nil => exact ⟨rfl, rfl, (List.append_nil _).symm⟩
  | cons hitem _ ih =>
      obtain ⟨hrole, htexts, hcalls⟩ := ih (absorb message _)
      rw [hitem.role] at hrole
      rw [hitem.texts] at htexts
      rw [hitem.calls] at hcalls
      exact ⟨hrole, htexts, hcalls.trans (List.append_assoc _ _ _)⟩

theorem merges_of_utters {items : List Json} {us : List Utterance}
    (h : List.Forall₂ Utters items us) : ∀ item ∈ items, mergeable item = true := by
  induction h with
  | nil => exact fun _ hmem => absurd hmem List.not_mem_nil
  | cons hitem _ ih => exact List.forall_mem_cons.mpr ⟨hitem.merges, ih⟩

/-- No item of the rest is taken into the message of an earlier reasoning item. -/
def Stops (rest : List Json) : Prop := ∀ item ∈ rest.head?, mergeable item = false

theorem takeWhile_stops {items rest : List Json} (hitems : ∀ item ∈ items, mergeable item = true)
    (hrest : Stops rest) :
    (items ++ rest).takeWhile mergeable = items ∧ (items ++ rest).dropWhile mergeable = rest := by
  rw [List.takeWhile_append_of_pos hitems, List.dropWhile_append_of_pos hitems]
  rcases rest with _ | ⟨item, rest⟩
  · exact ⟨List.append_nil _, rfl⟩
  · have hitem : ¬ mergeable item = true := by
      rw [hrest item rfl]
      exact Bool.false_ne_true
    rw [List.takeWhile_cons_of_neg hitem, List.dropWhile_cons_of_neg hitem]
    exact ⟨List.append_nil _, rfl⟩

theorem decode_group {item : Json} (hitem : typeOf item = "reasoning") {items : List Json}
    {us : List Utterance} (h : List.Forall₂ Utters items us) :
    ∃ message : InputMessage, inputTurn message = Utterance.turn ⟨lastTexts [] us, allCalls us⟩ ∧
      ∀ rest : List Json, Stops rest →
        convertResponsesInputItems (item :: (items ++ rest)) =
          (convertResponsesInputItems rest).map (message :: ·) := by
  obtain ⟨hrole, htexts, hcalls⟩ := absorb_utterances h (reasoningMessage item)
  refine ⟨items.foldl absorb (reasoningMessage item), ?_, fun rest hrest => ?_⟩
  · unfold inputTurn turnOf
    rw [hrole, htexts, hcalls]
    rfl
  · obtain ⟨htake, hdrop⟩ := takeWhile_stops (merges_of_utters h) hrest
    rw [convertResponsesInputItems, if_pos hitem, drop_reasoning, hdrop,
      convertReasoningWithFollowing, mergeFollowing_eq, htake]

/-! ## The texts of a group -/

def loud (utterance : Utterance) : Bool := !utterance.texts.isEmpty

theorem lastTexts_cons (texts : List String) (u : Utterance) (us : List Utterance) :
    lastTexts texts (u :: us) = lastTexts (if u.texts = [] then texts else u.texts) us := rfl

theorem allTexts_cons (u : Utterance) (us : List Utterance) :
    allTexts (u :: us) = u.texts ++ allTexts us := List.flatMap_cons

theorem lastTexts_length_le (texts : List String) (us : List Utterance) :
    (lastTexts texts us).length ≤ (texts ++ allTexts us).length := by
  induction us generalizing texts with
  | nil => exact (List.append_nil texts).symm ▸ Nat.le_refl _
  | cons u us ih =>
      rw [lastTexts_cons, allTexts_cons]
      have hrest := ih (if u.texts = [] then texts else u.texts)
      split at hrest
      · next hu =>
          rw [if_pos hu, hu, List.nil_append]
          exact hrest
      · next hu =>
          rw [if_neg hu]
          rw [List.length_append] at hrest ⊢
          rw [List.length_append]
          omega

/-- The last texts are all there are exactly if there is one with texts at most. -/
theorem lastTexts_eq_iff (texts : List String) (us : List Utterance) :
    lastTexts texts us = texts ++ allTexts us ↔
      (us.filter loud).length + (if texts = [] then 0 else 1) ≤ 1 := by
  induction us generalizing texts with
  | nil =>
      refine iff_of_true (List.append_nil texts).symm ?_
      rw [List.filter_nil, List.length_nil]
      split <;> omega
  | cons u us ih =>
      rw [lastTexts_cons, allTexts_cons]
      by_cases hu : u.texts = []
      · have hloud : ¬ loud u = true := by simp [loud, hu]
        rw [if_pos hu, hu, List.nil_append, ih, List.filter_cons_of_neg hloud]
      · have hloud : loud u = true := by simp [loud, hu]
        rw [if_neg hu, List.filter_cons_of_pos hloud, List.length_cons]
        have hlength := lastTexts_length_le u.texts us
        by_cases htexts : texts = []
        · rw [htexts, List.nil_append, ih, if_neg hu, if_pos rfl]
        · rw [if_neg htexts]
          refine iff_of_false (fun heq => ?_) (by omega)
          -- the earlier texts are gone
          have htextsPos := List.length_pos_iff.mpr htexts
          rw [heq, List.length_append] at hlength
          omega

theorem loud_utterances (message : ChatMessage) :
    ((utterances message).filter loud).length = if hasTexts message = true then 1 else 0 := by
  have hcalls : ∀ toolCalls : List ToolCall, (toolCalls.map fun toolCall =>
      (⟨[], [decodedCall (saidCall toolCall)]⟩ : Utterance)).filter loud = [] := by
    intro toolCalls
    induction toolCalls with
    | nil => rfl
    | cons toolCall toolCalls ih => exact ih
  unfold utterances hasTexts
  rw [List.filter_append, hcalls, List.append_nil]
  by_cases h : textsOf message.content = []
  · rw [if_pos h, h]
    rfl
  · have hloud : loud ⟨textsOf message.content, []⟩ = true := by simp [loud, h]
    rw [if_neg h, List.filter_cons_of_pos hloud]
    exact (if_pos hloud).symm

theorem loud_messages (messages : List ChatMessage) :
    ((messages.flatMap utterances).filter loud).length = (messages.filter hasTexts).length := by
  induction messages with
  | nil => rfl
  | cons message messages ih =>
      rw [List.flatMap_cons, List.filter_append, List.length_append, loud_utterances, ih]
      by_cases h : hasTexts message = true
      · rw [if_pos h, List.filter_cons_of_pos h, List.length_cons]
        omega
      · rw [if_neg h, List.filter_cons_of_neg h]
        omega

theorem allTexts_messages (messages : List ChatMessage) :
    allTexts (messages.flatMap utterances) =
      messages.flatMap fun message => textsOf message.content := by
  induction messages with
  | nil => rfl
  | cons message messages ih =>
      rw [List.flatMap_cons, allTexts_append, allTexts_utterances, ih, List.flatMap_cons]

/-! ## A run of assistant messages -/

theorem utterances_eq_nil {message : ChatMessage} :
    utterances message = [] ↔ hasTexts message = false ∧ message.toolCalls = [] := by
  unfold utterances hasTexts
  rw [List.append_eq_nil_iff, List.map_eq_nil_iff]
  by_cases h : textsOf message.content = [] <;> simp [h]

/-- What a run comes back as. -/
structure RunDecoded (run : List ChatMessage) (us : List Utterance) : Prop where
  heard : us ≠ [] ↔ ∃ message ∈ run, ¬Silent message
  calls : allCalls us = allCalls (run.flatMap utterances)
  shorter : (allTexts us).length ≤ (allTexts (run.flatMap utterances)).length
  texts : allTexts us = allTexts (run.flatMap utterances) ↔ OneText run

/-- Parts that are no longer, so equal if the whole is. -/
theorem append_eq_iff_of_length_le {α : Type} {l l' m m' : List α} (hl : l.length ≤ l'.length)
    (hm : m.length ≤ m'.length) : l ++ m = l' ++ m' ↔ l = l' ∧ m = m' := by
  constructor
  · intro heq
    have hlength := congrArg List.length heq
    rw [List.length_append, List.length_append] at hlength
    exact List.append_inj heq (by omega)
  · rintro ⟨rfl, rfl⟩
    rfl

theorem RunDecoded.append {messages messages' : List ChatMessage} {us us' : List Utterance}
    (hus : allCalls us = allCalls (messages.flatMap utterances))
    (hheard : us ≠ [] ↔ ∃ message ∈ messages, ¬Silent message)
    (hshorter : (allTexts us).length ≤ (allTexts (messages.flatMap utterances)).length)
    (h : RunDecoded messages' us')
    (htexts : OneText (messages ++ messages') ↔
      allTexts us = allTexts (messages.flatMap utterances) ∧ OneText messages') :
    RunDecoded (messages ++ messages') (us ++ us') := by
  constructor
  · rw [Ne, List.append_eq_nil_iff, not_and_or, ← Ne, ← Ne, hheard, h.heard]
    constructor
    · rintro (⟨message, hmem, hsilent⟩ | ⟨message, hmem, hsilent⟩)
      · exact ⟨message, List.mem_append_left _ hmem, hsilent⟩
      · exact ⟨message, List.mem_append_right _ hmem, hsilent⟩
    · rintro ⟨message, hmem, hsilent⟩
      rcases List.mem_append.mp hmem with hmem | hmem
      · exact .inl ⟨message, hmem, hsilent⟩
      · exact .inr ⟨message, hmem, hsilent⟩
  · rw [List.flatMap_append, allCalls_append, allCalls_append, hus, h.calls]
  · rw [List.flatMap_append, allTexts_append, allTexts_append, List.length_append,
      List.length_append]
    exact Nat.add_le_add hshorter h.shorter
  · rw [List.flatMap_append, allTexts_append, allTexts_append,
      append_eq_iff_of_length_le hshorter h.shorter, h.texts, htexts]

/-- A message without reasoning. -/
def quiet (message : ChatMessage) : Bool := !hasReasoning message

theorem convertAssistant_quiet {message : ChatMessage} (h : quiet message = true) :
    convertAssistantMessageToResponses message = speech message := by
  have hnone : reasoningItem message = none := by simpa [quiet, hasReasoning] using h
  rw [convertAssistant_eq, hnone]
  rfl

theorem flatMap_quiet {messages : List ChatMessage}
    (h : ∀ message ∈ messages, quiet message = true) :
    messages.flatMap convertAssistantMessageToResponses = messages.flatMap speech := by
  induction messages with
  | nil => rfl
  | cons message messages ih =>
      rw [List.flatMap_cons, List.flatMap_cons,
        convertAssistant_quiet (h message List.mem_cons_self),
        ih fun other hother => h other (List.mem_cons_of_mem _ hother)]

theorem oneText_quiet {messages messages' : List ChatMessage}
    (h : ∀ message ∈ messages, quiet message = true) :
    OneText (messages ++ messages') ↔ OneText messages' := by
  induction messages with
  | nil => exact Iff.rfl
  | cons message messages ih =>
      have hmessage : ¬ hasReasoning message = true := by
        simpa [quiet] using h message List.mem_cons_self
      rw [List.cons_append, OneText, ih fun other hother => h other (List.mem_cons_of_mem _ hother)]
      exact and_iff_right fun hreasoning => absurd hreasoning hmessage

theorem typeOf_reasoningItem {message : ChatMessage} {item : Json}
    (h : reasoningItem message = some item) : typeOf item = "reasoning" := by
  obtain ⟨encryptedContent, -, rfl⟩ := Option.map_eq_some_iff.mp h
  rfl

theorem not_mergeable_reasoning {item : Json} (h : typeOf item = "reasoning") :
    mergeable item = false := by
  simp [mergeable, isMessageType, h]

/-- A group ends where the run ends, or where the next message has reasoning. -/
theorem dropWhile_quiet (messages : List ChatMessage) :
    messages.dropWhile quiet = [] ∨ ∃ message others, messages.dropWhile quiet = message :: others ∧
      hasReasoning message = true := by
  cases hdrop : messages.dropWhile quiet with
  | nil => exact .inl rfl
  | cons message others =>
      have hne : messages.dropWhile quiet ≠ [] := by
        rw [hdrop]
        exact List.cons_ne_nil _ _
      have hhead : quiet ((messages.dropWhile quiet).head hne) = false :=
        List.head_dropWhile_not quiet hne
      refine .inr ⟨message, others, rfl, ?_⟩
      simpa [hdrop, quiet] using hhead

theorem stops_dropWhile (messages : List ChatMessage) {rest : List Json} (h : Stops rest) :
    Stops ((messages.dropWhile quiet).flatMap convertAssistantMessageToResponses ++ rest) := by
  rcases dropWhile_quiet messages with hnil | ⟨message, others, hdrop, hreasoning⟩
  · rw [hnil]
    exact h
  · obtain ⟨item, hitem⟩ := Option.isSome_iff_exists.mp hreasoning
    rw [hdrop, List.flatMap_cons, convertAssistant_eq, hitem]
    intro other hother
    obtain rfl := Option.some.inj hother
    exact not_mergeable_reasoning (typeOf_reasoningItem hitem)

theorem takeWhile_dropWhile_quiet (messages : List ChatMessage) :
    (messages.dropWhile quiet).takeWhile quiet = [] := by
  rcases dropWhile_quiet messages with hnil | ⟨message, others, hdrop, hreasoning⟩
  · rw [hnil]
    rfl
  · rw [hdrop, List.takeWhile_cons_of_neg (by simp [quiet, hreasoning])]

/-- A message with reasoning and those up to the next are one. -/
theorem RunDecoded.group {message : ChatMessage} {messages messages' : List ChatMessage}
    {us : List Utterance} (hreasoning : hasReasoning message = true)
    (hquiet : ∀ other ∈ messages, quiet other = true) (hstop : messages'.takeWhile quiet = [])
    (h : RunDecoded messages' us) :
    RunDecoded ((message :: messages) ++ messages')
      (⟨lastTexts [] ((message :: messages).flatMap utterances),
        allCalls ((message :: messages).flatMap utterances)⟩ :: us) := by
  have htake : (messages ++ messages').takeWhile (!hasReasoning ·) = messages := by
    show (messages ++ messages').takeWhile quiet = messages
    rw [List.takeWhile_append_of_pos hquiet, hstop, List.append_nil]
  show RunDecoded _ ([_] ++ us)
  refine RunDecoded.append ?_ ?_ ?_ h ?_
  · exact List.append_nil _
  · refine iff_of_true (List.cons_ne_nil _ _) ⟨message, List.mem_cons_self, fun hsilent => ?_⟩
    exact Bool.false_ne_true (hsilent.1.symm.trans hreasoning)
  · rw [allTexts_cons]
    exact (List.append_nil _).symm ▸ lastTexts_length_le [] _
  · rw [List.cons_append, OneText, htake, oneText_quiet hquiet, allTexts_cons]
    show _ ↔ lastTexts [] _ ++ [] = [] ++ allTexts _ ∧ _
    rw [List.append_nil, lastTexts_eq_iff, loud_messages, if_pos rfl]
    exact and_congr_left fun _ => ⟨fun hone => hone hreasoning, fun hone _ => hone⟩

/-- A message without reasoning says its utterances. -/
theorem RunDecoded.single {message : ChatMessage} {messages : List ChatMessage}
    {us : List Utterance}
    (hquiet : quiet message = true) (h : RunDecoded messages us) :
    RunDecoded (message :: messages) (utterances message ++ us) := by
  have hreasoning : hasReasoning message = false := by simpa [quiet] using hquiet
  have hone : [message].flatMap utterances = utterances message := List.append_nil _
  show RunDecoded ([message] ++ messages) _
  refine RunDecoded.append ?_ ?_ ?_ h ?_
  · rw [hone]
  · rw [Ne, utterances_eq_nil]
    simp [Silent, hreasoning]
  · rw [hone]
  · rw [hone, oneText_quiet (by simpa using hquiet)]
    exact (and_iff_right rfl).symm

/-- **A run of assistant messages.** -/
theorem decode_run (run : List ChatMessage) (hform : ∀ message ∈ run, WellFormed message) :
    ∃ (decoded : List InputMessage) (us : List Utterance),
      decoded.map inputTurn = us.map Utterance.turn ∧ RunDecoded run us ∧
        ∀ rest : List Json, Stops rest →
          convertResponsesInputItems (run.flatMap convertAssistantMessageToResponses ++ rest) =
            (convertResponsesInputItems rest).map (decoded ++ ·) := by
  induction hlength : run.length using Nat.strong_induction_on generalizing run with
  | h length ih =>
  rcases run with _ | ⟨message, messages⟩
  · refine ⟨[], [], rfl, ⟨by simp, rfl, Nat.le_refl _, iff_of_true rfl trivial⟩, fun rest _ => ?_⟩
    rw [List.flatMap_nil, List.nil_append]
    cases convertResponsesInputItems rest <;> rfl
  obtain ⟨hmessage, hmessages⟩ := List.forall_mem_cons.mp hform
  rw [List.length_cons] at hlength
  by_cases hreasoning : hasReasoning message = true
  · -- the messages up to the next reasoning are one group
    obtain ⟨item, hitem⟩ := Option.isSome_iff_exists.mp hreasoning
    have hsplit : messages.takeWhile quiet ++ messages.dropWhile quiet = messages :=
      List.takeWhile_append_dropWhile
    have hquiet : ∀ other ∈ messages.takeWhile quiet, quiet other = true :=
      fun _ hmem => List.mem_takeWhile_imp hmem
    have hgroup : ∀ other ∈ message :: messages.takeWhile quiet, WellFormed other :=
      List.forall_mem_cons.mpr
        ⟨hmessage, fun other hmem => hmessages other ((List.takeWhile_sublist _).subset hmem)⟩
    have hshorter : (messages.dropWhile quiet).length < length := by
      have hle : (messages.dropWhile quiet).length ≤ messages.length :=
        (List.dropWhile_suffix quiet).length_le
      omega
    obtain ⟨decoded, us, hturns, hrun, hdecode⟩ := ih _ hshorter (messages.dropWhile quiet)
      (fun other hmem => hmessages other ((List.dropWhile_suffix quiet).subset hmem)) rfl
    obtain ⟨grouped, hturn, hdecodeGroup⟩ :=
      decode_group (typeOf_reasoningItem hitem) (utters_speeches hgroup)
    have hrun' := hrun.group hreasoning hquiet (takeWhile_dropWhile_quiet messages)
    rw [List.cons_append, hsplit] at hrun'
    refine ⟨grouped :: decoded, _, ?_, hrun', fun rest hrest => ?_⟩
    · rw [List.map_cons, hturn, hturns]
      rfl
    · have hitems : (message :: messages).flatMap convertAssistantMessageToResponses =
          item :: ((message :: messages.takeWhile quiet).flatMap speech ++
            (messages.dropWhile quiet).flatMap convertAssistantMessageToResponses) := by
        rw [List.flatMap_cons, convertAssistant_eq, hitem, List.flatMap_cons,
          ← flatMap_quiet hquiet]
        conv_lhs => rw [← hsplit, List.flatMap_append]
        simp only [Option.toList_some, List.cons_append, List.nil_append, List.append_assoc]
      rw [hitems, List.cons_append, List.append_assoc,
        hdecodeGroup _ (stops_dropWhile messages hrest), hdecode rest hrest]
      cases convertResponsesInputItems rest <;> rfl
  · have hquiet : quiet message = true := by simpa [quiet] using hreasoning
    obtain ⟨decoded, us, hturns, hrun, hdecode⟩ := ih messages.length
      (by omega) messages hmessages rfl
    obtain ⟨first, hfirst, hdecodeFirst⟩ := decode_utterances (utters_speech hmessage)
    refine ⟨first ++ decoded, utterances message ++ us, ?_, hrun.single hquiet,
      fun rest hrest => ?_⟩
    · rw [List.map_append, List.map_append, hfirst, hturns]
    · rw [List.flatMap_cons, convertAssistant_quiet hquiet, List.append_assoc, hdecodeFirst,
        hdecode rest hrest]
      cases convertResponsesInputItems rest with
      | error e => rfl
      | ok messages => exact congrArg Except.ok (List.append_assoc _ _ _).symm

/-! ## Turns -/

/-- The assistant's turn comes next. -/
def AssistantNext (turns : List Turn) : Prop :=
  ∃ texts calls, turns.head? = some (.assistant texts calls)

theorem addTurn_of_not {turns : List Turn} (h : ¬ AssistantNext turns) (turn : Turn) :
    addTurn turn turns = turn :: turns := by
  rcases turns with _ | ⟨next, turns⟩
  · cases turn <;> rfl
  · cases next with
    | assistant texts calls => exact absurd ⟨texts, calls, rfl⟩ h
    | _ => cases turn <;> rfl

theorem addTurn_other {turn : Turn} (h : ∀ texts calls, turn ≠ .assistant texts calls)
    (turns : List Turn) : addTurn turn turns = turn :: turns := by
  cases turn with
  | assistant texts calls => exact absurd rfl (h texts calls)
  | _ => rfl

/-- Utterances in a row are one turn. -/
theorem mergeTurns_utterances {us : List Utterance} (hus : us ≠ []) {turns : List Turn}
    (h : ¬ AssistantNext (mergeTurns turns)) :
    mergeTurns (us.map Utterance.turn ++ turns) =
      .assistant (allTexts us) (allCalls us) :: mergeTurns turns := by
  induction us with
  | nil => exact absurd rfl hus
  | cons u us ih =>
      show addTurn u.turn (mergeTurns (us.map Utterance.turn ++ turns)) = _
      by_cases hrest : us = []
      · rw [hrest]
        show addTurn u.turn (mergeTurns turns) = _
        rw [addTurn_of_not h]
        show Turn.assistant u.texts u.calls :: _ = .assistant (u.texts ++ []) (u.calls ++ []) :: _
        rw [List.append_nil, List.append_nil]
      · rw [ih hrest]
        rfl

/-- What a message of the assistant says, undecoded. -/
def utteranceOf (message : ChatMessage) : Utterance :=
  ⟨textsOf message.content, message.toolCalls.map saidCall⟩

theorem chatTurn_assistant {message : ChatMessage} (h : isAssistant message = true) :
    chatTurn message = (utteranceOf message).turn := by
  have hrole : message.role = "assistant" := by simpa [isAssistant] using h
  unfold chatTurn turnOf
  rw [if_pos hrole]
  rfl

theorem chatTurn_other {message : ChatMessage} (h : isAssistant message = false)
    (texts : List String) (calls : List SaidCall) : chatTurn message ≠ .assistant texts calls := by
  have hrole : message.role ≠ "assistant" := by simpa [isAssistant] using h
  unfold chatTurn turnOf
  rw [if_neg hrole]
  split <;> exact Turn.noConfusion

theorem allTexts_utteranceOf (run : List ChatMessage) :
    allTexts (run.map utteranceOf) = allTexts (run.flatMap utterances) := by
  rw [allTexts_messages]
  exact List.flatMap_map _ _ _

theorem allCalls_utteranceOf (run : List ChatMessage) :
    allCalls (run.flatMap utterances) = (allCalls (run.map utteranceOf)).map decodedCall := by
  induction run with
  | nil => rfl
  | cons message run ih =>
      rw [List.flatMap_cons, allCalls_append, allCalls_utterances, ih]
      exact List.map_append.symm

/-- Exactly the runs that survive come back as one and the same turn. -/
theorem runSurvives_iff {run : List ChatMessage} {us : List Utterance} (h : RunDecoded run us) :
    (us ≠ [] ∧ allTexts us = allTexts (run.map utteranceOf) ∧
        allCalls us = allCalls (run.map utteranceOf)) ↔ RunSurvives run := by
  have hcalls : allCalls us = allCalls (run.map utteranceOf) ↔
      ∀ message ∈ run, ∀ toolCall ∈ message.toolCalls, Bare (saidCall toolCall) := by
    have hself : (allCalls (run.map utteranceOf)).map decodedCall = allCalls (run.map utteranceOf) ↔
        ∀ call ∈ allCalls (run.map utteranceOf), decodedCall call = id call := by
      rw [← List.map_inj_left, List.map_id]
    rw [h.calls, allCalls_utteranceOf, hself]
    simp only [allCalls, List.flatMap_map, List.mem_flatMap, utteranceOf, List.mem_map]
    constructor
    · intro hall message hmessage toolCall hcall
      exact decodedCall_eq_iff.mp (hall _ ⟨message, hmessage, toolCall, hcall, rfl⟩)
    · rintro hall _ ⟨message, hmessage, toolCall, hcall, rfl⟩
      exact decodedCall_eq_iff.mpr (hall message hmessage toolCall hcall)
  rw [h.heard, allTexts_utteranceOf, h.texts, hcalls]
  exact ⟨fun ⟨hheard, hone, hbare⟩ => ⟨hheard, hone, hbare⟩,
    fun hrun => ⟨hrun.heard, hrun.oneText, hrun.bare⟩⟩

/-! ## Messages of others -/

/-- Outputs are typed as outputs. -/
def OutputTypes (types : List (String × String)) : Prop :=
  ∀ entry ∈ types, isOutputType entry.2 = true

theorem outputTypes_append {types : List (String × String)} (h : OutputTypes types)
    (items : List Json) : OutputTypes ((items.filterMap toolResultType).reverse ++ types) := by
  intro entry hentry
  rcases List.mem_append.mp hentry with hnew | hold
  · obtain ⟨item, -, hitem⟩ := List.mem_filterMap.mp (List.mem_reverse.mp hnew)
    obtain ⟨callId, -, htype⟩ := Option.bind_eq_some_iff.mp hitem
    split at htype
    · obtain rfl := Option.some.inj htype
      rfl
    · split at htype
      · obtain rfl := Option.some.inj htype
        rfl
      · cases htype
  · exact h entry hold

theorem isOutputType_lookup {types : List (String × String)} (h : OutputTypes types)
    (callId : String) : isOutputType ((types.lookup callId).getD "function_call_output") = true :=
    by
  induction types with
  | nil => rfl
  | cons entry types ih =>
      obtain ⟨hentry, hrest⟩ := List.forall_mem_cons.mp h
      rw [List.lookup_cons]
      cases callId == entry.1 with
      | true => exact hentry
      | false => exact ih hrest

/-- An item that is decoded on its own, as the message it was made from. -/
structure Returns (message : ChatMessage) (item : Json) : Prop where
  notMergeable : mergeable item = false
  notReasoning : typeOf item ≠ "reasoning"
  converted : ∃ decoded : InputMessage, convertItemToMessage item = .ok (some decoded) ∧
    inputTurn decoded = chatTurn message

theorem returns_user {message : ChatMessage} (h : WellFormed message)
    (hrole : message.role = "user" ∨ message.role = "developer") :
    Returns message (convertUserMessageToResponses message) := by
  have hwritten : (if message.role = "developer" then "developer" else "user") = message.role := by
    rcases hrole with hrole | hrole <;> rw [hrole] <;> decide
  have hitem : convertUserMessageToResponses message = .object [("type", .string "message"),
      ("role", .string message.role),
      ("content", .array ((textsOf message.content).map inputText))] := by
    unfold convertUserMessageToResponses
    rw [hwritten, inputContentParts_eq h.content]
  have hcontent : convertItemContentToMessageContent (convertUserMessageToResponses message) =
      textContent (textsOf message.content) := by
    rw [hitem, ← collapse_converted convertPart_input]
    rfl
  have hnot : message.role ≠ "assistant" ∧ message.role ≠ "tool" := by
    rcases hrole with hrole | hrole <;> rw [hrole] <;> decide
  have htype : typeOf (convertUserMessageToResponses message) = "message" := by
    rw [hitem]
    rfl
  have hstr : (convertUserMessageToResponses message).strField "role" = some message.role := by
    rw [hitem]
    rfl
  have hid : (convertUserMessageToResponses message).strField "id" = none := by
    rw [hitem]
    rfl
  constructor
  · simp [mergeable, htype, hstr, hnot.1]
  · rw [htype]
    decide
  · refine ⟨{ role := some message.role, content := textContent (textsOf message.content) }, ?_, ?_⟩
    · unfold convertItemToMessage
      dsimp only
      rw [htype, if_pos (by decide), hid, hstr, hcontent]
    · unfold inputTurn chatTurn turnOf
      dsimp only [Option.getD_some]
      rw [if_neg hnot.1, if_neg hnot.2, if_neg hnot.1, if_neg hnot.2, textsOf_textContent]

theorem returns_tool {message : ChatMessage} (h : WellFormed message)
    (hrole : message.role = "tool")
    {types : List (String × String)} (htypes : OutputTypes types) :
    Returns message (toolOutputItem types message) := by
  obtain ⟨callId, hcallId⟩ := Option.isSome_iff_exists.mp (h.answered hrole)
  have houtputType := isOutputType_lookup htypes callId
  have hitem : toolOutputItem types message = .object
      [("type", .string ((types.lookup callId).getD "function_call_output")),
        ("call_id", .string callId), ("output", toolOutputFromContent message.content)] := by
    unfold toolOutputItem
    rw [hcallId]
    rfl
  generalize (types.lookup callId).getD "function_call_output" = outputType at hitem houtputType
  have htype : typeOf (toolOutputItem types message) = outputType := by
    rw [hitem]
    rfl
  have hkinds : outputType = "function_call_output" ∨ outputType = "custom_tool_call_output" := by
    simpa [isOutputType] using houtputType
  have hconvert : convertToolCallOutputMessage (toolOutputItem types message) = .ok {
      role := some "tool"
      content := convertItemContentToMessageContent
        (.object [("content", toolOutputFromContent message.content)])
      toolCallId := some callId } := by
    rw [hitem]
    rfl
  have htexts : textsOf (convertItemContentToMessageContent
      (.object [("content", toolOutputFromContent message.content)])) =
        textsOf message.content := by
    obtain ⟨content, hcontent⟩ := Option.isSome_iff_exists.mp
      (h.present (by rw [hrole]; decide))
    rw [hcontent]
    cases h.content content hcontent with
    | text value => rfl
    | parts parts =>
        have hparts : convertItemContentToMessageContent
            (.object [("content", .array ((partTexts parts).map inputText))]) =
              textContent (partTexts parts) := by
          rw [← collapse_converted convertPart_input]
          rfl
        show textsOf (convertItemContentToMessageContent
          (.object [("content", .array ((partTexts parts).map inputText))])) = partTexts parts
        rw [hparts, textsOf_textContent]
  constructor
  · rcases hkinds with hkind | hkind <;> simp [mergeable, isMessageType, htype, hkind]
  · rcases hkinds with hkind | hkind <;> rw [htype, hkind] <;> decide
  · refine ⟨{
      role := some "tool"
      content := convertItemContentToMessageContent
        (.object [("content", toolOutputFromContent message.content)])
      toolCallId := some callId }, ?_, ?_⟩
    · unfold convertItemToMessage
      dsimp only
      rw [htype]
      rcases hkinds with hkind | hkind
      · rw [hkind, if_neg (by decide), if_neg (by decide), if_neg (by decide), if_neg (by decide),
          if_pos (by decide), hconvert]
        rfl
      · rw [hkind, if_neg (by decide), if_neg (by decide), if_neg (by decide), if_neg (by decide),
          if_pos (by decide), hconvert]
        rfl
    · unfold inputTurn chatTurn turnOf
      dsimp only [Option.getD_some]
      rw [hrole, hcallId, htexts, if_neg (by decide), if_pos rfl, if_neg (by decide)]

/-! ## The conversation -/

theorem convertMessages_spoken (types : List (String × String)) (messages : List ChatMessage) :
    convertMessages types messages =
      convertMessages types (messages.filter fun message => message.role ≠ "system") := by
  induction messages generalizing types with
  | nil => rfl
  | cons message messages ih =>
      by_cases hsystem : message.role = "system"
      · rw [List.filter_cons_of_neg (by simp [hsystem]), ← ih, convertMessages, hsystem,
          if_neg (by decide), if_neg (by decide), if_neg (by decide)]
      · rw [List.filter_cons_of_pos (by simp [hsystem]), convertMessages, convertMessages]
        split_ifs
        · rw [ih]
        · dsimp only
          rw [ih]
        · rw [ih]
        · rw [ih]

theorem convertMessages_run {run : List ChatMessage}
    (hrun : ∀ message ∈ run, isAssistant message = true)
    {types : List (String × String)} (htypes : OutputTypes types) (rest : List ChatMessage) :
    ∃ types', OutputTypes types' ∧ convertMessages types (run ++ rest) =
      run.flatMap convertAssistantMessageToResponses ++ convertMessages types' rest := by
  induction run generalizing types with
  | nil => exact ⟨types, htypes, rfl⟩
  | cons message run ih =>
      obtain ⟨hmessage, hmessages⟩ := List.forall_mem_cons.mp hrun
      have hrole : message.role = "assistant" := by simpa [isAssistant] using hmessage
      obtain ⟨types', htypes', heq⟩ := ih hmessages
        (outputTypes_append htypes (convertAssistantMessageToResponses message))
      refine ⟨types', htypes', ?_⟩
      rw [List.cons_append, convertMessages, hrole, if_neg (by decide), if_pos (.inl rfl)]
      dsimp only
      rw [heq, List.flatMap_cons, List.append_assoc]

theorem convertMessages_other {message : ChatMessage} (h : WellFormed message)
    (hassistant : isAssistant message = false) (hsystem : message.role ≠ "system")
    {types : List (String × String)} (htypes : OutputTypes types) (rest : List ChatMessage) :
    ∃ item, Returns message item ∧
      convertMessages types (message :: rest) = item :: convertMessages types rest := by
  have hnot : message.role ≠ "assistant" := by simpa [isAssistant] using hassistant
  have hroles := h.role
  simp only [List.mem_cons, List.not_mem_nil, or_false, hsystem, hnot, false_or] at hroles
  by_cases huser : message.role = "user" ∨ message.role = "developer"
  · exact ⟨_, returns_user h huser, by rw [convertMessages, if_pos huser]⟩
  · have htool : message.role = "tool" := by
      rcases hroles with hrole | hrole | hrole
      · exact absurd (.inr hrole) huser
      · exact absurd (.inl hrole) huser
      · exact hrole
    refine ⟨_, returns_tool h htool htypes, ?_⟩
    rw [convertMessages, if_neg huser, htool, if_neg (by decide), if_pos rfl]

theorem stops_convertMessages {messages : List ChatMessage}
    (hform : ∀ message ∈ messages, WellFormed message)
    (hspoken : ∀ message ∈ messages, message.role ≠ "system")
    (hhead : ∀ message ∈ messages.head?, isAssistant message = false)
    {types : List (String × String)} (htypes : OutputTypes types) :
    Stops (convertMessages types messages) := by
  rcases messages with _ | ⟨message, messages⟩
  · intro item hitem
    cases hitem
  · obtain ⟨item, hreturns, hitems⟩ := convertMessages_other (hform message List.mem_cons_self)
      (hhead message rfl) (hspoken message List.mem_cons_self) htypes messages
    rw [hitems]
    intro other hother
    rw [← Option.some.inj hother]
    exact hreturns.notMergeable

theorem head?_dropWhile (messages : List ChatMessage) :
    ∀ message ∈ (messages.dropWhile isAssistant).head?, isAssistant message = false := by
  intro message hmessage
  have hne : messages.dropWhile isAssistant ≠ [] := by
    rintro hnil
    rw [hnil] at hmessage
    cases hmessage
  have hhead := List.head_dropWhile_not isAssistant hne
  rw [List.head?_eq_some_head hne] at hmessage
  rw [← Option.some.inj hmessage]
  exact hhead

theorem mergeTurns_other {message : ChatMessage} (h : isAssistant message = false)
    (turns : List Turn) :
    mergeTurns (chatTurn message :: turns) = chatTurn message :: mergeTurns turns :=
  addTurn_other (chatTurn_other h) _

/-- What starts with another's message does not start with the assistant's turn. -/
theorem not_assistantNext {messages : List ChatMessage}
    (h : ∀ message ∈ messages.head?, isAssistant message = false) :
    ¬ AssistantNext (mergeTurns (messages.map chatTurn)) := by
  rintro ⟨texts, calls, hhead⟩
  rcases messages with _ | ⟨message, messages⟩
  · cases hhead
  · rw [List.map_cons, mergeTurns_other (h message rfl)] at hhead
    exact chatTurn_other (h message rfl) texts calls (Option.some.inj hhead)

/-- **The messages that are no instructions.** -/
theorem decode_spoken (messages : List ChatMessage)
    (hform : ∀ message ∈ messages, WellFormed message)
    (hspoken : ∀ message ∈ messages, message.role ≠ "system") {types : List (String × String)}
    (htypes : OutputTypes types) :
    ∃ decoded : List InputMessage,
      convertResponsesInputItems (convertMessages types messages) = .ok decoded ∧
        ((∀ message ∈ messages.head?, isAssistant message = false) →
          ¬ AssistantNext (mergeTurns (decoded.map inputTurn))) ∧
        (mergeTurns (decoded.map inputTurn) = mergeTurns (messages.map chatTurn) ↔
          RunsSurvive messages) := by
  induction messages using RunsSurvive.induct generalizing types with
  | case1 =>
      refine ⟨[], ?_, fun _ hnext => ?_, ?_⟩
      · rw [convertMessages, convertResponsesInputItems]
      · obtain ⟨texts, calls, hhead⟩ := hnext
        cases hhead
      · rw [RunsSurvive]
        exact iff_of_true rfl trivial
  | case2 message messages hassistant ih =>
      have hrun : ∀ other ∈ message :: messages.takeWhile isAssistant, isAssistant other = true :=
        List.forall_mem_cons.mpr ⟨hassistant, fun _ hmem => List.mem_takeWhile_imp hmem⟩
      have hsplit : (message :: messages.takeWhile isAssistant) ++ messages.dropWhile isAssistant =
          message :: messages := by
        rw [List.cons_append, List.takeWhile_append_dropWhile]
      rw [← hsplit] at hform hspoken
      rw [List.forall_mem_append] at hform hspoken
      obtain ⟨types', htypes', hitems⟩ :=
        convertMessages_run hrun htypes (messages.dropWhile isAssistant)
      rw [hsplit] at hitems
      have hnext := head?_dropWhile messages
      obtain ⟨decoded, hdecoded, hquietNext, hiff⟩ := ih hform.2 hspoken.2 htypes'
      obtain ⟨answered, us, hturns, hrunDecoded, hdecode⟩ := decode_run _ hform.1
      have hall : convertResponsesInputItems (convertMessages types (message :: messages)) =
          .ok (answered ++ decoded) := by
        rw [hitems, hdecode _ (stops_convertMessages hform.2 hspoken.2 hnext htypes'), hdecoded]
        rfl
      have hchat : mergeTurns ((message :: messages).map chatTurn) =
          .assistant
              (allTexts ((message :: messages.takeWhile isAssistant).map utteranceOf))
              (allCalls ((message :: messages.takeWhile isAssistant).map utteranceOf)) ::
            mergeTurns ((messages.dropWhile isAssistant).map chatTurn) := by
        have hutterances : (message :: messages.takeWhile isAssistant).map chatTurn =
            ((message :: messages.takeWhile isAssistant).map utteranceOf).map Utterance.turn := by
          rw [List.map_map]
          exact List.map_congr_left fun other hother => chatTurn_assistant (hrun other hother)
        rw [← hsplit, List.map_append, hutterances]
        exact mergeTurns_utterances (List.cons_ne_nil _ _) (not_assistantNext hnext)
      refine ⟨answered ++ decoded, hall, fun hhead => ?_, ?_⟩
      · exact absurd (hhead message rfl) (by rw [hassistant]; decide)
      · rw [RunsSurvive, if_pos hassistant, ← hiff, ← runSurvives_iff hrunDecoded, List.map_append,
          hturns, hchat]
        by_cases hus : us = []
        · -- nothing of the run was written
          rw [hus]
          refine iff_of_false (fun heq => ?_) fun h => h.1.1 rfl
          exact hquietNext hnext ⟨_, _, (congrArg List.head? heq).trans rfl⟩
        · rw [mergeTurns_utterances hus (hquietNext hnext), List.cons.injEq, Turn.assistant.injEq]
          exact ⟨fun h => ⟨⟨hus, h.1⟩, h.2⟩, fun h => ⟨h.1.2, h.2⟩⟩
  | case3 message messages hassistant ih =>
      have hother : isAssistant message = false := by simpa using hassistant
      obtain ⟨hmessage, hmessages⟩ := List.forall_mem_cons.mp hform
      obtain ⟨hsystem, hsystems⟩ := List.forall_mem_cons.mp hspoken
      obtain ⟨item, hreturns, hitems⟩ :=
        convertMessages_other hmessage hother hsystem htypes messages
      obtain ⟨decoded, hdecoded, -, hiff⟩ := ih hmessages hsystems htypes
      obtain ⟨first, hfirst, hturn⟩ := hreturns.converted
      have hmerge : mergeTurns ((first :: decoded).map inputTurn) =
          chatTurn message :: mergeTurns (decoded.map inputTurn) := by
        rw [List.map_cons, hturn, mergeTurns_other hother]
      refine ⟨first :: decoded, ?_, fun _ hnext => ?_, ?_⟩
      · rw [hitems, convertResponsesInputItems, if_neg hreturns.notReasoning, hfirst, hdecoded]
        rfl
      · obtain ⟨texts, calls, hhead⟩ := hnext
        rw [hmerge] at hhead
        exact chatTurn_other hother texts calls (Option.some.inj hhead)
      · rw [hmerge, List.map_cons, mergeTurns_other hother, RunsSurvive, if_neg hassistant, ← hiff]
        exact ⟨fun h => (List.cons.inj h).2, fun h => congrArg _ h⟩

/-! ## The whole chat -/

theorem nonEmpty_eq (text : String) : nonEmpty text = [text].filter (· ≠ "") := by
  unfold nonEmpty
  by_cases h : text = "" <;> simp [h]

theorem collectMessageText_eq {content : Option MessageContent}
    (h : ∀ content' ∈ content, TextContent content') :
    collectMessageText content = ["\n".intercalate (textsOf content)].filter (· ≠ "") := by
  rw [← nonEmpty_eq]
  rcases content with _ | content
  · rfl
  cases h content rfl with
  | text value =>
      show nonEmpty value = nonEmpty ("\n".intercalate [value])
      rw [String.intercalate_singleton]
  | parts parts => rfl

theorem instructions_eq {chat : ChatRequest}
    (hform : ∀ message ∈ chat.messages, WellFormed message) :
    convertChatInstructions chat = "\n".intercalate (systemTexts chat) := by
  unfold convertChatInstructions systemTexts
  congr 2
  generalize chat.messages = messages at hform
  induction messages with
  | nil => rfl
  | cons message messages ih =>
      obtain ⟨hmessage, hmessages⟩ := List.forall_mem_cons.mp hform
      by_cases hsystem : message.role = "system"
      · rw [List.filter_cons_of_pos (by simpa using hsystem), List.flatMap_cons, ih hmessages,
          collectMessageText_eq hmessage.content, List.map_cons]
        exact (List.filter_append _ _).symm
      · rw [List.filter_cons_of_neg (by simpa using hsystem), ih hmessages]

/-- A message that is sent as a string. -/
def SentAsString (chat : ChatRequest) (message : ChatMessage) (text : String) : Prop :=
  chat.messages = [message] ∧ message.content = some (.text text) ∧ message.role ≠ "system"

theorem input_string {chat : ChatRequest} {message : ChatMessage} {text : String}
    (h : SentAsString chat message text) :
    convertChatMessagesToResponsesInput chat = .string text := by
  rcases message with ⟨role, name, content, toolCalls, toolCallId, extra⟩
  obtain ⟨hmessages, hcontent, hsystem⟩ := h
  have hcontent : content = some (.text text) := hcontent
  unfold convertChatMessagesToResponsesInput
  rw [hmessages, hcontent]
  exact if_neg hsystem

theorem input_items {chat : ChatRequest} (h : ¬ ∃ message text, SentAsString chat message text) :
    convertChatMessagesToResponsesInput chat = .array (convertMessages [] chat.messages) := by
  unfold convertChatMessagesToResponsesInput
  split
  · next role text name toolCalls toolCallId extra hmessages =>
      split
      · rw [hmessages]
      · next hsystem => exact absurd ⟨_, _, hmessages, rfl, hsystem⟩ h
  · rfl

/-- Such a message comes back as the user's. -/
theorem turns_string_iff {message : ChatMessage} {text : String}
    (hcontent : message.content = some (.text text)) :
    mergeTurns (([{ role := some "user", content := some (.text text) }] : List InputMessage).map
        inputTurn) = mergeTurns ([message].map chatTurn) ↔ message.role = "user" := by
  have huser : mergeTurns (([{ role := some "user", content := some (.text text) }] :
      List InputMessage).map inputTurn) = [.said "user" [text]] := rfl
  have hturn : mergeTurns ([message].map chatTurn) = [chatTurn message] := by
    show addTurn (chatTurn message) [] = _
    cases chatTurn message <;> rfl
  rw [huser, hturn, List.cons.injEq]
  unfold chatTurn turnOf
  rw [hcontent]
  by_cases hassistant : message.role = "assistant"
  · rw [if_pos hassistant, hassistant]
    exact iff_of_false (fun h => Turn.noConfusion h.1) (by decide)
  by_cases htool : message.role = "tool"
  · rw [if_neg hassistant, if_pos htool, htool]
    exact iff_of_false (fun h => Turn.noConfusion h.1) (by decide)
  rw [if_neg hassistant, if_neg htool, Turn.said.injEq]
  exact ⟨fun h => h.1.1.symm, fun h => ⟨⟨h.symm, rfl⟩, rfl⟩⟩

/-- **A chat survives exactly if its single text is the user's and each run of
assistant messages survives.** -/
theorem chat_survives_iff (chat : ChatRequest)
    (hform : ∀ message ∈ chat.messages, WellFormed message) :
    Survives chat ↔ RoleKept chat ∧ RunsSurvive (spoken chat) := by
  have hspokenForm : ∀ message ∈ spoken chat, WellFormed message :=
    fun message hmem => hform message (List.mem_filter.mp hmem).1
  have hspoken : ∀ message ∈ spoken chat, message.role ≠ "system" :=
    fun message hmem => by simpa using (List.mem_filter.mp hmem).2
  have hsurvives : Survives chat ↔ ∃ messages : List InputMessage,
      convertResponsesInputToMessages (convertChatMessagesToResponsesInput chat) = .ok messages ∧
        mergeTurns (messages.map inputTurn) = mergeTurns ((spoken chat).map chatTurn) :=
    ⟨fun h => h.conversation, fun h => ⟨h, instructions_eq hform⟩⟩
  rw [hsurvives]
  by_cases hstring : ∃ message text, SentAsString chat message text
  · obtain ⟨message, text, hsent⟩ := hstring
    obtain ⟨hmessages, hcontent, hsystem⟩ := id hsent
    have honly : spoken chat = [message] := by
      unfold spoken
      rw [hmessages, List.filter_cons_of_pos (by simpa using hsystem)]
      rfl
    rw [input_string hsent, honly]
    have hturns := turns_string_iff hcontent
    constructor
    · rintro ⟨messages, hdecoded, heq⟩
      rw [← Except.ok.inj hdecoded] at heq
      have huser := hturns.mp heq
      refine ⟨fun other text' hother _ => ?_, ?_⟩
      · rw [hmessages] at hother
        rw [← (List.cons.inj hother).1]
        exact .inl huser
      · rw [RunsSurvive, if_neg (by simp [isAssistant, huser]), RunsSurvive]
        trivial
    · rintro ⟨hkept, -⟩
      have huser := (hkept message text hmessages hcontent).resolve_right hsystem
      exact ⟨_, rfl, hturns.mpr huser⟩
  · have hnone : OutputTypes [] := fun _ hmem => absurd hmem List.not_mem_nil
    obtain ⟨decoded, hdecoded, -, hiff⟩ := decode_spoken (spoken chat) hspokenForm hspoken hnone
    have hinput : convertResponsesInputToMessages (convertChatMessagesToResponsesInput chat) =
        .ok decoded := by
      rw [input_items hstring, convertMessages_spoken]
      exact hdecoded
    have hkept : RoleKept chat := by
      intro message text hmessages hcontent
      by_contra hroles
      rw [not_or] at hroles
      exact hstring ⟨message, text, hmessages, hcontent, hroles.2⟩
    rw [hinput, ← hiff]
    constructor
    · rintro ⟨messages, hmessages, heq⟩
      rw [← Except.ok.inj hmessages] at heq
      exact ⟨hkept, heq⟩
    · rintro ⟨-, heq⟩
      exact ⟨decoded, rfl, heq⟩

/-! ## Chats -/

def textMessage (role text : String) : ChatMessage := { role := role, content := some (.text text) }

def callMessage : ChatMessage :=
  { textMessage "assistant" "b" with
    toolCalls := [{
      id := some "c"
      callType := "function"
      function := .object [("name", .string "f"), ("arguments", .string "x")] }] }

def resultMessage : ChatMessage := { textMessage "tool" "r" with toolCallId := some "c" }

/-- A question, an answer in two messages with a call, the result, and the end of the answer. -/
def sampleChat : ChatRequest where
  messages := [textMessage "system" "s", textMessage "user" "q", textMessage "assistant" "a",
    callMessage, resultMessage, textMessage "assistant" "d"]

theorem textContent_some (text : String) :
    ∀ content ∈ some (MessageContent.text text), TextContent content := by
  intro content hcontent
  rw [← Option.some.inj hcontent]
  exact .text text

theorem textMessage_wellFormed {role : String} (text : String)
    (hrole : role ∈ ["system", "developer", "user", "assistant"]) :
    WellFormed (textMessage role text) := by
  refine ⟨?_, textContent_some text, fun _ => rfl, by simp [textMessage], fun htool => ?_⟩
  · show role ∈ _
    simp only [List.mem_cons, List.not_mem_nil, or_false] at hrole ⊢
    tauto
  · have htool : role = "tool" := htool
    rw [htool] at hrole
    exact absurd hrole (by decide)

theorem sampleChat_wellFormed : ∀ message ∈ sampleChat.messages, WellFormed message := by
  intro message hmessage
  simp only [sampleChat, List.mem_cons, List.not_mem_nil, or_false] at hmessage
  rcases hmessage with rfl | rfl | rfl | rfl | rfl | rfl
  · exact textMessage_wellFormed _ (by decide)
  · exact textMessage_wellFormed _ (by decide)
  · exact textMessage_wellFormed _ (by decide)
  · exact ⟨by decide, textContent_some _, fun _ => rfl,
      by simpa [callMessage] using UnifiedCall.function "c" "f" "x", by decide⟩
  · exact ⟨by decide, textContent_some _, fun _ => rfl, by simp [resultMessage, textMessage],
      fun _ => rfl⟩
  · exact textMessage_wellFormed _ (by decide)

/-- A run without reasoning and custom calls that says a text. -/
theorem runSurvives_plain {message : ChatMessage} {messages : List ChatMessage}
    (htexts : hasTexts message = true)
    (hquiet : ∀ other ∈ message :: messages, quiet other = true)
    (hcalls : ∀ other ∈ message :: messages, ∀ toolCall ∈ other.toolCalls,
      Bare (saidCall toolCall)) :
    RunSurvives (message :: messages) := by
  refine ⟨⟨message, List.mem_cons_self, fun hsilent => ?_⟩, ?_, hcalls⟩
  · exact Bool.false_ne_true (hsilent.2.1.symm.trans htexts)
  · have hone : OneText ((message :: messages) ++ []) := (oneText_quiet hquiet).mpr trivial
    rwa [List.append_nil] at hone

theorem sampleChat_runs : RunsSurvive (spoken sampleChat) := by
  have hspoken : spoken sampleChat = sampleChat.messages.tail := rfl
  have hfirst : RunSurvives [textMessage "assistant" "a", callMessage] := by
    refine runSurvives_plain rfl ?_ ?_
    · simp [quiet, hasReasoning, reasoningItem, callMessage, textMessage]
    · simp [saidCall, Bare, callMessage, textMessage]
  have hlast : RunSurvives [textMessage "assistant" "d"] := by
    refine runSurvives_plain rfl ?_ ?_
    · simp [quiet, hasReasoning, reasoningItem, textMessage]
    · simp [textMessage]
  have hroles : isAssistant (textMessage "user" "q") = false ∧
      isAssistant (textMessage "assistant" "a") = true ∧ isAssistant callMessage = true ∧
      isAssistant resultMessage = false ∧ isAssistant (textMessage "assistant" "d") = true := by
    decide
  rw [hspoken]
  simp [sampleChat, RunsSurvive, hroles, hfirst, hlast]

theorem sampleChat_survives : Survives sampleChat :=
  (chat_survives_iff sampleChat sampleChat_wellFormed).mpr
    ⟨fun message text hmessages _ => by simp [sampleChat] at hmessages, sampleChat_runs⟩

/-- An instruction of the developer. -/
def developerChat : ChatRequest where
  messages := [textMessage "developer" "t"]

/-- It becomes the user's. -/
theorem single_message_changes_role :
    (∀ message ∈ developerChat.messages, WellFormed message) ∧ ¬ Survives developerChat := by
  refine ⟨fun message hmessage => ?_, fun h => ?_⟩
  · rw [List.mem_singleton.mp hmessage]
    exact textMessage_wellFormed "t" (by decide)
  · obtain ⟨messages, hdecoded, hturns⟩ := h.conversation
    rw [← Except.ok.inj hdecoded] at hturns
    revert hturns
    decide

end Conduit.Transformers.ChatTurns
