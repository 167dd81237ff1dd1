import Conduit.Transformers.AnthropicMessages
import Mathlib

/-!
# What the conversion keeps

In a dialogue with tools the loop is a walk: position by position, each one adds
its own turns (`turnsAt`), and the marks are the positions of the turns made so
far. The conversion keeps a dialogue if the messages are grouped by a monotone
owner, the assistant message whose results they join or themselves.
-/

namespace Conduit.Transformers.AnthropicMessages

open Base Base.Json

/-! ## Fibres -/

/-- The fibres of a monotone map, one after the other, are the sorted list. -/
theorem flatMap_fibres {l : List Nat} {owner : Nat → Nat} {n : Nat}
    (hsorted : l.Pairwise (· < ·)) (hbound : ∀ x ∈ l, owner x < n)
    (hmono : ∀ x ∈ l, ∀ y ∈ l, x < y → owner x ≤ owner y) :
    (List.range n).flatMap (fun i => l.filter fun x => owner x = i) = l := by
  refine List.Pairwise.eq_of_mem_iff (List.pairwise_flatMap.mpr ⟨?_, ?_⟩) hsorted ?_
  · exact fun i _ => hsorted.filter _
  · refine List.pairwise_lt_range.imp ?_
    intro i j hij x hx y hy
    rw [List.mem_filter, decide_eq_true_iff] at hx hy
    -- a smaller element of the later fibre would have a larger owner
    rcases Nat.lt_trichotomy x y with hlt | rfl | hgt
    · exact hlt
    · omega
    · have := hmono y hy.1 x hx.1 hgt
      omega
  · intro x
    simp only [List.mem_flatMap, List.mem_range, List.mem_filter, decide_eq_true_iff]
    exact ⟨fun ⟨_, _, hx, _⟩ => hx, fun hx => ⟨owner x, hbound x hx, hx, rfl⟩⟩

/-! ## The walk -/

section Walk

variable (messages : List ChatMessage)

/-- The positions of a turn. -/
def Turn.positions (turn : Turn) : List Nat := turn.spoken ++ turn.resulted

def positions (turns : List Turn) : List Nat := turns.flatMap Turn.positions

/-- The indexes of results. -/
def indexesOf (results : List Nat) : List Int :=
  results.flatMap fun k => (messageIndexAt messages k).toList

/-- The user messages that an assistant message takes along, when some are used. -/
def taken (used : List Nat) (i : Nat) : List Nat :=
  relatedUsers messages used (indexesOf messages (answers messages i))

/-- A user message with the index of a used message is skipped. -/
def skipped (used : List Nat) (i : Nat) : Bool :=
  (messageIndexAt messages i).any fun index => 0 ≤ index ∧ index.toNat ∈ used

/-- The turns a position adds. -/
def turnsAt (used : List Nat) (i : Nat) : List Turn :=
  match messages[i]? with
  | none => []
  | some message =>
      if i ∈ used ∨ message.role = "tool" then []
      else if message.role = "user" then
        if skipped messages used i then [] else [.user i]
      else if message.role = "assistant" then
        .assistant i ::
          if answers messages i = [] then []
          else [.results ((answers messages i).map .result ++ (taken messages used i).map .text)]
      else [.user i]

/-- The turns before a position. -/
def walk : Nat → List Turn
  | 0 => []
  | i + 1 => walk i ++ turnsAt messages (positions (walk i)) i

def used (i : Nat) : List Nat := positions (walk messages i)

end Walk

/-! ## Reading a position -/

section Positions

variable {messages : List ChatMessage} {i k : Nat}

theorem isTool_of_getElem? {message : ChatMessage} (h : messages[i]? = some message) :
    isTool messages i = decide (message.role = "tool") := by
  unfold isTool
  rw [h, Option.any_some]

theorem isUser_of_getElem? {message : ChatMessage} (h : messages[i]? = some message) :
    isUser messages i = decide (message.role = "user") := by
  unfold isUser
  rw [h, Option.any_some]

theorem lt_length_of_isTool (h : isTool messages k = true) : k < messages.length := by
  unfold isTool at h
  by_contra hlt
  rw [List.getElem?_eq_none (Nat.le_of_not_lt hlt)] at h
  exact Bool.false_ne_true h

theorem lt_length_of_isUser (h : isUser messages k = true) : k < messages.length := by
  unfold isUser at h
  by_contra hlt
  rw [List.getElem?_eq_none (Nat.le_of_not_lt hlt)] at h
  exact Bool.false_ne_true h

theorem not_isTool_of_isUser (h : isUser messages k = true) : isTool messages k = false := by
  unfold isUser at h
  unfold isTool
  cases hmessage : messages[k]? with
  | none => rfl
  | some message =>
      rw [hmessage, Option.any_some, decide_eq_true_iff] at h
      rw [Option.any_some, h]
      decide

/-- Only assistant messages have calls. -/
theorem role_of_callsAt {toolCall : ToolCall} (h : toolCall ∈ callsAt messages i) :
    ∃ message : ChatMessage, messages[i]? = some message ∧ message.role = "assistant" := by
  unfold callsAt at h
  cases hmessage : messages[i]? with
  | none =>
      rw [hmessage] at h
      exact absurd h (by simp)
  | some message =>
      rw [hmessage] at h
      dsimp only at h
      split at h
      · rename_i hrole
        exact ⟨message, rfl, hrole⟩
      · exact absurd h (by simp)

theorem not_isTool_of_callsAt {toolCall : ToolCall} (h : toolCall ∈ callsAt messages i) :
    isTool messages i = false := by
  obtain ⟨message, hmessage, hrole⟩ := role_of_callsAt h
  rw [isTool_of_getElem? hmessage, hrole]
  decide

theorem mem_relatedUsers {processed : List Nat} {indexes : List Int} :
    k ∈ relatedUsers messages processed indexes ↔
      k ∉ processed ∧ isUser messages k = true ∧
        ∃ index ∈ indexes, messageIndexAt messages k = some index := by
  unfold relatedUsers isUser messageIndexAt
  rw [List.mem_filter, List.mem_range, decide_eq_true_iff]
  cases hmessage : messages[k]? with
  | none => simp
  | some message =>
      have hlt : k < messages.length := (List.getElem?_eq_some_iff.mp hmessage).1
      simp [hlt, Option.any_eq_true, and_comm]

theorem relatedUsers_congr {processed processed' : List Nat} {indexes : List Int}
    (h : ∀ k : Nat, isUser messages k = true → (k ∈ processed ↔ k ∈ processed')) :
    relatedUsers messages processed indexes = relatedUsers messages processed' indexes := by
  unfold relatedUsers
  refine List.filter_congr fun k _ => ?_
  by_cases huser : isUser messages k = true
  · simp only [h k huser]
  · unfold isUser at huser
    cases hmessage : messages[k]? with
    | none => simp
    | some message =>
        rw [hmessage, Option.any_some, decide_eq_true_iff] at huser
        simp [huser]

theorem relatedUsers_nil (processed : List Nat) : relatedUsers messages processed [] = [] := by
  refine List.eq_nil_iff_forall_not_mem.mpr fun k hk => ?_
  obtain ⟨-, -, index, hindex, -⟩ := mem_relatedUsers.mp hk
  exact absurd hindex (List.not_mem_nil)

/-- The result of a call is a tool message with its id. -/
theorem resultPosition_spec {id : String} (h : resultPosition messages id = some k) :
    isTool messages k = true ∧ toolCallIdAt messages k = some id := by
  have hfound := List.find?_some h
  unfold isTool toolCallIdAt
  cases hmessage : messages[k]? with
  | none =>
      rw [hmessage] at hfound
      exact absurd hfound (by simp)
  | some message =>
      rw [hmessage, Option.any_some, decide_eq_true_iff] at hfound
      exact ⟨by simpa using hfound.1, hfound.2⟩

theorem resultPosition_isSome {id : String} (htool : isTool messages k = true)
    (hid : toolCallIdAt messages k = some id) : (resultPosition messages id).isSome = true := by
  unfold resultPosition
  refine List.find?_isSome.mpr ⟨k, List.mem_range.mpr (lt_length_of_isTool htool), ?_⟩
  unfold isTool at htool
  unfold toolCallIdAt at hid
  cases hmessage : messages[k]? with
  | none =>
      rw [hmessage] at htool
      exact absurd htool (by simp)
  | some message =>
      rw [hmessage, Option.any_some, decide_eq_true_iff] at htool
      rw [hmessage, Option.bind_some] at hid
      rw [Option.any_some, decide_eq_true_iff]
      exact ⟨htool, hid⟩

end Positions

/-! ## The loop is the walk -/

/-- What the loop knows before a position: the messages of its turns are marked, and
the calls that have a result are paired. -/
structure Reached (messages : List ChatMessage) (i : Nat) (s : Conversion) : Prop where
  out : s.out = walk messages i
  processed : ∀ k : Nat, k ∈ s.processed ↔ k ∈ used messages i
  paired : ∀ id : String, id ∈ s.processedToolCallIds ↔
    ∃ a < i, ∃ toolCall ∈ callsAt messages a,
      toolCall.id = some id ∧ (resultPosition messages id).isSome = true

section Loop

variable {messages : List ChatMessage} {i : Nat} {s : Conversion}

/-- A run of tool messages whose ids are paired gives no block. -/
theorem groupRun_paired {rest : List ChatMessage} {position : Nat} {b : Blocks}
    (hrest : rest = messages.drop position)
    (hpaired : ∀ k : Nat, position ≤ k →
      (∀ j : Nat, position ≤ j → j ≤ k → isTool messages j = true) →
      (toolCallIdAt messages k).any (fun id => id ≠ "" ∧ id ∈ b.processedToolCallIds) = true) :
    ∃ next : Nat, groupRun rest position b = (b, next) ∧ position ≤ next ∧
      (isTool messages position = true → position < next) ∧
      ∀ k : Nat, position ≤ k → k < next → isTool messages k = true := by
  induction rest generalizing position with
  | nil =>
      refine ⟨position, rfl, le_refl _, fun htool => ?_,
        fun k hle hlt => absurd hlt (Nat.not_lt.mpr hle)⟩
      exact absurd (lt_length_of_isTool htool) (Nat.not_lt.mpr (List.drop_eq_nil_iff.mp hrest.symm))
  | cons message rest ih =>
      have hmessage : messages[position]? = some message := by
        rw [← List.head?_drop, ← hrest, List.head?_cons]
      have htail : rest = messages.drop (position + 1) := by
        rw [← List.tail_drop, ← hrest, List.tail_cons]
      by_cases hrole : message.role = "tool"
      · have htool : isTool messages position = true := by
          rw [isTool_of_getElem? hmessage, decide_eq_true_iff]
          exact hrole
        have hid := hpaired position (le_refl _) fun j hj hj' => by
          rwa [Nat.le_antisymm hj' hj]
        unfold toolCallIdAt at hid
        rw [hmessage, Option.bind_some] at hid
        obtain ⟨next, hrun, hle, -, htools⟩ := ih htail fun k hk hrun =>
          hpaired k (by omega) fun j hj hj' => by
            rcases Nat.eq_or_lt_of_le hj with rfl | hlt
            · exact htool
            · exact hrun j hlt hj'
        refine ⟨next, ?_, by omega, fun _ => hle, ?_⟩
        · unfold groupRun
          rw [if_pos hrole, if_pos hid]
          exact hrun
        · intro k hk hlt
          rcases Nat.eq_or_lt_of_le hk with rfl | hlt'
          · exact htool
          · exact htools k hlt' hlt
      · refine ⟨position, ?_, le_refl _, fun htool => ?_,
          fun k hle hlt => absurd hlt (Nat.not_lt.mpr hle)⟩
        · unfold groupRun
          rw [if_neg hrole]
        · rw [isTool_of_getElem? hmessage, decide_eq_true_iff] at htool
          exact absurd htool hrole

/-- Every tool message answers a call that is paired by then. -/
theorem Reached.toolCallIdAt_paired (hreached : Reached messages i s)
    (hdialogue : ToolDialogue messages) {k : Nat} (hle : i ≤ k)
    (hrun : ∀ j : Nat, i ≤ j → j ≤ k → isTool messages j = true) :
    (toolCallIdAt messages k).any (fun id => id ≠ "" ∧ id ∈ s.processedToolCallIds) = true := by
  have htool := hrun k hle (le_refl k)
  obtain ⟨a, halt, toolCall, hcall, hid⟩ := hdialogue.answered k htool
  obtain ⟨id, hsome, hne⟩ := hdialogue.ids a toolCall hcall
  have ha : a < i := by
    by_contra hge
    have := hrun a (by omega) (by omega)
    rw [not_isTool_of_callsAt hcall] at this
    exact Bool.false_ne_true this
  rw [← hid, hsome, Option.any_some, decide_eq_true_iff]
  refine ⟨hne, (hreached.paired id).mpr ⟨a, ha, toolCall, hcall, hsome, ?_⟩⟩
  exact resultPosition_isSome htool (hid ▸ hsome)

theorem withRelated_of_nil {b : Blocks} (h : b.indexes = []) : b.withRelated messages = b := by
  obtain ⟨blocks, indexes, processed, ids⟩ := b
  obtain rfl : indexes = [] := h
  unfold Blocks.withRelated
  dsimp only
  rw [relatedUsers_nil, List.map_nil, List.append_nil, List.nil_append]

/-- So the tool messages from here on are passed over. -/
theorem Reached.groupConsecutive (hreached : Reached messages i s)
    (hdialogue : ToolDialogue messages) :
    ∃ next : Nat, groupConsecutiveToolResults messages i s =
        ({ processed := s.processed, processedToolCallIds := s.processedToolCallIds }, next) ∧
      i ≤ next ∧ (isTool messages i = true → i < next) ∧
        ∀ k : Nat, i ≤ k → k < next → isTool messages k = true := by
  obtain ⟨next, hrun, hle, hlt, htools⟩ := @groupRun_paired messages (messages.drop i) i
    { processed := s.processed, processedToolCallIds := s.processedToolCallIds } rfl
    fun k hk htools => hreached.toolCallIdAt_paired hdialogue hk htools
  refine ⟨next, ?_, hle, hlt, htools⟩
  unfold groupConsecutiveToolResults
  rw [hrun]
  dsimp only
  rw [withRelated_of_nil rfl]

/-- The results of calls, in their order. -/
def resultsOf (messages : List ChatMessage) (toolCalls : List ToolCall) : List Nat :=
  toolCalls.filterMap fun toolCall => toolCall.id.bind (resultPosition messages)

def answeredIds (messages : List ChatMessage) (toolCalls : List ToolCall) : List String :=
  toolCalls.filterMap fun toolCall =>
    toolCall.id.filter fun id => (resultPosition messages id).isSome

/-- New calls with ids of their own are all paired, each with its result. -/
theorem foldl_pairCall {toolCalls : List ToolCall}
    (hids : ∀ toolCall ∈ toolCalls, ∃ id : String, toolCall.id = some id ∧ id ≠ "")
    (hdistinct : toolCalls.Pairwise fun a b => a.id ≠ b.id) (b : Blocks)
    (hnew : ∀ toolCall ∈ toolCalls, ∀ id ∈ toolCall.id, id ∉ b.processedToolCallIds) :
    toolCalls.foldl (pairCall messages) b =
      { blocks := b.blocks ++ (resultsOf messages toolCalls).map .result
        indexes := b.indexes ++ indexesOf messages (resultsOf messages toolCalls)
        processed := (resultsOf messages toolCalls).reverse ++ b.processed
        processedToolCallIds :=
          (answeredIds messages toolCalls).reverse ++ b.processedToolCallIds } := by
  induction toolCalls generalizing b with
  | nil => simp [resultsOf, answeredIds, indexesOf]
  | cons toolCall toolCalls ih =>
      obtain ⟨id, hid, hne⟩ := hids toolCall List.mem_cons_self
      rw [List.pairwise_cons] at hdistinct
      have hfresh := hnew toolCall List.mem_cons_self id hid
      have hskip : ¬ (id = "" ∨ id ∈ b.processedToolCallIds) := not_or.mpr ⟨hne, hfresh⟩
      rw [List.foldl_cons]
      cases hposition : resultPosition messages id with
      | none =>
          have hstep : pairCall messages b toolCall = b := by
            unfold pairCall
            rw [hid]
            dsimp only
            rw [if_neg hskip, hposition]
          rw [hstep, ih (fun c hc => hids c (List.mem_cons_of_mem _ hc)) hdistinct.2 b
            fun c hc => hnew c (List.mem_cons_of_mem _ hc)]
          simp [resultsOf, answeredIds, hid, hposition]
      | some position =>
          have hstep : pairCall messages b toolCall =
              { blocks := b.blocks ++ [.result position]
                indexes := b.indexes ++ (messageIndexAt messages position).toList
                processed := position :: b.processed
                processedToolCallIds := id :: b.processedToolCallIds } := by
            unfold pairCall
            rw [hid]
            dsimp only
            rw [if_neg hskip, hposition]
            rfl
          rw [hstep, ih (fun c hc => hids c (List.mem_cons_of_mem _ hc)) hdistinct.2]
          · have hanswered : (toolCall.id.filter fun id => (resultPosition messages id).isSome) =
                some id := by rw [hid, Option.filter_some, hposition]; rfl
            have hids : answeredIds messages (toolCall :: toolCalls) =
                id :: answeredIds messages toolCalls := List.filterMap_cons_some hanswered
            rw [hids]
            simp [resultsOf, indexesOf, hid, hposition]
          · -- the later calls have other ids
            intro c hc other hother hmem
            rcases List.mem_cons.mp hmem with rfl | hmem
            · exact hdistinct.1 c hc (hid.trans (Option.mem_def.mp hother).symm)
            · exact hnew c (List.mem_cons_of_mem _ hc) other hother hmem

/-- The positions of the turns an assistant message adds. -/
theorem positions_assistant (answered taken : List Nat) (k : Nat) :
    k ∈ positions (.assistant i ::
        if answered = [] then []
        else [.results (answered.map .result ++ taken.map .text)]) ↔
      k = i ∨ (answered ≠ [] ∧ (k ∈ answered ∨ k ∈ taken)) := by
  unfold positions Turn.positions
  by_cases hnone : answered = []
  · simp [hnone, Turn.spoken, Turn.resulted]
  · rw [if_neg hnone]
    simp only [List.flatMap_cons, List.flatMap_nil, List.append_nil, List.mem_append, Turn.spoken,
      Turn.resulted, List.mem_singleton, List.filterMap_append, List.filterMap_map, List.mem_filterMap, Function.comp_apply, Block.spoken, Block.resulted]
    simp [hnone, or_comm]

theorem mem_used_succ (k : Nat) :
    k ∈ used messages (i + 1) ↔
      k ∈ used messages i ∨ k ∈ positions (turnsAt messages (used messages i) i) := by
  unfold used positions
  rw [walk, List.flatMap_append, List.mem_append]
  rfl

/-- No call is added by a message that is no assistant message. -/
theorem Reached.paired_succ (hreached : Reached messages i s) (hcalls : callsAt messages i = [])
    (id : String) :
    id ∈ s.processedToolCallIds ↔ ∃ a < i + 1, ∃ toolCall ∈ callsAt messages a,
      toolCall.id = some id ∧ (resultPosition messages id).isSome = true := by
  rw [hreached.paired]
  constructor
  · rintro ⟨a, ha, h⟩
    exact ⟨a, by omega, h⟩
  · rintro ⟨a, ha, toolCall, hcall, h⟩
    rcases Nat.lt_succ_iff_lt_or_eq.mp ha with hlt | rfl
    · exact ⟨a, hlt, toolCall, hcall, h⟩
    · rw [hcalls] at hcall
      exact absurd hcall (List.not_mem_nil)

/-- A message that adds no turn. -/
theorem Reached.skip (hreached : Reached messages i s) (hcalls : callsAt messages i = [])
    (hturns : turnsAt messages (used messages i) i = []) : Reached messages (i + 1) s where
  out := by
    rw [walk, hreached.out]
    exact (congrArg (walk messages i ++ ·) hturns).symm ▸ (List.append_nil _).symm
  processed k := by
    rw [mem_used_succ, hturns, hreached.processed]
    simp [positions]
  paired := hreached.paired_succ hcalls

/-- A message that is a user turn. -/
theorem Reached.pushUser (hreached : Reached messages i s) (hcalls : callsAt messages i = [])
    (hturns : turnsAt messages (used messages i) i = [.user i]) :
    Reached messages (i + 1) (s.push i (.user i)) where
  out := by
    unfold Conversion.push
    rw [walk, hreached.out]
    exact congrArg (walk messages i ++ ·) hturns.symm
  processed k := by
    unfold Conversion.push
    rw [mem_used_succ, hturns, List.mem_cons, hreached.processed]
    simp [positions, Turn.positions, Turn.spoken, Turn.resulted, or_comm]
  paired := hreached.paired_succ hcalls

theorem callsAt_assistant {message : ChatMessage} (hmessage : messages[i]? = some message)
    (hrole : message.role = "assistant") : callsAt messages i = message.toolCalls := by
  unfold callsAt
  rw [hmessage]
  exact if_pos hrole

theorem callsAt_other {message : ChatMessage} (hmessage : messages[i]? = some message)
    (hrole : message.role ≠ "assistant") : callsAt messages i = [] := by
  unfold callsAt
  rw [hmessage]
  exact if_neg hrole

theorem isTool_of_mem_answers {k : Nat} (h : k ∈ answers messages i) : isTool messages k = true := by
  obtain ⟨toolCall, -, hposition⟩ := List.mem_filterMap.mp h
  obtain ⟨id, -, hposition⟩ := Option.bind_eq_some_iff.mp hposition
  exact (resultPosition_spec hposition).1

/-- The calls of an assistant message are new when it is reached. -/
theorem Reached.calls_new (hreached : Reached messages i s) (hdialogue : ToolDialogue messages)
    (hlt : i < messages.length) :
    ∀ toolCall ∈ callsAt messages i, ∀ id ∈ toolCall.id, id ∉ s.processedToolCallIds := by
  intro toolCall hcall id hid hmem
  obtain ⟨a, ha, other, hother, hsame, -⟩ := (hreached.paired id).mp hmem
  have hpairs := (List.pairwise_flatMap.mp hdialogue.distinct).2
  have hdistinct := List.pairwise_iff_getElem.mp hpairs a i (by simp; omega) (by simpa) ha
  rw [List.getElem_range, List.getElem_range] at hdistinct
  exact hdistinct other hother toolCall hcall (hsame.trans (Option.mem_def.mp hid).symm)

/-- What an assistant message finds: its answers, and the users that share their indexes. -/
theorem Reached.findToolResults (hreached : Reached messages i s)
    (hdialogue : ToolDialogue messages) {message : ChatMessage}
    (hmessage : messages[i]? = some message) (hrole : message.role = "assistant") :
    findToolResultsForAssistant messages message.toolCalls (s.push i (.assistant i)) =
      { blocks := (answers messages i).map .result ++
          (taken messages (used messages i) i).map .text
        indexes := indexesOf messages (answers messages i)
        processed := taken messages (used messages i) i ++
          ((answers messages i).reverse ++ i :: s.processed)
        processedToolCallIds :=
          (answeredIds messages message.toolCalls).reverse ++ s.processedToolCallIds } := by
  have hlt : i < messages.length := (List.getElem?_eq_some_iff.mp hmessage).1
  have hcalls := callsAt_assistant hmessage hrole
  have hnew := hreached.calls_new hdialogue hlt
  have hids := hdialogue.ids i
  have hdistinct := (List.pairwise_flatMap.mp hdialogue.distinct).1 i (List.mem_range.mpr hlt)
  have hanswers : resultsOf messages message.toolCalls = answers messages i := by
    unfold answers
    rw [hcalls]
    rfl
  rw [hcalls] at hnew hids hdistinct
  have hrelated : relatedUsers messages ((answers messages i).reverse ++ i :: s.processed)
      (indexesOf messages (answers messages i)) = taken messages (used messages i) i := by
    refine relatedUsers_congr fun k huser => ?_
    have htool := not_isTool_of_isUser huser
    rw [List.mem_append, List.mem_reverse, List.mem_cons, hreached.processed]
    constructor
    · rintro (hanswer | rfl | hused)
      · rw [isTool_of_mem_answers hanswer] at htool
        exact absurd htool.symm Bool.false_ne_true
      · rw [isUser_of_getElem? hmessage, hrole] at huser
        exact absurd huser (by decide)
      · exact hused
    · exact fun hused => .inr (.inr hused)
  unfold findToolResultsForAssistant
  rw [foldl_pairCall hids hdistinct _ hnew, hanswers]
  unfold Blocks.withRelated Conversion.push
  dsimp only
  rw [List.nil_append, List.nil_append, hrelated]

theorem mem_answeredIds {toolCalls : List ToolCall} {id : String} :
    id ∈ answeredIds messages toolCalls ↔
      ∃ toolCall ∈ toolCalls, toolCall.id = some id ∧
        (resultPosition messages id).isSome = true := by
  unfold answeredIds
  rw [List.mem_filterMap]
  refine exists_congr fun toolCall => and_congr_right fun _ => ?_
  cases toolCall.id with
  | none => simp
  | some other =>
      rw [Option.filter_some, Option.some_inj]
      constructor
      · intro h
        split at h
        · rename_i hsome
          obtain rfl := Option.some.inj h
          exact ⟨rfl, hsome⟩
        · exact absurd h.symm (Option.some_ne_none id)
      · rintro ⟨rfl, hsome⟩
        rw [if_pos hsome]

theorem taken_of_no_answers {used : List Nat} (h : answers messages i = []) :
    taken messages used i = [] := by
  unfold taken
  rw [h]
  exact relatedUsers_nil used

/-- An assistant message adds itself, and the turn of its results if it has any. -/
theorem Reached.pushAssistant (hreached : Reached messages i s)
    (hdialogue : ToolDialogue messages) {message : ChatMessage}
    (hmessage : messages[i]? = some message) (hrole : message.role = "assistant")
    (hnew : i ∉ used messages i) :
    Reached messages (i + 1) ((s.push i (.assistant i)).withBlocks
      (findToolResultsForAssistant messages message.toolCalls (s.push i (.assistant i)))) := by
  have hturns : turnsAt messages (used messages i) i =
      .assistant i ::
        if answers messages i = [] then []
        else [.results ((answers messages i).map .result ++
          (taken messages (used messages i) i).map .text)] := by
    unfold turnsAt
    rw [hmessage]
    dsimp only
    rw [if_neg (by simp [hnew, hrole]), if_neg (by simp [hrole]), if_pos hrole]
  rw [hreached.findToolResults hdialogue hmessage hrole]
  refine ⟨?_, ?_, ?_⟩
  · unfold Conversion.withBlocks Conversion.push
    dsimp only
    rw [walk, hreached.out, show positions (walk messages i) = used messages i from rfl, hturns]
    by_cases hnone : answers messages i = []
    · rw [taken_of_no_answers hnone, hnone]
      simp
    · rw [if_neg hnone, if_neg (by simp [hnone])]
      simp
  · intro k
    unfold Conversion.withBlocks Conversion.push
    dsimp only
    rw [mem_used_succ, hturns, positions_assistant, List.mem_append, List.mem_append,
      List.mem_reverse, List.mem_cons, hreached.processed]
    by_cases hnone : answers messages i = []
    · rw [taken_of_no_answers hnone, hnone]
      simp [or_comm]
    · simp only [hnone, ne_eq, not_false_eq_true, true_and]
      tauto
  · intro id
    unfold Conversion.withBlocks Conversion.push
    dsimp only
    rw [List.mem_append, List.mem_reverse, mem_answeredIds, hreached.paired]
    constructor
    · rintro (⟨toolCall, hcall, h⟩ | ⟨a, ha, h⟩)
      · exact ⟨i, by omega, toolCall, (callsAt_assistant hmessage hrole).symm ▸ hcall, h⟩
      · exact ⟨a, by omega, h⟩
    · rintro ⟨a, ha, toolCall, hcall, h⟩
      rcases Nat.lt_succ_iff_lt_or_eq.mp ha with hlt | rfl
      · exact .inr ⟨a, hlt, toolCall, hcall, h⟩
      · exact .inl ⟨toolCall, callsAt_assistant hmessage hrole ▸ hcall, h⟩

/-- What is used later than its position is a tool message or a user message. -/
theorem used_cases {k : Nat} (h : k ∈ used messages i) :
    k < i ∨ isTool messages k = true ∨ isUser messages k = true := by
  induction i with
  | zero => exact absurd h (List.not_mem_nil)
  | succ i ih =>
      rcases (mem_used_succ k).mp h with h | h
      · rcases ih h with hlt | hrest
        · exact .inl (by omega)
        · exact .inr hrest
      · unfold turnsAt at h
        cases hmessage : messages[i]? with
        | none =>
            rw [hmessage] at h
            exact absurd h (List.not_mem_nil)
        | some message =>
            rw [hmessage] at h
            dsimp only at h
            have hown : k ∈ positions [.user i] → k < i + 1 := by
              intro hk
              simp [positions, Turn.positions, Turn.spoken, Turn.resulted] at hk
              omega
            split at h
            · exact absurd h (List.not_mem_nil)
            split at h
            · split at h
              · exact absurd h (List.not_mem_nil)
              · exact .inl (hown h)
            split at h
            · rcases (positions_assistant _ _ k).mp h with rfl | ⟨-, hanswer | htaken⟩
              · exact .inl (Nat.lt_succ_self k)
              · exact .inr (.inl (isTool_of_mem_answers hanswer))
              · exact .inr (.inr (mem_relatedUsers.mp htaken).2.1)
            · exact .inl (hown h)

/-- An assistant message is not used before it is reached. -/
theorem assistant_not_used {message : ChatMessage} (hmessage : messages[i]? = some message)
    (hrole : message.role = "assistant") : i ∉ used messages i := by
  intro h
  rcases used_cases h with hlt | htool | huser
  · exact absurd hlt (lt_irrefl i)
  · rw [isTool_of_getElem? hmessage, hrole] at htool
    exact absurd htool (by decide)
  · rw [isUser_of_getElem? hmessage, hrole] at huser
    exact absurd huser (by decide)

theorem turnsAt_tool {used : List Nat} (htool : isTool messages i = true) :
    turnsAt messages used i = [] := by
  unfold turnsAt
  cases hmessage : messages[i]? with
  | none => rfl
  | some message =>
      rw [isTool_of_getElem? hmessage, decide_eq_true_iff] at htool
      exact if_pos (.inr htool)

theorem callsAt_tool (htool : isTool messages i = true) : callsAt messages i = [] := by
  refine List.eq_nil_iff_forall_not_mem.mpr fun toolCall hcall => ?_
  rw [not_isTool_of_callsAt hcall] at htool
  exact Bool.false_ne_true htool

/-- Tool messages are passed over one by one as well. -/
theorem Reached.jump (hreached : Reached messages i s) {next : Nat} (hle : i ≤ next)
    (htools : ∀ k : Nat, i ≤ k → k < next → isTool messages k = true) :
    Reached messages next s := by
  induction next, hle using Nat.le_induction with
  | base => exact hreached
  | succ next hle ih =>
      have htool := htools next hle (Nat.lt_succ_self next)
      exact (ih fun k hk hlt => htools k hk (by omega)).skip (callsAt_tool htool)
        (turnsAt_tool htool)

/-- The step lemma: a turn of the loop goes on to a later position, with the turns of
the walk up to there. -/
theorem Reached.visit (hreached : Reached messages i s) (hdialogue : ToolDialogue messages)
    {message : ChatMessage} (hmessage : messages[i]? = some message) :
    i < (visit messages i message s).2 ∧
      Reached messages (visit messages i message s).2 (visit messages i message s).1 := by
  have hturns := turnsAt.eq_def messages (used messages i) i
  rw [hmessage] at hturns
  dsimp only at hturns
  unfold AnthropicMessages.visit
  by_cases hprocessed : i ∈ s.processed
  · -- the message is used already, so it is no assistant message
    have hused := (hreached.processed i).mp hprocessed
    rw [if_pos (.inl hused)] at hturns
    rw [if_pos hprocessed]
    refine ⟨Nat.lt_succ_self i, hreached.skip (callsAt_other hmessage fun hrole => ?_) hturns⟩
    exact assistant_not_used hmessage hrole hused
  have hused : i ∉ used messages i := fun h => hprocessed ((hreached.processed i).mpr h)
  rw [if_neg hprocessed]
  by_cases htool : message.role = "tool"
  · have hisTool : isTool messages i = true := by
      rw [isTool_of_getElem? hmessage, decide_eq_true_iff]
      exact htool
    obtain ⟨next, hgroup, hle, hlt, htools⟩ := hreached.groupConsecutive hdialogue
    rw [if_pos htool, hgroup]
    exact ⟨hlt hisTool, hreached.jump hle htools⟩
  rw [if_neg (not_or.mpr ⟨hused, htool⟩)] at hturns
  rw [if_neg htool]
  by_cases huser : message.role = "user"
  · have hcalls := @callsAt_other messages i message hmessage (by rw [huser]; decide)
    have hskipped : (messageIndexOf message).any
        (fun index => 0 ≤ index ∧ index.toNat ∈ s.processed) = skipped messages (used messages i) i := by
      unfold skipped messageIndexAt
      rw [hmessage, Option.bind_some]
      simp only [hreached.processed]
    rw [if_pos huser] at hturns
    rw [if_pos huser, hskipped]
    by_cases hskip : skipped messages (used messages i) i = true
    · rw [if_pos hskip] at hturns ⊢
      exact ⟨Nat.lt_succ_self i, hreached.skip hcalls hturns⟩
    · rw [if_neg hskip] at hturns ⊢
      exact ⟨Nat.lt_succ_self i, hreached.pushUser hcalls hturns⟩
  rw [if_neg huser] at hturns ⊢
  by_cases hassistant : message.role = "assistant"
  · have hpushed := hreached.pushAssistant hdialogue hmessage hassistant hused
    rw [if_pos hassistant]
    dsimp only
    by_cases hempty : message.toolCalls.isEmpty = true
    · -- no calls, so nothing is found
      rw [List.isEmpty_iff.mp hempty] at hpushed
      rw [if_pos hempty]
      refine ⟨Nat.lt_succ_self i, ?_⟩
      unfold findToolResultsForAssistant at hpushed
      rw [List.foldl_nil, withRelated_of_nil rfl] at hpushed
      exact hpushed
    rw [if_neg hempty]
    split
    · exact ⟨Nat.lt_succ_self i, hpushed⟩
    split
    · -- the tool message that follows answers an earlier call
      obtain ⟨next, hgroup, -, -, -⟩ := hpushed.groupConsecutive hdialogue
      rw [hgroup]
      exact ⟨Nat.lt_succ_self i, hpushed⟩
    · exact ⟨Nat.lt_succ_self i, hpushed⟩
  · rw [if_neg hassistant] at hturns ⊢
    exact ⟨Nat.lt_succ_self i, hreached.pushUser (callsAt_other hmessage hassistant) hturns⟩

theorem walk_of_length_le (h : messages.length ≤ i) : walk messages i = walk messages messages.length := by
  induction i, h using Nat.le_induction with
  | base => rfl
  | succ i hle ih =>
      rw [walk, ih, ← ih]
      unfold turnsAt
      rw [List.getElem?_eq_none hle, List.append_nil]

/-- The run lemma: with fuel for the rest of the messages the loop ends with the walk. -/
theorem Reached.loop (hreached : Reached messages i s) (hdialogue : ToolDialogue messages)
    {fuel : Nat} (hfuel : messages.length ≤ fuel + i) :
    (loop messages fuel i s).out = walk messages messages.length := by
  induction fuel generalizing i s with
  | zero =>
      unfold AnthropicMessages.loop
      rw [hreached.out, walk_of_length_le (by omega)]
  | succ fuel ih =>
      unfold AnthropicMessages.loop
      cases hmessage : messages[i]? with
      | none =>
          dsimp only
          rw [hreached.out, walk_of_length_le (List.getElem?_eq_none_iff.mp hmessage)]
      | some message =>
          obtain ⟨hlt, hnext⟩ := hreached.visit hdialogue hmessage
          have hbound : messages.length ≤
              fuel + (AnthropicMessages.visit messages i message s).2 := by omega
          exact ih hnext hbound

/-- In a dialogue with tools the turns are those of the walk. -/
theorem convertedTurns_eq_walk (hdialogue : ToolDialogue messages) :
    convertedTurns messages = walk messages messages.length := by
  have hstart : Reached messages 0 {} :=
    ⟨rfl, fun k => by simp [used, walk, positions], fun id => by simp⟩
  exact hstart.loop hdialogue (Nat.le_refl _)

end Loop

end Conduit.Transformers.AnthropicMessages
