import Conduit.Transformers.ResponsesInput

/-!
# What the input says

`Gist` is what a message or an item says, kind by kind and in order: texts,
images and compacted parts, calls, answers to calls, summaries and encrypted
reasoning, each with the role it is said in. A message has a field for each
kind, so it is compared with the group of items it was made of. The messages say
nothing the items do not, and say less if an assistant message overwrites what
an earlier one put into the message of a reasoning item, or if an item has a
text next to its content.
-/

namespace Conduit.Transformers.ResponsesInput

open Base Base.Json

/-! ## Gists -/

inductive Piece
  | text (value : String)
  | image (url : String) (detail : Option String)
  | compact (kind : String) (id encryptedContent createdBy : Option String)

/-- A piece, the role it is said in, and the call it answers. -/
structure Said where
  role : Option String
  answered : Option String
  piece : Piece

inductive Call
  | function (id name arguments : String) (scope : Option String)
  | custom (id name input : String)

@[ext]
structure Gist where
  said : List Said := []
  calls : List (Option String × Call) := []
  answers : List (String × Option String) := []
  summaries : List (Option String × String) := []
  encrypted : List (Option String × String) := []

def Gist.append (g g' : Gist) : Gist :=
  ⟨g.said ++ g'.said, g.calls ++ g'.calls, g.answers ++ g'.answers, g.summaries ++ g'.summaries,
    g.encrypted ++ g'.encrypted⟩

/-- The gists of a list, one after the other. -/
def Gist.all {α : Type} (gistOf : α → Gist) (list : List α) : Gist :=
  list.foldr (fun a g => (gistOf a).append g) {}

/-- Nothing more is said, and in the same order. -/
structure Gist.Within (g g' : Gist) : Prop where
  said : List.Sublist g.said g'.said
  calls : List.Sublist g.calls g'.calls
  answers : List.Sublist g.answers g'.answers
  summaries : List.Sublist g.summaries g'.summaries
  encrypted : List.Sublist g.encrypted g'.encrypted

/-! ## Messages -/

def isTextType (partType : String) : Bool := partType = "text" ∨ partType = "input_text"

def partPiece (part : ContentPart) : Option Piece :=
  if isTextType part.partType then part.text.map .text
  else if part.partType = "image_url" then
    part.imageUrl.bind fun image => (image.strField "url").map fun url => .image url (image.strField "detail")
  else if isCompactionType part.partType then
    (field part.extra "compact").map fun compact =>
      .compact part.partType (compact.strField "id") (compact.strField "encrypted_content")
        (compact.strField "created_by")
  else none

def contentPieces : Option MessageContent → List Piece
  | some (.text value) => [.text value]
  | some (.parts parts) => parts.filterMap partPiece
  | some (.json _) => []
  | none => []

def callOf (toolCall : ToolCall) : Option Call :=
  if toolCall.callType = "responses_custom_tool" then
    (field toolCall.extra "response_custom_tool_call").bind fun custom =>
      (custom.strField "call_id").map fun id =>
        .custom id ((custom.strField "name").getD "") ((custom.strField "input").getD "")
  else
    toolCall.id.map fun id =>
      .function id toolCall.functionName toolCall.functionArguments
        (toolCall.function.strField "namespace")

def messageGist (message : InputMessage) : Gist where
  said := (contentPieces message.content).map (⟨message.role, message.toolCallId, ·⟩)
  calls := (message.toolCalls.filterMap callOf).map (message.role, ·)
  answers := message.toolCallId.toList.map (·, message.toolCallName)
  summaries := message.reasoningContent.toList.map (message.role, ·)
  encrypted := message.reasoningSignature.toList.map (message.role, ·)

/-! ## Items -/

/-- An image is its URL: there is none without. -/
def rawImage (item : Json) : Option Piece :=
  (item.strField "image_url").map fun url => .image url (nonEmptyStr item "detail")

def rawCompact (item : Json) : Piece :=
  .compact (typeOf item) (item.strField "id") (item.strField "encrypted_content")
    (item.strField "created_by")

/-- A part of an item's content. -/
def rawPiece (part : Json) : Option Piece :=
  if typeOf part = "input_text" ∨ typeOf part = "text" ∨ typeOf part = "output_text" then
    (part.strField "text").map .text
  else if typeOf part = "input_image" then rawImage part
  else if isCompactionType (typeOf part) then some (rawCompact part)
  else none

def rawPieces : Json → List Piece
  | .string value => [.text value]
  | .array parts => parts.filterMap rawPiece
  | _ => []

/-- What the `content` of an item says. -/
def itemContent (item : Json) : List Piece := (item.get "content").elim [] rawPieces

/-- The text of an item and its content. -/
def itemPieces (item : Json) : List Piece :=
  (item.strField "text").toList.map .text ++ itemContent item

def functionCall (item : Json) : Option Call :=
  (item.strField "call_id").map fun id =>
    .function id ((item.strField "name").getD "") ((item.strField "arguments").getD "")
      (nonEmptyStr item "namespace")

def customCall (item : Json) : Option Call :=
  (item.strField "call_id").map fun id =>
    .custom id ((item.strField "name").getD "") ((item.strField "input").getD "")

def itemGist (item : Json) : Gist :=
  if isMessageType (typeOf item) then
    { said := (itemPieces item).map (⟨item.strField "role", none, ·⟩) }
  else if typeOf item = "input_image" then
    { said := (rawImage item).toList.map (⟨some ((nonEmptyStr item "role").getD "user"), none, ·⟩) }
  else if typeOf item = "function_call" then
    { calls := (functionCall item).toList.map (some "assistant", ·) }
  else if typeOf item = "custom_tool_call" then
    { calls := (customCall item).toList.map (some "assistant", ·) }
  else if isOutputType (typeOf item) then
    { said := ((item.get "output").elim [] rawPieces).map (⟨some "tool", item.strField "call_id", ·⟩)
      answers := (item.strField "call_id").toList.map (·, nonEmptyStr item "name") }
  else if isCompactionType (typeOf item) then { said := [⟨some "assistant", none, rawCompact item⟩] }
  else if typeOf item = "reasoning" then
    { summaries := if summaryText item = "" then [] else [(some "assistant", summaryText item)]
      encrypted := (item.strField "encrypted_content").toList.map (some "assistant", ·) }
  else {}

/-- The items fall into consecutive groups, one for each message, whose message
says what they say. Items after the last group say nothing. -/
def SaysInOrder (messages : List InputMessage) (items : List Json) : Prop :=
  ∃ (groups : List (List Json)) (rest : List Json),
    groups.flatten ++ rest = items ∧ Gist.all itemGist rest = {} ∧
      List.Forall₂ (fun message group => messageGist message = Gist.all itemGist group) messages groups

/-! ## What keeps it -/

/-- A text or a content, not both. -/
def OneContent (item : Json) : Prop :=
  isMessageType (typeOf item) = true → item.strField "text" = none ∨ itemContent item = []

/-- What the message of a reasoning item takes in. -/
def mergeable (item : Json) : Bool :=
  typeOf item = "function_call" ∨ typeOf item = "custom_tool_call" ∨
    (isMessageType (typeOf item) = true ∧ item.strField "role" = some "assistant")

/-- A content that is neither a string nor a list is kept as it is. -/
def OtherContent (item : Json) : Prop :=
  ∃ content, item.get "content" = some content ∧ content.asStr = none ∧ content.asArray = none

/-- A message with a content, so one that replaces the content before it. -/
def Replaces (item : Json) : Prop :=
  isMessageType (typeOf item) = true ∧ (itemPieces item ≠ [] ∨ OtherContent item)

/-- A later item leaves what an earlier one says. -/
def Spares (earlier later : Json) : Prop := (itemGist earlier).said ≠ [] → ¬Replaces later

/-- After a reasoning item, at most one assistant message says something, and
none after it has a content. -/
def GroupsSpare : List Json → Prop
  | [] => True
  | item :: items =>
      (typeOf item = "reasoning" → (items.takeWhile mergeable).Pairwise Spares) ∧ GroupsSpare items

/-- No item is lost. -/
def LosesNothing (items : List Json) : Prop := (∀ item ∈ items, OneContent item) ∧ GroupsSpare items

/-! ## Order -/

namespace Gist

theorem append_assoc (g g' g'' : Gist) : (g.append g').append g'' = g.append (g'.append g'') := by
  ext1 <;> exact List.append_assoc _ _ _

theorem nil_append (g : Gist) : append {} g = g := rfl

theorem append_nil (g : Gist) : g.append {} = g := by
  ext1 <;> exact List.append_nil _

theorem all_cons {α : Type} (gistOf : α → Gist) (a : α) (list : List α) :
    all gistOf (a :: list) = (gistOf a).append (all gistOf list) := rfl

theorem all_append {α : Type} (gistOf : α → Gist) (list list' : List α) :
    all gistOf (list ++ list') = (all gistOf list).append (all gistOf list') := by
  induction list with
  | nil => rfl
  | cons a list ih => rw [List.cons_append, all_cons, ih, all_cons, append_assoc]

theorem all_flatten {α : Type} (gistOf : α → Gist) (groups : List (List α)) :
    all gistOf groups.flatten = all (all gistOf) groups := by
  induction groups with
  | nil => rfl
  | cons group groups ih => rw [List.flatten_cons, all_append, ih, all_cons]

theorem all_congr {α β : Type} {gistOf : α → Gist} {gistOf' : β → Gist} {list : List α}
    {list' : List β} (h : List.Forall₂ (fun a b => gistOf a = gistOf' b) list list') :
    all gistOf list = all gistOf' list' := by
  induction h with
  | nil => rfl
  | cons hab _ ih => rw [all_cons, all_cons, hab, ih]

/-- A single element or none. -/
theorem all_toList {α : Type} (gistOf : α → Gist) (a : Option α) :
    all gistOf a.toList = a.elim {} gistOf := by
  cases a with
  | none => rfl
  | some a => exact append_nil (gistOf a)

namespace Within

theorem refl (g : Gist) : Within g g :=
  ⟨List.Sublist.refl _, List.Sublist.refl _, List.Sublist.refl _, List.Sublist.refl _,
    List.Sublist.refl _⟩

theorem trans {g g' g'' : Gist} (h : Within g g') (h' : Within g' g'') : Within g g'' :=
  ⟨h.said.trans h'.said, h.calls.trans h'.calls, h.answers.trans h'.answers,
    h.summaries.trans h'.summaries, h.encrypted.trans h'.encrypted⟩

theorem antisymm {g g' : Gist} (h : Within g g') (h' : Within g' g) : g = g' := by
  ext1
  · exact h.said.antisymm h'.said
  · exact h.calls.antisymm h'.calls
  · exact h.answers.antisymm h'.answers
  · exact h.summaries.antisymm h'.summaries
  · exact h.encrypted.antisymm h'.encrypted

theorem append {g g' k k' : Gist} (h : Within g g') (h' : Within k k') :
    Within (g.append k) (g'.append k') :=
  ⟨h.said.append h'.said, h.calls.append h'.calls, h.answers.append h'.answers,
    h.summaries.append h'.summaries, h.encrypted.append h'.encrypted⟩

/-- In between there is no room. -/
theorem eq_iff {g g' g'' : Gist} (h : Within g g') (h' : Within g' g'') :
    g = g'' ↔ g = g' ∧ g' = g'' := by
  constructor
  · intro heq
    subst heq
    exact ⟨h.antisymm h', h'.antisymm h⟩
  · rintro ⟨rfl, rfl⟩
    rfl

end Within

end Gist

/-- Lists below others are these if one after the other they are. -/
theorem append_eq_append_iff_of_sublist {α : Type} {l l' m m' : List α} (h : l.Sublist l')
    (h' : m.Sublist m') : l ++ m = l' ++ m' ↔ l = l' ∧ m = m' := by
  constructor
  · intro heq
    have hlength : l.length + m.length = l'.length + m'.length := by
      rw [← List.length_append, heq, List.length_append]
    have hl : l.length ≤ l'.length := h.length_le
    have hm : m.length ≤ m'.length := h'.length_le
    exact ⟨h.eq_of_length (by omega), h'.eq_of_length (by omega)⟩
  · rintro ⟨rfl, rfl⟩
    rfl

/-! ## In groups -/

theorem SaysInOrder.all_eq {messages : List InputMessage} {items : List Json}
    (h : SaysInOrder messages items) : Gist.all messageGist messages = Gist.all itemGist items := by
  obtain ⟨groups, rest, rfl, hrest, hgroups⟩ := h
  rw [Gist.all_append, hrest, Gist.append_nil, Gist.all_flatten, Gist.all_congr hgroups]

theorem SaysInOrder.group {message : InputMessage} {messages : List InputMessage}
    {group items : List Json} (hgroup : messageGist message = Gist.all itemGist group)
    (h : SaysInOrder messages items) : SaysInOrder (message :: messages) (group ++ items) := by
  obtain ⟨groups, rest, rfl, hrest, hgroups⟩ := h
  exact ⟨group :: groups, rest, by simp, hrest, .cons hgroup hgroups⟩

/-- An item without a message goes with the next group. -/
theorem SaysInOrder.silent {messages : List InputMessage} {item : Json} {items : List Json}
    (hitem : itemGist item = {}) (h : SaysInOrder messages items) :
    SaysInOrder messages (item :: items) := by
  obtain ⟨groups, rest, rfl, hrest, hgroups⟩ := h
  cases hgroups with
  | nil =>
      refine ⟨[], item :: rest, rfl, ?_, .nil⟩
      rw [Gist.all_cons, hitem, hrest]
      rfl
  | @cons message group messages groups hgroup hgroups =>
      refine ⟨(item :: group) :: groups, rest, rfl, hrest, .cons ?_ hgroups⟩
      rw [hgroup, Gist.all_cons, hitem, Gist.nil_append]

theorem Gist.append_eq_iff {g g' k k' : Gist} (h : Gist.Within g g') (h' : Gist.Within k k') :
    g.append k = g'.append k' ↔ g = g' ∧ k = k' := by
  constructor
  · intro heq
    obtain ⟨hsaid, hsaid'⟩ := (append_eq_append_iff_of_sublist h.said h'.said).mp (congrArg said heq)
    obtain ⟨hcalls, hcalls'⟩ :=
      (append_eq_append_iff_of_sublist h.calls h'.calls).mp (congrArg calls heq)
    obtain ⟨hanswers, hanswers'⟩ :=
      (append_eq_append_iff_of_sublist h.answers h'.answers).mp (congrArg answers heq)
    obtain ⟨hsummaries, hsummaries'⟩ :=
      (append_eq_append_iff_of_sublist h.summaries h'.summaries).mp (congrArg summaries heq)
    obtain ⟨hencrypted, hencrypted'⟩ :=
      (append_eq_append_iff_of_sublist h.encrypted h'.encrypted).mp (congrArg encrypted heq)
    exact ⟨Gist.ext hsaid hcalls hanswers hsummaries hencrypted,
      Gist.ext hsaid' hcalls' hanswers' hsummaries' hencrypted'⟩
  · rintro ⟨rfl, rfl⟩
    rfl

end Conduit.Transformers.ResponsesInput
