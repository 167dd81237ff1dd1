import Conduit.Transformers.Logic.ResponsesInput
import Mathlib.Data.List.TakeWhile

/-!
# Reasoning and what follows it

One absorbed item: what is said stays below, and is everything if and only if
the item does not replace a content that says something. From it the run of a
reasoning item, by induction, and from the runs the whole input.
-/

namespace Conduit.Transformers.ResponsesInput

open Base Base.Json

/-! ## One item -/

theorem isMessage_of_mergeable {item : Json} (h : mergeable item = true)
    (hfunction : typeOf item ≠ "function_call") (hcustom : typeOf item ≠ "custom_tool_call") :
    isMessageType (typeOf item) = true ∧ item.strField "role" = some "assistant" := by
  simpa [mergeable, hfunction, hcustom] using h

theorem itemGist_function {item : Json} (h : typeOf item = "function_call") :
    itemGist item = { calls := (functionCall item).toList.map (some "assistant", ·) } := by
  unfold itemGist
  rw [h, if_neg (by decide), if_neg (by decide), if_pos rfl]

theorem itemGist_custom {item : Json} (h : typeOf item = "custom_tool_call") :
    itemGist item = { calls := (customCall item).toList.map (some "assistant", ·) } := by
  unfold itemGist
  rw [h, if_neg (by decide), if_neg (by decide), if_neg (by decide), if_pos rfl]

theorem messageGist_addCall (message : InputMessage) (toolCall : Option ToolCall) :
    messageGist (addCall message toolCall) =
      (messageGist message).append
        { calls := (toolCall.bind callOf).toList.map (message.role, ·) } := by
  ext1
  · exact (List.append_nil _).symm
  · cases toolCall with
    | none => simp [messageGist, addCall, Gist.append]
    | some toolCall =>
        cases hcall : callOf toolCall <;> simp [messageGist, addCall, Gist.append, hcall]
  · exact (List.append_nil _).symm
  · exact (List.append_nil _).symm
  · exact (List.append_nil _).symm

/-- A content over another. -/
theorem overlay_pieces (content : Option MessageContent) (item : Json) :
    List.Sublist (contentPieces ((convertItemContentToMessageContent item).or content))
        (contentPieces content ++ itemPieces item) ∧
      (contentPieces ((convertItemContentToMessageContent item).or content) =
          contentPieces content ++ itemPieces item ↔
        (item.strField "text" = none ∨ itemContent item = []) ∧
          (contentPieces content ≠ [] → ¬(itemPieces item ≠ [] ∨ OtherContent item))) := by
  have hkept : List.Sublist (keptPieces item) (itemPieces item) := keptPieces_sublist item
  cases hconvert : convertItemContentToMessageContent item with
  | none =>
      obtain ⟨hpieces, hother⟩ := content_eq_none_iff.mp hconvert
      rw [Option.none_or, hpieces, List.append_nil]
      refine ⟨List.Sublist.refl _, iff_of_true rfl ⟨Or.inr ?_, ?_⟩⟩
      · exact (List.append_eq_nil_iff.mp hpieces).2
      · intro _ hreplaces
        exact hreplaces.elim (fun hsaid => hsaid rfl) hother
  | some converted =>
      have hreplaces : itemPieces item ≠ [] ∨ OtherContent item := by
        by_contra hnot
        rw [not_or, not_not] at hnot
        exact Option.some_ne_none _ (hconvert.symm.trans (content_eq_none_iff.mpr hnot))
      have hpieces : contentPieces (some converted) = keptPieces item := by
        rw [keptPieces, hconvert]
      rw [Option.some_or, hpieces]
      refine ⟨hkept.trans (List.sublist_append_right _ _), ?_⟩
      -- the earlier content is gone, so it must have been empty
      have hsplit : [] ++ keptPieces item = contentPieces content ++ itemPieces item ↔
          [] = contentPieces content ∧ keptPieces item = itemPieces item :=
        append_eq_append_iff_of_sublist (List.nil_sublist _) hkept
      rw [List.nil_append] at hsplit
      rw [hsplit, keptPieces_eq_iff]
      constructor
      · rintro ⟨hnil, hone⟩
        exact ⟨hone, fun hsaid => absurd hnil.symm hsaid⟩
      · rintro ⟨hone, hspares⟩
        refine ⟨?_, hone⟩
        by_contra hsaid
        exact hspares (fun hnil => hsaid hnil.symm) hreplaces

/-- The message of a reasoning item: the assistant's, and no answer. -/
structure Grouping (message : InputMessage) : Prop where
  role : message.role = some "assistant"
  answered : message.toolCallId = none

theorem grouping_reasoning (item : Json) : Grouping (reasoningMessage item) := ⟨rfl, rfl⟩

theorem Grouping.absorb {message : InputMessage} (h : Grouping message) (item : Json) :
    Grouping (absorb message item) := by
  unfold ResponsesInput.absorb
  split_ifs
  · exact ⟨h.role, h.answered⟩
  · exact ⟨h.role, h.answered⟩
  · exact ⟨h.role, h.answered⟩

theorem gist_overlay {message : InputMessage} {item : Json} (h : Grouping message) :
    messageGist (overlay message item) =
      { messageGist message with
        said := (contentPieces ((convertItemContentToMessageContent item).or message.content)).map
          (⟨some "assistant", none, ·⟩) } := by
  unfold messageGist overlay
  rw [h.role, h.answered]

theorem gist_append_message {message : InputMessage} {item : Json} (h : Grouping message)
    (hmessage : isMessageType (typeOf item) = true)
    (hrole : item.strField "role" = some "assistant") :
    (messageGist message).append (itemGist item) =
      { messageGist message with
        said := (contentPieces message.content ++ itemPieces item).map
          (⟨some "assistant", none, ·⟩) } := by
  rw [itemGist_message hmessage, hrole]
  ext1
  · rw [List.map_append, Gist.append, messageGist, h.role, h.answered]
  · exact List.append_nil _
  · exact List.append_nil _
  · exact List.append_nil _
  · exact List.append_nil _

/-- **One absorbed item.** -/
theorem gist_absorb {message : InputMessage} {item : Json} (h : Grouping message)
    (hmergeable : mergeable item = true) :
    Gist.Within (messageGist (absorb message item)) ((messageGist message).append (itemGist item)) ∧
      (messageGist (absorb message item) = (messageGist message).append (itemGist item) ↔
        OneContent item ∧ (contentPieces message.content ≠ [] → ¬Replaces item)) := by
  by_cases hcall : typeOf item = "function_call" ∨ typeOf item = "custom_tool_call"
  · have heq : messageGist (absorb message item) = (messageGist message).append (itemGist item) := by
      unfold absorb
      by_cases hfunction : typeOf item = "function_call"
      · rw [if_pos hfunction, messageGist_addCall, callOf_function, itemGist_function hfunction, h.role]
      · have hcustom : typeOf item = "custom_tool_call" := hcall.resolve_left hfunction
        rw [if_neg hfunction, if_pos hcustom, messageGist_addCall, callOf_custom,
          itemGist_custom hcustom, h.role]
    have hmessage : isMessageType (typeOf item) ≠ true := by
      rcases hcall with htype | htype <;> rw [htype] <;> decide
    refine ⟨heq ▸ Gist.Within.refl _, iff_of_true heq ⟨fun htrue => absurd htrue hmessage, ?_⟩⟩
    exact fun _ hreplaces => hmessage hreplaces.1
  · rw [not_or] at hcall
    obtain ⟨hmessage, hrole⟩ := isMessage_of_mergeable hmergeable hcall.1 hcall.2
    obtain ⟨hsublist, heq⟩ := overlay_pieces message.content item
    unfold absorb
    rw [if_neg hcall.1, if_neg hcall.2, gist_overlay h, gist_append_message h hmessage hrole]
    constructor
    · exact ⟨hsublist.map _, List.Sublist.refl _, List.Sublist.refl _, List.Sublist.refl _,
        List.Sublist.refl _⟩
    · constructor
      · intro hgist
        obtain ⟨hone, hspares⟩ :=
          heq.mp ((said_injective _ _).list_map (congrArg Gist.said hgist))
        exact ⟨fun _ => hone, fun hsaid hreplaces => hspares hsaid hreplaces.2⟩
      · rintro ⟨hone, hspares⟩
        rw [heq.mpr ⟨hone hmessage, fun hsaid hreplaces => hspares hsaid ⟨hmessage, hreplaces⟩⟩]

/-- What the group says after an item it keeps. -/
theorem said_absorb {message : InputMessage} {item : Json}
    (h : messageGist (absorb message item) = (messageGist message).append (itemGist item)) :
    contentPieces (absorb message item).content ≠ [] ↔
      contentPieces message.content ≠ [] ∨ (itemGist item).said ≠ [] := by
  have hsaid : (messageGist (absorb message item)).said =
      (messageGist message).said ++ (itemGist item).said := congrArg Gist.said h
  have hnil := congrArg (· = []) hsaid
  simp only [messageGist, List.map_eq_nil_iff, List.append_eq_nil_iff, eq_iff_iff] at hnil
  rw [Ne, hnil, not_and_or]

/-! ## The run of a reasoning item -/

/-- **A run.** -/
theorem gist_run (run : List Json) (hrun : ∀ item ∈ run, mergeable item = true)
    (message : InputMessage) (h : Grouping message) :
    Gist.Within (messageGist (run.foldl absorb message))
        ((messageGist message).append (Gist.all itemGist run)) ∧
      (messageGist (run.foldl absorb message) =
          (messageGist message).append (Gist.all itemGist run) ↔
        (∀ item ∈ run, OneContent item) ∧
          (contentPieces message.content ≠ [] → ∀ item ∈ run, ¬Replaces item) ∧
            run.Pairwise Spares) := by
  induction run generalizing message with
  | nil =>
      rw [Gist.all, List.foldr_nil, Gist.append_nil]
      exact ⟨Gist.Within.refl _, iff_of_true rfl (by simp)⟩
  | cons item run ih =>
      obtain ⟨hwithin, heq⟩ :=
        ih (fun other hmem => hrun other (List.mem_cons_of_mem _ hmem)) _ (h.absorb item)
      obtain ⟨hstep, hstepEq⟩ := gist_absorb h (hrun item List.mem_cons_self)
      have hrest : Gist.Within (Gist.all itemGist run) (Gist.all itemGist run) := Gist.Within.refl _
      rw [List.foldl_cons, Gist.all_cons, ← Gist.append_assoc]
      refine ⟨hwithin.trans (hstep.append hrest), ?_⟩
      rw [hwithin.eq_iff (hstep.append hrest), Gist.append_eq_iff hstep hrest, heq]
      simp only [List.forall_mem_cons, List.pairwise_cons]
      constructor
      · rintro ⟨⟨hones, hspares, hpairwise⟩, hkept, -⟩
        obtain ⟨hone, hspare⟩ := hstepEq.mp hkept
        have hsaid := said_absorb hkept
        exact ⟨⟨hone, hones⟩, fun hmessage => ⟨hspare hmessage, hspares (hsaid.mpr (.inl hmessage))⟩,
          fun other hmem hitem => hspares (hsaid.mpr (.inr hitem)) other hmem, hpairwise⟩
      · rintro ⟨⟨hone, hones⟩, hmessage, hitem, hpairwise⟩
        have hkept := hstepEq.mpr ⟨hone, fun hpieces => (hmessage hpieces).1⟩
        refine ⟨⟨hones, fun hpieces other hmem => ?_, hpairwise⟩, hkept, trivial⟩
        rcases (said_absorb hkept).mp hpieces with hbefore | hnow
        · exact (hmessage hbefore).2 other hmem
        · exact hitem other hmem hnow

/-- A reasoning item with its run. -/
theorem gist_group {item : Json} (hreasoning : typeOf item = "reasoning") (run : List Json)
    (hrun : ∀ item ∈ run, mergeable item = true) :
    Gist.Within (messageGist (run.foldl absorb (reasoningMessage item)))
        (Gist.all itemGist (item :: run)) ∧
      (messageGist (run.foldl absorb (reasoningMessage item)) = Gist.all itemGist (item :: run) ↔
        (∀ other ∈ item :: run, OneContent other) ∧ run.Pairwise Spares) := by
  obtain ⟨hwithin, heq⟩ := gist_run run hrun _ (grouping_reasoning item)
  have hone : OneContent item := fun hmessage => by
    rw [hreasoning] at hmessage
    exact absurd hmessage (by decide)
  rw [gist_reasoning hreasoning] at hwithin heq
  rw [Gist.all_cons]
  refine ⟨hwithin, heq.trans ?_⟩
  rw [List.forall_mem_cons]
  constructor
  · rintro ⟨hones, -, hpairwise⟩
    exact ⟨⟨hone, hones⟩, hpairwise⟩
  · rintro ⟨⟨-, hones⟩, hpairwise⟩
    exact ⟨hones, fun hsaid => absurd rfl hsaid, hpairwise⟩

/-! ## The whole input -/

theorem ne_reasoning_of_mergeable {item : Json} (h : mergeable item = true) :
    typeOf item ≠ "reasoning" := by
  intro hreasoning
  simp [mergeable, isMessageType, hreasoning] at h

/-- A run has no reasoning item. -/
theorem groupsSpare_append {run items : List Json} (h : ∀ item ∈ run, mergeable item = true) :
    GroupsSpare (run ++ items) ↔ GroupsSpare items := by
  induction run with
  | nil => exact Iff.rfl
  | cons item run ih =>
      have hitem : typeOf item ≠ "reasoning" := ne_reasoning_of_mergeable (h item List.mem_cons_self)
      rw [List.cons_append, GroupsSpare,
        ih fun other hmem => h other (List.mem_cons_of_mem _ hmem)]
      exact ⟨And.right, fun hgroups => ⟨fun hreasoning => absurd hreasoning hitem, hgroups⟩⟩

theorem losesNothing_cons {item : Json} {items : List Json} (h : typeOf item ≠ "reasoning") :
    LosesNothing (item :: items) ↔ OneContent item ∧ LosesNothing items := by
  unfold LosesNothing
  rw [List.forall_mem_cons, GroupsSpare]
  constructor
  · rintro ⟨⟨hone, hones⟩, -, hgroups⟩
    exact ⟨hone, hones, hgroups⟩
  · rintro ⟨hone, hones, hgroups⟩
    exact ⟨⟨hone, hones⟩, fun hreasoning => absurd hreasoning h, hgroups⟩

theorem losesNothing_group {item : Json} {items : List Json} (h : typeOf item = "reasoning") :
    LosesNothing (item :: items) ↔
      ((∀ other ∈ item :: items.takeWhile mergeable, OneContent other) ∧
        (items.takeWhile mergeable).Pairwise Spares) ∧
          LosesNothing (items.dropWhile mergeable) := by
  have hrun : ∀ other ∈ items.takeWhile mergeable, mergeable other = true :=
    fun _ hmem => List.mem_takeWhile_imp hmem
  have hsplit : items = items.takeWhile mergeable ++ items.dropWhile mergeable :=
    List.takeWhile_append_dropWhile.symm
  have hones : (∀ other ∈ items, OneContent other) ↔
      (∀ other ∈ items.takeWhile mergeable, OneContent other) ∧
        ∀ other ∈ items.dropWhile mergeable, OneContent other := by
    rw [← List.forall_mem_append, ← hsplit]
  have hgroups : GroupsSpare (items.takeWhile mergeable ++ items.dropWhile mergeable) ↔
      GroupsSpare (items.dropWhile mergeable) := groupsSpare_append hrun
  rw [← hsplit] at hgroups
  unfold LosesNothing
  rw [GroupsSpare, List.forall_mem_cons, List.forall_mem_cons, hones, hgroups]
  constructor
  · rintro ⟨⟨hone, hrunOne, hrestOne⟩, hpairwise, hrest⟩
    exact ⟨⟨⟨hone, hrunOne⟩, hpairwise h⟩, hrestOne, hrest⟩
  · rintro ⟨⟨⟨hone, hrunOne⟩, hpairwise⟩, hrestOne, hrest⟩
    exact ⟨⟨hone, hrunOne, hrestOne⟩, fun _ => hpairwise, hrest⟩

theorem drop_reasoning (item : Json) (items : List Json) :
    (item :: items).drop (convertReasoningWithFollowing item items).2 = items.dropWhile mergeable := by
  rw [convertReasoningWithFollowing, mergeFollowing_eq]
  dsimp only
  have hdrop : (items.takeWhile mergeable ++ items.dropWhile mergeable).drop
      (items.takeWhile mergeable).length = items.dropWhile mergeable := List.drop_left
  rw [List.takeWhile_append_dropWhile] at hdrop
  rw [Nat.add_comm, List.drop_succ_cons, hdrop]

/-- An accepted array that starts with a reasoning item. -/
theorem convert_reasoning_ok {item : Json} {items : List Json} {messages : List InputMessage}
    (hreasoning : typeOf item = "reasoning")
    (h : convertResponsesInputItems (item :: items) = .ok messages) :
    ∃ rest, convertResponsesInputItems (items.dropWhile mergeable) = .ok rest ∧
      messages = (convertReasoningWithFollowing item items).1 :: rest := by
  rw [convertResponsesInputItems, if_pos hreasoning, drop_reasoning] at h
  cases hrest : convertResponsesInputItems (items.dropWhile mergeable) with
  | error e =>
      rw [hrest] at h
      exact absurd h (by simp [Except.map])
  | ok rest =>
      rw [hrest] at h
      exact ⟨rest, rfl, (Except.ok.inj h).symm⟩

/-- An accepted array that starts with another item. -/
theorem convert_item_ok {item : Json} {items : List Json} {messages : List InputMessage}
    (hreasoning : ¬typeOf item = "reasoning")
    (h : convertResponsesInputItems (item :: items) = .ok messages) :
    ∃ message rest, convertItemToMessage item = .ok message ∧
      convertResponsesInputItems items = .ok rest ∧ messages = message.toList ++ rest := by
  rw [convertResponsesInputItems, if_neg hreasoning] at h
  cases hitem : convertItemToMessage item with
  | error e =>
      rw [hitem] at h
      exact absurd h (by simp)
  | ok message =>
      rw [hitem] at h
      dsimp only at h
      cases hrest : convertResponsesInputItems items with
      | error e =>
          rw [hrest] at h
          exact absurd h (by simp [Except.map])
      | ok rest =>
          rw [hrest] at h
          exact ⟨message, rest, rfl, rfl, (Except.ok.inj h).symm⟩

/-- **Nothing is invented or reordered, and nothing is lost exactly if no content
is replaced.** -/
theorem gist_convert (items : List Json) (messages : List InputMessage)
    (h : convertResponsesInputItems items = .ok messages) :
    Gist.Within (Gist.all messageGist messages) (Gist.all itemGist items) ∧
      (Gist.all messageGist messages = Gist.all itemGist items ↔ LosesNothing items) := by
  induction items using convertResponsesInputItems.induct generalizing messages with
  | case1 =>
      rw [convertResponsesInputItems] at h
      rw [← Except.ok.inj h]
      exact ⟨Gist.Within.refl _, iff_of_true rfl ⟨by simp, trivial⟩⟩
  | case2 item items hreasoning ih =>
      obtain ⟨rest, hrest, rfl⟩ := convert_reasoning_ok hreasoning h
      rw [drop_reasoning] at ih
      obtain ⟨hwithin, heq⟩ := ih rest hrest
      obtain ⟨hgroup, hgroupEq⟩ := gist_group hreasoning (items.takeWhile mergeable)
        fun _ hmem => List.mem_takeWhile_imp hmem
      have hitems : Gist.all itemGist (item :: items) =
          (Gist.all itemGist (item :: items.takeWhile mergeable)).append
            (Gist.all itemGist (items.dropWhile mergeable)) := by
        rw [← Gist.all_append, List.cons_append, List.takeWhile_append_dropWhile]
      rw [hitems, Gist.all_cons, convertReasoningWithFollowing, mergeFollowing_eq]
      refine ⟨hgroup.append hwithin, ?_⟩
      rw [Gist.append_eq_iff hgroup hwithin, hgroupEq, heq, losesNothing_group hreasoning]
  | case3 item items hreasoning e hitem =>
      obtain ⟨message, -, hmessage, -⟩ := convert_item_ok hreasoning h
      exact absurd (hitem.symm.trans hmessage) (by simp)
  | case4 item items hreasoning message hitem ih =>
      obtain ⟨_, rest, hmessage, hrest, rfl⟩ := convert_item_ok hreasoning h
      obtain rfl := Except.ok.inj (hitem.symm.trans hmessage)
      obtain ⟨hwithin, heq⟩ := ih rest hrest
      obtain ⟨hone, honeEq⟩ := gist_convertItem hitem hreasoning
      rw [Gist.all_append, Gist.all_toList, Gist.all_cons]
      refine ⟨hone.append hwithin, ?_⟩
      rw [Gist.append_eq_iff hone hwithin, honeEq, heq, losesNothing_cons hreasoning]

/-- Where nothing is lost, each group is in its message. -/
theorem saysInOrder_convert (items : List Json) (messages : List InputMessage)
    (h : convertResponsesInputItems items = .ok messages) (hloses : LosesNothing items) :
    SaysInOrder messages items := by
  induction items using convertResponsesInputItems.induct generalizing messages with
  | case1 =>
      rw [convertResponsesInputItems] at h
      rw [← Except.ok.inj h]
      exact ⟨[], [], rfl, rfl, .nil⟩
  | case2 item items hreasoning ih =>
      obtain ⟨rest, hrest, rfl⟩ := convert_reasoning_ok hreasoning h
      rw [drop_reasoning] at ih
      obtain ⟨hrun, hlater⟩ := (losesNothing_group hreasoning).mp hloses
      have hgroup := (gist_group hreasoning (items.takeWhile mergeable)
        fun _ hmem => List.mem_takeWhile_imp hmem).2.mpr hrun
      -- the group of the message is the reasoning item with the run it merges
      have hitems : item :: items =
          (item :: items.takeWhile mergeable) ++ items.dropWhile mergeable := by
        rw [List.cons_append, List.takeWhile_append_dropWhile]
      rw [hitems, convertReasoningWithFollowing, mergeFollowing_eq]
      exact .group hgroup (ih rest hrest hlater)
  | case3 item items hreasoning e hitem =>
      obtain ⟨message, -, hmessage, -⟩ := convert_item_ok hreasoning h
      exact absurd (hitem.symm.trans hmessage) (by simp)
  | case4 item items hreasoning message hitem ih =>
      obtain ⟨_, rest, hmessage, hrest, rfl⟩ := convert_item_ok hreasoning h
      obtain rfl := Except.ok.inj (hitem.symm.trans hmessage)
      obtain ⟨hone, hlater⟩ := (losesNothing_cons hreasoning).mp hloses
      have hgist := (gist_convertItem hitem hreasoning).2.mpr hone
      have hothers := ih rest hrest hlater
      cases message with
      | none => exact hothers.silent hgist.symm
      | some message =>
          have hgroup : messageGist message = Gist.all itemGist [item] := by
            rw [Gist.all_cons]
            exact hgist.trans (Gist.append_nil _).symm
          exact hothers.group hgroup

/-! ## What is accepted -/

/-- An answer to a call has an output. -/
def HasOutput (item : Json) : Prop :=
  isOutputType (typeOf item) = true → (item.get "output").isSome = true

theorem convertItem_ok {item : Json} (h : HasOutput item) :
    ∃ message, convertItemToMessage item = .ok message := by
  unfold convertItemToMessage
  dsimp only
  split_ifs with _ _ _ _ houtput
  · exact ⟨_, rfl⟩
  · exact ⟨_, rfl⟩
  · exact ⟨_, rfl⟩
  · exact ⟨_, rfl⟩
  · obtain ⟨output, hsome⟩ := Option.isSome_iff_exists.mp (h houtput)
    unfold convertToolCallOutputMessage
    rw [hsome]
    exact ⟨_, rfl⟩
  · exact ⟨_, rfl⟩
  · exact ⟨_, rfl⟩

/-- Only a missing output is refused. -/
theorem convertItems_ok (items : List Json) (h : ∀ item ∈ items, HasOutput item) :
    ∃ messages, convertResponsesInputItems items = .ok messages := by
  induction items using convertResponsesInputItems.induct with
  | case1 => exact ⟨[], by rw [convertResponsesInputItems]⟩
  | case2 item items hreasoning ih =>
      obtain ⟨rest, hrest⟩ := ih fun other hmem => h other (List.mem_of_mem_drop hmem)
      exact ⟨_, by rw [convertResponsesInputItems, if_pos hreasoning, hrest]; rfl⟩
  | case3 item items hreasoning e hitem =>
      obtain ⟨message, hmessage⟩ := convertItem_ok (h item List.mem_cons_self)
      exact absurd (hitem.symm.trans hmessage) (by simp)
  | case4 item items hreasoning message hitem ih =>
      obtain ⟨rest, hrest⟩ := ih fun other hmem => h other (List.mem_cons_of_mem _ hmem)
      exact ⟨_, by rw [convertResponsesInputItems, if_neg hreasoning, hitem, hrest]; rfl⟩

/-! ## The input as a whole -/

/-- **The input keeps its items, in their order, if and only if no content is
replaced.** -/
theorem input_loses_nothing_iff (items : List Json) (messages : List InputMessage)
    (h : convertResponsesInputToMessages (.array items) = .ok messages) :
    SaysInOrder messages items ↔ LosesNothing items :=
  ⟨fun hsays => (gist_convert items messages h).2.mp hsays.all_eq, saysInOrder_convert items messages h⟩

def sampleMessage (role text : String) : Json :=
  .object [("type", .string "message"), ("role", .string role),
    ("content", .array [.object [("type", .string "output_text"), ("text", .string text)]])]

def sampleReasoning (text : String) : Json :=
  .object [("type", .string "reasoning"),
    ("summary", .array [.object [("type", .string "summary_text"), ("text", .string text)]]),
    ("encrypted_content", .string "e")]

def sampleCall : Json :=
  .object [("type", .string "function_call"), ("call_id", .string "c"), ("name", .string "f"),
    ("arguments", .string "")]

def sampleOutput : Json :=
  .object [("type", .string "function_call_output"), ("call_id", .string "c"),
    ("output", .string "o")]

/-- A question, a thought with a text and a call, the answer, and a thought with a text. -/
def keptInput : List Json :=
  [sampleMessage "user" "q", sampleReasoning "r", sampleMessage "assistant" "a", sampleCall,
    sampleOutput, sampleReasoning "s", sampleMessage "assistant" "b"]

theorem keptInput_losesNothing : LosesNothing keptInput := by
  refine ⟨?_, ?_⟩
  · simp [keptInput, OneContent, sampleMessage, sampleReasoning, sampleCall, sampleOutput,
      Json.strField, isMessageType, typeOf]
  · simp [keptInput, GroupsSpare, sampleMessage, sampleReasoning, sampleCall, sampleOutput,
      Json.strField, isMessageType, typeOf, mergeable, Spares, Replaces]

theorem input_loses_nothing_sample :
    ∃ messages, convertResponsesInputToMessages (.array keptInput) = .ok messages ∧
      SaysInOrder messages keptInput := by
  obtain ⟨messages, h⟩ := convertItems_ok keptInput (by
    simp [keptInput, HasOutput, sampleMessage, sampleReasoning, sampleCall, sampleOutput,
      Json.strField, isOutputType, typeOf])
  exact ⟨messages, h, (input_loses_nothing_iff keptInput messages h).mpr keptInput_losesNothing⟩

/-- Two assistant messages after a reasoning item. -/
def lostInput : List Json :=
  [sampleReasoning "r", sampleMessage "assistant" "a", sampleMessage "assistant" "b"]

theorem lostInput_losesSomething : ¬LosesNothing lostInput := by
  intro h
  have hspares := h.2.1 (by simp [sampleReasoning, typeOf, Json.strField])
  simp [mergeable, sampleMessage, typeOf, Json.strField, isMessageType, Spares, Replaces, itemGist,
    itemPieces, itemContent, rawPieces, rawPiece] at hspares

/-- The text of the first is gone. -/
theorem first_answer_lost :
    ∃ messages, convertResponsesInputToMessages (.array lostInput) = .ok messages ∧
      ¬SaysInOrder messages lostInput := by
  obtain ⟨messages, h⟩ := convertItems_ok lostInput (by
    simp [lostInput, HasOutput, sampleMessage, sampleReasoning, Json.strField, isOutputType, typeOf])
  exact ⟨messages, h, fun hsays => lostInput_losesSomething ((gist_convert _ _ h).2.mp hsays.all_eq)⟩

end Conduit.Transformers.ResponsesInput
