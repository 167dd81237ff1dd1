import Conduit.Base.CommonPrefix

/-!
# Spans of a trace

A later request of a trace carries the messages before it, so the spans it
shares with its parent are taken off. `count_common_span_prefix` stops at the
first span that differs; `deduplicate_spans_with_parent` goes on and also takes
off a span that agrees with the parent's behind it.
-/

namespace Conduit.Trace

open Base.CommonPrefix

/-! ## Spans -/

structure SpanUserInputAudio where
  format : String
  data : String
deriving DecidableEq

structure SpanAudio where
  id : String
  format : String
  data : String
  transcript : String
deriving DecidableEq

structure SpanToolUse where
  id : String
  type : String
  name : String
  arguments : Option String
deriving DecidableEq

structure SpanToolResult where
  toolCallId : String
  isError : Bool
  text : Option String
deriving DecidableEq

/-- A value with one field is that field. -/
structure SpanValue where
  systemInstruction : Option String := none
  userQuery : Option String := none
  userImageUrl : Option String := none
  userVideoUrl : Option String := none
  userInputAudio : Option SpanUserInputAudio := none
  text : Option String := none
  thinking : Option String := none
  imageUrl : Option String := none
  videoUrl : Option String := none
  audio : Option SpanAudio := none
  toolUse : Option SpanToolUse := none
  toolResult : Option SpanToolResult := none
  compaction : Option String := none
deriving DecidableEq

/-- The times of a span are left out. -/
structure Span where
  id : String
  type : String
  value : Option SpanValue
deriving DecidableEq

/-! ## Keys -/

/-- What the value adds to the key. -/
def valueKey (spanType : String) (value : SpanValue) : Option String :=
  if spanType = "user_query" then value.userQuery
  else if spanType = "user_image_url" then value.userImageUrl
  else if spanType = "user_video_url" then value.userVideoUrl
  else if spanType = "user_input_audio" then
    value.userInputAudio.map fun audio => audio.format ++ ":" ++ audio.data
  else if spanType = "text" then value.text
  else if spanType = "thinking" then value.thinking
  else if spanType = "image_url" then value.imageUrl
  else if spanType = "video_url" then value.videoUrl
  else if spanType = "audio" then
    value.audio.map fun audio => audio.id ++ ":" ++ audio.format ++ ":" ++ audio.transcript
  else if spanType = "compaction" ∨ spanType = "compaction_summary" then value.compaction
  else if spanType = "tool_use" then
    value.toolUse.map fun toolUse =>
      toolUse.id ++ ":" ++ toolUse.name ++ ":" ++ toolUse.arguments.getD ""
  else if spanType = "tool_result" then
    value.toolResult.map fun toolResult =>
      toolResult.toolCallId ++ ":" ++ toString toolResult.isError ++ ":" ++ toolResult.text.getD ""
  else none

/-- A span without a matching value is its type. -/
def spanToKey (span : Span) : String :=
  span.type ++ ":" ++ ((span.value.bind (valueKey span.type)).getD "")

/-! ## Shared spans -/

/-- The span agrees with the parent's at its index. -/
def sameAsParent (parent : List Span) (span : Span) (i : Nat) : Bool :=
  (parent[i]?).any fun other => spanToKey span = spanToKey other

def deduplicateSpansWithParent (current parent : List Span) : List Span :=
  if current.isEmpty ∨ parent.isEmpty then current
  else (current.zipIdx.filter fun entry => !sameAsParent parent entry.1 entry.2).map Prod.fst

/-- The loop over the indexes both have, left at the first difference. -/
def countCommonSpanPrefix (current predecessor : List Span) : Nat :=
  ((List.range (min current.length predecessor.length)).takeWhile fun i =>
    (current[i]?).any fun span => sameAsParent predecessor span i).length

/-! ## Place by place -/

theorem dedup_eq_withoutAgreeing (current parent : List Span) :
    (current.zipIdx.filter fun entry => !sameAsParent parent entry.1 entry.2).map Prod.fst =
      withoutAgreeing spanToKey current parent := by
  induction current generalizing parent with
  | nil => rfl
  | cons span current ih =>
      cases parent with
      | nil =>
          have hall : (((span :: current).zipIdx).filter fun entry =>
              !sameAsParent [] entry.1 entry.2) = (span :: current).zipIdx :=
            List.filter_eq_self.mpr fun _ _ => by simp [sameAsParent]
          rw [hall, List.zipIdx_map_fst]
          rfl
      | cons other parent =>
          -- the indexes of the rest are one up, as are those of the parent's rest
          have hrest : ((current.zipIdx 1).filter fun entry =>
              !sameAsParent (other :: parent) entry.1 entry.2).map Prod.fst =
                withoutAgreeing spanToKey current parent := by
            rw [← ih parent, List.zipIdx_succ, List.filter_map, List.map_map]
            rfl
          rw [List.zipIdx_cons]
          unfold withoutAgreeing
          by_cases hkey : spanToKey span = spanToKey other
          · rw [if_pos hkey, List.filter_cons_of_neg (by simp [sameAsParent, hkey])]
            exact hrest
          · rw [if_neg hkey, List.filter_cons_of_pos (by simp [sameAsParent, hkey]), List.map_cons]
            exact congrArg (span :: ·) hrest

theorem deduplicate_eq (current parent : List Span) :
    deduplicateSpansWithParent current parent = withoutAgreeing spanToKey current parent := by
  unfold deduplicateSpansWithParent
  split
  · rename_i hempty
    rcases hempty with hempty | hempty
    · rw [List.isEmpty_iff.mp hempty]
      rfl
    · rw [List.isEmpty_iff.mp hempty, withoutAgreeing_nil_right]
  · exact dedup_eq_withoutAgreeing current parent

theorem count_eq (current predecessor : List Span) :
    countCommonSpanPrefix current predecessor = sharedPrefix spanToKey current predecessor := by
  induction current generalizing predecessor with
  | nil => rfl
  | cons span current ih =>
      cases predecessor with
      | nil => rfl
      | cons other predecessor =>
          unfold countCommonSpanPrefix sharedPrefix
          rw [List.length_cons, List.length_cons, Nat.add_min_add_right, List.range_succ_eq_map]
          by_cases hkey : spanToKey span = spanToKey other
          · rw [if_pos hkey, List.takeWhile_cons_of_pos (by simp [sameAsParent, hkey]),
              List.length_cons, List.takeWhile_map, List.length_map, ← ih]
            rfl
          · rw [if_neg hkey, List.takeWhile_cons_of_neg (by simp [sameAsParent, hkey])]
            rfl

/-! ## The shared prefix -/

/-- Only the shared prefix is taken off: the keys of the parent's prefix and of
the rest are those of the spans, and nothing behind a difference is lost. -/
structure RemovesSharedPrefix (current parent : List Span) : Prop where
  result : deduplicateSpansWithParent current parent =
    current.drop (countCommonSpanPrefix current parent)
  keys : (parent.take (countCommonSpanPrefix current parent)).map spanToKey ++
    (deduplicateSpansWithParent current parent).map spanToKey = current.map spanToKey
  kept : ∀ i, DifferAt spanToKey current parent i →
    List.Sublist (current.drop (i + 1)) (deduplicateSpansWithParent current parent)

/-- **De-duplication removes the shared prefix and no more if and only if no span
agrees with the parent's behind one that differs.** -/
theorem removes_shared_prefix_iff (current parent : List Span) :
    RemovesSharedPrefix current parent ↔ StaysDifferent spanToKey current parent := by
  constructor
  · intro h
    have hresult := h.result
    rw [deduplicate_eq, count_eq] at hresult
    exact (withoutAgreeing_eq_drop_iff current parent).mp hresult
  · intro h
    have hresult : deduplicateSpansWithParent current parent =
        current.drop (countCommonSpanPrefix current parent) := by
      rw [deduplicate_eq, count_eq]
      exact (withoutAgreeing_eq_drop_iff current parent).mpr h
    refine ⟨hresult, ?_, fun i hdiffer => ?_⟩
    · rw [hresult, count_eq, take_sharedPrefix, ← List.map_append, List.take_append_drop]
    · have hcount : countCommonSpanPrefix current parent ≤ i := by
        rw [count_eq]
        exact sharedPrefix_le hdiffer
      rw [hresult]
      exact List.drop_sublist_drop_left current (Nat.le_succ_of_le hcount)

def textSpan (id text : String) : Span := ⟨id, "text", some { text := some text }⟩

/-- The second turn differs and the third is the same text again. -/
theorem repeated_turn_vanishes :
    deduplicateSpansWithParent [textSpan "a" "hi", textSpan "b" "new", textSpan "c" "ok"]
        [textSpan "d" "hi", textSpan "e" "old", textSpan "f" "ok"] = [textSpan "b" "new"] ∧
      countCommonSpanPrefix [textSpan "a" "hi", textSpan "b" "new", textSpan "c" "ok"]
        [textSpan "d" "hi", textSpan "e" "old", textSpan "f" "ok"] = 1 ∧
      ¬RemovesSharedPrefix [textSpan "a" "hi", textSpan "b" "new", textSpan "c" "ok"]
        [textSpan "d" "hi", textSpan "e" "old", textSpan "f" "ok"] := by
  have hresult : deduplicateSpansWithParent
      [textSpan "a" "hi", textSpan "b" "new", textSpan "c" "ok"]
      [textSpan "d" "hi", textSpan "e" "old", textSpan "f" "ok"] = [textSpan "b" "new"] := by
    decide
  have hcount : countCommonSpanPrefix [textSpan "a" "hi", textSpan "b" "new", textSpan "c" "ok"]
      [textSpan "d" "hi", textSpan "e" "old", textSpan "f" "ok"] = 1 := by
    decide
  refine ⟨hresult, hcount, fun h => ?_⟩
  have hlength := congrArg List.length h.result
  rw [hresult, hcount] at hlength
  exact absurd hlength (by decide)

end Conduit.Trace
