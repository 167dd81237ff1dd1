import Conduit.Transformers.Logic.AnthropicMessages
import Mathlib

/-!
# Dialogues that are kept

In the walk every position adds the messages that it lets speak. The dialogue is
kept if these are the fibres of a monotone owner: the assistant message whose
results a user message joins, or the message itself.
-/

namespace Conduit.Transformers.AnthropicMessages

open Base Base.Json

section Speaking

variable {messages : List ChatMessage} {i k : Nat}

/-! ## What a position adds -/

/-- The turns a position adds to the walk. -/
def chunk (messages : List ChatMessage) (i : Nat) : List Turn :=
  turnsAt messages (used messages i) i

def spokenAt (messages : List ChatMessage) (i : Nat) : List Nat :=
  (chunk messages i).flatMap Turn.spoken

theorem walk_eq_flatMap (i : Nat) : walk messages i = (List.range i).flatMap (chunk messages) := by
  induction i with
  | zero => rfl
  | succ i ih =>
      rw [List.range_succ, List.flatMap_append, ← ih, List.flatMap_singleton]
      rfl

theorem answers_eq_nil (h : callsAt messages i = []) : answers messages i = [] := by
  unfold answers
  rw [h, List.filterMap_nil]

/-- A position adds the answers of its message. -/
theorem resulted_chunk (i : Nat) : (chunk messages i).flatMap Turn.resulted = answers messages i := by
  unfold chunk turnsAt
  cases hmessage : messages[i]? with
  | none =>
      refine (answers_eq_nil (List.eq_nil_iff_forall_not_mem.mpr fun toolCall hcall => ?_)).symm
      obtain ⟨message, hsome, -⟩ := role_of_callsAt hcall
      rw [hmessage] at hsome
      exact Option.some_ne_none message hsome.symm
  | some message =>
      dsimp only
      by_cases hassistant : message.role = "assistant"
      · rw [if_neg (by simp [assistant_not_used hmessage hassistant, hassistant]),
          if_neg (by simp [hassistant]), if_pos hassistant]
        split
        · rename_i hnone
          rw [hnone]
          rfl
        · simp [Turn.resulted, List.filterMap_append, List.filterMap_map, Function.comp_def,
            Block.resulted]
      · rw [answers_eq_nil (callsAt_other hmessage hassistant)]
        split
        · rfl
        split
        · split <;> rfl
        · rfl

/-- A user message speaks unless it is used or skipped, any other message speaks and
takes others along. -/
theorem spokenAt_eq {message : ChatMessage} (hmessage : messages[i]? = some message)
    (htool : isTool messages i = false) :
    spokenAt messages i =
      if isUser messages i = true then
        if i ∈ used messages i ∨ skipped messages (used messages i) i = true then [] else [i]
      else i :: taken messages (used messages i) i := by
  have hrole : message.role ≠ "tool" := by
    rw [isTool_of_getElem? hmessage] at htool
    exact of_decide_eq_false htool
  rw [isUser_of_getElem? hmessage]
  unfold spokenAt chunk turnsAt
  rw [hmessage]
  dsimp only
  by_cases huser : message.role = "user"
  · rw [if_pos (decide_eq_true huser)]
    by_cases hused : i ∈ used messages i
    · rw [if_pos (.inl hused), if_pos (.inl hused)]
      rfl
    · rw [if_neg (not_or.mpr ⟨hused, hrole⟩), if_pos huser]
      by_cases hskip : skipped messages (used messages i) i = true
      · rw [if_pos hskip, if_pos (.inr hskip)]
        rfl
      · rw [if_neg hskip, if_neg (not_or.mpr ⟨hused, hskip⟩)]
        rfl
  · have hused : i ∉ used messages i := by
      intro h
      rcases used_cases h with hlt | hisTool | hisUser
      · exact lt_irrefl i hlt
      · rw [htool] at hisTool
        exact Bool.false_ne_true hisTool
      · rw [isUser_of_getElem? hmessage, decide_eq_true_iff] at hisUser
        exact huser hisUser
    rw [if_neg (not_or.mpr ⟨hused, hrole⟩), if_neg huser,
      if_neg (show ¬ decide (message.role = "user") = true by simpa using huser)]
    by_cases hassistant : message.role = "assistant"
    · rw [if_pos hassistant]
      by_cases hnone : answers messages i = []
      · rw [if_pos hnone, taken_of_no_answers hnone]
        rfl
      · rw [if_neg hnone]
        simp [Turn.spoken, List.filterMap_append, List.filterMap_map, Function.comp_def,
          Block.spoken]
    · rw [if_neg hassistant, taken_of_no_answers (answers_eq_nil (callsAt_other hmessage hassistant))]
      rfl

theorem spokenAt_tool (htool : isTool messages i = true) : spokenAt messages i = [] := by
  unfold spokenAt chunk
  rw [turnsAt_tool htool]
  rfl

theorem mem_speakers : k ∈ speakers messages ↔ k < messages.length ∧ isTool messages k = false := by
  unfold speakers
  rw [List.mem_filter, List.mem_range, decide_eq_true_iff]

theorem speakers_sorted : (speakers messages).Pairwise (· < ·) :=
  List.pairwise_lt_range.filter _

theorem mem_taken {used : List Nat} :
    k ∈ taken messages used i ↔ k ∉ used ∧ shares messages k i = true := by
  unfold taken shares indexesOf
  rw [mem_relatedUsers, Bool.and_eq_true, List.any_eq_true]
  refine and_congr_right fun _ => and_congr_right fun _ => ?_
  constructor
  · rintro ⟨index, hindex, hk⟩
    obtain ⟨r, hr, hindex⟩ := List.mem_flatMap.mp hindex
    refine ⟨r, hr, ?_⟩
    rw [hk, Option.mem_toList.mp hindex]
    simp
  · rintro ⟨r, hr, hsame⟩
    rw [Bool.and_eq_true, decide_eq_true_iff] at hsame
    obtain ⟨index, hk⟩ := Option.isSome_iff_exists.mp hsame.1
    exact ⟨index, List.mem_flatMap.mpr ⟨r, hr, Option.mem_toList.mpr (hsame.2.trans hk)⟩, hk⟩

theorem mem_used : k ∈ used messages i ↔
    ∃ j < i, k ∈ spokenAt messages j ∨ k ∈ answers messages j := by
  unfold used positions
  rw [walk_eq_flatMap, List.mem_flatMap]
  constructor
  · rintro ⟨turn, hturn, hk⟩
    obtain ⟨j, hj, hturn⟩ := List.mem_flatMap.mp hturn
    refine ⟨j, List.mem_range.mp hj, ?_⟩
    rcases List.mem_append.mp hk with hk | hk
    · exact .inl (List.mem_flatMap.mpr ⟨turn, hturn, hk⟩)
    · exact .inr (resulted_chunk j ▸ List.mem_flatMap.mpr ⟨turn, hturn, hk⟩)
  · rintro ⟨j, hj, hk⟩
    rw [← resulted_chunk j] at hk
    unfold spokenAt at hk
    rcases hk with hk | hk
    · obtain ⟨turn, hturn, hk⟩ := List.mem_flatMap.mp hk
      exact ⟨turn, List.mem_flatMap.mpr ⟨j, List.mem_range.mpr hj, hturn⟩,
        List.mem_append_left _ hk⟩
    · obtain ⟨turn, hturn, hk⟩ := List.mem_flatMap.mp hk
      exact ⟨turn, List.mem_flatMap.mpr ⟨j, List.mem_range.mpr hj, hturn⟩,
        List.mem_append_right _ hk⟩

/-- Who speaks at a position: its own message, or one that it takes along. -/
theorem spokenAt_cases (h : k ∈ spokenAt messages i) :
    k = i ∨ isUser messages i = false ∧ k ∈ taken messages (used messages i) i := by
  cases hmessage : messages[i]? with
  | none =>
      unfold spokenAt chunk turnsAt at h
      rw [hmessage] at h
      exact absurd h (List.not_mem_nil)
  | some message =>
      by_cases htool : isTool messages i = true
      · rw [spokenAt_tool htool] at h
        exact absurd h (List.not_mem_nil)
      · rw [spokenAt_eq hmessage (Bool.eq_false_iff.mpr htool)] at h
        split at h
        · split at h
          · exact absurd h (List.not_mem_nil)
          · exact .inl (List.mem_singleton.mp h)
        · rename_i huser
          rcases List.mem_cons.mp h with rfl | htaken
          · exact .inl rfl
          · exact .inr ⟨Bool.eq_false_iff.mpr huser, htaken⟩

/-! ## Hosts -/

theorem host_eq_some {u a : Nat} : host messages u = some a ↔
    a < u ∧ shares messages u a = true ∧ ∀ b < a, shares messages u b = false := by
  unfold host
  rw [List.find?_range_eq_some, List.mem_range]
  simp only [Bool.not_eq_true']
  tauto

theorem isUser_of_shares {u a : Nat} (h : shares messages u a = true) :
    isUser messages u = true := by
  unfold shares at h
  rw [Bool.and_eq_true] at h
  exact h.1

/-- With a result to share, it is an assistant message. -/
theorem assistant_of_answers (h : answers messages i ≠ []) :
    ∃ message : ChatMessage, messages[i]? = some message ∧ message.role = "assistant" := by
  obtain ⟨k, hk⟩ := List.exists_mem_of_ne_nil _ h
  obtain ⟨toolCall, hcall, -⟩ := List.mem_filterMap.mp hk
  exact role_of_callsAt hcall

theorem answers_of_shares {u a : Nat} (h : shares messages u a = true) :
    answers messages a ≠ [] := by
  unfold shares at h
  rw [Bool.and_eq_true, List.any_eq_true] at h
  obtain ⟨-, r, hr, -⟩ := h
  exact List.ne_nil_of_mem hr

/-- An assistant message with results speaks and takes users along. -/
theorem spokenAt_assistant {message : ChatMessage} (hmessage : messages[i]? = some message)
    (hrole : message.role = "assistant") :
    spokenAt messages i = i :: taken messages (used messages i) i := by
  have htool : isTool messages i = false := by
    rw [isTool_of_getElem? hmessage, hrole]
    decide
  have huser : isUser messages i = false := by
    rw [isUser_of_getElem? hmessage, hrole]
    decide
  rw [spokenAt_eq hmessage htool, huser, if_neg Bool.false_ne_true]

theorem spokenAt_of_shares {u a : Nat} (h : shares messages u a = true) :
    spokenAt messages a = a :: taken messages (used messages a) a := by
  obtain ⟨message, hmessage, hrole⟩ := assistant_of_answers (answers_of_shares h)
  exact spokenAt_assistant hmessage hrole

/-- A user message is taken along by its host and by no other message before it. -/
theorem mem_taken_iff_host {u a : Nat} (hlt : a < u) :
    u ∈ taken messages (used messages a) a ↔ host messages u = some a := by
  rw [mem_taken, host_eq_some]
  constructor
  · rintro ⟨hunused, hshares⟩
    refine ⟨hlt, hshares, fun b hb => Bool.eq_false_iff.mpr fun hb' => hunused ?_⟩
    -- an earlier message that shares takes it, unless it is used by then
    by_cases hearlier : u ∈ used messages b
    · obtain ⟨j, hj, hu⟩ := mem_used.mp hearlier
      exact mem_used.mpr ⟨j, by omega, hu⟩
    · refine mem_used.mpr ⟨b, hb, .inl ?_⟩
      rw [spokenAt_of_shares hb']
      exact List.mem_cons_of_mem _ (mem_taken.mpr ⟨hearlier, hb'⟩)
  · rintro ⟨-, hshares, hfirst⟩
    refine ⟨fun hu => ?_, hshares⟩
    obtain ⟨j, hj, hspoken | hanswer⟩ := mem_used.mp hu
    · rcases spokenAt_cases hspoken with rfl | ⟨-, htaken⟩
      · omega
      · have hshares := (mem_taken.mp htaken).2
        rw [hfirst j hj] at hshares
        exact Bool.false_ne_true hshares
    · have htool := isTool_of_mem_answers hanswer
      rw [not_isTool_of_isUser (isUser_of_shares hshares)] at htool
      exact Bool.false_ne_true htool

/-- The message with which a message is to speak. -/
def owner (messages : List ChatMessage) (k : Nat) : Nat := (host messages k).getD k

theorem owner_of_host {u a : Nat} (h : host messages u = some a) : owner messages u = a := by
  unfold owner
  rw [h]
  rfl

theorem owner_of_none {u : Nat} (h : host messages u = none) : owner messages u = u := by
  unfold owner
  rw [h]
  rfl

theorem host_of_not_isUser (h : isUser messages k = false) : host messages k = none := by
  cases hhost : host messages k with
  | none => rfl
  | some a =>
      rw [isUser_of_shares (host_eq_some.mp hhost).2.1] at h
      exact absurd h.symm Bool.false_ne_true

theorem owner_le (k : Nat) : owner messages k ≤ k := by
  cases hhost : host messages k with
  | none => rw [owner_of_none hhost]
  | some a =>
      rw [owner_of_host hhost]
      exact (host_eq_some.mp hhost).1.le

/-- Whose owner is another message joins its results. -/
theorem owner_eq_iff : owner messages k = i ↔ host messages k = some i ∨ host messages k = none ∧ k = i := by
  cases hhost : host messages k with
  | none =>
      rw [owner_of_none hhost]
      simp
  | some a =>
      rw [owner_of_host hhost]
      simp

/-! ## An orderly dialogue is kept -/

theorem Orderly.owner_mono (horderly : Orderly messages) {j : Nat} (hj : isTool messages j = false)
    (hlt : j < k) : owner messages j ≤ owner messages k := by
  cases hhost : host messages k with
  | none =>
      rw [owner_of_none hhost]
      exact (owner_le j).trans hlt.le
  | some a =>
      rw [owner_of_host hhost]
      by_cases hle : j ≤ a
      · exact (owner_le j).trans hle
      · rw [owner_of_host (horderly.adjacent k a hhost j (by omega) hlt hj)]

/-- What is used before a position, when the positions before it added their fibres. -/
theorem mem_used_of_fibres
    (hfibres : ∀ j < i, spokenAt messages j =
      (speakers messages).filter fun k => owner messages k = j) :
    k ∈ used messages i ↔ (k ∈ speakers messages ∧ owner messages k < i) ∨
      ∃ j < i, k ∈ answers messages j := by
  rw [mem_used]
  constructor
  · rintro ⟨j, hj, hspoken | hanswer⟩
    · rw [hfibres j hj, List.mem_filter, decide_eq_true_iff] at hspoken
      exact .inl ⟨hspoken.1, hspoken.2 ▸ hj⟩
    · exact .inr ⟨j, hj, hanswer⟩
  · rintro (⟨hspeaker, howner⟩ | ⟨j, hj, hanswer⟩)
    · refine ⟨owner messages k, howner, .inl ?_⟩
      rw [hfibres _ howner, List.mem_filter, decide_eq_true_iff]
      exact ⟨hspeaker, rfl⟩
    · exact ⟨j, hj, .inr hanswer⟩

theorem not_speaker_of_answer {j : Nat} (h : k ∈ answers messages j) : k ∉ speakers messages := by
  intro hspeaker
  have htool := isTool_of_mem_answers h
  rw [(mem_speakers.mp hspeaker).2] at htool
  exact Bool.false_ne_true htool

/-- A user message of its own is not skipped. -/
theorem Orderly.not_skipped (horderly : Orderly messages) (huser : isUser messages i = true)
    (hhost : host messages i = none)
    (hfibres : ∀ j < i, spokenAt messages j =
      (speakers messages).filter fun k => owner messages k = j) :
    skipped messages (used messages i) i = false := by
  refine Bool.eq_false_iff.mpr fun hskip => ?_
  unfold skipped at hskip
  rw [Option.any_eq_true] at hskip
  obtain ⟨index, hindex, hused⟩ := hskip
  rw [decide_eq_true_iff] at hused
  obtain ⟨hnonneg, hused⟩ := hused
  have hat : messageIndexAt messages i = some ((index.toNat : Nat) : Int) := by
    rw [hindex, Int.toNat_of_nonneg hnonneg]
  rcases (mem_used_of_fibres hfibres).mp hused with ⟨hspeaker, howner⟩ | ⟨j, hj, hanswer⟩
  · rcases horderly.unskipped i _ huser hhost hat (mem_speakers.mp hspeaker).1 with
      hself | ⟨hlt, hlater⟩
    · rw [hself, owner_of_none hhost] at howner
      exact lt_irrefl i howner
    · cases hother : host messages index.toNat with
      | none =>
          rw [owner_of_none hother] at howner
          omega
      | some a =>
          rw [owner_of_host hother] at howner
          exact (hlater a howner).2 hother
  · have htool := isTool_of_mem_answers hanswer
    rcases horderly.unskipped i _ huser hhost hat (lt_length_of_isTool htool) with
      hself | ⟨-, hlater⟩
    · rw [hself, not_isTool_of_isUser huser] at htool
      exact Bool.false_ne_true htool
    · exact (hlater j hj).1 hanswer

/-- Every position adds its fibre. -/
theorem Orderly.spokenAt (horderly : Orderly messages) (hlt : i < messages.length) :
    spokenAt messages i = (speakers messages).filter fun k => owner messages k = i := by
  induction i using Nat.strong_induction_on with
  | h i ih =>
  have hfibres := fun j (hj : j < i) => ih j hj (hj.trans hlt)
  obtain ⟨message, hmessage⟩ : ∃ message, messages[i]? = some message :=
    ⟨messages[i], List.getElem?_eq_getElem hlt⟩
  have hsorted := (@speakers_sorted messages).filter fun k => decide (owner messages k = i)
  by_cases htool : isTool messages i = true
  · rw [spokenAt_tool htool]
    refine (List.filter_eq_nil_iff.mpr fun k hk howner => ?_).symm
    rcases owner_eq_iff.mp (of_decide_eq_true howner) with hhost | ⟨-, rfl⟩
    · obtain ⟨other, hother, hrole⟩ :=
        assistant_of_answers (answers_of_shares (host_eq_some.mp hhost).2.1)
      rw [isTool_of_getElem? hother, hrole] at htool
      exact absurd htool (by decide)
    · rw [(mem_speakers.mp hk).2] at htool
      exact Bool.false_ne_true htool
  have htool := Bool.eq_false_iff.mpr htool
  have hself : i ∈ speakers messages := mem_speakers.mpr ⟨hlt, htool⟩
  by_cases huser : isUser messages i = true
  · -- a user message takes nobody along
    have hnobody : ∀ k : Nat, host messages k ≠ some i := by
      intro k hhost
      obtain ⟨other, hother, hrole⟩ :=
        assistant_of_answers (answers_of_shares (host_eq_some.mp hhost).2.1)
      rw [isUser_of_getElem? hother, hrole] at huser
      exact absurd huser (by decide)
    rw [spokenAt_eq hmessage htool, if_pos huser]
    cases hhost : host messages i with
    | none =>
        have hunused : i ∉ used messages i := by
          intro h
          rcases (mem_used_of_fibres hfibres).mp h with ⟨-, howner⟩ | ⟨j, -, hanswer⟩
          · rw [owner_of_none hhost] at howner
            exact lt_irrefl i howner
          · exact not_speaker_of_answer hanswer hself
        rw [if_neg (not_or.mpr ⟨hunused,
          Bool.eq_false_iff.mp (horderly.not_skipped huser hhost hfibres)⟩)]
        refine (List.pairwise_singleton _ i).eq_of_mem_iff hsorted fun k => ?_
        rw [List.mem_singleton, List.mem_filter, decide_eq_true_iff, owner_eq_iff]
        constructor
        · rintro rfl
          exact ⟨hself, .inr ⟨hhost, rfl⟩⟩
        · rintro ⟨-, hother | ⟨-, hsame⟩⟩
          · exact absurd hother (hnobody k)
          · exact hsame
    | some a =>
        have hused : i ∈ used messages i := by
          refine (mem_used_of_fibres hfibres).mpr (.inl ⟨hself, ?_⟩)
          rw [owner_of_host hhost]
          exact (host_eq_some.mp hhost).1
        rw [if_pos (.inl hused)]
        refine (List.filter_eq_nil_iff.mpr fun k _ howner => ?_).symm
        rcases owner_eq_iff.mp (of_decide_eq_true howner) with hother | ⟨hnone, rfl⟩
        · exact hnobody k hother
        · rw [hhost] at hnone
          exact Option.some_ne_none a hnone
  · -- any other message takes its users along
    have huser := Bool.eq_false_iff.mpr huser
    rw [spokenAt_eq hmessage htool, if_neg (by simp [huser])]
    have hlater : ∀ k ∈ taken messages (used messages i) i, i < k := by
      intro k hk
      obtain ⟨hunused, hshares⟩ := mem_taken.mp hk
      have huserk := isUser_of_shares hshares
      by_contra hle
      rcases Nat.eq_or_lt_of_le (Nat.le_of_not_lt hle) with rfl | hbefore
      · rw [huser] at huserk
        exact Bool.false_ne_true huserk
      · refine hunused ((mem_used_of_fibres hfibres).mpr (.inl ⟨?_, ?_⟩))
        · exact mem_speakers.mpr ⟨hbefore.trans hlt, not_isTool_of_isUser huserk⟩
        · exact lt_of_le_of_lt (owner_le k) hbefore
    have htaken : (i :: taken messages (used messages i) i).Pairwise (· < ·) :=
      List.pairwise_cons.mpr ⟨hlater, List.pairwise_lt_range.filter _⟩
    refine htaken.eq_of_mem_iff hsorted fun k => ?_
    rw [List.mem_cons, List.mem_filter, decide_eq_true_iff, owner_eq_iff]
    constructor
    · rintro (rfl | hk)
      · exact ⟨hself, .inr ⟨host_of_not_isUser huser, rfl⟩⟩
      · have hhost := (mem_taken_iff_host (hlater k hk)).mp hk
        have huserk := isUser_of_shares (mem_taken.mp hk).2
        exact ⟨mem_speakers.mpr ⟨lt_length_of_isUser huserk, not_isTool_of_isUser huserk⟩,
          .inl hhost⟩
    · rintro ⟨-, hhost | ⟨-, rfl⟩⟩
      · exact .inr ((mem_taken_iff_host (host_eq_some.mp hhost).1).mpr hhost)
      · exact .inl rfl

/-! ## A dialogue that is kept is orderly -/

theorem spoken_walk (i : Nat) :
    (walk messages i).flatMap Turn.spoken = (List.range i).flatMap (spokenAt messages) := by
  rw [walk_eq_flatMap, List.flatMap_assoc]
  rfl

theorem resulted_walk (i : Nat) :
    (walk messages i).flatMap Turn.resulted = (List.range i).flatMap (answers messages) := by
  rw [walk_eq_flatMap, List.flatMap_assoc]
  exact congrArg (List.range i).flatMap (funext resulted_chunk)

/-- The messages speak in order, each of them once. -/
def InOrder (messages : List ChatMessage) : Prop :=
  (List.range messages.length).flatMap (spokenAt messages) = speakers messages

theorem InOrder.lt (h : InOrder messages) {j x y : Nat} (hij : i < j) (hj : j < messages.length)
    (hx : x ∈ AnthropicMessages.spokenAt messages i)
    (hy : y ∈ AnthropicMessages.spokenAt messages j) : x < y := by
  unfold InOrder at h
  have hsorted := @speakers_sorted messages
  rw [← h] at hsorted
  have hpairs := (List.pairwise_flatMap.mp hsorted).2
  have hlt := List.pairwise_iff_getElem.mp hpairs i j (by simp; omega) (by simpa) hij
  rw [List.getElem_range, List.getElem_range] at hlt
  exact hlt x hx y hy

/-- Where a message speaks: at its own position or at that of its host. -/
theorem InOrder.speaks (h : InOrder messages) (hk : k ∈ speakers messages) :
    ∃ j < messages.length, k ∈ AnthropicMessages.spokenAt messages j ∧
      (k = j ∨ host messages k = some j) := by
  have hsorted := @speakers_sorted messages
  have hmem := hk
  unfold InOrder at h
  rw [← h] at hmem hsorted
  obtain ⟨j, hj, hspoken⟩ := List.mem_flatMap.mp hmem
  refine ⟨j, List.mem_range.mp hj, hspoken, ?_⟩
  rcases spokenAt_cases hspoken with rfl | ⟨-, htaken⟩
  · exact .inl rfl
  · have hown := (List.pairwise_flatMap.mp hsorted).1 j hj
    rw [spokenAt_of_shares (mem_taken.mp htaken).2, List.pairwise_cons] at hown
    exact .inr ((mem_taken_iff_host (hown.1 k htaken)).mp htaken)

/-- A message that has a host speaks with it. -/
theorem spoken_of_host {u a : Nat} (h : host messages u = some a) :
    u ∈ AnthropicMessages.spokenAt messages a := by
  obtain ⟨hlt, hshares, -⟩ := host_eq_some.mp h
  rw [spokenAt_of_shares hshares]
  exact List.mem_cons_of_mem _ ((mem_taken_iff_host hlt).mpr h)

theorem InOrder.adjacent (h : InOrder messages) {u a : Nat} (hhost : host messages u = some a)
    (hak : a < k) (hku : k < u) (htool : isTool messages k = false) :
    host messages k = some a := by
  have hshares := (host_eq_some.mp hhost).2.1
  have hu := spoken_of_host hhost
  have hulength := lt_length_of_isUser (isUser_of_shares hshares)
  have ha : a ∈ AnthropicMessages.spokenAt messages a := by
    rw [spokenAt_of_shares hshares]
    exact List.mem_cons_self
  obtain ⟨j, hj, hk, hown⟩ := h.speaks (mem_speakers.mpr ⟨hku.trans hulength, htool⟩)
  rcases Nat.lt_trichotomy j a with hlt | rfl | hgt
  · have := h.lt hlt (by omega) hk ha
    omega
  · rcases hown with rfl | hhost
    · exact absurd hak (lt_irrefl k)
    · exact hhost
  · have := h.lt hgt hj hu hk
    omega

/-- With one result a call, every tool message is an answer. -/
theorem mem_answers_of_once (hdialogue : ToolDialogue messages)
    (honce : ∀ k k' : Nat, isTool messages k = true → isTool messages k' = true →
      toolCallIdAt messages k = toolCallIdAt messages k' → k = k')
    (htool : isTool messages k = true) : ∃ a < k, k ∈ answers messages a := by
  obtain ⟨a, hlt, toolCall, hcall, hid⟩ := hdialogue.answered k htool
  obtain ⟨id, hsome, -⟩ := hdialogue.ids a toolCall hcall
  obtain ⟨k', hposition⟩ := Option.isSome_iff_exists.mp
    (resultPosition_isSome htool (hid ▸ hsome))
  obtain ⟨htool', hid'⟩ := resultPosition_spec hposition
  obtain rfl := honce k k' htool htool' ((hid.symm.trans hsome).trans hid'.symm)
  refine ⟨a, hlt, List.mem_filterMap.mpr ⟨toolCall, hcall, ?_⟩⟩
  rw [hsome]
  exact hposition

theorem InOrder.unskipped (h : InOrder messages) (hdialogue : ToolDialogue messages)
    (honce : ∀ k k' : Nat, isTool messages k = true → isTool messages k' = true →
      toolCallIdAt messages k = toolCallIdAt messages k' → k = k')
    {u : Nat} (huser : isUser messages u = true) (hhost : host messages u = none)
    (hindex : messageIndexAt messages u = some (k : Int)) (hlength : k < messages.length) :
    k = u ∨ u < k ∧ ∀ a < u, k ∉ answers messages a ∧ host messages k ≠ some a := by
  have htool := not_isTool_of_isUser huser
  obtain ⟨j, -, hspoken, hown⟩ := h.speaks (mem_speakers.mpr ⟨lt_length_of_isUser huser, htool⟩)
  -- the message speaks at its own position, so its index was not used there
  have hunused : k ∉ used messages u := by
    rcases hown with rfl | hother
    · obtain ⟨message, hmessage⟩ : ∃ message, messages[u]? = some message :=
        ⟨_, List.getElem?_eq_getElem (lt_length_of_isUser huser)⟩
      rw [spokenAt_eq hmessage htool, if_pos huser] at hspoken
      split at hspoken
      · exact absurd hspoken (List.not_mem_nil)
      · rename_i hspeaks
        refine fun hused => hspeaks (.inr ?_)
        unfold skipped
        rw [hindex, Option.any_some, decide_eq_true_iff]
        exact ⟨Int.natCast_nonneg k, hused⟩
    · rw [hhost] at hother
      exact absurd hother.symm (Option.some_ne_none j)
  rcases Nat.lt_trichotomy k u with hlt | rfl | hgt
  · refine absurd (mem_used.mpr ?_) hunused
    by_cases hisTool : isTool messages k = true
    · obtain ⟨a, ha, hanswer⟩ := mem_answers_of_once hdialogue honce hisTool
      exact ⟨a, ha.trans hlt, .inr hanswer⟩
    · obtain ⟨j', -, hk, hown'⟩ :=
        h.speaks (mem_speakers.mpr ⟨hlength, Bool.eq_false_iff.mpr hisTool⟩)
      refine ⟨j', ?_, .inl hk⟩
      rcases hown' with rfl | hhost'
      · exact hlt
      · exact (host_eq_some.mp hhost').1.trans hlt
  · exact .inl rfl
  · refine .inr ⟨hgt, fun a ha => ⟨fun hanswer => ?_, fun hhost' => ?_⟩⟩
    · exact hunused (mem_used.mpr ⟨a, ha, .inr hanswer⟩)
    · exact hunused (mem_used.mpr ⟨a, ha, .inl (spoken_of_host hhost')⟩)

/-! ## The results -/

/-- Each result is there once exactly if no call has two. -/
theorem results_perm_iff (hdialogue : ToolDialogue messages) :
    ((List.range messages.length).flatMap (answers messages)).Perm
        ((List.range messages.length).filter fun k => isTool messages k = true) ↔
      ∀ k k' : Nat, isTool messages k = true → isTool messages k' = true →
        toolCallIdAt messages k = toolCallIdAt messages k' → k = k' := by
  constructor
  · intro hperm k k' htool htool' hsame
    have hposition : ∀ k : Nat, isTool messages k = true →
        ∃ id : String, toolCallIdAt messages k = some id ∧ resultPosition messages id = some k := by
      intro k htool
      have hmem : k ∈ (List.range messages.length).flatMap (answers messages) :=
        hperm.mem_iff.mpr (List.mem_filter.mpr
          ⟨List.mem_range.mpr (lt_length_of_isTool htool), decide_eq_true htool⟩)
      obtain ⟨a, -, hanswer⟩ := List.mem_flatMap.mp hmem
      obtain ⟨toolCall, -, hbind⟩ := List.mem_filterMap.mp hanswer
      obtain ⟨id, -, hposition⟩ := Option.bind_eq_some_iff.mp hbind
      exact ⟨id, (resultPosition_spec hposition).2, hposition⟩
    obtain ⟨id, hid, hk⟩ := hposition k htool
    obtain ⟨id', hid', hk'⟩ := hposition k' htool'
    rw [hid, hid', Option.some_inj] at hsame
    rw [hsame, hk'] at hk
    exact (Option.some.inj hk).symm
  · intro honce
    refine (List.perm_ext_iff_of_nodup ?_ (List.nodup_range.filter _)).mpr fun k => ?_
    · -- the ids of distinct calls are distinct, so are their results
      have hids : ∀ calls : List ToolCall, calls.Pairwise (fun a b => a.id ≠ b.id) →
          (resultsOf messages calls).Nodup := by
        intro calls hcalls
        refine List.Pairwise.filterMap _ ?_ hcalls
        intro a b hne k hk k' hk' hsame
        obtain ⟨id, hid, hposition⟩ := Option.bind_eq_some_iff.mp hk
        obtain ⟨id', hid', hposition'⟩ := Option.bind_eq_some_iff.mp hk'
        rw [hsame] at hposition
        have hids := (resultPosition_spec hposition).2.symm.trans (resultPosition_spec hposition').2
        exact hne (hid.trans (hids.trans hid'.symm))
      have hall := hids _ hdialogue.distinct
      unfold resultsOf at hall
      rw [List.filterMap_flatMap] at hall
      exact hall
    · rw [List.mem_flatMap, List.mem_filter, List.mem_range, decide_eq_true_iff]
      constructor
      · rintro ⟨a, -, hanswer⟩
        exact ⟨lt_length_of_isTool (isTool_of_mem_answers hanswer), isTool_of_mem_answers hanswer⟩
      · rintro ⟨hlength, htool⟩
        obtain ⟨a, ha, hanswer⟩ := mem_answers_of_once hdialogue honce htool
        exact ⟨a, List.mem_range.mpr (ha.trans hlength), hanswer⟩

/-- The results of an assistant message are the turn right after it. -/
theorem answered_walk (h : answers messages i ≠ []) :
    ∃ (before after : List Turn) (blocks : List Block),
      walk messages messages.length = before ++ .assistant i :: .results blocks :: after ∧
        blocks.filterMap Block.resulted = answers messages i := by
  obtain ⟨message, hmessage, hrole⟩ := assistant_of_answers h
  have hlt : i < messages.length := (List.getElem?_eq_some_iff.mp hmessage).1
  obtain ⟨before, after, hrange⟩ := List.append_of_mem (List.mem_range.mpr hlt)
  have hchunk : chunk messages i = [.assistant i, .results ((answers messages i).map .result ++
      (taken messages (used messages i) i).map .text)] := by
    unfold chunk turnsAt
    rw [hmessage]
    dsimp only
    rw [if_neg (by simp [assistant_not_used hmessage hrole, hrole]), if_neg (by simp [hrole]),
      if_pos hrole, if_neg h]
  refine ⟨before.flatMap (chunk messages), after.flatMap (chunk messages),
    (answers messages i).map .result ++ (taken messages (used messages i) i).map .text, ?_, ?_⟩
  · rw [walk_eq_flatMap, hrange, List.flatMap_append, List.flatMap_cons, hchunk]
    rfl
  · simp [List.filterMap_append, List.filterMap_map, Function.comp_def, Block.resulted]

end Speaking

/-! ## What is sent -/

section Sent

variable (fromStr : String → Option Json)

theorem Block.renders_values {block : Block}
    (h : ∀ k, block.spoken = some k ∨ block.resulted = some k → k < messages.length) :
    block.Renders messages (block.values messages) := by
  cases block with
  | result position =>
      obtain ⟨message, hmessage⟩ : ∃ message, messages[position]? = some message :=
        ⟨_, List.getElem?_eq_getElem (h position (.inr rfl))⟩
      unfold Block.values
      dsimp only
      rw [hmessage]
      exact .result hmessage
  | text position =>
      obtain ⟨message, hmessage⟩ : ∃ message, messages[position]? = some message :=
        ⟨_, List.getElem?_eq_getElem (h position (.inl rfl))⟩
      unfold Block.values
      dsimp only
      rw [hmessage, Option.toList_some, List.flatMap_singleton]
      exact .text hmessage

/-- A turn made of messages is sent as one value. -/
theorem Turn.renders_values {turn : Turn} (h : ∀ k ∈ turn.positions, k < messages.length) :
    ∃ value, turn.values fromStr messages = [value] ∧ turn.Renders fromStr messages value := by
  cases turn with
  | assistant position =>
      obtain ⟨message, hmessage⟩ : ∃ message, messages[position]? = some message :=
        ⟨_, List.getElem?_eq_getElem (h position (by simp [positions, spoken]))⟩
      refine ⟨assistantMessageValue fromStr message, ?_, .assistant hmessage⟩
      unfold values
      dsimp only
      rw [hmessage]
      rfl
  | user position =>
      obtain ⟨message, hmessage⟩ : ∃ message, messages[position]? = some message :=
        ⟨_, List.getElem?_eq_getElem (h position (by simp [positions, spoken]))⟩
      refine ⟨userMessageValue message, ?_, .user hmessage⟩
      unfold values
      dsimp only
      rw [hmessage]
      rfl
  | results blocks =>
      refine ⟨_, rfl, ?_⟩
      rw [List.flatMap_def]
      refine .results (List.forall₂_map_right_iff.mpr (List.forall₂_same.mpr fun block hblock => ?_))
      refine Block.renders_values fun k hk => h k (List.mem_append.mpr (hk.imp ?_ ?_))
      · exact fun hspoken => List.mem_filterMap.mpr ⟨block, hblock, hspoken⟩
      · exact fun hresulted => List.mem_filterMap.mpr ⟨block, hblock, hresulted⟩

theorem renders_flatMap {turns : List Turn} (h : ∀ k ∈ positions turns, k < messages.length) :
    List.Forall₂ (Turn.Renders fromStr messages) turns
      (turns.flatMap (Turn.values fromStr messages)) := by
  induction turns with
  | nil => exact .nil
  | cons turn turns ih =>
      obtain ⟨value, hvalue, hrenders⟩ := Turn.renders_values fromStr
        fun k hk => h k (List.mem_append_left _ hk)
      rw [List.flatMap_cons, hvalue]
      exact .cons hrenders (ih fun k hk => h k (List.mem_append_right _ hk))

/-- Each turn of a dialogue is sent as one value, in order. -/
theorem converted_renders (messages : List ChatMessage) (hdialogue : ToolDialogue (nonSystem messages)) :
    List.Forall₂ (Turn.Renders fromStr (nonSystem messages)) (convertedTurns (nonSystem messages))
      (convertAnthropicMessages fromStr messages) := by
  refine renders_flatMap fromStr fun k hk => ?_
  rw [convertedTurns_eq_walk hdialogue] at hk
  rcases used_cases (i := (nonSystem messages).length) hk with hlt | htool | huser
  · exact hlt
  · exact lt_length_of_isTool htool
  · exact lt_length_of_isUser huser

end Sent

/-! ## Exactly the orderly dialogues -/

/-- A dialogue with tools is sent turn by turn, and it is converted without loss,
duplication or reordering, and with the results right after their calls, if and only if
it is orderly. -/
theorem tool_dialogue_kept_iff (fromStr : String → Option Json) (messages : List ChatMessage)
    (hdialogue : ToolDialogue (nonSystem messages)) :
    List.Forall₂ (Turn.Renders fromStr (nonSystem messages)) (convertedTurns (nonSystem messages))
        (convertAnthropicMessages fromStr messages) ∧
      (Kept (nonSystem messages) (convertedTurns (nonSystem messages)) ↔
        Orderly (nonSystem messages)) := by
  refine ⟨converted_renders fromStr messages hdialogue, ?_⟩
  rw [convertedTurns_eq_walk hdialogue]
  constructor
  · intro hkept
    have horder : InOrder (nonSystem messages) := (spoken_walk _).symm.trans hkept.spoken
    have hresults := hkept.results
    rw [resulted_walk] at hresults
    have honce := (results_perm_iff hdialogue).mp hresults
    exact ⟨honce, fun _ _ hhost _ hak hku htool => horder.adjacent hhost hak hku htool,
      fun _ _ huser hhost hindex hlength =>
        horder.unskipped hdialogue honce huser hhost hindex hlength⟩
  · intro horderly
    refine ⟨?_, ?_, fun i hanswers => answered_walk hanswers⟩
    · have hfibres : (List.range (nonSystem messages).length).flatMap
          (AnthropicMessages.spokenAt (nonSystem messages)) =
          (List.range (nonSystem messages).length).flatMap fun i =>
            (speakers (nonSystem messages)).filter fun k => owner (nonSystem messages) k = i :=
        List.flatMap_congr fun i hi => horderly.spokenAt (List.mem_range.mp hi)
      rw [spoken_walk, hfibres]
      refine flatMap_fibres speakers_sorted (fun k hk => ?_) fun j hj k _ hlt => ?_
      · exact lt_of_le_of_lt (owner_le k) (mem_speakers.mp hk).1
      · exact horderly.owner_mono (mem_speakers.mp hj).2 hlt
    · rw [resulted_walk]
      exact (results_perm_iff hdialogue).mpr horderly.once

/-- A question, a call, a remark and the result of the call. -/
def weatherDialogue : List ChatMessage :=
  [{ role := "system", content := some (.text "Be brief.") },
    { role := "user", content := some (.text "Weather?") },
    { role := "assistant",
      toolCalls := [{ id := some "call_1", callType := "function", function := .object [] }] },
    { role := "user", content := some (.text "Hurry.") },
    { role := "tool", toolCallId := some "call_1", content := some (.text "Rain.") }]

theorem weatherDialogue_calls {i : Nat} {toolCall : ToolCall}
    (h : toolCall ∈ callsAt (nonSystem weatherDialogue) i) : toolCall.id = some "call_1" ∧ i = 1 := by
  obtain ⟨message, hmessage, -⟩ := role_of_callsAt h
  have hlt : i < 4 := (List.getElem?_eq_some_iff.mp hmessage).1
  interval_cases i
  · exact absurd h (List.not_mem_nil)
  · obtain rfl := List.mem_singleton.mp h
    exact ⟨rfl, rfl⟩
  · exact absurd h (List.not_mem_nil)
  · exact absurd h (List.not_mem_nil)

theorem weatherDialogue_tools {k : Nat} (h : isTool (nonSystem weatherDialogue) k = true) : k = 3 := by
  have hlt : k < 4 := lt_length_of_isTool h
  interval_cases k
  · exact absurd h (by decide)
  · exact absurd h (by decide)
  · exact absurd h (by decide)
  · rfl

theorem weatherDialogue_isDialogue : ToolDialogue (nonSystem weatherDialogue) where
  ids i toolCall h := ⟨"call_1", (weatherDialogue_calls h).1, by decide⟩
  distinct := List.pairwise_singleton _ _
  answered k h := by
    obtain rfl := weatherDialogue_tools h
    exact ⟨1, by decide, _, List.mem_singleton.mpr rfl, rfl⟩

theorem tool_dialogue_kept_sample :
    Kept (nonSystem weatherDialogue) (convertedTurns (nonSystem weatherDialogue)) := by
  refine (tool_dialogue_kept_iff (fun _ => none) weatherDialogue
    weatherDialogue_isDialogue).2.mpr ⟨?_, ?_, ?_⟩
  · intro k k' hk hk' _
    rw [weatherDialogue_tools hk, weatherDialogue_tools hk']
  · intro u a hhost
    have hnone : ∀ u < 4, host (nonSystem weatherDialogue) u = none := by decide
    have hlt : u < 4 := lt_length_of_isUser (isUser_of_shares (host_eq_some.mp hhost).2.1)
    rw [hnone u hlt] at hhost
    exact absurd hhost.symm (Option.some_ne_none a)
  · intro u k huser _ hindex
    have hnone : ∀ u < 4, messageIndexAt (nonSystem weatherDialogue) u = none := by decide
    rw [hnone u (lt_length_of_isUser huser)] at hindex
    exact absurd hindex.symm (Option.some_ne_none _)

/-- Two user messages, the second with the position of the first as its message index. -/
def indexedUsers : List ChatMessage :=
  [{ role := "user", content := some (.text "Weather?") },
    { role := "user", content := some (.text "In Rome."), extra := [("message_index", .int 0)] }]

/-- The second message is skipped, although there is no tool at all. -/
theorem indexed_user_skipped :
    ¬ (ToolDialogue (nonSystem indexedUsers) →
      Kept (nonSystem indexedUsers) (convertedTurns (nonSystem indexedUsers))) := by
  intro hclaim
  have hcalls : ∀ i : Nat, callsAt (nonSystem indexedUsers) i = [] := by
    intro i
    refine List.eq_nil_iff_forall_not_mem.mpr fun toolCall h => ?_
    obtain ⟨message, hmessage, -⟩ := role_of_callsAt h
    have hlt : i < 2 := (List.getElem?_eq_some_iff.mp hmessage).1
    interval_cases i
    · exact absurd h (List.not_mem_nil)
    · exact absurd h (List.not_mem_nil)
  have htools : ∀ k < 2, isTool (nonSystem indexedUsers) k = false := by decide
  have hdialogue : ToolDialogue (nonSystem indexedUsers) := by
    refine ⟨fun i toolCall h => ?_, List.Pairwise.nil, fun k h => ?_⟩
    · rw [hcalls i] at h
      exact absurd h (List.not_mem_nil)
    · rw [htools k (lt_length_of_isTool h)] at h
      exact absurd h Bool.false_ne_true
  exact absurd (hclaim hdialogue).spoken (by decide)

end Conduit.Transformers.AnthropicMessages
