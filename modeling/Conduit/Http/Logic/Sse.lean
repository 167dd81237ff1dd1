import Conduit.Http.Sse

/-!
# Cutting a body into chunks

A buffer that is parsed up to a cut and then again from the kept tail gives
the frames of the whole buffer. A cut inside a line is parsed again as a
whole. A cut between the two bytes of a line end is the case that differs: the
carriage return alone ends the line, so the line feed is left over as a blank
line of its own, in which nothing is pending.
-/

namespace Conduit.Http.Sse

open Pipeline

/-! ## Lines across a cut -/

theorem readSseLine_append_none {input : List UInt8} (rest : List UInt8)
    (h : readSseLine input = none) :
    readSseLine (input ++ rest) = (readSseLine rest).map fun (line, next) => (input ++ line, next) := by
  induction input with
  | nil => simp
  | cons b input ih =>
      unfold readSseLine at h
      split_ifs at h with hfeed hreturn
      · split at h <;> exact absurd h (by simp)
      · rw [List.cons_append]
        conv_lhs => unfold readSseLine
        rw [if_neg hfeed, if_neg hreturn, ih (Option.map_eq_none_iff.mp h), Option.map_map]
        rfl

/-- A line that is read before the cut is read over it, except that its end
may take one more byte. -/
theorem readSseLine_append_some {input line next : List UInt8} (rest : List UInt8)
    (h : readSseLine input = some (line, next)) :
    readSseLine (input ++ rest) = some (line, next ++ rest) ∨
      next = [] ∧ ∃ rest' : List UInt8, rest = 10 :: rest' ∧
        readSseLine (input ++ rest) = some (line, rest') := by
  induction input generalizing line with
  | nil => exact absurd h (by simp [readSseLine])
  | cons b input ih =>
      unfold readSseLine at h
      rw [List.cons_append]
      by_cases hfeed : b = 10
      · rw [if_pos hfeed] at h
        cases h
        exact .inl (by unfold readSseLine; rw [if_pos hfeed])
      · rw [if_neg hfeed] at h
        by_cases hreturn : b = 13
        · rw [if_pos hreturn] at h
          unfold readSseLine
          rw [if_neg hfeed, if_pos hreturn]
          cases input with
          | nil =>
              cases h
              -- the carriage return is the last byte before the cut
              cases rest with
              | nil => exact .inl rfl
              | cons c rest =>
                  by_cases hsecond : c = 10
                  · subst hsecond
                    exact .inr ⟨rfl, rest, rfl, rfl⟩
                  · refine .inl ?_
                    rw [List.nil_append]
                    split
                    next heq => exact absurd (List.cons.inj heq).1 hsecond
                    next => rfl
          | cons c input =>
              refine .inl ?_
              rw [List.cons_append]
              by_cases hsecond : c = 10
              · subst hsecond
                cases h
                rfl
              · split at h
                next heq => exact absurd (List.cons.inj heq).1 hsecond
                next =>
                  cases h
                  split
                  next heq => exact absurd (List.cons.inj heq).1 hsecond
                  next => rfl
        · rw [if_neg hreturn] at h
          obtain ⟨⟨tail, next'⟩, hread, heq⟩ := Option.map_eq_some_iff.mp h
          cases heq
          unfold readSseLine
          rw [if_neg hfeed, if_neg hreturn]
          rcases ih hread with hsame | ⟨hnext, rest', hrest, hlonger⟩
          · exact .inl (by rw [hsame, Option.map_some])
          · exact .inr ⟨hnext, rest', hrest, by rw [hlonger, Option.map_some]⟩

theorem map_eq_ok {ε α β : Type} {f : α → β} {x : Except ε α} {b : β} (h : x.map f = .ok b) :
    ∃ a : α, x = .ok a ∧ f a = b := by
  cases x with
  | error err => exact absurd h (by simp [Except.map])
  | ok a => exact ⟨a, rfl, Except.ok.inj h⟩

/-! ## One pass of the loop -/

variable {maxEventSize : Nat} {event cursor : List UInt8} {pending : PendingSseFrame}

theorem parseLines_none (h : readSseLine cursor = none) :
    parseLines maxEventSize event cursor pending =
      if maxEventSize < (event ++ cursor).length then .error ⟨maxEventSize⟩
      else .ok ⟨[], event ++ cursor⟩ := by
  rw [parseLines]
  split
  next => rfl
  next heq =>
    rw [h] at heq
    exact absurd heq (by simp)

/-- What a line makes of the pending frame, if it is not blank. -/
def applyNonBlank (pending : PendingSseFrame) (line : List UInt8) : PendingSseFrame :=
  if line.head? = some 58 then pending else pending.applyLine line

theorem parseLines_some {line next : List UInt8} (h : readSseLine cursor = some (line, next)) :
    parseLines maxEventSize event cursor pending =
      if maxEventSize < (event ++ cursor.take (cursor.length - next.length)).length then
        .error ⟨maxEventSize⟩
      else if line = [] then
        (parseLines maxEventSize [] next .empty).map fun parsed =>
          ⟨pending.takeFrame.1.toList ++ parsed.frames, parsed.incomplete⟩
      else
        parseLines maxEventSize (event ++ cursor.take (cursor.length - next.length)) next
          (applyNonBlank pending line) := by
  rw [parseLines]
  split
  next heq =>
    rw [h] at heq
    exact absurd heq (by simp)
  next line' next' heq =>
    rw [h] at heq
    cases heq
    rw [PendingSseFrame.takeFrame_pending]
    unfold applyNonBlank
    dsimp only
    split_ifs <;> rfl

/-- A line starts where the cursor is. -/
theorem readSseLine_suffix {line next : List UInt8} (h : readSseLine cursor = some (line, next)) :
    cursor.take (cursor.length - next.length) ++ next = cursor := by
  suffices hsuffix : next <:+ cursor by
    obtain ⟨before, rfl⟩ := hsuffix
    rw [List.length_append, Nat.add_sub_cancel, List.take_left]
  induction cursor generalizing line with
  | nil => exact absurd h (by simp [readSseLine])
  | cons b input ih =>
      unfold readSseLine at h
      split_ifs at h with hfeed hreturn
      · cases h
        exact List.suffix_cons _ _
      · split at h
        · cases h
          exact (List.suffix_cons _ _).trans (List.suffix_cons _ _)
        · cases h
          exact List.suffix_cons _ _
      · obtain ⟨⟨tail, next'⟩, hread, heq⟩ := Option.map_eq_some_iff.mp h
        cases heq
        exact (ih hread).trans (List.suffix_cons b input)

theorem take_append_of_length (cursor next rest : List UInt8) :
    (cursor ++ rest).take ((cursor ++ rest).length - (next ++ rest).length) =
      cursor.take (cursor.length - next.length) := by
  rw [List.length_append, List.length_append, Nat.add_sub_add_right,
    List.take_append_of_le_length (Nat.sub_le _ _)]

/-- An input that is parsed before the cut and is not too large as a whole is
not too large up to the cut. -/
theorem length_le_of_ok {rest : List UInt8} {parsed : SseParseResult}
    (hread : readSseLine cursor = none)
    (h : parseLines maxEventSize event (cursor ++ rest) pending = .ok parsed) :
    (event ++ cursor).length ≤ maxEventSize := by
  cases hrest : readSseLine rest with
  | none =>
      have hwhole : readSseLine (cursor ++ rest) = none := by
        rw [readSseLine_append_none rest hread, hrest, Option.map_none]
      rw [parseLines_none hwhole] at h
      split_ifs at h with hsize
      simp only [List.length_append] at hsize ⊢
      omega
  | some read =>
      obtain ⟨line, next⟩ := read
      have hwhole : readSseLine (cursor ++ rest) = some (cursor ++ line, next) := by
        rw [readSseLine_append_none rest hread, hrest, Option.map_some]
      have hlength := readSseLine_length hrest
      rw [parseLines_some hwhole] at h
      split at h
      · exact absurd h (by simp)
      next hsize =>
        simp only [List.length_append, List.length_take] at hsize ⊢
        omega

/-! ## Parsing across a cut -/

/-- If the event so far can be parsed again, so can what a parse up to the cut
leaves over: the two results together are the one of the whole input. -/
theorem parseLines_cut (hmax : 0 < maxEventSize) (rest : List UInt8) {parsed : SseParseResult}
    (hreplay : parseLines maxEventSize [] (event ++ (cursor ++ rest)) .empty =
      parseLines maxEventSize event (cursor ++ rest) pending)
    (h : parseLines maxEventSize event (cursor ++ rest) pending = .ok parsed) :
    ∃ before after : SseParseResult,
      parseLines maxEventSize event cursor pending = .ok before ∧
      parseLines maxEventSize [] (before.incomplete ++ rest) .empty = .ok after ∧
      parsed = ⟨before.frames ++ after.frames, after.incomplete⟩ := by
  induction hlength : cursor.length using Nat.strong_induction_on
    generalizing event cursor pending parsed with
  | _ length ih =>
    cases hread : readSseLine cursor with
    | none =>
        have hsize := length_le_of_ok hread h
        refine ⟨⟨[], event ++ cursor⟩, parsed, ?_, ?_, rfl⟩
        · rw [parseLines_none hread, if_neg (Nat.not_lt.mpr hsize)]
        · dsimp only
          rw [List.append_assoc, hreplay, h]
    | some read =>
        obtain ⟨line, next⟩ := read
        have hshorter := readSseLine_length hread
        rw [parseLines_some hread]
        rcases readSseLine_append_some rest hread with hsame | ⟨hnext, rest', hrest, hlonger⟩
        · rw [parseLines_some hsame, take_append_of_length] at h hreplay
          split at h
          · exact absurd h (by simp)
          next hsize =>
            rw [if_neg hsize] at hreplay ⊢
            by_cases hblank : line = []
            · rw [if_pos hblank] at h ⊢
              obtain ⟨inner, hinner, hparsed⟩ := map_eq_ok h
              have hfresh : parseLines maxEventSize [] ([] ++ (next ++ rest)) .empty =
                  parseLines maxEventSize [] (next ++ rest) .empty := rfl
              obtain ⟨before, after, hbefore, hafter, hinner_eq⟩ :=
                ih next.length (hlength ▸ hshorter) hfresh hinner rfl
              refine ⟨⟨pending.takeFrame.1.toList ++ before.frames, before.incomplete⟩, after, ?_,
                hafter, ?_⟩
              · rw [hbefore]
                rfl
              · rw [← hparsed, hinner_eq, List.append_assoc]
            · rw [if_neg hblank] at h hreplay ⊢
              refine ih next.length (hlength ▸ hshorter) ?_ h rfl
              rw [← hreplay, List.append_assoc, ← List.append_assoc _ next rest,
                readSseLine_suffix hread]
        · -- the line feed of this line's end is after the cut
          subst hnext hrest
          have htake : (cursor ++ 10 :: rest').take ((cursor ++ 10 :: rest').length - rest'.length) =
              cursor ++ [10] := by
            rw [List.append_cons, List.length_append, Nat.add_sub_cancel, List.take_left]
          rw [List.length_nil, Nat.sub_zero, List.take_length]
          rw [parseLines_some hlonger, htake] at h hreplay
          split at h
          · exact absurd h (by simp)
          next hsize =>
            rw [if_neg hsize] at hreplay
            have hsize' : ¬ maxEventSize < (event ++ cursor).length := by
              simp only [List.length_append, List.length_singleton] at hsize ⊢
              omega
            have hend : ∀ kept : List UInt8, kept.length ≤ maxEventSize →
                ∀ pending' : PendingSseFrame,
                parseLines maxEventSize kept [] pending' = .ok ⟨[], kept⟩ := by
              intro kept hkept pending'
              rw [parseLines_none rfl, List.append_nil, if_neg (Nat.not_lt.mpr hkept)]
            rw [if_neg hsize']
            by_cases hblank : line = []
            · rw [if_pos hblank] at h ⊢
              obtain ⟨inner, hinner, hparsed⟩ := map_eq_ok h
              refine ⟨⟨pending.takeFrame.1.toList, []⟩, inner, ?_, ?_, hparsed.symm⟩
              · rw [hend [] (Nat.zero_le _)]
                simp [Except.map]
              · -- what is left over starts with a blank line
                have hfeed : readSseLine (10 :: rest') = some ([], rest') := rfl
                rw [List.nil_append, parseLines_some hfeed, if_neg, if_pos rfl, hinner]
                · rfl
                · simp only [List.nil_append, List.length_take, List.length_cons]
                  omega
            · rw [if_neg hblank] at h hreplay ⊢
              refine ⟨⟨[], event ++ cursor⟩, parsed, hend _ (Nat.not_lt.mp hsize') _, ?_, rfl⟩
              dsimp only
              rw [List.append_assoc, hreplay, h]

theorem parseSseFrames_cut {buffer rest : List UInt8} {parsed : SseParseResult}
    (h : parseSseFrames (buffer ++ rest) = .ok parsed) :
    ∃ before after : SseParseResult, parseSseFrames buffer = .ok before ∧
      parseSseFrames (before.incomplete ++ rest) = .ok after ∧
      parsed = ⟨before.frames ++ after.frames, after.incomplete⟩ :=
  parseLines_cut (by decide) rest rfl h

/-- No frame is left in a kept tail. -/
theorem parseSseFrames_incomplete {buffer : List UInt8} {parsed : SseParseResult}
    (h : parseSseFrames buffer = .ok parsed) :
    parseSseFrames parsed.incomplete = .ok ⟨[], parsed.incomplete⟩ := by
  have hwhole : parseSseFrames (buffer ++ []) = .ok parsed := by rw [List.append_nil, h]
  obtain ⟨before, after, hbefore, hafter, hparsed⟩ := parseSseFrames_cut hwhole
  rw [h] at hbefore
  cases hbefore
  rw [List.append_nil] at hafter
  have hframes : parsed.frames = parsed.frames ++ after.frames :=
    congrArg SseParseResult.frames hparsed
  have hnone : after.frames = [] := List.self_eq_append_right.mp hframes
  have htail : parsed.incomplete = after.incomplete := by rw [hparsed]
  rw [hafter, htail, ← hnone]

theorem parseSseFrames_nil : parseSseFrames [] = .ok ⟨[], []⟩ := by
  have hread : readSseLine [] = none := rfl
  unfold parseSseFrames parseSseFramesWithMaxEventSize
  rw [parseLines_none hread, if_neg (by simp)]
  rfl

/-- Blank lines alone are no events, however many there are. -/
theorem parseSseFrames_blank (count : Nat) :
    parseSseFrames (List.replicate count 10) = .ok ⟨[], []⟩ := by
  induction count with
  | zero => exact parseSseFrames_nil
  | succ count ih =>
      have hread : readSseLine (10 :: List.replicate count 10) =
          some ([], List.replicate count 10) := rfl
      have hsize : ¬ maxSseEventSize < ([] ++ (10 :: List.replicate count (10 : UInt8)).take
          ((10 :: List.replicate count (10 : UInt8)).length -
            (List.replicate count (10 : UInt8)).length)).length := by
        have hmax : 1 ≤ maxSseEventSize := by decide
        simp only [List.nil_append, List.length_take, List.length_cons]
        omega
      unfold parseSseFrames parseSseFramesWithMaxEventSize at ih ⊢
      rw [List.replicate_succ, parseLines_some hread, if_neg hsize, if_pos rfl, ih]
      rfl

/-! ## The live loop -/

/-- No kept tail is over the budget of the live loop together with the chunk
that comes after it. -/
def WithinBudget (buffer : List UInt8) : List (List UInt8) → Prop
  | [] => True
  | chunk :: chunks => buffer.length + chunk.length ≤ maxChunkBytes ∧
      ∀ parsed : SseParseResult, parseSseFrames (buffer ++ chunk) = .ok parsed →
        WithinBudget parsed.incomplete chunks

theorem parseLines_incomplete_length {parsed : SseParseResult}
    (h : parseLines maxEventSize event cursor pending = .ok parsed) :
    parsed.incomplete.length ≤ maxEventSize := by
  induction hlength : cursor.length using Nat.strong_induction_on
    generalizing event cursor pending parsed with
  | _ length ih =>
    cases hread : readSseLine cursor with
    | none =>
        rw [parseLines_none hread] at h
        split_ifs at h with hsize
        cases h
        exact Nat.not_lt.mp hsize
    | some read =>
        obtain ⟨line, next⟩ := read
        have hshorter := readSseLine_length hread
        rw [parseLines_some hread] at h
        split_ifs at h with hsize hblank
        · obtain ⟨inner, hinner, hparsed⟩ := map_eq_ok h
          have hinner_length := ih next.length (hlength ▸ hshorter) hinner rfl
          rw [← hparsed]
          exact hinner_length
        · exact ih next.length (hlength ▸ hshorter) h rfl

/-- Chunks of up to half of the budget stay within it. -/
theorem withinBudget_of_small {chunks : List (List UInt8)} {buffer : List UInt8}
    (hbuffer : buffer.length ≤ maxSseEventSize)
    (hsmall : ∀ chunk ∈ chunks, chunk.length ≤ maxChunkBytes - maxSseEventSize) :
    WithinBudget buffer chunks := by
  induction chunks generalizing buffer with
  | nil => trivial
  | cons chunk chunks ih =>
      refine ⟨?_, ?_⟩
      · have hchunk := hsmall chunk List.mem_cons_self
        have hbudget : maxSseEventSize ≤ maxChunkBytes := by decide
        omega
      · intro parsed hparsed
        exact ih (parseLines_incomplete_length hparsed)
          fun other hother => hsmall other (List.mem_cons_of_mem _ hother)

/-- The live loop sends the frames of everything that is still to come. -/
theorem liveLoop_within {chunks : List (List UInt8)} {buffer : List UInt8} {parsed : SseParseResult}
    (hbuffer : parseSseFrames buffer = .ok ⟨[], buffer⟩)
    (h : parseSseFrames (buffer ++ chunks.flatten) = .ok parsed)
    (hbudget : WithinBudget buffer chunks) :
    liveLoop buffer (chunks.map .ok) = parsed.frames.map fun frame => .ok frame.toStreamEvent := by
  induction chunks generalizing buffer parsed with
  | nil =>
      rw [List.flatten_nil, List.append_nil, hbuffer] at h
      cases h
      rfl
  | cons chunk chunks ih =>
      rw [List.flatten_cons, ← List.append_assoc] at h
      obtain ⟨before, after, hbefore, hafter, hparsed⟩ := parseSseFrames_cut h
      rw [List.map_cons]
      unfold liveLoop
      rw [if_neg (Nat.not_lt.mpr hbudget.1), hbefore]
      dsimp only
      rw [ih (parseSseFrames_incomplete hbefore) hafter (hbudget.2 before hbefore), hparsed,
        List.map_append]

/-- Over its budget the live loop stops after the frames of the chunks before. -/
theorem liveLoop_over {chunks : List (List UInt8)} {buffer : List UInt8} {parsed : SseParseResult}
    (h : parseSseFrames (buffer ++ chunks.flatten) = .ok parsed)
    (hover : ¬ WithinBudget buffer chunks) :
    ∃ sent : List SseFrame, sent <+: parsed.frames ∧ liveLoop buffer (chunks.map .ok) =
      sent.map (fun frame => .ok frame.toStreamEvent) ++ [.error budgetExceeded] := by
  induction chunks generalizing buffer parsed with
  | nil => exact absurd trivial hover
  | cons chunk chunks ih =>
      rw [List.map_cons]
      unfold liveLoop
      by_cases hbudget : maxChunkBytes < buffer.length + chunk.length
      · rw [if_pos hbudget]
        exact ⟨[], List.nil_prefix, rfl⟩
      · rw [List.flatten_cons, ← List.append_assoc] at h
        obtain ⟨before, after, hbefore, hafter, hparsed⟩ := parseSseFrames_cut h
        have hlater : ¬ WithinBudget before.incomplete chunks := by
          intro hwithin
          refine hover ⟨Nat.not_lt.mp hbudget, ?_⟩
          intro parsed' hparsed'
          rw [hbefore] at hparsed'
          cases hparsed'
          exact hwithin
        obtain ⟨sent, hsent, hloop⟩ := ih hafter hlater
        refine ⟨before.frames ++ sent, ?_, ?_⟩
        · rw [hparsed]
          exact (List.prefix_append_right_inj before.frames).mpr hsent
        · rw [if_neg hbudget, hbefore]
          dsimp only
          rw [hloop, List.map_append, List.append_assoc]

end Conduit.Http.Sse
