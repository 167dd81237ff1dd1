import Conduit.Transformers.AnthropicOutline

/-!
# The client stream follows its outline

One relation ties the flags of the iterator to the outline and the reader:
`Tracks`. Each step of the iterator is shown to simulate a partial step of the
outline, first for the blocks, then for the deltas, and by composition for a
chunk and a stream.
-/

namespace Conduit.Transformers.Anthropic

open Base InboundStream

/-! ## The relation -/

namespace Outline

/-- What the reader has seen, if the next or open block has that index. -/
def shape (o : Outline) (index : Nat) : Shape :=
  if o.stopped then .done
  else if !o.started then .start
  else
    match o.block with
    | none => .between index
    | some block => .inside index block.kind

theorem started_of_writable {o : Outline} (h : o.writable = true) : o.started = true := by
  unfold writable at h
  exact (Bool.and_eq_true _ _ ▸ h).1

theorem shape_closed {o : Outline} (hwritable : o.writable = true) (hblock : o.block = none)
    (index : Nat) : o.shape index = .between index := by
  unfold writable at hwritable
  rw [Bool.and_eq_true, Bool.not_eq_true'] at hwritable
  unfold shape
  rw [hwritable.1, hwritable.2, hblock]
  rfl

theorem shape_open {o : Outline} (hwritable : o.writable = true) {block : OpenBlock}
    (hblock : o.block = some block) (index : Nat) : o.shape index = .inside index block.kind := by
  unfold writable at hwritable
  rw [Bool.and_eq_true, Bool.not_eq_true'] at hwritable
  unfold shape
  rw [hwritable.1, hwritable.2, hblock]
  rfl

/-- Before the start and after the stop no block is read. -/
theorem shape_of_not_writable {o : Outline} (hwritable : o.writable = false) (index : Nat) :
    o.shape index = .start ∨ o.shape index = .done := by
  unfold shape
  by_cases hstopped : o.stopped = true
  · rw [if_pos hstopped]
    exact .inr rfl
  · have hstarted : o.started = false := by
      unfold writable at hwritable
      simpa [Bool.eq_false_iff.mpr hstopped] using hwritable
    rw [if_neg hstopped, hstarted]
    exact .inl rfl

end Outline

/-- The iterator is where the outline says. -/
structure Tracks (s : InboundStream) (o : Outline) : Prop where
  started : s.hasStarted = o.started
  text : s.hasTextContentStarted = decide (o.block = some .text)
  thinking : s.hasThinkingContentStarted = decide (o.block = some .thinking)
  tool : s.hasToolContentStarted = o.block.any OpenBlock.isTool
  signature : s.pendingSignature.isSome = o.pendingSignature
  toolCalls : s.toolCalls.map (·.1) = o.toolCalls
  finished : s.hasFinished = o.finished
  stopped : s.messageStopped = o.stopped
  begun : o.stopped = true → o.started = true
  fresh : o.started = false → s.contentIndex = 0
  /-- An open block can be written to. -/
  writable : o.block.isSome → o.writable = true
  /-- The stop of an open block is never the second one in a row. -/
  separated : s.lastEventType = "content_block_stop" → o.block = none

/-- The iterator follows the outline and the reader has read what it wrote. -/
def Follows (s : InboundStream) (o : Outline) (shape : Shape) : Prop :=
  Tracks s o ∧ shape = o.shape s.contentIndex

/-- A step of the iterator does what the outline's step says. -/
abbrev Performs (f : StreamStep) (g : Outline → Option Outline) : Prop :=
  Simulates reader Follows f g

/-! ## Single events -/

theorem enqueueEvent_apply {s : InboundStream} {event : InboundStream → Event}
    (h : s.lastEventType = "content_block_stop" → (event s).eventType ≠ "content_block_stop") :
    enqueueEvent event s = ([event s], { s with lastEventType := (event s).eventType }) := by
  unfold enqueueEvent
  exact if_neg fun hboth => h hboth.1 hboth.2

theorem startBlock_apply (contentBlock : Json) (s : InboundStream) :
    startBlock contentBlock s = ([.contentBlockStart s.contentIndex contentBlock],
      { s with lastEventType := "content_block_start" }) :=
  enqueueEvent_apply fun _ hstop => absurd hstop (by simp [Event.eventType])

theorem writeDelta_apply (delta : BlockDelta) (s : InboundStream) :
    writeDelta delta s = ([.contentBlockDelta s.contentIndex delta],
      { s with lastEventType := "content_block_delta" }) :=
  enqueueEvent_apply fun _ hstop => absurd hstop (by simp [Event.eventType])

theorem stopBlock_apply {s : InboundStream} (h : s.lastEventType ≠ "content_block_stop") :
    stopBlock s = ([.contentBlockStop s.contentIndex],
      { s with lastEventType := "content_block_stop", contentIndex := s.contentIndex + 1 }) := by
  unfold stopBlock Emitter.seq
  rw [enqueueEvent_apply fun hlast => absurd hlast h]
  rfl

/-! ## The blocks -/

section Blocks

variable {s : InboundStream} {o : Outline}

/-- The fields about blocks may change together. -/
theorem Tracks.setBlock (h : Tracks s o) (block : Option OpenBlock) (last : String)
    {text thinking tool : Bool} (hwritable : o.writable = true)
    (hseparated : last = "content_block_stop" → block = none)
    (htext : text = decide (block = some .text))
    (hthinking : thinking = decide (block = some .thinking))
    (htool : tool = block.any OpenBlock.isTool) (index : Nat) :
    Tracks
      { s with
        hasTextContentStarted := text
        hasThinkingContentStarted := thinking
        hasToolContentStarted := tool
        lastEventType := last
        contentIndex := index }
      { o with block := block } where
  started := h.started
  text := htext
  thinking := hthinking
  tool := htool
  signature := h.signature
  toolCalls := h.toolCalls
  finished := h.finished
  stopped := h.stopped
  begun := h.begun
  fresh := fun hnot => absurd (Outline.started_of_writable hwritable) (by rw [hnot]; simp)
  writable := fun _ => hwritable
  separated := hseparated

/-- The iterator takes a pending signature. -/
theorem Tracks.takeSignature (h : Tracks s o) :
    Tracks { s with pendingSignature := none } { o with pendingSignature := false } where
  started := h.started
  text := h.text
  thinking := h.thinking
  tool := h.tool
  signature := rfl
  toolCalls := h.toolCalls
  finished := h.finished
  stopped := h.stopped
  begun := h.begun
  fresh := h.fresh
  writable := h.writable
  separated := h.separated

theorem Tracks.text_open (h : Tracks s o) (hblock : o.block = some .text) :
    s.hasTextContentStarted = true ∧ s.hasThinkingContentStarted = false ∧
      s.hasToolContentStarted = false := by
  rw [h.text, h.thinking, h.tool, hblock]
  decide

theorem Tracks.thinking_open (h : Tracks s o) (hblock : o.block = some .thinking) :
    s.hasTextContentStarted = false ∧ s.hasThinkingContentStarted = true ∧
      s.hasToolContentStarted = false := by
  rw [h.text, h.thinking, h.tool, hblock]
  decide

theorem Tracks.tool_open (h : Tracks s o) {kind : String} (hblock : o.block = some (.tool kind)) :
    s.hasTextContentStarted = false ∧ s.hasThinkingContentStarted = false ∧
      s.hasToolContentStarted = true := by
  rw [h.text, h.thinking, h.tool, hblock]
  simp [OpenBlock.isTool]

theorem Tracks.none_open (h : Tracks s o) (hblock : o.block = none) :
    s.hasTextContentStarted = false ∧ s.hasThinkingContentStarted = false ∧
      s.hasToolContentStarted = false := by
  rw [h.text, h.thinking, h.tool, hblock]
  simp

theorem Tracks.last_ne (h : Tracks s o) {block : OpenBlock} (hblock : o.block = some block) :
    s.lastEventType ≠ "content_block_stop" := by
  intro hlast
  rw [h.separated hlast] at hblock
  exact absurd hblock (by simp)

theorem Tracks.writable_of (h : Tracks s o) {block : OpenBlock} (hblock : o.block = some block) :
    o.writable = true := h.writable (by rw [hblock]; rfl)

end Blocks

def Outline.closeTool (o : Outline) : Outline :=
  if o.block.any OpenBlock.isTool then { o with block := none } else o

/-- The reader follows a stop of the open block. -/
theorem reader_stop {o : Outline} (hwritable : o.writable = true) {block : OpenBlock}
    (hblock : o.block = some block) (index : Nat) :
    reader.run (o.shape index) [.contentBlockStop index] =
      some (({ o with block := none } : Outline).shape (index + 1)) := by
  rw [Outline.shape_open hwritable hblock,
    Outline.shape_closed (o := { o with block := none }) hwritable rfl, Monitor.run_single]
  exact if_pos rfl

theorem performs_closeTextBlock : Performs closeTextBlock fun o => some o.closeText := by
  rintro s o _ ⟨h, rfl⟩
  by_cases hblock : o.block = some .text
  · obtain ⟨htext, hthinking, htool⟩ := h.text_open hblock
    have happly : closeTextBlock s = ([.contentBlockStop s.contentIndex],
        { s with
          hasTextContentStarted := false
          lastEventType := "content_block_stop"
          contentIndex := s.contentIndex + 1 }) := by
      unfold closeTextBlock
      rw [Emitter.whenever_true htext]
      exact stopBlock_apply (s := { s with hasTextContentStarted := false }) (h.last_ne hblock)
    exact SimulatesAt.goesOn happly (congrArg some (if_pos hblock))
      (reader_stop (h.writable_of hblock) hblock _)
      ⟨h.setBlock _ _ (h.writable_of hblock) (fun _ => rfl) rfl hthinking htool _, rfl⟩
  · have happly : closeTextBlock s = ([], s) :=
      Emitter.whenever_false (by rw [h.text]; exact decide_eq_false hblock) _
    exact SimulatesAt.goesOn happly (congrArg some (if_neg hblock)) rfl ⟨h, rfl⟩

theorem OpenBlock.isTool_iff {block : Option OpenBlock} :
    block.any OpenBlock.isTool = true ↔ ∃ kind, block = some (.tool kind) := by
  rcases block with _ | _ | _ | kind <;> simp [OpenBlock.isTool]

theorem performs_closeToolBlock : Performs closeToolBlock fun o => some o.closeTool := by
  rintro s o _ ⟨h, rfl⟩
  by_cases hblock : o.block.any OpenBlock.isTool
  · obtain ⟨kind, hkind⟩ := OpenBlock.isTool_iff.mp hblock
    obtain ⟨htext, hthinking, htool⟩ := h.tool_open hkind
    have happly : closeToolBlock s = ([.contentBlockStop s.contentIndex],
        { s with
          hasToolContentStarted := false
          lastEventType := "content_block_stop"
          contentIndex := s.contentIndex + 1 }) := by
      unfold closeToolBlock
      rw [Emitter.whenever_true htool]
      exact stopBlock_apply (s := { s with hasToolContentStarted := false }) (h.last_ne hkind)
    exact SimulatesAt.goesOn happly (congrArg some (if_pos hblock))
      (reader_stop (h.writable_of hkind) hkind _)
      ⟨h.setBlock _ _ (h.writable_of hkind) (fun _ => rfl) htext hthinking rfl _, rfl⟩
  · have happly : closeToolBlock s = ([], s) :=
      Emitter.whenever_false (by rw [h.tool]; exact Bool.eq_false_iff.mpr hblock) _
    exact SimulatesAt.goesOn happly (congrArg some (if_neg hblock)) rfl ⟨h, rfl⟩

/-- A block opens between two blocks only. -/
theorem reader_start_none {o : Outline} (h : ¬(o.writable = true ∧ o.block = none))
    (index : Nat) (contentBlock : Json) (events : List Event) :
    reader.run (o.shape index) (.contentBlockStart index contentBlock :: events) = none := by
  have hstep : (o.shape index).next (.contentBlockStart index contentBlock) = none := by
    by_cases hwritable : o.writable = true
    · rcases hblock : o.block with _ | block
      · exact absurd ⟨hwritable, hblock⟩ h
      · rw [Outline.shape_open hwritable hblock]
        rfl
    · rcases Outline.shape_of_not_writable (Bool.eq_false_iff.mpr hwritable) index with hshape | hshape
      · rw [hshape]
        rfl
      · rw [hshape]
        rfl
  rw [Monitor.run_cons]
  show ((o.shape index).next (.contentBlockStart index contentBlock)).bind _ = none
  rw [hstep]
  rfl

theorem reader_start {o : Outline} (hwritable : o.writable = true) (hblock : o.block = none)
    (index : Nat) (contentBlock : Json) (events : List Event) :
    reader.run (o.shape index) (.contentBlockStart index contentBlock :: events) =
      reader.run (.inside index (blockType contentBlock)) events := by
  rw [Outline.shape_closed hwritable hblock, Monitor.run_cons]
  show (if index = index then some (Shape.inside index (blockType contentBlock)) else none).bind _ = _
  rw [if_pos rfl]
  rfl

/-- A block without deltas, between two others. -/
theorem performs_block (contentBlock : Json) :
    Performs ((startBlock contentBlock).seq stopBlock) fun o =>
      if o.writable = true ∧ o.block = none then some o else none := by
  rintro s o _ ⟨h, rfl⟩
  have happly : ((startBlock contentBlock).seq stopBlock) s =
      ([.contentBlockStart s.contentIndex contentBlock, .contentBlockStop s.contentIndex],
        { s with lastEventType := "content_block_stop", contentIndex := s.contentIndex + 1 }) := by
    unfold Emitter.seq
    rw [startBlock_apply, stopBlock_apply (by simp)]
    rfl
  by_cases hopen : o.writable = true ∧ o.block = none
  · obtain ⟨htext, hthinking, htool⟩ := h.none_open hopen.2
    refine SimulatesAt.goesOn happly (if_pos hopen)
      (show _ = some (o.shape (s.contentIndex + 1)) from ?_) ⟨?_, rfl⟩
    · rw [reader_start hopen.1 hopen.2, Monitor.run_single, Outline.shape_closed hopen.1 hopen.2]
      exact if_pos rfl
    · have htracks := h.setBlock o.block "content_block_stop" hopen.1
        (fun _ => hopen.2) h.text h.thinking h.tool (s.contentIndex + 1)
      exact htracks
  · refine SimulatesAt.givesUp (if_neg hopen) ?_
    rw [happly]
    exact reader_start_none hopen _ _ _

/-- A signature's own block, between two others. -/
theorem performs_signatureBlock (signature : String) :
    Performs ((startBlock thinkingBlock).seq ((writeDelta (.signature signature)).seq stopBlock))
      fun o => if o.writable = true ∧ o.block = none then some o else none := by
  rintro s o _ ⟨h, rfl⟩
  have happly : ((startBlock thinkingBlock).seq ((writeDelta (.signature signature)).seq stopBlock)) s =
      ([.contentBlockStart s.contentIndex thinkingBlock,
        .contentBlockDelta s.contentIndex (.signature signature), .contentBlockStop s.contentIndex],
        { s with lastEventType := "content_block_stop", contentIndex := s.contentIndex + 1 }) := by
    unfold Emitter.seq
    rw [startBlock_apply, writeDelta_apply, stopBlock_apply (by simp)]
    rfl
  by_cases hopen : o.writable = true ∧ o.block = none
  · refine SimulatesAt.goesOn happly (if_pos hopen)
      (show _ = some (o.shape (s.contentIndex + 1)) from ?_) ⟨?_, rfl⟩
    · rw [reader_start hopen.1 hopen.2, Outline.shape_closed hopen.1 hopen.2]
      show ((if s.contentIndex = s.contentIndex ∧
        BlockDelta.legal (blockType thinkingBlock) (.signature signature) = true then
          some (Shape.inside s.contentIndex (blockType thinkingBlock)) else none).bind _) = _
      rw [if_pos ⟨rfl, rfl⟩]
      show (if s.contentIndex = s.contentIndex then some (Shape.between (s.contentIndex + 1))
        else none).bind _ = _
      rw [if_pos rfl]
      rfl
    · exact h.setBlock o.block "content_block_stop" hopen.1
        (fun _ => hopen.2) h.text h.thinking h.tool (s.contentIndex + 1)
  · refine SimulatesAt.givesUp (if_neg hopen) ?_
    rw [happly]
    exact reader_start_none hopen _ _ _

/-- A delta of the open block. -/
theorem performs_writeDelta (delta : BlockDelta) : Performs (writeDelta delta) fun o =>
    if o.block.any fun block => delta.legal block.kind then some o else none := by
  rintro s o _ ⟨h, rfl⟩
  by_cases hlegal : o.block.any fun block => delta.legal block.kind
  · obtain ⟨block, hblock, hdelta⟩ := (Option.any_eq_true _ _).mp hlegal
    have hwritable := h.writable_of hblock
    refine SimulatesAt.goesOn (writeDelta_apply delta s) (if_pos hlegal)
      (show _ = some (o.shape s.contentIndex) from ?_) ⟨?_, rfl⟩
    · rw [Outline.shape_open hwritable hblock, Monitor.run_single]
      exact if_pos ⟨rfl, hdelta⟩
    · exact h.setBlock o.block "content_block_delta" hwritable (by simp)
        h.text h.thinking h.tool s.contentIndex
  · refine SimulatesAt.givesUp (if_neg hlegal) ?_
    rw [writeDelta_apply, Monitor.run_single]
    show (o.shape s.contentIndex).next (.contentBlockDelta s.contentIndex delta) = none
    by_cases hwritable : o.writable = true
    · rcases hblock : o.block with _ | block
      · rw [Outline.shape_closed hwritable hblock]
        rfl
      · rw [Outline.shape_open hwritable hblock]
        rw [hblock] at hlegal
        exact if_neg fun hboth => hlegal hboth.2
    · rcases Outline.shape_of_not_writable (Bool.eq_false_iff.mpr hwritable) s.contentIndex with
        hshape | hshape
      · rw [hshape]
        rfl
      · rw [hshape]
        rfl

/-- Start a block of one's own unless it is open. -/
theorem performs_enter {isOpen : InboundStream → Bool} {enter : InboundStream → InboundStream}
    {contentBlock : Json} (block : OpenBlock) (hkind : blockType contentBlock = block.kind)
    (hopen : ∀ {s o}, Tracks s o → isOpen s = decide (o.block = some block))
    (henter : ∀ {s o}, Tracks s o → o.writable = true → o.block = none →
      Tracks { enter s with lastEventType := "content_block_start" } { o with block := some block })
    (hindex : ∀ s, (enter s).contentIndex = s.contentIndex) :
    Performs (Emitter.whenever (fun s => !isOpen s)
        ((Emitter.update enter).seq (startBlock contentBlock))) fun o =>
      if o.block = some block then some o
      else if o.writable = true ∧ o.block = none then some { o with block := some block }
      else none := by
  rintro s o _ ⟨h, rfl⟩
  by_cases hblock : o.block = some block
  · have happly : Emitter.whenever (fun s => !isOpen s)
        ((Emitter.update enter).seq (startBlock contentBlock)) s = ([], s) :=
      Emitter.whenever_false (by rw [hopen h, decide_eq_true hblock]; rfl) _
    exact SimulatesAt.goesOn happly (if_pos hblock) rfl ⟨h, rfl⟩
  · have happly : Emitter.whenever (fun s => !isOpen s)
        ((Emitter.update enter).seq (startBlock contentBlock)) s =
        ([.contentBlockStart (enter s).contentIndex contentBlock],
          { enter s with lastEventType := "content_block_start" }) := by
      rw [Emitter.whenever_true (by rw [hopen h, decide_eq_false hblock]; rfl)]
      unfold Emitter.seq Emitter.update
      rw [startBlock_apply]
      rfl
    by_cases hfree : o.writable = true ∧ o.block = none
    · refine SimulatesAt.goesOn happly ((if_neg hblock).trans (if_pos hfree)) ?_
        ⟨henter h hfree.1 hfree.2, rfl⟩
      rw [hindex, reader_start hfree.1 hfree.2, hkind]
      rw [Outline.shape_open (o := { o with block := some block }) hfree.1 rfl]
      rfl
    · refine SimulatesAt.givesUp ((if_neg hblock).trans (if_neg hfree)) ?_
      rw [happly, hindex]
      exact reader_start_none hfree _ _ _

theorem Outline.flush_block {o flushed : Outline} (h : o.flush = some flushed) :
    flushed.block ≠ some .thinking := by
  intro hblock
  unfold Outline.flush at h
  by_cases hopen : o.block = some .thinking
  · rw [if_pos hopen] at h
    rw [← Option.some.inj h] at hblock
    exact absurd hblock (by simp)
  · rw [if_neg hopen] at h
    split_ifs at h
    · rw [← Option.some.inj h] at hblock
      exact hopen hblock
    · rw [← Option.some.inj h] at hblock
      exact absurd hblock (by simp)

/-- Without thinking, the two closings close everything, in either order. -/
theorem Outline.close_both {o : Outline} (h : o.block ≠ some .thinking) :
    o.closeText.closeTool = { o with block := none } ∧
      o.closeTool.closeText = { o with block := none } := by
  obtain ⟨started, block, pending, toolCalls, finished, stopped⟩ := o
  rcases block with _ | _ | _ | kind
  · exact ⟨rfl, rfl⟩
  · exact ⟨rfl, rfl⟩
  · exact absurd rfl h
  · exact ⟨rfl, rfl⟩

/-! ## Signatures -/

theorem performs_takeSignature : Performs
    (Emitter.update fun s => { s with pendingSignature := none }) fun o =>
      some { o with pendingSignature := false } := by
  rintro s o _ ⟨h, rfl⟩
  exact SimulatesAt.goesOn rfl rfl rfl ⟨h.takeSignature, rfl⟩

theorem performs_syntheticThinkingBlock (signature : String) :
    Performs (syntheticThinkingBlock signature) fun o =>
      if o.writable = true ∧ o.block ≠ some .thinking then some { o with block := none }
      else none := by
  refine (performs_closeTextBlock.seq
    (performs_closeToolBlock.seq (performs_signatureBlock signature))).congr ?_
  rintro s ⟨started, block, pending, toolCalls, finished, stopped⟩ _ -
  rcases block with _ | _ | _ | kind <;> simp [Outline.closeText, Outline.closeTool, OpenBlock.isTool, Outline.writable]

theorem closeThinkingBlock_pending (generateSignature : Nat → String) {s : InboundStream}
    {signature : String} (hthinking : s.hasThinkingContentStarted = false)
    (hpending : s.pendingSignature = some signature) :
    closeThinkingBlock generateSignature s =
      syntheticThinkingBlock signature { s with pendingSignature := none } := by
  unfold closeThinkingBlock
  split
  · next signature' _ hsome =>
      rw [hpending] at hsome
      rw [Option.some.inj hsome]
  · next htrue => exact absurd (hthinking.symm.trans htrue) (by simp)
  · next hnone => exact absurd (hpending.symm.trans hnone) (by simp)

/-- Closing the thinking block flushes the signature. -/
theorem performs_closeThinkingBlock (generateSignature : Nat → String) :
    Performs (closeThinkingBlock generateSignature) Outline.flush := by
  rintro s o _ ⟨h, rfl⟩
  by_cases hblock : o.block = some .thinking
  · obtain ⟨htext, hthinking, htool⟩ := h.thinking_open hblock
    have happly : closeThinkingBlock generateSignature s =
        ([.contentBlockDelta s.contentIndex
            (.signature (s.pendingSignature.getD (generateSignature s.contentIndex))),
          .contentBlockStop s.contentIndex],
          { s with
            hasThinkingContentStarted := false
            pendingSignature := none
            lastEventType := "content_block_stop"
            contentIndex := s.contentIndex + 1 }) := by
      unfold closeThinkingBlock
      rw [hthinking]
      show Emitter.seq (writeDelta _) stopBlock _ = _
      unfold Emitter.seq
      rw [writeDelta_apply, stopBlock_apply (by simp)]
      rfl
    have hwritable := h.writable_of hblock
    refine SimulatesAt.goesOn happly (if_pos hblock) ?_
      ⟨h.takeSignature.setBlock _ _ hwritable (fun _ => rfl) htext rfl htool _, rfl⟩
    rw [Outline.shape_open hwritable hblock, Monitor.run_cons]
    show (if s.contentIndex = s.contentIndex ∧ _ then _ else none).bind _ = _
    rw [if_pos ⟨rfl, rfl⟩]
    have hstop := reader_stop hwritable hblock s.contentIndex
    rw [Outline.shape_open hwritable hblock] at hstop
    exact hstop
  · have hthinking : s.hasThinkingContentStarted = false := by
      rw [h.thinking]
      exact decide_eq_false hblock
    cases hpending : s.pendingSignature with
    | none =>
        have hnone : o.pendingSignature = false := by
          rw [← h.signature, hpending]
          rfl
        refine SimulatesAt.goesOn (show _ = (([] : List Event), s) from ?_)
          ((if_neg hblock).trans (if_pos (by rw [hnone]; rfl))) rfl ⟨h, rfl⟩
        unfold closeThinkingBlock
        rw [hthinking, hpending]
    | some signature =>
        have hsome : o.pendingSignature = true := by
          rw [← h.signature, hpending]
          rfl
        refine ((performs_takeSignature.seq (performs_syntheticThinkingBlock signature)) s o _
          ⟨h, rfl⟩).congr ?_ ?_
        · exact closeThinkingBlock_pending generateSignature hthinking hpending
        · unfold Outline.flush
          rw [if_neg hblock, hsome]
          by_cases hwritable : o.writable = true
          · rw [if_neg (by simp), if_pos hwritable]
            exact if_pos ⟨hwritable, hblock⟩
          · rw [if_neg (by simp), if_neg hwritable]
            exact if_neg fun hboth => hwritable hboth.1

/-! ## Deltas -/

@[simp] theorem legal_thinking (thinking : String) :
    (BlockDelta.thinking thinking).legal OpenBlock.thinking.kind = true := rfl

@[simp] theorem legal_text (text : String) : (BlockDelta.text text).legal OpenBlock.text.kind = true :=
  rfl

theorem performs_reasoningDelta (reasoning : String) :
    Performs (reasoningDelta reasoning) fun o => o.next .thinking := by
  have henter : Performs (Emitter.whenever (fun s => !s.hasThinkingContentStarted)
      ((Emitter.update fun s => { s with hasThinkingContentStarted := true }).seq
        (startBlock thinkingBlock))) fun o =>
      if o.block = some .thinking then some o
      else if o.writable = true ∧ o.block = none then some { o with block := some .thinking }
      else none :=
    performs_enter .thinking rfl (fun h => h.thinking)
      (fun {s o} h hwritable hblock => by
        obtain ⟨htext, -, htool⟩ := h.none_open hblock
        exact h.setBlock (some .thinking) "content_block_start"
          hwritable (by simp) htext rfl htool s.contentIndex)
      (fun _ => rfl)
  refine (performs_closeTextBlock.seq (performs_closeToolBlock.seq
    (henter.seq (performs_writeDelta (.thinking reasoning))))).congr ?_
  rintro s ⟨started, block, pending, toolCalls, finished, stopped⟩ _ ⟨h, -⟩
  have hwritable := h.writable
  clear h
  cases started <;> cases stopped <;> rcases block with _ | _ | _ | kind <;>
    simp [Outline.closeText, Outline.closeTool, OpenBlock.isTool, Outline.writable, Outline.next] at hwritable ⊢

theorem performs_bufferSignature (signature : String) :
    Performs (bufferSignature signature) fun o => o.next .signature := by
  rintro s o _ ⟨h, rfl⟩
  refine SimulatesAt.goesOn rfl rfl rfl ⟨?_, rfl⟩
  exact
    { started := h.started, text := h.text, thinking := h.thinking, tool := h.tool, signature := rfl
      toolCalls := h.toolCalls, finished := h.finished, stopped := h.stopped
      begun := h.begun, fresh := h.fresh, writable := h.writable, separated := h.separated }

section Signatures

variable (generateSignature : Nat → String)

theorem performs_redactedDelta (redacted : String) :
    Performs (redactedDelta generateSignature redacted) fun o => o.next .redacted := by
  refine ((performs_closeThinkingBlock generateSignature).seq (performs_closeToolBlock.seq
    (performs_closeTextBlock.seq (performs_block (redactedBlock redacted))))).congr ?_
  rintro s ⟨started, block, pending, toolCalls, finished, stopped⟩ _ ⟨h, -⟩
  have hwritable := h.writable
  clear h
  cases started <;> cases stopped <;> rcases block with _ | _ | _ | kind <;> cases pending <;>
    simp [Outline.closeText, Outline.closeTool, OpenBlock.isTool, Outline.writable, Outline.next, Outline.flush] at hwritable ⊢

theorem performs_textDelta (text : String) :
    Performs (textDelta generateSignature text) fun o => o.next .text := by
  have henter : Performs (Emitter.whenever (fun s => !s.hasTextContentStarted)
      ((Emitter.update fun s => { s with hasTextContentStarted := true }).seq
        (startBlock textBlock))) fun o =>
      if o.block = some .text then some o
      else if o.writable = true ∧ o.block = none then some { o with block := some .text }
      else none :=
    performs_enter .text rfl (fun h => h.text)
      (fun {s o} h hwritable hblock => by
        obtain ⟨-, hthinking, htool⟩ := h.none_open hblock
        exact h.setBlock (some .text) "content_block_start"
          hwritable (by simp) rfl hthinking htool s.contentIndex)
      (fun _ => rfl)
  refine ((performs_closeThinkingBlock generateSignature).seq (performs_closeToolBlock.seq
    (henter.seq (performs_writeDelta (.text text))))).congr ?_
  rintro s ⟨started, block, pending, toolCalls, finished, stopped⟩ _ ⟨h, -⟩
  have hwritable := h.writable
  clear h
  cases started <;> cases stopped <;> rcases block with _ | _ | _ | kind <;> cases pending <;>
    simp [Outline.closeTool, OpenBlock.isTool, Outline.writable, Outline.next, Outline.flush]
      at hwritable ⊢

/-! ## Tool calls -/

theorem pushArguments_keys (index : Int) (arguments : String) (s : InboundStream) :
    (pushArguments index arguments s).toolCalls.map (·.1) = s.toolCalls.map (·.1) := by
  unfold pushArguments
  rw [List.map_map]
  refine List.map_congr_left fun entry _ => ?_
  show (if entry.1 = index then _ else entry).1 = entry.1
  split <;> rfl

theorem performs_argumentsDelta (toolCall : ToolCall) :
    Performs (argumentsDelta toolCall) fun o =>
      if toolCall.functionArguments = "" then some o
      else if o.block.any fun block => isAnthropicToolUseLike block.kind then some o
      else none := by
  by_cases hempty : toolCall.functionArguments = ""
  · unfold argumentsDelta
    rw [if_pos hempty]
    exact Simulates.skip.congr fun _ _ _ _ => (if_pos hempty).symm
  · have hpush : Performs (Emitter.update
        (pushArguments toolCall.index toolCall.functionArguments)) some := by
      rintro s o _ ⟨h, rfl⟩
      refine SimulatesAt.goesOn rfl rfl rfl ⟨?_, rfl⟩
      exact
        { started := h.started, text := h.text, thinking := h.thinking, tool := h.tool
          signature := h.signature, toolCalls := (pushArguments_keys _ _ s).trans h.toolCalls
          finished := h.finished, stopped := h.stopped, begun := h.begun, fresh := h.fresh, writable := h.writable
          separated := h.separated }
    unfold argumentsDelta
    rw [if_neg hempty]
    refine (hpush.seq (performs_writeDelta (.inputJson toolCall.functionArguments))).congr ?_
    intro s o _ _
    exact (if_neg hempty).symm

theorem Tracks.trackToolCall {s : InboundStream} {o : Outline} (h : Tracks s o)
    (hwritable : o.writable = true) (hblock : o.block = none) (toolCall : ToolCall) :
    Tracks { InboundStream.trackToolCall toolCall s with lastEventType := "content_block_start" }
      (o.openTool toolCall.index (toolBlockType toolCall)) where
  started := h.started
  text := (h.none_open hblock).1
  thinking := (h.none_open hblock).2.1
  tool := rfl
  signature := h.signature
  toolCalls := by
    show (s.toolCalls ++ [(toolCall.index, _)]).map Prod.fst = o.toolCalls ++ [toolCall.index]
    rw [List.map_append, h.toolCalls]
    rfl
  finished := h.finished
  stopped := h.stopped
  begun := h.begun
  fresh := h.fresh
  writable := fun _ => hwritable
  separated := fun hlast => absurd hlast (by simp)

/-- A tool block opens between two blocks. -/
theorem performs_openToolBlock (toolCall : ToolCall) :
    Performs ((Emitter.update (trackToolCall toolCall)).seq (startBlock (toolBlock toolCall)))
      fun o =>
        if o.writable = true ∧ o.block = none then
          some (o.openTool toolCall.index (toolBlockType toolCall))
        else none := by
  rintro s o _ ⟨h, rfl⟩
  have happly : ((Emitter.update (trackToolCall toolCall)).seq (startBlock (toolBlock toolCall))) s =
      ([.contentBlockStart s.contentIndex (toolBlock toolCall)],
        { trackToolCall toolCall s with lastEventType := "content_block_start" }) := by
    unfold Emitter.seq Emitter.update
    rw [startBlock_apply]
    rfl
  by_cases hfree : o.writable = true ∧ o.block = none
  · refine SimulatesAt.goesOn happly (if_pos hfree) ?_
      ⟨h.trackToolCall hfree.1 hfree.2 toolCall, rfl⟩
    rw [reader_start hfree.1 hfree.2, Outline.shape_open
      (o := o.openTool toolCall.index (toolBlockType toolCall)) hfree.1 rfl]
    rfl
  · refine SimulatesAt.givesUp (if_neg hfree) ?_
    rw [happly]
    exact reader_start_none hfree _ _ _

theorem performs_startToolCall (toolCall : ToolCall) :
    Performs (startToolCall toolCall) fun o =>
      if o.writable = true ∧ (o.block = none ∨ 0 < toolCall.index ∧ o.block.any OpenBlock.isTool) ∧
          (toolCall.functionArguments = "" ∨ isAnthropicToolUseLike (toolBlockType toolCall)) then
        some (o.openTool toolCall.index (toolBlockType toolCall))
      else none := by
  have hopen := (performs_openToolBlock toolCall).seq (performs_argumentsDelta toolCall)
  have hclose : Performs (if 0 < toolCall.index then closeToolBlock else Emitter.skip) fun o =>
      some (if 0 < toolCall.index ∧ o.block.any OpenBlock.isTool then { o with block := none } else o) := by
    by_cases hindex : 0 < toolCall.index
    · rw [if_pos hindex]
      exact performs_closeToolBlock.congr fun _ _ _ _ => by simp [hindex, Outline.closeTool]
    · rw [if_neg hindex]
      exact Simulates.skip.congr fun _ _ _ _ => by simp [hindex]
  refine (hclose.seq hopen).congr ?_
  rintro s o _ -
  by_cases hfree : o.block = none ∨ 0 < toolCall.index ∧ o.block.any OpenBlock.isTool
  · have hnone : (if 0 < toolCall.index ∧ o.block.any OpenBlock.isTool then
        { o with block := none } else o) = ({ o with block := none } : Outline) := by
      rcases hfree with hblock | hclosed
      · rw [if_neg (by simp [hblock]), ← hblock]
      · exact if_pos hclosed
    rw [hnone]
    by_cases hwritable : o.writable = true
    · have hwritable' : ({ o with block := none } : Outline).writable = true := hwritable
      by_cases hempty : toolCall.functionArguments = ""
      · simp [hwritable, hwritable', hfree, hempty, Outline.openTool]
      · by_cases hlike : isAnthropicToolUseLike (toolBlockType toolCall) = true
        · simp [hwritable, hwritable', hfree, hempty, hlike, Outline.openTool, OpenBlock.kind]
        · simp [hwritable, hwritable', hempty, hlike, Outline.openTool, OpenBlock.kind]
    · have hwritable' : ({ o with block := none } : Outline).writable = false :=
        Bool.eq_false_iff.mpr hwritable
      simp [hwritable, hwritable']
  · have hkept : (if 0 < toolCall.index ∧ o.block.any OpenBlock.isTool then
        { o with block := none } else o) = o := if_neg fun hclosed => hfree (.inr hclosed)
    rw [hkept, if_neg fun hboth => hfree hboth.2.1]
    have hblock : o.block ≠ none := fun hblock => hfree (.inl hblock)
    simp [hblock]

theorem performs_toolCallDelta (toolCall : ToolCall) :
    Performs (toolCallDelta toolCall) fun o => o.next (fragmentPart toolCall) := by
  rintro s o _ ⟨h, rfl⟩
  by_cases hseen : toolCall.index ∈ o.toolCalls
  · refine (performs_argumentsDelta toolCall s o _ ⟨h, rfl⟩).congr ?_ ?_
    · unfold toolCallDelta
      rw [h.toolCalls, if_pos hseen]
    · show _ = Outline.fragment _ _ _ o
      unfold Outline.fragment
      rw [if_pos hseen]
      by_cases hempty : toolCall.functionArguments = ""
      · simp [hempty]
      · simp [hempty]
  · refine (performs_startToolCall toolCall s o _ ⟨h, rfl⟩).congr ?_ ?_
    · unfold toolCallDelta
      rw [h.toolCalls, if_neg hseen]
    · show _ = Outline.fragment _ _ _ o
      unfold Outline.fragment
      rw [if_neg hseen]
      by_cases hempty : toolCall.functionArguments = ""
      · simp [hempty]
      · simp [hempty]

theorem performs_toolCallDeltas (toolCalls : List ToolCall) :
    Performs (toolCallDeltas generateSignature toolCalls) fun o =>
      outline.run o (if toolCalls.isEmpty then [] else .toolCalls :: toolCalls.map fragmentPart) := by
  unfold toolCallDeltas
  by_cases hempty : toolCalls.isEmpty
  · rw [if_pos hempty, if_pos hempty]
    exact Simulates.skip
  · rw [if_neg hempty, if_neg hempty]
    refine ((performs_closeThinkingBlock generateSignature).seq (performs_closeTextBlock.seq
      (Simulates.forEach_map outline fragmentPart performs_toolCallDelta toolCalls))).congr ?_
    intro s o _ _
    show o.flush.bind _ = (o.flush.map _).bind _
    cases o.flush <;> rfl

theorem performs_inlineToolResults (results : List InlineToolResult) :
    Performs (inlineToolResults generateSignature results) fun o =>
      outline.run o (if results.isEmpty then []
        else .toolResults :: (results.filterMap toolResultBlockFromInline).map fun _ => .toolResult) := by
  unfold inlineToolResults
  by_cases hempty : results.isEmpty
  · rw [if_pos hempty, if_pos hempty]
    exact Simulates.skip
  · rw [if_neg hempty, if_neg hempty]
    refine ((performs_closeThinkingBlock generateSignature).seq (performs_closeToolBlock.seq
      (performs_closeTextBlock.seq (Simulates.forEach_map outline (fun _ => .toolResult)
        performs_block (results.filterMap toolResultBlockFromInline))))).congr ?_
    intro s o _ _
    show o.flush.bind _ = (o.flush.map _).bind _
    cases hflush : o.flush with
    | none => rfl
    | some flushed =>
        exact congrArg (fun o => outline.run o _)
          (Outline.close_both (Outline.flush_block hflush)).2

theorem performs_messageDelta (delta : LlmMessage) :
    Performs (messageDelta generateSignature delta) fun o => outline.run o (deltaParts delta) := by
  have hreasoning := Simulates.forEach_map outline (fun _ => .thinking) performs_reasoningDelta
    (nonEmpty delta.reasoningContent).toList
  have hsignature := Simulates.forEach_map outline (fun _ => .signature) performs_bufferSignature
    (nonEmpty delta.reasoningSignature).toList
  have hredacted := Simulates.forEach_map outline (fun _ => .redacted)
    (performs_redactedDelta generateSignature) (nonEmpty delta.redactedReasoningContent).toList
  have htext := Simulates.forEach_map outline (fun _ => .text)
    (performs_textDelta generateSignature) (nonEmpty (contentText delta.content)).toList
  have hall := hreasoning.append (hsignature.append (hredacted.append (htext.append
    ((performs_toolCallDeltas generateSignature delta.toolCalls).append
      (performs_inlineToolResults generateSignature delta.inlineToolResults)))))
  unfold deltaParts
  simp only [List.append_assoc]
  exact hall

/-! ## Chunks -/

theorem performs_setFinished : Performs
    (Emitter.update fun s => { s with hasFinished := true }) fun o =>
      some { o with finished := true } := by
  rintro s o _ ⟨h, rfl⟩
  refine SimulatesAt.goesOn rfl rfl rfl ⟨?_, rfl⟩
  exact
    { started := h.started, text := h.text, thinking := h.thinking, tool := h.tool
      signature := h.signature, toolCalls := h.toolCalls, finished := rfl
      stopped := h.stopped, begun := h.begun, fresh := h.fresh, writable := h.writable, separated := h.separated }

theorem performs_setStopReason (finishReason : String) : Performs
    (Emitter.update fun s =>
      { s with stopReason := some (convertFinishReason finishReason) }) some := by
  rintro s o _ ⟨h, rfl⟩
  refine SimulatesAt.goesOn rfl rfl rfl ⟨?_, rfl⟩
  exact
    { started := h.started, text := h.text, thinking := h.thinking, tool := h.tool
      signature := h.signature, toolCalls := h.toolCalls, finished := h.finished
      stopped := h.stopped, begun := h.begun, fresh := h.fresh, writable := h.writable, separated := h.separated }

theorem performs_finish (finishReason : String) :
    Performs (finish generateSignature finishReason) fun o => o.next .finish := by
  rintro s o _ ⟨h, rfl⟩
  by_cases hfinished : o.finished = true
  · have happly : finish generateSignature finishReason s = ([], s) :=
      Emitter.whenever_false (by rw [h.finished, hfinished]; rfl) _
    exact SimulatesAt.goesOn happly (if_pos hfinished) rfl ⟨h, rfl⟩
  · have hclose := performs_setFinished.seq ((performs_closeThinkingBlock generateSignature).seq
      (performs_closeTextBlock.seq (performs_closeToolBlock.seq (performs_setStopReason finishReason))))
    refine (hclose s o _ ⟨h, rfl⟩).congr ?_ ?_
    · exact Emitter.whenever_true (by rw [h.finished, Bool.eq_false_iff.mpr hfinished]; rfl) _
    · show (Outline.flush { o with finished := true }).bind _ = o.next .finish
      unfold Outline.next
      rw [if_neg hfinished]
      cases hflush : Outline.flush { o with finished := true } with
      | none => rfl
      | some flushed => exact congrArg some (Outline.close_both (Outline.flush_block hflush)).1

/-- The last two events are read between two blocks only. -/
theorem reader_close_none {o : Outline} (h : ¬(o.writable = true ∧ o.block = none)) (index : Nat)
    (stopReason : Option String) (usage : Json) (events : List Event) :
    reader.run (o.shape index) (.messageDelta stopReason usage :: events) = none := by
  have hstep : (o.shape index).next (.messageDelta stopReason usage) = none := by
    by_cases hwritable : o.writable = true
    · rcases hblock : o.block with _ | block
      · exact absurd ⟨hwritable, hblock⟩ h
      · rw [Outline.shape_open hwritable hblock]
        rfl
    · rcases Outline.shape_of_not_writable (Bool.eq_false_iff.mpr hwritable) index with hshape | hshape
      · rw [hshape]
        rfl
      · rw [hshape]
        rfl
  rw [Monitor.run_cons]
  show ((o.shape index).next (.messageDelta stopReason usage)).bind _ = none
  rw [hstep]
  rfl

theorem performs_stopMessage (usage : Usage) :
    Performs (stopMessage usage) fun o => o.next .usage := by
  rintro s o _ ⟨h, rfl⟩
  by_cases hready : (o.finished && !o.stopped) = true
  · have happly : stopMessage usage s =
        ([.messageDelta s.stopReason (convertLlmUsageToAnthropic usage), .messageStop],
          { s with lastEventType := "message_stop", messageStopped := true }) := by
      unfold stopMessage
      rw [Emitter.whenever_true (by rw [h.finished, h.stopped]; exact hready)]
      unfold Emitter.seq
      rw [enqueueEvent_apply fun _ hstop => absurd hstop (by simp [Event.eventType]),
        enqueueEvent_apply fun _ hstop => absurd hstop (by simp [Event.eventType])]
      rfl
    by_cases hfree : o.writable = true ∧ o.block = none
    · have hstarted : o.started = true := Outline.started_of_writable hfree.1
      refine SimulatesAt.goesOn happly ((if_pos hready).trans (if_pos hfree))
        (show _ = some Shape.done from ?_) ⟨?_, rfl⟩
      · rw [Outline.shape_closed hfree.1 hfree.2]
        rfl
      · exact
          { started := h.started, text := h.text, thinking := h.thinking, tool := h.tool
            signature := h.signature, toolCalls := h.toolCalls, finished := h.finished
            stopped := rfl, begun := fun _ => hstarted, fresh := h.fresh
            writable := fun hsome => absurd hsome (by simp [hfree.2])
            separated := fun hlast => absurd hlast (by simp) }
    · refine SimulatesAt.givesUp ((if_pos hready).trans (if_neg hfree)) ?_
      rw [happly]
      exact reader_close_none hfree _ _ _ _
  · have happly : stopMessage usage s = ([], s) :=
      Emitter.whenever_false (by rw [h.finished, h.stopped]; exact Bool.eq_false_iff.mpr hready) _
    exact SimulatesAt.goesOn happly (if_neg hready) rfl ⟨h, rfl⟩

theorem performs_startMessage (usage : Option Usage) :
    Performs (startMessage usage) fun o => o.next .start := by
  rintro s o _ ⟨h, rfl⟩
  by_cases hstarted : o.started = true
  · have happly : startMessage usage s = ([], s) :=
      Emitter.whenever_false (by rw [h.started, hstarted]; rfl) _
    have hsame : o.next .start = some o := by
      unfold Outline.next
      rw [← hstarted]
    exact SimulatesAt.goesOn happly hsame rfl ⟨h, rfl⟩
  · have hnot : o.started = false := Bool.eq_false_iff.mpr hstarted
    have hstopped : o.stopped = false := Bool.eq_false_iff.mpr fun hstopped => hstarted (h.begun hstopped)
    have hblock : o.block = none := by
      by_contra hsome
      exact hstarted (Outline.started_of_writable (h.writable (Option.isSome_iff_ne_none.mpr hsome)))
    have happly : startMessage usage s =
        ([.messageStart s.messageId s.model
          ((usage.map convertLlmUsageToAnthropic).getD placeholderUsage)],
          { s with hasStarted := true, lastEventType := "message_start" }) := by
      unfold startMessage
      rw [Emitter.whenever_true (by rw [h.started, hnot]; rfl)]
      unfold Emitter.seq
      rw [enqueueEvent_apply fun _ hstop => absurd hstop (by simp [Event.eventType])]
      rfl
    refine SimulatesAt.goesOn happly rfl
      (show _ = some (Shape.between s.contentIndex) from ?_) ⟨?_, ?_⟩
    · rw [h.fresh hnot]
      unfold Outline.shape
      rw [hstopped, hnot]
      rfl
    · exact
        { started := rfl, text := h.text, thinking := h.thinking, tool := h.tool
          signature := h.signature, toolCalls := h.toolCalls, finished := h.finished
          stopped := h.stopped, begun := fun _ => rfl, fresh := fun hnone => absurd hnone (by simp)
          writable := fun hsome => absurd hsome (by simp [hblock])
          separated := fun hlast => absurd hlast (by simp) }
    · unfold Outline.shape
      rw [hstopped, hblock]
      rfl

theorem performs_initMessage (chunk : LlmResponse) :
    Performs (Emitter.update (initMessage chunk)) some := by
  rintro s o _ ⟨h, rfl⟩
  refine SimulatesAt.goesOn rfl rfl rfl ⟨?_, rfl⟩
  exact
    { started := h.started, text := h.text, thinking := h.thinking, tool := h.tool
      signature := h.signature, toolCalls := h.toolCalls, finished := h.finished
      stopped := h.stopped, begun := h.begun, fresh := h.fresh, writable := h.writable, separated := h.separated }

theorem performs_choiceDelta (choice : Choice) :
    Performs (choiceDelta generateSignature choice) fun o => outline.run o (choiceParts choice) :=
  (Simulates.forEach (performs_messageDelta generateSignature) choice.delta.toList).append
    (Simulates.forEach_map outline (fun _ => .finish) (performs_finish generateSignature)
      choice.finishReason.toList)

theorem performs_processChunk (chunk : LlmResponse) :
    Performs (processChunk generateSignature chunk) fun o => outline.run o (chunkParts chunk) := by
  unfold processChunk chunkParts
  by_cases hdone : chunk.object = "[DONE]"
  · rw [if_pos hdone, if_pos hdone]
    exact Simulates.skip
  · rw [if_neg hdone, if_neg hdone]
    have hstart : Performs (startMessage chunk.usage) fun o => outline.run o [.start] :=
      (performs_startMessage chunk.usage).congr fun _ o _ _ => (Monitor.run_single outline o .start).symm
    have hall := (performs_initMessage chunk).seq (hstart.append
      ((Simulates.forEach (performs_choiceDelta generateSignature) chunk.choices.head?.toList).append
        (Simulates.forEach_map outline (fun _ => .usage) performs_stopMessage chunk.usage.toList)))
    rw [List.append_assoc]
    exact hall

end Signatures

end Conduit.Transformers.Anthropic
