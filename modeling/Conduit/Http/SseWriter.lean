import Conduit.Base.Utf8
import Conduit.Http.Logic.Sse

/-!
# Writing server-sent events

`push_sse_frame` writes the field name, a colon and the value, without a space
between them; `parse_sse_frames` drops one space after the colon, as the format
has it. A value that starts with a space is read back without it.

`parse_frames` gives the exact result of parsing what was written: every frame
with its values read so, or the error of the first one over the size limit.
-/

namespace Conduit.Http.Sse

open Base Base.Text

/-! ## The writer -/

/-- `str::replace` of `\r\n` with `\n`. -/
def replaceCrLf : List Char → List Char
  | '\r' :: '\n' :: rest => '\n' :: replaceCrLf rest
  | c :: rest => c :: replaceCrLf rest
  | [] => []

/-- Every end of line as a line feed. -/
def normalizeNewlines (data : String) : String :=
  String.ofList ((replaceCrLf data.toList).map fun c => if c = '\r' then '\n' else c)

def pushSseFrame (output eventType data : String) : String :=
  let eventType := String.ofList (eventType.toList.filter fun c => c != '\r' && c != '\n')
  let output := if eventType = "" then output else output ++ "event:" ++ eventType ++ "\n"
  (splitOn '\n' (normalizeNewlines data)).foldl
    (fun output line => output ++ "data:" ++ line ++ "\n") output ++ "\n"

/-- The event and its data, as `live_sse_text` pushes them. -/
structure WrittenEvent where
  eventType : String
  data : String
deriving DecidableEq, Repr

/-- One frame after the other. -/
def writeFrames (events : List WrittenEvent) : String :=
  events.foldl (fun output event => pushSseFrame output event.eventType event.data) ""

/-! ## What is written -/

/-- No end of line. -/
def OneLine (text : List Char) : Prop := ∀ c ∈ text, c ≠ '\r' ∧ c ≠ '\n'

/-- The lines of a frame, without their ends and the blank line. -/
def fieldLines (event : WrittenEvent) : List String :=
  (if event.eventType = "" then [] else ["event:" ++ event.eventType]) ++
    (splitOn '\n' (normalizeNewlines event.data)).map ("data:" ++ ·)

/-- Lines and their ends. -/
def linesBytes (lines : List String) : List UInt8 :=
  lines.flatMap fun line => asBytes line ++ [10]

def frameBytes (event : WrittenEvent) : List UInt8 := linesBytes (fieldLines event) ++ [10]

theorem filter_oneLine {text : List Char} (h : OneLine text) :
    text.filter (fun c => c != '\r' && c != '\n') = text := by
  refine List.filter_eq_self.mpr fun c hc => ?_
  simp [(h c hc).1, (h c hc).2]

theorem asBytes_foldl (output : String) (lines : List String) :
    asBytes (lines.foldl (fun output line => output ++ "data:" ++ line ++ "\n") output) =
      asBytes output ++ linesBytes (lines.map ("data:" ++ ·)) := by
  induction lines generalizing output with
  | nil => simp [linesBytes]
  | cons line lines ih =>
      have hend : asBytes "\n" = [10] := by decide
      rw [List.foldl_cons, ih]
      simp only [asBytes_append, List.append_assoc, List.map_cons, linesBytes, List.flatMap_cons,
        hend]

theorem asBytes_pushSseFrame {event : WrittenEvent} (h : OneLine event.eventType.toList)
    (output : String) :
    asBytes (pushSseFrame output event.eventType event.data) =
      asBytes output ++ frameBytes event := by
  have hend : asBytes "\n" = [10] := by decide
  unfold pushSseFrame frameBytes fieldLines
  dsimp only
  rw [filter_oneLine h, String.ofList_toList, asBytes_append, asBytes_foldl, hend]
  by_cases hempty : event.eventType = ""
  · rw [if_pos hempty, if_pos hempty, List.nil_append, List.append_assoc]
  · rw [if_neg hempty, if_neg hempty]
    simp only [asBytes_append, hend, linesBytes, List.flatMap_append, List.flatMap_cons,
      List.flatMap_nil, List.append_assoc, List.append_nil]

theorem asBytes_writeFrames {events : List WrittenEvent}
    (h : ∀ event ∈ events, OneLine event.eventType.toList) :
    asBytes (writeFrames events) = events.flatMap frameBytes := by
  have hfold : ∀ (rest : List WrittenEvent) (output : String), (∀ event ∈ rest, event ∈ events) →
      asBytes (rest.foldl (fun output event => pushSseFrame output event.eventType event.data)
        output) = asBytes output ++ rest.flatMap frameBytes := by
    intro rest
    induction rest with
    | nil => simp
    | cons event rest ih =>
        intro output hmem
        rw [List.foldl_cons, ih _ fun e he => hmem e (List.mem_cons_of_mem _ he),
          asBytes_pushSseFrame (h event (hmem event List.mem_cons_self)), List.flatMap_cons,
          List.append_assoc]
  exact (hfold events "" fun _ he => he).trans (List.nil_append _)

/-! ## Lines and fields, as they are read -/

theorem readSseLine_bytes {bytes : List UInt8} (h : ∀ b ∈ bytes, b ≠ 10 ∧ b ≠ 13)
    (rest : List UInt8) : readSseLine (bytes ++ 10 :: rest) = some (bytes, rest) := by
  induction bytes with
  | nil => rfl
  | cons b bytes ih =>
      obtain ⟨hfeed, hreturn⟩ := h b List.mem_cons_self
      show readSseLine (b :: (bytes ++ 10 :: rest)) = _
      unfold readSseLine
      rw [if_neg hfeed, if_neg hreturn, ih fun c hc => h c (List.mem_cons_of_mem _ hc)]
      rfl

/-- The bytes of a line hold no end of line. -/
theorem asBytes_oneLine {text : String} (h : OneLine text.toList) :
    ∀ b ∈ asBytes text, b ≠ 10 ∧ b ≠ 13 := by
  intro b hb
  obtain ⟨c, hc, hmem⟩ := List.mem_flatMap.mp hb
  obtain ⟨hreturn, hfeed⟩ := h c hc
  constructor
  · rintro rfl
    exact hfeed (Char.toNat_inj.mp (mem_encodeChar_ascii (by decide) hmem).1)
  · rintro rfl
    exact hreturn (Char.toNat_inj.mp (mem_encodeChar_ascii (by decide) hmem).1)

/-- The value of a field: one space after the colon is not part of it. -/
def dropSpace : List Char → List Char
  | ' ' :: text => text
  | text => text

def readValue (text : String) : String := String.ofList (dropSpace text.toList)

theorem splitSseField_asBytes {field : List UInt8} (hfield : ∀ b ∈ field, b ≠ 58) (value : String) :
    splitSseField (field ++ 58 :: asBytes value) = (field, asBytes (readValue value)) := by
  have hskip : ∀ b ∈ field, (b != 58) = true := fun b hb => by simpa using hfield b hb
  unfold splitSseField
  rw [List.dropWhile_append_of_pos hskip, List.takeWhile_append_of_pos hskip]
  simp only [bne_self_eq_false, Bool.false_eq_true, not_false_eq_true,
    List.dropWhile_cons_of_neg, List.takeWhile_cons_of_neg, List.append_nil, Prod.mk.injEq,
    true_and]
  unfold readValue
  cases htext : value.toList with
  | nil => simp [asBytes, htext, dropSpace]
  | cons c text =>
      by_cases hspace : c = ' '
      · subst hspace
        have hbytes : asBytes value = 32 :: text.flatMap String.utf8EncodeChar := by
          unfold asBytes
          rw [htext, List.flatMap_cons]
          rfl
        rw [hbytes]
        simp [dropSpace, asBytes]
      · have hdrop : dropSpace (c :: text) = c :: text := by
          unfold dropSpace
          split
          · next heq => exact absurd (List.cons.inj heq).1 hspace
          · rfl
        rw [hdrop, ← htext, String.ofList_toList]
        split
        · next rest hbytes =>
            -- the first byte would be the first character
            have hmem : (32 : UInt8) ∈ String.utf8EncodeChar c := by
              have hcons : String.utf8EncodeChar c ++ text.flatMap String.utf8EncodeChar =
                  32 :: rest := by
                rw [← hbytes]
                unfold asBytes
                rw [htext, List.flatMap_cons]
              cases hchar : String.utf8EncodeChar c with
              | nil => exact absurd hchar (by simp)
              | cons b bytes =>
                  rw [hchar] at hcons
                  rw [(List.cons.inj hcons).1]
                  exact List.mem_cons_self
            exact absurd (Char.toNat_inj.mp (mem_encodeChar_ascii (by decide) hmem).1) hspace
        · rfl

theorem applyLine_data (pending : PendingSseFrame) (value : String) :
    pending.applyLine (asBytes ("data:" ++ value)) =
      { pending with dataLines := pending.dataLines ++ [readValue value] } := by
  have hbytes : asBytes ("data:" ++ value) = asBytes "data" ++ 58 :: asBytes value := by
    rw [asBytes_append]
    rfl
  unfold PendingSseFrame.applyLine
  rw [hbytes, splitSseField_asBytes (by decide +kernel)]
  dsimp only
  rw [if_pos rfl, fromUtf8Lossy_asBytes]

theorem applyLine_event (pending : PendingSseFrame) (value : String) :
    pending.applyLine (asBytes ("event:" ++ value)) =
      { pending with eventType := some (readValue value) } := by
  have hbytes : asBytes ("event:" ++ value) = asBytes "event" ++ 58 :: asBytes value := by
    rw [asBytes_append]
    rfl
  unfold PendingSseFrame.applyLine
  rw [hbytes, splitSseField_asBytes (by decide +kernel)]
  dsimp only
  rw [if_neg (by decide), if_pos rfl, fromUtf8Lossy_asBytes]

/-! ## Frames, as they are read -/

/-- A line that is a field: not blank and not a comment. -/
def IsField (line : String) : Prop :=
  OneLine line.toList ∧ asBytes line ≠ [] ∧ (asBytes line).head? ≠ some 58

/-- A frame of written lines is read line by line, up to the size limit. -/
theorem parseLines_lines {lines : List String} (hfields : ∀ line ∈ lines, IsField line)
    (maxEventSize : Nat) (event rest : List UInt8) (pending : PendingSseFrame) :
    parseLines maxEventSize event (linesBytes lines ++ 10 :: rest) pending =
      if maxEventSize < (event ++ (linesBytes lines ++ [10])).length then .error ⟨maxEventSize⟩
      else (parseLines maxEventSize [] rest .empty).map fun parsed =>
        ⟨(lines.foldl (fun pending line => pending.applyLine (asBytes line))
            pending).takeFrame.1.toList ++ parsed.frames, parsed.incomplete⟩ := by
  induction lines generalizing event pending with
  | nil =>
      have hread : readSseLine (10 :: rest) = some ([], rest) := rfl
      have hblank : (10 :: rest).take ((10 :: rest).length - rest.length) = [10] := by
        rw [List.length_cons, Nat.add_sub_cancel_left]
        rfl
      show parseLines maxEventSize event (10 :: rest) pending = _
      rw [parseLines_some hread, hblank, if_pos rfl]
      rfl
  | cons line lines ih =>
      obtain ⟨hone, hne, hcomment⟩ := hfields line List.mem_cons_self
      have hsplit : linesBytes (line :: lines) ++ 10 :: rest =
          asBytes line ++ 10 :: (linesBytes lines ++ 10 :: rest) := by
        simp [linesBytes]
      have htake : (asBytes line ++ 10 :: (linesBytes lines ++ 10 :: rest)).take
          ((asBytes line ++ 10 :: (linesBytes lines ++ 10 :: rest)).length -
            (linesBytes lines ++ 10 :: rest).length) = asBytes line ++ [10] := by
        rw [List.append_cons, List.length_append, Nat.add_sub_cancel]
        exact List.take_left
      have hall : event ++ (linesBytes (line :: lines) ++ [10]) =
          event ++ (asBytes line ++ [10]) ++ (linesBytes lines ++ [10]) := by
        simp [linesBytes]
      rw [hsplit, parseLines_some (readSseLine_bytes (asBytes_oneLine hone) _), htake, if_neg hne,
        hall]
      have happly : applyNonBlank pending (asBytes line) = pending.applyLine (asBytes line) := by
        unfold applyNonBlank
        rw [if_neg hcomment]
      rw [happly, ih fun l hl => hfields l (List.mem_cons_of_mem _ hl)]
      by_cases hlong : maxEventSize < (event ++ (asBytes line ++ [10])).length
      · have hlonger : maxEventSize <
            (event ++ (asBytes line ++ [10]) ++ (linesBytes lines ++ [10])).length := by
          rw [List.length_append]
          omega
        rw [if_pos hlong, if_pos hlonger]
      · rw [if_neg hlong]
        rfl

/-- The lines of normalised data. -/
def dataLines (event : WrittenEvent) : List String := splitOn '\n' (normalizeNewlines event.data)

theorem dataLines_oneLine (event : WrittenEvent) :
    ∀ line ∈ dataLines event, OneLine line.toList := by
  intro line hline c hc
  obtain ⟨part, hpart, rfl⟩ := List.mem_map.mp hline
  rw [String.toList_ofList] at hc
  obtain ⟨hmem, hfeed⟩ := mem_splitOn hpart c hc
  refine ⟨?_, hfeed⟩
  rintro rfl
  -- no carriage return is left
  unfold normalizeNewlines at hmem
  rw [String.toList_ofList] at hmem
  obtain ⟨d, -, hd⟩ := List.mem_map.mp hmem
  by_cases hreturn : d = '\r'
  · rw [if_pos hreturn] at hd
    exact absurd hd (by decide)
  · rw [if_neg hreturn] at hd
    exact hreturn hd

theorem dataLines_ne_nil (event : WrittenEvent) : dataLines event ≠ [] := by
  unfold dataLines splitOn
  simp

theorem isField_append {field : String} (hfield : IsField field) {value : String}
    (hvalue : OneLine value.toList) : IsField (field ++ value) := by
  obtain ⟨hone, hne, hcomment⟩ := hfield
  refine ⟨fun c hc => ?_, ?_, ?_⟩
  · rcases List.mem_append.mp (String.toList_append ▸ hc) with hc | hc
    · exact hone c hc
    · exact hvalue c hc
  · rw [asBytes_append]
    exact List.append_ne_nil_of_left_ne_nil hne _
  · rw [asBytes_append, List.head?_append_of_ne_nil _ hne]
    exact hcomment

theorem fieldLines_isField {event : WrittenEvent} (h : OneLine event.eventType.toList) :
    ∀ line ∈ fieldLines event, IsField line := by
  have hdata : IsField "data:" := ⟨by simp [OneLine], by decide, by decide⟩
  have hevent : IsField "event:" := ⟨by simp [OneLine], by decide, by decide⟩
  intro line hline
  rcases List.mem_append.mp hline with hline | hline
  · by_cases hempty : event.eventType = ""
    · rw [if_pos hempty] at hline
      exact absurd hline List.not_mem_nil
    · rw [if_neg hempty, List.mem_singleton] at hline
      rw [hline]
      exact isField_append hevent h
  · obtain ⟨value, hvalue, rfl⟩ := List.mem_map.mp hline
    exact isField_append hdata (dataLines_oneLine event value hvalue)

/-- What a written frame is read as. -/
def readFrame (event : WrittenEvent) : SseFrame where
  lastEventId := none
  eventType := if event.eventType = "" then none else some (readValue event.eventType)
  data := joinWith '\n' ((dataLines event).map readValue)
  retry := none

theorem foldl_applyLine_data (pending : PendingSseFrame) (lines : List String) :
    (lines.map ("data:" ++ ·)).foldl (fun pending line => pending.applyLine (asBytes line)) pending =
      { pending with dataLines := pending.dataLines ++ lines.map readValue } := by
  induction lines generalizing pending with
  | nil => simp
  | cons line lines ih =>
      rw [List.map_cons, List.foldl_cons, applyLine_data, ih]
      simp

theorem takeFrame_fieldLines (event : WrittenEvent) :
    ((fieldLines event).foldl (fun (pending : PendingSseFrame) line =>
      pending.applyLine (asBytes line)) .empty).takeFrame.1 = some (readFrame event) := by
  have hlines : ((dataLines event).map readValue).isEmpty = false := by
    rw [List.isEmpty_eq_false_iff, ne_eq, List.map_eq_nil_iff]
    exact dataLines_ne_nil event
  unfold fieldLines readFrame
  by_cases hempty : event.eventType = ""
  · rw [if_pos hempty, if_pos hempty, List.nil_append]
    refine (congrArg (fun pending => pending.takeFrame.1)
      (foldl_applyLine_data .empty (dataLines event))).trans ?_
    simp only [PendingSseFrame.takeFrame, PendingSseFrame.empty, List.nil_append, hlines]
    rfl
  · rw [if_neg hempty, if_neg hempty, List.singleton_append, List.foldl_cons, applyLine_event]
    refine (congrArg (fun pending => pending.takeFrame.1)
      (foldl_applyLine_data _ (dataLines event))).trans ?_
    simp only [PendingSseFrame.takeFrame, PendingSseFrame.empty, List.nil_append, hlines]
    rfl

/-- Written frames are all read, unless one is over the size limit. -/
theorem parse_frames {events : List WrittenEvent}
    (h : ∀ event ∈ events, OneLine event.eventType.toList) :
    parseSseFrames (asBytes (writeFrames events)) =
      if ∀ event ∈ events, (frameBytes event).length ≤ maxSseEventSize then
        .ok ⟨events.map readFrame, []⟩
      else .error ⟨maxSseEventSize⟩ := by
  rw [asBytes_writeFrames h]
  induction events with
  | nil => exact parseSseFrames_nil
  | cons event events ih =>
      have hrest := ih fun e he => h e (List.mem_cons_of_mem _ he)
      have hbytes : (event :: events).flatMap frameBytes =
          linesBytes (fieldLines event) ++ 10 :: events.flatMap frameBytes := by
        simp [frameBytes]
      unfold parseSseFrames parseSseFramesWithMaxEventSize at hrest ⊢
      rw [hbytes, parseLines_lines (fieldLines_isField (h event List.mem_cons_self)), hrest,
        takeFrame_fieldLines, List.nil_append]
      by_cases hlong : maxSseEventSize < (linesBytes (fieldLines event) ++ [10]).length
      · rw [if_pos hlong, if_neg]
        intro hall
        exact absurd (hall event List.mem_cons_self) (not_le.mpr hlong)
      · rw [if_neg hlong]
        by_cases hall : ∀ e ∈ events, (frameBytes e).length ≤ maxSseEventSize
        · rw [if_pos hall, if_pos]
          · rfl
          · intro e he
            rcases List.mem_cons.mp he with rfl | he
            · exact not_lt.mp hlong
            · exact hall e he
        · rw [if_neg hall, if_neg]
          · rfl
          · exact fun hboth => hall fun e he => hboth e (List.mem_cons_of_mem _ he)

/-! ## The round trip -/

/-- The frame an event stands for: an empty type is no type, and the ends of
lines are normalised. -/
def WrittenEvent.toFrame (event : WrittenEvent) : SseFrame where
  lastEventId := none
  eventType := if event.eventType = "" then none else some event.eventType
  data := normalizeNewlines event.data
  retry := none

/-- The events are read back as written, one by one and together. -/
def RoundTrips (events : List WrittenEvent) : Prop :=
  (∀ event ∈ events,
    parseSseFrames (asBytes (writeFrames [event])) = .ok ⟨[event.toFrame], []⟩) ∧
  parseSseFrames (asBytes (writeFrames events)) = .ok ⟨events.map WrittenEvent.toFrame, []⟩

/-- Neither the type nor a line of the data starts with a space, and the frame
is within the size limit. -/
def Plain (event : WrittenEvent) : Prop :=
  event.eventType.toList.head? ≠ some ' ' ∧
    (∀ line ∈ dataLines event, line.toList.head? ≠ some ' ') ∧
    (frameBytes event).length ≤ maxSseEventSize

theorem readValue_eq_iff (text : String) : readValue text = text ↔ text.toList.head? ≠ some ' ' := by
  unfold readValue
  rw [← String.toList_inj, String.toList_ofList]
  cases text.toList with
  | nil => simp [dropSpace]
  | cons c rest =>
      by_cases hspace : c = ' '
      · subst hspace
        constructor
        · intro heq
          have hlength := congrArg List.length heq
          simp [dropSpace] at hlength
        · intro hhead
          exact absurd rfl hhead
      · have hdrop : dropSpace (c :: rest) = c :: rest := by
          unfold dropSpace
          split
          · next heq => exact absurd (List.cons.inj heq).1 hspace
          · rfl
        rw [hdrop]
        simpa using hspace

theorem readValue_oneLine {text : String} (h : OneLine text.toList) :
    OneLine (readValue text).toList := by
  intro c hc
  refine h c ?_
  unfold readValue at hc
  rw [String.toList_ofList] at hc
  unfold dropSpace at hc
  split at hc
  · next rest heq =>
      rw [heq]
      exact List.mem_cons_of_mem _ hc
  · exact hc

theorem readType_eq_iff (eventType : String) :
    (if eventType = "" then none else some (readValue eventType)) =
      (if eventType = "" then none else some eventType) ↔ eventType.toList.head? ≠ some ' ' := by
  by_cases hempty : eventType = ""
  · rw [if_pos hempty, if_pos hempty, hempty]
    simp
  · rw [if_neg hempty, if_neg hempty, Option.some.injEq, readValue_eq_iff]

theorem readData_eq_iff (event : WrittenEvent) :
    joinWith '\n' ((dataLines event).map readValue) = normalizeNewlines event.data ↔
      ∀ line ∈ dataLines event, line.toList.head? ≠ some ' ' := by
  have hjoined : joinWith '\n' (dataLines event) = normalizeNewlines event.data :=
    joinWith_splitOn '\n' _
  rw [← hjoined]
  constructor
  · intro hjoin line hline
    have hlines := congrArg (splitOn '\n') hjoin
    have hnot : ∀ text ∈ (dataLines event).map readValue, '\n' ∉ text.toList := by
      intro text htext
      obtain ⟨l, hl, rfl⟩ := List.mem_map.mp htext
      exact fun hmem => (readValue_oneLine (dataLines_oneLine event l hl) _ hmem).2 rfl
    have hnot' : ∀ text ∈ dataLines event, '\n' ∉ text.toList :=
      fun text htext hmem => (dataLines_oneLine event text htext _ hmem).2 rfl
    have hne : (dataLines event).map readValue ≠ [] := by
      rw [ne_eq, List.map_eq_nil_iff]
      exact dataLines_ne_nil event
    rw [splitOn_joinWith_of_not_mem hne hnot,
      splitOn_joinWith_of_not_mem (dataLines_ne_nil event) hnot'] at hlines
    have hsame : (dataLines event).map readValue = (dataLines event).map id := by
      rw [hlines, List.map_id]
    exact (readValue_eq_iff line).mp (List.map_inj_left.mp hsame line hline)
  · intro hplain
    have hlines : (dataLines event).map readValue = (dataLines event).map id :=
      List.map_congr_left fun line hline => (readValue_eq_iff line).mpr (hplain line hline)
    rw [hlines, List.map_id]

theorem readFrame_eq_iff (event : WrittenEvent) :
    readFrame event = event.toFrame ↔ event.eventType.toList.head? ≠ some ' ' ∧
      ∀ line ∈ dataLines event, line.toList.head? ≠ some ' ' := by
  rw [← readType_eq_iff, ← readData_eq_iff]
  unfold readFrame WrittenEvent.toFrame
  rw [SseFrame.mk.injEq]
  constructor
  · rintro ⟨-, htype, hdata, -⟩
    exact ⟨htype, hdata⟩
  · rintro ⟨htype, hdata⟩
    exact ⟨rfl, htype, hdata, rfl⟩

theorem parse_frames_eq_iff {events : List WrittenEvent}
    (h : ∀ event ∈ events, OneLine event.eventType.toList) :
    parseSseFrames (asBytes (writeFrames events)) = .ok ⟨events.map WrittenEvent.toFrame, []⟩ ↔
      ∀ event ∈ events, Plain event := by
  rw [parse_frames h]
  by_cases hsmall : ∀ event ∈ events, (frameBytes event).length ≤ maxSseEventSize
  · rw [if_pos hsmall, Except.ok.injEq, SseParseResult.mk.injEq, List.map_inj_left]
    constructor
    · intro heq event hevent
      obtain ⟨htype, hdata⟩ := (readFrame_eq_iff event).mp (heq.1 event hevent)
      exact ⟨htype, hdata, hsmall event hevent⟩
    · intro hplain
      refine ⟨fun event hevent => (readFrame_eq_iff event).mpr ?_, rfl⟩
      exact ⟨(hplain event hevent).1, (hplain event hevent).2.1⟩
  · rw [if_neg hsmall]
    constructor
    · intro heq
      exact absurd heq (by simp)
    · intro hplain
      exact absurd (fun event hevent => (hplain event hevent).2.2) hsmall

/-- Events are read back as written exactly when no value starts with a space
and no frame is too long. -/
theorem roundTrips_iff (events : List WrittenEvent)
    (h : ∀ event ∈ events, OneLine event.eventType.toList) :
    RoundTrips events ↔ ∀ event ∈ events, Plain event := by
  constructor
  · intro htrip
    exact (parse_frames_eq_iff h).mp htrip.2
  · intro hplain
    refine ⟨fun event hevent => ?_, (parse_frames_eq_iff h).mpr hplain⟩
    have hone : ∀ e ∈ [event], OneLine e.eventType.toList := by
      intro e he
      rw [List.mem_singleton.mp he]
      exact h event hevent
    refine (parse_frames_eq_iff hone).mpr fun e he => ?_
    rw [List.mem_singleton.mp he]
    exact hplain event hevent

/-- A typed event of two lines and one without a type. -/
theorem roundTrips_sample :
    RoundTrips [⟨"message", "a\r\nb: c"⟩, ⟨"", ""⟩] ↔
      ∀ event ∈ [(⟨"message", "a\r\nb: c"⟩ : WrittenEvent), ⟨"", ""⟩], Plain event :=
  roundTrips_iff [⟨"message", "a\r\nb: c"⟩, ⟨"", ""⟩] (by simp [OneLine])

/-- The space before the text is lost. -/
theorem not_roundTrips_space : ¬ RoundTrips [⟨"", " a"⟩] := by
  rintro ⟨-, hread⟩
  rw [parse_frames (by simp [OneLine]), if_pos (by decide)] at hread
  exact absurd hread (by decide)

end Conduit.Http.Sse
