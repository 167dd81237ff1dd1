import Conduit.UsageRecovery.Logic.Budget
import Conduit.UsageRecovery.Logic.CutOff

/-!
# What holds of the journal in every run

An accepted event stays pending in the synced log until it is acknowledged, and
opening the journal restores its index file. That needs crashes that leave no
part of a record at the end of the log: the reader stops there, before the
index files are rebuilt. The journal stays within its configured size while it
runs.
-/

namespace Conduit.UsageRecovery

open Base Base.Crashing

variable {Usage : Type}

/-! ## Careful runs -/

/-- What is left of the appended bytes is neither none nor all of them. -/
def Disk.Torn (survived : Nat) (disk : Disk) : Prop :=
  disk.wal.synced <+: disk.wal.visible ∧ 0 < survived ∧
    disk.wal.synced.length + survived < disk.wal.visible.length

/-- What a call needs of the state it is made in. -/
def Call.Sound (codec : Codec Usage) (config : UsageRecoveryConfig) (m : Machine Usage)
    (call : Call Usage) : Prop :=
  m.journal.isSome → match call with
    | .open | .reserve _ | .release _ => True
    | .putReady event => PutSound codec config m event
    | .ack key => AckSound codec config m key
    | .replay _ => ReplaySound codec config m

/-- The records of the call read back, and if it is cut off, what it appended
is left as a whole or not at all. -/
def Careful (codec : Codec Usage) (config : UsageRecoveryConfig) (m : Machine Usage)
    (a : Action Usage) : Prop :=
  a.call.Sound codec config m ∧ match a.call.perform codec config m a.left with
    | .returned _ _ none => True
    | .returned _ m (some _) | .crashed m => ¬ m.disk.Torn a.survived

variable {codec : Codec Usage} {config : UsageRecoveryConfig} {m : Machine Usage}

theorem crash_wal {survived : Nat} (files : List (IndexFile × List UInt8))
    (h : ¬ m.disk.Torn survived) :
    (m.crash survived files).disk.wal = ⟨m.disk.wal.synced, m.disk.wal.synced⟩ ∨
      (m.crash survived files).disk.wal = ⟨m.disk.wal.visible, m.disk.wal.visible⟩ := by
  unfold Machine.crash Disk.crash
  dsimp only
  by_cases hextends : m.disk.wal.synced <+: m.disk.wal.visible
  · rw [if_pos hextends]
    rcases Nat.eq_zero_or_pos survived with rfl | hpos
    · left
      rw [Nat.add_zero, ← List.prefix_iff_eq_take.mp hextends]
    · right
      have hall : m.disk.wal.visible.length ≤ m.disk.wal.synced.length + survived :=
        Nat.le_of_not_lt fun hlt => h ⟨hextends, hpos, hlt⟩
      rw [List.take_of_length_le hall]
  · rw [if_neg hextends]
    by_cases hnone : survived = 0
    · rw [if_pos hnone]
      exact .inl rfl
    · rw [if_neg hnone]
      exact .inr rfl

theorem CrashSafe.crash {survived : Nat} {files : List (IndexFile × List UInt8)}
    (h : CrashSafe codec config m) (htorn : ¬ m.disk.Torn survived) :
    Kept codec config (m.crash survived files) := by
  have hclosed : ¬ (m.crash survived files).journal.isSome := Bool.false_ne_true
  rcases crash_wal files htorn with hwal | hwal
  · obtain ⟨records, hlog, howed⟩ := h.synced
    exact ⟨by rw [hwal], records, by rw [hwal]; exact hlog, howed, fun hopen => absurd hopen hclosed⟩
  · obtain ⟨records, hlog, howed⟩ := h.visible
    exact ⟨by rw [hwal], records, by rw [hwal]; exact hlog, howed, fun hopen => absurd hopen hclosed⟩

/-! ## Runs -/

theorem onOpen_safe {α : Type} {t : Crashing (Machine Usage) α} (h : Kept codec config m)
    (ht : m.journal.isSome → Safe t (fun _ m' => Kept codec config m') (CrashSafe codec config) m) :
    Safe (onOpen t) (fun _ m' => Kept codec config m') (CrashSafe codec config) m := by
  refine Safe.observe_bind ?_
  by_cases hopen : m.journal.isSome = true
  · rw [if_pos hopen]
    exact (ht hopen).bind fun _ _ h' => Safe.pure h'
  · rw [if_neg hopen]
    exact Safe.pure h

theorem Call.perform_safe {call : Call Usage} (h : Kept codec config m)
    (hsound : call.Sound codec config m) :
    Safe (call.perform codec config) (fun _ m' => Kept codec config m') (CrashSafe codec config) m := by
  cases call with
  | «open» => exact (openJournal_safe h).bind fun _ _ h' => Safe.pure h'.1
  | reserve requestKey => exact onOpen_safe h fun hopen => reserve_safe h hopen requestKey
  | release requestKey => exact onOpen_safe h fun _ => release_safe h requestKey
  | putReady event => exact onOpen_safe h fun hopen => putReady_safe h hopen (hsound hopen)
  | ack key => exact onOpen_safe h fun hopen => ack_safe h (hsound hopen)
  | replay handoff => exact onOpen_safe h fun hopen => replay_safe h (hsound hopen) handoff

theorem kept_init : Kept codec config (system codec config).init :=
  ⟨rfl, [], Journaled.nil, fun _ hevent => absurd hevent List.not_mem_nil, fun hopen => by cases hopen⟩

theorem Kept.step {a : Action Usage} (h : Kept codec config m) (ha : Careful codec config m a) :
    Kept codec config ((system codec config).step m a) := by
  have hend := Call.perform_safe h ha.1 a.left
  have hcrash := ha.2
  show Kept codec config (match a.call.perform codec config m a.left with
    | .returned _ m none => m
    | .returned _ m (some _) | .crashed m => m.crash a.survived a.files)
  cases hperform : a.call.perform codec config m a.left with
  | returned result m' left =>
      rw [hperform] at hend hcrash
      cases left with
      | none => exact hend.1
      | some left => exact hend.1.crashSafe.crash hcrash
  | crashed m' =>
      rw [hperform] at hend hcrash
      exact hend.1.crash hcrash

theorem Kept.run {as : List (Action Usage)}
    (h : (system codec config).Along (Careful codec config) (system codec config).init as) :
    ∀ bs : List (Action Usage), bs <+: as →
      Kept codec config ((system codec config).run (system codec config).init bs) := by
  rintro bs ⟨rest, rfl⟩
  exact TSys.Along.run (fun _ _ hkept hcareful => hkept.step hcareful) bs _ kept_init h.of_append

/-- A complete `open` of a journal that is not open. -/
def Opens (m : Machine Usage) (a : Action Usage) : Prop :=
  a.call = .open ∧ a.left = none ∧ m.journal = none

theorem Kept.replayable {a : Action Usage} (h : Kept codec config m) (ha : Opens m a) :
    Replayable codec config ((system codec config).step m a) := by
  obtain ⟨hcall, hleft, hclosed⟩ := ha
  have hopened : Safe (Call.open.perform codec config)
      (fun _ m' => Replayable codec config m') (CrashSafe codec config) m :=
    (openJournal_safe h).bind fun _ _ h' => Safe.pure (h'.2 hclosed)
  show Replayable codec config (match a.call.perform codec config m a.left with
    | .returned _ m none => m
    | .returned _ m (some _) | .crashed m => m.crash a.survived a.files)
  obtain ⟨result, m', hend, hready⟩ := hopened.complete
  rw [hcall, hleft, hend]
  exact hready

/-- The owed events are pending after the records of the synced log, read up to
the first one that is invalid. -/
def InLog (codec : Codec Usage) (config : UsageRecoveryConfig) (m : Machine Usage) : Prop :=
  ∃ (valid rest : List UInt8) (pending : List (MeteredEvent Usage)),
    m.disk.wal.synced = valid ++ rest ∧ readJournal codec config [] valid = some pending ∧
      decodeLine codec (readLine (config.maxEventBytes + 1024) rest) = none ∧
      ∀ event ∈ m.owed, event ∈ pending

theorem Kept.inLog (h : Kept codec config m) : InLog codec config m := by
  obtain ⟨records, hlog, howed, _⟩ := h.log
  refine ⟨m.disk.wal.synced, [], pendingOf records, (List.append_nil _).symm, ?_, rfl, howed⟩
  rw [h.synced]
  exact hlog.read

/-- The owed events are in the log throughout, and whenever the journal is
opened, `replay` finds every one of them. -/
def NothingLost (codec : Codec Usage) (config : UsageRecoveryConfig) (as : List (Action Usage)) :
    Prop :=
  ∀ (bs : List (Action Usage)), bs <+: as →
    InLog codec config ((system codec config).run (system codec config).init bs) ∧
      ∀ (cs : List (Action Usage)) (a : Action Usage), bs = cs ++ [a] →
        Opens ((system codec config).run (system codec config).init cs) a →
        Replayable codec config ((system codec config).run (system codec config).init bs)

theorem nothing_lost (codec : Codec Usage) (config : UsageRecoveryConfig)
    (as : List (Action Usage))
    (h : (system codec config).Along (Careful codec config) (system codec config).init as) :
    NothingLost codec config as := by
  intro bs hbs
  refine ⟨(Kept.run h bs hbs).inLog, ?_⟩
  rintro cs a rfl hopens
  have hcs : cs <+: as := (List.prefix_append cs [a]).trans hbs
  rw [TSys.run_append]
  exact (Kept.run h cs hcs).replayable hopens

/-! ## The size of the journal -/

/-- Any event of the allowed size fits for every reservation, in the log, in its
index file and with its acknowledgement. -/
def Meterable (codec : Codec Usage) (config : UsageRecoveryConfig) (m : Machine Usage) : Prop :=
  ∀ event : String → MeteredEvent Usage,
    (∀ key ∈ m.state.reserved, (event key).eventKey = key ∧
      (codec.eventJson (event key)).length ≤ config.maxEventBytes) →
    satU64 (used m.disk + (m.state.reserved.map fun key =>
      (codec.line (.ready (event key))).length + (codec.eventJson (event key)).length +
        (codec.line (.ack key)).length).sum) ≤ config.maxBytes

theorem Budgeted.meterable (hframed : Framed codec) (h : Budgeted config m) :
    Meterable codec config m := by
  intro event hevent
  have hslots : ∀ keys : List String, (∀ key ∈ keys, key ∈ m.state.reserved) →
      (keys.map fun key => (codec.line (.ready (event key))).length +
        (codec.eventJson (event key)).length + (codec.line (.ack key)).length).sum ≤
          keys.length * slotBytes config := by
    intro keys hkeys
    induction keys with
    | nil => exact Nat.zero_le _
    | cons key keys ih =>
        have hreserved := hkeys key List.mem_cons_self
        have hrest := ih fun other hother => hkeys other (List.mem_cons_of_mem _ hother)
        have hsize := (hevent key hreserved).2
        rw [List.map_cons, List.sum_cons, hframed.readyLine, hframed.ackLine (h.valid key hreserved),
          List.length_cons, Nat.succ_mul]
        unfold slotBytes at hrest ⊢
        omega
  exact satU64_le_of_le ((Nat.add_le_add_left (hslots _ fun _ hin => hin) _).trans h.fits)

theorem budgeted_idle : Budgeted config (idle [] : Machine Usage) where
  opened := rfl
  fits := by
    show 0 + 0 * slotBytes config ≤ config.maxBytes
    omega
  spare _ := .inl rfl
  ready _ _ hread := by cases hread
  tmp _ := rfl
  valid _ hkey := absurd hkey List.not_mem_nil

theorem Budgeted.step {call : Call Usage} (hframed : Framed codec)
    (hsmall : config.maxBytes < UInt64.size - 1) (h : Budgeted config m)
    (hlong : call.LongEvent codec) :
    Budgeted config ((system codec config).step m (uncut call)) := by
  obtain ⟨result, m', hend, hm'⟩ := (Call.perform_budget hframed hsmall h hlong).complete
  show Budgeted config (match call.perform codec config m none with
    | .returned _ m none => m
    | .returned _ m (some _) | .crashed m => m.crash 0 [])
  rw [hend]
  exact hm'

theorem Budgeted.run {calls : List (Call Usage)} (hframed : Framed codec)
    (hsmall : config.maxBytes < UInt64.size - 1) (hlong : ∀ call ∈ calls, call.LongEvent codec) :
    Budgeted config ((system codec config).run (system codec config).init
      (uncut .open :: calls.map uncut)) := by
  rw [TSys.run_cons, step_open]
  induction calls using List.reverseRecOn with
  | nil => exact budgeted_idle
  | append_singleton calls call ih =>
      rw [List.map_append, TSys.run_append]
      exact (ih fun other hother => hlong other (List.mem_append_left _ hother)).step hframed hsmall
        (hlong call (List.mem_append_right _ List.mem_cons_self))

/-- The size of the journal is within the budget, also inside of a call, and
every reservation can be used. -/
theorem journal_within_budget (codec : Codec Usage) (config : UsageRecoveryConfig)
    (calls : List (Call Usage)) (hframed : Framed codec)
    (hlong : ∀ call ∈ calls, call.LongEvent codec) (taken : List (Call Usage))
    (htaken : taken <+: calls) :
    let m := (system codec config).run (system codec config).init (uncut .open :: taken.map uncut)
    Within config m.disk ∧ Meterable codec config m ∧
      ∀ (call : Call Usage), taken ++ [call] <+: calls → ∀ left : Option Nat,
        Within config (call.perform codec config m left).state.disk := by
  dsimp only
  rcases Nat.lt_or_ge config.maxBytes (UInt64.size - 1) with hsmall | hlarge
  · have hbudget : Budgeted config ((system codec config).run (system codec config).init
        (uncut .open :: taken.map uncut)) :=
      Budgeted.run hframed hsmall fun call hcall => hlong call (htaken.subset hcall)
    refine ⟨hbudget.within, hbudget.meterable hframed, ?_⟩
    intro call hcall left
    have hnext := hlong call (hcall.subset (List.mem_append_right _ List.mem_cons_self))
    exact (Call.perform_budget hframed hsmall hbudget hnext).throughout
      (fun _ _ hm => hm.within) left
  · exact ⟨satU64_le_of_large hlarge, fun _ _ => satU64_le_of_large hlarge,
      fun _ _ _ => satU64_le_of_large hlarge⟩

/-! ## A run that is cut off -/

theorem careful_of_nothing_survived {a : Action Usage} (h : a.call.Sound codec config m)
    (hsurvived : a.survived = 0) : Careful codec config m a := by
  have hwhole : ∀ disk : Disk, ¬ disk.Torn a.survived := by
    rintro disk ⟨_, hpos, _⟩
    rw [hsurvived] at hpos
    exact Nat.lt_irrefl 0 hpos
  refine ⟨h, ?_⟩
  match a.call.perform codec config m a.left with
  | .returned _ _ none => trivial
  | .returned _ _ (some _) => exact hwhole _
  | .crashed _ => exact hwhole _

/-- The run is careful when nothing of the second record is left. -/
theorem careful_cutRun {requestKey requestKey' : String} {event event' : MeteredEvent Usage}
    (h : Fits codec config requestKey requestKey' event event') :
    (system codec config).Along (Careful codec config) (system codec config).init
      (cutRun requestKey requestKey' event event' 0 ++ [uncut .open]) := by
  have hcapacity : config.maxEventBytes * 2 + 1024 ≤ config.maxBytes :=
    (Nat.le_add_left _ _).trans h.capacity
  refine ⟨careful_of_nothing_survived (fun _ => trivial) rfl, ?_⟩
  rw [step_open]
  refine ⟨careful_of_nothing_survived (fun _ => trivial) rfl, ?_⟩
  rw [step_reserve_idle hcapacity]
  refine ⟨careful_of_nothing_survived (fun _ _ => ⟨h.first.back, fun _ other hother => ?_⟩) rfl, ?_⟩
  · exact absurd hother List.not_mem_nil
  rw [step_putReady_idle h.first]
  refine ⟨careful_of_nothing_survived (fun _ => trivial) rfl, ?_⟩
  rw [step_reserve_accepted h.capacity]
  refine ⟨careful_of_nothing_survived (fun _ _ => ⟨h.second.back, fun _ other hother hkey => ?_⟩) rfl,
    careful_of_nothing_survived (fun _ => trivial) rfl, trivial⟩
  rw [List.mem_singleton.mp hother] at hkey
  exact absurd hkey h.distinct

def eventKey₁ : String := "22ef960e05ecc6d43f2cbed6bf3e58896d764ac398fcd090b38eef06db7956f3"

def eventKey₂ : String := "6d53e4c1fa2f6b8028b72bea7ac3275f3e6e49acd707fc2e74ea4c7aeff4aec5"

def utf8 (text : String) : List UInt8 := text.toByteArray.data.toList

/-- A `CreateUsageLogInput`. -/
def usageText (requestId : String) : String :=
  "\x7b\"id\":\"" ++ requestId ++ "\",\"project_id\":\"1\",\"request_id\":\"" ++ requestId ++
  "\",\"api_key_id\":null,\"channel_id\":null,\"model_id\":\"m\",\"prompt_tokens\":1," ++
  "\"completion_tokens\":1,\"total_tokens\":2,\"prompt_audio_tokens\":0," ++
  "\"prompt_cached_tokens\":0,\"prompt_write_cached_tokens\":0," ++
  "\"prompt_write_cached_tokens_5m\":0,\"prompt_write_cached_tokens_1h\":0," ++
  "\"completion_audio_tokens\":0,\"completion_reasoning_tokens\":0," ++
  "\"completion_accepted_prediction_tokens\":0,\"completion_rejected_prediction_tokens\":0," ++
  "\"source\":\"api\",\"format\":\"openai/chat_completions\",\"total_cost\":null," ++
  "\"cost_items\":[],\"cost_price_reference_id\":null,\"created_at\":\"2026-01-01T00:00:00Z\"\x7d"

def eventBytes (event : MeteredEvent String) : List UInt8 :=
  utf8 "\x7b\"version\":" ++ utf8 (toString event.version) ++ utf8 ",\"event_key\":\"" ++
  utf8 event.eventKey ++ utf8 "\",\"reservation_key\":" ++
  (event.reservationKey.elim (utf8 "null") fun key => utf8 "\"" ++ utf8 key ++ utf8 "\"") ++
  utf8 ",\"usage\":" ++ utf8 event.usage ++ utf8 "\x7d"

def recordBytes : JournalRecord String → List UInt8
  | .ready event => utf8 "\x7b\"kind\":\"Ready\",\"event\":" ++ eventBytes event ++ utf8 "\x7d"
  | .ack key => utf8 "\x7b\"kind\":\"Ack\",\"key\":\"" ++ utf8 key ++ utf8 "\"\x7d"

def frameBytes (payload : JournalRecord String) (checksum : String) : List UInt8 :=
  utf8 "\x7b\"payload\":" ++ recordBytes payload ++ utf8 ",\"checksum\":\"" ++ utf8 checksum ++
  utf8 "\"\x7d"

def event₁ : MeteredEvent String := ⟨1, eventKey₁, none, usageText "1"⟩

def event₂ : MeteredEvent String := ⟨1, eventKey₂, none, usageText "2"⟩

/-- The digests of what the runs below hash. -/
def digests : List (List UInt8 × String) := [
  (utf8 "usage:v1:api:r1", eventKey₁),
  (utf8 "usage:v1:api:r2", eventKey₂),
  (recordBytes (.ready event₁), "df7c6bf746e2224cc42602d67b3317ccd490c137f09b75635f7065fa3c38facd"),
  (recordBytes (.ready event₂), "16af439168384fd2b7322863ee3bdcdbaa986feba5cea2a2083f5ab00c1202e3"),
  (recordBytes (.ack eventKey₁), "f286515554f36b83c51f5cd38d5684b9d73c7dd54757149c2993dbd371ed6510")]

def digest (bytes : List UInt8) : String := (digests.lookup bytes).getD eventKey₁

/-- The texts as `serde_json` writes them; of the others it reads none. -/
def textCodec : Codec String where
  recordJson := recordBytes
  frameJson := frameBytes
  readFrame line :=
    ([.ready event₁, .ready event₂, .ack eventKey₁].map fun payload =>
      (payload, digest (recordBytes payload))).find? fun frame =>
        frameBytes frame.1 frame.2 ++ [10] = line
  eventJson := eventBytes
  readEvent bytes := [event₁, event₂].find? fun event => eventBytes event = bytes
  sha256 := digest

def defaults : UsageRecoveryConfig := ⟨1073741824, 65536, 100⟩

theorem validKey_digests : ∀ entry ∈ digests, validKey entry.2 = true := by decide

theorem validKey_eventKey₁ : validKey eventKey₁ = true :=
  validKey_digests (utf8 "usage:v1:api:r1", eventKey₁) List.mem_cons_self

theorem validKey_eventKey₂ : validKey eventKey₂ = true :=
  validKey_digests (utf8 "usage:v1:api:r2", eventKey₂)
    (List.mem_cons_of_mem _ List.mem_cons_self)

theorem validKey_digest (bytes : List UInt8) : validKey (digest bytes) = true := by
  unfold digest
  cases hfound : digests.lookup bytes with
  | none => exact validKey_eventKey₁
  | some key =>
      obtain ⟨before, after, hsplit, _⟩ := List.lookup_eq_some_iff.mp hfound
      apply validKey_digests (bytes, key)
      rw [hsplit]
      exact List.mem_append_right _ List.mem_cons_self

theorem fits_textCodec : Fits textCodec defaults "r1" "r2" event₁ event₂ where
  first := ⟨⟨rfl, validKey_eventKey₁, by decide +kernel⟩, by decide +kernel,
    ⟨by decide +kernel, by decide +kernel, by decide +kernel, by
      intro event heq
      rw [← JournalRecord.ready.inj heq]
      decide +kernel⟩⟩
  second := ⟨⟨rfl, validKey_eventKey₂, by decide +kernel⟩, by decide +kernel,
    ⟨by decide +kernel, by decide +kernel, by decide +kernel, by
      intro event heq
      rw [← JournalRecord.ready.inj heq]
      decide +kernel⟩⟩
  distinct := by decide
  capacity := by decide +kernel

/-- One byte of the second record is left, and no index file. -/
theorem torn_tail_lost : ¬ NothingLost textCodec defaults
    (cutRun "r1" "r2" event₁ event₂ 1 ++ [uncut .open]) := by
  intro h
  have hopens : Opens ((system textCodec defaults).run (system textCodec defaults).init
      (cutRun "r1" "r2" event₁ event₂ 1)) (uncut .open) := by
    rw [run_cutRun fits_textCodec]
    exact ⟨rfl, rfl, rfl⟩
  have hpart : 1 < (textCodec.line (.ready event₂)).length := by decide +kernel
  exact not_replayable_of_torn fits_textCodec Nat.one_pos hpart
    ((h _ List.prefix_rfl).2 _ _ rfl hopens)

theorem nothing_lost_cutRun : NothingLost textCodec defaults
    (cutRun "r1" "r2" event₁ event₂ 0 ++ [uncut .open]) :=
  nothing_lost textCodec defaults _ (careful_cutRun fits_textCodec)

theorem utf8_eq_flatMap (text : String) : utf8 text = text.toList.flatMap String.utf8EncodeChar := by
  calc utf8 text
      = (String.ofList text.toList).toByteArray.data.toList := by
        rw [String.ofList_toList]
        rfl
    _ = text.toList.flatMap String.utf8EncodeChar := by
        rw [String.toByteArray_ofList, List.utf8Encode, List.toList_data_toByteArray]

theorem utf8Size_hexDigit {c : Char}
    (h : (c.isDigit || ('a' ≤ c && c ≤ 'f') || ('A' ≤ c && c ≤ 'F')) = true) : c.utf8Size = 1 := by
  have hascii : c.val ≤ 0x7f := by
    simp only [Char.isDigit, Char.le_def, Bool.or_eq_true, Bool.and_eq_true, decide_eq_true_eq] at h
    rw [UInt32.le_iff_toNat_le]
    rcases h with (h | h) | h
    all_goals
      have hle := UInt32.le_iff_toNat_le.mp h.2
      exact hle.trans (by decide)
  simp [Char.utf8Size, hascii]

theorem length_utf8_validKey {key : String} (h : validKey key = true) : (utf8 key).length = 64 := by
  unfold validKey at h
  rw [Bool.and_eq_true, beq_iff_eq, List.all_eq_true] at h
  obtain ⟨hlength, hdigits⟩ := h
  have hbytes : ∀ cs : List Char, (∀ c ∈ cs, c.utf8Size = 1) →
      (cs.flatMap String.utf8EncodeChar).length = cs.length := by
    intro cs hcs
    induction cs with
    | nil => rfl
    | cons c cs ih =>
        rw [List.flatMap_cons, List.length_append, String.length_utf8EncodeChar,
          hcs c List.mem_cons_self, ih fun other hother => hcs other (List.mem_cons_of_mem _ hother),
          List.length_cons, Nat.add_comm]
  rw [utf8_eq_flatMap, hbytes _ fun c hc => utf8Size_hexDigit (hdigits c hc), hlength]

theorem length_frameBytes (payload : JournalRecord String) (checksum : String) :
    (frameBytes payload checksum).length =
      (recordBytes payload).length + (utf8 checksum).length + 26 := by
  have hbefore : (utf8 "\x7b\"payload\":").length = 11 := by decide
  have hbetween : (utf8 ",\"checksum\":\"").length = 13 := by decide
  have hafter : (utf8 "\"\x7d").length = 2 := by decide
  unfold frameBytes
  rw [List.length_append, List.length_append, List.length_append, List.length_append, hbefore,
    hbetween, hafter]
  omega

theorem frameJson_textCodec (payload : JournalRecord String) :
    textCodec.frameJson payload (textCodec.checksum payload) =
      frameBytes payload (digest (recordBytes payload)) := rfl

theorem framed_textCodec : Framed textCodec where
  ready event := by
    have hbefore : (utf8 "\x7b\"kind\":\"Ready\",\"event\":").length = 24 := by decide
    have hafter : (utf8 "\x7d").length = 1 := by decide
    have hrecord : (recordBytes (.ready event)).length = (eventBytes event).length + 25 := by
      unfold recordBytes
      rw [List.length_append, List.length_append, hbefore, hafter]
      omega
    rw [frameJson_textCodec, length_frameBytes, length_utf8_validKey (validKey_digest _), hrecord]
    rfl
  ack key hkey := by
    have hbefore : (utf8 "\x7b\"kind\":\"Ack\",\"key\":\"").length = 21 := by decide
    have hafter : (utf8 "\"\x7d").length = 2 := by decide
    have hrecord : (recordBytes (.ack key)).length = 87 := by
      unfold recordBytes
      rw [List.length_append, List.length_append, hbefore, hafter, length_utf8_validKey hkey]
    rw [frameJson_textCodec, length_frameBytes, length_utf8_validKey (validKey_digest _), hrecord]
  digest := validKey_digest

theorem journal_within_budget_oneRequest :
    let m := (system textCodec defaults).run (system textCodec defaults).init
      (uncut .open :: [Call.reserve "r1", .putReady event₁, .ack eventKey₁].map uncut)
    Within defaults m.disk ∧ Meterable textCodec defaults m :=
  have hlong : ∀ call ∈ [Call.reserve "r1", .putReady event₁, .ack eventKey₁],
      call.LongEvent textCodec := by
    intro call hcall
    simp only [List.mem_cons, List.not_mem_nil, or_false] at hcall
    rcases hcall with rfl | rfl | rfl
    · trivial
    · show (textCodec.line (.ack eventKey₁)).length ≤ (eventBytes event₁).length
      decide +kernel
    · trivial
  have h := journal_within_budget textCodec defaults _ framed_textCodec hlong _ List.prefix_rfl
  ⟨h.1, h.2.1⟩

end Conduit.UsageRecovery
