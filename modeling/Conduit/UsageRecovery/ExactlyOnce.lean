import Conduit.Billing.Theorems
import Conduit.UsageRecovery.Logic.Recovery
import Conduit.UsageRecovery.Theorems

/-!
# Exactly one usage log for each metering event

The receipt of a key is the fence: it outlives the usage log, and once it is
linked, a handoff of its key inserts nothing. Whoever hands an event over, in
whatever order and with crashes in between, its key gets at most one usage log
and one outbox row, and the journal forgets the event only after a commit.
-/

namespace Conduit.UsageRecovery

open Base Base.Transaction
open Billing (Calendar Instant OutboxRow UsageLog WalletStatus thirtyDays)
open Recovery (HandedOff Sound Stable)

variable {Usage : Type}

namespace Ledger

/-- The usage logs that were ever inserted for a key. -/
def created (l : Ledger Usage) (key : String) : List Int :=
  (l.metered.filter fun entry => entry.1 == key).map Prod.snd

/-- Their outbox rows; rows of the outbox are never deleted. -/
def outboxRows (l : Ledger Usage) (key : String) : List OutboxRow :=
  l.settler.outbox.filter fun row => row.usageLogId ∈ l.created key

theorem Fenced.created_le_one {l : Ledger Usage} (h : l.Fenced) (key : String) :
    (l.created key).length ≤ 1 := by
  have hcount := List.nodup_iff_count_le_one.mp h.once key
  rw [List.count_eq_countP, List.countP_map, List.countP_eq_length_filter] at hcount
  unfold created
  rw [List.length_map]
  exact hcount

theorem Fenced.outboxRows_le_one {l : Ledger Usage} (h : l.Fenced) (key : String) :
    (l.outboxRows key).length ≤ 1 := by
  have hone := h.created_le_one key
  unfold outboxRows
  match l.created key, hone with
  | [], _ => simp
  | [id], _ =>
      have hcount := List.nodup_iff_count_le_one.mp h.outbox id
      rw [List.count_eq_countP, List.countP_map, List.countP_eq_length_filter] at hcount
      simpa [Function.comp_def, beq_eq_decide] using hcount

end Ledger

/-- Between a state of a run and a later one. -/
structure ExactlyOnce (codec : Codec Usage) (input : UsageInput Usage) (σ σ' : Recovery Usage) :
    Prop where
  usageLogs : ∀ key : String, (σ'.ledger.created key).length ≤ 1
  outboxRows : ∀ key : String, (σ'.ledger.outboxRows key).length ≤ 1
  stay : σ.ledger.metered <+: σ'.ledger.metered ∧
    σ.ledger.settler.outbox.map OutboxRow.usageLogId <+:
      σ'.ledger.settler.outbox.map OutboxRow.usageLogId
  receipt : ∀ (key : String) (id : Int), σ.ledger.usageLogOf key = some id →
    σ'.ledger.usageLogOf key = some id
  conflict : ∀ other ∈ σ'.ledger.handedOff, ∀ (event : MeteredEvent Usage) (now : Instant),
    event.eventKey = other.eventKey → codec.eventJson event ≠ codec.eventJson other →
    ((handoff codec input now event).commit σ'.ledger).metered = σ'.ledger.metered ∧
      ((handoff codec input now event).commit σ'.ledger).settler = σ'.ledger.settler

/-- The events that were acknowledged in between had been handed over. -/
def AcknowledgedAfterCommit (codec : Codec Usage) (σ σ' : Recovery Usage) : Prop :=
  ∀ event ∈ σ.machine.owed, event ∉ σ'.machine.owed → HandedOff codec σ'.ledger event

theorem exactly_once_handoff (codec : Codec Usage) (config : UsageRecoveryConfig)
    (input : UsageInput Usage) (cal : Calendar) (projects : List (Int × WalletStatus))
    (payload : String → List UInt8) (as bs : List (Recovery.Action Usage)) :
    let system := recovering codec config input cal projects
    ExactlyOnce codec input (system.run system.init as) (system.run system.init (as ++ bs)) ∧
      (system.Along (Stable codec config payload) system.init (as ++ bs) →
        AcknowledgedAfterCommit codec (system.run system.init as)
          (system.run system.init (as ++ bs))) := by
  intro system
  have hfenced : (system.run system.init (as ++ bs)).ledger.Fenced :=
    (Recovery.fenced_inductive projects).invariant _ ⟨as ++ bs, rfl⟩
  have hgrows : (system.run system.init as).ledger.Grows
      (system.run system.init (as ++ bs)).ledger := by
    rw [TSys.run_append]
    exact Recovery.grows_run projects bs _
  refine ⟨⟨hfenced.created_le_one, hfenced.outboxRows_le_one, ⟨hgrows.metered, hgrows.outbox.ids⟩,
    hgrows.links, ?_⟩, ?_⟩
  · intro other hother event now hkey _
    rcases commit_cases (handoff codec input now event) (system.run system.init (as ++ bs)).ledger
      with ⟨handed, hcommits⟩ | hsame
    · exact hfenced.handoff_again hother hkey.symm hcommits
    · rw [hsame]
      exact ⟨rfl, rfl⟩
  · intro hstable event howed hgone
    obtain ⟨hfirst, hlater⟩ := TSys.along_append.mp hstable
    have hsound := (Sound.run projects as _ (Recovery.sound_init projects) hfirst).sound
    rw [TSys.run_append] at hgone ⊢
    exact ((Sound.run projects bs _ hsound hlater).owed event howed).resolve_left hgone

/-! ## The handoff of one request, twice -/

/-- What the journal and `parse` make of `usageText "1"`. -/
def textInput : UsageInput String where
  usageLog _ := .ok ⟨0, 1, 1, 1767225600000000⟩
  requestId _ := .ok 1

def textPayload (key : String) : List UInt8 :=
  if key = eventKey₂ then eventBytes event₂ else eventBytes event₁

theorem textPayload_of_mem {event : MeteredEvent String} (h : event ∈ [event₁, event₂]) :
    textCodec.eventJson event = textPayload event.eventKey := by
  rcases List.mem_cons.mp h with rfl | hlast
  · exact (if_neg (by decide)).symm
  · rw [List.mem_singleton.mp hlast]
    exact (if_pos rfl).symm

theorem readEvent_of_readReady {codec : Codec Usage} {config : UsageRecoveryConfig} {key : String}
    {bytes : List UInt8} {event : MeteredEvent Usage}
    (h : readReady codec config key bytes = .ok event) : codec.readEvent bytes = some event := by
  unfold readReady at h
  split_ifs at h
  cases hread : codec.readEvent bytes with
  | none =>
      rw [hread] at h
      cases h
  | some found =>
      rw [hread] at h
      dsimp only at h
      split_ifs at h
      rw [Except.ok.inj h]

theorem stable_textCodec {a : Recovery.Action String}
    (h : ∀ (event : MeteredEvent String) (cut : Cut), a = .record event cut → event = event₁)
    (σ : Recovery String) : Stable textCodec defaults textPayload σ a := by
  cases a with
  | record event cut =>
      rw [h event cut rfl]
      exact textPayload_of_mem List.mem_cons_self
  | execute i now reply cut =>
      intro key keys done bytes event _ _ hready
      have hread : [event₁, event₂].find? (fun event => eventBytes event = bytes) = some event :=
        readEvent_of_readReady hready
      rw [← (readReady_key hready).1]
      exact textPayload_of_mem (List.mem_of_find?_eq_some hread)
  | _ => trivial

def uncutStep : Cut := ⟨none, 0, []⟩

/-- A replay reads the index file before the recorder hands its event over; the
replay hands it over again, and the process crashes before it acknowledges. -/
def acceptedRun : List (Recovery.Action String) :=
  [.open uncutStep, .reserve "r1" uncutStep, .record event₁ uncutStep, .replay]

def handedTwiceRun : List (Recovery.Action String) :=
  [.execute 1 0 .answered uncutStep, .execute 0 0 .answered uncutStep,
    .execute 1 0 .answered uncutStep, .execute 1 0 .answered uncutStep,
    .execute 0 0 .answered uncutStep, .crash 0 [], .open uncutStep]

theorem exactly_once_handoff_twice :
    let system := recovering textCodec defaults textInput thirtyDays [(1, .active)]
    ExactlyOnce textCodec textInput (system.run system.init acceptedRun)
        (system.run system.init (acceptedRun ++ handedTwiceRun)) ∧
      AcknowledgedAfterCommit textCodec (system.run system.init acceptedRun)
        (system.run system.init (acceptedRun ++ handedTwiceRun)) := by
  intro system
  have h := exactly_once_handoff textCodec defaults textInput thirtyDays [(1, .active)] textPayload
    acceptedRun handedTwiceRun
  refine ⟨h.1, h.2 (TSys.along_of_forall ?_ _)⟩
  intro a ha
  refine stable_textCodec fun event cut heq => ?_
  rw [heq] at ha
  have hrecord : event = event₁ ∧ cut = uncutStep := by
    simpa [acceptedRun, handedTwiceRun] using ha
  exact hrecord.1

end Conduit.UsageRecovery
