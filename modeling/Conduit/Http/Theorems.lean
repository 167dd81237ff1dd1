import Conduit.Http.Logic.Credential
import Conduit.Http.Logic.Sse

/-!
# What reaches the provider and the client

When an upstream request does not depend on the credential of the client, and
that the events of a stream do not depend on how its body was cut into chunks.
-/

namespace Conduit.Http

open Base.Text Pipeline ApiKeyAuth OpenAiHandlers

/-! ## Credentials -/

/-- The upstream request is the same for all requests that differ in the
credential only exactly if, when the query carries the credential, the
outbound request takes no query from the client or has its own `key`. -/
theorem credential_kept_iff (target : PipelineCandidate) (outbound : HttpRequest)
    (metadata : String → Option JsonValue) (request : ClientRequest) :
    (∀ (metadata' : String → Option JsonValue) (other : ClientRequest),
      SameButCredential request other →
      upstreamRequest target outbound metadata request =
        upstreamRequest target outbound metadata' other) ↔
    (source request = some .queryParam →
      outbound.skipInboundQueryMerge = true ∨ (outbound.query "key").isSome) := by
  constructor
  · intro hsame hsource
    by_contra hcopied
    obtain ⟨hskip, hkey⟩ := not_or.mp hcopied
    have hkey : outbound.query "key" = none := Option.not_isSome_iff_eq_none.mp hkey
    obtain ⟨before, after, hquery⟩ := inbound_query_withKey hsource
    -- one letter as credential: the upstream request has it among the values of `key`
    have hvalues : ∀ text : List Char, '&' ∉ text → (pairKey ("key=".toList ++ text)).isSome →
        (upstreamRequest target outbound metadata request).query "key" =
          some (before "key" ++ [percentDecode text] ++ after "key") := by
      intro text hpair htext
      rw [hsame metadata _ (.queryParam text hpair hsource (source_withKey hsource hpair htext))]
      unfold upstreamRequest
      rw [stampOutboundTarget_query]
      unfold mergeInbound
      dsimp only
      rw [if_neg hskip, hkey, Option.none_or, (hquery metadata).2 text hpair "key"]
      simp
    have ha := hvalues ['a'] (by decide) (by decide)
    have hb := hvalues ['b'] (by decide) (by decide)
    rw [ha] at hb
    have hequal : percentDecode ['a'] = percentDecode ['b'] := by
      have := Option.some.inj hb
      rw [List.append_cancel_right_eq, List.append_cancel_left_eq] at this
      exact List.singleton_inj.mp this
    exact absurd hequal (by decide)
  · intro hisolated metadata' other hother
    have hmerged : SameMerged outbound (buildOpenaiHttpRequest metadata request)
        (buildOpenaiHttpRequest metadata' other) := by
      cases hother with
      | bearer value here there =>
          exact sameMerged_withHeader outbound metadata metadata' request value (by decide)
            (by decide)
      | geminiHeader value here there =>
          exact sameMerged_withHeader outbound metadata metadata' request value (by decide)
            (by decide)
      | queryParam text pair here there =>
          refine ⟨rfl, fun _ _ => rfl, ?_, rfl⟩
          intro hskip key hnone
          have hne : key ≠ "key" := by
            rintro rfl
            rcases hisolated here with hskipped | hown
            · rw [hskip] at hskipped
              exact Bool.noConfusion hskipped
            · rw [hnone] at hown
              exact Bool.noConfusion hown
          obtain ⟨before, after, hquery⟩ := inbound_query_withKey here
          obtain ⟨value, hvalue⟩ := (hquery metadata).1
          rw [hvalue key, (hquery metadata').2 text pair key, if_neg hne, if_neg hne]
    unfold upstreamRequest
    rw [hmerged.mergeInbound_eq]

/-- A request with its credential in the query. -/
def queryKeyRequest : ClientRequest where
  method := "POST"
  uri := ⟨none, none, "/v1/chat/completions", some "key=sk-a"⟩
  headers _ := []
  body := asBytes "{}"

/-- The query of the client is copied with the credential in it. -/
theorem query_key_copied : ¬ ∀ (target : PipelineCandidate) (outbound : HttpRequest)
    (metadata metadata' : String → Option JsonValue) (request other : ClientRequest),
    SameButCredential request other →
    upstreamRequest target outbound metadata request =
      upstreamRequest target outbound metadata' other := by
  intro h
  have hsame := h (.ofId "candidate") .empty (fun _ => none) (fun _ => none) queryKeyRequest _
    (.queryParam "sk-b".toList (by decide) (by decide) (by decide))
  have hquery := congrArg (fun httpReq => httpReq.query "key") hsame
  revert hquery
  decide

namespace Sse

/-! ## Streams -/

/-- However a body is cut, the live loop sends the events of the body in one
piece as long as no kept tail with the next chunk is over its budget; over it,
the events before that chunk and an error. The incomplete tail at the end of
the body is an event in neither. -/
theorem live_eq_one_shot (chunks : List (List UInt8)) (events : List StreamEvent)
    (h : oneShot chunks.flatten = .ok events) :
    (WithinBudget [] chunks → liveLoop [] (chunks.map .ok) = events.map .ok) ∧
    (¬ WithinBudget [] chunks → ∃ sent : List StreamEvent, sent <+: events ∧
      liveLoop [] (chunks.map .ok) = sent.map .ok ++ [.error budgetExceeded]) := by
  unfold oneShot at h
  cases hparse : parseSseFrames chunks.flatten with
  | error err =>
      rw [hparse] at h
      exact absurd h (by simp)
  | ok parsed =>
      rw [hparse] at h
      have hevents : parsed.frames.map SseFrame.toStreamEvent = events := Except.ok.inj h
      constructor
      · intro hbudget
        rw [liveLoop_within parseSseFrames_nil hparse hbudget, ← hevents, List.map_map]
        rfl
      · intro hover
        obtain ⟨sent, hsent, hloop⟩ := liveLoop_over hparse hover
        refine ⟨sent.map SseFrame.toStreamEvent, ?_, ?_⟩
        · rw [← hevents]
          exact hsent.map SseFrame.toStreamEvent
        · rw [hloop, List.map_map]
          rfl

/-- A frame that is cut inside a character and between the bytes of a line end. -/
def cutFrame : List (List UInt8) :=
  [asBytes "data: " ++ [0xC3], [0xA9, 13], [10, 13], [10]]

theorem live_eq_one_shot_cutFrame :
    liveLoop [] (cutFrame.map .ok) = [.ok ⟨none, none, some "é", none, false⟩] :=
  (live_eq_one_shot cutFrame [⟨none, none, some "é", none, false⟩] (by decide +kernel)).1
    (withinBudget_of_small (Nat.zero_le _) (by decide))

/-- One chunk over the budget fails the live loop, whatever its events are. -/
theorem large_chunk_rejected : ¬ ∀ (chunks : List (List UInt8)) (events : List StreamEvent),
    oneShot chunks.flatten = .ok events → liveLoop [] (chunks.map .ok) = events.map .ok := by
  intro h
  obtain ⟨count, hcount⟩ : ∃ count : Nat, maxChunkBytes < count := ⟨_, Nat.lt_succ_self _⟩
  have honeShot : oneShot [List.replicate count 10].flatten = .ok [] := by
    rw [List.flatten_singleton]
    unfold oneShot
    rw [parseSseFrames_blank]
    rfl
  have hrejected : liveLoop [] ([List.replicate count 10].map .ok) = [.error budgetExceeded] := by
    rw [List.map_singleton]
    unfold liveLoop
    rw [if_pos]
    rw [List.length_replicate, List.length_nil, Nat.zero_add]
    exact hcount
  have hsame := h [List.replicate count 10] [] honeShot
  rw [hrejected] at hsame
  exact absurd hsame (by simp)

end Sse

end Conduit.Http
