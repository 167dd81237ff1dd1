import Conduit.Middlewares.RateLimit

/-!
# The per-minute limits as fixed windows

Both middlewares count an arrival of a limited key by the fixed window of that
key and leave it alone otherwise, whatever happens on the other keys.
-/

namespace Conduit.Middlewares

open Base Base.FixedWindow Pipeline

/-- Insert a row if there is none, then reset it if its minute is over. -/
theorem reset_eq_current (now : Nat) (entry : Option Window) :
    (if minute ≤ now - (entry.getD ⟨now, 0⟩).start then ⟨now, 0⟩ else entry.getD ⟨now, 0⟩) =
      current minute now entry := by
  cases entry with
  | none =>
      have hover : ¬ minute ≤ now - now := by
        rw [Nat.sub_self]
        exact Nat.not_le.mpr minute_pos
      exact if_neg hover
  | some window => rfl

/-- A minute in whole seconds. -/
theorem sixty_le_seconds (elapsed : Nat) : 60 ≤ elapsed / second ↔ minute ≤ elapsed :=
  Nat.le_div_iff_mul_le (by decide)

namespace RateLimitAdmission

/-- An attempt on a limited channel that does not cool down. -/
theorem onOutboundRawRequest_counts {now : Nat} {metadata : Metadata} {s : RateLimits}
    (channel : LimitedChannel) (hid : metadata "channel_id" = some channel.id)
    (hcool : (ChannelCooldownTracker.remaining now channel.id s.cooldowns).2 = none)
    (hlimit : rpmLimit metadata = some channel.limit) :
    onOutboundRawRequest now metadata s =
      (⟨Function.update s.counters channel.id
          (some (allow minute channel.limit now (s.counters channel.id)).2),
        (ChannelCooldownTracker.remaining now channel.id s.cooldowns).1⟩,
      if (allow minute channel.limit now (s.counters channel.id)).1 then .ok ()
      else .error exhausted) := by
  unfold onOutboundRawRequest
  rw [hid, Option.getD_some]
  dsimp only
  rw [if_neg channel.named]
  generalize ChannelCooldownTracker.remaining now channel.id s.cooldowns = cooling at hcool ⊢
  obtain ⟨cooldowns, remaining⟩ := cooling
  dsimp only at hcool
  subst hcool
  dsimp only
  rw [hlimit]
  dsimp only
  rw [reset_eq_current]
  rcases allow_cases minute channel.limit now (s.counters channel.id) with
    ⟨hfull, hallow⟩ | ⟨hroom, hallow⟩
  · rw [if_pos hfull, hallow]
    rfl
  · rw [if_neg (Nat.not_le.mpr hroom), hallow]
    rfl

/-- A rejection of a channel that cools down does not count. -/
theorem onOutboundRawRequest_cooling {now remaining : Nat} {metadata : Metadata} {s : RateLimits}
    (channel : LimitedChannel) (hid : metadata "channel_id" = some channel.id)
    (hcool : (ChannelCooldownTracker.remaining now channel.id s.cooldowns).2 = some remaining) :
    (onOutboundRawRequest now metadata s).1.counters = s.counters ∧
      (onOutboundRawRequest now metadata s).2 = .error (coolingDown remaining) := by
  unfold onOutboundRawRequest
  rw [hid, Option.getD_some]
  dsimp only
  rw [if_neg channel.named]
  generalize ChannelCooldownTracker.remaining now channel.id s.cooldowns = cooling at hcool ⊢
  obtain ⟨cooldowns, left⟩ := cooling
  dsimp only at hcool
  subst hcool
  exact ⟨rfl, rfl⟩

/-- An attempt leaves the counters of the other channels alone. -/
theorem onOutboundRawRequest_frame (now : Nat) {metadata : Metadata} (s : RateLimits)
    {channelId : String} (hid : metadata "channel_id" ≠ some channelId) (hnamed : channelId ≠ "") :
    (onOutboundRawRequest now metadata s).1.counters channelId = s.counters channelId := by
  have hother : channelId ≠ (metadata "channel_id").getD "" := by
    intro heq
    cases hmetadata : metadata "channel_id" with
    | none =>
        rw [hmetadata] at heq
        exact hnamed heq
    | some other =>
        rw [hmetadata] at heq hid
        exact hid (congrArg some heq.symm)
  unfold onOutboundRawRequest
  dsimp only
  by_cases hempty : (metadata "channel_id").getD "" = ""
  · rw [if_pos hempty]
  · rw [if_neg hempty]
    generalize ChannelCooldownTracker.remaining now _ s.cooldowns = cooling
    obtain ⟨cooldowns, left⟩ := cooling
    cases left with
    | some remaining => rfl
    | none =>
        cases rpmLimit metadata with
        | none => rfl
        | some limit =>
            dsimp only
            split_ifs <;> exact Function.update_of_ne hother _ _

/-- The limiter of a channel. -/
def limiter (channel : LimitedChannel) : Limiter RateLimits (Event channel) where
  width := minute
  limit := channel.limit
  init := ⟨fun _ => none, fun _ => none⟩
  entry s := s.counters channel.id
  concerns := concerns channel
  arrive := arrive channel
  positive := minute_pos
  fresh := rfl
  counts := by
    intro now event s hconcerns
    cases event with
    | setCooldown channelId duration => exact absurd hconcerns Bool.false_ne_true
    | attempt metadata limited =>
        obtain ⟨hid, hcool⟩ := Bool.and_eq_true_iff.mp hconcerns
        have hid := of_decide_eq_true hid
        unfold arrive
        dsimp only
        rw [onOutboundRawRequest_counts channel hid (Option.isNone_iff_eq_none.mp hcool)
          (limited hid), if_pos hid]
        cases (allow minute channel.limit now (s.counters channel.id)).1 with
        | true => exact ⟨rfl, Function.update_self _ _ _⟩
        | false => exact ⟨rfl, Function.update_self _ _ _⟩
  ignores := by
    intro now event s hconcerns
    cases event with
    | setCooldown channelId duration => exact ⟨rfl, rfl⟩
    | attempt metadata limited =>
        unfold arrive
        dsimp only
        by_cases hid : metadata "channel_id" = some channel.id
        · -- it cools down
          have hcool : (ChannelCooldownTracker.remaining now channel.id s.cooldowns).2 ≠ none := by
            intro hnone
            unfold concerns at hconcerns
            simp [hid, hnone] at hconcerns
          obtain ⟨remaining, hremaining⟩ := Option.ne_none_iff_exists'.mp hcool
          obtain ⟨hcounters, hrejected⟩ := onOutboundRawRequest_cooling channel hid hremaining
          rw [if_pos hid, hrejected]
          exact ⟨rfl, congrFun hcounters channel.id⟩
        · rw [if_neg hid]
          exact ⟨rfl, onOutboundRawRequest_frame now s hid channel.named⟩

end RateLimitAdmission

namespace QuotaEnforcement

/-- A request of a limited key. -/
theorem onInboundLlmRequest_counts (now : Nat) {metadata : Metadata} (key : LimitedKey)
    (counters : Int → Option Window) (hid : apiKeyId metadata = some key.id)
    (hlimit : rpmLimit metadata = some key.limit) :
    onInboundLlmRequest now metadata counters =
      (Function.update counters key.id (some (allow minute key.limit now (counters key.id)).2),
      if (allow minute key.limit now (counters key.id)).1 then .ok ()
      else .error (quotaExceeded key.id key.limit)) := by
  unfold onInboundLlmRequest
  rw [hid, hlimit]
  dsimp only
  simp only [sixty_le_seconds]
  rw [reset_eq_current]
  rcases allow_cases minute key.limit now (counters key.id) with
    ⟨hfull, hallow⟩ | ⟨hroom, hallow⟩
  · rw [if_pos hfull, hallow]
    rfl
  · rw [if_neg (Nat.not_le.mpr hroom), hallow]
    rfl

/-- A request leaves the counters of the other keys alone. -/
theorem onInboundLlmRequest_frame (now : Nat) {metadata : Metadata} {keyId : Int}
    (counters : Int → Option Window) (hid : apiKeyId metadata ≠ some keyId) :
    (onInboundLlmRequest now metadata counters).1 keyId = counters keyId := by
  unfold onInboundLlmRequest
  split
  next other _ hother =>
    have hne : keyId ≠ other := by
      rintro rfl
      exact hid hother
    dsimp only
    split_ifs <;> exact Function.update_of_ne hne _ _
  next => rfl

/-- The limiter of an API key. -/
def limiter (key : LimitedKey) : Limiter (Int → Option Window) (KeyRequest key) where
  width := minute
  limit := key.limit
  init := fun _ => none
  entry counters := counters key.id
  concerns _ request _ := concerns key request
  arrive := arrive key
  positive := minute_pos
  fresh := rfl
  counts := by
    intro now request counters hconcerns
    have hid : apiKeyId request.metadata = some key.id := of_decide_eq_true hconcerns
    unfold arrive
    rw [onInboundLlmRequest_counts now key counters hid (request.limited hid)]
    dsimp only
    rw [if_pos hid]
    cases (allow minute key.limit now (counters key.id)).1 with
    | true => exact ⟨rfl, Function.update_self _ _ _⟩
    | false => exact ⟨rfl, Function.update_self _ _ _⟩
  ignores := by
    intro now request counters hconcerns
    have hid : apiKeyId request.metadata ≠ some key.id := of_decide_eq_false hconcerns
    unfold arrive
    dsimp only
    rw [if_neg hid]
    exact ⟨rfl, onInboundLlmRequest_frame now counters hid⟩

end QuotaEnforcement

end Conduit.Middlewares
