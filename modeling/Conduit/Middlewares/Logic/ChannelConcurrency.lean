import Conduit.Middlewares.ChannelConcurrency
import Conduit.Pipeline.Logic.Attempts

/-!
# Slots in use

The counter of a channel is the number of attempts that hold one of its slots,
as long as no attempt that holds one ends without a hook. It never passes a
limit that bounds every admission.
-/

namespace Conduit.Middlewares

open Base Pipeline

namespace ChannelConcurrency

variable {defaultMaxConcurrent : UInt32} {now : Int} {metadata : Metadata}
  {counters counters' : ChannelCounters} {acquired acquired' : Bool}

/-- The attempts that the limiter counts for a channel. -/
def inUse (counters : ChannelCounters) (channel : String) : Nat := ((counters channel).getD 0).toNat

/-! ## Hooks -/

variable (now) in
/-- Everything an admission does. -/
theorem request_cases
    (hok : onOutboundRawRequest defaultMaxConcurrent metadata counters acquired =
      .ok (counters', acquired')) :
    (takesSlot defaultMaxConcurrent now metadata counters = false ∧ counters' = counters ∧
      acquired' = acquired) ∨
    (takesSlot defaultMaxConcurrent now metadata counters = true ∧ acquired' = true ∧
      ∃ channel, channelId metadata = some channel ∧
        inUse counters channel < (effectiveLimit defaultMaxConcurrent metadata).toNat ∧
        inUse counters' channel = inUse counters channel + 1 ∧
        ∀ other, other ≠ channel → inUse counters' other = inUse counters other) := by
  unfold onOutboundRawRequest at hok
  unfold takesSlot
  dsimp only at hok
  split_ifs at hok with hunlimited
  · obtain ⟨rfl, rfl⟩ := Prod.mk.inj (Except.ok.inj hok)
    exact .inl ⟨by simp [hunlimited], rfl, rfl⟩
  · cases hchannel : channelId metadata with
    | none =>
        rw [hchannel] at hok
        obtain ⟨rfl, rfl⟩ := Prod.mk.inj (Except.ok.inj hok)
        exact .inl ⟨by simp, rfl, rfl⟩
    | some channel =>
        rw [hchannel] at hok
        dsimp only at hok
        split_ifs at hok with hfull
        obtain ⟨rfl, rfl⟩ := Prod.mk.inj (Except.ok.inj hok)
        have hroom := UInt32.not_le.mp hfull
        refine .inr ⟨by simp [hunlimited, hroom], rfl, channel, rfl,
          UInt32.lt_iff_toNat_lt.mp hroom, ?_, ?_⟩
        · unfold inUse
          rw [Function.update_self, Option.getD_some, UInt32.toNat_add]
          have hlt := UInt32.lt_iff_toNat_lt.mp hroom
          have hbound := (effectiveLimit defaultMaxConcurrent metadata).toNat_lt
          have hone : (1 : UInt32).toNat = 1 := rfl
          rw [hone]
          omega
        · intro other hother
          unfold inUse
          rw [Function.update_of_ne hother]

theorem takesSlot_key (h : takesSlot defaultMaxConcurrent now metadata counters = true) :
    ∃ channel, channelId metadata = some channel := by
  unfold takesSlot at h
  cases hchannel : channelId metadata with
  | none =>
      rw [hchannel] at h
      exact absurd h (by simp)
  | some channel => exact ⟨channel, rfl⟩

theorem releaseSlot_unacquired : releaseSlot metadata counters false = (counters, false) := rfl

/-- A release clears the flag, whatever the channel. -/
theorem releaseSlot_flag : (releaseSlot metadata counters acquired).2 = false := by
  unfold releaseSlot
  cases acquired with
  | false => rfl
  | true =>
      rw [if_neg (by simp)]
      cases channelId metadata with
      | none => rfl
      | some channel =>
          dsimp only
          cases counters channel with
          | none => rfl
          | some count => rfl

/-- A release gives one slot of its channel back. -/
theorem inUse_releaseSlot {channel : String} (hchannel : channelId metadata = some channel)
    (other : String) :
    inUse (releaseSlot metadata counters true).1 other =
      inUse counters other - if other = channel then 1 else 0 := by
  unfold releaseSlot
  rw [if_neg (by simp), hchannel]
  dsimp only
  unfold inUse
  by_cases hother : other = channel
  · subst hother
    rw [if_pos rfl]
    cases hcount : counters other with
    | none =>
        dsimp only
        rw [hcount]
        rfl
    | some count =>
        dsimp only
        rw [Function.update_self, Option.getD_some]
        have hone : (1 : UInt32).toNat = 1 := rfl
        by_cases hzero : count = 0
        · simp [hzero]
        · have hpos : 1 ≤ count := by
            rw [UInt32.le_iff_toNat_le, hone]
            have hne : count.toNat ≠ 0 := fun h => hzero (UInt32.toNat_inj.mp h)
            omega
          have hsub : (count - 1).toNat = count.toNat - 1 := by
            rw [UInt32.toNat_sub_of_le _ _ hpos, hone]
          rw [if_neg hzero]
          by_cases hlast : count - 1 = 0
          · rw [if_pos hlast]
            rw [hlast] at hsub
            simpa using hsub
          · rw [if_neg hlast]
            exact hsub
  · rw [if_neg hother, Nat.sub_zero]
    cases counters channel with
    | none => rfl
    | some count =>
        dsimp only
        rw [Function.update_of_ne hother]

/-- Every later hook of an attempt releases its slot. -/
theorem run_eq (hook : Hook) :
    (hooks defaultMaxConcurrent).run hook now metadata counters acquired =
      releaseSlot metadata counters acquired := by
  cases hook <;> rfl

/-! ## Counters and holders -/

/-- A channel's counter counts the attempts that hold its slots, and only they
can release one. -/
structure SlotsConserved (pool : Pool ChannelCounters Bool) : Prop where
  inUse : ∀ channel : String, inUse pool.store channel = pool.holders channelId channel
  owned : ∀ (id : Nat) (request : Request Bool), pool.requests[id]? = some request →
    request.own = request.holding

/-- An attempt that holds a slot does not end without a hook. -/
def SlotReturned (pool : Pool ChannelCounters Bool) : PoolAction → Prop
  | .finish id => ∀ request : Request Bool, pool.requests[id]? = some request →
      request.todo = some [] → request.holding = false
  | _ => True

section Step

variable {pool : Pool ChannelCounters Bool} {id : Nat} {request next : Request Bool}

theorem SlotsConserved.owned_replace (h : SlotsConserved pool) (store : ChannelCounters)
    (hnext : next.own = next.holding) (j : Nat) (request' : Request Bool)
    (hrequest' : (pool.replace id (store, next)).requests[j]? = some request') :
    request'.own = request'.holding := by
  rcases Table.getElem?_updateRow_cases hrequest' with ⟨rfl, _, _, rfl⟩ | ⟨_, hold⟩
  · exact hnext
  · exact h.owned j request' hold

/-- A request that holds nothing before and after. -/
theorem SlotsConserved.unheld (h : SlotsConserved pool)
    (hrequest : pool.requests[id]? = some request) (hbefore : request.holding = false)
    (hown : next.own = false) (hafter : next.holding = false) :
    SlotsConserved (pool.replace id (pool.store, next)) := by
  refine ⟨?_, h.owned_replace _ (hown.trans hafter.symm)⟩
  intro channel
  have hcount := Pool.holders_replace channelId hrequest pool.store next channel
  rw [hbefore, hafter] at hcount
  simp only [Bool.false_and, Bool.false_eq_true, if_false, Nat.add_zero] at hcount
  rw [hcount]
  exact h.inUse channel

theorem SlotsConserved.admitted (h : SlotsConserved pool) (hsettled : pool.Settled channelId)
    {todo : List Hook} (hrequest : pool.requests[id]? = some request) (hidle : request.todo = none)
    (hok : onOutboundRawRequest defaultMaxConcurrent metadata pool.store request.own =
      .ok (counters, acquired)) :
    SlotsConserved (pool.replace id (counters,
      ⟨metadata, acquired, some todo, takesSlot defaultMaxConcurrent now metadata pool.store⟩)) := by
  have hbefore := hsettled.not_holding hrequest hidle
  have hown := (h.owned id request hrequest).trans hbefore
  rcases request_cases now hok with ⟨htakes, rfl, rfl⟩ |
    ⟨htakes, rfl, channel, hchannel, _, hmore, hothers⟩
  · rw [htakes]
    exact h.unheld hrequest hbefore hown rfl
  · rw [htakes]
    refine ⟨?_, h.owned_replace _ rfl⟩
    intro other
    have hcount := Pool.holders_replace channelId hrequest counters
      ⟨metadata, true, some todo, true⟩ other
    rw [hbefore, hchannel] at hcount
    show ChannelConcurrency.inUse counters other = _
    by_cases hother : other = channel
    · subst hother
      simp at hcount
      rw [hcount, hmore, h.inUse]
    · have hne : ¬ channel = other := fun heq => hother heq.symm
      simp [hne] at hcount
      rw [hcount, hothers other hother, h.inUse]

/-- The first hook after an admission gives the slot back, the others do nothing. -/
theorem SlotsConserved.hooked (h : SlotsConserved pool) (hsettled : pool.Settled channelId)
    {rest : List Hook} (hrequest : pool.requests[id]? = some request) :
    SlotsConserved (pool.replace id ((releaseSlot request.metadata pool.store request.own).1,
      ⟨request.metadata, (releaseSlot request.metadata pool.store request.own).2, some rest,
        false⟩)) := by
  have howned := h.owned id request hrequest
  by_cases hholding : request.holding = true
  · obtain ⟨_, channel, hchannel⟩ := hsettled id request hrequest hholding
    rw [howned, hholding]
    refine ⟨?_, h.owned_replace _ releaseSlot_flag⟩
    intro other
    have hcount := Pool.holders_replace channelId hrequest
      (releaseSlot request.metadata pool.store true).1
      ⟨request.metadata, (releaseSlot request.metadata pool.store true).2, some rest, false⟩ other
    rw [hholding, hchannel] at hcount
    show ChannelConcurrency.inUse (releaseSlot request.metadata pool.store true).1 other = _
    rw [inUse_releaseSlot hchannel, h.inUse]
    by_cases hother : other = channel
    · subst hother
      simp at hcount
      rw [if_pos rfl]
      omega
    · have hne : ¬ channel = other := fun heq => hother heq.symm
      simp [hne] at hcount
      rw [if_neg hother]
      omega
  · have hfree := Bool.eq_false_iff.mpr hholding
    rw [howned, hfree, releaseSlot_unacquired]
    exact h.unheld hrequest hfree rfl rfl

/-- A request ends with the slots conserved exactly if it holds none. -/
theorem SlotsConserved.finished_iff (h : SlotsConserved pool)
    (hrequest : pool.requests[id]? = some request) (htodo : request.todo = some []) :
    SlotsConserved (pool.replace id (pool.store, { request with todo := none, holding := false })) ↔
      SlotReturned pool (.finish id) := by
  constructor
  · intro hnext request' hrequest' _
    obtain rfl := Option.some.inj (hrequest.symm.trans hrequest')
    have hafter := hnext.owned id _ (Pool.getElem?_replace_self hrequest _ _)
    exact (h.owned id request hrequest).symm.trans hafter
  · intro hreturned
    have hholding := hreturned request hrequest htodo
    exact h.unheld hrequest hholding ((h.owned id request hrequest).trans hholding) rfl

end Step

variable (defaultMaxConcurrent) in
theorem system_settled : (system defaultMaxConcurrent).Inductive (Pool.Settled channelId) :=
  settled_inductive _ fun _ _ _ => takesSlot_key

/-- Exactly the steps that conserve the slots. -/
theorem slotsConserved_step {pool : Pool ChannelCounters Bool} (a : PoolAction)
    (hsettled : pool.Settled channelId) (h : SlotsConserved pool) :
    SlotsConserved ((system defaultMaxConcurrent).step pool a) ↔ SlotReturned pool a := by
  have hmoves : pool.Moves (hooks defaultMaxConcurrent) (takesSlot defaultMaxConcurrent) a
      ((system defaultMaxConcurrent).step pool a) := Pool.step_moves _ _ pool a
  generalize (system defaultMaxConcurrent).step pool a = next at hmoves ⊢
  cases hmoves with
  | idle hdisabled =>
      refine ⟨fun _ => ?_, fun _ => h⟩
      cases a with
      | finish id => exact fun request hrequest htodo => absurd htodo (hdisabled _ hrequest)
      | accept metadata => trivial
      | attempt id stamp now x => trivial
      | hook id now => trivial
  | accepted metadata =>
      refine ⟨fun _ => trivial, fun _ => ⟨?_, ?_⟩⟩
      · intro channel
        rw [Pool.holders_insert]
        exact h.inUse channel
      · intro id request hrequest
        rcases Table.getElem?_insertRow_cases hrequest with ⟨_, rfl⟩ | hold
        · rfl
        · exact h.owned id request hold
  | refused stamp now x todo hrequest hidle =>
      have hbefore := hsettled.not_holding hrequest hidle
      exact ⟨fun _ => trivial, fun _ =>
        h.unheld hrequest hbefore ((h.owned _ _ hrequest).trans hbefore) hbefore⟩
  | admitted stamp now x todo hrequest hidle hok =>
      exact ⟨fun _ => trivial, fun _ => h.admitted hsettled hrequest hidle hok⟩
  | hooked now hrequest htodo =>
      rw [run_eq]
      exact ⟨fun _ => trivial, fun _ => h.hooked hsettled hrequest⟩
  | finished hrequest htodo => exact h.finished_iff hrequest htodo

theorem slotReturned_of_unstranded {pool : Pool ChannelCounters Bool} (a : PoolAction)
    (h : pool.Unstranded) : SlotReturned pool a := by
  cases a with
  | finish id =>
      intro request hrequest htodo
      rw [← Bool.not_eq_true]
      exact fun hholding => h id request hrequest hholding htodo
  | accept metadata => trivial
  | attempt id stamp now x => trivial
  | hook id now => trivial

/-- Only a stream that succeeds keeps its slot. -/
theorem slotReturned_along {actions : List PoolAction} (hends : ∀ a ∈ actions, a.EndsWithHook) :
    (system defaultMaxConcurrent).Along SlotReturned (system defaultMaxConcurrent).init actions :=
  along_of_unstranded (system_settled defaultMaxConcurrent)
    (fun _ a h => slotReturned_of_unstranded a h) hends

/-! ## Limits -/

/-- A limit bounds every admission on a channel. -/
def Limited (defaultMaxConcurrent : UInt32) (channel : String) (limit : Nat)
    (pool : Pool ChannelCounters Bool) : PoolAction → Prop
  | .attempt id stamp _ _ => ∀ request : Request Bool, pool.requests[id]? = some request →
      channelId (stamp request.metadata) = some channel →
      (effectiveLimit defaultMaxConcurrent (stamp request.metadata)).toNat ≤ limit
  | _ => True

/-- A release only lowers counters. -/
theorem inUse_releaseSlot_le (channel : String) :
    inUse (releaseSlot metadata counters acquired).1 channel ≤ inUse counters channel := by
  cases acquired with
  | false => exact le_rfl
  | true =>
      cases hchannel : channelId metadata with
      | none =>
          unfold releaseSlot
          rw [if_neg (by simp), hchannel]
      | some own =>
          rw [inUse_releaseSlot hchannel]
          exact Nat.sub_le _ _

theorem inUse_step {pool : Pool ChannelCounters Bool} {channel : String} {limit : Nat}
    (a : PoolAction) (h : inUse pool.store channel ≤ limit)
    (hlimited : Limited defaultMaxConcurrent channel limit pool a) :
    inUse ((system defaultMaxConcurrent).step pool a).store channel ≤ limit := by
  have hmoves : pool.Moves (hooks defaultMaxConcurrent) (takesSlot defaultMaxConcurrent) a
      ((system defaultMaxConcurrent).step pool a) := Pool.step_moves _ _ pool a
  generalize (system defaultMaxConcurrent).step pool a = next at hmoves ⊢
  cases hmoves with
  | idle => exact h
  | accepted => exact h
  | refused => exact h
  | @admitted id request stamp now x todo counters _ hrequest hidle hok =>
      show inUse counters channel ≤ limit
      rcases request_cases now hok with ⟨_, rfl, _⟩ |
        ⟨_, _, own, hown, hroom, hmore, hothers⟩
      · exact h
      · by_cases hchannel : channel = own
        · subst hchannel
          have hbound := hlimited _ hrequest hown
          omega
        · rw [hothers channel hchannel]
          exact h
  | hooked now hrequest htodo =>
      rw [run_eq]
      exact (inUse_releaseSlot_le channel).trans h
  | finished => exact h

end ChannelConcurrency

end Conduit.Middlewares
