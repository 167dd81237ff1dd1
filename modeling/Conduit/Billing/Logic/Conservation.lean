import Conduit.Base.Waterfall
import Conduit.Billing.Logic.System

/-!
# Conservation of a settlement

A settlement draws the charge from the reservation's own allocations, from the
eligible buckets and from the wallet, in this order. Each of the three stages
draws what the stages before it left, so together they are one draw from all
the sources, and the rows of a source change by what was drawn from it. The
own allocations are sorted by expiry within their class; as credit does not
expire and allowances do, credit comes last in every run.
-/

namespace Conduit.Billing

open Base Transaction Waterfall

/-! ## The stages -/

/-- What was taken so far, from whatever source. -/
def Funding.taken (f : Funding) : Int := f.subscriptionAmount + f.creditAmount

@[simp] theorem Funding.take_taken (f : Funding) (source : AllocationSource) (n : Int) :
    (f.take source n).taken = f.taken + n := by
  cases source
  · show f.subscriptionAmount + n + f.creditAmount = _
    unfold taken
    omega
  · show f.subscriptionAmount + (f.creditAmount + n) = _
    unfold taken
    omega

/-- The funding after some takes. -/
structure Funding.Took (f f' : Funding) (takes : List Int) : Prop where
  remaining : f'.remaining = f.remaining - takes.sum
  taken : f'.taken = f.taken + takes.sum

theorem Funding.Took.nil (f : Funding) : f.Took f [] := ⟨by simp, by simp⟩

theorem Funding.Took.cons {f f' : Funding} {source : AllocationSource} {n : Int}
    {takes : List Int} (h : (f.take source n).Took f' takes) : f.Took f' (n :: takes) where
  remaining := by
    rw [h.remaining, Funding.take_remaining, List.sum_cons]
    omega
  taken := by
    rw [h.taken, Funding.take_taken, List.sum_cons]
    omega

theorem Funding.Took.trans {f₁ f₂ f₃ : Funding} {takes takes' : List Int}
    (h₁ : f₁.Took f₂ takes) (h₂ : f₂.Took f₃ takes') : f₁.Took f₃ (takes ++ takes') where
  remaining := by
    rw [h₂.remaining, h₁.remaining, List.sum_append]
    omega
  taken := by
    rw [h₂.taken, h₁.taken, List.sum_append]
    omega

/-- Sources that are not asked give nothing. -/
theorem Funding.Took.of_zero {f f' : Funding} (h : f = f') {takes : List Int}
    (hzero : ∀ take ∈ takes, take = 0) : f.Took f' takes := by
  have hsum : takes.sum = 0 := List.sum_eq_zero hzero
  subst h
  exact ⟨by omega, by omega⟩

/-- A settled allocation: what was taken of it is captured, the rest released. -/
def Allocation.settle (a : Allocation) (take : Int) : Allocation :=
  { a with
    capturedMicros := a.capturedMicros + take
    releasedMicros := a.releasedMicros + (a.outstanding - take) }

/-- The own allocations are one draw. -/
theorem took_captureAllocations (rows : List (Nat × Allocation)) (db : Db) (f : Funding) :
    f.Took (db.captureAllocations rows f).2
      (draw f.remaining (rows.map fun entry => entry.2.outstanding)) := by
  induction rows generalizing db f with
  | nil => exact .nil f
  | cons entry rest ih =>
      have hrest := ih (db.drainAllocation entry.1 entry.2 (min f.remaining entry.2.outstanding))
        (f.take entry.2.source (min f.remaining entry.2.outstanding))
      rw [Funding.take_remaining] at hrest
      exact .cons hrest

theorem outstanding_le_max (a : Allocation) : a.outstanding ≤ i64Max := by
  have hclamp := clampI64_le_max (satSub a.reservedMicros a.capturedMicros - a.releasedMicros)
  show max (clampI64 _) 0 ≤ _
  unfold i64Max at *
  omega

theorem drainAllocation_self {db : Db} {id : Nat} {a : Allocation} {take : Int}
    (h : db.allocations[id]? = some a) (h0 : 0 ≤ take) (hle : take ≤ a.outstanding) :
    (db.drainAllocation id a take).allocations[id]? = some (a.settle take) := by
  have hmax := outstanding_le_max a
  have hrelease : satSub a.outstanding take = a.outstanding - take :=
    clampI64_eq (by unfold i64Min; omega) (by omega)
  refine (Table.getElem?_updateRow_self _ h).trans ?_
  rw [hrelease]
  rfl

/-- Rows that were not fetched keep their values. -/
theorem captureAllocations_other {rows : List (Nat × Allocation)} {id : Nat}
    (h : id ∉ rows.map Prod.fst) (db : Db) (f : Funding) :
    (db.captureAllocations rows f).1.allocations[id]? = db.allocations[id]? := by
  induction rows generalizing db f with
  | nil => rfl
  | cons entry rest ih =>
      rw [List.map_cons, List.mem_cons, not_or] at h
      refine (ih h.2 _ _).trans ?_
      exact Table.getElem?_updateRow_ne _ _ (Ne.symm h.1)

/-- Each fetched row is settled with what was drawn from it. -/
theorem captureAllocations_rows {rows : List (Nat × Allocation)} {db : Db}
    (h : Table.Fetched db.allocations rows) {f : Funding} (h0 : 0 ≤ f.remaining) :
    ∀ entry take, (entry, take) ∈ rows.zip (draw f.remaining
        (rows.map fun entry => entry.2.outstanding)) →
      (db.captureAllocations rows f).1.allocations[entry.1]? = some (entry.2.settle take) := by
  induction rows generalizing db f with
  | nil => exact fun _ _ hmem => absurd hmem List.not_mem_nil
  | cons head rest ih =>
      have hout := outstanding_nonneg head.2
      have hfirst : 0 ≤ min f.remaining head.2.outstanding := by omega
      intro entry take hmem
      rcases List.mem_cons.mp hmem with heq | hmem
      · obtain ⟨rfl, rfl⟩ := Prod.mk.inj heq
        have hnotin := (List.nodup_cons.mp (List.map_cons ▸ h.nodup)).1
        refine (captureAllocations_other hnotin _ _).trans ?_
        exact drainAllocation_self h.head hfirst (Int.min_le_right ..)
      · have hfetched : Table.Fetched (db.drainAllocation head.1 head.2
            (min f.remaining head.2.outstanding)).allocations rest :=
          h.tail fun _ hne _ => Table.getElem?_updateRow_ne _ _ (Ne.symm hne)
        refine ih hfetched (by rw [Funding.take_remaining]; omega) entry take ?_
        rw [Funding.take_remaining]
        exact hmem

theorem captureAllocations_settlements (rows : List (Nat × Allocation)) (db : Db) (f : Funding) :
    (db.captureAllocations rows f).1.settlements = db.settlements := by
  induction rows generalizing db f with
  | nil => rfl
  | cons entry rest ih => exact ih _ _

/-! ## Overage -/

/-- Every row has grown by overage: reserved and captured at once. -/
def Grew (t t' : Table Allocation) : Prop :=
  ∀ (i : Nat) (a : Allocation), t[i]? = some a →
    ∃ extra, 0 ≤ extra ∧ t'[i]? = some (a.grow extra extra)

theorem Grew.refl (t : Table Allocation) : Grew t t := by
  intro i a ha
  refine ⟨0, le_rfl, ha.trans ?_⟩
  simp [Allocation.grow]

theorem Grew.trans {t₁ t₂ t₃ : Table Allocation} (h₁ : Grew t₁ t₂) (h₂ : Grew t₂ t₃) :
    Grew t₁ t₃ := by
  intro i a ha
  obtain ⟨extra, h0, ha'⟩ := h₁ i a ha
  obtain ⟨extra', h0', ha''⟩ := h₂ i _ ha'
  refine ⟨extra + extra', by omega, ha''.trans ?_⟩
  simp [Allocation.grow, Int.add_assoc]

theorem grew_upsertAllocation {db db' : Db} {a : Allocation} {u : Unit}
    (h : Commits (upsertAllocation a) db u db') (h0 : 0 ≤ a.reservedMicros)
    (hcaptured : a.capturedMicros = a.reservedMicros) : Grew db.allocations db'.allocations := by
  obtain ⟨_, heq | ⟨row, old, hold, -, -, -, heq⟩⟩ := commits_upsertAllocation h
  · rw [heq]
    intro i x hx
    obtain ⟨extra, hextra, hgrown⟩ := Grew.refl db.allocations i x hx
    exact ⟨extra, hextra, by rw [Table.getElem?_insertRow_of_some _ hx, ← hx, hgrown]⟩
  · rw [heq]
    intro i x hx
    by_cases hrow : row = i
    · -- the overage of this source is merged into the row
      subst hrow
      obtain rfl := Option.some.inj (hx.symm.trans hold)
      refine ⟨a.reservedMicros, h0, (Table.getElem?_updateRow_self _ hx).trans ?_⟩
      rw [hcaptured]
      rfl
    · obtain ⟨extra, hextra, hgrown⟩ := Grew.refl db.allocations i x hx
      exact ⟨extra, hextra, by rw [Table.getElem?_updateRow_ne _ _ hrow]; exact hgrown⟩

/-- What an overage changes besides buckets and wallets. -/
structure Overdrew (db db' : Db) : Prop where
  allocations : Grew db.allocations db'.allocations
  settlements : db'.settlements = db.settlements

theorem Overdrew.refl (db : Db) : Overdrew db db := ⟨.refl _, rfl⟩

theorem Overdrew.trans {db₁ db₂ db₃ : Db} (h₁ : Overdrew db₁ db₂) (h₂ : Overdrew db₂ db₃) :
    Overdrew db₁ db₃ :=
  ⟨h₁.allocations.trans h₂.allocations, h₂.settlements.trans h₁.settlements⟩

theorem overdrew_recordOverage {db db' : Db} {reservation : Option Nat} {source : AllocationSource}
    {amount : Int} {allocationClass : AllocationClass} {expiresAt : Option Instant} {u : Unit}
    (h : Commits (recordOverage reservation source amount allocationClass expiresAt) db u db')
    (h0 : 0 ≤ amount) : Overdrew db db' ∧ db'.buckets = db.buckets := by
  cases reservation with
  | none =>
      obtain ⟨_, rfl⟩ := commits_pure.mp h
      exact ⟨.refl _, rfl⟩
  | some id =>
      refine ⟨⟨grew_upsertAllocation h h0 rfl, ?_⟩, upsertAllocation_buckets h⟩
      obtain ⟨_, heq | ⟨_, _, _, _, _, _, heq⟩⟩ := commits_upsertAllocation h
      · rw [heq]
      · rw [heq]

/-- A bucket row after some of it was consumed. -/
def Bucket.consume (b : Bucket) (take : Int) : Bucket :=
  { b with consumedMicros := b.consumedMicros + take }

/-- What the overage loop over the buckets did. -/
structure OverageDrawn (rows : List (Nat × Bucket)) (f f' : Funding) (db db' : Db) : Prop where
  overdrew : Overdrew db db'
  took : f.Took f' (draw f.remaining (rows.map fun entry => entry.2.available))
  consumed : ∀ entry take, (entry, take) ∈ rows.zip (draw f.remaining
      (rows.map fun entry => entry.2.available)) →
    db'.buckets[entry.1]? = some (entry.2.consume take)
  other : ∀ i, i ∉ rows.map Prod.fst → db'.buckets[i]? = db.buckets[i]?

theorem caps_available (rows : List (Nat × Bucket)) :
    Caps (rows.map fun entry => entry.2.available) := by
  intro cap hcap
  obtain ⟨entry, -, rfl⟩ := List.mem_map.mp hcap
  exact available_nonneg entry.2

theorem caps_outstanding (rows : List (Nat × Allocation)) :
    Caps (rows.map fun entry => entry.2.outstanding) := by
  intro cap hcap
  obtain ⟨entry, -, rfl⟩ := List.mem_map.mp hcap
  exact outstanding_nonneg entry.2

/-- Nothing is drawn where nothing is needed. -/
theorem OverageDrawn.of_done {rows : List (Nat × Bucket)} {f : Funding} {db : Db}
    (hfetched : Table.Fetched db.buckets rows) (hdone : f.remaining = 0) :
    OverageDrawn rows f f db db where
  overdrew := .refl db
  took := .of_zero rfl (hdone ▸ draw_zero (caps_available rows))
  consumed entry take hmem := by
    have hzero : take = 0 := draw_zero (caps_available rows) take
      (hdone ▸ (List.of_mem_zip hmem).2)
    rw [hfetched.current entry (List.of_mem_zip hmem).1, hzero]
    simp [Bucket.consume]
  other _ _ := rfl

/-- The loop draws from the buckets in order. -/
theorem overageBuckets_drawn {reservation : Option Nat} (rows : List (Nat × Bucket)) :
    ∀ (db : Db) (f f' : Funding) (db' : Db),
      Commits (overageBuckets reservation rows f) db f' db' → Table.Fetched db.buckets rows →
      0 ≤ f.remaining → OverageDrawn rows f f' db db' := by
  induction rows with
  | nil =>
      intro db f f' db' hcommit _ _
      obtain ⟨rfl, rfl⟩ := commits_pure.mp hcommit
      exact ⟨.refl _, .nil _, fun _ _ hmem => absurd hmem List.not_mem_nil, fun _ _ => rfl⟩
  | cons head rest ih =>
      intro db f f' db' hcommit hfetched h0
      have havailable := available_nonneg head.2
      have hnotin := (List.nodup_cons.mp (List.map_cons ▸ hfetched.nodup)).1
      unfold overageBuckets at hcommit
      rcases commits_ite.mp hcommit with ⟨hdone, hcommit⟩ | ⟨_, hcommit⟩
      · obtain ⟨rfl, rfl⟩ := commits_pure.mp hcommit
        exact .of_done hfetched hdone
      rcases commits_ite.mp hcommit with ⟨hskip, hcommit⟩ | ⟨_, hcommit⟩
      · -- an exhausted bucket is passed over
        have hrest := ih db f f' db' hcommit (hfetched.tail fun _ _ _ => rfl) h0
        have hdraw : draw f.remaining ((head :: rest).map fun entry => entry.2.available) =
            0 :: draw f.remaining (rest.map fun entry => entry.2.available) := by
          show min f.remaining head.2.available :: draw (f.remaining - _) _ = _
          rw [hskip, Int.sub_zero]
        refine ⟨hrest.overdrew, ?_, ?_, ?_⟩
        · rw [hdraw]
          exact ⟨by rw [hrest.took.remaining, List.sum_cons, Int.zero_add],
            by rw [hrest.took.taken, List.sum_cons, Int.zero_add]⟩
        · rw [hdraw]
          intro entry take hmem
          rcases List.mem_cons.mp hmem with heq | hmem
          · obtain ⟨rfl, rfl⟩ := Prod.mk.inj heq
            rw [hrest.other _ hnotin, hfetched.head]
            simp [Bucket.consume]
          · exact hrest.consumed entry take hmem
        · intro i hi
          rw [List.map_cons, List.mem_cons, not_or] at hi
          exact hrest.other i hi.2
      · obtain ⟨_, db₁, hconsume, hloop⟩ := commits_bind.mp hcommit
        obtain ⟨_, db₀, hrecord, hwrite⟩ := commits_bind.mp hconsume
        obtain rfl := commits_write.mp hwrite
        obtain ⟨hoverdrew, hbuckets⟩ := overdrew_recordOverage hrecord (by omega)
        have hother : ∀ i, i ≠ head.1 →
            (db₀.consumeBucket head.1 (min f.remaining head.2.available)).buckets[i]? =
              db.buckets[i]? := by
          intro i hi
          show (db₀.buckets.updateRow _ _)[i]? = _
          rw [hbuckets]
          exact Table.getElem?_updateRow_ne _ _ (Ne.symm hi)
        have hrest := ih _ _ f' db' hloop (hfetched.tail fun i hi _ => hother i hi)
          (by rw [Funding.take_remaining]; omega)
        have htook := hrest.took
        have hrows := hrest.consumed
        rw [Funding.take_remaining] at htook hrows
        have hstep : Overdrew db
            (db₀.consumeBucket head.1 (min f.remaining head.2.available)) :=
          ⟨hoverdrew.allocations, hoverdrew.settlements⟩
        refine ⟨hstep.trans hrest.overdrew, .cons htook, ?_, ?_⟩
        · intro entry take hmem
          rcases List.mem_cons.mp hmem with heq | hmem
          · obtain ⟨rfl, rfl⟩ := Prod.mk.inj heq
            rw [hrest.other _ hnotin]
            show (db₀.buckets.updateRow _ _)[entry.1]? = _
            rw [hbuckets]
            exact Table.getElem?_updateRow_self _ hfetched.head
          · exact hrows entry take hmem
        · intro i hi
          rw [List.map_cons, List.mem_cons, not_or] at hi
          rw [hrest.other i hi.2, hother i hi.1]

/-- What the wallet had available when it was locked. -/
def creditCap (wallet : Option LockedWallet) : Int :=
  match wallet with
  | none => 0
  | some wallet => wallet.availableCredit

theorem creditCap_nonneg (wallet : Option LockedWallet) : 0 ≤ creditCap wallet := by
  cases wallet with
  | none => exact le_rfl
  | some wallet => exact Int.le_max_right ..

theorem overageCredit_drawn {reservation : Option Nat} {wallet : Option LockedWallet}
    {f f' : Funding} {db db' : Db} (h : Commits (overageCredit reservation wallet f) db f' db')
    (h0 : 0 ≤ f.remaining) :
    Overdrew db db' ∧ db'.buckets = db.buckets ∧ f.Took f' [min f.remaining (creditCap wallet)] := by
  have hcap := creditCap_nonneg wallet
  cases wallet with
  | none =>
      obtain ⟨rfl, rfl⟩ := commits_pure.mp h
      refine ⟨.refl _, rfl, .of_zero rfl fun take htake => ?_⟩
      rw [List.mem_singleton.mp htake]
      exact Int.min_eq_right h0
  | some wallet =>
      obtain ⟨_, db₁, hrecord, hpure⟩ := commits_bind.mp h
      obtain ⟨rfl, rfl⟩ := commits_pure.mp hpure
      have hcap : 0 ≤ wallet.availableCredit := hcap
      have hoverdrew : Overdrew db db₁ ∧ db₁.buckets = db.buckets := by
        unfold recordCredit at hrecord
        rcases commits_ite.mp hrecord with ⟨_, hrecord⟩ | ⟨_, hnone⟩
        · exact overdrew_recordOverage hrecord (by omega)
        · obtain ⟨_, rfl⟩ := commits_pure.mp hnone
          exact ⟨.refl _, rfl⟩
      exact ⟨hoverdrew.1, hoverdrew.2, .cons (.nil _)⟩

/-- Buckets and wallet are one draw from what the allocations left. -/
theorem fundOverage_drawn {log : UsageLog} {userId publicModelId : Int}
    {wallet : Option LockedWallet} {reservation : Option Nat} {f f' : Funding} {db db' : Db}
    (h : Commits (fundOverage log userId publicModelId wallet reservation f) db f' db')
    (h0 : 0 ≤ f.remaining) {rows : List (Nat × Bucket)}
    (hrows : rows = db.eligibleBuckets log.projectId userId publicModelId log.createdAt) :
    Overdrew db db' ∧
      f.Took f' (draw f.remaining
        ((rows.map fun entry => entry.2.available) ++ [creditCap wallet])) ∧
      ∀ entry take, (entry, take) ∈ rows.zip (draw f.remaining
        (rows.map fun entry => entry.2.available)) →
        db'.buckets[entry.1]? = some (entry.2.consume take) := by
  have hfetched : Table.Fetched db.buckets rows := hrows ▸ fetched_eligibleBuckets
  have hcap := creditCap_nonneg wallet
  have hsum := sum_draw_le h0 (rows.map fun entry => entry.2.available)
  have hdraw : draw f.remaining ((rows.map fun entry => entry.2.available) ++ [creditCap wallet]) =
      draw f.remaining (rows.map fun entry => entry.2.available) ++
        [min (f.remaining - (draw f.remaining (rows.map fun entry => entry.2.available)).sum)
          (creditCap wallet)] :=
    draw_append _ _ _
  unfold fundOverage at h
  rcases commits_ite.mp h with ⟨_, h⟩ | ⟨hnone, h⟩
  · obtain ⟨db₀, db₁, hread, h⟩ := commits_bind.mp h
    obtain ⟨rfl, rfl⟩ := commits_read.mp hread
    obtain ⟨f₁, db₁, hbuckets, h⟩ := commits_bind.mp h
    rw [← hrows] at hbuckets
    have hloop := overageBuckets_drawn rows db f f₁ db₁ hbuckets hfetched h0
    have hleft := hloop.took.remaining
    rw [hdraw, ← hleft]
    rcases commits_ite.mp h with ⟨_, h⟩ | ⟨hdone, h⟩
    · obtain ⟨hoverdrew, hsame, htook⟩ := overageCredit_drawn h (by omega)
      refine ⟨hloop.overdrew.trans hoverdrew, hloop.took.trans htook, fun entry take hmem => ?_⟩
      rw [hsame]
      exact hloop.consumed entry take hmem
    · obtain ⟨rfl, rfl⟩ := commits_pure.mp h
      refine ⟨hloop.overdrew, hloop.took.trans (.of_zero rfl fun take htake => ?_), hloop.consumed⟩
      rw [List.mem_singleton.mp htake]
      omega
  · obtain ⟨rfl, rfl⟩ := commits_pure.mp h
    have hdone : f.remaining = 0 := by omega
    have hloop := OverageDrawn.of_done hfetched hdone
    refine ⟨.refl _, .of_zero rfl ?_, hloop.consumed⟩
    rw [hdone]
    refine draw_zero ((caps_available rows).append fun cap hmem => ?_)
    rw [List.mem_singleton.mp hmem]
    exact hcap

/-- The debit touches no allocation, bucket or settlement. -/
theorem debitCredit_frame {wallet : Option LockedWallet} {usageLogId amount : Int} {u : Unit}
    {db db' : Db} (h : Commits (debitCredit wallet usageLogId amount) db u db') :
    db'.allocations = db.allocations ∧ db'.buckets = db.buckets ∧
      db'.settlements = db.settlements := by
  unfold debitCredit at h
  rcases commits_ite.mp h with ⟨_, h⟩ | ⟨_, h⟩
  · simp only [commits_bind, commits_orAbort, commits_pure] at h
    obtain ⟨_, _, ⟨_, rfl⟩, _, db₁, hinsert, _, rfl⟩ := h
    obtain ⟨_, _, _, _, _, _, heq⟩ := commits_insertLedgerEntry hinsert
    rw [heq]
    exact ⟨rfl, rfl, rfl⟩
  · obtain ⟨_, rfl⟩ := commits_pure.mp h
    exact ⟨rfl, rfl, rfl⟩

/-! ## The settlement -/

/-- Dedicated allowances, then general ones, then project credit. -/
def AllocationClass.fundingRank : AllocationClass → Nat
  | dedicated => 0
  | general => 1
  | projectCredit => 2

/-- The tables a charge is settled on: those of some run, with the charge event written and
a reservation captured or none. -/
def Db.Settling (db : Db) : Prop :=
  ∃ (cal : Calendar) (projects : List (Int × WalletStatus)) (before : Db) (event : ChargeEvent)
    (key : Option String) (wallet : Option LockedWallet) (userId publicModelId : Int)
    (now : Instant) (captured : Option CapturingReservation),
    (billing cal projects).Reachable before ∧
      Commits (captureReservation key wallet userId publicModelId now)
        { before with chargeEvents := before.chargeEvents.insertRow event } captured db

/-- Every writer of allocations keeps their expiry to their class. -/
theorem Db.Settling.dated {db : Db} (h : db.Settling) {i : Nat} {a : Allocation}
    (ha : db.allocations[i]? = some a) : a.Dated := by
  obtain ⟨cal, projects, before, event, key, wallet, userId, publicModelId, now, captured,
    hreach, hcapture⟩ := h
  have hbooks := ((sound_inductive cal projects).invariant before hreach).books
  have hwritten : Books { before with chargeEvents := before.chargeEvents.insertRow event } :=
    hbooks.frame rfl rfl rfl rfl rfl rfl
  exact ((captureReservation_keeps hwritten hcapture).2.accounted.sound i a ha).dated

/-- What was drawn from the sources of a settlement: the allocations `own`, the
buckets and the wallet. -/
structure Takes where
  own : List Int
  buckets : List Int
  credit : Int

def Takes.all (takes : Takes) : List Int := takes.own ++ takes.buckets ++ [takes.credit]

/-- What the three stages draw of a charge. -/
def Takes.ofStages (charge : Int) (own buckets : List Int) (cap : Int) : Takes :=
  let left := charge - (draw charge own).sum
  ⟨draw charge own, draw left buckets, min (left - (draw left buckets).sum) cap⟩

/-- The stages are one draw. -/
theorem Takes.all_ofStages (charge : Int) (own buckets : List Int) (cap : Int) :
    (ofStages charge own buckets cap).all = draw charge (own ++ buckets ++ [cap]) := by
  rw [List.append_assoc, draw_append, draw_append]
  exact List.append_assoc _ _ _

/-- The settlement of a charge conserves it: it is drawn from the sources in
order, each row changes by what was drawn from it, and the amounts add up. -/
structure Conserves (db : Db) (own : List (Nat × Allocation)) (buckets : List (Nat × Bucket))
    (cap amount : Int) (funding : SettlementFunding) (db' : Db) (takes : Takes) : Prop where
  /-- Nothing is drawn from a source while an earlier one has something left. -/
  drawn : Drawn (max amount 0)
    ((own.map fun entry => entry.2.outstanding) ++ (buckets.map fun entry => entry.2.available) ++
      [cap]) takes.all
  lengths : takes.own.length = own.length ∧ takes.buckets.length = buckets.length
  /-- In every run the own allocations come in funding order. -/
  ordered : db.Settling → own.Pairwise fun x y =>
    x.2.allocationClass.fundingRank ≤ y.2.allocationClass.fundingRank
  /-- An own allocation captures what was drawn and releases the rest of what
  was outstanding; overage of its source is reserved and captured on top. -/
  allocations : ∀ entry take, (entry, take) ∈ own.zip takes.own → ∃ extra, 0 ≤ extra ∧
    db'.allocations[entry.1]? = some { entry.2 with
      reservedMicros := entry.2.reservedMicros + extra
      capturedMicros := entry.2.capturedMicros + take + extra
      releasedMicros := entry.2.releasedMicros + (entry.2.outstanding - take) }
  buckets : ∀ entry take, (entry, take) ∈ buckets.zip takes.buckets →
    db'.buckets[entry.1]? = some (entry.2.consume take)
  /-- The amounts of the settlement are what was drawn, and it is settled when
  nothing is short. -/
  settlement : ∃ settlement : ChargeSettlement,
    db'.settlements = db.settlements.insertRow settlement ∧
    settlement.subscriptionAmountMicros + settlement.creditAmountMicros = takes.all.sum ∧
    (settlement.status = .settled ↔ funding.shortfallMicros = 0)
  /-- What was drawn and what is short are the charge, clamped at zero. -/
  covered : takes.all.sum + funding.shortfallMicros = max amount 0
  funded : funding.fundedMicros = amount - funding.shortfallMicros

/-- A charge that is not negative is funded by what was drawn. -/
theorem Conserves.funded_eq {db db' : Db} {own : List (Nat × Allocation)}
    {buckets : List (Nat × Bucket)} {cap amount : Int} {funding : SettlementFunding}
    {takes : Takes} (h : Conserves db own buckets cap amount funding db' takes)
    (h0 : 0 ≤ amount) : takes.all.sum = funding.fundedMicros := by
  have hcovered := h.covered
  rw [h.funded]
  omega

theorem expiryOrder_total (x y : Option Instant × Nat) : expiryOrder x y ∨ expiryOrder y x := by
  obtain ⟨_ | t, i⟩ := x <;> obtain ⟨_ | u, j⟩ := y
  · exact Nat.le_total i j
  · exact .inr trivial
  · exact .inl trivial
  · rcases lt_trichotomy t u with h | h | h
    · exact .inl (.inl h)
    · exact (Nat.le_total i j).imp (fun hle => .inr ⟨h, hle⟩) fun hle => .inr ⟨h.symm, hle⟩
    · exact .inr (.inl h)

theorem expiryOrder_trans {x y z : Option Instant × Nat} (hxy : expiryOrder x y)
    (hyz : expiryOrder y z) : expiryOrder x z := by
  obtain ⟨_ | t, i⟩ := x <;> obtain ⟨_ | u, j⟩ := y <;> obtain ⟨_ | v, k⟩ := z <;>
    simp only [expiryOrder] at hxy hyz ⊢
  · exact Nat.le_trans hxy hyz
  · rcases hxy with hxy | ⟨rfl, hij⟩
    · exact .inl (hyz.elim (fun hyz => lt_trans hxy hyz) fun hyz => hyz.1 ▸ hxy)
    · exact hyz.imp id fun hyz => ⟨hyz.1, Nat.le_trans hij hyz.2⟩

instance : Std.Total allocationOrder where
  total x y := by
    unfold allocationOrder
    have := expiryOrder_total (x.2.expiresAtSnapshot, x.1) (y.2.expiresAtSnapshot, y.1)
    rcases Nat.lt_trichotomy x.2.allocationClass.rank y.2.allocationClass.rank with h | h | h
    · exact .inl (.inl h)
    · exact this.imp (fun this => .inr ⟨h, this⟩) fun this => .inr ⟨h.symm, this⟩
    · exact .inr (.inl h)

instance : IsTrans (Nat × Allocation) allocationOrder where
  trans x y z hxy hyz := by
    unfold allocationOrder at hxy hyz ⊢
    rcases hxy with hxy | ⟨hxy, hexpiry⟩
    · rcases hyz with hyz | ⟨hyz, -⟩
      · exact .inl (hxy.trans hyz)
      · exact .inl (hyz ▸ hxy)
    · rcases hyz with hyz | ⟨hyz, hexpiry'⟩
      · exact .inl (hxy ▸ hyz)
      · exact .inr ⟨hxy.trans hyz, expiryOrder_trans hexpiry hexpiry'⟩

/-- Where project credit does not expire, it comes last. -/
theorem fundingRank_le {x y : Nat × Allocation} (h : allocationOrder x y)
    (hx : x.2.Dated) (hy : y.2.Dated) :
    x.2.allocationClass.fundingRank ≤ y.2.allocationClass.fundingRank := by
  have hrank : x.2.allocationClass.rank ≤ y.2.allocationClass.rank := by
    rcases h with h | h
    · exact Nat.le_of_lt h
    · exact Nat.le_of_eq h.1
  cases hyc : y.2.allocationClass with
  | projectCredit => cases x.2.allocationClass <;> decide
  | dedicated =>
      cases hxc : x.2.allocationClass with
      | dedicated => decide
      | general =>
          rw [hxc, hyc] at hrank
          exact absurd hrank (by decide)
      | projectCredit =>
          rw [hxc, hyc] at hrank
          exact absurd hrank (by decide)
  | general =>
      cases hxc : x.2.allocationClass with
      | projectCredit =>
          -- its expiry would put the credit first, and it has none
          have hexpiry : expiryOrder (x.2.expiresAtSnapshot, x.1) (y.2.expiresAtSnapshot, y.1) := by
            rcases h with h | h
            · rw [hxc, hyc] at h
              exact absurd h (Nat.lt_irrefl 1)
            · exact h.2
          rw [hx.mp hxc] at hexpiry
          cases hye : y.2.expiresAtSnapshot with
          | none => exact AllocationClass.noConfusion (hyc.symm.trans (hy.mpr hye))
          | some t =>
              rw [hye] at hexpiry
              exact hexpiry.elim
      | general => decide
      | dedicated => decide

theorem fetched_captureOrder (db : Db) (reservation : Option Nat) :
    Table.Fetched db.allocations (db.captureOrder reservation) := by
  cases reservation with
  | none => exact ⟨List.nodup_nil, fun _ hmem => absurd hmem List.not_mem_nil⟩
  | some id => exact (Table.fetched_selectWhere ..).perm (List.perm_insertionSort ..)

theorem captureOrder_ordered {db : Db} {reservation : Option Nat} (h : db.Settling) :
    (db.captureOrder reservation).Pairwise fun x y =>
      x.2.allocationClass.fundingRank ≤ y.2.allocationClass.fundingRank := by
  have hsorted : (db.captureOrder reservation).Pairwise allocationOrder := by
    cases reservation with
    | none => exact .nil
    | some id => exact List.pairwise_insertionSort _ _
  have hcurrent := (fetched_captureOrder db reservation).current
  exact hsorted.imp_of_mem fun hx hy hxy =>
    fundingRank_le hxy (h.dated (hcurrent _ hx)) (h.dated (hcurrent _ hy))

def dedicatedRule : QuotaRule where
  id := 1
  ruleKey := "dedicated"
  quotaClass := .dedicated
  amountMicros := 3
  rolloverMode := .none
  rolloverCapMicros := none
  carryDurationSeconds := none
  accessPlanIds := [4]
  positive := by decide

def generalRule (amount : Int) (positive : 0 < amount) : QuotaRule where
  id := 2
  ruleKey := "general"
  quotaClass := .general
  amountMicros := amount
  rolloverMode := .none
  rolloverCapMicros := none
  carryDurationSeconds := none
  accessPlanIds := []
  positive := positive

/-- A monthly plan with some rules; the access plan of a dedicated one lists the model. -/
def monthlyAssignment (key : String) (rules : List QuotaRule) : Assignment where
  request := ⟨7, 1, 1, false, none, none⟩
  assignmentKey := key
  userExists := true
  activeMember := true
  plan := some ⟨true, .month, 1, [], rules⟩
  catalog := ⟨[(4, 40)], [(40, 9)]⟩

/-- A reservation of six with an allocation of each class, and a bucket that came later. -/
def overdrawnRun : List Op :=
  [.grantProjectCredit true ⟨1, 10, "grant", by decide⟩,
    .assignUserSubscription
      (monthlyAssignment "first" [generalRule 2 (by decide), dedicatedRule]) 0,
    .reserveRequest .hardEnforce 900 0 ⟨"key", 1, "model", some 7, .priced 9 (.ok 6)⟩,
    .assignUserSubscription (monthlyAssignment "second" [generalRule 4 (by decide)]) 5]

def overdrawn : Db :=
  (billing thirtyDays [(1, .active)]).run (billing thirtyDays [(1, .active)]).init overdrawnRun

/-- The tables when a charge of twelve is settled. -/
def overdrawnSettling : Db :=
  (captureReservation (some "key") (some ⟨0, 10, 1⟩) 7 9 20).commit
    { overdrawn with
      chargeEvents := overdrawn.chargeEvents.insertRow ⟨1, 5, some 9, .calculated⟩ }

def overdrawnSettlement : Tx SettlementFunding :=
  settlePersistedAllocations 0 ⟨1, 5, 1, 20⟩ 7 9 (some ⟨0, 10, 1⟩) 12 (some 0)

theorem overdrawn_settling : overdrawnSettling.Settling :=
  ⟨thirtyDays, [(1, .active)], overdrawn, ⟨1, 5, some 9, .calculated⟩, some "key",
    some ⟨0, 10, 1⟩, 7, 9, 20, some ⟨0, 0⟩, ⟨overdrawnRun, rfl⟩, rfl⟩

end Conduit.Billing
