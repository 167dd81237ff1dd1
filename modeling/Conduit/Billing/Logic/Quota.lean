import Conduit.Billing.Logic.Frame

/-!
# Quota

`Quota`: no bucket gives out more than it was granted, where giving out is
consuming, reserving and carrying over. Only a bucket that is neither active
nor paused has been carried over, each at most once and by at most its rule's
cap, and an expired bucket reserves nothing. A row update keeps this when it
keeps the row's own bounds (`Within`), so most statements need one fact about
one row.
-/

namespace Conduit.Billing

open Base Transaction

/-- What was granted to the carry buckets sourced from a bucket. -/
def Db.carried (db : Db) (bucketId : Nat) : Int :=
  db.buckets.total fun c => if c.sourceBucketId = some bucketId then c.grantedMicros else 0

/-- The bounds of a bucket of which `carried` was carried over. -/
structure Bucket.Within (carried : Int) (b : Bucket) : Prop where
  consumed_nonneg : 0 ≤ b.consumedMicros
  reserved_nonneg : 0 ≤ b.reservedMicros
  spent : b.consumedMicros + b.reservedMicros + carried ≤ b.grantedMicros
  expired : b.status = .expired → b.reservedMicros = 0
  uncarried : b.status.current = true → carried = 0

/-- A carry bucket is covered by its source's rule. -/
structure CarryOf (db : Db) (carry : Bucket) (sourceId : Nat) : Prop where
  positive : 0 < carry.grantedMicros
  source : ∃ source, db.buckets[sourceId]? = some source ∧
    source.quotaRuleSnapshotId = carry.quotaRuleSnapshotId
  capped : ∃ rule, db.ruleSnapshots[carry.quotaRuleSnapshotId]? = some rule ∧
    carry.grantedMicros ≤ rule.rolloverCapMicros.getD 0

structure Quota (db : Db) : Prop where
  within : ∀ (b : Nat) (row : Bucket), db.buckets[b]? = some row → row.Within (db.carried b)
  carry : ∀ (c b : Nat) (row : Bucket), db.buckets[c]? = some row → row.sourceBucketId = some b →
    CarryOf db row b
  carryUnique : ∀ (i j b : Nat) (x y : Bucket), db.buckets[i]? = some x → db.buckets[j]? = some y →
    x.sourceBucketId = some b → y.sourceBucketId = some b → i = j
  ruleAmount : ∀ (i : Nat) (rule : QuotaRuleSnapshot), db.ruleSnapshots[i]? = some rule →
    0 ≤ rule.amountMicros

/-! ## One row -/

namespace Bucket.Within

variable {carried : Int} {b : Bucket}

theorem available_eq (h : b.Within carried) (hactive : b.status.current = true) :
    b.consumedMicros + b.reservedMicros + b.available = b.grantedMicros := by
  have hspent := h.spent
  have hzero := h.uncarried hactive
  unfold Bucket.available
  omega

theorem reserve (h : b.Within carried) (hactive : b.status.current = true) {take : Int}
    (h0 : 0 ≤ take) (htake : take ≤ b.available) :
    Within carried { b with reservedMicros := b.reservedMicros + take } where
  consumed_nonneg := h.consumed_nonneg
  reserved_nonneg := Int.add_nonneg h.reserved_nonneg h0
  spent := by
    have havailable := h.available_eq hactive
    have hzero := h.uncarried hactive
    dsimp only
    omega
  expired hexpired := by
    rw [show b.status = .expired from hexpired] at hactive
    exact absurd hactive (by simp [BucketStatus.current])
  uncarried := h.uncarried

theorem consume (h : b.Within carried) (hactive : b.status.current = true) {take : Int}
    (h0 : 0 ≤ take) (htake : take ≤ b.available) :
    Within carried { b with consumedMicros := b.consumedMicros + take } where
  consumed_nonneg := Int.add_nonneg h.consumed_nonneg h0
  reserved_nonneg := h.reserved_nonneg
  spent := by
    have havailable := h.available_eq hactive
    have hzero := h.uncarried hactive
    dsimp only
    omega
  expired := h.expired
  uncarried := h.uncarried

/-- Giving back what was reserved and consuming at most that. -/
theorem drain (h : b.Within carried) {outstanding take : Int} (h0 : 0 ≤ take)
    (htake : take ≤ outstanding) (hreserved : outstanding ≤ b.reservedMicros) :
    Within carried (b.drain outstanding take) where
  consumed_nonneg := Int.add_nonneg h.consumed_nonneg h0
  reserved_nonneg := Int.le_max_right ..
  spent := by
    have hspent := h.spent
    show b.consumedMicros + take + max (b.reservedMicros - outstanding) 0 + carried ≤
      b.grantedMicros
    omega
  expired hexpired := by
    unfold Bucket.drain at hexpired ⊢
    dsimp only at hexpired ⊢
    split at hexpired
    · next hdrained => exact hdrained.2
    · have hzero := h.expired hexpired
      omega
  uncarried hcurrent := by
    refine h.uncarried ?_
    unfold Bucket.drain at hcurrent
    dsimp only at hcurrent
    split at hcurrent
    · exact absurd hcurrent (by simp [BucketStatus.current])
    · exact hcurrent

theorem retire (h : b.Within carried) : Within carried b.retire where
  consumed_nonneg := h.consumed_nonneg
  reserved_nonneg := h.reserved_nonneg
  spent := h.spent
  expired hexpired := by
    have hnonneg := h.reserved_nonneg
    unfold Bucket.retire at hexpired ⊢
    dsimp only at hexpired ⊢
    split at hexpired
    · exact absurd hexpired (by simp)
    · omega
  uncarried hcurrent := by
    unfold Bucket.retire at hcurrent
    dsimp only at hcurrent
    split at hcurrent
    · exact absurd hcurrent (by simp [BucketStatus.current])
    · exact absurd hcurrent (by simp [BucketStatus.current])

/-- Pausing and resuming. -/
theorem setStatus (h : b.Within carried) (hcurrent : b.status.current = true)
    {status : BucketStatus} (hstatus : status ≠ .expired) : Within carried { b with status } where
  consumed_nonneg := h.consumed_nonneg
  reserved_nonneg := h.reserved_nonneg
  spent := h.spent
  expired hexpired := absurd hexpired hstatus
  uncarried _ := h.uncarried hcurrent

end Bucket.Within

/-! ## Statements that update rows -/

namespace Quota

variable {db : Db}

/-- Quota depends on buckets and rule snapshots only. -/
theorem frame {db' : Db} (h : Quota db) (hbuckets : db'.buckets = db.buckets)
    (hrules : db'.ruleSnapshots = db.ruleSnapshots) : Quota db' := by
  have hcarried : ∀ b, db'.carried b = db.carried b := by
    intro b
    unfold Db.carried
    rw [hbuckets]
  exact
    { within := fun b row hrow => hcarried b ▸ h.within b row (hbuckets ▸ hrow)
      carry := by
        intro c b row hrow hsource
        obtain ⟨hpos, ⟨source, hs, hrule⟩, rule, hr, hcap⟩ := h.carry c b row (hbuckets ▸ hrow) hsource
        exact ⟨hpos, ⟨source, hbuckets ▸ hs, hrule⟩, rule, hrules ▸ hr, hcap⟩
      carryUnique := fun i j b x y hx hy => h.carryUnique i j b x y (hbuckets ▸ hx) (hbuckets ▸ hy)
      ruleAmount := fun i rule hrule => h.ruleAmount i rule (hrules ▸ hrule) }

/-- Row updates keep the quota when they keep the bounds of each row. -/
theorem update {db' : Db} (h : Quota db) (hlength : db'.buckets.length = db.buckets.length)
    (hrules : db'.ruleSnapshots = db.ruleSnapshots)
    (hrows : ∀ (b : Nat) (row' : Bucket), db'.buckets[b]? = some row' →
      ∃ row, db.buckets[b]? = some row ∧ row'.SameIssue row ∧
        (row.Within (db.carried b) → row'.Within (db.carried b))) :
    Quota db' := by
  have hcarried : ∀ b, db'.carried b = db.carried b := by
    intro b
    refine Table.total_eq_of_rows hlength fun i x y hx hy => ?_
    obtain ⟨row, hrow, hsame, _⟩ := hrows i y hy
    obtain rfl := Option.some.inj (hrow.symm.trans hx)
    rw [hsame.source, hsame.granted]
  exact
    { within := by
        intro b row' hrow'
        obtain ⟨row, hrow, _, hwithin⟩ := hrows b row' hrow'
        rw [hcarried]
        exact hwithin (h.within b row hrow)
      carry := by
        intro c b row' hrow' hsource
        obtain ⟨row, hrow, hsame, _⟩ := hrows c row' hrow'
        obtain ⟨hpos, ⟨source, hs, hrule⟩, rule, hr, hcap⟩ :=
          h.carry c b row hrow (hsame.source ▸ hsource)
        have hlt : b < db'.buckets.length := hlength ▸ Table.getElem?_lt hs
        obtain ⟨source', hs', hsame', _⟩ :=
          hrows b _ (List.getElem?_eq_getElem hlt)
        obtain rfl := Option.some.inj (hs'.symm.trans hs)
        refine ⟨hsame.granted ▸ hpos, ⟨_, List.getElem?_eq_getElem hlt, ?_⟩, rule, ?_, ?_⟩
        · rw [hsame'.rule, hrule, hsame.rule]
        · rw [hrules, hsame.rule]
          exact hr
        · rw [hsame.granted]
          exact hcap
      carryUnique := by
        intro i j b x y hx hy hxb hyb
        obtain ⟨x', hx', hsamex, _⟩ := hrows i x hx
        obtain ⟨y', hy', hsamey, _⟩ := hrows j y hy
        exact h.carryUnique i j b x' y' hx' hy' (hsamex.source ▸ hxb) (hsamey.source ▸ hyb)
      ruleAmount := fun i rule hrule => h.ruleAmount i rule (hrules ▸ hrule) }

/-- An update of one bucket. -/
theorem updateRow (h : Quota db) {id : Nat} {f : Bucket → Bucket}
    (hsame : ∀ b, (f b).SameIssue b)
    (hwithin : ∀ row, db.buckets[id]? = some row → row.Within (db.carried id) →
      (f row).Within (db.carried id)) :
    Quota { db with buckets := db.buckets.updateRow id f } := by
  refine h.update (Table.length_updateRow ..) rfl fun b row' hrow' => ?_
  rcases Table.getElem?_updateRow_cases hrow' with ⟨rfl, row, hrow, rfl⟩ | ⟨_, hrow⟩
  · exact ⟨row, hrow, hsame row, hwithin row hrow⟩
  · exact ⟨row', hrow, ⟨rfl, rfl, rfl⟩, fun hold => hold⟩

/-- An update of the matching buckets. -/
theorem updateWhere (h : Quota db) {p : Bucket → Bool} {f : Bucket → Bucket}
    (hsame : ∀ b, (f b).SameIssue b)
    (hwithin : ∀ row carried, p row = true → row.Within carried → (f row).Within carried) :
    Quota { db with buckets := db.buckets.updateWhere p f } := by
  refine h.update (Table.length_updateWhere ..) rfl fun b row' hrow' => ?_
  obtain ⟨row, hrow, rfl⟩ := Table.getElem?_updateWhere_cases hrow'
  refine ⟨row, hrow, ?_, ?_⟩
  · split
    · exact hsame row
    · exact ⟨rfl, rfl, rfl⟩
  · split
    · next hp => exact hwithin row _ hp
    · exact fun hold => hold

/-- A bucket that exists was not carried over if it is still current. -/
theorem not_carried (h : Quota db) {b : Nat} {row : Bucket} (hrow : db.buckets[b]? = some row)
    (hcurrent : row.status.current = true) {c : Nat} {carry : Bucket}
    (hc : db.buckets[c]? = some carry) : carry.sourceBucketId ≠ some b := by
  intro hsource
  have hzero := (h.within b row hrow).uncarried hcurrent
  have hpos := (h.carry c b carry hc hsource).positive
  have hle : (if carry.sourceBucketId = some b then carry.grantedMicros else 0) ≤ db.carried b := by
    refine Table.le_total (f := fun c : Bucket =>
      if c.sourceBucketId = some b then c.grantedMicros else 0) (fun i x hx => ?_) hc
    split
    · next hx_source => exact Int.le_of_lt (h.carry i b x hx hx_source).positive
    · exact Int.le_refl 0
  rw [if_pos hsource] at hle
  omega

/-- Nothing is carried over from a bucket that is not there yet. -/
theorem carried_new (h : Quota db) {b : Nat} (hb : db.buckets.length ≤ b) : db.carried b = 0 := by
  refine Table.total_eq_zero fun i row hrow => if_neg fun hsource => ?_
  obtain ⟨source, hs, _⟩ := (h.carry i b row hrow hsource).source
  have hlt := Table.getElem?_lt hs
  omega

/-- A new bucket, granted to a rule or carried over from a closed source that
has enough left and no other carry. -/
theorem insertRow (h : Quota db) {row : Bucket} (hconsumed : row.consumedMicros = 0)
    (hreserved : row.reservedMicros = 0) (hgranted : 0 ≤ row.grantedMicros)
    (hcarry : ∀ b, row.sourceBucketId = some b → CarryOf db row b ∧
      (∀ (i : Nat) (other : Bucket), db.buckets[i]? = some other → other.sourceBucketId ≠ some b) ∧
      ∀ source, db.buckets[b]? = some source → source.status.current = false ∧
        source.consumedMicros + source.reservedMicros + row.grantedMicros ≤ source.grantedMicros) :
    Quota { db with buckets := db.buckets.insertRow row } := by
  have hcarried : ∀ b, Db.carried { db with buckets := db.buckets.insertRow row } b =
      db.carried b + if row.sourceBucketId = some b then row.grantedMicros else 0 :=
    fun b => Table.total_insertRow ..
  exact
    { within := by
        intro b x hx
        rw [hcarried]
        rcases Table.getElem?_insertRow_cases hx with ⟨hb, rfl⟩ | hold
        · have hself : x.sourceBucketId ≠ some b := by
            intro hsource
            obtain ⟨source, hs, _⟩ := (hcarry b hsource).1.source
            have hlt := Table.getElem?_lt hs
            omega
          rw [h.carried_new (Nat.le_of_eq hb.symm), if_neg hself]
          exact ⟨Int.le_of_eq hconsumed.symm, Int.le_of_eq hreserved.symm, by omega,
            fun _ => hreserved, fun _ => rfl⟩
        · have hwithin := h.within b x hold
          split
          · next hsource =>
              obtain ⟨_, hnone, hclosed⟩ := hcarry b hsource
              obtain ⟨hcurrent, hleft⟩ := hclosed x hold
              have hzero : db.carried b = 0 :=
                Table.total_eq_zero fun i other hother => if_neg (hnone i other hother)
              refine ⟨hwithin.consumed_nonneg, hwithin.reserved_nonneg, by omega,
                hwithin.expired, fun hc => ?_⟩
              rw [hcurrent] at hc
              exact absurd hc (by simp)
          · rw [Int.add_zero]
            exact hwithin
      carry := by
        have hgrow : ∀ (c : Bucket) (b : Nat), CarryOf db c b →
            CarryOf { db with buckets := db.buckets.insertRow row } c b := by
          rintro c b ⟨hpos, ⟨source, hs, hrule⟩, hcapped⟩
          exact ⟨hpos, ⟨source, Table.getElem?_insertRow_of_some row hs, hrule⟩, hcapped⟩
        intro c b x hx hsource
        rcases Table.getElem?_insertRow_cases hx with ⟨_, rfl⟩ | hold
        · exact hgrow x b (hcarry b hsource).1
        · exact hgrow x b (h.carry c b x hold hsource)
      carryUnique := by
        intro i j b x y hx hy hxb hyb
        rcases Table.getElem?_insertRow_cases hx with ⟨hi, rfl⟩ | hx_old
        · rcases Table.getElem?_insertRow_cases hy with ⟨hj, _⟩ | hy_old
          · exact hi.trans hj.symm
          · exact absurd hyb ((hcarry b hxb).2.1 j y hy_old)
        · rcases Table.getElem?_insertRow_cases hy with ⟨_, rfl⟩ | hy_old
          · exact absurd hxb ((hcarry b hyb).2.1 i x hx_old)
          · exact h.carryUnique i j b x y hx_old hy_old hxb hyb
      ruleAmount := h.ruleAmount }

/-- A new quota rule. -/
theorem insertRule (h : Quota db) {rule : QuotaRuleSnapshot} (hamount : 0 ≤ rule.amountMicros) :
    Quota { db with ruleSnapshots := db.ruleSnapshots.insertRow rule } where
  within := h.within
  carry c b row hrow hsource := by
    obtain ⟨hpos, hs, old, hold, hcap⟩ := h.carry c b row hrow hsource
    exact ⟨hpos, hs, old, Table.getElem?_insertRow_of_some rule hold, hcap⟩
  carryUnique := h.carryUnique
  ruleAmount i x hx := by
    rcases Table.getElem?_insertRow_cases hx with ⟨_, rfl⟩ | hold
    · exact hamount
    · exact h.ruleAmount i x hold

end Quota

end Conduit.Billing
