import Conduit.Orchestrator.Routing
import Mathlib

/-!
# Which routes a request gets

The load balancer cuts every priority group to the number of channels a
request may try before the health of the routes is known, and the affinity is
put on record before the routes are sorted by priority and health. What it
picks are the first places of each group in its order (`picked_eq`). So the
order of the routes is complete exactly when no route behind them was needed
(`FallbacksKept`), and the affinity is what the record says exactly when its
target has the smallest sort key (`AffinityLeads`).
-/

namespace Conduit.Orchestrator

open Base

variable {σ Settings : Type}

/-! ## Credentials -/

section Credentials

variable (fingerprint : Fingerprint) (traceId : Option String) (signals : RouteHealthSignals)

/-- Some credential the request may use on the candidate is not unhealthy. -/
def usable (candidate : ChannelModelsCandidate Settings) : Bool :=
  (credentialChoices candidate traceId).any fun credential =>
    signals.status (healthTarget fingerprint candidate credential) ≠ .unhealthy

variable {fingerprint traceId signals} {candidate : ChannelModelsCandidate Settings}

theorem mem_of_selectHealthyCredential {credential : Option String}
    (h : selectHealthyCredential fingerprint candidate traceId signals = some credential) :
    credential ∈ credentialChoices candidate traceId ∧
      signals.status (healthTarget fingerprint candidate credential) ≠ .unhealthy := by
  have hmem := perm_rank.mem_iff.mp (List.mem_of_mem_head? h)
  obtain ⟨hchoice, hstatus⟩ := List.mem_filter.mp hmem
  exact ⟨hchoice, of_decide_eq_true hstatus⟩

theorem isSome_selectHealthyCredential :
    (selectHealthyCredential fingerprint candidate traceId signals).isSome =
      usable fingerprint traceId signals candidate := by
  apply Bool.eq_iff_iff.mpr
  constructor
  · intro h
    obtain ⟨credential, hselect⟩ := Option.isSome_iff_exists.mp h
    obtain ⟨hchoice, hstatus⟩ := mem_of_selectHealthyCredential hselect
    exact List.any_eq_true.mpr ⟨credential, hchoice, decide_eq_true hstatus⟩
  · intro h
    obtain ⟨credential, hchoice, hstatus⟩ := List.any_eq_true.mp h
    have hmem : credential ∈ (credentialChoices candidate traceId).filter fun c =>
        signals.status (healthTarget fingerprint candidate c) ≠ .unhealthy :=
      List.mem_filter.mpr ⟨hchoice, hstatus⟩
    unfold selectHealthyCredential
    apply List.isSome_head?.mpr
    intro hnil
    apply List.not_mem_nil (a := credential)
    rw [← hnil]
    exact perm_rank.mem_iff.mpr hmem

/-- The credentials whose health is asked for are among the choices. -/
theorem keyedCredentials_subset {credential : Option String}
    (h : credential ∈ keyedCredentials candidate) : credential ∈ credentialChoices candidate traceId := by
  unfold keyedCredentials at h
  unfold credentialChoices
  by_cases hempty : candidate.enabledCredentials = []
  · have hpreferred : selectTraceStickyCredential candidate.enabledCredentials
        candidate.activeCredential traceId = candidate.activeCredential := by
      unfold selectTraceStickyCredential
      rw [hempty]
      cases traceId <;> rfl
    rw [hpreferred]
    rw [hempty] at h ⊢
    obtain rfl := List.mem_singleton.mp h
    cases candidate.activeCredential <;> simp
  · rw [if_neg (by simpa using hempty)] at h
    extract_lets preferred first choices
    have hchoice : credential ∈ choices := by
      by_cases hfirst : credential ∈ first
      · exact List.mem_append_left _ hfirst
      · exact List.mem_append_right _ (mem_firstBy_id.mpr ⟨h, hfirst⟩)
    rw [if_neg]
    · exact hchoice
    · intro hnil
      rw [List.isEmpty_iff.mp hnil] at hchoice
      exact absurd hchoice List.not_mem_nil

end Credentials

/-! ## The affinity -/

section Affinity

variable {fingerprint : Fingerprint} {traceId : Option String} {signals : RouteHealthSignals}
  {resolved : List (ChannelModelsCandidate Settings)}

theorem hintedCredential_eq_some {hint : RouteAffinityHint}
    {candidate : ChannelModelsCandidate Settings} {credential : Option String}
    (h : hintedCredential fingerprint signals hint candidate = some credential) :
    credential ∈ keyedCredentials candidate ∧
      signals.status (healthTarget fingerprint candidate credential) ≠ .unhealthy := by
  unfold hintedCredential at h
  split at h
  · exact absurd h (by simp)
  · cases hfind : affinityCredential fingerprint candidate hint.credentialIdentity with
    | none =>
        rw [hfind] at h
        exact absurd h (by simp)
    | some found =>
        rw [hfind] at h
        simp only at h
        split at h
        · exact absurd h (by simp)
        · next hstatus =>
            obtain rfl := Option.some.inj h
            exact ⟨List.mem_of_find?_eq_some hfind, hstatus⟩

/-- The affinity is at one of the ordered candidates, with a credential of it
that is not unhealthy. -/
theorem resolveRouteAffinity_eq_some {hints : List RouteAffinityHint} {orderedIndices : List Nat}
    {affinity : ResolvedRouteAffinity}
    (h : resolveRouteAffinity fingerprint hints resolved orderedIndices signals = some affinity) :
    affinity.index ∈ orderedIndices ∧ ∃ candidate, resolved[affinity.index]? = some candidate ∧
      affinity.credential ∈ keyedCredentials candidate ∧
      signals.status (healthTarget fingerprint candidate affinity.credential) ≠ .unhealthy := by
  obtain ⟨hint, -, h⟩ := List.exists_of_findSome?_eq_some h
  obtain ⟨index, hindex, h⟩ := List.exists_of_findSome?_eq_some h
  obtain ⟨credential, hcredential, rfl⟩ := Option.map_eq_some_iff.mp h
  obtain ⟨candidate, hget, hhinted⟩ := Option.bind_eq_some_iff.mp hcredential
  exact ⟨hindex, candidate, hget, hintedCredential_eq_some hhinted⟩

/-- `routes` has the affinity that its own candidates and signals resolve to. -/
def Routes.Sound (routes : Routes Settings) : Prop :=
  ∀ affinity : ResolvedRouteAffinity, routes.affinity = some affinity →
    ∃ candidate, routes.resolved[affinity.index]? = some candidate ∧
      affinity.credential ∈ keyedCredentials candidate ∧
      routes.signals.status (healthTarget routes.fingerprint candidate affinity.credential) ≠
        .unhealthy

/-- A route is usable if its candidate is. -/
def Routes.usableAt (routes : Routes Settings) (index : Nat) : Bool :=
  routes.resolved[index]?.any (usable routes.fingerprint routes.traceId routes.signals)

namespace Routes

variable {routes : Routes Settings} {index : Nat}

/-- The credential of a route is not unhealthy. -/
theorem selectedCredential_eq_some (hsound : routes.Sound) {credential : Option String}
    (h : routes.selectedCredential index = some credential) :
    ∃ candidate, routes.resolved[index]? = some candidate ∧
      credential ∈ credentialChoices candidate routes.traceId ∧
      routes.signals.status (healthTarget routes.fingerprint candidate credential) ≠
        .unhealthy := by
  obtain ⟨candidate, hget, h⟩ := Option.bind_eq_some_iff.mp h
  refine ⟨candidate, hget, ?_⟩
  cases hfilter : routes.affinity.filter fun affinity => affinity.index = index with
  | none =>
      rw [hfilter] at h
      exact mem_of_selectHealthyCredential h
  | some affinity =>
      rw [hfilter] at h
      obtain rfl := Option.some.inj h
      obtain ⟨haffinity, hindex⟩ := Option.filter_eq_some_iff.mp hfilter
      obtain ⟨other, hother, hkeyed, hstatus⟩ := hsound affinity haffinity
      rw [of_decide_eq_true hindex, hget] at hother
      obtain rfl := Option.some.inj hother
      exact ⟨keyedCredentials_subset hkeyed, hstatus⟩

theorem isSome_selectedCredential (hsound : routes.Sound) :
    (routes.selectedCredential index).isSome = routes.usableAt index := by
  apply Bool.eq_iff_iff.mpr
  constructor
  · intro h
    obtain ⟨credential, hselected⟩ := Option.isSome_iff_exists.mp h
    obtain ⟨candidate, hget, hchoice, hstatus⟩ := selectedCredential_eq_some hsound hselected
    unfold usableAt
    rw [hget]
    exact List.any_eq_true.mpr ⟨credential, hchoice, decide_eq_true hstatus⟩
  · intro h
    unfold usableAt at h
    cases hget : routes.resolved[index]? with
    | none =>
        rw [hget] at h
        exact absurd h (by simp)
    | some candidate =>
        rw [hget] at h
        have hhealthy : (selectHealthyCredential routes.fingerprint candidate routes.traceId
            routes.signals).isSome = true := isSome_selectHealthyCredential.trans h
        unfold selectedCredential
        rw [hget]
        cases routes.affinity.filter fun affinity => affinity.index = index with
        | none => exact hhealthy
        | some affinity => rfl

theorem selectedCredential_affinity {affinity : ResolvedRouteAffinity}
    (hsound : routes.Sound) (h : routes.affinity = some affinity) :
    routes.selectedCredential affinity.index = some affinity.credential := by
  obtain ⟨candidate, hget, -⟩ := hsound affinity h
  unfold selectedCredential
  rw [hget, h]
  simp

/-- The sort key has the priority first. -/
theorem priority_le_of_sortKey_le {strategy : LoadBalancerStrategy} {i j : Nat}
    (h : routes.sortKey strategy i ≤ routes.sortKey strategy j) :
    (routes.resolved[i]?.map ChannelModelsCandidate.priority).getD 0 ≤
      (routes.resolved[j]?.map ChannelModelsCandidate.priority).getD 0 := by
  have hfirst : ∀ index : Nat, (ofLex (routes.sortKey strategy index)).1 =
      (routes.resolved[index]?.map ChannelModelsCandidate.priority).getD 0 := by
    intro index
    unfold sortKey routeHealthSortKey
    cases routes.resolved[index]? <;> rfl
  rw [← hfirst, ← hfirst]
  exact Prod.Lex.monotone_fst _ _ h

end Routes

end Affinity

/-! ## The load balancer's picks -/

section Picks

variable {resolved : List (ChannelModelsCandidate Settings)}

/-- Positions of the list, each at most once. -/
structure Picks (resolved : List (ChannelModelsCandidate Settings)) (orderedIndices : List Nat) :
    Prop where
  nodup : orderedIndices.Nodup
  lt : ∀ index ∈ orderedIndices, index < resolved.length

theorem nextIndex_eq_some {priority : Int} {id : String} {orderedIndices : List Nat} {index : Nat}
    (h : nextIndex resolved priority id orderedIndices = some index) :
    index < resolved.length ∧ index ∉ orderedIndices := by
  obtain ⟨⟨candidate, i⟩, hfind, rfl⟩ := Option.map_eq_some_iff.mp h
  have hmem := List.mem_zipIdx_iff_getElem?.mp (List.mem_of_find?_eq_some hfind)
  have hnew := List.find?_some hfind
  simp only [Bool.and_eq_true, Bool.not_eq_true'] at hnew
  refine ⟨(List.getElem?_eq_some_iff.mp hmem).1, fun hin => ?_⟩
  exact absurd (List.contains_iff_mem.mpr hin) (by simpa using hnew.2)

theorem Picks.append {orderedIndices : List Nat} {index : Nat} (h : Picks resolved orderedIndices)
    (hlt : index < resolved.length) (hnew : index ∉ orderedIndices) :
    Picks resolved (orderedIndices ++ [index]) where
  nodup := by
    rw [List.nodup_append]
    refine ⟨h.nodup, List.nodup_singleton _, ?_⟩
    rintro a ha b hb rfl
    exact hnew (List.mem_singleton.mp hb ▸ ha)
  lt i hi := by
    rcases List.mem_append.mp hi with hi | hi
    · exact h.lt i hi
    · exact List.mem_singleton.mp hi ▸ hlt

theorem picks_orderSelected (priority : Int) (selected : List ScoredCandidate)
    {orderedIndices : List Nat} (h : Picks resolved orderedIndices) :
    Picks resolved (orderSelected resolved priority selected orderedIndices) := by
  induction selected generalizing orderedIndices with
  | nil => exact h
  | cons entry rest ih =>
      unfold orderSelected
      cases hnext : nextIndex resolved priority entry.candidate.id orderedIndices with
      | none => exact ih h
      | some index =>
          obtain ⟨hlt, hnew⟩ := nextIndex_eq_some hnext
          have happend := h.append hlt hnew
          simp only
          split
          · exact happend
          · exact ih happend

theorem picks_orderGroups (strategy : RouteScoring σ) (policy : RetryPolicy)
    (sticky : Option String) (offset : Nat) (groups : List Int) {orderedIndices : List Nat}
    (h : Picks resolved orderedIndices) (s : σ) :
    Picks resolved
      (orderGroups strategy policy sticky offset resolved groups orderedIndices s).1 := by
  induction groups generalizing orderedIndices s with
  | nil => exact h
  | cons priority groups ih =>
      unfold orderGroups
      split
      · exact h
      · exact ih (picks_orderSelected priority _ h) _

theorem picks_loadBalanced (strategy : RouteScoring σ) (policy : RetryPolicy)
    (sticky : Option String) (offset : Nat) (s : σ) :
    Picks resolved (loadBalanced strategy policy sticky offset resolved s).1 :=
  picks_orderGroups strategy policy sticky offset _
    ⟨List.nodup_nil, fun _ h => absurd h List.not_mem_nil⟩ s

/-- Promoting a route only moves it. -/
theorem perm_promote (affinity : Option ResolvedRouteAffinity) (orderedIndices : List Nat) :
    (promote affinity orderedIndices).Perm orderedIndices := by
  unfold promote
  cases affinity with
  | none => exact .refl _
  | some affinity =>
      simp only
      split
      · next hmem => exact (List.perm_cons_erase (List.contains_iff_mem.mp hmem)).symm
      · exact .refl _

end Picks

/-! ## The ranking before the cut -/

section Cut

variable (strategy : RouteScoring σ) (sticky : Option String) (offset : Nat)

/-- `select_channels_with_tie_rotation` before it cuts. -/
def rankRoutes (s : σ) (candidates : List RoutedCandidate) : List ScoredCandidate :=
  rotateStickyScored (rotateTies (sortScored (candidates.zipIdx.map fun entry =>
    ⟨entry.1.toCandidate, strategy.score s entry.1, entry.2⟩)) offset) sticky

theorem selectRoutes_fst (s : σ) (candidates : List RoutedCandidate) (policy : RetryPolicy) :
    (selectRoutes strategy s candidates policy sticky offset).1 =
      (rankRoutes strategy sticky offset s candidates).take
        (min policy.topK candidates.length) := by
  cases candidates with
  | nil => rw [List.length_nil, Nat.min_zero, List.take_zero]; rfl
  | cons candidate candidates => rfl

theorem perm_rotateLeft {α : Type} (l : List α) (k : Nat) : (rotateLeft l k).Perm l := by
  unfold rotateLeft
  exact List.perm_append_comm.trans (List.Perm.of_eq (List.take_append_drop k l))

theorem perm_rotateTies (scored : List ScoredCandidate) : (rotateTies scored offset).Perm scored := by
  unfold rotateTies
  cases scored with
  | nil => exact .refl _
  | cons lead rest =>
      dsimp only
      split_ifs with hties
      · exact ((perm_rotateLeft _ _).append_right _).trans
          (List.Perm.of_eq (List.take_append_drop _ _))
      · exact .refl _

theorem perm_rotateStickyScored (scored : List ScoredCandidate) :
    (rotateStickyScored scored sticky).Perm scored := by
  unfold rotateStickyScored
  cases sticky with
  | none => exact .refl _
  | some id =>
      dsimp only
      cases scored.findIdx? (·.candidate.id = id) with
      | none => exact .refl _
      | some pos => exact perm_rotateLeft _ _

/-- The ranking has every candidate once. -/
theorem perm_map_rankRoutes (s : σ) (candidates : List RoutedCandidate) :
    ((rankRoutes strategy sticky offset s candidates).map fun entry => entry.candidate.id).Perm
      (candidates.map fun candidate => candidate.id) := by
  unfold rankRoutes
  have hsorted : ∀ scored : List ScoredCandidate, (sortScored scored).Perm scored :=
    fun scored => List.perm_insertionSort _ scored
  have hperm := (((perm_rotateStickyScored sticky _).trans (perm_rotateTies offset _)).trans
    (hsorted (candidates.zipIdx.map fun entry =>
      ⟨entry.1.toCandidate, strategy.score s entry.1, entry.2⟩))).map
        fun entry : ScoredCandidate => entry.candidate.id
  refine hperm.trans (List.Perm.of_eq ?_)
  rw [List.map_map]
  have hfst : (fun entry : ScoredCandidate => entry.candidate.id) ∘
      (fun entry : RoutedCandidate × Nat =>
        (⟨entry.1.toCandidate, strategy.score s entry.1, entry.2⟩ : ScoredCandidate)) =
        (fun candidate : RoutedCandidate => candidate.id) ∘ Prod.fst := rfl
  rw [hfst, ← List.map_map, List.zipIdx_map_fst]

end Cut

/-! ## Places -/

section Places

variable {resolved : List (ChannelModelsCandidate Settings)} {priority : Int}

theorem Picks.length_le {orderedIndices : List Nat} (h : Picks resolved orderedIndices) :
    orderedIndices.length ≤ resolved.length := by
  have hsub := (List.subperm_of_subset h.nodup
    fun i hi => List.mem_range.mpr (h.lt i hi)).length_le
  simpa using hsub

/-- As many picks as candidates are all of them. -/
theorem Picks.mem_of_full {orderedIndices : List Nat} (h : Picks resolved orderedIndices)
    (hfull : resolved.length ≤ orderedIndices.length) {i : Nat} (hi : i < resolved.length) :
    i ∈ orderedIndices := by
  have hsub := List.subperm_of_subset h.nodup fun i hi => List.mem_range.mpr (h.lt i hi)
  have hperm := hsub.perm_of_length_le (by simpa using hfull)
  exact hperm.mem_iff.mpr (List.mem_range.mpr hi)

variable (resolved priority) in
/-- One turn of `orderSelected`. -/
def place (orderedIndices : List Nat) (entry : ScoredCandidate) : List Nat :=
  orderedIndices ++ (nextIndex resolved priority entry.candidate.id orderedIndices).toList

theorem picks_place {orderedIndices : List Nat} (h : Picks resolved orderedIndices)
    (entry : ScoredCandidate) : Picks resolved (place resolved priority orderedIndices entry) := by
  unfold place
  cases hnext : nextIndex resolved priority entry.candidate.id orderedIndices with
  | none => rwa [Option.toList_none, List.append_nil]
  | some index => exact h.append (nextIndex_eq_some hnext).1 (nextIndex_eq_some hnext).2

theorem foldl_place_full (entries : List ScoredCandidate) {orderedIndices : List Nat}
    (h : Picks resolved orderedIndices) (hfull : resolved.length ≤ orderedIndices.length) :
    entries.foldl (place resolved priority) orderedIndices = orderedIndices := by
  induction entries with
  | nil => rfl
  | cons entry entries ih =>
      have hplace : place resolved priority orderedIndices entry = orderedIndices := by
        unfold place
        cases hnext : nextIndex resolved priority entry.candidate.id orderedIndices with
        | none => rw [Option.toList_none, List.append_nil]
        | some index =>
            obtain ⟨hlt, hnew⟩ := nextIndex_eq_some hnext
            exact absurd (h.mem_of_full hfull hlt) hnew
      rw [List.foldl_cons, hplace]
      exact ih

/-- The loop stops early only where nothing is left to place. -/
theorem orderSelected_eq (entries : List ScoredCandidate) {orderedIndices : List Nat}
    (h : Picks resolved orderedIndices) :
    orderSelected resolved priority entries orderedIndices =
      entries.foldl (place resolved priority) orderedIndices := by
  induction entries generalizing orderedIndices with
  | nil => rfl
  | cons entry entries ih =>
      have hplaced : Picks resolved (place resolved priority orderedIndices entry) :=
        picks_place h entry
      rw [List.foldl_cons]
      unfold orderSelected
      unfold place at hplaced ⊢
      cases hnext : nextIndex resolved priority entry.candidate.id orderedIndices with
      | none =>
          rw [Option.toList_none, List.append_nil]
          exact ih h
      | some index =>
          rw [hnext] at hplaced
          dsimp only
          split_ifs with hfull
          · exact (foldl_place_full entries hplaced hfull).symm
          · exact ih hplaced

theorem nextIndex_spec {id : String} {orderedIndices : List Nat} {index : Nat}
    (h : nextIndex resolved priority id orderedIndices = some index) :
    ∃ candidate, resolved[index]? = some candidate ∧ candidate.priority = priority ∧
      candidate.channelId = id := by
  obtain ⟨⟨candidate, i⟩, hfind, rfl⟩ := Option.map_eq_some_iff.mp h
  have hmem := List.mem_zipIdx_iff_getElem?.mp (List.mem_of_find?_eq_some hfind)
  have hsome := List.find?_some hfind
  simp only [Bool.and_eq_true, decide_eq_true_eq] at hsome
  exact ⟨candidate, hmem, hsome.1.1, hsome.1.2⟩

theorem mem_of_nextIndex_none {id : String} {orderedIndices : List Nat} {index : Nat}
    {candidate : ChannelModelsCandidate Settings}
    (h : nextIndex resolved priority id orderedIndices = none)
    (hget : resolved[index]? = some candidate) (hpriority : candidate.priority = priority)
    (hid : candidate.channelId = id) : index ∈ orderedIndices := by
  have hnone := List.find?_eq_none.mp (Option.map_eq_none_iff.mp h) (candidate, index)
    (List.mem_zipIdx_iff_getElem?.mpr hget)
  simpa [hpriority, hid] using hnone

/-- Only the places of its own priority count for a lookup. -/
theorem nextIndex_append {before orderedIndices : List Nat} (id : String)
    (hbefore : ∀ i ∈ before, ∀ candidate, resolved[i]? = some candidate →
      candidate.priority ≠ priority) :
    nextIndex resolved priority id (before ++ orderedIndices) =
      nextIndex resolved priority id orderedIndices := by
  unfold nextIndex
  congr 1
  refine List.find?_congr ?_
  rintro ⟨candidate, i⟩ hmem
  have hget := List.mem_zipIdx_iff_getElem?.mp hmem
  by_cases hpriority : candidate.priority = priority
  · have hnot : i ∉ before := fun hi => hbefore i hi candidate hget hpriority
    simp [hnot]
  · simp [hpriority]

theorem foldl_place_append (entries : List ScoredCandidate) {before : List Nat}
    (hbefore : ∀ i ∈ before, ∀ candidate, resolved[i]? = some candidate →
      candidate.priority ≠ priority) (orderedIndices : List Nat) :
    entries.foldl (place resolved priority) (before ++ orderedIndices) =
      before ++ entries.foldl (place resolved priority) orderedIndices := by
  induction entries generalizing orderedIndices with
  | nil => rfl
  | cons entry entries ih =>
      rw [List.foldl_cons, List.foldl_cons, ← ih]
      congr 1
      unfold place
      rw [nextIndex_append _ hbefore, List.append_assoc]

theorem prefix_foldl_place (entries : List ScoredCandidate) (orderedIndices : List Nat) :
    orderedIndices <+: entries.foldl (place resolved priority) orderedIndices := by
  induction entries generalizing orderedIndices with
  | nil => exact List.prefix_rfl
  | cons entry entries ih => exact (List.prefix_append _ _).trans (ih _)

variable (resolved priority) in
/-- The candidates of a channel in a group. -/
def slots (id : String) : List Nat :=
  (List.range resolved.length).filter fun i =>
    resolved[i]?.any fun candidate => candidate.priority = priority && candidate.channelId = id

theorem mem_slots {id : String} {i : Nat} : i ∈ slots resolved priority id ↔
    ∃ candidate, resolved[i]? = some candidate ∧ candidate.priority = priority ∧
      candidate.channelId = id := by
  unfold slots
  rw [List.mem_filter, List.mem_range, Option.any_eq_true]
  simp only [Bool.and_eq_true, decide_eq_true_eq]
  constructor
  · exact And.right
  · rintro ⟨candidate, hget, h⟩
    exact ⟨(List.getElem?_eq_some_iff.mp hget).1, candidate, hget, h⟩

variable (resolved priority) in
/-- A channel has as many places as entries, at most. -/
theorem length_placed_slots (entries : List ScoredCandidate) (id : String) :
    ((entries.foldl (place resolved priority) []).filter
        fun i => i ∈ slots resolved priority id).length ≤
      (entries.map fun entry => entry.candidate.id).count id := by
  induction entries using List.reverseRecOn with
  | nil => exact Nat.le_refl 0
  | append_singleton entries entry ih =>
      rw [List.foldl_append, List.foldl_cons, List.foldl_nil, List.map_append, List.count_append]
      unfold place at ih ⊢
      rw [List.filter_append, List.length_append]
      refine Nat.add_le_add ih ?_
      cases hnext : nextIndex resolved priority entry.candidate.id _ with
      | none => exact Nat.zero_le _
      | some index =>
          obtain ⟨candidate, hget, -, hid⟩ := nextIndex_spec hnext
          rw [Option.toList_some]
          by_cases hsame : entry.candidate.id = id
          · rw [List.map_singleton, hsame, List.count_singleton_self]
            exact List.length_filter_le _ _
          · have hout : index ∉ slots resolved priority id := by
              intro hmem
              obtain ⟨other, hother, -, hotherId⟩ := mem_slots.mp hmem
              obtain rfl := Option.some.inj (hget.symm.trans hother)
              exact hsame (hid.symm.trans hotherId)
            simp [hout]

/-- Entries that are no more than the candidates of their channels all find one. -/
theorem length_foldl_place (entries : List ScoredCandidate)
    (h : ∀ id, (entries.map fun entry => entry.candidate.id).count id ≤
      (slots resolved priority id).length) :
    (entries.foldl (place resolved priority) []).length = entries.length := by
  induction entries using List.reverseRecOn with
  | nil => rfl
  | append_singleton entries entry ih =>
      have hcounts : ∀ id, (entries.map fun entry => entry.candidate.id).count id ≤
          (slots resolved priority id).length := by
        intro id
        refine Nat.le_trans ?_ (h id)
        rw [List.map_append, List.count_append]
        exact Nat.le_add_right _ _
      rw [List.foldl_append, List.foldl_cons, List.foldl_nil, List.length_append]
      unfold place
      rw [List.length_append]
      unfold place at ih
      rw [ih hcounts]
      cases hnext : nextIndex resolved priority entry.candidate.id _ with
      | some index => rfl
      | none =>
          -- all candidates of the channel are placed, more than there are entries for it
          have hplaced := length_placed_slots resolved priority entries entry.candidate.id
          unfold place at hplaced
          have hsubset : slots resolved priority entry.candidate.id ⊆
              (entries.foldl (fun orderedIndices entry => orderedIndices ++
                (nextIndex resolved priority entry.candidate.id orderedIndices).toList) []).filter
                  fun i => i ∈ slots resolved priority entry.candidate.id := by
            intro i hi
            obtain ⟨candidate, hget, hpriority, hid⟩ := mem_slots.mp hi
            exact List.mem_filter.mpr
              ⟨mem_of_nextIndex_none hnext hget hpriority hid, decide_eq_true hi⟩
          have hnodup : (slots resolved priority entry.candidate.id).Nodup :=
            List.nodup_range.filter _
          have hle := (List.subperm_of_subset hnodup hsubset).length_le
          have htotal := h entry.candidate.id
          rw [List.map_append, List.count_append, List.map_singleton,
            List.count_singleton_self] at htotal
          omega

/-- Placing the first entries gives the first places. -/
theorem foldl_place_take (entries : List ScoredCandidate)
    (h : ∀ id, (entries.map fun entry => entry.candidate.id).count id ≤
      (slots resolved priority id).length) (n : Nat) :
    (entries.take n).foldl (place resolved priority) [] =
      (entries.foldl (place resolved priority) []).take n := by
  have hprefix : (entries.take n).foldl (place resolved priority) [] <+:
      entries.foldl (place resolved priority) [] := by
    conv_rhs => rw [← List.take_append_drop n entries, List.foldl_append]
    exact prefix_foldl_place _ _
  have htaken : ((entries.take n).foldl (place resolved priority) []).length =
      (entries.take n).length := by
    refine length_foldl_place _ fun id => Nat.le_trans ?_ (h id)
    exact ((List.take_sublist n entries).map _).count_le id
  rw [List.prefix_iff_eq_take.mp hprefix, htaken, List.length_take]
  conv_rhs => rw [← List.take_length (l := entries.foldl (place resolved priority) []),
    length_foldl_place entries h, List.take_take]

/-- The positions of the candidates that pass a test. -/
theorem length_usable (candidates : List (ChannelModelsCandidate Settings))
    (p : ChannelModelsCandidate Settings → Bool) :
    ((List.range candidates.length).filter fun index => candidates[index]?.any p).length =
      candidates.countP p := by
  induction candidates with
  | nil => rfl
  | cons candidate candidates ih =>
      rw [List.length_cons, List.range_succ_eq_map, List.filter_cons, List.filter_map,
        List.countP_cons, ← ih]
      have hshift : ((fun index => (candidate :: candidates)[index]?.any p) ∘ Nat.succ) =
          fun index => candidates[index]?.any p := by
        funext index
        simp
      rw [hshift]
      by_cases hp : p candidate = true <;> simp [hp]

variable (resolved priority) in
/-- A group is ranked with no more entries than it has candidates. -/
theorem count_rankRoutes (strategy : RouteScoring σ) (sticky : Option String) (offset : Nat) (s : σ)
    (id : String) :
    ((rankRoutes strategy sticky offset s (project (resolved.filter fun candidate =>
        candidate.priority = priority))).map fun entry => entry.candidate.id).count id ≤
      (slots resolved priority id).length := by
  rw [(perm_map_rankRoutes strategy sticky offset s _).count_eq]
  unfold project slots
  rw [length_usable, List.count_eq_countP, List.countP_map, List.countP_filterMap,
    List.countP_filter]
  refine List.countP_mono_left fun candidate _ hcounted => ?_
  rw [Bool.and_eq_true] at hcounted ⊢
  refine ⟨hcounted.2, ?_⟩
  cases hmodel : candidate.models.head? with
  | none =>
      rw [hmodel] at hcounted
      exact absurd hcounted.1 (by simp)
  | some model =>
      rw [hmodel] at hcounted
      simpa using hcounted.1

end Places

/-! ## The groups -/

section Groups

variable (strategy : RouteScoring σ) (policy : RetryPolicy) (sticky : Option String)
  (offset : Nat) (resolved : List (ChannelModelsCandidate Settings))

/-- The candidates of each group in the load balancer's order, none of them cut. -/
def rankGroups : List Int → σ → List (List Nat)
  | [], _ => []
  | priority :: priorities, s =>
      let group := project (resolved.filter fun candidate => candidate.priority = priority)
      orderSelected resolved priority (rankRoutes strategy sticky offset s group) [] ::
        rankGroups priorities (selectRoutes strategy s group policy sticky offset).2

variable {resolved}

theorem priority_of_mem_foldl_place {priority : Int} (entries : List ScoredCandidate) {i : Nat}
    (h : i ∈ entries.foldl (place resolved priority) []) :
    ∃ candidate, resolved[i]? = some candidate ∧ candidate.priority = priority := by
  induction entries using List.reverseRecOn with
  | nil => exact absurd h List.not_mem_nil
  | append_singleton entries entry ih =>
      rw [List.foldl_append, List.foldl_cons, List.foldl_nil] at h
      rcases List.mem_append.mp h with h | h
      · exact ih h
      · obtain ⟨candidate, hget, hpriority, -⟩ := nextIndex_spec (Option.mem_toList.mp h)
        exact ⟨candidate, hget, hpriority⟩

theorem picks_nil : Picks resolved [] := ⟨List.nodup_nil, fun _ h => absurd h List.not_mem_nil⟩

theorem mem_rankGroups {groups : List Int} {s : σ} {ranking : List Nat}
    (h : ranking ∈ rankGroups strategy policy sticky offset resolved groups s) :
    ∀ i ∈ ranking, ∃ candidate, resolved[i]? = some candidate ∧ candidate.priority ∈ groups := by
  induction groups generalizing s with
  | nil => exact absurd h List.not_mem_nil
  | cons priority groups ih =>
      intro i hi
      rcases List.mem_cons.mp h with rfl | h
      · rw [orderSelected_eq _ picks_nil] at hi
        obtain ⟨candidate, hget, hpriority⟩ := priority_of_mem_foldl_place _ hi
        exact ⟨candidate, hget, hpriority ▸ List.mem_cons_self⟩
      · obtain ⟨candidate, hget, hpriority⟩ := ih h i hi
        exact ⟨candidate, hget, List.mem_cons_of_mem _ hpriority⟩

/-- A cut group adds the first places of its ranking. -/
theorem orderSelected_selectRoutes {priority : Int} {orderedIndices : List Nat}
    (hpicks : Picks resolved orderedIndices)
    (hothers : ∀ i ∈ orderedIndices, ∀ candidate, resolved[i]? = some candidate →
      candidate.priority ≠ priority) (s : σ) :
    let group := project (resolved.filter fun candidate => candidate.priority = priority)
    orderSelected resolved priority (selectRoutes strategy s group policy sticky offset).1
        orderedIndices =
      orderedIndices ++
        (orderSelected resolved priority (rankRoutes strategy sticky offset s group) []).take
          policy.topK := by
  intro group
  have hcount := count_rankRoutes resolved priority strategy sticky offset s
  have hplaced := length_foldl_place _ hcount
  have hranked : (rankRoutes strategy sticky offset s group).length = group.length := by
    simpa using (perm_map_rankRoutes strategy sticky offset s group).length_eq
  have happend := foldl_place_append
    ((rankRoutes strategy sticky offset s group).take (min policy.topK group.length)) hothers []
  rw [List.append_nil] at happend
  rw [orderSelected_eq _ hpicks, orderSelected_eq _ picks_nil, selectRoutes_fst, happend,
    foldl_place_take _ hcount]
  congr 1
  rw [← hranked, ← hplaced, ← List.take_take, List.take_length]

/-- Each group gives its first places. -/
theorem orderGroups_eq {groups : List Int} (hgroups : groups.Nodup) {orderedIndices : List Nat}
    (hpicks : Picks resolved orderedIndices)
    (hothers : ∀ i ∈ orderedIndices, ∀ candidate, resolved[i]? = some candidate →
      candidate.priority ∉ groups) (s : σ) :
    (orderGroups strategy policy sticky offset resolved groups orderedIndices s).1 =
      orderedIndices ++ (rankGroups strategy policy sticky offset resolved groups s).flatMap
        fun ranking => ranking.take policy.topK := by
  induction groups generalizing orderedIndices s with
  | nil => exact (List.append_nil _).symm
  | cons priority groups ih =>
      obtain ⟨hpriority, hgroups⟩ := List.nodup_cons.mp hgroups
      have hown : ∀ i ∈ orderedIndices, ∀ candidate, resolved[i]? = some candidate →
          candidate.priority ≠ priority :=
        fun i hi candidate hget heq => hothers i hi candidate hget (heq ▸ List.mem_cons_self)
      unfold orderGroups
      split_ifs with hfull
      · -- every candidate is placed, so no ranking has one
        have hempty : ∀ ranking ∈ rankGroups strategy policy sticky offset resolved
            (priority :: groups) s, ranking = [] := by
          intro ranking hranking
          refine List.eq_nil_iff_forall_not_mem.mpr fun i hi => ?_
          obtain ⟨candidate, hget, hmem⟩ := mem_rankGroups strategy policy sticky offset hranking i hi
          have hlt := (List.getElem?_eq_some_iff.mp hget).1
          exact hothers i (hpicks.mem_of_full hfull hlt) candidate hget hmem
        rw [List.flatMap_eq_nil_iff.mpr fun ranking hranking => by
          rw [hempty ranking hranking, List.take_nil], List.append_nil]
      · have hcut := orderSelected_selectRoutes strategy policy sticky offset hpicks hown s
        have hnext := picks_orderSelected priority
          (selectRoutes strategy s (project (resolved.filter fun candidate =>
            candidate.priority = priority)) policy sticky offset).1 hpicks
        dsimp only at hcut ⊢
        rw [hcut] at hnext ⊢
        rw [ih hgroups hnext ?_]
        · rw [List.append_assoc]
          rfl
        · intro i hi candidate hget
          rcases List.mem_append.mp hi with hi | hi
          · exact fun hmem => hothers i hi candidate hget (List.mem_cons_of_mem _ hmem)
          · rw [orderSelected_eq _ picks_nil] at hi
            obtain ⟨other, hother, rfl⟩ := priority_of_mem_foldl_place _ (List.mem_of_mem_take hi)
            obtain rfl := Option.some.inj (hget.symm.trans hother)
            exact hpriority

theorem nodup_priorities : (priorities resolved).Nodup :=
  (List.perm_insertionSort _ _).nodup_iff.mpr (List.nodup_dedup _)

end Groups

/-! ## The answer -/

section Ordering

variable (orchestrator : RouteOrchestrator σ Settings) (request : RouteRequest)
  (resolved : List (ChannelModelsCandidate Settings)) (signals : RouteHealthSignals)
  (ctx : OrchestratorContext) (scores : σ)

/-- The health source answers with `signals`. -/
def RouteOrchestrator.withSignals : RouteOrchestrator σ Settings :=
  { orchestrator with routeHealth := fun _ => .ok signals }

/-- The load balancer's picks, group after group. -/
def picked : List Nat :=
  (loadBalanced (orchestrator.scoring request) request.retryPolicy
    (orchestrator.sticky ctx request) request.offset resolved scores).1

/-- The routes with the affinity that the picks and the hints resolve to. -/
def routesOf : Routes Settings where
  resolved
  fingerprint := orchestrator.fingerprint
  signals
  traceId := request.traceId
  affinity := resolveRouteAffinity orchestrator.fingerprint
    (requestRouteAffinityHints orchestrator.codec ctx) resolved
    (picked orchestrator request resolved ctx scores) signals

/-- What is ranked: the picks that have a credential, the affinity first. -/
def ranked : List Nat :=
  let routes := routesOf orchestrator request resolved signals ctx scores
  routes.healthy (promote routes.affinity (picked orchestrator request resolved ctx scores))

def returned : List Nat :=
  rankTop ((routesOf orchestrator request resolved signals ctx scores).sortKey
    request.loadBalanceStrategy) request.retryPolicy.topK
    (ranked orchestrator request resolved signals ctx scores)

def returnedTargets : List RoutedTarget :=
  (returned orchestrator request resolved signals ctx scores).filterMap fun index =>
    ((routesOf orchestrator request resolved signals ctx scores).selectedCredential index).map
      fun credential => ⟨index, credential⟩

/-- The groups in the load balancer's order, before any of them is cut. -/
def ranking : List (List Nat) :=
  rankGroups (orchestrator.scoring request) request.retryPolicy (orchestrator.sticky ctx request)
    request.offset resolved (priorities resolved) scores

/-- The first places of each group. -/
def leading : List Nat :=
  (ranking orchestrator request resolved ctx scores).flatMap fun group =>
    group.take request.retryPolicy.topK

/-- Every usable candidate behind the first places of its group leaves enough
usable ones in such places that come before it or beside it. -/
def FallbacksKept : Prop :=
  ∀ (index : Nat) (candidate : ChannelModelsCandidate Settings),
    resolved[index]? = some candidate →
    usable orchestrator.fingerprint request.traceId signals candidate = true →
    index ∉ leading orchestrator request resolved ctx scores →
    request.retryPolicy.topK ≤
      ((leading orchestrator request resolved ctx scores).filter fun pick =>
        resolved[pick]?.any fun other =>
          usable orchestrator.fingerprint request.traceId signals other &&
            decide (other.priority ≤ candidate.priority)).length

/-- No usable candidate in such a place comes before the affinity in priority, health and latency. -/
def AffinityLeads : Prop :=
  let routes := routesOf orchestrator request resolved signals ctx scores
  ∀ affinity : ResolvedRouteAffinity, routes.affinity = some affinity →
    ∀ pick ∈ leading orchestrator request resolved ctx scores, routes.usableAt pick = true →
      routes.sortKey request.loadBalanceStrategy affinity.index ≤
        routes.sortKey request.loadBalanceStrategy pick

/-- What the routes of a request should be. -/
structure OrderedWell (routes : OrderedRoutes) : Prop where
  /-- The returned candidates are those of the targets, each with its credential. -/
  projected : List.Forall₂ (fun target returned => ∃ candidate,
    resolved[target.index]? = some candidate ∧
      returned = pipelineCandidate orchestrator candidate target.credential)
    routes.targets routes.candidates
  nodup : (routes.targets.map RoutedTarget.index).Nodup
  length : routes.targets.length = min request.retryPolicy.topK
    (resolved.countP (usable orchestrator.fingerprint request.traceId signals))
  sorted : (routes.targets.map RoutedTarget.index).Pairwise fun i j =>
    (resolved[i]?.map ChannelModelsCandidate.priority).getD 0 ≤
      (resolved[j]?.map ChannelModelsCandidate.priority).getD 0
  healthy : ∀ target ∈ routes.targets, ∃ candidate, resolved[target.index]? = some candidate ∧
    signals.status (healthTarget orchestrator.fingerprint candidate target.credential) ≠ .unhealthy
  /-- A usable candidate is left out only for ones of no larger priority. -/
  boundary : ∀ (index : Nat) (candidate : ChannelModelsCandidate Settings),
    resolved[index]? = some candidate →
    usable orchestrator.fingerprint request.traceId signals candidate = true →
    index ∉ routes.targets.map RoutedTarget.index →
    ∀ kept ∈ routes.targets.map RoutedTarget.index,
      (resolved[kept]?.map ChannelModelsCandidate.priority).getD 0 ≤ candidate.priority

/-- What the answer to a request should be. -/
structure AnsweredWell (answer : RouteAnswer σ) : Prop where
  ok_iff : answer.result.isOk = true ↔
    ∃ candidate ∈ resolved, usable orchestrator.fingerprint request.traceId signals candidate = true
  ordered : ∀ routes : OrderedRoutes, answer.result = .ok routes →
    OrderedWell orchestrator request resolved signals routes
  /-- An affinity on record is that of the first route. -/
  applied : ∀ routes : OrderedRoutes, answer.result = .ok routes →
    answer.decision = some "applied" →
    ∃ affinity, (routesOf orchestrator request resolved signals ctx scores).affinity = some affinity ∧
      routes.targets.head? = some ⟨affinity.index, affinity.credential⟩

variable {orchestrator request resolved signals ctx scores}

theorem routesOf_sound : (routesOf orchestrator request resolved signals ctx scores).Sound :=
  fun _ haffinity => (resolveRouteAffinity_eq_some haffinity).2

/-- The load balancer picks the first places. -/
theorem picked_eq : picked orchestrator request resolved ctx scores =
    leading orchestrator request resolved ctx scores := by
  refine (orderGroups_eq _ _ _ _ nodup_priorities picks_nil ?_ scores).trans (List.nil_append _)
  exact fun i h => absurd h List.not_mem_nil

theorem picks_picked : Picks resolved (picked orchestrator request resolved ctx scores) :=
  picks_loadBalanced _ _ _ _ _

/-- The usable picks, in some order. -/
theorem perm_ranked : (ranked orchestrator request resolved signals ctx scores).Perm
    ((picked orchestrator request resolved ctx scores).filter
      (routesOf orchestrator request resolved signals ctx scores).usableAt) := by
  unfold ranked Routes.healthy
  rw [List.filter_congr fun index _ => Routes.isSome_selectedCredential routesOf_sound]
  exact (perm_promote _ _).filter _

theorem mem_ranked {index : Nat} : index ∈ ranked orchestrator request resolved signals ctx scores ↔
    index ∈ picked orchestrator request resolved ctx scores ∧
      (routesOf orchestrator request resolved signals ctx scores).usableAt index = true :=
  perm_ranked.mem_iff.trans List.mem_filter

theorem nodup_ranked : (ranked orchestrator request resolved signals ctx scores).Nodup :=
  perm_ranked.nodup_iff.mpr (picks_picked.nodup.filter _)

theorem usableAt_eq_true {routes : Routes Settings} {index : Nat} :
    routes.usableAt index = true ↔ ∃ candidate, routes.resolved[index]? = some candidate ∧
      usable routes.fingerprint routes.traceId routes.signals candidate = true := by
  unfold Routes.usableAt
  exact Option.any_eq_true _ _

theorem orderHealthy_result (orderedIndices : List Nat) :
    let affinity := resolveRouteAffinity orchestrator.fingerprint
      (requestRouteAffinityHints orchestrator.codec ctx) resolved orderedIndices signals
    let routes : Routes Settings :=
      ⟨resolved, orchestrator.fingerprint, signals, request.traceId, affinity⟩
    let healthy := routes.healthy (promote affinity orderedIndices)
    let targets := (rankTop (routes.sortKey request.loadBalanceStrategy) request.retryPolicy.topK
      healthy).filterMap fun index =>
        (routes.selectedCredential index).map fun credential => ⟨index, credential⟩
    let answer := orderHealthy orchestrator request resolved ctx scores orderedIndices signals
    (healthy = [] → answer.result.isOk = false) ∧
    (healthy ≠ [] →
      answer.decision =
        affinityDecision (requestRouteAffinityHints orchestrator.codec ctx) affinity ∧
      answer.result = .ok ⟨targets, targets.filterMap fun target =>
        resolved[target.index]?.map fun candidate =>
          pipelineCandidate orchestrator candidate target.credential⟩) := by
  intro affinity routes healthy targets answer
  simp only [answer, orderHealthy]
  constructor
  · intro hempty
    rw [if_pos (List.isEmpty_iff.mpr hempty)]
    rfl
  · intro hne
    rw [if_neg fun h => hne (List.isEmpty_iff.mp h)]
    exact ⟨rfl, rfl⟩

/-- The answer is an error exactly if nothing is left to be ranked. -/
theorem resolveOrderedCandidates_result :
    let answer := resolveOrderedCandidates (orchestrator.withSignals signals) request resolved ctx
      scores
    (ranked orchestrator request resolved signals ctx scores = [] ∧ answer.result.isOk = false) ∨
    (ranked orchestrator request resolved signals ctx scores ≠ [] ∧
      answer.decision = affinityDecision (requestRouteAffinityHints orchestrator.codec ctx)
        (routesOf orchestrator request resolved signals ctx scores).affinity ∧
      answer.result = .ok ⟨returnedTargets orchestrator request resolved signals ctx scores,
        (returnedTargets orchestrator request resolved signals ctx scores).filterMap fun target =>
          resolved[target.index]?.map fun candidate =>
            pipelineCandidate orchestrator candidate target.credential⟩) := by
  intro answer
  have hnone : picked orchestrator request resolved ctx scores = [] →
      ranked orchestrator request resolved signals ctx scores = [] := by
    intro hpicked
    refine List.eq_nil_iff_forall_not_mem.mpr fun index hindex => ?_
    rw [mem_ranked, hpicked] at hindex
    exact absurd hindex.1 List.not_mem_nil
  by_cases hresolved : resolved = []
  · refine .inl ⟨hnone ?_, ?_⟩
    · refine List.eq_nil_iff_forall_not_mem.mpr fun index hindex => ?_
      have hlt := picks_picked.lt index hindex
      rw [hresolved] at hlt
      exact absurd hlt (Nat.not_lt_zero index)
    · simp only [answer, resolveOrderedCandidates, hresolved]
      rfl
  by_cases hpicked : picked orchestrator request resolved ctx scores = []
  · refine .inl ⟨hnone hpicked, ?_⟩
    have hempty : (loadBalanced ((orchestrator.withSignals signals).scoring request)
        request.retryPolicy ((orchestrator.withSignals signals).sticky
          ((ctx.recordStage .select).recordStage .loadBalance) request)
        request.offset resolved scores).1.isEmpty = true := List.isEmpty_iff.mpr hpicked
    simp only [answer, resolveOrderedCandidates]
    rw [if_neg (by simpa using hresolved), if_pos hempty]
    rfl
  · have hnonempty : (loadBalanced ((orchestrator.withSignals signals).scoring request)
        request.retryPolicy ((orchestrator.withSignals signals).sticky
          ((ctx.recordStage .select).recordStage .loadBalance) request)
        request.offset resolved scores).1.isEmpty ≠ true :=
      fun h => hpicked (List.isEmpty_iff.mp h)
    simp only [answer, resolveOrderedCandidates]
    rw [if_neg (by simpa using hresolved), if_neg hnonempty]
    by_cases hranked : ranked orchestrator request resolved signals ctx scores = []
    · exact .inl ⟨hranked, (orderHealthy_result _).1 hranked⟩
    · exact .inr ⟨hranked, (orderHealthy_result _).2 hranked⟩

/-! ## The targets are the ranking with its credentials -/

theorem map_index_returnedTargets :
    (returnedTargets orchestrator request resolved signals ctx scores).map RoutedTarget.index =
      returned orchestrator request resolved signals ctx scores := by
  have hselected : ∀ index ∈ returned orchestrator request resolved signals ctx scores,
      ((routesOf orchestrator request resolved signals ctx scores).selectedCredential
        index).isSome = true := by
    intro index hindex
    rw [Routes.isSome_selectedCredential routesOf_sound]
    exact (mem_ranked.mp (subperm_rankTop.subset hindex)).2
  unfold returnedTargets
  rw [List.map_filterMap]
  generalize returned orchestrator request resolved signals ctx scores = indices at hselected ⊢
  induction indices with
  | nil => rfl
  | cons index indices ih =>
      obtain ⟨credential, hcredential⟩ :=
        Option.isSome_iff_exists.mp (hselected index List.mem_cons_self)
      rw [List.filterMap_cons, hcredential,
        ih fun other hother => hselected other (List.mem_cons_of_mem _ hother)]
      rfl

theorem length_returnedTargets :
    (returnedTargets orchestrator request resolved signals ctx scores).length =
      (returned orchestrator request resolved signals ctx scores).length := by
  rw [← map_index_returnedTargets, List.length_map]

theorem length_ranked_filter (priority : Int) :
    ((ranked orchestrator request resolved signals ctx scores).filter fun pick =>
        (resolved[pick]?.map ChannelModelsCandidate.priority).getD 0 ≤ priority).length =
      ((picked orchestrator request resolved ctx scores).filter fun pick =>
        resolved[pick]?.any fun other =>
          usable orchestrator.fingerprint request.traceId signals other &&
            decide (other.priority ≤ priority)).length := by
  rw [(perm_ranked.filter _).length_eq, List.filter_filter]
  congr 2
  funext pick
  unfold Routes.usableAt routesOf
  cases resolved[pick]? with
  | none => simp
  | some other => simp [Bool.and_comm]

/-- The ranking leaves nothing behind exactly if the fallbacks were kept. -/
theorem fallbacksKept_iff :
    FallbacksKept orchestrator request resolved signals ctx scores ↔
      (returned orchestrator request resolved signals ctx scores).length =
          min request.retryPolicy.topK
            (resolved.countP (usable orchestrator.fingerprint request.traceId signals)) ∧
        ∀ (index : Nat) (candidate : ChannelModelsCandidate Settings),
          resolved[index]? = some candidate →
          usable orchestrator.fingerprint request.traceId signals candidate = true →
          index ∉ returned orchestrator request resolved signals ctx scores →
          ∀ kept ∈ returned orchestrator request resolved signals ctx scores,
            (resolved[kept]?.map ChannelModelsCandidate.priority).getD 0 ≤ candidate.priority := by
  unfold FallbacksKept
  rw [← picked_eq]
  let routes := routesOf orchestrator request resolved signals ctx scores
  let positions := (List.range resolved.length).filter routes.usableAt
  have hpositions : ∀ index : Nat, index ∈ positions ↔ ∃ candidate,
      resolved[index]? = some candidate ∧
        usable orchestrator.fingerprint request.traceId signals candidate = true := by
    intro index
    refine List.mem_filter.trans ⟨fun h => usableAt_eq_true.mp h.2, fun h => ?_⟩
    refine ⟨List.mem_range.mpr ?_, usableAt_eq_true.mpr h⟩
    obtain ⟨candidate, hget, -⟩ := h
    exact (List.getElem?_eq_some_iff.mp hget).1
  have hsubset : ∀ index ∈ ranked orchestrator request resolved signals ctx scores,
      index ∈ positions :=
    fun index h => (hpositions index).mpr (usableAt_eq_true.mp (mem_ranked.mp h).2)
  have hpriority : ∀ i j : Nat, routes.sortKey request.loadBalanceStrategy i ≤
      routes.sortKey request.loadBalanceStrategy j →
      (resolved[i]?.map ChannelModelsCandidate.priority).getD 0 ≤
        (resolved[j]?.map ChannelModelsCandidate.priority).getD 0 :=
    fun _ _ => Routes.priority_le_of_sortKey_le
  have hcomplete := rankTop_complete_iff (k := request.retryPolicy.topK)
    (List.nodup_range.filter routes.usableAt) nodup_ranked hsubset hpriority
  have hlength : positions.length =
      resolved.countP (usable orchestrator.fingerprint request.traceId signals) :=
    length_usable resolved _
  rw [hlength] at hcomplete
  have hout : ∀ index ∈ positions, index ∉ ranked orchestrator request resolved signals ctx scores ↔
      index ∉ picked orchestrator request resolved ctx scores := by
    intro index hindex
    have husable : routes.usableAt index = true := (List.mem_filter.mp hindex).2
    refine not_congr (mem_ranked.trans ⟨fun h => h.1, fun h => ⟨h, husable⟩⟩)
  constructor
  · intro h
    refine (hcomplete.mpr fun index hindex hranked => ?_).imp id fun hleft index candidate hget husable => ?_
    · obtain ⟨candidate, hget, husable⟩ := (hpositions index).mp hindex
      rw [length_ranked_filter, hget]
      exact h index candidate hget husable ((hout index hindex).mp hranked)
    · intro hreturned kept hkept
      have hle := hleft index ((hpositions index).mpr ⟨candidate, hget, husable⟩) hreturned kept hkept
      rwa [hget] at hle
  · rintro ⟨hlen, hleft⟩ index candidate hget husable hpicked
    have hindex := (hpositions index).mpr ⟨candidate, hget, husable⟩
    have hkept := hcomplete.mp ⟨hlen, fun index hindex hreturned kept hkept => ?_⟩ index hindex
      ((hout index hindex).mpr hpicked)
    · rwa [length_ranked_filter, hget] at hkept
    · obtain ⟨candidate, hget, husable⟩ := (hpositions index).mp hindex
      rw [hget]
      exact hleft index candidate hget husable hreturned kept hkept

theorem exists_usable_iff :
    (∃ candidate ∈ resolved,
        usable orchestrator.fingerprint request.traceId signals candidate = true) ↔
      ∃ index : Nat, (routesOf orchestrator request resolved signals ctx scores).usableAt index =
        true := by
  constructor
  · rintro ⟨candidate, hmem, husable⟩
    obtain ⟨index, hget⟩ := List.getElem?_of_mem hmem
    exact ⟨index, usableAt_eq_true.mpr ⟨candidate, hget, husable⟩⟩
  · rintro ⟨index, h⟩
    obtain ⟨candidate, hget, husable⟩ := usableAt_eq_true.mp h
    exact ⟨candidate, List.mem_of_getElem? hget, husable⟩

/-- The affinity is ranked first, and stays there if no usable pick comes before it. -/
theorem head?_returned {affinity : ResolvedRouteAffinity}
    (h : (routesOf orchestrator request resolved signals ctx scores).affinity = some affinity) :
    (returned orchestrator request resolved signals ctx scores).head? = some affinity.index ↔
      AffinityLeads orchestrator request resolved signals ctx scores := by
  unfold AffinityLeads
  dsimp only
  rw [← picked_eq]
  obtain ⟨hindex, -⟩ := resolveRouteAffinity_eq_some h
  have husable : (routesOf orchestrator request resolved signals ctx scores).usableAt
      affinity.index = true := by
    rw [← Routes.isSome_selectedCredential routesOf_sound,
      Routes.selectedCredential_affinity routesOf_sound h]
    rfl
  have hfirst : ∃ rest, ranked orchestrator request resolved signals ctx scores =
      affinity.index :: rest := by
    unfold ranked
    simp only
    rw [h]
    simp only [promote, Routes.healthy]
    rw [if_pos (List.contains_iff_mem.mpr hindex), List.filter_cons_of_pos]
    · exact ⟨_, rfl⟩
    · rwa [Routes.isSome_selectedCredential routesOf_sound]
  obtain ⟨rest, hrest⟩ := hfirst
  unfold returned
  rw [head?_rankTop (RetryPolicy.topK_pos _), hrest, head?_rank_cons]
  constructor
  · intro hle other hother pick hpick hpickUsable
    obtain rfl := Option.some.inj (h.symm.trans hother)
    have hmem := mem_ranked.mpr ⟨hpick, hpickUsable⟩
    rw [hrest] at hmem
    rcases List.mem_cons.mp hmem with rfl | hmem
    · exact le_refl _
    · exact hle pick hmem
  · intro hleads pick hpick
    have hmem : pick ∈ ranked orchestrator request resolved signals ctx scores := by
      rw [hrest]
      exact List.mem_cons_of_mem _ hpick
    exact hleads affinity h pick (mem_ranked.mp hmem).1 (mem_ranked.mp hmem).2

theorem mem_returnedTargets {target : RoutedTarget}
    (h : target ∈ returnedTargets orchestrator request resolved signals ctx scores) :
    (routesOf orchestrator request resolved signals ctx scores).selectedCredential target.index =
      some target.credential := by
  obtain ⟨index, -, h⟩ := List.mem_filterMap.mp h
  obtain ⟨credential, hselected, rfl⟩ := Option.map_eq_some_iff.mp h
  exact hselected

theorem projected_returnedTargets (targets : List RoutedTarget)
    (h : ∀ target ∈ targets, ∃ candidate, resolved[target.index]? = some candidate) :
    List.Forall₂ (fun target returned => ∃ candidate, resolved[target.index]? = some candidate ∧
        returned = pipelineCandidate orchestrator candidate target.credential) targets
      (targets.filterMap fun target => resolved[target.index]?.map fun candidate =>
        pipelineCandidate orchestrator candidate target.credential) := by
  induction targets with
  | nil => exact .nil
  | cons target targets ih =>
      obtain ⟨candidate, hget⟩ := h target List.mem_cons_self
      rw [List.filterMap_cons, hget]
      exact .cons ⟨candidate, hget, rfl⟩ (ih fun other hother => h other (List.mem_cons_of_mem _ hother))

/-- The target at the head has its credential. -/
theorem head?_returnedTargets {affinity : ResolvedRouteAffinity}
    (h : (routesOf orchestrator request resolved signals ctx scores).affinity = some affinity) :
    (returnedTargets orchestrator request resolved signals ctx scores).head? =
        some ⟨affinity.index, affinity.credential⟩ ↔
      (returned orchestrator request resolved signals ctx scores).head? = some affinity.index := by
  rw [← map_index_returnedTargets, List.head?_map]
  constructor
  · intro hhead
    rw [hhead]
    rfl
  · intro hhead
    obtain ⟨⟨index, credential⟩, hfirst, rfl⟩ := Option.map_eq_some_iff.mp hhead
    have hcredential := mem_returnedTargets (List.mem_of_mem_head? hfirst)
    rw [Routes.selectedCredential_affinity routesOf_sound h] at hcredential
    rw [hfirst, Option.some.inj hcredential]

theorem affinityDecision_eq_applied {hints : List RouteAffinityHint}
    {affinity : Option ResolvedRouteAffinity} :
    affinityDecision hints affinity = some "applied" ↔ affinity.isSome = true := by
  unfold affinityDecision
  by_cases hsome : affinity.isSome = true
  · simp [hsome]
  · rw [if_neg hsome]
    by_cases hempty : hints.isEmpty = true <;> simp [hempty, hsome]

/-- What does not depend on the picks: who is returned is ordered and healthy. -/
theorem orderedWell_iff :
    OrderedWell orchestrator request resolved signals
        ⟨returnedTargets orchestrator request resolved signals ctx scores,
          (returnedTargets orchestrator request resolved signals ctx scores).filterMap fun target =>
            resolved[target.index]?.map fun candidate =>
              pipelineCandidate orchestrator candidate target.credential⟩ ↔
      FallbacksKept orchestrator request resolved signals ctx scores := by
  rw [fallbacksKept_iff]
  constructor
  · intro h
    have hlength := h.length
    have hboundary := h.boundary
    rw [length_returnedTargets] at hlength
    rw [map_index_returnedTargets] at hboundary
    exact ⟨hlength, hboundary⟩
  · rintro ⟨hlength, hboundary⟩
    have hselected : ∀ target ∈ returnedTargets orchestrator request resolved signals ctx scores,
        ∃ candidate, resolved[target.index]? = some candidate ∧
          signals.status (healthTarget orchestrator.fingerprint candidate target.credential) ≠
            .unhealthy := by
      intro target htarget
      obtain ⟨candidate, hget, -, hstatus⟩ :=
        Routes.selectedCredential_eq_some routesOf_sound (mem_returnedTargets htarget)
      exact ⟨candidate, hget, hstatus⟩
    refine ⟨?_, ?_, ?_, ?_, hselected, ?_⟩
    · exact projected_returnedTargets _ fun target htarget =>
        (hselected target htarget).imp fun _ h => h.1
    · rw [map_index_returnedTargets]
      exact nodup_rankTop nodup_ranked
    · rw [length_returnedTargets]
      exact hlength
    · rw [map_index_returnedTargets]
      have hsorted : (returned orchestrator request resolved signals ctx scores).Pairwise
          fun i j => (routesOf orchestrator request resolved signals ctx scores).sortKey
              request.loadBalanceStrategy i ≤
            (routesOf orchestrator request resolved signals ctx scores).sortKey
              request.loadBalanceStrategy j := pairwise_rankTop
      exact hsorted.imp fun h => Routes.priority_le_of_sortKey_le h
    · rw [map_index_returnedTargets]
      exact hboundary

/-- The routes of a request are complete and within every boundary exactly
when the load balancer cut no route that was needed and the affinity on record
has the smallest sort key. -/
theorem answeredWell_iff :
    AnsweredWell orchestrator request resolved signals ctx scores
        (resolveOrderedCandidates (orchestrator.withSignals signals) request resolved ctx scores) ↔
      FallbacksKept orchestrator request resolved signals ctx scores ∧
        AffinityLeads orchestrator request resolved signals ctx scores := by
  have hpicked := @picked_eq _ _ orchestrator request resolved ctx scores
  rcases @resolveOrderedCandidates_result _ _ orchestrator request resolved signals ctx scores with
    ⟨hranked, herror⟩ | ⟨hranked, hdecision, hok⟩
  · have hnone : ∀ index ∈ picked orchestrator request resolved ctx scores,
        (routesOf orchestrator request resolved signals ctx scores).usableAt index ≠ true := by
      intro index hindex husable
      have hmem := mem_ranked.mpr ⟨hindex, husable⟩
      rw [hranked] at hmem
      exact absurd hmem List.not_mem_nil
    have hfailed : ∀ routes : OrderedRoutes, (resolveOrderedCandidates
        (orchestrator.withSignals signals) request resolved ctx scores).result ≠ .ok routes := by
      intro routes hok
      rw [hok] at herror
      exact absurd herror (by simp [Except.isOk, Except.toBool])
    constructor
    · intro h
      have hunusable : ¬∃ index : Nat, (routesOf orchestrator request resolved signals ctx
          scores).usableAt index = true := by
        rw [← exists_usable_iff, ← h.ok_iff, herror]
        exact Bool.false_ne_true
      refine ⟨fun index candidate hget husable _ => ?_, fun _ _ pick hpick husable => ?_⟩
      · exact absurd ⟨index, usableAt_eq_true.mpr ⟨candidate, hget, husable⟩⟩ hunusable
      · exact absurd husable (hnone pick (hpicked ▸ hpick))
    · rintro ⟨hkept, -⟩
      refine ⟨?_, fun routes hok => absurd hok (hfailed routes),
        fun routes hok => absurd hok (hfailed routes)⟩
      rw [herror, exists_usable_iff]
      refine ⟨fun h => absurd h Bool.false_ne_true, ?_⟩
      rintro ⟨index, husable⟩
      obtain ⟨candidate, hget, hcandidate⟩ := usableAt_eq_true.mp husable
      have hcut : index ∉ picked orchestrator request resolved ctx scores :=
        fun hindex => hnone index hindex husable
      have hlength := hkept index candidate hget hcandidate (hpicked ▸ hcut)
      rw [← hpicked, ← length_ranked_filter, hranked] at hlength
      exact absurd hlength (Nat.not_le_of_lt request.retryPolicy.topK_pos)
  · rw [← orderedWell_iff]
    constructor
    · intro h
      refine ⟨h.ordered _ hok, fun affinity haffinity => ?_⟩
      have hsome : affinityDecision (requestRouteAffinityHints orchestrator.codec ctx)
          (routesOf orchestrator request resolved signals ctx scores).affinity = some "applied" :=
        affinityDecision_eq_applied.mpr (by rw [haffinity]; rfl)
      obtain ⟨other, hother, hhead⟩ := h.applied _ hok (hdecision.trans hsome)
      obtain rfl := Option.some.inj (haffinity.symm.trans hother)
      exact (head?_returned haffinity).mp ((head?_returnedTargets haffinity).mp hhead) _ haffinity
    · rintro ⟨hordered, hleads⟩
      refine ⟨?_, fun routes hroutes => ?_, fun routes hroutes happlied => ?_⟩
      · rw [hok, exists_usable_iff]
        obtain ⟨index, hindex⟩ := List.exists_mem_of_ne_nil _ hranked
        exact ⟨fun _ => ⟨index, (mem_ranked.mp hindex).2⟩, fun _ => rfl⟩
      · obtain rfl := Except.ok.inj (hok.symm.trans hroutes)
        exact hordered
      · obtain rfl := Except.ok.inj (hok.symm.trans hroutes)
        obtain ⟨affinity, haffinity⟩ := Option.isSome_iff_exists.mp
          (affinityDecision_eq_applied.mp (hdecision.symm.trans happlied))
        exact ⟨affinity, haffinity,
          (head?_returnedTargets haffinity).mpr ((head?_returned haffinity).mpr hleads)⟩

end Ordering

section CutFallback

def weightedOrchestrator : RouteOrchestrator Unit Unit where
  scoringStrategies _ := weightScoring.routed
  stickyProvider _ _ := none
  routeHealth _ := .ok fun _ => none
  fingerprint := id
  codec := ⟨fun _ => none, fun _ => none, fun _ => none, fun _ => none⟩
  settings _ := ⟨.empty, [], []⟩

def routeCandidate (channelId : String) (orderingWeight : Int) : ChannelModelsCandidate Unit where
  channelId
  channelName := channelId
  orderingWeight
  priority := 0
  models := [⟨"m", "m", .direct⟩]
  endpoint := .empty
  apiFormat := "openai/chat_completions"
  channelType := "openai"
  policies := ""
  credentialKeyIdentity := ""
  tags := []
  baseUrl := none
  activeCredential := some "key"
  enabledCredentials := ["key"]
  settings := none
  theoreticalCostAccounting := none
  costEfficiencyScore := 0

def singleTry : RouteRequest where
  requestId := "r"
  model := "m"
  loadBalanceStrategy := .failover
  retryPolicy := ⟨false, 3⟩
  costScoreWeight := none
  traceId := none
  threadId := none

/-- Only channel `first` is in bad health. -/
def firstUnhealthy : RouteHealthSignals := fun target =>
  if target.channelId = "first" then some ⟨.unhealthy, none⟩ else none

/-- Without retries the load balancer keeps the heavier route only; it is
unhealthy, and the healthy one beside it is gone. -/
theorem healthy_fallback_cut :
    ¬AnsweredWell weightedOrchestrator singleTry [routeCandidate "first" 10,
        routeCandidate "second" 5] firstUnhealthy ⟨[], fun _ => none⟩ ()
      (resolveOrderedCandidates (weightedOrchestrator.withSignals firstUnhealthy) singleTry
        [routeCandidate "first" 10, routeCandidate "second" 5] ⟨[], fun _ => none⟩ ()) := by
  intro h
  have hok := h.ok_iff.mpr ⟨routeCandidate "second" 5, by simp, by decide⟩
  exact absurd hok (by decide)

end CutFallback

end Conduit.Orchestrator
