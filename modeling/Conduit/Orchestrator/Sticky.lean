import Conduit.Orchestrator.LoadBalancer

/-!
# Sticky routing

`select_channels` and `select_channels_with_tie_rotation` bring the sticky
channel to the front with `rotate_left`, which also takes what stood before it
to the end. Where channels stand on both sides of the sticky one and more than
one channel is kept, the rest is not in its priority order: a channel can be
dropped for one that it outranks.
-/

namespace Conduit.Orchestrator

/-! ## What sticky routing is to do -/

/-- The order a selection starts from: by score and ordering weight. -/
def priorityOrder (candidates : List Candidate) (score : Candidate → Int) : List Candidate :=
  sortCandidatesTopK candidates score candidates.length

/-- The same order with the leading ties rotated. -/
def rotatedOrder (candidates : List Candidate) (score : Candidate → Int) (offset : Nat) :
    List Candidate :=
  (rotateTies (sortScored (scoreCandidates candidates score)) offset).map (·.candidate)

/-- The sticky channel in front of the others, which keep their order. -/
def promoteSticky (order : List Candidate) (sticky : Option String) : List Candidate :=
  match sticky with
  | some stickyId =>
      match order.find? (·.id = stickyId) with
      | some c => c :: order.eraseP (·.id = stickyId)
      | none => order
  | none => order

/-- A better score, or the same with a better ordering weight. -/
def Outranks (score : Candidate → Int) (a b : Candidate) : Prop :=
  score b < score a ∨ (score b = score a ∧ b.orderingWeight < a.orderingWeight)

/-- The output is the order with the sticky channel promoted, cut to `topK`; no
channel left out outranks one that is kept, but for the sticky one. -/
def Promotes (score : Candidate → Int) (order : List Candidate) (sticky : Option String)
    (topK : Nat) (output : List Candidate) : Prop :=
  output = (promoteSticky order sticky).take topK ∧
    ∀ dropped, (output ++ dropped).Perm order →
      ∀ kept ∈ output, sticky ≠ some kept.id → ∀ d ∈ dropped, ¬ Outranks score d kept

/-- Nothing is kept besides the sticky channel, or the others stand on one side
of it, or (where a candidate is repeated) what is kept of them reads the same
with the two sides exchanged. -/
def KeepsOrder (order : List Candidate) (sticky : Option String) (topK : Nat) : Prop :=
  ∀ before c after, order = before ++ c :: after → sticky = some c.id →
    (∀ b ∈ before, b.id ≠ c.id) →
      topK ≤ 1 ∨ before = [] ∨ after = [] ∨
        (before ++ after).take (topK - 1) = (after ++ before).take (topK - 1)

/-! ## The sticky channel in the order -/

theorem rotateLeft_append {α : Type} (before after : List α) :
    rotateLeft (before ++ after) before.length = after ++ before := by
  unfold rotateLeft
  rw [List.drop_left, List.take_left]

/-- Where the first channel of an id stands. -/
theorem findIdx_first {before : List Candidate} {c : Candidate} (after : List Candidate)
    (h : ∀ b ∈ before, b.id ≠ c.id) :
    (before ++ c :: after).findIdx (fun d => decide (d.id = c.id)) = before.length := by
  have hnot : ¬ before.findIdx (fun d => decide (d.id = c.id)) < before.length := by
    rw [List.findIdx_lt_length]
    rintro ⟨b, hb, heq⟩
    exact h b hb (of_decide_eq_true heq)
  rw [List.findIdx_append, if_neg hnot]
  simp [List.findIdx_cons]

/-- Either no channel is sticky, or the first one of the sticky id splits the order. -/
theorem sticky_cases (order : List Candidate) (sticky : Option String) :
    ((∀ c ∈ order, sticky ≠ some c.id) ∧ rotateSticky order sticky = order ∧
        promoteSticky order sticky = order) ∨
      ∃ before c after, order = before ++ c :: after ∧ sticky = some c.id ∧
        (∀ b ∈ before, b.id ≠ c.id) ∧
        rotateSticky order sticky = c :: (after ++ before) ∧
        promoteSticky order sticky = c :: (before ++ after) := by
  cases sticky with
  | none => exact .inl ⟨fun _ _ => by simp, rfl, rfl⟩
  | some stickyId =>
      cases hfind : order.find? (·.id = stickyId) with
      | none =>
          have habsent : ∀ c ∈ order, c.id ≠ stickyId := by simpa using hfind
          have hindex : order.findIdx? (·.id = stickyId) = none :=
            List.findIdx?_eq_none_iff.mpr fun c hc => decide_eq_false (habsent c hc)
          refine .inl ⟨fun c hc heq => habsent c hc (Option.some.inj heq).symm, ?_, ?_⟩
          · unfold rotateSticky
            dsimp only
            rw [hindex]
          · unfold promoteSticky
            dsimp only
            rw [hfind]
      | some c =>
          obtain ⟨hid, before, after, horder, hbefore⟩ := List.find?_eq_some_iff_append.mp hfind
          have hid : c.id = stickyId := of_decide_eq_true hid
          have hbefore : ∀ b ∈ before, b.id ≠ stickyId := by simpa using hbefore
          have hskip : ∀ b ∈ before, ¬ decide (b.id = stickyId) = true :=
            fun b hb => by simpa using hbefore b hb
          have hindex : order.findIdx? (·.id = stickyId) = some before.length := by
            rw [horder, List.findIdx?_append,
              List.findIdx?_eq_none_iff.mpr fun b hb => decide_eq_false (hbefore b hb)]
            simp [List.findIdx?_cons, hid]
          refine .inr ⟨before, c, after, horder, by rw [hid], by rwa [hid], ?_, ?_⟩
          · unfold rotateSticky
            dsimp only
            rw [hindex, horder]
            exact rotateLeft_append before (c :: after)
          · unfold promoteSticky
            dsimp only
            rw [hfind, horder, List.eraseP_append_right _ hskip,
              List.eraseP_cons_of_pos (by simpa using hid)]

/-- The rotation is the promotion, as far as it is kept, exactly where the
others keep their order. -/
theorem take_rotateSticky_eq_iff (order : List Candidate) (sticky : Option String) (topK : Nat) :
    (rotateSticky order sticky).take topK = (promoteSticky order sticky).take topK ↔
      KeepsOrder order sticky topK := by
  rcases sticky_cases order sticky with ⟨habsent, hrotate, hpromote⟩ |
    ⟨before, c, after, horder, hsticky, hbefore, hrotate, hpromote⟩
  · rw [hrotate, hpromote]
    refine ⟨fun _ before c after horder hsticky _ => ?_, fun _ => rfl⟩
    exact absurd hsticky (habsent c (by simp [horder]))
  · rw [hrotate, hpromote]
    constructor
    · intro hsame before' c' after' horder' hsticky' hbefore'
      have hid : c'.id = c.id := Option.some.inj (hsticky'.symm.trans hsticky)
      -- the first channel of the sticky id is one place of the order
      have hlength : before'.length = before.length := by
        have hplace := findIdx_first after' hbefore'
        rw [← horder', hid, horder, findIdx_first after hbefore] at hplace
        exact hplace.symm
      obtain ⟨rfl, hrest⟩ := List.append_inj (horder'.symm.trans horder) hlength
      obtain ⟨rfl, rfl⟩ := List.cons.inj hrest
      cases topK with
      | zero => exact .inl (Nat.zero_le 1)
      | succ k =>
          rw [List.take_succ_cons, List.take_succ_cons] at hsame
          exact .inr (.inr (.inr (List.cons.inj hsame).2.symm))
    · intro hkeeps
      cases topK with
      | zero => rfl
      | succ k =>
          rw [List.take_succ_cons, List.take_succ_cons]
          rcases hkeeps before c after horder hsticky hbefore with hle | rfl | rfl | hsame
          · have hk : k = 0 := by omega
            rw [hk]
            rfl
          · rw [List.append_nil, List.nil_append]
          · rw [List.append_nil, List.nil_append]
          · exact congrArg (c :: ·) hsame.symm

/-- `order_with_sticky`. -/
def orderWithSticky (candidates : List Candidate) (sticky : Option String) : List Candidate :=
  rotateSticky candidates sticky

theorem orderWithSticky_eq_iff (candidates : List Candidate) (sticky : Option String) :
    orderWithSticky candidates sticky = promoteSticky candidates sticky ↔
      KeepsOrder candidates sticky candidates.length := by
  rw [← take_rotateSticky_eq_iff]
  have hlengths : (rotateSticky candidates sticky).length = candidates.length ∧
      (promoteSticky candidates sticky).length = candidates.length := by
    rcases sticky_cases candidates sticky with ⟨-, hrotate, hpromote⟩ |
      ⟨before, c, after, horder, -, -, hrotate, hpromote⟩
    · rw [hrotate, hpromote]
      exact ⟨rfl, rfl⟩
    · rw [hrotate, hpromote, horder]
      simp only [List.length_cons, List.length_append]
      omega
  rw [List.take_of_length_le hlengths.1.le, List.take_of_length_le hlengths.2.le]
  rfl

/-- Without repeated channels, the others must stand on one side of the sticky
one. -/
theorem KeepsOrder.of_nodup {order : List Candidate} (hnodup : order.Nodup)
    {sticky : Option String} {topK : Nat} (h : KeepsOrder order sticky topK)
    {before after : List Candidate} {c : Candidate} (horder : order = before ++ c :: after)
    (hsticky : sticky = some c.id) (hbefore : ∀ b ∈ before, b.id ≠ c.id) :
    topK ≤ 1 ∨ before = [] ∨ after = [] := by
  rcases h before c after horder hsticky hbefore with hle | hnil | hnil | hsame
  · exact .inl hle
  · exact .inr (.inl hnil)
  · exact .inr (.inr hnil)
  · cases before with
    | nil => exact .inr (.inl rfl)
    | cons a before =>
        cases after with
        | nil => exact .inr (.inr rfl)
        | cons b after =>
            refine .inl (not_lt.mp fun htwo => ?_)
            obtain ⟨k, hk⟩ : ∃ k, topK - 1 = k + 1 := ⟨topK - 2, by omega⟩
            rw [hk] at hsame
            have hhead : a = b := (List.cons.inj hsame).1
            rw [horder, hhead] at hnodup
            simp at hnodup

/-! ## Rank along the order -/

/-- No channel of the list outranks one before it. -/
def Ranked (score : Candidate → Int) (order : List Candidate) : Prop :=
  order.Pairwise fun a b => ¬ Outranks score b a

theorem outranks_of_gt {candidates : List Candidate} {score : Candidate → Int}
    {l r : ScoredCandidate} (hl : l ∈ scoreCandidates candidates score)
    (hr : r ∈ scoreCandidates candidates score) (h : compareScored l r ≠ .gt) :
    ¬ Outranks score r.candidate l.candidate := by
  rw [compareScored_ne_gt, (mem_scoreCandidates hl).2, (mem_scoreCandidates hr).2] at h
  unfold Outranks
  omega

theorem sortScored_ranked (candidates : List Candidate) (score : Candidate → Int) :
    (sortScored (scoreCandidates candidates score)).Pairwise
      fun l r => ¬ Outranks score r.candidate l.candidate := by
  have hmem : ∀ e, e ∈ sortScored (scoreCandidates candidates score) →
      e ∈ scoreCandidates candidates score := fun e he => (List.mem_insertionSort _).mp he
  have hsorted : (sortScored (scoreCandidates candidates score)).Pairwise
      fun l r => compareScored l r ≠ .gt := pairwise_sortScored _
  exact hsorted.imp_of_mem fun hl hr h => outranks_of_gt (hmem _ hl) (hmem _ hr) h

theorem priorityOrder_ranked (candidates : List Candidate) (score : Candidate → Int) :
    Ranked score (priorityOrder candidates score) := by
  unfold priorityOrder sortCandidatesTopK
  by_cases h : candidates.length ≤ 1
  · rw [if_pos h, List.take_length]
    cases candidates with
    | nil => exact List.Pairwise.nil
    | cons c rest =>
        have hrest : rest = [] := List.length_eq_zero_iff.mp (by simpa using h)
        rw [hrest]
        exact List.pairwise_singleton _ _
  · rw [if_neg h]
    exact List.pairwise_map.mpr
      ((sortScored_ranked candidates score).sublist (List.take_sublist _ _))

/-- Channels of one rank can change places. -/
theorem rotateTies_ranked (candidates : List Candidate) (score : Candidate → Int) (offset : Nat) :
    Ranked score (rotatedOrder candidates score offset) := by
  have hranked := sortScored_ranked candidates score
  have hscored : ∀ e ∈ sortScored (scoreCandidates candidates score),
      e.score = score e.candidate :=
    fun e he => (mem_scoreCandidates ((List.mem_insertionSort _).mp he)).2
  refine List.pairwise_map.mpr ?_
  generalize sortScored (scoreCandidates candidates score) = scored at hranked hscored
  cases scored with
  | nil => exact List.Pairwise.nil
  | cons lead rest =>
      simp only [rotateTies]
      split
      · next htie =>
          set tied := fun entry : ScoredCandidate => decide (entry.score = lead.score ∧
            entry.candidate.orderingWeight = lead.candidate.orderingWeight)
          have hgroup : ∀ e ∈ (lead :: rest).takeWhile tied, score e.candidate = lead.score ∧
              e.candidate.orderingWeight = lead.candidate.orderingWeight := by
            intro e he
            have htied : tied e = true := List.mem_takeWhile_imp he
            have heq := of_decide_eq_true htied
            rwa [hscored e ((List.takeWhile_prefix _).subset he)] at heq
          have htake : (lead :: rest).take ((lead :: rest).takeWhile tied).length =
              (lead :: rest).takeWhile tied :=
            (List.prefix_iff_eq_take.mp (List.takeWhile_prefix tied)).symm
          have hsplit := List.take_append_drop ((lead :: rest).takeWhile tied).length (lead :: rest)
          rw [← hsplit, htake, List.pairwise_append] at hranked
          rw [htake]
          have hmem : ∀ e k, e ∈ rotateLeft ((lead :: rest).takeWhile tied) k →
              e ∈ (lead :: rest).takeWhile tied := by
            intro e k he
            rcases List.mem_append.mp he with he | he
            · exact List.mem_of_mem_drop he
            · exact List.mem_of_mem_take he
          refine List.pairwise_append.mpr ⟨?_, hranked.2.1, fun a ha b hb =>
            hranked.2.2 a (hmem _ _ ha) b hb⟩
          refine List.Pairwise.imp_of_mem (R := fun _ _ => True) (fun ha hb _ => ?_)
            (List.pairwise_of_forall fun _ _ => trivial)
          obtain ⟨hscorea, hweighta⟩ := hgroup _ (hmem _ _ ha)
          obtain ⟨hscoreb, hweightb⟩ := hgroup _ (hmem _ _ hb)
          unfold Outranks
          omega
      · exact hranked

/-- What a promotion leaves out does not outrank what it keeps. -/
theorem promotes_of_eq {score : Candidate → Int} {order : List Candidate}
    (hranked : Ranked score order) (sticky : Option String) (topK : Nat) {output : List Candidate}
    (h : output = (promoteSticky order sticky).take topK) :
    Promotes score order sticky topK output := by
  refine ⟨h, fun dropped hperm kept hkept hother d hd => ?_⟩
  subst h
  rcases sticky_cases order sticky with ⟨-, -, hpromote⟩ |
    ⟨before, c, after, horder, hsticky, -, -, hpromote⟩
  · rw [hpromote] at hperm hkept
    have hrest : dropped.Perm (order.drop topK) := by
      rw [← List.perm_append_left_iff (order.take topK), List.take_append_drop]
      exact hperm
    have hsplit := List.take_append_drop topK order
    rw [Ranked, ← hsplit, List.pairwise_append] at hranked
    exact hranked.2.2 kept hkept d (hrest.mem_iff.mp hd)
  · rw [hpromote] at hperm hkept
    have hpromoted : (c :: (before ++ after)).Perm order := by
      rw [horder]
      exact List.perm_middle.symm
    have hrest : dropped.Perm ((c :: (before ++ after)).drop topK) := by
      rw [← List.perm_append_left_iff ((c :: (before ++ after)).take topK), List.take_append_drop]
      exact hperm.trans hpromoted.symm
    cases topK with
    | zero => exact absurd hkept List.not_mem_nil
    | succ k =>
        have hkept : kept ∈ (before ++ after).take k := by
          rcases List.mem_cons.mp hkept with rfl | hkept
          · exact absurd hsticky hother
          · exact hkept
        have hothers : (before ++ after).Pairwise fun a b => ¬ Outranks score b a := by
          refine hranked.sublist ?_
          rw [horder]
          exact (List.sublist_cons_self c after).append_left before
        rw [← List.take_append_drop k (before ++ after), List.pairwise_append] at hothers
        exact hothers.2.2 kept hkept d (hrest.mem_iff.mp hd)

/-! ## Both selections -/

variable {σ : Type} (strategy : ScoringStrategy σ) (s : σ) (candidates : List Candidate)
  (policy : RetryPolicy) (sticky : Option String) (offset : Nat)

theorem recordFirst_fst (result : List Candidate) : (recordFirst strategy s result).1 = result := by
  unfold recordFirst
  cases result.head? with
  | none => rfl
  | some selected => rfl

theorem selectChannels_fst :
    (selectChannels strategy s candidates policy sticky).1 =
      (rotateSticky (priorityOrder candidates (strategy.score s)) sticky).take
        (min policy.topK candidates.length) := by
  unfold selectChannels
  rw [recordFirst_fst]
  rfl

theorem selectChannelsWithTieRotation_fst :
    (selectChannelsWithTieRotation strategy s candidates policy sticky offset).1 =
      (rotateSticky (rotatedOrder candidates (strategy.score s) offset) sticky).take
        (min policy.topK candidates.length) := by
  cases candidates with
  | nil => simp [selectChannelsWithTieRotation]
  | cons c rest =>
      unfold selectChannelsWithTieRotation
      dsimp only
      rw [recordFirst_fst]
      rfl

/-- A rotation promotes the sticky channel exactly where the others keep their
order. -/
theorem promotes_iff {score : Candidate → Int} {order : List Candidate}
    (hranked : Ranked score order) (topK : Nat) :
    Promotes score order sticky topK ((rotateSticky order sticky).take topK) ↔
      KeepsOrder order sticky topK := by
  rw [← take_rotateSticky_eq_iff]
  exact ⟨fun h => h.1, promotes_of_eq hranked sticky topK⟩

/-- Either selection promotes the sticky channel, and does no more, exactly
where the channels of its order keep their places behind the sticky one. -/
theorem selections_promote_iff :
    (Promotes (strategy.score s) (priorityOrder candidates (strategy.score s)) sticky
        (min policy.topK candidates.length)
        (selectChannels strategy s candidates policy sticky).1 ↔
      KeepsOrder (priorityOrder candidates (strategy.score s)) sticky
        (min policy.topK candidates.length)) ∧
      (Promotes (strategy.score s) (rotatedOrder candidates (strategy.score s) offset) sticky
          (min policy.topK candidates.length)
          (selectChannelsWithTieRotation strategy s candidates policy sticky offset).1 ↔
        KeepsOrder (rotatedOrder candidates (strategy.score s) offset) sticky
          (min policy.topK candidates.length)) := by
  rw [selectChannels_fst, selectChannelsWithTieRotation_fst]
  exact ⟨promotes_iff sticky (priorityOrder_ranked candidates _) _,
    promotes_iff sticky (rotateTies_ranked candidates _ offset) _⟩

/-- Four channels of falling ordering weight, the third one sticky, two tries:
the fourth is kept and the first, which outranks it, is dropped. -/
theorem selectChannels_drops_best :
    ¬ Promotes (fun _ => 0) (priorityOrder [⟨"a", 4⟩, ⟨"b", 3⟩, ⟨"c", 2⟩, ⟨"d", 1⟩] fun _ => 0)
      (some "c") 2
      (selectChannels (⟨fun _ _ => 0, fun s _ => s⟩ : ScoringStrategy Unit) ()
        [⟨"a", 4⟩, ⟨"b", 3⟩, ⟨"c", 2⟩, ⟨"d", 1⟩] ⟨true, 1⟩ (some "c")).1 := by
  rintro ⟨heq, -⟩
  exact absurd heq (by decide)

end Conduit.Orchestrator
