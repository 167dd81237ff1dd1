import Mathlib
import Conduit.Base.TSys

/-!
# Fixed windows and the sliding limit

A counter admits up to a limit of arrivals and starts again with the first
arrival that comes a window's width after the start of its window. What a rate
limit asks for is more: at most the limit in every position of a window. The
two agree at an arrival exactly if what the counter has forgotten, the
admissions of earlier windows that are still young, leaves room for it. Over a
run this is a matter of the arrival times alone: each admission has to come a
window's width after the one of the window before whose place it takes.
-/

namespace Base.FixedWindow

/-! ## The counter -/

structure Window where
  start : Nat
  count : Nat
deriving DecidableEq, Repr

/-- The window that an arrival is counted in. -/
def current (width now : Nat) : Option Window → Window
  | none => ⟨now, 0⟩
  | some window => if width ≤ now - window.start then ⟨now, 0⟩ else window

/-- Counts an arrival, or turns it away at the limit. -/
def allow (width limit now : Nat) (entry : Option Window) : Bool × Window :=
  let window := current width now entry
  if window.count < limit then (true, { window with count := window.count + 1 })
  else (false, window)

/-! ## The limit in every window -/

/-- When requests arrived and whether they were admitted, latest first. -/
abbrev Log := List (Nat × Bool)

/-- The requests admitted in `(t - width, t]`. -/
def within (width t : Nat) (log : Log) : Nat :=
  log.countP fun a => a.2 && decide (a.1 ≤ t) && decide (t < a.1 + width)

structure SlidingLimit (width limit : Nat) (log : Log) : Prop where
  admitted : ∀ t : Nat, within width t log ≤ limit
  rejected : ∀ (t : Nat) (earlier : Log), (t, false) :: earlier <:+ log →
    limit ≤ within width t earlier

theorem SlidingLimit.nil (width limit : Nat) : SlidingLimit width limit [] where
  admitted _ := Nat.zero_le _
  rejected _ _ h := by
    have := List.suffix_nil.mp h
    contradiction

/-! ## What the counter keeps of the log -/

/-- The counter counts the admissions since the start of its window, and that
window is the last one: nothing has arrived after its end. -/
structure Tracks (width limit clock : Nat) (entry : Option Window) (log : Log) : Prop where
  past : ∀ a ∈ log, a.1 ≤ clock
  fresh : entry = none → log = []
  started : ∀ window : Window, entry = some window → window.start ≤ clock
  counted : ∀ window : Window, entry = some window →
    window.count = log.countP fun a => a.2 && decide (window.start ≤ a.1)
  bounded : ∀ window : Window, entry = some window → window.count ≤ limit
  last : ∀ window : Window, entry = some window → ∀ a ∈ log, a.1 < window.start + width

/-- The admissions of earlier windows that are younger than the width: they are
in the sliding window at `now` but no longer in the counter. -/
def carried (width now : Nat) (entry : Option Window) (log : Log) : Nat :=
  log.countP fun a => a.2 && decide (a.1 < (current width now entry).start) &&
    decide (now < a.1 + width)

/-- If the counter has room for an arrival, so has the sliding window. -/
def Fits (width limit now : Nat) (entry : Option Window) (log : Log) : Prop :=
  (current width now entry).count < limit →
    carried width now entry log + (current width now entry).count < limit

section Lemmas

variable {width limit clock now : Nat} {entry : Option Window} {log : Log}

theorem Tracks.init (width limit clock : Nat) : Tracks width limit clock none [] where
  past _ h := absurd h List.not_mem_nil
  fresh _ := rfl
  started _ h := absurd h (Option.some_ne_none _).symm
  counted _ h := absurd h (Option.some_ne_none _).symm
  bounded _ h := absurd h (Option.some_ne_none _).symm
  last _ h := absurd h (Option.some_ne_none _).symm

/-- Time passes between arrivals. -/
theorem Tracks.wait (h : Tracks width limit clock entry log) (hle : clock ≤ now) :
    Tracks width limit now entry log where
  past a ha := (h.past a ha).trans hle
  fresh := h.fresh
  started window hentry := (h.started window hentry).trans hle
  counted := h.counted
  bounded := h.bounded
  last := h.last

/-- Counting by cases that exclude each other. -/
theorem countP_or {α : Type} {p q r : α → Bool} {l : List α}
    (hsplit : ∀ a ∈ l, p a = (q a || r a)) (hdisjoint : ∀ a ∈ l, q a = true → r a = false) :
    l.countP p = l.countP q + l.countP r := by
  induction l with
  | nil => rfl
  | cons a l ih =>
      have htail := ih (fun b hb => hsplit b (List.mem_cons_of_mem a hb))
        fun b hb => hdisjoint b (List.mem_cons_of_mem a hb)
      have hhead := hsplit a List.mem_cons_self
      have hone := hdisjoint a List.mem_cons_self
      rw [List.countP_cons, List.countP_cons, List.countP_cons, htail, hhead]
      cases hq : q a with
      | true => simp [hone hq]; omega
      | false => simp; omega

/-- The sliding window at an arrival: what the counter has forgotten and what
it counts. -/
theorem Tracks.within_now (h : Tracks width limit now entry log) :
    within width now log = carried width now entry log + (current width now entry).count := by
  unfold within carried
  cases hentry : entry with
  | none =>
      rw [h.fresh hentry]
      rfl
  | some window =>
      have hlast := h.last window hentry
      have hpast := h.past
      by_cases hover : width ≤ now - window.start
      · -- the window is over: every admission was before `now`
        have hcurrent : current width now (some window) = ⟨now, 0⟩ := if_pos hover
        rw [hcurrent]
        apply List.countP_congr
        intro a ha
        have hend := hlast a ha
        simp only [Bool.and_eq_true, decide_eq_true_eq]
        constructor
        · rintro ⟨⟨hadmitted, hle⟩, hyoung⟩
          exact ⟨⟨hadmitted, by omega⟩, hyoung⟩
        · rintro ⟨⟨hadmitted, hlt⟩, hyoung⟩
          exact ⟨⟨hadmitted, hlt.le⟩, hyoung⟩
      · have hcurrent : current width now (some window) = window := if_neg hover
        rw [hcurrent, h.counted window hentry]
        apply countP_or
        · intro a ha
          have := hpast a ha
          apply Bool.eq_iff_iff.mpr
          simp only [Bool.and_eq_true, Bool.or_eq_true, decide_eq_true_eq]
          constructor
          · rintro ⟨⟨hadmitted, hle⟩, hyoung⟩
            rcases Nat.lt_or_ge a.1 window.start with hlt | hge
            · exact .inl ⟨⟨hadmitted, hlt⟩, hyoung⟩
            · exact .inr ⟨hadmitted, hge⟩
          · rintro (⟨⟨hadmitted, _⟩, hyoung⟩ | ⟨hadmitted, hge⟩)
            · exact ⟨⟨hadmitted, this⟩, hyoung⟩
            · exact ⟨⟨hadmitted, this⟩, by omega⟩
        · intro a _ hforgotten
          simp only [Bool.and_eq_true, decide_eq_true_eq] at hforgotten
          simp only [Bool.and_eq_false_iff, decide_eq_false_iff_not]
          exact .inr (by omega)

theorem Tracks.current_start (h : Tracks width limit now entry log) :
    (current width now entry).start ≤ now ∧ now < (current width now entry).start + width ∨
      width = 0 := by
  rcases Nat.eq_zero_or_pos width with hzero | hpos
  · exact .inr hzero
  · refine .inl ?_
    cases hentry : entry with
    | none => exact ⟨Nat.le_refl now, Nat.lt_add_of_pos_right hpos⟩
    | some window =>
        have hstarted := h.started window hentry
        dsimp only [current]
        split_ifs with hover
        · exact ⟨Nat.le_refl now, Nat.lt_add_of_pos_right hpos⟩
        · exact ⟨hstarted, by omega⟩

/-- The admissions the current window counts, and its end. -/
theorem Tracks.current_counted (h : Tracks width limit now entry log) :
    (current width now entry).count =
      log.countP (fun a => a.2 && decide ((current width now entry).start ≤ a.1)) ∧
    (∀ a ∈ log, a.1 < (current width now entry).start + width) ∧
    (current width now entry).count ≤ limit := by
  cases hentry : entry with
  | none =>
      rw [h.fresh hentry]
      exact ⟨rfl, fun _ ha => absurd ha List.not_mem_nil, Nat.zero_le _⟩
  | some window =>
      have hlast := h.last window hentry
      by_cases hover : width ≤ now - window.start
      · have hcurrent : current width now (some window) = ⟨now, 0⟩ := if_pos hover
        rw [hcurrent]
        refine ⟨?_, ?_, Nat.zero_le _⟩
        · symm
          rw [List.countP_eq_zero]
          intro a ha hcount
          have hend := hlast a ha
          have hstarted := h.started window hentry
          have hsince := of_decide_eq_true (Bool.and_eq_true_iff.mp hcount).2
          dsimp only at hsince
          omega
        · intro a ha
          have := hlast a ha
          have := h.started window hentry
          dsimp only
          omega
      · have hcurrent : current width now (some window) = window := if_neg hover
        rw [hcurrent]
        exact ⟨h.counted window hentry, hlast, h.bounded window hentry⟩

/-! ## One arrival -/

theorem Tracks.allow (hwidth : 0 < width) (h : Tracks width limit now entry log) :
    Tracks width limit now (some (allow width limit now entry).2)
      ((now, (allow width limit now entry).1) :: log) := by
  obtain ⟨hstart, hend⟩ : (current width now entry).start ≤ now ∧
      now < (current width now entry).start + width :=
    h.current_start.resolve_right (Nat.ne_of_gt hwidth)
  obtain ⟨hcounted, hlast, hbounded⟩ := h.current_counted
  unfold FixedWindow.allow
  generalize current width now entry = window at hstart hend hcounted hlast hbounded ⊢
  have hpast : ∀ (admitted : Bool), ∀ a ∈ (now, admitted) :: log, a.1 ≤ now := by
    intro admitted a ha
    rcases List.mem_cons.mp ha with rfl | ha
    · exact Nat.le_refl now
    · exact h.past a ha
  have hend' : ∀ (admitted : Bool), ∀ a ∈ (now, admitted) :: log, a.1 < window.start + width := by
    intro admitted a ha
    rcases List.mem_cons.mp ha with rfl | ha
    · exact hend
    · exact hlast a ha
  by_cases hroom : window.count < limit
  · simp only [if_pos hroom]
    refine ⟨hpast true, fun hnone => absurd hnone (Option.some_ne_none _), ?_, ?_, ?_, ?_⟩ <;>
      rintro _ ⟨⟩
    · exact hstart
    · rw [List.countP_cons, ← hcounted]
      simp [hstart]
    · exact hroom
    · exact hend' true
  · simp only [if_neg hroom]
    refine ⟨hpast false, fun hnone => absurd hnone (Option.some_ne_none _), ?_, ?_, ?_, ?_⟩ <;>
      rintro _ ⟨⟩
    · exact hstart
    · rw [List.countP_cons, ← hcounted]
      simp
    · exact hbounded
    · exact hend' false

/-- A window position after an arrival holds at most what the one at the
arrival holds. -/
theorem Tracks.within_le (h : Tracks width limit now entry log) {t : Nat} (hle : now ≤ t) :
    within width t log ≤ within width now log := by
  apply List.countP_mono_left
  intro a ha
  have hpast := h.past a ha
  simp only [Bool.and_eq_true, decide_eq_true_eq]
  rintro ⟨⟨hadmitted, _⟩, hyoung⟩
  exact ⟨⟨hadmitted, hpast⟩, by omega⟩

/-- An arrival keeps the sliding limit exactly if it fits. -/
theorem Tracks.slidingLimit_allow (hwidth : 0 < width) (h : Tracks width limit now entry log)
    (hlimit : SlidingLimit width limit log) :
    SlidingLimit width limit ((now, (FixedWindow.allow width limit now entry).1) :: log) ↔
      Fits width limit now entry log := by
  have hnow := h.within_now
  have hadmitted : (FixedWindow.allow width limit now entry).1 =
      decide ((current width now entry).count < limit) := by
    unfold FixedWindow.allow
    by_cases hroom : (current width now entry).count < limit
    · simp [hroom]
    · simp [hroom]
  rw [hadmitted]
  unfold Fits
  by_cases hroom : (current width now entry).count < limit
  · simp only [hroom, decide_true, true_implies]
    constructor
    · intro hnext
      have hat := hnext.admitted now
      unfold within at hat hnow
      rw [List.countP_cons, hnow] at hat
      simp only [Nat.le_refl, decide_true, Bool.and_true, Nat.lt_add_of_pos_right hwidth,
        if_true] at hat
      omega
    · intro hfits
      refine ⟨?_, ?_⟩
      · intro t
        unfold within
        rw [List.countP_cons]
        have hlog := hlimit.admitted t
        unfold within at hlog
        by_cases hinside : now ≤ t ∧ t < now + width
        · have hyounger := h.within_le hinside.1
          unfold within at hyounger hnow
          simp only [hinside.1, hinside.2, decide_true, Bool.and_true, if_true]
          omega
        · have hout : (true && decide (now ≤ t) && decide (t < now + width)) = false := by
            rw [Bool.true_and, ← Bool.not_eq_true, Bool.and_eq_true, decide_eq_true_eq,
              decide_eq_true_eq]
            exact hinside
          simp only [hout, Bool.false_eq_true, if_false]
          exact hlog
      · intro t earlier hsuffix
        rcases List.suffix_cons_iff.mp hsuffix with heq | hsuffix
        · simp at heq
        · exact hlimit.rejected t earlier hsuffix
  · simp only [hroom, decide_false, false_implies, iff_true]
    refine ⟨?_, ?_⟩
    · intro t
      unfold within
      rw [List.countP_cons]
      simp only [Bool.false_and, Bool.false_eq_true, if_false]
      exact hlimit.admitted t
    · intro t earlier hsuffix
      rcases List.suffix_cons_iff.mp hsuffix with heq | hsuffix
      · obtain ⟨htime, rfl⟩ := List.cons_eq_cons.mp heq
        rw [(Prod.mk.inj htime).1, hnow]
        omega
      · exact hlimit.rejected t earlier hsuffix

end Lemmas

/-! ## The windows of a list of arrivals -/

/-- The arrivals of one window: the one that opens it and the ones after it. -/
structure Batch where
  opened : Nat
  later : List Nat
deriving DecidableEq, Repr

def Batch.arrivals (b : Batch) : List Nat := b.opened :: b.later

/-- The arrivals that a limit admits. -/
def Batch.admitted (limit : Nat) (b : Batch) : List Nat := b.arrivals.take limit

/-- An arrival opens a window if it comes the width after the last one was
opened, and belongs to that one otherwise. -/
def enter (width now : Nat) : List Batch → List Batch
  | [] => [⟨now, []⟩]
  | b :: rest =>
      if width ≤ now - b.opened then ⟨now, []⟩ :: b :: rest
      else { b with later := b.later ++ [now] } :: rest

/-- Arrivals, latest first, by window, latest first. -/
def batches (width : Nat) (arrivals : List Nat) : List Batch := arrivals.foldr (enter width) []

/-- The limit counts the last `limit` admissions, so one in place `place` of its
window displaces the one of the window before that is `limit` places back. It
comes at least the width after that one. -/
def Displaces (width limit : Nat) (earlier : List Nat) (place now : Nat) : Prop :=
  limit ≤ earlier.length + place →
    ∀ u ∈ earlier[earlier.length + place - limit]?, u + width ≤ now

instance (width limit : Nat) (earlier : List Nat) (place now : Nat) :
    Decidable (Displaces width limit earlier place now) :=
  inferInstanceAs (Decidable (_ → _))

/-- Every admission of a window keeps the distance from the window before. -/
def Keeps (width limit : Nat) (later earlier : List Nat) : Prop :=
  ∀ place now : Nat, later[place]? = some now → Displaces width limit earlier place now

instance (width limit : Nat) (later earlier : List Nat) :
    Decidable (Keeps width limit later earlier) :=
  decidable_of_iff (∀ place < later.length, ∀ now ∈ later[place]?,
      Displaces width limit earlier place now)
    ⟨fun h place now hnow => h place (List.getElem?_eq_some_iff.mp hnow).1 now hnow,
      fun h place _ now hnow => h place now hnow⟩

def Apart (width limit : Nat) (windows : List Batch) : Prop :=
  windows.IsChain fun later earlier =>
    Keeps width limit (later.admitted limit) (earlier.admitted limit)

/-- Arrivals, latest first, whose admissions come at least the width after the
ones they displace. -/
def Spaced (width limit : Nat) (arrivals : List Nat) : Prop :=
  Apart width limit (batches width arrivals)

instance (width limit : Nat) (arrivals : List Nat) : Decidable (Spaced width limit arrivals) :=
  inferInstanceAs (Decidable (List.IsChain _ _))

section Batches

variable {width limit clock now c : Nat} {entry : Option Window} {log : Log}
  {windows : List Batch}

/-- In a list where `p` stays true, it is true in fewer places than there are
behind place `i` exactly if it is not true there. -/
theorem countP_add_lt_length {p : Nat → Bool} {l : List Nat}
    (hmono : l.Pairwise fun a b => p a = true → p b = true) {i u : Nat} (hu : l[i]? = some u) :
    l.countP p + i < l.length ↔ p u = false := by
  induction l generalizing i with
  | nil => simp at hu
  | cons a l ih =>
      obtain ⟨hhead, htail⟩ := List.pairwise_cons.mp hmono
      have hle := List.countP_le_length (p := p) (l := l)
      cases hp : p a with
      | true =>
          have hall : l.countP p = l.length := List.countP_eq_length.mpr fun b hb => hhead b hb hp
          rw [List.countP_cons_of_pos hp, hall, List.length_cons]
          refine iff_of_false (by omega) ?_
          rcases List.mem_cons.mp (List.mem_of_getElem? hu) with rfl | hmem
          · simp [hp]
          · simp [hhead u hmem hp]
      | false =>
          rw [List.countP_cons_of_neg (by simp [hp]), List.length_cons]
          cases i with
          | zero =>
              obtain rfl : a = u := by simpa using hu
              exact iff_of_true (by omega) hp
          | succ i =>
              have hrest := ih htail (i := i) (by simpa using hu)
              rw [← hrest]
              omega

/-- The young ones of an earlier window leave room for an arrival exactly if it
comes the width after the one it displaces. -/
theorem displaces_iff {earlier : List Nat} (hsorted : earlier.Pairwise (· ≤ ·)) {place : Nat}
    (hplace : place < limit) :
    Displaces width limit earlier place now ↔
      earlier.countP (fun x => decide (now < x + width)) + place < limit := by
  have hmono : earlier.Pairwise fun a b =>
      decide (now < a + width) = true → decide (now < b + width) = true := by
    refine hsorted.imp fun hle => ?_
    simp only [decide_eq_true_eq]
    omega
  have hle := List.countP_le_length (p := fun x => decide (now < x + width)) (l := earlier)
  rcases Nat.lt_or_ge (earlier.length + place) limit with hroom | hfull
  · exact iff_of_true (fun hfull => absurd hroom (Nat.not_lt.mpr hfull)) (by omega)
  · have hback : earlier.length + place - limit < earlier.length := by omega
    have hlt := countP_add_lt_length hmono (List.getElem?_eq_getElem hback)
    rw [decide_eq_false_iff_not] at hlt
    constructor
    · intro hspaced
      have := hspaced hfull _ (List.getElem?_eq_getElem hback)
      have := hlt.mpr (by omega)
      omega
    · intro hcount _ u hu
      obtain ⟨_, rfl⟩ := List.getElem?_eq_some_iff.mp hu
      have := hlt.mp (by omega)
      omega

/-- The arrivals of a window are in order, before its end and not yet to come. -/
structure Batch.Regular (width clock : Nat) (b : Batch) : Prop where
  sorted : b.arrivals.Pairwise (· ≤ ·)
  inside : ∀ x ∈ b.arrivals, b.opened ≤ x ∧ x < b.opened + width
  past : ∀ x ∈ b.arrivals, x ≤ clock

theorem Batch.Regular.opens (hwidth : 0 < width) (now : Nat) : Regular width now ⟨now, []⟩ where
  sorted := List.pairwise_singleton _ _
  inside x hx := by
    obtain rfl := List.mem_singleton.mp hx
    exact ⟨Nat.le_refl x, Nat.lt_add_of_pos_right hwidth⟩
  past x hx := (List.mem_singleton.mp hx).le

theorem Batch.Regular.joins {b : Batch} (h : b.Regular width now) (hlt : now < b.opened + width) :
    Regular width now { b with later := b.later ++ [now] } := by
  have harrivals : ({ b with later := b.later ++ [now] } : Batch).arrivals = b.arrivals ++ [now] :=
    rfl
  have hopened := (h.past b.opened List.mem_cons_self)
  refine ⟨?_, fun x hx => ?_, fun x hx => ?_⟩
  · rw [harrivals]
    refine List.pairwise_append.mpr ⟨h.sorted, List.pairwise_singleton _ _, fun x hx y hy => ?_⟩
    obtain rfl := List.mem_singleton.mp hy
    exact h.past x hx
  · rcases List.mem_append.mp (harrivals ▸ hx) with hx | hx
    · exact h.inside x hx
    · obtain rfl := List.mem_singleton.mp hx
      exact ⟨hopened, hlt⟩
  · rcases List.mem_append.mp (harrivals ▸ hx) with hx | hx
    · exact h.past x hx
    · exact (List.mem_singleton.mp hx).le

/-- What the windows of a log say of it and of the counter. -/
structure Batched (width limit clock : Nat) (entry : Option Window) (log : Log)
    (windows : List Batch) : Prop where
  window : entry = windows.head?.map fun b => ⟨b.opened, (b.admitted limit).length⟩
  counted : ∀ p : Nat → Bool,
    (log.countP fun a => a.2 && p a.1) = (windows.flatMap (·.admitted limit)).countP p
  regular : ∀ b ∈ windows, b.Regular width clock
  apart : windows.IsChain fun later earlier => earlier.opened + width ≤ later.opened

theorem Batched.init (width limit clock : Nat) : Batched width limit clock none [] [] where
  window := rfl
  counted _ := rfl
  regular _ h := absurd h List.not_mem_nil
  apart := List.IsChain.nil

theorem Batched.wait (h : Batched width limit clock entry log windows) (hle : clock ≤ now) :
    Batched width limit now entry log windows where
  window := h.window
  counted := h.counted
  regular b hb :=
    ⟨(h.regular b hb).sorted, (h.regular b hb).inside, fun x hx => ((h.regular b hb).past x hx).trans hle⟩
  apart := h.apart

theorem Batch.admitted_append (b : Batch) (now : Nat) :
    ({ b with later := b.later ++ [now] } : Batch).admitted limit =
      if (b.admitted limit).length < limit then b.admitted limit ++ [now]
      else b.admitted limit := by
  unfold admitted arrivals
  rw [← List.cons_append, List.take_append, List.length_take]
  by_cases hroom : min limit (b.opened :: b.later).length < limit
  · have hlt : (b.opened :: b.later).length < limit := by omega
    rw [if_pos hroom]
    congr 1
    exact List.take_of_length_le (by simp only [List.length_singleton]; omega)
  · have hge : limit ≤ (b.opened :: b.later).length := by omega
    rw [if_neg hroom, Nat.sub_eq_zero_of_le hge, List.take_zero, List.append_nil]

theorem Batch.admitted_opens (limit now : Nat) :
    (⟨now, []⟩ : Batch).admitted limit = if 0 < limit then [now] else [] := by
  unfold admitted arrivals
  cases limit with
  | zero => rfl
  | succ limit => exact List.take_of_length_le (Nat.succ_le_succ (Nat.zero_le limit))

/-- An arrival and the counter agree on whether the last window is over. -/
theorem Batched.enter_cases (h : Batched width limit now entry log windows) :
    (enter width now windows = ⟨now, []⟩ :: windows ∧ current width now entry = ⟨now, 0⟩ ∧
      ∀ b ∈ windows.head?, b.opened + width ≤ now) ∨
    ∃ (b : Batch) (rest : List Batch), windows = b :: rest ∧ now < b.opened + width ∧
      enter width now windows = { b with later := b.later ++ [now] } :: rest ∧
      current width now entry = ⟨b.opened, (b.admitted limit).length⟩ := by
  cases windows with
  | nil =>
      rw [h.window]
      exact .inl ⟨rfl, rfl, fun b hb => absurd hb (by simp)⟩
  | cons b rest =>
      have hpast := (h.regular b List.mem_cons_self).past b.opened List.mem_cons_self
      rw [h.window]
      by_cases hover : width ≤ now - b.opened
      · refine .inl ⟨if_pos hover, if_pos hover, fun b' hb' => ?_⟩
        obtain rfl : b = b' := by simpa using hb'
        omega
      · exact .inr ⟨b, rest, rfl, by omega, if_neg hover, if_neg hover⟩

/-- The check and the increment. -/
theorem allow_cases (width limit now : Nat) (entry : Option Window) :
    limit ≤ (current width now entry).count ∧
      allow width limit now entry = (false, current width now entry) ∨
    (current width now entry).count < limit ∧
      allow width limit now entry = (true,
        { current width now entry with count := (current width now entry).count + 1 }) := by
  unfold allow
  rcases Nat.lt_or_ge (current width now entry).count limit with hroom | hfull
  · exact .inr ⟨hroom, if_pos hroom⟩
  · exact .inl ⟨hfull, if_neg (Nat.not_lt.mpr hfull)⟩

theorem Batched.allow (hwidth : 0 < width) (h : Batched width limit now entry log windows) :
    Batched width limit now (some (FixedWindow.allow width limit now entry).2)
      ((now, (FixedWindow.allow width limit now entry).1) :: log) (enter width now windows) := by
  have hcount := allow_cases width limit now entry
  have hcounted := h.counted
  rcases h.enter_cases with ⟨henter, hcurrent, hover⟩ | ⟨b, rest, rfl, hlt, henter, hcurrent⟩
  · -- the arrival opens a window
    rw [henter]
    rw [hcurrent] at hcount
    refine ⟨?_, fun p => ?_, ?_, List.isChain_cons.mpr ⟨hover, h.apart⟩⟩
    · rw [List.head?_cons, Option.map_some, Batch.admitted_opens]
      rcases hcount with ⟨hfull, hallow⟩ | ⟨hroom, hallow⟩
      · rw [hallow, if_neg (Nat.not_lt.mpr hfull)]
        rfl
      · rw [hallow, if_pos hroom]
        rfl
    · rw [List.countP_cons, hcounted, List.flatMap_cons, List.countP_append, Batch.admitted_opens,
        Nat.add_comm]
      rcases hcount with ⟨hfull, hallow⟩ | ⟨hroom, hallow⟩
      · rw [hallow, if_neg (Nat.not_lt.mpr hfull)]
        rfl
      · rw [hallow, if_pos hroom, List.countP_singleton, Bool.true_and]
    · rintro b (_ | ⟨_, hb⟩)
      · exact Batch.Regular.opens hwidth now
      · exact h.regular b hb
  · -- the arrival joins the last window
    rw [henter]
    rw [hcurrent] at hcount
    refine ⟨?_, fun p => ?_, ?_, ?_⟩
    · rw [List.head?_cons, Option.map_some, b.admitted_append]
      rcases hcount with ⟨hfull, hallow⟩ | ⟨hroom, hallow⟩
      · rw [hallow, if_neg (Nat.not_lt.mpr hfull)]
      · rw [hallow, if_pos hroom, List.length_append]
        rfl
    · rw [List.countP_cons, hcounted, List.flatMap_cons, List.flatMap_cons, b.admitted_append]
      rcases hcount with ⟨hfull, hallow⟩ | ⟨hroom, hallow⟩
      · rw [hallow, if_neg (Nat.not_lt.mpr hfull)]
        rfl
      · rw [hallow, if_pos hroom]
        simp only [List.countP_append, List.countP_singleton, Bool.true_and]
        omega
    · rintro b' (_ | ⟨_, hb⟩)
      · exact (h.regular b List.mem_cons_self).joins hlt
      · exact h.regular b' (List.mem_cons_of_mem b hb)
    · exact List.isChain_cons.mpr (List.isChain_cons.mp h.apart)

/-! ### Room for an arrival -/

/-- The admissions of the last of some windows. -/
def lastAdmitted (limit : Nat) (windows : List Batch) : List Nat :=
  (windows.head?.map (·.admitted limit)).getD []

/-- Windows that end before `start` hold arrivals before `start` only. -/
theorem lt_of_mem_admitted {start : Nat} (hregular : ∀ b ∈ windows, b.Regular width clock)
    (hapart : windows.IsChain fun later earlier => earlier.opened + width ≤ later.opened)
    (hstart : ∀ b ∈ windows.head?, b.opened + width ≤ start) :
    ∀ x ∈ windows.flatMap (·.admitted limit), x < start := by
  induction windows generalizing start with
  | nil => exact fun x hx => absurd hx List.not_mem_nil
  | cons b rest ih =>
      intro x hx
      obtain ⟨hnext, hrest⟩ := List.isChain_cons.mp hapart
      have hend := hstart b rfl
      rcases List.mem_append.mp hx with hx | hx
      · have := (hregular b List.mem_cons_self).inside x (List.mem_of_mem_take hx)
        omega
      · have := ih (fun b' hb' => hregular b' (List.mem_cons_of_mem b hb')) hrest hnext x hx
        omega

/-- Of the windows that are over only the last one can still be young. -/
theorem countP_young {start : Nat} (hregular : ∀ b ∈ windows, b.Regular width clock)
    (hapart : windows.IsChain fun later earlier => earlier.opened + width ≤ later.opened)
    (hstart : ∀ b ∈ windows.head?, b.opened + width ≤ start) (hnow : start ≤ now) :
    ((windows.flatMap (·.admitted limit)).countP fun x => decide (x < start) &&
        decide (now < x + width)) =
      (lastAdmitted limit windows).countP fun x => decide (now < x + width) := by
  have hlt : ∀ x ∈ windows.flatMap (·.admitted limit), x < start :=
    lt_of_mem_admitted hregular hapart hstart
  cases windows with
  | nil => rfl
  | cons b rest =>
      obtain ⟨hnext, hrest⟩ := List.isChain_cons.mp hapart
      have hend := hstart b rfl
      have hold : ((rest.flatMap (·.admitted limit)).countP fun x => decide (x < start) &&
          decide (now < x + width)) = 0 := by
        refine List.countP_eq_zero.mpr fun x hx => ?_
        have := lt_of_mem_admitted (fun b' hb' => hregular b' (List.mem_cons_of_mem b hb')) hrest
          hnext x hx
        simp only [Bool.and_eq_true, decide_eq_true_eq]
        omega
      rw [List.flatMap_cons, List.countP_append, hold, Nat.add_zero]
      refine List.countP_congr fun x hx => ?_
      have := hlt x (List.mem_append_left _ hx)
      simp [this]

theorem keeps_append {later earlier : List Nat} :
    Keeps width limit (later ++ [now]) earlier ↔
      Keeps width limit later earlier ∧ Displaces width limit earlier later.length now := by
  constructor
  · intro h
    refine ⟨fun place v hv => h place v ?_, h later.length now List.getElem?_concat_length⟩
    obtain ⟨hplace, rfl⟩ := List.getElem?_eq_some_iff.mp hv
    rw [List.getElem?_append_left hplace, List.getElem?_eq_getElem hplace]
  · rintro ⟨hlater, hlast⟩ place v hv
    rcases Nat.lt_trichotomy place later.length with hlt | rfl | hgt
    · exact hlater place v (by rwa [List.getElem?_append_left hlt] at hv)
    · rw [List.getElem?_concat_length] at hv
      obtain rfl := Option.some.inj hv
      exact hlast
    · rw [List.getElem?_append_right hgt.le, List.getElem?_eq_none (by simp; omega)] at hv
      exact absurd hv (by simp)

theorem apart_cons {b : Batch} {rest : List Batch} :
    Apart width limit (b :: rest) ↔
      Keeps width limit (b.admitted limit) (lastAdmitted limit rest) ∧ Apart width limit rest := by
  unfold Apart
  rw [List.isChain_cons]
  refine and_congr_left fun _ => ?_
  cases rest with
  | nil =>
      refine iff_of_true (fun b hb => absurd hb (by simp)) fun place v _ _ u hu => ?_
      exact absurd hu (by simp [lastAdmitted])
  | cons e rest =>
      constructor
      · exact fun h => h e rfl
      · intro h e' he'
        obtain rfl : e = e' := by simpa using he'
        exact h

/-- What fits, when the young ones are those of a last window. -/
theorem fits_iff {earlier : List Nat} (hsorted : earlier.Pairwise (· ≤ ·))
    (hcarried : carried width now entry log =
      earlier.countP fun x => decide (now < x + width)) :
    Fits width limit now entry log ↔ ((current width now entry).count < limit →
      Displaces width limit earlier (current width now entry).count now) := by
  unfold Fits
  refine forall_congr' fun hroom => ?_
  rw [hcarried, displaces_iff hsorted hroom]

theorem lastAdmitted_sorted (h : ∀ b ∈ windows, b.Regular width clock) :
    (lastAdmitted limit windows).Pairwise (· ≤ ·) := by
  cases windows with
  | nil => exact List.Pairwise.nil
  | cons b rest => exact (h b List.mem_cons_self).sorted.take

/-- An arrival keeps the distances exactly if it fits. -/
theorem Batched.apart_enter (h : Batched width limit now entry log windows) :
    Apart width limit (enter width now windows) ↔
      Apart width limit windows ∧ Fits width limit now entry log := by
  have hcounted := h.counted fun x => decide (x < (current width now entry).start) &&
    decide (now < x + width)
  simp only [← Bool.and_assoc] at hcounted
  have hcarried : carried width now entry log = _ := hcounted
  rcases h.enter_cases with ⟨henter, hcurrent, hover⟩ | ⟨b, rest, rfl, hlt, henter, hcurrent⟩
  · -- a new window is measured against the last one
    rw [hcurrent, countP_young h.regular h.apart hover (Nat.le_refl now)] at hcarried
    rw [henter, fits_iff (lastAdmitted_sorted h.regular) hcarried, hcurrent, apart_cons, and_comm]
    refine and_congr_right fun _ => ?_
    rw [Batch.admitted_opens]
    by_cases hpos : 0 < limit
    · rw [if_pos hpos, ← List.nil_append [now], keeps_append]
      exact ⟨fun hkeeps _ => hkeeps.2, fun hroom => ⟨fun _ _ hv => absurd hv (by simp), hroom hpos⟩⟩
    · rw [if_neg hpos]
      exact iff_of_true (fun _ _ hv => absurd hv (by simp)) fun hroom => absurd hroom hpos
  · -- the window goes on: it counts its own arrivals, so only the one before it is carried
    obtain ⟨hnext, hrest⟩ := List.isChain_cons.mp h.apart
    have hbefore : ∀ b' ∈ rest, b'.Regular width now :=
      fun b' hb' => h.regular b' (List.mem_cons_of_mem b hb')
    have hhead := h.regular b List.mem_cons_self
    have hown : ((b.admitted limit).countP fun x => decide (x < b.opened) &&
        decide (now < x + width)) = 0 := by
      refine List.countP_eq_zero.mpr fun x hx => ?_
      have := hhead.inside x (List.mem_of_mem_take hx)
      simp only [Bool.and_eq_true, decide_eq_true_eq]
      omega
    rw [hcurrent] at hcarried
    rw [List.flatMap_cons, List.countP_append, hown, Nat.zero_add,
      countP_young hbefore hrest hnext (hhead.past b.opened List.mem_cons_self)] at hcarried
    rw [henter, fits_iff (lastAdmitted_sorted hbefore) hcarried, hcurrent, apart_cons, apart_cons,
      b.admitted_append, and_right_comm]
    refine and_congr_left fun _ => ?_
    by_cases hroom : (b.admitted limit).length < limit
    · rw [if_pos hroom, keeps_append]
      exact and_congr_right fun _ => ⟨fun hlast _ => hlast, fun hlast => hlast hroom⟩
    · rw [if_neg hroom]
      exact (and_iff_left fun hcontra => absurd hcontra hroom).symm

/-- Without the last arrival the others still keep their distances. -/
theorem Apart.of_enter (h : Apart width limit (enter width now windows)) :
    Apart width limit windows := by
  cases windows with
  | nil => exact List.IsChain.nil
  | cons b rest =>
      simp only [enter] at h
      split_ifs at h with hover
      · exact (apart_cons.mp h).2
      · obtain ⟨hkeeps, hrest⟩ := apart_cons.mp h
        refine apart_cons.mpr ⟨?_, hrest⟩
        rw [b.admitted_append] at hkeeps
        split_ifs at hkeeps with hroom
        · exact (keeps_append.mp hkeeps).1
        · exact hkeeps

end Batches

/-! ## Limiters -/

/-- A limiter as one of its keys sees it: an arrival that concerns the key is
counted by its fixed window, any other leaves the window alone. -/
structure Limiter (State Arrival : Type) where
  width : Nat
  limit : Nat
  init : State
  entry : State → Option Window
  concerns : Nat → Arrival → State → Bool
  arrive : Nat → Arrival → State → State × Option Bool
  positive : 0 < width
  fresh : entry init = none
  counts : ∀ (now : Nat) (arrival : Arrival) (s : State), concerns now arrival s = true →
    (arrive now arrival s).2 = some (allow width limit now (entry s)).1 ∧
    entry (arrive now arrival s).1 = some (allow width limit now (entry s)).2
  ignores : ∀ (now : Nat) (arrival : Arrival) (s : State), concerns now arrival s = false →
    (arrive now arrival s).2 = none ∧ entry (arrive now arrival s).1 = entry s

/-- The clock, the limiter and what became of the arrivals of the key. -/
structure History (State : Type) where
  clock : Nat
  state : State
  log : Log

/-- An arrival some time after the one before it. -/
structure Timed (Arrival : Type) where
  elapsed : Nat
  arrival : Arrival

namespace Limiter

variable {State Arrival : Type} (m : Limiter State Arrival)

def arrivals : TSys (History State) (Timed Arrival) where
  init := ⟨0, m.init, []⟩
  step s a :=
    let now := s.clock + a.elapsed
    let (state, outcome) := m.arrive now a.arrival s.state
    ⟨now, state, match outcome with
      | none => s.log
      | some admitted => (now, admitted) :: s.log⟩

/-- An arrival of the key that its counter has room for fits the sliding window. -/
def Roomy (s : History State) (a : Timed Arrival) : Prop :=
  m.concerns (s.clock + a.elapsed) a.arrival s.state = true →
    Fits m.width m.limit (s.clock + a.elapsed) (m.entry s.state) s.log

def Tracked (s : History State) : Prop :=
  Tracks m.width m.limit s.clock (m.entry s.state) s.log

theorem tracked_inductive : m.arrivals.Inductive m.Tracked where
  init := by
    show Tracks m.width m.limit 0 (m.entry m.init) []
    rw [m.fresh]
    exact Tracks.init m.width m.limit 0
  step s a h := by
    have hnow : Tracks m.width m.limit (s.clock + a.elapsed) (m.entry s.state) s.log :=
      Tracks.wait h (Nat.le_add_right s.clock a.elapsed)
    unfold Tracked
    dsimp only [arrivals]
    cases hconcerns : m.concerns (s.clock + a.elapsed) a.arrival s.state with
    | true =>
        obtain ⟨houtcome, hentry⟩ := m.counts _ _ _ hconcerns
        rw [houtcome, hentry]
        exact hnow.allow m.positive
    | false =>
        obtain ⟨houtcome, hentry⟩ := m.ignores _ _ _ hconcerns
        rw [houtcome, hentry]
        exact hnow

theorem slidingLimit_step (s : History State) (a : Timed Arrival) (h : m.Tracked s)
    (hlimit : SlidingLimit m.width m.limit s.log) :
    SlidingLimit m.width m.limit (m.arrivals.step s a).log ↔ m.Roomy s a := by
  have hnow : Tracks m.width m.limit (s.clock + a.elapsed) (m.entry s.state) s.log :=
    Tracks.wait h (Nat.le_add_right s.clock a.elapsed)
  unfold Roomy
  dsimp only [arrivals]
  cases hconcerns : m.concerns (s.clock + a.elapsed) a.arrival s.state with
  | true =>
      obtain ⟨houtcome, _⟩ := m.counts _ _ _ hconcerns
      rw [houtcome]
      exact (hnow.slidingLimit_allow m.positive hlimit).trans
        ⟨fun hfits _ => hfits, fun hfits => hfits rfl⟩
  | false =>
      obtain ⟨houtcome, _⟩ := m.ignores _ _ _ hconcerns
      rw [houtcome]
      exact ⟨fun _ hcontra => absurd hcontra Bool.false_ne_true, fun _ => hlimit⟩

/-- The sliding limit holds in every state of a run. -/
def SlidesAlong (actions : List (Timed Arrival)) : Prop :=
  ∀ taken : List (Timed Arrival), taken <+: actions →
    SlidingLimit m.width m.limit (m.arrivals.run m.arrivals.init taken).log

/-- The sliding limit holds along a run exactly if every arrival fits. -/
theorem slidesAlong_iff (actions : List (Timed Arrival)) :
    m.SlidesAlong actions ↔ m.arrivals.Along m.Roomy m.arrivals.init actions :=
  m.tracked_inductive.throughout_iff (SlidingLimit.nil m.width m.limit) m.slidingLimit_step actions

/-! ### In terms of the arrival times -/

/-- When the arrivals of the key came, latest first. -/
def arrivedAt (actions : List (Timed Arrival)) : List Nat :=
  (m.arrivals.run m.arrivals.init actions).log.map Prod.fst

def Batched (s : History State) : Prop :=
  FixedWindow.Batched m.width m.limit s.clock (m.entry s.state) s.log
    (batches m.width (s.log.map Prod.fst))

theorem batched_inductive : m.arrivals.Inductive m.Batched where
  init := by
    show FixedWindow.Batched m.width m.limit 0 (m.entry m.init) [] []
    rw [m.fresh]
    exact FixedWindow.Batched.init m.width m.limit 0
  step s a h := by
    have hnow := FixedWindow.Batched.wait h (Nat.le_add_right s.clock a.elapsed)
    unfold Batched
    dsimp only [arrivals]
    cases hconcerns : m.concerns (s.clock + a.elapsed) a.arrival s.state with
    | true =>
        obtain ⟨houtcome, hentry⟩ := m.counts _ _ _ hconcerns
        rw [houtcome, hentry]
        exact hnow.allow m.positive
    | false =>
        obtain ⟨houtcome, hentry⟩ := m.ignores _ _ _ hconcerns
        rw [houtcome, hentry]
        exact hnow

theorem spaced_step (s : History State) (a : Timed Arrival) (h : m.Batched s)
    (hspaced : Spaced m.width m.limit (s.log.map Prod.fst)) :
    Spaced m.width m.limit ((m.arrivals.step s a).log.map Prod.fst) ↔ m.Roomy s a := by
  have hnow := FixedWindow.Batched.wait h (Nat.le_add_right s.clock a.elapsed)
  unfold Roomy
  dsimp only [arrivals]
  cases hconcerns : m.concerns (s.clock + a.elapsed) a.arrival s.state with
  | true =>
      obtain ⟨houtcome, _⟩ := m.counts _ _ _ hconcerns
      rw [houtcome]
      exact hnow.apart_enter.trans
        ⟨fun h _ => h.2, fun hfits => ⟨hspaced, hfits rfl⟩⟩
  | false =>
      obtain ⟨houtcome, _⟩ := m.ignores _ _ _ hconcerns
      rw [houtcome]
      exact ⟨fun _ hcontra => absurd hcontra Bool.false_ne_true, fun _ => hspaced⟩

/-- An earlier part of a run has the distances of the whole run. -/
theorem spaced_of_prefix {taken actions : List (Timed Arrival)} (htaken : taken <+: actions)
    (h : Spaced m.width m.limit (m.arrivedAt actions)) :
    Spaced m.width m.limit (m.arrivedAt taken) := by
  obtain ⟨rest, rfl⟩ := htaken
  induction rest using List.reverseRecOn with
  | nil => rwa [List.append_nil] at h
  | append_singleton rest a ih =>
      apply ih
      unfold arrivedAt at h ⊢
      rw [← List.append_assoc, TSys.run_append] at h
      generalize m.arrivals.run m.arrivals.init (taken ++ rest) = s at h ⊢
      dsimp only [TSys.run_cons, TSys.run_nil, arrivals] at h
      cases hconcerns : m.concerns (s.clock + a.elapsed) a.arrival s.state with
      | true =>
          rw [(m.counts _ _ _ hconcerns).1] at h
          exact Apart.of_enter h
      | false =>
          rw [(m.ignores _ _ _ hconcerns).1] at h
          exact h

/-- The sliding limit holds along a run exactly if each admission comes the
width after the one that it displaces. -/
theorem slidesAlong_iff_spaced (actions : List (Timed Arrival)) :
    m.SlidesAlong actions ↔ Spaced m.width m.limit (m.arrivedAt actions) := by
  have hspaced : (∀ taken : List (Timed Arrival), taken <+: actions →
      Spaced m.width m.limit (m.arrivedAt taken)) ↔
        m.arrivals.Along m.Roomy m.arrivals.init actions :=
    m.batched_inductive.throughout_iff List.IsChain.nil m.spaced_step actions
  rw [m.slidesAlong_iff, ← hspaced]
  exact ⟨fun h => h actions List.prefix_rfl, fun h _ hprefix => m.spaced_of_prefix hprefix h⟩

end Limiter

end Base.FixedWindow
