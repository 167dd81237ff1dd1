import Conduit.Base.Transducer

/-!
# Emitters and monitors

An emitter is a step on a state that also writes a list. A monitor reads a
list and accepts or rejects it. `Simulates` says that a monitor accepts what an
emitter writes exactly where a partial step on an abstract state goes on.
`Mirrors` says that one emitter shows another in a view of its states and of
what it writes. Emitters that run one after the other may be looked at one by
one.
-/

namespace Base

/-! ## Emitters -/

/-- A step on `σ` that writes `ε`s. -/
abbrev Emitter (σ ε : Type) := σ → List ε × σ

namespace Emitter

variable {σ ε α : Type}

def skip : Emitter σ ε := fun s => ([], s)

def write (event : ε) : Emitter σ ε := fun s => ([event], s)

/-- Change the state only. -/
def update (f : σ → σ) : Emitter σ ε := fun s => ([], f s)

def seq (f g : Emitter σ ε) : Emitter σ ε := fun s =>
  ((f s).1 ++ (g (f s).2).1, (g (f s).2).2)

/-- `f` in the states with `c`. -/
def whenever (c : σ → Bool) (f : Emitter σ ε) : Emitter σ ε := fun s =>
  if c s then f s else ([], s)

def all : List (Emitter σ ε) → Emitter σ ε
  | [] => skip
  | f :: fs => f.seq (all fs)

/-- `f` for each element, from left to right. -/
def forEach (f : α → Emitter σ ε) : List α → Emitter σ ε
  | [] => skip
  | a :: as => (f a).seq (forEach f as)

@[simp] theorem forEach_nil (f : α → Emitter σ ε) (s : σ) : forEach f [] s = ([], s) := rfl

theorem forEach_cons (f : α → Emitter σ ε) (a : α) (as : List α) :
    forEach f (a :: as) = (f a).seq (forEach f as) := rfl

theorem whenever_true {c : σ → Bool} {s : σ} (h : c s = true) (f : Emitter σ ε) :
    whenever c f s = f s := if_pos h

theorem whenever_false {c : σ → Bool} {s : σ} (h : c s = false) (f : Emitter σ ε) :
    whenever c f s = ([], s) := if_neg (by rw [h]; exact Bool.false_ne_true)

theorem seq_assoc (f g h : Emitter σ ε) : (f.seq g).seq h = f.seq (g.seq h) := by
  funext s
  unfold seq
  dsimp only
  rw [List.append_assoc]

theorem forEach_append (f : α → Emitter σ ε) (as bs : List α) :
    forEach f (as ++ bs) = (forEach f as).seq (forEach f bs) := by
  induction as with
  | nil => rfl
  | cons a as ih => rw [List.cons_append, forEach_cons, forEach_cons, ih, seq_assoc]

theorem seq_skip (f : Emitter σ ε) : f.seq skip = f := by
  funext s
  unfold seq skip
  dsimp only
  rw [List.append_nil]

theorem seq_nil {f g : Emitter σ ε} {s : σ} :
    ((f.seq g) s).1 = [] ↔ (f s).1 = [] ∧ (g (f s).2).1 = [] := List.append_eq_nil_iff

/-- A first step that writes nothing. -/
theorem seq_idle {f : Emitter σ ε} {s s' : σ} (h : f s = ([], s')) (g : Emitter σ ε) :
    (f.seq g) s = g s' := by
  unfold seq
  rw [h]
  rfl

/-- The emitter of one element as a transducer. -/
def transducer (start : σ) (f : α → Emitter σ ε) : Transducer σ α ε where
  start := start
  read s a := ((f a s).1, some (f a s).2)
  finish _ := []

theorem run_transducer (start : σ) (f : α → Emitter σ ε) (as : List α) :
    (transducer start f).run as = (forEach f as start).1 := by
  have hfrom : ∀ s : σ, (transducer start f).runFrom s as = (forEach f as s).1 := by
    induction as with
    | nil => exact fun _ => rfl
    | cons a as ih =>
        intro s
        rw [Transducer.runFrom_cons_next
          (show (transducer start f).read s a = ((f a s).1, some (f a s).2) from rfl), ih]
        rfl
  exact hfrom start

/-! ## Pre- and postconditions -/

/-- From a state with `I` only `P`s are written and the state after has `J`. -/
def Emits (P : ε → Prop) (I J : σ → Prop) (f : Emitter σ ε) : Prop :=
  ∀ s : σ, I s → (∀ e ∈ (f s).1, P e) ∧ J (f s).2

namespace Emits

variable {P : ε → Prop} {I J K : σ → Prop}

theorem skip : Emits P I I (Emitter.skip : Emitter σ ε) :=
  fun _ hs => ⟨fun _ h => absurd h (by simp [Emitter.skip]), hs⟩

theorem update {f : σ → σ} (h : ∀ s, I s → J (f s)) : Emits P I J (Emitter.update f : Emitter σ ε) :=
  fun s hs => ⟨fun _ h => absurd h (by simp [Emitter.update]), h s hs⟩

theorem seq {f g : Emitter σ ε} (hf : Emits P I J f) (hg : Emits P J K g) : Emits P I K (f.seq g) := by
  intro s hs
  obtain ⟨hfirst, hmid⟩ := hf s hs
  obtain ⟨hsecond, hlast⟩ := hg (f s).2 hmid
  refine ⟨fun e he => ?_, hlast⟩
  rcases List.mem_append.mp he with h | h
  · exact hfirst e h
  · exact hsecond e h

theorem whenever {c : σ → Bool} {f : Emitter σ ε} (hf : Emits P I J f)
    (hskip : ∀ s, I s → c s = false → J s) : Emits P I J (Emitter.whenever c f) := by
  intro s hs
  cases hc : c s with
  | true =>
      rw [whenever_true hc]
      exact hf s hs
  | false =>
      rw [whenever_false hc]
      exact ⟨fun _ h => absurd h (by simp), hskip s hs hc⟩

theorem forEach {f : α → Emitter σ ε} {as : List α} (hf : ∀ a ∈ as, Emits P I I (f a)) :
    Emits P I I (Emitter.forEach f as) := by
  induction as with
  | nil => exact skip
  | cons a as ih =>
      exact (hf a List.mem_cons_self).seq (ih fun a h => hf a (List.mem_cons_of_mem _ h))

/-- A weaker condition on what is written. -/
theorem mono {Q : ε → Prop} {f : Emitter σ ε} (hf : Emits P I J f) (h : ∀ e, P e → Q e) :
    Emits Q I J f := fun s hs => ⟨fun e he => h e ((hf s hs).1 e he), (hf s hs).2⟩

/-- Where nothing is to be done. -/
theorem idle {f : Emitter σ ε} {s : σ} (hf : f s = ([], s)) (hs : I s) :
    (∀ e ∈ (f s).1, P e) ∧ I (f s).2 := by
  rw [hf]
  exact ⟨fun _ h => absurd h (by simp), hs⟩

end Emits

/-! ## Views -/

section Views

variable {σ τ ε π α β : Type} {view : σ → τ} {kind : ε → π}

/-- `g` does what `f` does, as far as it shows in a view of the state and in
the kinds of what is written. -/
def Mirrors (view : σ → τ) (kind : ε → π) (f : Emitter σ ε) (g : Emitter τ π) : Prop :=
  ∀ s : σ, (f s).1.map kind = (g (view s)).1 ∧ view (f s).2 = (g (view s)).2

namespace Mirrors

theorem skip : Mirrors view kind Emitter.skip Emitter.skip := fun _ => ⟨rfl, rfl⟩

theorem update {f : σ → σ} {g : τ → τ} (h : ∀ s, view (f s) = g (view s)) :
    Mirrors view kind (Emitter.update f) (Emitter.update g) := fun s => ⟨rfl, h s⟩

theorem seq {f f' : Emitter σ ε} {g g' : Emitter τ π} (h : Mirrors view kind f g)
    (h' : Mirrors view kind f' g') : Mirrors view kind (f.seq f') (g.seq g') := by
  intro s
  obtain ⟨hwritten, hstate⟩ := h s
  obtain ⟨hwritten', hstate'⟩ := h' (f s).2
  unfold Emitter.seq
  rw [List.map_append, hwritten, hwritten', hstate', hstate]
  exact ⟨rfl, rfl⟩

theorem whenever {c : σ → Bool} {d : τ → Bool} {f : Emitter σ ε} {g : Emitter τ π}
    (hc : ∀ s, c s = d (view s)) (h : Mirrors view kind f g) :
    Mirrors view kind (Emitter.whenever c f) (Emitter.whenever d g) := by
  intro s
  unfold Emitter.whenever
  rw [hc]
  cases d (view s) with
  | true => exact h s
  | false => exact ⟨rfl, rfl⟩

/-- A loop is mirrored by the loop over the tasks of its elements. -/
theorem forEach {f : α → Emitter σ ε} {g : β → Emitter τ π} {tasks : α → List β}
    (h : ∀ a, Mirrors view kind (f a) (Emitter.forEach g (tasks a))) (as : List α) :
    Mirrors view kind (Emitter.forEach f as) (Emitter.forEach g (as.flatMap tasks)) := by
  induction as with
  | nil => exact skip
  | cons a as ih =>
      rw [Emitter.forEach_cons, List.flatMap_cons, Emitter.forEach_append]
      exact (h a).seq ih

/-- The same with one task for each element. -/
theorem forEach_map {f : α → Emitter σ ε} {g : β → Emitter τ π} (task : α → β)
    (h : ∀ a, Mirrors view kind (f a) (g (task a))) (as : List α) :
    Mirrors view kind (Emitter.forEach f as) (Emitter.forEach g (as.map task)) := by
  rw [List.map_eq_flatMap]
  refine forEach (fun a => ?_) as
  rw [Emitter.forEach_cons, Emitter.forEach, Emitter.seq_skip]
  exact h a

end Mirrors

end Views

end Emitter

/-! ## Monitors -/

/-- A monitor with states `τ` of lists over `π`. -/
structure Monitor (τ π : Type) where
  step : τ → π → Option τ

namespace Monitor

variable {τ π : Type} (M : Monitor τ π)

/-- The state after a list, if it is accepted. -/
def run : τ → List π → Option τ
  | t, [] => some t
  | t, p :: ps => (M.step t p).bind fun t => run t ps

@[simp] theorem run_nil (t : τ) : M.run t [] = some t := rfl

theorem run_cons (t : τ) (p : π) (ps : List π) :
    M.run t (p :: ps) = (M.step t p).bind fun t => M.run t ps := rfl

@[simp] theorem run_single (t : τ) (p : π) : M.run t [p] = M.step t p := by
  rw [run_cons]
  cases M.step t p <;> rfl

theorem run_append (t : τ) (ps qs : List π) :
    M.run t (ps ++ qs) = (M.run t ps).bind fun t => M.run t qs := by
  induction ps generalizing t with
  | nil => rfl
  | cons p ps ih =>
      rw [List.cons_append, run_cons, run_cons]
      cases M.step t p with
      | none => rfl
      | some t => exact ih t

end Monitor

/-! ## Simulations -/

section Simulation

variable {σ τ υ ε π α : Type}

/-- If `g` goes on, the monitor accepts what `f` writes and the states after
are related; if `g` gives up, the monitor rejects. -/
def SimulatesAt (M : Monitor υ ε) (R : σ → τ → υ → Prop) (f : Emitter σ ε) (g : τ → Option τ)
    (s : σ) (t : τ) (u : υ) : Prop :=
  (∀ t', g t = some t' → ∃ u', M.run u (f s).1 = some u' ∧ R (f s).2 t' u') ∧
    (g t = none → M.run u (f s).1 = none)

/-- The same from all related states. -/
def Simulates (M : Monitor υ ε) (R : σ → τ → υ → Prop) (f : Emitter σ ε) (g : τ → Option τ) : Prop :=
  ∀ (s : σ) (t : τ) (u : υ), R s t u → SimulatesAt M R f g s t u

variable {M : Monitor υ ε} {R : σ → τ → υ → Prop}

theorem SimulatesAt.goesOn {f : Emitter σ ε} {g : τ → Option τ} {s s' : σ} {t t' : τ} {u u' : υ}
    {out : List ε} (happly : f s = (out, s')) (hg : g t = some t') (hrun : M.run u out = some u')
    (hrel : R s' t' u') : SimulatesAt M R f g s t u := by
  unfold SimulatesAt
  rw [happly, hg]
  refine ⟨?_, fun hnone => absurd hnone (by simp)⟩
  intro t'' ht
  obtain rfl := Option.some.inj ht
  exact ⟨u', hrun, hrel⟩

theorem SimulatesAt.givesUp {f : Emitter σ ε} {g : τ → Option τ} {s : σ} {t : τ} {u : υ}
    (hg : g t = none) (hrun : M.run u (f s).1 = none) : SimulatesAt M R f g s t u := by
  unfold SimulatesAt
  rw [hg]
  exact ⟨fun _ ht => absurd ht (by simp), fun _ => hrun⟩

theorem SimulatesAt.congr {f f' : Emitter σ ε} {g g' : τ → Option τ} {s : σ} {t : τ} {u : υ}
    (h : SimulatesAt M R f g s t u) (hf : f' s = f s) (hg : g t = g' t) :
    SimulatesAt M R f' g' s t u := by
  unfold SimulatesAt at h ⊢
  rwa [hf, ← hg]

namespace Simulates

theorem skip : Simulates M R Emitter.skip some :=
  fun _ _ _ h => SimulatesAt.goesOn rfl rfl rfl h

theorem congr {f : Emitter σ ε} {g g' : τ → Option τ} (h : Simulates M R f g)
    (heq : ∀ s t u, R s t u → g t = g' t) : Simulates M R f g' :=
  fun s t u hrel => (h s t u hrel).congr rfl (heq s t u hrel)

theorem seq {f f' : Emitter σ ε} {g g' : τ → Option τ} (hf : Simulates M R f g)
    (hf' : Simulates M R f' g') : Simulates M R (f.seq f') fun t => (g t).bind g' := by
  intro s t u h
  obtain ⟨hfok, hfbad⟩ := hf s t u h
  show (∀ t', (g t).bind g' = some t' →
      ∃ u', M.run u ((f s).1 ++ (f' (f s).2).1) = some u' ∧ R (f' (f s).2).2 t' u') ∧
    ((g t).bind g' = none → M.run u ((f s).1 ++ (f' (f s).2).1) = none)
  rw [M.run_append]
  cases hmid : g t with
  | none =>
      rw [hfbad hmid]
      exact ⟨fun _ ht => absurd ht (by simp), fun _ => rfl⟩
  | some t₁ =>
      obtain ⟨u₁, hu₁, h₁⟩ := hfok t₁ hmid
      rw [hu₁]
      exact hf' (f s).2 t₁ u₁ h₁

/-- A loop does what a second monitor accepts of the list of its tasks. -/
theorem forEach {N : Monitor τ π} {f : α → Emitter σ ε} {tasks : α → List π}
    (h : ∀ a, Simulates M R (f a) fun t => N.run t (tasks a)) (as : List α) :
    Simulates M R (Emitter.forEach f as) fun t => N.run t (as.flatMap tasks) := by
  induction as with
  | nil => exact skip
  | cons a as ih =>
      rw [Emitter.forEach_cons, List.flatMap_cons]
      exact ((h a).seq ih).congr fun _ t _ _ => (N.run_append t (tasks a) _).symm

/-- The same with one task for each element. -/
theorem forEach_map (N : Monitor τ π) {f : α → Emitter σ ε} (task : α → π)
    (h : ∀ a, Simulates M R (f a) fun t => N.step t (task a)) (as : List α) :
    Simulates M R (Emitter.forEach f as) fun t => N.run t (as.map task) := by
  rw [List.map_eq_flatMap]
  exact forEach (fun a => (h a).congr fun _ t _ _ => (N.run_single t (task a)).symm) as

/-- Two parts of a task list. -/
theorem append {N : Monitor τ π} {f f' : Emitter σ ε} {ps qs : List π}
    (hf : Simulates M R f fun t => N.run t ps) (hf' : Simulates M R f' fun t => N.run t qs) :
    Simulates M R (f.seq f') fun t => N.run t (ps ++ qs) :=
  (hf.seq hf').congr fun _ t _ _ => (N.run_append t ps qs).symm

end Simulates

end Simulation

end Base
