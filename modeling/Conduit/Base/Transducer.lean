import Mathlib.Data.List.Basic

/-!
# Pull-driven transducers

A transducer reads one element at a time, answers each with a list of
elements and may stop reading; at the end of its input it answers once more.
What it has answered so far depends only on what it has read, so two
transducers in a row are one: `comp` answers as the second does to the answers
of the first.
-/

namespace Base

/-- A transducer with states `σ`. An answer without a next state is the last. -/
structure Transducer (σ α β : Type) where
  start : σ
  read : σ → α → List β × Option σ
  finish : σ → List β

namespace Transducer

variable {σ τ α β γ : Type}

section Run

variable (f : Transducer σ α β)

/-- The answers to a list, and the state after it if the whole list was read. -/
def feed : σ → List α → List β × Option σ
  | s, [] => ([], some s)
  | s, a :: as =>
      match f.read s a with
      | (out, none) => (out, none)
      | (out, some s) => (out ++ (feed s as).1, (feed s as).2)

/-- Let the input end. -/
def flush : List β × Option σ → List β
  | (out, none) => out
  | (out, some s) => out ++ f.finish s

/-- The answers to a list and to its end. -/
def runFrom (s : σ) (as : List α) : List β := f.flush (f.feed s as)

def run (as : List α) : List β := f.runFrom f.start as

/-- The part of the input that is read. -/
def pulled : σ → List α → List α
  | _, [] => []
  | s, a :: as =>
      a :: match (f.read s a).2 with
        | none => []
        | some s => pulled s as

@[simp] theorem runFrom_nil (s : σ) : f.runFrom s [] = f.finish s := rfl

variable {f}

theorem runFrom_cons_stop {s : σ} {a : α} {out : List β} (h : f.read s a = (out, none))
    (as : List α) : f.runFrom s (a :: as) = out := by
  unfold runFrom feed
  rw [h]
  rfl

theorem runFrom_cons_next {s next : σ} {a : α} {out : List β}
    (h : f.read s a = (out, some next)) (as : List α) :
    f.runFrom s (a :: as) = out ++ f.runFrom next as := by
  unfold runFrom
  rw [feed, h]
  dsimp only
  rcases f.feed next as with ⟨rest, _ | last⟩
  · rfl
  · exact List.append_assoc _ _ _

theorem runFrom_append_stop {s : σ} {as : List α} {out : List β}
    (h : f.feed s as = (out, none)) (later : List α) : f.runFrom s (as ++ later) = out := by
  induction as generalizing s out with
  | nil => exact absurd h (by simp [feed])
  | cons a as ih =>
      unfold feed at h
      rcases hread : f.read s a with ⟨first, _ | next⟩
      · rw [hread] at h
        obtain rfl := congrArg Prod.fst h
        rw [List.cons_append, runFrom_cons_stop hread]
      · rw [hread] at h
        dsimp only at h
        obtain ⟨rfl, hnone⟩ := Prod.mk.inj h
        rw [List.cons_append, runFrom_cons_next hread, ih (Prod.ext rfl hnone)]

theorem runFrom_append_next {s last : σ} {as : List α} {out : List β}
    (h : f.feed s as = (out, some last)) (later : List α) :
    f.runFrom s (as ++ later) = out ++ f.runFrom last later := by
  induction as generalizing s out with
  | nil =>
      unfold feed at h
      obtain ⟨rfl, hlast⟩ := Prod.mk.inj h
      obtain rfl := Option.some.inj hlast
      rfl
  | cons a as ih =>
      unfold feed at h
      rcases hread : f.read s a with ⟨first, _ | next⟩
      · rw [hread] at h
        exact absurd (congrArg Prod.snd h) (by simp)
      · rw [hread] at h
        dsimp only at h
        obtain ⟨rfl, hsome⟩ := Prod.mk.inj h
        rw [List.cons_append, runFrom_cons_next hread, ih (Prod.ext rfl hsome), List.append_assoc]

variable (f)

theorem pulled_prefix (as : List α) : ∀ s : σ, f.pulled s as <+: as := by
  induction as with
  | nil => exact fun _ => List.prefix_rfl
  | cons a as ih =>
      intro s
      unfold pulled
      cases (f.read s a).2 with
      | none => exact List.cons_prefix_cons.mpr ⟨rfl, List.nil_prefix⟩
      | some next => exact List.cons_prefix_cons.mpr ⟨rfl, ih next⟩

end Run

/-! ## Composition -/

/-- What `g` has answered after one answer of a transducer before it: if that
one stopped, `g` sees the end of its input. -/
def after (g : Transducer τ β γ) : List γ × Option τ → Option σ → List γ × Option (σ × τ)
  | (out, none), _ => (out, none)
  | (out, some t), none => (out ++ g.finish t, none)
  | (out, some t), some s => (out, some (s, t))

/-- `g` reads what `f` answers. When one of them stops, both do. -/
def comp (f : Transducer σ α β) (g : Transducer τ β γ) : Transducer (σ × τ) α γ where
  start := (f.start, g.start)
  read s a := g.after (g.feed s.2 (f.read s.1 a).1) (f.read s.1 a).2
  finish s := g.runFrom s.2 (f.finish s.1)

theorem runFrom_comp (f : Transducer σ α β) (g : Transducer τ β γ) (as : List α) :
    ∀ (s : σ) (t : τ), (f.comp g).runFrom (s, t) as = g.runFrom t (f.runFrom s as) := by
  induction as with
  | nil => exact fun _ _ => rfl
  | cons a as ih =>
      intro s t
      rcases hread : f.read s a with ⟨mid, next⟩
      rcases hfeed : g.feed t mid with ⟨out, last⟩
      have hcomp : (f.comp g).read (s, t) a = g.after (out, last) next := by
        unfold comp
        dsimp only
        rw [hread]
        dsimp only
        rw [hfeed]
      cases last with
      | none =>
          rw [runFrom_cons_stop hcomp]
          cases next with
          | none =>
              rw [runFrom_cons_stop hread]
              have hmid := runFrom_append_stop hfeed []
              rw [List.append_nil] at hmid
              exact hmid.symm
          | some s' =>
              rw [runFrom_cons_next hread]
              exact (runFrom_append_stop hfeed _).symm
      | some t' =>
          cases next with
          | none =>
              rw [runFrom_cons_stop hcomp, runFrom_cons_stop hread]
              have hmid := runFrom_append_next hfeed []
              rw [List.append_nil] at hmid
              exact hmid.symm
          | some s' =>
              rw [runFrom_cons_next hcomp, runFrom_cons_next hread, ih]
              exact (runFrom_append_next hfeed _).symm

theorem run_comp (f : Transducer σ α β) (g : Transducer τ β γ) (as : List α) :
    (f.comp g).run as = g.run (f.run as) := runFrom_comp f g as f.start g.start

/-! ## Changed elements -/

/-- The same with its answers changed. -/
def map (g : β → γ) (f : Transducer σ α β) : Transducer σ α γ where
  start := f.start
  read s a := ((f.read s a).1.map g, (f.read s a).2)
  finish s := (f.finish s).map g

/-- The same for an input that is changed before it is read. -/
def premap (g : γ → α) (f : Transducer σ α β) : Transducer σ γ β where
  start := f.start
  read s c := f.read s (g c)
  finish := f.finish

theorem run_map (g : β → γ) (f : Transducer σ α β) (as : List α) :
    (f.map g).run as = (f.run as).map g := by
  have hfrom : ∀ s : σ, (f.map g).runFrom s as = (f.runFrom s as).map g := by
    induction as with
    | nil => exact fun _ => rfl
    | cons a as ih =>
        intro s
        rcases hread : f.read s a with ⟨out, _ | next⟩
        · rw [runFrom_cons_stop hread, runFrom_cons_stop (f := f.map g)
            (show ((f.read s a).1.map g, (f.read s a).2) = (out.map g, none) by rw [hread])]
        · rw [runFrom_cons_next hread, List.map_append, ← ih, runFrom_cons_next (f := f.map g)
            (show ((f.read s a).1.map g, (f.read s a).2) = (out.map g, some next) by rw [hread])]
  exact hfrom f.start

/-! ## Transducers that read everything -/

/-- Never stops before the end of its input. -/
def Total (f : Transducer σ α β) : Prop := ∀ (s : σ) (a : α), (f.read s a).2.isSome

namespace Total

theorem map {f : Transducer σ α β} (hf : f.Total) (g : β → γ) : (f.map g).Total := hf

theorem premap {f : Transducer σ α β} (hf : f.Total) (g : γ → α) : (f.premap g).Total :=
  fun s c => hf s (g c)

theorem feed {f : Transducer σ α β} (hf : f.Total) (as : List α) :
    ∀ s : σ, (f.feed s as).2.isSome := by
  induction as with
  | nil => exact fun _ => rfl
  | cons a as ih =>
      intro s
      unfold Transducer.feed
      rcases hread : f.read s a with ⟨out, _ | next⟩
      · exact absurd (hf s a) (by rw [hread]; simp)
      · exact ih next

theorem comp {f : Transducer σ α β} {g : Transducer τ β γ} (hf : f.Total) (hg : g.Total) :
    (f.comp g).Total := by
  intro s a
  show (g.after (g.feed s.2 (f.read s.1 a).1) (f.read s.1 a).2).2.isSome
  obtain ⟨s', hs⟩ := Option.isSome_iff_exists.mp (hf s.1 a)
  rw [hs]
  rcases hfeed : g.feed s.2 (f.read s.1 a).1 with ⟨out, _ | t'⟩
  · exact absurd (hg.feed (f.read s.1 a).1 s.2) (by rw [hfeed]; simp)
  · rfl

theorem pulled {f : Transducer σ α β} (hf : f.Total) (as : List α) :
    ∀ s : σ, f.pulled s as = as := by
  induction as with
  | nil => exact fun _ => rfl
  | cons a as ih =>
      intro s
      unfold Transducer.pulled
      obtain ⟨s', hs⟩ := Option.isSome_iff_exists.mp (hf s a)
      rw [hs]
      exact congrArg (a :: ·) (ih s')

end Total

/-! ## List functions -/

/-- Any function on lists, as a transducer that reads everything first. -/
def ofFun (f : List α → List β) : Transducer (List α) α β where
  start := []
  read s a := ([], some (s ++ [a]))
  finish := f

end Transducer

end Base
