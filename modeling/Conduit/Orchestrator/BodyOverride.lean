import Conduit.Base.Json
import Conduit.Base.ParseInt
import Conduit.Base.Text
import Mathlib

/-!
# Paths into a body

A dot-path is its non-empty segments, each the key of an object or the index of
an array. `set_at_path` creates the objects that are missing on its way;
`delete_at_path` removes a key or an element, after which later elements move
down.

Two spellings of an index address one element, as `0` and `00` do. Paths are
therefore compared by `resolve`, what their segments address in the body. The
laws are inductions along the path: `child_replace` says what a write at one
level leaves to be read, `canSet` when a set goes through.
-/

namespace Conduit.Orchestrator.BodyOverride

open Base

/-! ## The operations -/

/-- The non-empty segments of a path. -/
def segments (path : String) : List String := (Text.splitOn '.' path).filter (· ≠ "")

def navigateOneLevel (value : Json) (seg : String) : Option Json :=
  match value with
  | .object fields => Json.field fields seg
  | .array values => (ParseInt.parseIndex seg).bind fun i => values[i]?
  | _ => none

/-- An assignment to a child: the last step of a set, and what a write through
`navigate_one_level` leaves. An index out of range assigns nothing. -/
def replaceChild (value : Json) (seg : String) (child : Json) : Json :=
  match value with
  | .object fields => .object (Json.insert seg child fields)
  | .array values =>
      match ParseInt.parseIndex seg with
      | some i => .array (values.set i child)
      | none => value
  | _ => value

def removeChild (value : Json) (key : String) : Json × Bool :=
  match value with
  | .object fields => (.object (Json.remove key fields), (Json.field fields key).isSome)
  | .array values =>
      match ParseInt.parseIndex key with
      | some i => if i < values.length then (.array (values.eraseIdx i), true) else (value, false)
      | none => (value, false)
  | _ => (value, false)

/-- The next level of a set: an object gets the key it lacks. -/
def withChild (value : Json) (seg : String) : Json :=
  match navigateOneLevel value seg, value with
  | none, .object fields => .object (Json.insert seg (.object []) fields)
  | _, _ => value

def getSegments : List String → Json → Option Json
  | [], value => some value
  | seg :: rest, value => (navigateOneLevel value seg).bind (getSegments rest)

def setSegments : List String → Json → Json → Json
  | [], _, value => value
  | [last], new, value => replaceChild value last new
  | seg :: rest, new, value =>
      match navigateOneLevel (withChild value seg) seg with
      | some child => replaceChild (withChild value seg) seg (setSegments rest new child)
      | none => withChild value seg

def deleteSegments : List String → Json → Json × Bool
  | [], value => (value, false)
  | [key], value => removeChild value key
  | seg :: rest, value =>
      match navigateOneLevel value seg with
      | some child =>
          (replaceChild value seg (deleteSegments rest child).1, (deleteSegments rest child).2)
      | none => (value, false)

def getAtPath (root : Json) (path : String) : Option Json := getSegments (segments path) root

def setAtPath (root : Json) (path : String) (value : Json) : Json :=
  setSegments (segments path) value root

def deleteAtPath (root : Json) (path : String) : Json × Bool := deleteSegments (segments path) root

/-! ## What a path addresses -/

inductive Step
  | key (name : String)
  | index (i : Nat)
deriving DecidableEq, Repr

/-- What a segment addresses in a value. -/
def stepOf (value : Json) (seg : String) : Step :=
  match value with
  | .array _ =>
      match ParseInt.parseIndex seg with
      | some i => .index i
      | none => .key seg
  | _ => .key seg

/-- The child a set would go on with. -/
def childOr (value : Json) (seg : String) : Json :=
  (navigateOneLevel value seg).getD (.object [])

/-- The steps of a path from a body; what is missing would be objects. -/
def resolve (value : Json) : List String → List Step
  | [] => []
  | seg :: rest => stepOf value seg :: resolve (childOr value seg) rest

/-- One path leads to where the other does, or below. -/
def Within (body : Json) (p q : List String) : Prop := resolve body p <+: resolve body q

/-- One of the paths is a prefix of the other. -/
def Overlaps (body : Json) (p q : List String) : Prop := Within body p q ∨ Within body q p

/-! ## One level -/

theorem navigate_congr {value : Json} {s t : String} (h : stepOf value s = stepOf value t) :
    navigateOneLevel value s = navigateOneLevel value t := by
  cases value with
  | array values =>
      unfold stepOf at h
      dsimp only at h
      unfold navigateOneLevel
      dsimp only
      cases hs : ParseInt.parseIndex s with
      | none =>
          cases ht : ParseInt.parseIndex t with
          | none => rfl
          | some j =>
              rw [hs, ht] at h
              exact absurd h (by simp)
      | some i =>
          cases ht : ParseInt.parseIndex t with
          | none =>
              rw [hs, ht] at h
              exact absurd h (by simp)
          | some j =>
              rw [hs, ht] at h
              rw [Step.index.inj h]
  | object fields => rw [Step.key.inj h]
  | _ => rfl

theorem stepOf_replaceChild (value child : Json) (s t : String) :
    stepOf (replaceChild value s child) t = stepOf value t := by
  cases value with
  | array values =>
      unfold replaceChild
      dsimp only
      cases ParseInt.parseIndex s with
      | none => rfl
      | some i => rfl
  | object fields => rfl
  | _ => rfl

/-- Where a child is, the assignment is read back. -/
theorem navigate_replaceChild_same {value : Json} {seg : String}
    (hchild : (navigateOneLevel value seg).isSome) (new : Json) :
    navigateOneLevel (replaceChild value seg new) seg = some new := by
  cases value with
  | array values =>
      unfold navigateOneLevel at hchild
      dsimp only at hchild
      unfold replaceChild
      dsimp only
      cases hs : ParseInt.parseIndex seg with
      | none =>
          rw [hs] at hchild
          exact absurd hchild (by simp)
      | some i =>
          have hi : i < values.length := by
            rw [hs] at hchild
            simpa using hchild
          unfold navigateOneLevel
          dsimp only
          rw [hs]
          simp [hi]
  | object fields =>
      show Json.field (Json.insert seg new fields) seg = _
      rw [Json.field_insert, if_pos rfl]
  | _ => exact absurd hchild (by simp [navigateOneLevel])

/-- The other children are as they were. -/
theorem navigate_replaceChild_other {value : Json} {s t : String}
    (h : stepOf value s ≠ stepOf value t) (new : Json) :
    navigateOneLevel (replaceChild value s new) t = navigateOneLevel value t := by
  cases value with
  | array values =>
      unfold replaceChild
      dsimp only
      cases hs : ParseInt.parseIndex s with
      | none => rfl
      | some i =>
          unfold navigateOneLevel
          dsimp only
          cases ht : ParseInt.parseIndex t with
          | none => rfl
          | some j =>
              have hij : i ≠ j := by
                rintro rfl
                exact h (by simp [stepOf, hs, ht])
              simp [hij]
  | object fields =>
      have hst : t ≠ s := fun heq => h (by rw [heq])
      show Json.field (Json.insert s new fields) t = _
      rw [Json.field_insert, if_neg hst]
      rfl
  | _ => rfl

/-- A second assignment to the same child replaces the first. -/
theorem replaceChild_replaceChild {value : Json} {s t : String}
    (h : stepOf value s = stepOf value t) (first new : Json) :
    replaceChild (replaceChild value s first) t new = replaceChild value t new := by
  cases value with
  | array values =>
      unfold stepOf at h
      dsimp only at h
      cases hs : ParseInt.parseIndex s with
      | none =>
          unfold replaceChild
          dsimp only
          rw [hs]
      | some i =>
          rw [hs] at h
          cases ht : ParseInt.parseIndex t with
          | none =>
              rw [ht] at h
              exact absurd h (by simp)
          | some j =>
              rw [ht] at h
              rw [Step.index.inj h] at hs
              simp [replaceChild, hs, ht]
  | object fields =>
      have hst : s = t := Step.key.inj h
      subst hst
      show Json.object (Json.insert s new (Json.insert s first fields)) = _
      rw [Json.insert_insert]
      rfl
  | _ => rfl

/-- Assigning a child its own value changes nothing. -/
theorem replaceChild_self {value child : Json} {seg : String}
    (h : navigateOneLevel value seg = some child) : replaceChild value seg child = value := by
  cases value with
  | array values =>
      unfold navigateOneLevel at h
      dsimp only at h
      unfold replaceChild
      dsimp only
      cases hs : ParseInt.parseIndex seg with
      | none => rfl
      | some i =>
          rw [hs] at h
          have hget : values[i]? = some child := h
          obtain ⟨hi, heq⟩ := List.getElem?_eq_some_iff.mp hget
          show Json.array (values.set i child) = _
          rw [← heq, List.set_getElem_self]
  | object fields =>
      show Json.object (Json.insert seg child fields) = _
      rw [Json.insert_of_field h]
  | _ => rfl

/-! ## Reading what was set -/

/-- The last segment of a set finds a place. -/
def HoldsChild (value : Json) (seg : String) : Prop :=
  (∃ fields, value = .object fields) ∨ (navigateOneLevel value seg).isSome

/-- A set goes through: a missing key of an object is created, with all that
follows; any other segment must be there. -/
def CanSet : List String → Json → Prop
  | [], _ => False
  | [last], value => HoldsChild value last
  | seg :: rest, value =>
      (∃ fields, value = .object fields ∧ navigateOneLevel value seg = none) ∨
        ∃ child, navigateOneLevel value seg = some child ∧ CanSet rest child

theorem navigate_replaceChild {value : Json} {seg : String} (h : HoldsChild value seg)
    (new : Json) : navigateOneLevel (replaceChild value seg new) seg = some new := by
  rcases h with ⟨fields, rfl⟩ | h
  · show Json.field (Json.insert seg new fields) seg = _
    rw [Json.field_insert, if_pos rfl]
  · exact navigate_replaceChild_same h new

theorem replaceChild_of_not_holds {value : Json} {seg : String} (h : ¬ HoldsChild value seg)
    (new : Json) : replaceChild value seg new = value := by
  unfold HoldsChild at h
  rw [not_or] at h
  cases value with
  | array values =>
      unfold replaceChild
      dsimp only
      cases hs : ParseInt.parseIndex seg with
      | none => rfl
      | some i =>
          have hi : values.length ≤ i := by
            have hnone := h.2
            unfold navigateOneLevel at hnone
            dsimp only at hnone
            rw [hs] at hnone
            simpa using hnone
          show Json.array (values.set i new) = _
          rw [List.set_eq_of_length_le hi]
  | object fields => exact absurd ⟨fields, rfl⟩ h.1
  | _ => rfl

/-- On its way a set meets a child, creates one, or stops. -/
theorem withChild_cases (value : Json) (seg : String) :
    (∃ child, navigateOneLevel value seg = some child ∧ withChild value seg = value) ∨
      (∃ fields, value = .object fields ∧ navigateOneLevel value seg = none ∧
        withChild value seg = replaceChild value seg (.object [])) ∨
      ((∀ fields, value ≠ .object fields) ∧ navigateOneLevel value seg = none ∧
        withChild value seg = value) := by
  cases hchild : navigateOneLevel value seg with
  | some child =>
      refine .inl ⟨child, rfl, ?_⟩
      unfold withChild
      rw [hchild]
  | none =>
      cases value with
      | object fields =>
          refine .inr (.inl ⟨fields, rfl, rfl, ?_⟩)
          unfold withChild
          rw [hchild]
          rfl
      | _ =>
          refine .inr (.inr ⟨(fun _ h => nomatch h), rfl, ?_⟩)
          unfold withChild
          rw [hchild]

/-- What a set does one level down, if it goes on. -/
theorem setSegments_cons {rest : List String} (hrest : rest ≠ []) (seg : String)
    (new value : Json) :
    ((∃ fields, value = .object fields) ∨ (navigateOneLevel value seg).isSome) ∧
        setSegments (seg :: rest) new value =
          replaceChild value seg (setSegments rest new (childOr value seg)) ∨
      ((∀ fields, value ≠ .object fields) ∧ navigateOneLevel value seg = none ∧
        setSegments (seg :: rest) new value = value) := by
  obtain ⟨next, tail, rfl⟩ := List.exists_cons_of_ne_nil hrest
  show _ ∧ (match navigateOneLevel (withChild value seg) seg with
      | some child => replaceChild (withChild value seg) seg (setSegments (next :: tail) new child)
      | none => withChild value seg) = _ ∨ _ ∧ _ ∧ (match navigateOneLevel (withChild value seg) seg with
      | some child => replaceChild (withChild value seg) seg (setSegments (next :: tail) new child)
      | none => withChild value seg) = _
  rcases withChild_cases value seg with ⟨child, hchild, hwith⟩ | ⟨fields, hobject, hnone, hwith⟩ |
    ⟨hscalar, hnone, hwith⟩
  · refine .inl ⟨.inr (by rw [hchild]; rfl), ?_⟩
    rw [hwith, hchild]
    unfold childOr
    rw [hchild]
    rfl
  · refine .inl ⟨.inl ⟨fields, hobject⟩, ?_⟩
    rw [hwith, navigate_replaceChild (.inl ⟨fields, hobject⟩)]
    unfold childOr
    rw [hnone]
    exact replaceChild_replaceChild rfl _ _
  · refine .inr ⟨hscalar, hnone, ?_⟩
    rw [hwith, hnone]

theorem canSet_object {rest : List String} (hrest : rest ≠ []) : CanSet rest (.object []) := by
  obtain ⟨seg, tail, rfl⟩ := List.exists_cons_of_ne_nil hrest
  cases tail with
  | nil => exact .inl ⟨[], rfl⟩
  | cons next tail => exact .inl ⟨[], rfl, rfl⟩

theorem canSet_cons {rest : List String} (hrest : rest ≠ []) (seg : String) (value : Json) :
    CanSet (seg :: rest) value ↔
      HoldsChild value seg ∧ CanSet rest (childOr value seg) := by
  obtain ⟨next, tail, rfl⟩ := List.exists_cons_of_ne_nil hrest
  have hcan : CanSet (seg :: next :: tail) value ↔
      (∃ fields, value = .object fields ∧ navigateOneLevel value seg = none) ∨
        ∃ child, navigateOneLevel value seg = some child ∧ CanSet (next :: tail) child := Iff.rfl
  rw [hcan]
  unfold HoldsChild childOr
  cases hchild : navigateOneLevel value seg with
  | none =>
      simp only [Option.getD_none, Option.isSome_none, Bool.false_eq_true, or_false, reduceCtorEq,
        false_and, exists_false, and_true]
      exact ⟨fun h => ⟨h, canSet_object (List.cons_ne_nil _ _)⟩, And.left⟩
  | some child => simp

/-- A set that cannot go through changes nothing. -/
theorem setSegments_of_not_canSet {p : List String} {value : Json} (h : ¬ CanSet p value)
    (new : Json) : setSegments p new value = value := by
  induction p generalizing value with
  | nil => rfl
  | cons seg rest ih =>
      by_cases hrest : rest = []
      · subst hrest
        exact replaceChild_of_not_holds h new
      · rcases setSegments_cons hrest seg new value with ⟨hholds, hset⟩ | ⟨-, -, hset⟩
        · rw [canSet_cons hrest] at h
          have hstop : ¬ CanSet rest (childOr value seg) := fun hcan => h ⟨hholds, hcan⟩
          rw [hset, ih hstop]
          cases hchild : navigateOneLevel value seg with
          | some child =>
              unfold childOr
              rw [hchild]
              exact replaceChild_self hchild
          | none =>
              -- below a new object nothing stops a set
              unfold childOr at hstop
              rw [hchild] at hstop
              exact absurd (canSet_object hrest) hstop
        · exact hset

/-- A set that goes through is read back. -/
theorem get_setSegments {p : List String} {value : Json} (h : CanSet p value) (new : Json) :
    getSegments p (setSegments p new value) = some new := by
  induction p generalizing value with
  | nil => exact h.elim
  | cons seg rest ih =>
      by_cases hrest : rest = []
      · subst hrest
        show (navigateOneLevel (replaceChild value seg new) seg).bind _ = _
        rw [navigate_replaceChild h]
        rfl
      · obtain ⟨hholds, hcan⟩ := (canSet_cons hrest seg value).mp h
        rcases setSegments_cons hrest seg new value with ⟨-, hset⟩ | ⟨hscalar, hnone, -⟩
        · show (navigateOneLevel (setSegments (seg :: rest) new value) seg).bind _ = _
          rw [hset, navigate_replaceChild hholds]
          exact ih hcan
        · rcases hholds with ⟨fields, hobject⟩ | hsome
          · exact absurd hobject (hscalar fields)
          · rw [hnone] at hsome
            exact absurd hsome (by simp)

theorem childOr_replaceChild {value : Json} {seg : String} (h : HoldsChild value seg) (new : Json) :
    childOr (replaceChild value seg new) seg = new := by
  unfold childOr
  rw [navigate_replaceChild h]
  rfl

/-- The second of two sets is all that is left. -/
theorem setSegments_setSegments (p : List String) (first new value : Json) :
    setSegments p new (setSegments p first value) = setSegments p new value := by
  by_cases hcan : CanSet p value
  · induction p generalizing value with
    | nil => rfl
    | cons seg rest ih =>
        by_cases hrest : rest = []
        · subst hrest
          exact replaceChild_replaceChild rfl first new
        · obtain ⟨hholds, hcan⟩ := (canSet_cons hrest seg value).mp hcan
          have hgoes : ∀ (new' value' : Json), HoldsChild value' seg →
              setSegments (seg :: rest) new' value' =
                replaceChild value' seg (setSegments rest new' (childOr value' seg)) := by
            intro new' value' hholds'
            rcases setSegments_cons hrest seg new' value' with ⟨-, hset⟩ | ⟨hscalar, hnone, -⟩
            · exact hset
            · rcases hholds' with ⟨fields, hobject⟩ | hsome
              · exact absurd hobject (hscalar fields)
              · rw [hnone] at hsome
                exact absurd hsome (by simp)
          have hholds' : HoldsChild (setSegments (seg :: rest) first value) seg := by
            rw [hgoes first value hholds]
            exact .inr (by rw [navigate_replaceChild hholds]; rfl)
          rw [hgoes new _ hholds', hgoes first value hholds, childOr_replaceChild hholds, ih _ hcan,
            replaceChild_replaceChild rfl, hgoes new value hholds]
  · rw [setSegments_of_not_canSet hcan first]

/-! ## Paths against each other -/

theorem childOr_congr {value : Json} {s t : String} (h : stepOf value s = stepOf value t) :
    childOr value s = childOr value t := by
  unfold childOr
  rw [navigate_congr h]

theorem within_nil (value : Json) (q : List String) : Within value [] q := List.nil_prefix

theorem not_within_nil (value : Json) (seg : String) (p : List String) :
    ¬ Within value (seg :: p) [] := by
  unfold Within resolve
  rw [List.prefix_nil]
  exact List.cons_ne_nil _ _

theorem within_cons (value : Json) (s t : String) (p q : List String) :
    Within value (s :: p) (t :: q) ↔
      stepOf value s = stepOf value t ∧ Within (childOr value s) p q := by
  unfold Within
  show stepOf value s :: _ <+: stepOf value t :: _ ↔ _
  rw [List.cons_prefix_cons]
  refine and_congr_right fun h => ?_
  rw [childOr_congr h]

theorem overlaps_cons (value : Json) (s t : String) (p q : List String) :
    Overlaps value (s :: p) (t :: q) ↔
      stepOf value s = stepOf value t ∧ Overlaps (childOr value s) p q := by
  unfold Overlaps
  rw [within_cons, within_cons]
  by_cases h : stepOf value s = stepOf value t
  · simp [h, childOr_congr h]
  · simp [h, Ne.symm h]

/-- A child that is reached by another spelling. -/
theorem navigate_replaceChild_step {value : Json} {s t : String} (h : HoldsChild value s)
    (hstep : stepOf value s = stepOf value t) (new : Json) :
    navigateOneLevel (replaceChild value s new) t = some new := by
  have hsame : stepOf (replaceChild value s new) s = stepOf (replaceChild value s new) t := by
    rw [stepOf_replaceChild, stepOf_replaceChild, hstep]
  rw [← navigate_congr hsame, navigate_replaceChild h]

theorem getSegments_empty {q : List String} (h : q ≠ []) : getSegments q (.object []) = none := by
  obtain ⟨seg, tail, rfl⟩ := List.exists_cons_of_ne_nil h
  rfl

theorem getSegments_childOr {value : Json} {s t : String} (hstep : stepOf value s = stepOf value t)
    {tail : List String} (h : tail ≠ []) :
    getSegments (t :: tail) value = getSegments tail (childOr value s) := by
  show (navigateOneLevel value t).bind (getSegments tail) = _
  rw [← navigate_congr hstep]
  unfold childOr
  cases navigateOneLevel value s with
  | none => exact (getSegments_empty h).symm
  | some child => rfl

/-- A set leaves every path that it does not overlap. -/
theorem get_setSegments_other {p q : List String} {value : Json} (h : ¬ Overlaps value p q)
    (new : Json) : getSegments q (setSegments p new value) = getSegments q value := by
  induction p generalizing q value with
  | nil => exact absurd (.inl (within_nil value q)) h
  | cons seg rest ih =>
      cases q with
      | nil => exact absurd (.inr (within_nil value _)) h
      | cons t tail =>
          rw [overlaps_cons] at h
          by_cases hstep : stepOf value seg = stepOf value t
          · have hbelow : ¬ Overlaps (childOr value seg) rest tail := fun hover => h ⟨hstep, hover⟩
            have hrest : rest ≠ [] := by
              rintro rfl
              exact hbelow (.inl (within_nil _ _))
            have htail : tail ≠ [] := by
              rintro rfl
              exact hbelow (.inr (within_nil _ _))
            rcases setSegments_cons hrest seg new value with ⟨hholds, hset⟩ | ⟨-, -, hset⟩
            · rw [hset, getSegments_childOr hstep htail, ← ih hbelow]
              show (navigateOneLevel (replaceChild value seg _) t).bind _ = _
              rw [navigate_replaceChild_step hholds hstep]
              rfl
            · rw [hset]
          · have hother : ∀ child, getSegments (t :: tail) (replaceChild value seg child) =
                getSegments (t :: tail) value := by
              intro child
              show (navigateOneLevel (replaceChild value seg child) t).bind _ = _
              rw [navigate_replaceChild_other hstep]
              rfl
            by_cases hrest : rest = []
            · subst hrest
              exact hother new
            · rcases setSegments_cons hrest seg new value with ⟨-, hset⟩ | ⟨-, -, hset⟩
              · rw [hset]
                exact hother _
              · rw [hset]

/-! ## Reading what was not deleted -/

/-- Where an element that stood at a segment stands after another was removed. -/
def shiftStep (value : Json) (key seg : String) : String :=
  match value with
  | .array values =>
      match ParseInt.parseIndex key, ParseInt.parseIndex seg with
      | some i, some j => if i < values.length ∧ i < j then toString (j - 1) else seg
      | _, _ => seg
  | _ => seg

/-- The path under which what stood at `q` is read after `p` was deleted. -/
def shift : Json → List String → List String → List String
  | value, [key], t :: q => shiftStep value key t :: q
  | value, seg :: rest, t :: q =>
      if stepOf value seg = stepOf value t then t :: shift (childOr value seg) rest q else t :: q
  | _, _, q => q

theorem navigate_removeChild {value : Json} {key t : String} (h : stepOf value key ≠ stepOf value t) :
    navigateOneLevel (removeChild value key).1 (shiftStep value key t) =
      navigateOneLevel value t := by
  cases value with
  | array values =>
      unfold removeChild shiftStep
      dsimp only
      cases hkey : ParseInt.parseIndex key with
      | none => rfl
      | some i =>
          dsimp only
          by_cases hi : i < values.length
          · rw [if_pos hi]
            cases ht : ParseInt.parseIndex t with
            | none => simp [navigateOneLevel, ht]
            | some j =>
                have hij : i ≠ j := by
                  rintro rfl
                  exact h (by simp [stepOf, hkey, ht])
                dsimp only
                by_cases hlt : i < j
                · rw [if_pos ⟨hi, hlt⟩]
                  simp only [navigateOneLevel, ParseInt.parseIndex_toString, ht, Option.bind_some]
                  rw [List.getElem?_eraseIdx_of_ge (by omega), Nat.sub_add_cancel (by omega)]
                · rw [if_neg (fun hboth => hlt hboth.2)]
                  simp only [navigateOneLevel, ht, Option.bind_some]
                  rw [List.getElem?_eraseIdx_of_lt (by omega)]
          · rw [if_neg hi]
            cases ht : ParseInt.parseIndex t with
            | none => rfl
            | some j =>
                dsimp only
                rw [if_neg (fun hboth => hi hboth.1)]
  | object fields =>
      have hne : t ≠ key := fun heq => h (by rw [heq])
      show Json.field (Json.remove key fields) t = _
      rw [Json.field_remove, if_neg hne]
      rfl
  | _ => rfl

theorem deleteSegments_cons {rest : List String} (hrest : rest ≠ []) (seg : String) (value : Json) :
    deleteSegments (seg :: rest) value =
      match navigateOneLevel value seg with
      | some child =>
          (replaceChild value seg (deleteSegments rest child).1, (deleteSegments rest child).2)
      | none => (value, false) := by
  obtain ⟨next, tail, rfl⟩ := List.exists_cons_of_ne_nil hrest
  rfl

theorem shift_cons {rest : List String} (hrest : rest ≠ []) (seg t : String) (q : List String)
    (value : Json) :
    shift value (seg :: rest) (t :: q) =
      if stepOf value seg = stepOf value t then t :: shift (childOr value seg) rest q
      else t :: q := by
  obtain ⟨next, tail, rfl⟩ := List.exists_cons_of_ne_nil hrest
  rfl

/-- A deletion leaves every path that it does not overlap, later elements of
its array one place down. -/
theorem get_deleteSegments_other {p q : List String} {value : Json} (h : ¬ Overlaps value p q) :
    getSegments (shift value p q) (deleteSegments p value).1 = getSegments q value := by
  induction p generalizing q value with
  | nil => exact absurd (.inl (within_nil value q)) h
  | cons seg rest ih =>
      cases q with
      | nil => exact absurd (.inr (within_nil value _)) h
      | cons t tail =>
          rw [overlaps_cons] at h
          by_cases hrest : rest = []
          · subst hrest
            have hstep : stepOf value seg ≠ stepOf value t :=
              fun hstep => h ⟨hstep, .inl (within_nil _ _)⟩
            show (navigateOneLevel (removeChild value seg).1 (shiftStep value seg t)).bind _ = _
            rw [navigate_removeChild hstep]
            rfl
          · rw [deleteSegments_cons hrest, shift_cons hrest]
            cases hchild : navigateOneLevel value seg with
            | none =>
                dsimp only
                by_cases hstep : stepOf value seg = stepOf value t
                · rw [if_pos hstep]
                  rw [navigate_congr hstep] at hchild
                  show (navigateOneLevel value t).bind _ = (navigateOneLevel value t).bind _
                  rw [hchild]
                  rfl
                · rw [if_neg hstep]
            | some child =>
                dsimp only
                have hholds : HoldsChild value seg := .inr (by rw [hchild]; rfl)
                by_cases hstep : stepOf value seg = stepOf value t
                · have hor : childOr value seg = child := by
                    unfold childOr
                    rw [hchild]
                    rfl
                  rw [hor] at h
                  have hbelow : ¬ Overlaps child rest tail := fun hover => h ⟨hstep, hover⟩
                  rw [if_pos hstep, hor]
                  show (navigateOneLevel (replaceChild value seg _) t).bind _ =
                    (navigateOneLevel value t).bind _
                  rw [navigate_replaceChild_step hholds hstep, ← navigate_congr hstep, hchild]
                  exact ih hbelow
                · rw [if_neg hstep]
                  show (navigateOneLevel (replaceChild value seg _) t).bind _ = _
                  rw [navigate_replaceChild_other hstep]
                  rfl

/-- A deleted key is not read again: only an array has another element to show. -/
theorem get_deleteSegments {p : List String} {value : Json} (hp : p ≠ [])
    (hparent : ∀ values, getSegments p.dropLast value ≠ some (.array values)) :
    getSegments p (deleteSegments p value).1 = none := by
  induction p generalizing value with
  | nil => exact absurd rfl hp
  | cons seg rest ih =>
      by_cases hrest : rest = []
      · subst hrest
        show (navigateOneLevel (removeChild value seg).1 seg).bind _ = none
        cases value with
        | array values => exact absurd rfl (hparent values)
        | object fields =>
            show (Json.field (Json.remove seg fields) seg).bind _ = none
            rw [Json.field_remove, if_pos rfl]
            rfl
        | _ => rfl
      · rw [deleteSegments_cons hrest]
        cases hchild : navigateOneLevel value seg with
        | none =>
            show (navigateOneLevel value seg).bind _ = none
            rw [hchild]
            rfl
        | some child =>
            have hholds : HoldsChild value seg := .inr (by rw [hchild]; rfl)
            show (navigateOneLevel (replaceChild value seg _) seg).bind _ = none
            rw [navigate_replaceChild hholds]
            refine ih hrest fun values hget => hparent values ?_
            obtain ⟨next, tail, rfl⟩ := List.exists_cons_of_ne_nil hrest
            show (navigateOneLevel value seg).bind _ = _
            rw [hchild]
            exact hget

/-! ## The laws -/

/-- A set is all or nothing, the second of two sets is all that is left, what a
set or a deletion does not overlap stays, and a deleted key is gone. -/
theorem override_laws (body : Json) (path : String) (value : Json) :
    (setAtPath body path value = body ∨
        getAtPath (setAtPath body path value) path = some value) ∧
      (∀ first, setAtPath (setAtPath body path first) path value = setAtPath body path value) ∧
      (∀ other, ¬ Overlaps body (segments path) (segments other) →
        getAtPath (setAtPath body path value) other = getAtPath body other ∧
          getSegments (shift body (segments path) (segments other)) (deleteAtPath body path).1 =
            getAtPath body other) ∧
      (segments path ≠ [] →
        (∀ values, getSegments (segments path).dropLast body ≠ some (.array values)) →
          getAtPath (deleteAtPath body path).1 path = none) := by
  refine ⟨?_, fun first => setSegments_setSegments _ first value body, fun other h => ?_,
    get_deleteSegments⟩
  · by_cases hcan : CanSet (segments path) body
    · exact .inr (get_setSegments hcan value)
    · exact .inl (setSegments_of_not_canSet hcan value)
  · exact ⟨get_setSegments_other h value, get_deleteSegments_other h⟩

/-- Compared by their text, `a.0` and `a.00` are two paths, and one array
element. -/
theorem set_changes_other_spelling :
    ¬ ∀ (body : Json) (path other : String) (value : Json),
      ¬ segments path <+: segments other → ¬ segments other <+: segments path →
        getAtPath (setAtPath body path value) other = getAtPath body other := by
  intro hframe
  have hsame := hframe (.object [("a", .array [.int 1])]) "a.0" "a.00" (.int 2)
    (by decide) (by decide)
  have hpath : segments "a.0" = ["a", "0"] := by decide
  have hother : segments "a.00" = ["a", "00"] := by decide
  have hzero : ParseInt.parseIndex "0" = some 0 := by decide
  have hzeros : ParseInt.parseIndex "00" = some 0 := by decide
  unfold getAtPath setAtPath at hsame
  rw [hpath, hother] at hsame
  simp [getSegments, setSegments, navigateOneLevel, withChild, replaceChild, Json.insert, hzero,
    hzeros] at hsame

end Conduit.Orchestrator.BodyOverride
