import Conduit.Orchestrator.BodyOverride

/-!
# Renaming and copying in a body

`apply_body_rename` reads the source, deletes it and sets the target. The set
comes after the deletion: if it cannot go through then, the value is gone. A
deletion from an array also moves the later elements, unless the target
replaces the array or what holds it. `apply_body_copy` only sets; the source
changes when the target is above or below it.

`renameKeeps_iff` and `copyKeeps_iff` give the exact conditions.
-/

namespace Conduit.Orchestrator.BodyOverride

open Base

/-! ## The operations -/

/-- The paths of an operation; `from` and `to` are the ends of a rename or copy. -/
structure OverrideOperation where
  path : String
  fromPath : String
  toPath : String
deriving DecidableEq, Repr

def applyBodyDelete (body : Json) (op : OverrideOperation) : Json := (deleteAtPath body op.path).1

def applyBodyRename (body : Json) (op : OverrideOperation) : Json :=
  match getAtPath body op.fromPath with
  | some value => setAtPath (deleteAtPath body op.fromPath).1 op.toPath value
  | none => body

def applyBodyCopy (body : Json) (op : OverrideOperation) : Json :=
  match getAtPath body op.fromPath with
  | some value => setAtPath body op.toPath value
  | none => body

/-- Nothing changed, or the target holds what the source held and no path is
changed that overlaps neither. -/
def RenameKeeps (body : Json) (op : OverrideOperation) : Prop :=
  applyBodyRename body op = body ∨
    (getAtPath (applyBodyRename body op) op.toPath = getAtPath body op.fromPath ∧
      ∀ other, ¬ Overlaps body (segments op.fromPath) (segments other) →
        ¬ Overlaps body (segments op.toPath) (segments other) →
          getAtPath (applyBodyRename body op) other = getAtPath body other)

/-- The source is unchanged, and the target holds it or nothing changed. -/
def CopyKeeps (body : Json) (op : OverrideOperation) : Prop :=
  getAtPath (applyBodyCopy body op) op.fromPath = getAtPath body op.fromPath ∧
    (getAtPath (applyBodyCopy body op) op.toPath = getAtPath body op.fromPath ∨
      applyBodyCopy body op = body)

/-! ## The conditions -/

/-- The path is an element of an array with an element after it. -/
def Shifts : List String → Json → Prop
  | [], _ => False
  | [key], value => ∃ values i, value = .array values ∧ ParseInt.parseIndex key = some i ∧
      i + 1 < values.length
  | seg :: rest, value => ∃ child, navigateOneLevel value seg = some child ∧ Shifts rest child

/-- The source is missing or the whole body, or the target is the whole body
and nothing but the value is left of it, or the target can be set in what is
left, and no element is moved that the target does not replace. -/
def RenameFits (body : Json) (op : OverrideOperation) : Prop :=
  getAtPath body op.fromPath = none ∨ segments op.fromPath = [] ∨
    (segments op.toPath = [] ∧
      getAtPath body op.fromPath = some (deleteAtPath body op.fromPath).1) ∨
    (CanSet (segments op.toPath) (deleteAtPath body op.fromPath).1 ∧
      (¬ Shifts (segments op.fromPath) body ∨
        Within body (segments op.toPath) (segments op.fromPath).dropLast))

/-- The source is missing, the target cannot be set, or the two are one place
or do not overlap. -/
def CopyFits (body : Json) (op : OverrideOperation) : Prop :=
  getAtPath body op.fromPath = none ∨ ¬ CanSet (segments op.toPath) body ∨
    ¬ Overlaps body (segments op.fromPath) (segments op.toPath) ∨
      resolve body (segments op.fromPath) = resolve body (segments op.toPath)

/-! ## What a deletion leaves -/

theorem canSet_of_get {p : List String} {value v : Json} (hp : p ≠ [])
    (h : getSegments p value = some v) : CanSet p value := by
  induction p generalizing value with
  | nil => exact absurd rfl hp
  | cons seg rest ih =>
      obtain ⟨child, hchild, hrest⟩ := Option.bind_eq_some_iff.mp h
      have hholds : HoldsChild value seg := .inr (by rw [hchild]; rfl)
      by_cases hnil : rest = []
      · subst hnil
        exact hholds
      · refine (canSet_cons hnil seg value).mpr ⟨hholds, ?_⟩
        unfold childOr
        rw [hchild]
        exact ih hnil hrest

/-- A value that is there is removed. -/
theorem deleteSegments_ne {p : List String} {value v : Json} (hp : p ≠ [])
    (h : getSegments p value = some v) : (deleteSegments p value).1 ≠ value := by
  induction p generalizing value with
  | nil => exact absurd rfl hp
  | cons seg rest ih =>
      obtain ⟨child, hchild, hrest⟩ := Option.bind_eq_some_iff.mp h
      by_cases hnil : rest = []
      · subst hnil
        show (removeChild value seg).1 ≠ value
        intro hsame
        cases value with
        | array values =>
            unfold navigateOneLevel at hchild
            obtain ⟨i, hi, hget⟩ := Option.bind_eq_some_iff.mp hchild
            have hlt : i < values.length := (List.getElem?_eq_some_iff.mp hget).1
            unfold removeChild at hsame
            dsimp only at hsame
            rw [hi] at hsame
            dsimp only at hsame
            rw [if_pos hlt] at hsame
            have hlength := congrArg List.length (Json.array.inj hsame)
            rw [List.length_eraseIdx_of_lt hlt] at hlength
            omega
        | object fields =>
            have hread := Json.field_remove seg seg fields
            rw [if_pos rfl, Json.object.inj hsame] at hread
            exact absurd (hread.symm.trans hchild) (by simp)
        | _ => exact absurd hchild (by simp [navigateOneLevel])
      · rw [deleteSegments_cons hnil, hchild]
        intro hsame
        have hread : navigateOneLevel (replaceChild value seg (deleteSegments rest child).1) seg =
            some (deleteSegments rest child).1 :=
          navigate_replaceChild_same (by rw [hchild]; rfl) (deleteSegments rest child).1
        rw [show replaceChild value seg (deleteSegments rest child).1 = value from hsame,
          hchild] at hread
        exact ih hnil hrest (Option.some.inj hread).symm

theorem stepOf_removeChild (value : Json) (key t : String) :
    stepOf (removeChild value key).1 t = stepOf value t := by
  cases value with
  | array values =>
      unfold removeChild
      dsimp only
      cases ParseInt.parseIndex key with
      | none => rfl
      | some i =>
          dsimp only
          by_cases hi : i < values.length
          · rw [if_pos hi]
            rfl
          · rw [if_neg hi]
  | _ => rfl

/-- Without an element after it, a removed child is all that is missed. -/
theorem navigate_removeChild_last {value : Json} {key t : String} (hshift : ¬ Shifts [key] value)
    (h : stepOf value key ≠ stepOf value t) :
    navigateOneLevel (removeChild value key).1 t = navigateOneLevel value t := by
  have hmoved := navigate_removeChild h
  unfold shiftStep at hmoved
  cases value with
  | array values =>
      dsimp only at hmoved
      cases hkey : ParseInt.parseIndex key with
      | none => rwa [hkey] at hmoved
      | some i =>
          cases ht : ParseInt.parseIndex t with
          | none => rwa [hkey, ht] at hmoved
          | some j =>
              rw [hkey, ht] at hmoved
              dsimp only at hmoved
              by_cases hboth : i < values.length ∧ i < j
              · have hlast : ¬ i + 1 < values.length := fun hlt =>
                  hshift ⟨values, i, rfl, hkey, hlt⟩
                unfold removeChild
                dsimp only
                rw [hkey]
                dsimp only
                rw [if_pos hboth.1]
                have hout : values[j]? = none := List.getElem?_eq_none (by omega)
                have hout' : (values.eraseIdx i)[j]? = none := by
                  rw [List.getElem?_eq_none]
                  rw [List.length_eraseIdx_of_lt hboth.1]
                  omega
                simp [navigateOneLevel, ht, hout, hout']
              · rwa [if_neg hboth] at hmoved
  | _ => exact hmoved

/-- What a deletion that moves nothing does one level down. -/
theorem childOr_deleteSegments {seg t : String} {rest : List String} (hrest : rest ≠ [])
    {value child : Json} (hchild : navigateOneLevel value seg = some child)
    (h : stepOf value seg = stepOf value t) :
    navigateOneLevel (deleteSegments (seg :: rest) value).1 t = some (deleteSegments rest child).1 := by
  rw [deleteSegments_cons hrest, hchild]
  exact navigate_replaceChild_step (.inr (by rw [hchild]; rfl)) h _

theorem navigate_deleteSegments_other {seg t : String} {rest : List String} (hrest : rest ≠ [])
    {value : Json} (h : stepOf value seg ≠ stepOf value t) :
    navigateOneLevel (deleteSegments (seg :: rest) value).1 t = navigateOneLevel value t := by
  rw [deleteSegments_cons hrest]
  cases hchild : navigateOneLevel value seg with
  | none => rfl
  | some child => exact navigate_replaceChild_other h _

theorem stepOf_deleteSegments (seg t : String) (rest : List String) (value : Json) :
    stepOf (deleteSegments (seg :: rest) value).1 t = stepOf value t := by
  by_cases hrest : rest = []
  · subst hrest
    exact stepOf_removeChild value seg t
  · rw [deleteSegments_cons hrest]
    cases navigateOneLevel value seg with
    | none => rfl
    | some child => exact stepOf_replaceChild value _ seg t

/-- The steps of a path in what a deletion leaves, against a path that the
deletion does not overlap. -/
theorem overlaps_deleteSegments {p a q : List String} {value : Json} (hshift : ¬ Shifts p value)
    (h : ¬ Overlaps value p q) :
    Overlaps (deleteSegments p value).1 a q ↔ Overlaps value a q := by
  induction p generalizing a q value with
  | nil => exact absurd (.inl (within_nil value q)) h
  | cons seg rest ih =>
      cases q with
      | nil => exact absurd (.inr (within_nil value _)) h
      | cons t tail =>
          cases a with
          | nil => exact iff_of_true (.inl (within_nil _ _)) (.inl (within_nil _ _))
          | cons s a =>
              rw [overlaps_cons] at h
              rw [overlaps_cons, overlaps_cons, stepOf_deleteSegments, stepOf_deleteSegments]
              refine and_congr_right fun hst => ?_
              have hst' : stepOf (deleteSegments (seg :: rest) value).1 s =
                  stepOf (deleteSegments (seg :: rest) value).1 t := by
                rw [stepOf_deleteSegments, stepOf_deleteSegments, hst]
              rw [childOr_congr hst, childOr_congr hst']
              by_cases hstep : stepOf value seg = stepOf value t
              · have hrest : rest ≠ [] := by
                  rintro rfl
                  exact h ⟨hstep, .inl (within_nil _ _)⟩
                cases hchild : navigateOneLevel value seg with
                | none => rw [deleteSegments_cons hrest, hchild]
                | some child =>
                    have hbelow : ¬ Overlaps child rest tail := by
                      intro hover
                      refine h ⟨hstep, ?_⟩
                      unfold childOr
                      rw [hchild]
                      exact hover
                    have hstays : ¬ Shifts rest child := by
                      intro hshifts
                      obtain ⟨next, more, rfl⟩ := List.exists_cons_of_ne_nil hrest
                      exact hshift ⟨child, hchild, hshifts⟩
                    unfold childOr
                    rw [childOr_deleteSegments hrest hchild hstep, ← navigate_congr hstep, hchild]
                    exact ih hstays hbelow
              · have hsame : childOr (deleteSegments (seg :: rest) value).1 t = childOr value t := by
                  unfold childOr
                  by_cases hrest : rest = []
                  · subst hrest
                    rw [show (deleteSegments [seg] value).1 = (removeChild value seg).1 from rfl,
                      navigate_removeChild_last hshift hstep]
                  · rw [navigate_deleteSegments_other hrest hstep]
                rw [hsame]

/-- A deletion that moves nothing leaves every path that it does not overlap. -/
theorem get_deleteSegments_last {p q : List String} {value : Json} (hshift : ¬ Shifts p value)
    (h : ¬ Overlaps value p q) :
    getSegments q (deleteSegments p value).1 = getSegments q value := by
  induction p generalizing q value with
  | nil => exact absurd (.inl (within_nil value q)) h
  | cons seg rest ih =>
      cases q with
      | nil => exact absurd (.inr (within_nil value _)) h
      | cons t tail =>
          rw [overlaps_cons] at h
          show (navigateOneLevel _ t).bind _ = (navigateOneLevel value t).bind _
          by_cases hstep : stepOf value seg = stepOf value t
          · have hrest : rest ≠ [] := by
              rintro rfl
              exact h ⟨hstep, .inl (within_nil _ _)⟩
            cases hchild : navigateOneLevel value seg with
            | none => rw [deleteSegments_cons hrest, hchild]
            | some child =>
                have hbelow : ¬ Overlaps child rest tail := by
                  intro hover
                  refine h ⟨hstep, ?_⟩
                  unfold childOr
                  rw [hchild]
                  exact hover
                have hstays : ¬ Shifts rest child := by
                  intro hshifts
                  obtain ⟨next, more, rfl⟩ := List.exists_cons_of_ne_nil hrest
                  exact hshift ⟨child, hchild, hshifts⟩
                rw [childOr_deleteSegments hrest hchild hstep, ← navigate_congr hstep, hchild]
                exact ih hstays hbelow
          · by_cases hrest : rest = []
            · subst hrest
              rw [show (deleteSegments [seg] value).1 = (removeChild value seg).1 from rfl,
                navigate_removeChild_last hshift hstep]
            · rw [navigate_deleteSegments_other hrest hstep]

/-! ## What a move changes -/

/-- A path made of segments of another and of numbers. -/
def MadeOf (p q : List String) : Prop := ∀ seg ∈ q, seg ∈ p ∨ ∃ n : Nat, seg = toString n

theorem shifts_last {key : String} {value : Json} (h : Shifts [key] value) :
    ∃ values last, value = .array values ∧ last + 1 = values.length ∧
      stepOf value key ≠ stepOf value (toString last) ∧
      (navigateOneLevel value (toString last)).isSome ∧
      navigateOneLevel (removeChild value key).1 (toString last) = none ∧
      ∀ seg, stepOf value seg = stepOf value (toString last) →
        ¬ HoldsChild (removeChild value key).1 seg := by
  obtain ⟨values, i, rfl, hkey, hi⟩ := h
  have hremoved : (removeChild (.array values) key).1 = .array (values.eraseIdx i) := by
    unfold removeChild
    dsimp only
    rw [hkey]
    dsimp only
    rw [if_pos (by omega)]
  have hlength : (values.eraseIdx i).length = values.length - 1 :=
    List.length_eraseIdx_of_lt (by omega)
  have hnone : navigateOneLevel (.array (values.eraseIdx i)) (toString (values.length - 1)) =
      none := by
    unfold navigateOneLevel
    dsimp only
    rw [ParseInt.parseIndex_toString, Option.bind_some, List.getElem?_eq_none]
    omega
  refine ⟨values, values.length - 1, rfl, by omega, ?_, ?_, by rw [hremoved, hnone], ?_⟩
  · unfold stepOf
    dsimp only
    rw [hkey, ParseInt.parseIndex_toString]
    intro heq
    have hsame := Step.index.inj heq
    omega
  · unfold navigateOneLevel
    dsimp only
    rw [ParseInt.parseIndex_toString, Option.bind_some, List.getElem?_eq_getElem (by omega)]
    rfl
  · intro seg hseg hholds
    rw [hremoved] at hholds
    rcases hholds with ⟨fields, hobject⟩ | hsome
    · exact absurd hobject (by simp)
    · have hstep : stepOf (.array (values.eraseIdx i)) seg =
          stepOf (.array (values.eraseIdx i)) (toString (values.length - 1)) := hseg
      rw [navigate_congr hstep, hnone] at hsome
      exact absurd hsome (by simp)

/-- The last element of an array that moves is no longer where it was. -/
theorem exists_missed {p : List String} {value : Json} (h : Shifts p value) :
    ∃ q, q ≠ [] ∧ MadeOf p q ∧ ¬ Overlaps value p q ∧ (getSegments q value).isSome ∧
      getSegments q (deleteSegments p value).1 = none := by
  induction p generalizing value with
  | nil => exact h.elim
  | cons seg rest ih =>
      by_cases hrest : rest = []
      · subst hrest
        obtain ⟨values, last, -, -, hstep, hthere, hgone, -⟩ := shifts_last h
        refine ⟨[toString last], List.cons_ne_nil _ _, ?_, ?_, ?_, ?_⟩
        · intro t ht
          exact .inr ⟨last, List.mem_singleton.mp ht⟩
        · rw [overlaps_cons]
          exact fun hover => hstep hover.1
        · show ((navigateOneLevel value (toString last)).bind _).isSome
          obtain ⟨child, hchild⟩ := Option.isSome_iff_exists.mp hthere
          rw [hchild]
          rfl
        · show (navigateOneLevel (removeChild value seg).1 (toString last)).bind _ = none
          rw [hgone]
          rfl
      · obtain ⟨next, more, rfl⟩ := List.exists_cons_of_ne_nil hrest
        obtain ⟨child, hchild, hbelow⟩ := h
        obtain ⟨q, -, hmade, hover, hthere, hgone⟩ := ih hbelow
        refine ⟨seg :: q, List.cons_ne_nil _ _, ?_, ?_, ?_, ?_⟩
        · intro t ht
          rcases List.mem_cons.mp ht with rfl | ht
          · exact .inl List.mem_cons_self
          · rcases hmade t ht with hmem | hnumber
            · exact .inl (List.mem_cons_of_mem _ hmem)
            · exact .inr hnumber
        · rw [overlaps_cons]
          intro hboth
          unfold childOr at hboth
          rw [hchild] at hboth
          exact hover hboth.2
        · show ((navigateOneLevel value seg).bind _).isSome
          rw [hchild]
          exact hthere
        · show (navigateOneLevel (deleteSegments (seg :: next :: more) value).1 seg).bind _ = none
          rw [childOr_deleteSegments hrest hchild rfl]
          exact hgone

/-- Nor is it there after a set that does not replace the array. -/
theorem exists_lost {p a : List String} {value : Json} (h : Shifts p value)
    (hset : CanSet a (deleteSegments p value).1) (habove : ¬ Within value a p.dropLast)
    (new : Json) :
    ∃ q, q ≠ [] ∧ MadeOf p q ∧ ¬ Overlaps value p q ∧ ¬ Overlaps value a q ∧
      (getSegments q value).isSome ∧
      getSegments q (setSegments a new (deleteSegments p value).1) = none := by
  induction p generalizing a value with
  | nil => exact h.elim
  | cons seg rest ih =>
      cases a with
      | nil => exact hset.elim
      | cons s a =>
          by_cases hrest : rest = []
          · subst hrest
            obtain ⟨values, last, harray, -, hstep, hthere, hgone, hholds⟩ := shifts_last h
            have hdeleted : (deleteSegments [seg] value).1 = (removeChild value seg).1 := rfl
            -- the target does not go through the last element: it is no longer there
            have hother : stepOf value s ≠ stepOf value (toString last) := by
              intro heq
              refine hholds s heq ?_
              by_cases ha : a = []
              · subst ha
                exact hset
              · exact ((canSet_cons ha s _).mp hset).1
            have hover : ∀ value', stepOf value' s ≠ stepOf value' (toString last) →
                ¬ Overlaps value' (s :: a) [toString last] := by
              intro value' hne hover
              rw [overlaps_cons] at hover
              exact hne hover.1
            refine ⟨[toString last], List.cons_ne_nil _ _, ?_, ?_, hover value hother, ?_, ?_⟩
            · intro t ht
              exact .inr ⟨last, List.mem_singleton.mp ht⟩
            · rw [overlaps_cons]
              exact fun hboth => hstep hboth.1
            · show ((navigateOneLevel value (toString last)).bind _).isSome
              obtain ⟨child, hchild⟩ := Option.isSome_iff_exists.mp hthere
              rw [hchild]
              rfl
            · rw [get_setSegments_other]
              · show (navigateOneLevel (removeChild value seg).1 (toString last)).bind _ = none
                rw [hgone]
                rfl
              · refine hover _ ?_
                rw [hdeleted, stepOf_removeChild, stepOf_removeChild]
                exact hother
          · obtain ⟨next, more, rfl⟩ := List.exists_cons_of_ne_nil hrest
            obtain ⟨child, hchild, hbelow⟩ := h
            have hor : childOr value seg = child := by
              unfold childOr
              rw [hchild]
              rfl
            have hmadeCons : ∀ q, MadeOf (next :: more) q → MadeOf (seg :: next :: more) (seg :: q) := by
              intro q hmade t ht
              rcases List.mem_cons.mp ht with rfl | ht
              · exact .inl List.mem_cons_self
              · rcases hmade t ht with hmem | hnumber
                · exact .inl (List.mem_cons_of_mem _ hmem)
                · exact .inr hnumber
            have hsome : ∀ q, (getSegments q child).isSome →
                (getSegments (seg :: q) value).isSome := by
              intro q hq
              show ((navigateOneLevel value seg).bind _).isSome
              rw [hchild]
              exact hq
            by_cases hstep : stepOf value s = stepOf value seg
            · -- the target goes through the same child
              have habove' : ¬ Within child a (next :: more).dropLast := by
                intro hwithin
                refine habove ?_
                show Within value (s :: a) (seg :: (next :: more).dropLast)
                rw [within_cons, childOr_congr hstep, hor]
                exact ⟨hstep, hwithin⟩
              have ha : a ≠ [] := by
                rintro rfl
                exact habove' (within_nil _ _)
              have hread := childOr_deleteSegments (t := s) hrest hchild hstep.symm
              obtain ⟨hholds, hcan⟩ := (canSet_cons ha s _).mp hset
              have hbelowOr : childOr (deleteSegments (seg :: next :: more) value).1 s =
                  (deleteSegments (next :: more) child).1 := by
                unfold childOr
                rw [hread]
                rfl
              rw [hbelowOr] at hcan
              obtain ⟨q, -, hmade, hover, hover', hthere, hgone⟩ := ih hbelow hcan habove'
              refine ⟨seg :: q, List.cons_ne_nil _ _, hmadeCons q hmade, ?_, ?_, hsome q hthere, ?_⟩
              · rw [overlaps_cons, hor]
                exact fun hboth => hover hboth.2
              · rw [overlaps_cons, childOr_congr hstep, hor]
                exact fun hboth => hover' hboth.2
              · have hstep' : stepOf (deleteSegments (seg :: next :: more) value).1 s =
                    stepOf (deleteSegments (seg :: next :: more) value).1 seg := by
                  rw [stepOf_deleteSegments, stepOf_deleteSegments, hstep]
                rcases setSegments_cons ha s new (deleteSegments (seg :: next :: more) value).1 with
                  ⟨-, hgoes⟩ | ⟨-, hnone, -⟩
                · rw [hgoes, hbelowOr]
                  show (navigateOneLevel (replaceChild _ s _) seg).bind _ = none
                  rw [navigate_replaceChild_step hholds hstep']
                  exact hgone
                · rw [hread] at hnone
                  exact absurd hnone (by simp)
            · obtain ⟨q, -, hmade, hover, hthere, hgone⟩ := exists_missed hbelow
              refine ⟨seg :: q, List.cons_ne_nil _ _, hmadeCons q hmade, ?_, ?_, hsome q hthere, ?_⟩
              · rw [overlaps_cons, hor]
                exact fun hboth => hover hboth.2
              · rw [overlaps_cons]
                exact fun hboth => hstep hboth.1
              · rw [get_setSegments_other]
                · show (navigateOneLevel (deleteSegments (seg :: next :: more) value).1 seg).bind _ =
                    none
                  rw [childOr_deleteSegments hrest hchild rfl]
                  exact hgone
                · rw [overlaps_cons, stepOf_deleteSegments, stepOf_deleteSegments]
                  exact fun hboth => hstep hboth.1

/-- A set at or above the parent of what was deleted replaces it all. -/
theorem setSegments_deleteSegments {a p : List String} {value : Json} (ha : a ≠ [])
    (h : Within value a p.dropLast) (new : Json) :
    setSegments a new (deleteSegments p value).1 = setSegments a new value := by
  induction a generalizing p value with
  | nil => exact absurd rfl ha
  | cons s a ih =>
      cases p with
      | nil => rfl
      | cons seg rest =>
          have hrest : rest ≠ [] := by
            rintro rfl
            exact not_within_nil value s a h
          obtain ⟨next, more, rfl⟩ := List.exists_cons_of_ne_nil hrest
          have hwithin : Within value (s :: a) (seg :: (next :: more).dropLast) := h
          rw [within_cons] at hwithin
          obtain ⟨hstep, hbelow⟩ := hwithin
          cases hchild : navigateOneLevel value seg with
          | none => rw [deleteSegments_cons hrest, hchild]
          | some child =>
              have hor : childOr value s = child := by
                unfold childOr
                rw [navigate_congr hstep, hchild]
                rfl
              rw [hor] at hbelow
              have hdeleted : (deleteSegments (seg :: next :: more) value).1 =
                  replaceChild value seg (deleteSegments (next :: more) child).1 := by
                rw [deleteSegments_cons hrest, hchild]
              have hholds : HoldsChild value seg := .inr (by rw [hchild]; rfl)
              by_cases hnil : a = []
              · subst hnil
                rw [hdeleted]
                exact replaceChild_replaceChild hstep.symm _ new
              · have hread : navigateOneLevel (deleteSegments (seg :: next :: more) value).1 s =
                    some (deleteSegments (next :: more) child).1 :=
                  childOr_deleteSegments hrest hchild hstep.symm
                have hbelowOr : childOr (deleteSegments (seg :: next :: more) value).1 s =
                    (deleteSegments (next :: more) child).1 := by
                  unfold childOr
                  rw [hread]
                  rfl
                rcases setSegments_cons hnil s new value with ⟨-, hgoes⟩ | ⟨-, hnone, -⟩
                · rcases setSegments_cons hnil s new (deleteSegments (seg :: next :: more) value).1
                    with ⟨-, hgoes'⟩ | ⟨-, hnone', -⟩
                  · rw [hgoes, hgoes', hbelowOr, hor, ih hnil hbelow, hdeleted]
                    exact replaceChild_replaceChild hstep.symm _ _
                  · rw [hread] at hnone'
                    exact absurd hnone' (by simp)
                · rw [navigate_congr hstep, hchild] at hnone
                  exact absurd hnone (by simp)

/-! ## Paths as text -/

/-- Segments without dots, none of them empty, are read back from their join. -/
theorem segments_joinWith {q : List String} (hq : q ≠ [])
    (hclean : ∀ seg ∈ q, seg ≠ "" ∧ '.' ∉ seg.toList) : segments (Text.joinWith '.' q) = q := by
  unfold segments
  rw [Text.splitOn_joinWith_of_not_mem hq fun seg hseg => (hclean seg hseg).2]
  exact List.filter_eq_self.mpr fun seg hseg => decide_eq_true (hclean seg hseg).1

theorem segments_clean (path : String) : ∀ seg ∈ segments path, seg ≠ "" ∧ '.' ∉ seg.toList := by
  intro seg hseg
  obtain ⟨hmem, hne⟩ := List.mem_filter.mp hseg
  refine ⟨of_decide_eq_true hne, ?_⟩
  obtain ⟨part, hpart, rfl⟩ := List.mem_map.mp hmem
  rw [String.toList_ofList]
  exact fun hdot => (Text.mem_splitOn hpart _ hdot).2 rfl

theorem toString_clean (n : Nat) : toString n ≠ "" ∧ '.' ∉ (toString n).toList := by
  refine ⟨Nat.repr_ne_empty, fun hdot => ?_⟩
  have hdigit := Nat.isDigit_of_mem_toDigits (b := 10) (by decide) (by decide)
    (show '.' ∈ Nat.toDigits 10 n from Nat.toList_repr ▸ hdot)
  exact absurd hdigit (by decide)

/-- A path made of the segments of a path and of numbers has a text. -/
theorem exists_path {path : String} {q : List String} (hq : q ≠ [])
    (hmade : MadeOf (segments path) q) : ∃ other, segments other = q := by
  refine ⟨Text.joinWith '.' q, segments_joinWith hq fun seg hseg => ?_⟩
  rcases hmade seg hseg with hmem | ⟨n, rfl⟩
  · exact segments_clean path seg hmem
  · exact toString_clean n

/-! ## Renaming -/

theorem renameKeeps_of_fits {body : Json} {op : OverrideOperation} (h : RenameFits body op) :
    RenameKeeps body op := by
  unfold RenameKeeps applyBodyRename
  cases hvalue : getAtPath body op.fromPath with
  | none => exact .inl rfl
  | some value =>
      dsimp only
      rcases h with hnone | hroot | ⟨hto, hleft⟩ | ⟨hset, hstays⟩
      · rw [hnone] at hvalue
        exact absurd hvalue (by simp)
      · -- the whole body is not deleted
        have hdeleted : (deleteAtPath body op.fromPath).1 = body := by
          unfold deleteAtPath
          rw [hroot]
          rfl
        rw [hdeleted]
        by_cases hcan : CanSet (segments op.toPath) body
        · refine .inr ⟨get_setSegments hcan value, fun other hfrom => ?_⟩
          rw [hroot] at hfrom
          exact absurd (.inl (within_nil body _)) hfrom
        · exact .inl (setSegments_of_not_canSet hcan value)
      · have hunset : setAtPath (deleteAtPath body op.fromPath).1 op.toPath value =
            (deleteAtPath body op.fromPath).1 := by
          unfold setAtPath
          rw [hto]
          rfl
        rw [hunset]
        refine .inr ⟨?_, fun other _ hother => ?_⟩
        · show getSegments (segments op.toPath) _ = _
          rw [hto, ← hvalue, hleft]
          rfl
        · rw [hto] at hother
          exact absurd (.inl (within_nil body _)) hother
      · refine .inr ⟨get_setSegments hset value, fun other hfrom hother => ?_⟩
        have hto : segments op.toPath ≠ [] := by
          intro hnil
          rw [hnil] at hset
          exact hset
        rcases hstays with hstays | habove
        · show getSegments _ (setSegments _ value (deleteSegments _ body).1) = _
          rw [get_setSegments_other ((overlaps_deleteSegments hstays hfrom).not.mpr hother)]
          exact get_deleteSegments_last hstays hfrom
        · show getSegments _ (setSegments _ value (deleteSegments _ body).1) = _
          rw [setSegments_deleteSegments hto habove]
          exact get_setSegments_other hother value

theorem renameFits_of_keeps {body : Json} {op : OverrideOperation} (h : RenameKeeps body op) :
    RenameFits body op := by
  unfold RenameKeeps applyBodyRename at h
  unfold RenameFits
  cases hvalue : getAtPath body op.fromPath with
  | none => exact .inl rfl
  | some value =>
      rw [hvalue] at h
      dsimp only at h
      by_cases hroot : segments op.fromPath = []
      · exact .inr (.inl hroot)
      · have hdeleted : (deleteAtPath body op.fromPath).1 ≠ body := deleteSegments_ne hroot hvalue
        by_cases hset : CanSet (segments op.toPath) (deleteAtPath body op.fromPath).1
        · refine .inr (.inr (.inr ⟨hset, ?_⟩))
          by_cases hshift : Shifts (segments op.fromPath) body
          · by_cases habove : Within body (segments op.toPath) (segments op.fromPath).dropLast
            · exact .inr habove
            · -- the last element of the array is missed
              obtain ⟨q, hq, hmade, hfrom, hto, hthere, hgone⟩ :=
                exists_lost hshift hset habove value
              obtain ⟨other, rfl⟩ := exists_path hq hmade
              have hread : (getAtPath body other).isSome := hthere
              have hlost : getAtPath (setAtPath (deleteAtPath body op.fromPath).1 op.toPath value)
                  other = none := hgone
              rcases h with hsame | ⟨-, hframe⟩
              · rw [hsame] at hlost
                rw [hlost] at hread
                exact absurd hread (by simp)
              · rw [← hframe other hfrom hto, hlost] at hread
                exact absurd hread (by simp)
          · exact .inl hshift
        · -- the value is deleted and not set
          have hunset : setAtPath (deleteAtPath body op.fromPath).1 op.toPath value =
              (deleteAtPath body op.fromPath).1 := setSegments_of_not_canSet hset value
          rw [hunset] at h
          rcases h with hsame | ⟨hread, -⟩
          · exact absurd hsame hdeleted
          · by_cases hto : segments op.toPath = []
            · refine .inr (.inr (.inl ⟨hto, ?_⟩))
              rw [← hread]
              unfold getAtPath
              rw [hto]
              rfl
            · exact absurd (canSet_of_get hto hread) hset

/-- A rename keeps the value and what it does not overlap exactly where it
fits. -/
theorem renameKeeps_iff (body : Json) (op : OverrideOperation) :
    RenameKeeps body op ↔ RenameFits body op := ⟨renameFits_of_keeps, renameKeeps_of_fits⟩

/-! ## Copying -/

theorem length_resolve (value : Json) (p : List String) : (resolve value p).length = p.length := by
  induction p generalizing value with
  | nil => rfl
  | cons seg rest ih => exact congrArg (· + 1) (ih _)

theorem sizeOf_navigate {value child : Json} {seg : String}
    (h : navigateOneLevel value seg = some child) : sizeOf child < sizeOf value := by
  cases value with
  | array values =>
      obtain ⟨i, -, hget⟩ := Option.bind_eq_some_iff.mp h
      have hlt := List.sizeOf_lt_of_mem (List.mem_of_getElem? hget)
      rw [Json.array.sizeOf_spec]
      omega
  | object fields =>
      have hlt := List.sizeOf_lt_of_mem (Json.mem_of_field h)
      rw [Prod.mk.sizeOf_spec] at hlt
      rw [Json.object.sizeOf_spec]
      omega
  | _ => exact absurd h (by simp [navigateOneLevel])

/-- No value is found below itself. -/
theorem eq_nil_of_get_self {p : List String} {value : Json} (h : getSegments p value = some value) :
    p = [] := by
  have hsize : ∀ (p : List String) (v w : Json), getSegments p v = some w → sizeOf w ≤ sizeOf v := by
    intro p
    induction p with
    | nil =>
        intro v w hget
        rw [Option.some.inj hget]
    | cons seg rest ih =>
        intro v w hget
        obtain ⟨child, hchild, hrest⟩ := Option.bind_eq_some_iff.mp hget
        exact (ih child w hrest).trans (sizeOf_navigate hchild).le
  cases p with
  | nil => rfl
  | cons seg rest =>
      obtain ⟨child, hchild, hrest⟩ := Option.bind_eq_some_iff.mp h
      have hle := hsize rest child value hrest
      have hlt := sizeOf_navigate hchild
      omega

/-- Below where a value was set, what it holds is read. -/
theorem get_setSegments_below {a p : List String} {value : Json} (hset : CanSet a value)
    (h : Within value a p) (new : Json) :
    getSegments p (setSegments a new value) = getSegments (p.drop a.length) new := by
  induction a generalizing p value with
  | nil => exact hset.elim
  | cons s a ih =>
      cases p with
      | nil => exact absurd h (not_within_nil value s a)
      | cons t tail =>
          rw [within_cons] at h
          by_cases ha : a = []
          · subst ha
            show (navigateOneLevel (replaceChild value s new) t).bind _ = _
            rw [navigate_replaceChild_step hset h.1]
            rfl
          · obtain ⟨hholds, hcan⟩ := (canSet_cons ha s value).mp hset
            rcases setSegments_cons ha s new value with ⟨-, hgoes⟩ | ⟨hscalar, hnone, -⟩
            · rw [hgoes]
              show (navigateOneLevel (replaceChild value s _) t).bind _ = _
              rw [navigate_replaceChild_step hholds h.1]
              exact ih hcan h.2
            · rcases hholds with ⟨fields, hobject⟩ | hsome
              · exact absurd hobject (hscalar fields)
              · rw [hnone] at hsome
                exact absurd hsome (by simp)

/-- Above where a value is set, the rest of the path is set in what is read. -/
theorem get_setSegments_above {p a : List String} {value old : Json} (hset : CanSet a value)
    (h : Within value p a) (hlonger : p.length < a.length) (hget : getSegments p value = some old)
    (new : Json) :
    getSegments p (setSegments a new value) = some (setSegments (a.drop p.length) new old) ∧
      CanSet (a.drop p.length) old := by
  induction p generalizing a value with
  | nil =>
      rw [Option.some.inj hget] at hset ⊢
      exact ⟨rfl, hset⟩
  | cons t p ih =>
      cases a with
      | nil => exact hset.elim
      | cons s a =>
          rw [within_cons] at h
          have ha : a ≠ [] := by
            rintro rfl
            simp at hlonger
          obtain ⟨child, hchild, hrest⟩ := Option.bind_eq_some_iff.mp hget
          have hor : childOr value s = child := by
            unfold childOr
            rw [← navigate_congr h.1, hchild]
            rfl
          have hor' : childOr value t = child := by rw [childOr_congr h.1, hor]
          obtain ⟨hholds, hcan⟩ := (canSet_cons ha s value).mp hset
          rw [hor] at hcan
          rw [hor'] at h
          obtain ⟨hread, hrestSet⟩ := ih hcan h.2 (Nat.lt_of_succ_lt_succ hlonger) hrest
          refine ⟨?_, hrestSet⟩
          rcases setSegments_cons ha s new value with ⟨-, hgoes⟩ | ⟨-, hnone, -⟩
          · rw [hgoes, hor]
            show (navigateOneLevel (replaceChild value s _) t).bind _ = _
            rw [navigate_replaceChild_step hholds h.1.symm]
            exact hread
          · rw [← navigate_congr h.1, hchild] at hnone
            exact absurd hnone (by simp)

/-- A copy leaves its source and fills its target exactly where it fits. -/
theorem copyKeeps_iff (body : Json) (op : OverrideOperation) :
    CopyKeeps body op ↔ CopyFits body op := by
  unfold CopyKeeps CopyFits applyBodyCopy
  cases hvalue : getAtPath body op.fromPath with
  | none => exact iff_of_true ⟨hvalue, .inr rfl⟩ (.inl rfl)
  | some value =>
      dsimp only
      by_cases hset : CanSet (segments op.toPath) body
      · have hfilled : getAtPath (setAtPath body op.toPath value) op.toPath = some value :=
          get_setSegments hset value
        have hlengths := length_resolve body (segments op.fromPath)
        have hlengths' := length_resolve body (segments op.toPath)
        by_cases hover : Overlaps body (segments op.fromPath) (segments op.toPath)
        · -- one is above the other
          have hplaces : getAtPath (setAtPath body op.toPath value) op.fromPath = some value ↔
              resolve body (segments op.fromPath) = resolve body (segments op.toPath) := by
            constructor
            · intro hread
              rcases hover with habove | hbelow
              · by_cases hlonger : (segments op.fromPath).length < (segments op.toPath).length
                · obtain ⟨habove', hcan⟩ :=
                    get_setSegments_above hset habove hlonger hvalue value
                  have hself := Option.some.inj (hread.symm.trans habove')
                  have hback := get_setSegments hcan value
                  rw [← hself] at hback
                  have hnil := congrArg List.length (eq_nil_of_get_self hback)
                  rw [List.length_drop, List.length_nil] at hnil
                  omega
                · exact habove.eq_of_length_le (by omega)
              · have hsame := (get_setSegments_below hset hbelow value).symm.trans hread
                have hnil := congrArg List.length (eq_nil_of_get_self hsame)
                rw [List.length_drop, List.length_nil] at hnil
                exact (hbelow.eq_of_length_le (by omega)).symm
            · intro hsame
              have hbelow : Within body (segments op.toPath) (segments op.fromPath) := by
                unfold Within
                rw [hsame]
              have hdrop : (segments op.fromPath).drop (segments op.toPath).length = [] := by
                rw [List.drop_eq_nil_iff, ← hlengths, hsame, hlengths']
              refine (get_setSegments_below hset hbelow value).trans ?_
              rw [hdrop]
              rfl
          constructor
          · rintro ⟨hread, -⟩
            exact .inr (.inr (.inr (hplaces.mp hread)))
          · rintro (hnone | hcannot | hapart | hsame)
            · exact absurd hnone (by simp)
            · exact absurd hset hcannot
            · exact absurd hover hapart
            · exact ⟨hplaces.mpr hsame, .inl hfilled⟩
        · refine iff_of_true ⟨?_, .inl hfilled⟩ (.inr (.inr (.inl hover)))
          have hapart : ¬ Overlaps body (segments op.toPath) (segments op.fromPath) :=
            fun h => hover h.symm
          exact (get_setSegments_other hapart value).trans hvalue
      · have hunset : setAtPath body op.toPath value = body := setSegments_of_not_canSet hset value
        rw [hunset]
        exact iff_of_true ⟨hvalue, .inr rfl⟩ (.inr (.inl hset))

/-- Both operations do what they should exactly where they fit. -/
theorem moves_keep_iff (body : Json) (op : OverrideOperation) :
    (RenameKeeps body op ↔ RenameFits body op) ∧ (CopyKeeps body op ↔ CopyFits body op) :=
  ⟨renameKeeps_iff body op, copyKeeps_iff body op⟩

/-- The target is below a number: the value is deleted and not set. -/
theorem rename_loses_value :
    ¬ RenameKeeps (.object [("a", .int 1), ("b", .int 2)]) ⟨"", "a", "b.c"⟩ := by
  intro hkeeps
  have hfrom : segments "a" = ["a"] := by decide
  have hto : segments "b.c" = ["b", "c"] := by decide
  have hfits := renameFits_of_keeps hkeeps
  unfold RenameFits getAtPath deleteAtPath at hfits
  dsimp only at hfits
  rw [hfrom, hto] at hfits
  rcases hfits with hnone | hroot | ⟨hbody, -⟩ | ⟨hset, -⟩
  · exact absurd hnone (by simp [getSegments, navigateOneLevel])
  · exact absurd hroot (by simp)
  · exact absurd hbody (by simp)
  · simp [CanSet, HoldsChild, deleteSegments, removeChild, Json.remove, navigateOneLevel] at hset

end Conduit.Orchestrator.BodyOverride
