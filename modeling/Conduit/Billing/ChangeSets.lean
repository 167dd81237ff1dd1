import Conduit.Base.Framing
import Conduit.Base.TSys
import Conduit.Base.Text
import Conduit.Base.Transaction
import Mathlib

/-!
# Reviewed retail prices

Retail prices change through change sets only: an admin drafts one from the
published version of a price book, edits and submits it, and another approves
or rejects it. An approval publishes the set's items as the next version, in a
nested transaction, unless the book or the accounting settings have changed
since the draft was made; why it was not applied is committed all the same.

Any number of admins work on any number of books and sets. Each operation
locks the rows it decides on, so it is one transaction. The versions of a book
are what its applied sets publish one after the other (`Lineage`), and the
events of a set lead to its status (`replay`).
-/

namespace Conduit.Billing.ChangeSets

open Base Transaction Base.Text

/-! ## Rows -/

inductive ChangeSetStatus
  | draft
  | pendingReview
  | applied
  | rejected
  | superseded
  | invalid
  deriving DecidableEq, Repr

def ChangeSetStatus.text : ChangeSetStatus → String
  | draft => "draft"
  | pendingReview => "pending_review"
  | applied => "applied"
  | rejected => "rejected"
  | superseded => "superseded"
  | invalid => "invalid"

/-- No operation applies any more. -/
def ChangeSetStatus.closed : ChangeSetStatus → Bool
  | applied | rejected | superseded => true
  | _ => false

inductive EventType
  | created
  | itemSaved
  | submitted
  | applied
  | rejected
  | superseded
  | validationFailed
  deriving DecidableEq, Repr

inductive ChangeSetAction
  | create
  | update
  | delete
  deriving DecidableEq, Repr

structure ChangeSetItem (Price : Type) where
  itemKey : Nat
  action : ChangeSetAction
  beforeSnapshot : Option Price
  afterSnapshot : Option Price
  validationError : Option String := none

structure ChangeSet (Price : Type) where
  id : Nat
  scopeId : Nat
  status : ChangeSetStatus := .draft
  baseRevision : String
  sourceRevision : String
  appliedTarget : Option Nat := none
  validationError : Option String := none
  items : List (ChangeSetItem Price)
  events : List EventType

structure PriceBookVersion (Price : Type) where
  id : Nat
  version : Nat
  published : Bool
  referenceId : String
  items : List (Nat × Price)

structure PriceBook (Price : Type) where
  currency : String
  versions : List (PriceBookVersion Price) := []

structure PricingAuditSettings where
  currency : String
  version : Nat

/-- Change sets have their position as id; the settings may be unreadable. -/
structure Store (Price : Type) where
  settings : Except String PricingAuditSettings := .error ""
  models : List Nat := []
  books : Nat → Option (PriceBook Price) := fun _ => none
  changeSets : List (ChangeSet Price) := []
  nextVersionId : Nat := 0

/-- How the JSON of a model price is read, checked and written again, and how
many items it has. -/
structure PriceFormat (Price : Type) where
  parse : Price → Except String Price
  itemCount : Price → Nat

inductive ChangeSetError
  | query (message : String)
  | invalid (message : String)
  | storage (message : String)

inductive ApplyFailure
  | superseded (message : String)
  | invalid (message : String)
  | storage (message : String)

variable {Price : Type}

/-! ## Queries -/

/-- The published version with the highest number. -/
def publishedVersion (versions : List (PriceBookVersion Price)) : Option (PriceBookVersion Price) :=
  (versions.filter fun v => v.published).foldl
    (fun best v => if best.all fun b => b.version < v.version then some v else best) none

def currentReference (versions : List (PriceBookVersion Price)) : String :=
  ((publishedVersion versions).map PriceBookVersion.referenceId).getD ""

/-- `COALESCE(MAX(version),0)+1`. -/
def nextVersion (versions : List (PriceBookVersion Price)) : Nat :=
  (versions.map PriceBookVersion.version).foldr max 0 + 1

def referenceIdOf (bookId version : Nat) (micros : Int) : String :=
  "price-book-" ++ toString bookId ++ "-v" ++ toString version ++ "-" ++ toString micros

def PriceBookVersion.archive (v : PriceBookVersion Price) : PriceBookVersion Price :=
  { v with published := false }

namespace Store

def versionsOf (s : Store Price) (bookId : Nat) : List (PriceBookVersion Price) :=
  ((s.books bookId).map PriceBook.versions).getD []

/-- The newest set of a book in a status. -/
def latestOf (s : Store Price) (bookId : Nat) (status : ChangeSetStatus) : Option
    (ChangeSet Price) :=
  (s.changeSets.filter fun c => c.scopeId = bookId ∧ c.status = status).getLast?

def updateChangeSet (id : Nat) (f : ChangeSet Price → ChangeSet Price) (s : Store Price) :
    Store Price :=
  { s with changeSets := s.changeSets.modify id f }

end Store

/-! ## Operations -/

abbrev Tx (Price : Type) := Transaction (Store Price) ChangeSetError

/-- `SELECT ... FOR UPDATE`. -/
def lockChangeSet (id : Nat) : Tx Price (ChangeSet Price) := do
  let s ← read
  orAbort s.changeSets[id]? (.invalid ("change set " ++ toString id ++ " not found"))

def updateSet (id : Nat) (f : ChangeSet Price → ChangeSet Price) : Tx Price Unit :=
  write (Store.updateChangeSet id f)

/-- The items a draft starts with: the published prices of the models there
still are. -/
def draftItems (s : Store Price) (published : Option (PriceBookVersion Price)) :
    List (ChangeSetItem Price) :=
  match published with
  | none => []
  | some v =>
      (v.items.filter fun item => item.1 ∈ s.models).map fun item =>
        { itemKey := item.1
          action := .update
          beforeSnapshot := some item.2
          afterSnapshot := some item.2 }

def createRetailPriceChangeSet (bookId : Nat) : Tx Price Nat := do
  let s ← read
  let settings ← attempt (s.settings.mapError .invalid)
  let book ← orAbort (s.books bookId)
    (.invalid ("price book " ++ toString bookId ++ " not found"))
  require (eqIgnoreAsciiCase book.currency settings.currency = true)
    (.invalid ("price book currency " ++ book.currency ++ " does not match accounting currency " ++
      settings.currency))
  match s.latestOf bookId .pendingReview with
  | some pending =>
      abort (.invalid ("retail price change set " ++ toString pending.id ++ " is awaiting review"))
  | none =>
      match s.latestOf bookId .draft with
      | some existing => pure existing.id
      | none => do
          let published := publishedVersion book.versions
          write fun s =>
            { s with
              changeSets := s.changeSets ++
                [{ id := s.changeSets.length
                   scopeId := bookId
                   baseRevision := (published.map PriceBookVersion.referenceId).getD ""
                   sourceRevision := toString settings.version
                   items := draftItems s published
                   events := [.created] }] }
          pure s.changeSets.length

/-- The upsert of an item. -/
def saveItem (items : List (ChangeSetItem Price)) (itemKey : Nat) (after : Price) :
    List (ChangeSetItem Price) :=
  match items.find? fun item => item.itemKey = itemKey with
  | some existing =>
      let action := if existing.beforeSnapshot.isSome then .update else .create
      items.map fun item =>
        if item.itemKey = itemKey then
          { item with
            action := action
            afterSnapshot := some after
            validationError := none }
        else item
  | none =>
      items ++
        [{ itemKey := itemKey
           action := .create
           beforeSnapshot := none
           afterSnapshot := some after }]

/-- An item a submission counts. -/
def ChangeSetItem.complete (item : ChangeSetItem Price) : Bool :=
  item.validationError.isNone &&
    match item.action with
    | .delete => item.beforeSnapshot.isSome && item.afterSnapshot.isNone
    | .create | .update => item.afterSnapshot.isSome

def submitChangeSet (id : Nat) : Tx Price Nat := do
  let changeSet ← lockChangeSet id
  require (changeSet.status = .draft)
    (.invalid ("change set " ++ toString id ++ " is " ++ changeSet.status.text ++
      ", only drafts can be submitted"))
  require ((changeSet.items.filter ChangeSetItem.complete) ≠ [])
    (.invalid "an empty change set cannot be submitted")
  updateSet id fun c =>
    { c with
      status := .pendingReview
      events := c.events ++ [.submitted] }
  pure id

/-- `mark_reviewed` and its event. -/
def markReviewed (id : Nat) (status : ChangeSetStatus) (target : Option Nat) (event : EventType) :
    Tx Price Unit :=
  updateSet id fun c =>
    { c with
      status := status
      validationError := none
      appliedTarget := target
      events := c.events ++ [event] }

/-- `mark_invalid` and its event. -/
def markInvalid (id : Nat) (message : String) : Tx Price Unit :=
  updateSet id fun c =>
    { c with
      status := .invalid
      validationError := some message
      appliedTarget := none
      events := c.events ++ [.validationFailed] }

def rejectChangeSet (id : Nat) : Tx Price Nat := do
  let changeSet ← lockChangeSet id
  require (changeSet.status = .pendingReview ∨ changeSet.status = .invalid)
    (.invalid ("change set " ++ toString id ++ " is " ++ changeSet.status.text ++
      ", only pending or invalid change sets can be rejected"))
  markReviewed id .rejected none .rejected
  pure id

section Format

variable (format : PriceFormat Price)

def saveRetailPriceChangeSetItem (changeSetId publicModelId : Nat) (price : Price) :
    Tx Price Nat := do
  let after ← attempt
    ((format.parse price).mapError fun error => .invalid ("invalid model price: " ++ error))
  require (format.itemCount after ≠ 0) (.invalid "a retail price must contain at least one item")
  let changeSet ← lockChangeSet changeSetId
  require (changeSet.status = .draft)
    (.invalid "only a draft retail-price change set can be edited")
  let s ← read
  require (publicModelId ∈ s.models)
    (.invalid ("public model " ++ toString publicModelId ++ " not found"))
  updateSet changeSetId fun c =>
    { c with
      items := saveItem c.items publicModelId after
      events := c.events ++ [.itemSaved] }
  pure changeSetId

/-- One round of the loop that validates the items of an approved set. -/
def validateItem (models : List Nat) (item : ChangeSetItem Price) :
    Except ApplyFailure (Nat × Price) :=
  match item.afterSnapshot with
  | none => .error (.invalid "retail price is missing")
  | some price =>
      match format.parse price with
      | .error e => .error (.invalid ("invalid retail price: " ++ e))
      | .ok parsed =>
          if format.itemCount parsed = 0 then
            .error (.invalid ("retail price for model " ++ toString item.itemKey ++ " is empty"))
          else if item.itemKey ∉ models then
            .error (.invalid ("public model " ++ toString item.itemKey ++ " not found"))
          else .ok (item.itemKey, price)

def applyRetailPrice (changeSet : ChangeSet Price) (micros : Int) :
    Transaction (Store Price) ApplyFailure Nat := do
  let s ← read
  let settings ← attempt (s.settings.mapError .invalid)
  require (changeSet.sourceRevision = toString settings.version)
    (.superseded ("retail prices used accounting settings version " ++ changeSet.sourceRevision ++
      ", current version is " ++ toString settings.version))
  let book ← orAbort (s.books changeSet.scopeId)
    (.invalid ("price book " ++ toString changeSet.scopeId ++ " not found"))
  require (eqIgnoreAsciiCase book.currency settings.currency = true)
    (.invalid ("price book currency " ++ book.currency ++ " does not match accounting currency " ++
      settings.currency))
  require (currentReference book.versions = changeSet.baseRevision)
    (.superseded "the published retail price version changed after this change set was created")
  require (changeSet.items ≠ []) (.invalid "cannot apply an empty retail price change set")
  let validated ← attempt (changeSet.items.mapM (validateItem format s.models))
  let version := nextVersion book.versions
  write fun s =>
    { s with
      books := Function.update s.books changeSet.scopeId
        (some { book with
          versions := book.versions.map PriceBookVersion.archive ++
            [{ id := s.nextVersionId
               version := version
               published := true
               referenceId := referenceIdOf changeSet.scopeId version micros
               items := validated }] })
      nextVersionId := s.nextVersionId + 1 }
  pure s.nextVersionId

/-- The inner result is the response to a committed approval. -/
def approveChangeSet (id : Nat) (micros : Int) : Tx Price (Except ChangeSetError Nat) := do
  let changeSet ← lockChangeSet id
  require (changeSet.status = .pendingReview)
    (.invalid ("change set " ++ toString id ++ " is " ++ changeSet.status.text ++
      ", only pending change sets can be approved"))
  let s ← read
  match applyRetailPrice format changeSet micros s with
  | .ok (target, applied) => do
      write fun _ => applied
      markReviewed id .applied (some target) .applied
      pure (.ok id)
  | .error (.superseded message) => do
      markReviewed id .superseded none .superseded
      pure (.error (.invalid message))
  | .error (.invalid message) => do
      markInvalid id message
      pure (.error (.invalid message))
  | .error (.storage message) => abort (.storage message)

/-! ## Runs -/

/-- What admins do, and what changes around them. -/
inductive Action (Price : Type)
  | create (bookId : Nat)
  | save (changeSetId publicModelId : Nat) (price : Price)
  | submit (id : Nat)
  | approve (id : Nat) (micros : Int)
  | reject (id : Nat)
  | setSettings (settings : Except String PricingAuditSettings)
  | setModels (models : List Nat)
  | setBook (bookId : Nat) (currency : String)

/-- A price book is made or gets another currency. -/
def Store.setBook (bookId : Nat) (currency : String) (s : Store Price) : Store Price :=
  { s with
    books := Function.update s.books bookId
      (some { currency := currency
              versions := s.versionsOf bookId }) }

def Store.step (s : Store Price) : Action Price → Store Price
  | .create bookId => (createRetailPriceChangeSet bookId).commit s
  | .save changeSetId publicModelId price =>
      (saveRetailPriceChangeSetItem format changeSetId publicModelId price).commit s
  | .submit id => (submitChangeSet id).commit s
  | .approve id micros => (approveChangeSet format id micros).commit s
  | .reject id => (rejectChangeSet id).commit s
  | .setSettings settings => { s with settings := settings }
  | .setModels models => { s with models := models }
  | .setBook bookId currency => s.setBook bookId currency

def system : TSys (Store Price) (Action Price) where
  init := {}
  step := Store.step format

end Format

end Conduit.Billing.ChangeSets

/-!
## Reviews and lineages of prices

What one operation does to a change set is an event of the review workflow,
and what a review does to a price book is the next version of its lineage.
Both are kept by every operation, so they hold after every run.
-/

namespace Conduit.Billing.ChangeSets

open Base Transaction

variable {Price : Type}

/-! ## Reviews -/

/-- The transitions of the review workflow. -/
def ChangeSetStatus.next : ChangeSetStatus → EventType → Option ChangeSetStatus
  | .draft, .itemSaved => some .draft
  | .draft, .submitted => some .pendingReview
  | .pendingReview, .applied => some .applied
  | .pendingReview, .superseded => some .superseded
  | .pendingReview, .validationFailed => some .invalid
  | .pendingReview, .rejected => some .rejected
  | .invalid, .rejected => some .rejected
  | _, _ => none

/-- The status that a list of events leads to, if the workflow allows it. -/
def replay : List EventType → Option ChangeSetStatus
  | .created :: events => events.foldlM ChangeSetStatus.next .draft
  | _ => none

theorem replay_concat {events : List EventType} {status : ChangeSetStatus}
    (h : replay events = some status) (event : EventType) :
    replay (events ++ [event]) = status.next event := by
  cases events with
  | nil => cases h
  | cons first rest =>
      cases first with
      | created =>
          have hrest : rest.foldlM ChangeSetStatus.next .draft = some status := h
          show (rest ++ [event]).foldlM ChangeSetStatus.next .draft = _
          rw [List.foldlM_append, hrest]
          simp
      | itemSaved => cases h
      | submitted => cases h
      | applied => cases h
      | rejected => cases h
      | superseded => cases h
      | validationFailed => cases h

/-- A set later on: its history only grows, its items stay as they were
submitted, and a closed set does not change at all. -/
structure Advances (c c' : ChangeSet Price) : Prop where
  id : c'.id = c.id
  scopeId : c'.scopeId = c.scopeId
  baseRevision : c'.baseRevision = c.baseRevision
  events : c.events <+: c'.events
  submitted : c.status ≠ .draft → c'.status ≠ .draft ∧ c'.items = c.items
  closed : c.status.closed = true → c' = c

theorem Advances.refl (c : ChangeSet Price) : Advances c c :=
  ⟨rfl, rfl, rfl, List.prefix_rfl, fun h => ⟨h, rfl⟩, fun _ => rfl⟩

theorem Advances.trans {a b c : ChangeSet Price} (hab : Advances a b) (hbc : Advances b c) :
    Advances a c where
  id := hbc.id.trans hab.id
  scopeId := hbc.scopeId.trans hab.scopeId
  baseRevision := hbc.baseRevision.trans hab.baseRevision
  events := hab.events.trans hbc.events
  submitted h := by
    obtain ⟨hstatus, hitems⟩ := hab.submitted h
    obtain ⟨hstatus', hitems'⟩ := hbc.submitted hstatus
    exact ⟨hstatus', hitems'.trans hitems⟩
  closed h := by
    obtain rfl := hab.closed h
    exact hbc.closed h

/-! ## Lineages -/

/-- The versions that sets publish one after the other: each is drafted from
the version before it and has exactly its items. -/
inductive Lineage (bookId : Nat) :
    List (ChangeSet Price) → List (PriceBookVersion Price) → Prop
  | nil : Lineage bookId [] []
  | publish {sets : List (ChangeSet Price)} {versions : List (PriceBookVersion Price)}
      {c : ChangeSet Price} {v : PriceBookVersion Price} (before : Lineage bookId sets versions)
      (drafted : c.baseRevision = currentReference versions)
      (target : c.appliedTarget = some v.id)
      (items : v.items.map (fun item => (item.1, some item.2)) =
        c.items.map fun item => (item.itemKey, item.afterSnapshot))
      (published : v.published = true)
      (number : v.version = nextVersion versions)
      (reference : ∃ micros : Int, v.referenceId = referenceIdOf bookId v.version micros) :
      Lineage bookId (sets ++ [c]) (versions.map PriceBookVersion.archive ++ [v])

/-- The versions are numbered from 1, and only the last one is published. -/
theorem Lineage.numbered {bookId : Nat} {sets : List (ChangeSet Price)}
    {versions : List (PriceBookVersion Price)} (h : Lineage bookId sets versions) :
    versions.map PriceBookVersion.version = List.range' 1 versions.length ∧
      versions.map PriceBookVersion.published =
        (List.range versions.length).map fun i => decide (i + 1 = versions.length) := by
  induction h with
  | nil => exact ⟨rfl, rfl⟩
  | @publish sets versions c v _ _ _ _ hpublished hnumber _ ih =>
      have hmax : ∀ n start : Nat, (List.range' (start + 1) n).foldr max 0 =
          if n = 0 then 0 else start + n := by
        intro n
        induction n with
        | zero => exact fun _ => rfl
        | succ n ihn =>
            intro start
            rw [List.range'_succ, List.foldr_cons, ihn (start + 1)]
            by_cases hn : n = 0
            · simp [hn]
            · rw [if_neg hn, if_neg (Nat.succ_ne_zero n)]
              omega
      have hnext : v.version = versions.length + 1 := by
        rw [hnumber]
        unfold nextVersion
        rw [ih.1, hmax versions.length 0]
        by_cases hlength : versions.length = 0
        · simp [hlength]
        · rw [if_neg hlength]
          omega
      have harchive : (versions.map PriceBookVersion.archive).map PriceBookVersion.version =
          versions.map PriceBookVersion.version := by
        rw [List.map_map]
        rfl
      have hhidden : (versions.map PriceBookVersion.archive).map PriceBookVersion.published =
          (List.range versions.length).map fun _ => false := by
        rw [List.map_map, List.map_const', List.length_range]
        exact List.map_const'
      constructor
      · rw [List.map_append, harchive, ih.1, List.length_append, List.length_map,
          List.length_singleton, List.range'_concat, List.map_singleton, hnext]
        simp [Nat.add_comm]
      · rw [List.map_append, hhidden, List.length_append, List.length_map, List.length_singleton,
          List.range_succ, List.map_append, List.map_singleton, List.map_singleton, hpublished]
        congr 1
        · refine List.map_congr_left fun i hi => ?_
          have := List.mem_range.mp hi
          simp
          omega
        · simp

/-- The number of a version is read back from its reference. -/
theorem version_of_referenceId {bookId version version' : Nat} {micros micros' : Int}
    (h : referenceIdOf bookId version micros = referenceIdOf bookId version' micros') :
    version = version' := by
  have hdash : ∀ n : Nat, '-' ∉ (toString n).toList := by
    intro n hmem
    have htext : (toString n).toList = Nat.toDigits 10 n := Nat.toList_repr
    rw [htext] at hmem
    have hdigit := Nat.isDigit_of_mem_toDigits (by decide) (by decide) hmem
    exact absurd hdigit (by decide)
  have hinjective : ∀ a b : Nat, (toString a).toList = (toString b).toList → a = b := by
    intro a b hab
    have htext : toString a = toString b := String.toList_inj.mp hab
    exact Nat.repr_injective htext
  have hself : SelfDelimiting (fun _ : Nat => True) fun n => (toString n).toList ++ ['-'] :=
    SelfDelimiting.terminated (fun a b _ _ hab => hinjective a b hab) fun a _ => hdash a
  have hchars := congrArg String.toList h
  unfold referenceIdOf at hchars
  simp only [String.toList_append, List.append_assoc] at hchars
  have htail := List.append_cancel_left (List.append_cancel_left (List.append_cancel_left hchars))
  refine (hself version version' trivial trivial (toString micros).toList
    (toString micros').toList ?_).1
  simpa using htail

/-- No two versions of a book have one reference, so a draft tells which
version it was made from. -/
theorem Lineage.references {bookId : Nat} {sets : List (ChangeSet Price)}
    {versions : List (PriceBookVersion Price)} (h : Lineage bookId sets versions) :
    (versions.map PriceBookVersion.referenceId).Nodup := by
  have hall : ∀ v ∈ versions, ∃ micros : Int, v.referenceId =
    referenceIdOf bookId v.version micros := by
    induction h with
    | nil => exact fun v hv => absurd hv List.not_mem_nil
    | publish _ _ _ _ _ _ reference ih =>
        intro v hv
        rcases List.mem_append.mp hv with hold | hnew
        · obtain ⟨w, hw, rfl⟩ := List.mem_map.mp hold
          exact ih w hw
        · rw [List.mem_singleton.mp hnew]
          exact reference
  have hnumbers : (versions.map PriceBookVersion.version).Nodup := by
    rw [h.numbered.1]
    exact List.nodup_range'
  unfold List.Nodup at hnumbers ⊢
  rw [List.pairwise_map] at hnumbers ⊢
  refine List.Pairwise.imp_of_mem ?_ hnumbers
  intro v w hv hw hne hsame
  obtain ⟨micros, hvref⟩ := hall v hv
  obtain ⟨micros', hwref⟩ := hall w hw
  rw [hvref, hwref] at hsame
  exact hne (version_of_referenceId hsame)

/-! ## The invariant -/

/-- Every set is where its events lead, and the applied sets of a book are
the lineage of its versions. -/
structure Reviewed (s : Store Price) : Prop where
  ids : ∀ (i : Nat) (c : ChangeSet Price), s.changeSets[i]? = some c → c.id = i
  replayed : ∀ c ∈ s.changeSets, replay c.events = some c.status
  lineage : ∀ bookId : Nat, ∃ sets : List (ChangeSet Price), Lineage bookId sets
    (s.versionsOf bookId) ∧
    (sets.map ChangeSet.id).Nodup ∧
    ∀ c : ChangeSet Price, c ∈ sets ↔ c ∈ s.changeSets ∧ c.scopeId = bookId ∧ c.status = .applied

/-- Every set of a store is found again, further on. -/
def Store.Advances (s s' : Store Price) : Prop :=
  ∀ (i : Nat) (c : ChangeSet Price), s.changeSets[i]? = some c →
    ∃ c' : ChangeSet Price, s'.changeSets[i]? = some c' ∧ ChangeSets.Advances c c'

theorem Store.Advances.refl (s : Store Price) : s.Advances s :=
  fun _ c hc => ⟨c, hc, ChangeSets.Advances.refl c⟩

theorem Store.Advances.trans {s s' s'' : Store Price} (h : s.Advances s') (h' : s'.Advances s'') :
    s.Advances s'' := by
  intro i c hc
  obtain ⟨c', hc', hadvance⟩ := h i c hc
  obtain ⟨c'', hc'', hadvance'⟩ := h' i c' hc'
  exact ⟨c'', hc'', hadvance.trans hadvance'⟩

theorem Reviewed.getElem?_id {s : Store Price} (h : Reviewed s) {c : ChangeSet Price}
    (hc : c ∈ s.changeSets) : s.changeSets[c.id]? = some c := by
  obtain ⟨i, hi⟩ := List.mem_iff_getElem?.mp hc
  rwa [h.ids i c hi]

/-- A store with the same sets and versions. -/
theorem Reviewed.congr {s s' : Store Price} (h : Reviewed s) (hsets : s'.changeSets = s.changeSets)
    (hbooks : ∀ bookId, s'.versionsOf bookId = s.versionsOf bookId) :
    Reviewed s' ∧ s.Advances s' := by
  refine ⟨⟨?_, ?_, ?_⟩, ?_⟩
  · rw [hsets]
    exact h.ids
  · rw [hsets]
    exact h.replayed
  · intro bookId
    rw [hsets, hbooks]
    exact h.lineage bookId
  · intro i c hc
    exact ⟨c, hsets ▸ hc, .refl c⟩

section Update

variable {s s' : Store Price} {id : Nat} {c c' : ChangeSet Price}

theorem getElem?_updated (hc : s.changeSets[id]? = some c)
    (hsets : s'.changeSets = s.changeSets.set id c') (i : Nat) :
    s'.changeSets[i]? = if i = id then some c' else s.changeSets[i]? := by
  have hlength := (List.getElem?_eq_some_iff.mp hc).1
  rw [hsets, List.getElem?_set]
  by_cases hi : i = id
  · rw [if_pos hi, if_pos hi.symm, if_pos hlength]
  · rw [if_neg hi, if_neg (Ne.symm hi)]

theorem Store.Advances.update (hc : s.changeSets[id]? = some c)
    (hsets : s'.changeSets = s.changeSets.set id c') (hadvance : ChangeSets.Advances c c') :
    s.Advances s' := by
  intro i d hd
  rw [getElem?_updated hc hsets]
  by_cases hi : i = id
  · subst hi
    rw [hc, Option.some.injEq] at hd
    exact ⟨c', if_pos rfl, hd ▸ hadvance⟩
  · exact ⟨d, by rw [if_neg hi, hd], .refl d⟩

/-- The sets after one of them has changed. -/
theorem mem_updated (h : Reviewed s) (hc : s.changeSets[id]? = some c)
    (hsets : s'.changeSets = s.changeSets.set id c') (d : ChangeSet Price) :
    d ∈ s'.changeSets ↔ d = c' ∨ d ∈ s.changeSets ∧ d.id ≠ id := by
  simp only [List.mem_iff_getElem?, getElem?_updated hc hsets]
  constructor
  · rintro ⟨i, hi⟩
    by_cases heq : i = id
    · rw [if_pos heq, Option.some.injEq] at hi
      exact .inl hi.symm
    · rw [if_neg heq] at hi
      exact .inr ⟨⟨i, hi⟩, by rwa [h.ids i d hi]⟩
  · rintro (rfl | ⟨⟨i, hi⟩, hne⟩)
    · exact ⟨id, if_pos rfl⟩
    · have heq := h.ids i d hi
      exact ⟨i, by rwa [if_neg (heq ▸ hne)]⟩

/-- A set that was not applied moves on along the workflow. -/
theorem Reviewed.update (h : Reviewed s) (hc : s.changeSets[id]? = some c)
    (hsets : s'.changeSets = s.changeSets.set id c') (hid : c'.id = c.id)
    (hreplay : replay c'.events = some c'.status)
    (hlineage : ∀ bookId : Nat, ∃ sets : List (ChangeSet Price),
      Lineage bookId sets (s'.versionsOf bookId) ∧ (sets.map ChangeSet.id).Nodup ∧
      ∀ d : ChangeSet Price, d ∈ sets ↔ (d = c' ∨ d ∈ s.changeSets ∧ d.id ≠ id) ∧ d.scopeId =
        bookId ∧
        d.status = .applied) :
    Reviewed s' := by
  refine ⟨?_, ?_, ?_⟩
  · intro i d hd
    rw [getElem?_updated hc hsets] at hd
    by_cases hi : i = id
    · rw [if_pos hi, Option.some.injEq] at hd
      rw [← hd, hid, h.ids id c hc, hi]
    · rw [if_neg hi] at hd
      exact h.ids i d hd
  · intro d hd
    rcases (mem_updated h hc hsets d).mp hd with rfl | ⟨hd, _⟩
    · exact hreplay
    · exact h.replayed d hd
  · intro bookId
    obtain ⟨sets, hline, hnodup, hmem⟩ := hlineage bookId
    exact ⟨sets, hline, hnodup, fun d => by rw [hmem, mem_updated h hc hsets]⟩

/-- A step of the workflow that publishes nothing. -/
theorem Reviewed.advance (h : Reviewed s) (hc : s.changeSets[id]? = some c)
    (hsets : s'.changeSets = s.changeSets.set id c') (hid : c'.id = c.id)
    (hreplay : replay c'.events = some c'.status) (hbefore : c.status ≠ .applied)
    (hafter : c'.status ≠ .applied)
    (hbooks : ∀ bookId, s'.versionsOf bookId = s.versionsOf bookId) : Reviewed s' := by
  refine h.update hc hsets hid hreplay fun bookId => ?_
  obtain ⟨sets, hline, hnodup, hmem⟩ := h.lineage bookId
  refine ⟨sets, hbooks bookId ▸ hline, hnodup, fun d => ?_⟩
  rw [hmem]
  constructor
  · rintro ⟨hd, hscope, happlied⟩
    refine ⟨.inr ⟨hd, ?_⟩, hscope, happlied⟩
    intro hsame
    have hself := h.getElem?_id hd
    rw [hsame, hc, Option.some.injEq] at hself
    exact hbefore (hself ▸ happlied)
  · rintro ⟨rfl | ⟨hd, _⟩, hscope, happlied⟩
    · exact absurd happlied hafter
    · exact ⟨hd, hscope, happlied⟩

end Update

/-! ## Operations -/

theorem next_open {status after : ChangeSetStatus} {event : EventType}
    (h : status.next event = some after) :
    status.closed = false ∧ status ≠ .applied ∧ (status ≠ .draft → after ≠ .draft) := by
  cases status with
  | draft => exact ⟨rfl, by simp, by simp⟩
  | pendingReview =>
      have hafter : after ≠ .draft := by
        rintro rfl
        cases event <;> cases h
      exact ⟨rfl, by simp, fun _ => hafter⟩
  | invalid =>
      have hafter : after ≠ .draft := by
        rintro rfl
        cases event <;> cases h
      exact ⟨rfl, by simp, fun _ => hafter⟩
  | applied => cases event <;> cases h
  | rejected => cases event <;> cases h
  | superseded => cases event <;> cases h

theorem updateChangeSet_changeSets {s : Store Price} {id : Nat} {c : ChangeSet Price}
    (hc : s.changeSets[id]? = some c) (f : ChangeSet Price → ChangeSet Price) :
    (s.updateChangeSet id f).changeSets = s.changeSets.set id (f c) := by
  show s.changeSets.modify id f = _
  rw [List.modify_eq_set_getElem?, hc]
  rfl

/-- A set as an event of the workflow leaves it. -/
structure Moves (event : EventType) (c c' : ChangeSet Price) : Prop where
  id : c'.id = c.id
  scopeId : c'.scopeId = c.scopeId
  baseRevision : c'.baseRevision = c.baseRevision
  events : c'.events = c.events ++ [event]
  next : c.status.next event = some c'.status
  items : c.status ≠ .draft → c'.items = c.items

section Moves

variable {s s' : Store Price} {id : Nat} {event : EventType} {c c' : ChangeSet Price}

theorem Moves.advances (h : Moves event c c') : Advances c c' where
  id := h.id
  scopeId := h.scopeId
  baseRevision := h.baseRevision
  events := ⟨[event], h.events.symm⟩
  submitted hstatus := ⟨(next_open h.next).2.2 hstatus, h.items hstatus⟩
  closed hclosed := absurd hclosed (by simp [(next_open h.next).1])

theorem Moves.replay (h : Moves event c c') (hreplay : replay c.events = some c.status) :
    replay c'.events = some c'.status := by
  rw [h.events, replay_concat hreplay, h.next]

theorem Reviewed.move (h : Reviewed s) (hc : s.changeSets[id]? = some c)
    {f : ChangeSet Price → ChangeSet Price} (hmove : Moves event c (f c))
    (hafter : (f c).status ≠ .applied) :
    Reviewed (s.updateChangeSet id f) ∧ s.Advances (s.updateChangeSet id f) := by
  have hsets := updateChangeSet_changeSets hc f
  have hreplay := hmove.replay (h.replayed c (List.mem_of_getElem? hc))
  exact ⟨h.advance hc hsets hmove.id hreplay (next_open hmove.next).2.1 hafter fun _ => rfl,
    .update hc hsets hmove.advances⟩

/-- A set is applied: its book gets the next version. -/
theorem Reviewed.publish (h : Reviewed s) (hc : s.changeSets[id]? = some c)
    (v : PriceBookVersion Price) (hsame : s'.changeSets = s.changeSets)
    {f : ChangeSet Price → ChangeSet Price} (hmove : Moves .applied c (f c))
    (happlied : (f c).status = .applied)
    (hdrafted : c.baseRevision = currentReference (s.versionsOf c.scopeId))
    (htarget : (f c).appliedTarget = some v.id)
    (hitems : v.items.map (fun item => (item.1, some item.2)) =
      c.items.map fun item => (item.itemKey, item.afterSnapshot))
    (hpublished : v.published = true) (hnumber : v.version = nextVersion (s.versionsOf c.scopeId))
    (hreference : ∃ micros : Int, v.referenceId = referenceIdOf c.scopeId v.version micros)
    (hversions : s'.versionsOf c.scopeId =
      (s.versionsOf c.scopeId).map PriceBookVersion.archive ++ [v])
    (hothers : ∀ bookId, bookId ≠ c.scopeId → s'.versionsOf bookId = s.versionsOf bookId) :
    Reviewed (s'.updateChangeSet id f) ∧ s.Advances (s'.updateChangeSet id f) := by
  have hsets : (s'.updateChangeSet id f).changeSets = s.changeSets.set id (f c) := by
    rw [updateChangeSet_changeSets (hsame ▸ hc) f, hsame]
  have hreplay := hmove.replay (h.replayed c (List.mem_of_getElem? hc))
  have hopen := (next_open hmove.next).2.1
  have hcid := h.ids id c hc
  -- an applied set is another one than this
  have hother : ∀ d ∈ s.changeSets, d.status = .applied → d.id ≠ id := by
    intro d hd hstatus hsame
    have hself := h.getElem?_id hd
    rw [hsame, hc, Option.some.injEq] at hself
    exact hopen (hself ▸ hstatus)
  refine ⟨h.update hc hsets hmove.id hreplay fun bookId => ?_, .update hc hsets hmove.advances⟩
  obtain ⟨sets, hline, hnodup, hmem⟩ := h.lineage bookId
  by_cases hbook : bookId = c.scopeId
  · subst hbook
    have hstatus : c.status ≠ .draft := by
      intro hdraft
      have hnext := hmove.next
      rw [hdraft] at hnext
      cases hnext
    refine ⟨sets ++ [f c], ?_, ?_, ?_⟩
    · show Lineage c.scopeId _ (s'.versionsOf c.scopeId)
      rw [hversions]
      refine .publish hline
        (hmove.baseRevision.trans hdrafted) htarget ?_ hpublished hnumber hreference
      rw [hitems, hmove.items hstatus]
    · rw [List.map_append, List.nodup_append]
      refine ⟨hnodup, by simp, ?_⟩
      intro a ha b hb hsame
      obtain ⟨d, hd, rfl⟩ := List.mem_map.mp ha
      obtain ⟨hin, _, hdapplied⟩ := (hmem d).mp hd
      rw [List.map_singleton, List.mem_singleton] at hb
      exact hother d hin hdapplied (hsame.trans (hb.trans (hmove.id.trans hcid)))
    · intro d
      rw [List.mem_append, List.mem_singleton, hmem]
      constructor
      · rintro (⟨hd, hscope, hdapplied⟩ | rfl)
        · exact ⟨.inr ⟨hd, hother d hd hdapplied⟩, hscope, hdapplied⟩
        · exact ⟨.inl rfl, hmove.scopeId, happlied⟩
      · rintro ⟨rfl | ⟨hd, _⟩, hscope, hdapplied⟩
        · exact .inr rfl
        · exact .inl ⟨hd, hscope, hdapplied⟩
  · refine ⟨sets, hothers bookId hbook ▸ hline, hnodup, fun d => ?_⟩
    rw [hmem]
    constructor
    · rintro ⟨hd, hscope, hdapplied⟩
      exact ⟨.inr ⟨hd, hother d hd hdapplied⟩, hscope, hdapplied⟩
    · rintro ⟨rfl | ⟨hd, _⟩, hscope, hdapplied⟩
      · exact absurd (hmove.scopeId.symm.trans hscope).symm hbook
      · exact ⟨hd, hscope, hdapplied⟩

end Moves

/-- What a committed operation keeps. -/
def Sound {ε α : Type} (t : Transaction (Store Price) ε α) : Prop :=
  ∀ s a s', Commits t s a s' → Reviewed s → Reviewed s' ∧ s.Advances s'

theorem commits_lockChangeSet {id : Nat} {s s' : Store Price} {c : ChangeSet Price} :
    Commits (lockChangeSet id) s c s' ↔ s.changeSets[id]? = some c ∧ s = s' := by
  unfold lockChangeSet
  simp only [commits_bind, commits_read, commits_orAbort]
  constructor
  · rintro ⟨a, s₁, ⟨rfl, rfl⟩, hc, rfl⟩
    exact ⟨hc, rfl⟩
  · rintro ⟨hc, rfl⟩
    exact ⟨s, s, ⟨rfl, rfl⟩, hc, rfl⟩

theorem sound_submit (id : Nat) : Sound (submitChangeSet id : Tx Price Nat) := by
  intro s a s' h hs
  unfold submitChangeSet updateSet at h
  simp only [commits_bind, commits_lockChangeSet, commits_require, commits_write, commits_pure] at h
  obtain ⟨c, _, ⟨hc, rfl⟩, _, _, ⟨hdraft, rfl⟩, _, _, ⟨_, rfl⟩, _, _, rfl, _, rfl⟩ := h
  exact hs.move hc ⟨rfl, rfl, rfl, rfl, by rw [hdraft]; rfl, fun _ => rfl⟩ (by simp)

theorem sound_reject (id : Nat) : Sound (rejectChangeSet id : Tx Price Nat) := by
  intro s a s' h hs
  unfold rejectChangeSet markReviewed updateSet at h
  simp only [commits_bind, commits_lockChangeSet, commits_require, commits_write, commits_pure] at h
  obtain ⟨c, _, ⟨hc, rfl⟩, _, _, ⟨hstatus, rfl⟩, _, _, rfl, _, rfl⟩ := h
  have hnext : c.status.next .rejected = some .rejected := by
    rcases hstatus with hpending | hinvalid
    · rw [hpending]
      rfl
    · rw [hinvalid]
      rfl
  exact hs.move hc ⟨rfl, rfl, rfl, rfl, hnext, fun _ => rfl⟩ (by simp)

theorem sound_save (format : PriceFormat Price) (changeSetId publicModelId : Nat) (price : Price) :
    Sound (saveRetailPriceChangeSetItem format changeSetId publicModelId price) := by
  intro s a s' h hs
  unfold saveRetailPriceChangeSetItem updateSet at h
  simp only [commits_bind, commits_lockChangeSet, commits_require, commits_write, commits_pure,
    commits_attempt, commits_read] at h
  obtain ⟨after, _, ⟨_, rfl⟩, _, _, ⟨_, rfl⟩, c, _, ⟨hc, rfl⟩, _, _, ⟨hdraft, rfl⟩, _, _,
    ⟨rfl, rfl⟩, _, _, ⟨_, rfl⟩, _, _, rfl, _, rfl⟩ := h
  have hnext : c.status.next .itemSaved = some c.status := by
    rw [hdraft]
    rfl
  exact hs.move hc ⟨rfl, rfl, rfl, rfl, hnext, fun hnot => absurd hdraft hnot⟩ (by simp [hdraft])

/-- A new draft. -/
theorem Reviewed.draft {s s' : Store Price} (h : Reviewed s) {c : ChangeSet Price}
    (hsets : s'.changeSets = s.changeSets ++ [c]) (hid : c.id = s.changeSets.length)
    (hstatus : c.status = .draft) (hevents : c.events = [.created])
    (hbooks : ∀ bookId, s'.versionsOf bookId = s.versionsOf bookId) :
    Reviewed s' ∧ s.Advances s' := by
  have hget (i : Nat) : s'.changeSets[i]? =
      if i < s.changeSets.length then s.changeSets[i]? else [c][i - s.changeSets.length]? := by
    rw [hsets, List.getElem?_append]
  refine ⟨⟨?_, ?_, ?_⟩, ?_⟩
  · intro i d hd
    rw [hget] at hd
    by_cases hi : i < s.changeSets.length
    · rw [if_pos hi] at hd
      exact h.ids i d hd
    · rw [if_neg hi] at hd
      rw [List.getElem?_singleton] at hd
      by_cases hzero : i - s.changeSets.length = 0
      · rw [if_pos hzero, Option.some.injEq] at hd
        rw [← hd, hid]
        omega
      · rw [if_neg hzero] at hd
        cases hd
  · intro d hd
    rw [hsets, List.mem_append, List.mem_singleton] at hd
    rcases hd with hd | rfl
    · exact h.replayed d hd
    · rw [hstatus, hevents]
      rfl
  · intro bookId
    obtain ⟨sets, hline, hnodup, hmem⟩ := h.lineage bookId
    refine ⟨sets, hbooks bookId ▸ hline, hnodup, fun d => ?_⟩
    rw [hmem, hsets, List.mem_append, List.mem_singleton]
    constructor
    · rintro ⟨hd, hrest⟩
      exact ⟨.inl hd, hrest⟩
    · rintro ⟨hd | rfl, hscope, happlied⟩
      · exact ⟨hd, hscope, happlied⟩
      · rw [hstatus] at happlied
        cases happlied
  · intro i d hd
    refine ⟨d, ?_, .refl d⟩
    rw [hget, if_pos (List.getElem?_eq_some_iff.mp hd).1, hd]

theorem sound_create (bookId : Nat) : Sound (createRetailPriceChangeSet bookId : Tx Price Nat) := by
  intro s a s' h hs
  unfold createRetailPriceChangeSet at h
  simp only [commits_bind, commits_require, commits_attempt, commits_read, commits_orAbort] at h
  obtain ⟨_, _, ⟨rfl, rfl⟩, settings, _, ⟨_, rfl⟩, book, _, ⟨hbook, rfl⟩, _, _, ⟨_, rfl⟩, h⟩ := h
  cases hpending : s.latestOf bookId .pendingReview with
  | some pending =>
      rw [hpending] at h
      exact absurd h commits_abort
  | none =>
      rw [hpending] at h
      dsimp only at h
      cases hdraft : s.latestOf bookId .draft with
      | some existing =>
          rw [hdraft] at h
          obtain ⟨_, rfl⟩ := commits_pure.mp h
          exact ⟨hs, .refl s⟩
      | none =>
          rw [hdraft] at h
          simp only [commits_bind, commits_write, commits_pure] at h
          obtain ⟨_, _, rfl, _, rfl⟩ := h
          exact hs.draft rfl rfl rfl rfl fun _ => rfl

/-- The validated items are the items of the set. -/
theorem mapM_validateItem {format : PriceFormat Price} {models : List Nat}
    {items : List (ChangeSetItem Price)} {validated : List (Nat × Price)}
    (h : items.mapM (validateItem format models) = .ok validated) :
    validated.map (fun item => (item.1, some item.2)) =
      items.map fun item => (item.itemKey, item.afterSnapshot) := by
  have hitem {item : ChangeSetItem Price} {result : Nat × Price}
      (hresult : validateItem format models item = .ok result) :
      (result.1, some result.2) = (item.itemKey, item.afterSnapshot) := by
    unfold validateItem at hresult
    cases hafter : item.afterSnapshot with
    | none =>
        rw [hafter] at hresult
        cases hresult
    | some price =>
        rw [hafter] at hresult
        dsimp only at hresult
        cases hparse : format.parse price with
        | error e =>
            rw [hparse] at hresult
            cases hresult
        | ok parsed =>
            rw [hparse] at hresult
            dsimp only at hresult
            split at hresult
            · cases hresult
            · split at hresult
              · cases hresult
              · cases hresult
                rfl
  induction items generalizing validated with
  | nil =>
      cases h
      rfl
  | cons item items ih =>
      rw [List.mapM_cons] at h
      cases hfirst : validateItem format models item with
      | error e =>
          rw [hfirst] at h
          cases h
      | ok result =>
          cases hrest : items.mapM (validateItem format models) with
          | error e =>
              rw [hfirst, hrest] at h
              cases h
          | ok results =>
              rw [hfirst, hrest] at h
              cases h
              rw [List.map_cons, List.map_cons, hitem hfirst, ih hrest]

/-- What an applied set does to the store. -/
theorem commits_applyRetailPrice {format : PriceFormat Price} {c : ChangeSet Price} {micros : Int}
    {s s' : Store Price} {target : Nat}
    (h : Commits (applyRetailPrice format c micros) s target s') :
    ∃ book validated, s.books c.scopeId = some book ∧
      currentReference book.versions = c.baseRevision ∧
      c.items.mapM (validateItem format s.models) = .ok validated ∧ target = s.nextVersionId ∧
      s' = { s with
        books := Function.update s.books c.scopeId
          (some { book with
            versions := book.versions.map PriceBookVersion.archive ++
              [{ id := s.nextVersionId
                 version := nextVersion book.versions
                 published := true
                 referenceId := referenceIdOf c.scopeId (nextVersion book.versions) micros
                 items := validated }] })
        nextVersionId := s.nextVersionId + 1 } := by
  unfold applyRetailPrice at h
  simp only [commits_bind, commits_require, commits_attempt, commits_read, commits_orAbort,
    commits_write, commits_pure] at h
  obtain ⟨_, _, ⟨rfl, rfl⟩, settings, _, ⟨_, rfl⟩, _, _, ⟨_, rfl⟩, book, _, ⟨hbook, rfl⟩, _, _,
    ⟨_, rfl⟩, _, _, ⟨hreference, rfl⟩, _, _, ⟨_, rfl⟩, validated, _, ⟨hvalidated, rfl⟩, _, _, rfl,
    htarget, rfl⟩ := h
  exact ⟨book, validated, hbook, hreference, hvalidated, htarget.symm, rfl⟩

theorem sound_approve (format : PriceFormat Price) (id : Nat) (micros : Int) :
    Sound (approveChangeSet format id micros) := by
  intro s a s' h hs
  unfold approveChangeSet at h
  simp only [commits_bind, commits_lockChangeSet, commits_require, commits_read] at h
  obtain ⟨c, _, ⟨hc, rfl⟩, _, _, ⟨hpending, rfl⟩, _, _, ⟨rfl, rfl⟩, h⟩ := h
  cases happly : applyRetailPrice format c micros s with
  | ok result =>
      obtain ⟨target, s₁⟩ := result
      rw [happly] at h
      unfold markReviewed updateSet at h
      simp only [commits_bind, commits_write, commits_pure] at h
      obtain ⟨_, _, rfl, _, _, rfl, _, rfl⟩ := h
      obtain ⟨book, validated, hbook, hreference, hvalidated, rfl, rfl⟩ :=
        commits_applyRetailPrice (show Commits _ s target s₁ from happly)
      have hversions : s.versionsOf c.scopeId = book.versions := by
        unfold Store.versionsOf
        rw [hbook]
        rfl
      refine hs.publish hc
        ⟨s.nextVersionId, nextVersion book.versions, true,
          referenceIdOf c.scopeId (nextVersion book.versions) micros, validated⟩
        ?_ ?_ ?_ ?_ ?_ (mapM_validateItem hvalidated) rfl ?_ ⟨micros, rfl⟩ ?_ ?_
      · rfl
      · exact ⟨rfl, rfl, rfl, rfl, by rw [hpending]; rfl, fun _ => rfl⟩
      · rfl
      · rw [hversions]
        exact hreference.symm
      · rfl
      · rw [hversions]
      · show (((Function.update s.books c.scopeId _) c.scopeId).map PriceBook.versions).getD [] = _
        rw [Function.update_self, hversions]
        rfl
      · intro bookId hne
        show (((Function.update s.books c.scopeId _) bookId).map PriceBook.versions).getD [] = _
        rw [Function.update_of_ne hne]
        rfl
  | error failure =>
      rw [happly] at h
      cases failure with
      | superseded message =>
          unfold markReviewed updateSet at h
          simp only [commits_bind, commits_write, commits_pure] at h
          obtain ⟨_, _, rfl, _, rfl⟩ := h
          exact hs.move hc ⟨rfl, rfl, rfl, rfl, by rw [hpending]; rfl, fun _ => rfl⟩ (by simp)
      | invalid message =>
          unfold markInvalid updateSet at h
          simp only [commits_bind, commits_write, commits_pure] at h
          obtain ⟨_, _, rfl, _, rfl⟩ := h
          exact hs.move hc ⟨rfl, rfl, rfl, rfl, by rw [hpending]; rfl, fun _ => rfl⟩ (by simp)
      | storage message => exact absurd h commits_abort

/-! ## Runs -/

theorem Sound.commit {ε α : Type} {t : Transaction (Store Price) ε α} (h : Sound t)
    {s : Store Price} (hs : Reviewed s) : Reviewed (t.commit s) ∧ s.Advances (t.commit s) := by
  rcases commit_cases t s with ⟨a, hcommits⟩ | hsame
  · exact h s a _ hcommits hs
  · rw [hsame]
    exact ⟨hs, .refl s⟩

/-- What one step keeps. -/
theorem Reviewed.step {s : Store Price} (h : Reviewed s) (format : PriceFormat Price)
    (a : Action Price) : Reviewed (s.step format a) ∧ s.Advances (s.step format a) := by
  cases a with
  | create bookId => exact (sound_create bookId).commit h
  | save changeSetId publicModelId price =>
      exact (sound_save format changeSetId publicModelId price).commit h
  | submit id => exact (sound_submit id).commit h
  | approve id micros => exact (sound_approve format id micros).commit h
  | reject id => exact (sound_reject id).commit h
  | setSettings settings => exact h.congr rfl fun _ => rfl
  | setModels models => exact h.congr rfl fun _ => rfl
  | setBook bookId currency =>
      refine h.congr rfl fun other => ?_
      show (((Function.update s.books bookId _) other).map PriceBook.versions).getD [] = _
      by_cases hother : other = bookId
      · subst hother
        rw [Function.update_self]
        rfl
      · rw [Function.update_of_ne hother]
        rfl

theorem Reviewed.run (format : PriceFormat Price) (as : List (Action Price)) :
    ∀ s : Store Price, Reviewed s →
      Reviewed ((system format).run s as) ∧ s.Advances ((system format).run s as) := by
  induction as with
  | nil => exact fun s h => ⟨h, .refl s⟩
  | cons a as ih =>
      intro s h
      obtain ⟨hstep, hadvance⟩ := h.step format a
      obtain ⟨hrun, hadvance'⟩ := ih _ hstep
      exact ⟨hrun, hadvance.trans hadvance'⟩

theorem reviewed_init : Reviewed ({} : Store Price) where
  ids i c h := by simp at h
  replayed c h := absurd h List.not_mem_nil
  lineage bookId := ⟨[], .nil, List.nodup_nil, by simp⟩

/-- Whatever admins do in whatever order, the versions of a price book are
what its applied change sets published, each once, drafted from the version
just before it and with exactly its items; versions are numbered from 1, have
references of their own, and only the last one is published. The events of a
change set always lead to its status, and later its events are only added to,
its items no longer change once it is submitted, and a closed set does not
change at all. -/
theorem retail_prices_reviewed (format : PriceFormat Price) (as bs : List (Action Price)) :
    let s := (system format).run {} as
    let s' := (system format).run {} (as ++ bs)
    (∀ bookId : Nat, (∃ sets : List (ChangeSet Price), Lineage bookId sets (s.versionsOf bookId) ∧
        (sets.map ChangeSet.id).Nodup ∧
        ∀ c : ChangeSet Price, c ∈ sets ↔
          c ∈ s.changeSets ∧ c.scopeId = bookId ∧ c.status = .applied) ∧
      (s.versionsOf bookId).map PriceBookVersion.version =
        List.range' 1 (s.versionsOf bookId).length ∧
      (s.versionsOf bookId).map PriceBookVersion.published =
        (List.range (s.versionsOf bookId).length).map
          (fun i => decide (i + 1 = (s.versionsOf bookId).length)) ∧
      ((s.versionsOf bookId).map PriceBookVersion.referenceId).Nodup) ∧
    (∀ c ∈ s.changeSets, replay c.events = some c.status) ∧ s.Advances s' := by
  obtain ⟨h, _⟩ := Reviewed.run format as {} reviewed_init
  obtain ⟨_, hadvance⟩ := Reviewed.run format bs _ h
  rw [← TSys.run_append] at hadvance
  refine ⟨fun bookId => ?_, h.replayed, hadvance⟩
  obtain ⟨sets, hline, hnodup, hmem⟩ := h.lineage bookId
  exact ⟨⟨sets, hline, hnodup, hmem⟩, hline.numbered.1, hline.numbered.2, hline.references⟩

end Conduit.Billing.ChangeSets
