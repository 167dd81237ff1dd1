import Conduit.Base.Framing
import Mathlib

/-!
# Rows of route affinity and where they are kept

A row remembers the route of an affinity value for one scope. Both
repositories keep at most one row for a scope: one is a map keyed by the
scope, the other a table with a unique constraint on the columns of the scope.
A project id is the decimal text of a number, so comparing the texts is
comparing the numbers.
-/

namespace Conduit.RouteAffinity

/-- The scope of a lookup. No string of the program is longer than its length
type can say. -/
structure RouteAffinityKey where
  projectId : String
  keyClass : String
  keyHash : String
  publicModelId : String
  apiFormat : String
  fits : ∀ part ∈ [projectId, keyClass, keyHash, publicModelId, apiFormat],
    part.toByteArray.data.toList.length < 2 ^ 64

structure RouteAffinityRow where
  id : String
  projectId : String
  keyClass : String
  keyHash : String
  publicModelId : String
  apiFormat : String
  channelId : String
  upstreamModelId : String
  upstreamApiFormat : String
  credentialIdentity : Option String
  expiresAt : Int
  createdAt : Int
  updatedAt : Int
  deriving DecidableEq

structure UpsertRouteAffinityInput where
  key : RouteAffinityKey
  channelId : String
  upstreamModelId : String
  upstreamApiFormat : String
  credentialIdentity : Option String
  expiresAt : Int

def rowMatchesKey (row : RouteAffinityRow) (key : RouteAffinityKey) : Bool :=
  row.projectId = key.projectId && row.keyClass = key.keyClass && row.keyHash = key.keyHash &&
    row.publicModelId = key.publicModelId && row.apiFormat = key.apiFormat

/-! ## The repository -/

structure RouteAffinityRepo where
  rows : List RouteAffinityRow

namespace RouteAffinityRepo

/-- The row of a scope. -/
def row (repo : RouteAffinityRepo) (key : RouteAffinityKey) : Option RouteAffinityRow :=
  repo.rows.find? fun row => rowMatchesKey row key

def findValidRouteAffinity (repo : RouteAffinityRepo) (key : RouteAffinityKey) (now : Int) :
    Option RouteAffinityRow :=
  (repo.row key).filter fun row => decide (now < row.expiresAt)

/-- The row of the input. It keeps its id and its creation time if it was there;
`freshId` is what the repository would number a new row. -/
def upserted (repo : RouteAffinityRepo) (input : UpsertRouteAffinityInput) (freshId : String)
    (now : Int) : RouteAffinityRow where
  id := ((repo.row input.key).map RouteAffinityRow.id).getD freshId
  projectId := input.key.projectId
  keyClass := input.key.keyClass
  keyHash := input.key.keyHash
  publicModelId := input.key.publicModelId
  apiFormat := input.key.apiFormat
  channelId := input.channelId
  upstreamModelId := input.upstreamModelId
  upstreamApiFormat := input.upstreamApiFormat
  credentialIdentity := input.credentialIdentity
  expiresAt := input.expiresAt
  createdAt := ((repo.row input.key).map RouteAffinityRow.createdAt).getD now
  updatedAt := now

def upsertRouteAffinity (repo : RouteAffinityRepo) (input : UpsertRouteAffinityInput)
    (freshId : String) (now : Int) : RouteAffinityRepo where
  rows := (repo.rows.filter fun row => !rowMatchesKey row input.key) ++
    [repo.upserted input freshId now]

/-- Deletes the expired rows among the chosen ones: which of them come first and
the limit on their number differ between the repositories. -/
def deleteExpiredRouteAffinities (repo : RouteAffinityRepo) (now : Int)
    (chosen : RouteAffinityRow → Bool) : RouteAffinityRepo where
  rows := repo.rows.filter fun row => !(decide (row.expiresAt ≤ now) && chosen row)

theorem findValid_some {repo : RouteAffinityRepo} {key : RouteAffinityKey} {now : Int}
    {row : RouteAffinityRow} (h : repo.findValidRouteAffinity key now = some row) :
    rowMatchesKey row key = true ∧ now < row.expiresAt := by
  unfold findValidRouteAffinity at h
  obtain ⟨hrow, hvalid⟩ := Option.filter_eq_some_iff.mp h
  have hmatches := List.find?_some (p := fun row => rowMatchesKey row key) hrow
  exact ⟨hmatches, of_decide_eq_true hvalid⟩

/-- Without a write, a row is found until it expires. -/
theorem findValid_of_some {repo : RouteAffinityRepo} {key : RouteAffinityKey} {now later : Int}
    {row : RouteAffinityRow} (h : repo.findValidRouteAffinity key now = some row)
    (hlater : later < row.expiresAt) : repo.findValidRouteAffinity key later = some row := by
  unfold findValidRouteAffinity at h ⊢
  obtain ⟨hrow, -⟩ := Option.filter_eq_some_iff.mp h
  exact Option.filter_eq_some_iff.mpr ⟨hrow, decide_eq_true hlater⟩

/-- Without a write, nothing is found where nothing was found. -/
theorem findValid_none_mono {repo : RouteAffinityRepo} {key : RouteAffinityKey} {now later : Int}
    (h : repo.findValidRouteAffinity key now = none) (hle : now ≤ later) :
    repo.findValidRouteAffinity key later = none := by
  cases hlater : repo.findValidRouteAffinity key later with
  | none => rfl
  | some row =>
      have hvalid := (findValid_some hlater).2
      rw [findValid_of_some hlater (Int.lt_of_le_of_lt hle hvalid)] at h
      exact absurd h (by simp)

theorem rowMatchesKey_upserted (repo : RouteAffinityRepo) (input : UpsertRouteAffinityInput)
    (freshId : String) (now : Int) : rowMatchesKey (repo.upserted input freshId now) input.key = true := by
  unfold rowMatchesKey upserted
  simp

/-- The row that was written is the one that is found. -/
theorem findValid_upsert (repo : RouteAffinityRepo) (input : UpsertRouteAffinityInput)
    (freshId : String) {now asked : Int} (h : asked < input.expiresAt) :
    (repo.upsertRouteAffinity input freshId now).findValidRouteAffinity input.key asked =
      some (repo.upserted input freshId now) := by
  have hothers : (repo.rows.filter fun row => !rowMatchesKey row input.key).find?
      (fun row => rowMatchesKey row input.key) = none := by
    rw [List.find?_eq_none]
    intro row hrow
    simpa using (List.mem_filter.mp hrow).2
  have hrow : (repo.upsertRouteAffinity input freshId now).row input.key =
      some (repo.upserted input freshId now) := by
    unfold row upsertRouteAffinity
    rw [List.find?_append, hothers, Option.none_or, List.find?_singleton,
      if_pos (rowMatchesKey_upserted repo input freshId now)]
  unfold findValidRouteAffinity
  rw [hrow]
  exact Option.filter_eq_some_iff.mpr ⟨rfl, decide_eq_true h⟩

end RouteAffinityRepo

end Conduit.RouteAffinity
